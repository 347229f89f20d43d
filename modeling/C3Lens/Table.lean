/-!
# Ordered tables

A table maps names to values and keeps the order in which the names came in. A name stands
in it at most once: a second insertion under a name replaces the value and keeps the place.
-/

namespace C3Lens

/-- A table with distinct names in the order of their first insertion. -/
structure Table (α : Type) where
  entries : List (String × α)
  nodup : (entries.map Prod.fst).Nodup := by simp

namespace Table

variable {α β : Type}

/-- The table without entries. -/
def empty : Table α :=
  ⟨[], by simp⟩

instance : Inhabited (Table α) := ⟨empty⟩

instance : EmptyCollection (Table α) := ⟨empty⟩

/-- Sets the value of a name in a list of entries, at its place or at the end. -/
def insertEntry (name : String) (value : α) : List (String × α) → List (String × α)
  | [] => [(name, value)]
  | e :: es => if e.1 = name then (name, value) :: es else e :: insertEntry name value es

theorem mem_keys_insertEntry {name key : String} {value : α} {es : List (String × α)} :
    key ∈ (insertEntry name value es).map Prod.fst ↔ key = name ∨ key ∈ es.map Prod.fst := by
  induction es with
  | nil => simp [insertEntry]
  | cons e es ih =>
    by_cases h : e.1 = name
    · simp [insertEntry, h]
    · simp only [insertEntry, h, if_false, List.map_cons, List.mem_cons, ih]
      exact or_left_comm

theorem nodup_keys_insertEntry {name : String} {value : α} {es : List (String × α)}
    (h : (es.map Prod.fst).Nodup) : ((insertEntry name value es).map Prod.fst).Nodup := by
  induction es with
  | nil => simp [insertEntry]
  | cons e es ih =>
    rw [List.map_cons, List.nodup_cons] at h
    by_cases he : e.1 = name
    · simp only [insertEntry, he, if_true, List.map_cons, List.nodup_cons]
      exact ⟨he ▸ h.1, h.2⟩
    · simp only [insertEntry, he, if_false, List.map_cons, List.nodup_cons, mem_keys_insertEntry]
      exact ⟨fun hk => hk.elim False.elim h.1, ih h.2⟩

/-- Sets the value of a name. -/
def insert (t : Table α) (name : String) (value : α) : Table α :=
  ⟨insertEntry name value t.entries, nodup_keys_insertEntry t.nodup⟩

/-- The value of a name. -/
def get? (t : Table α) (name : String) : Option α :=
  t.entries.lookup name

/-- Whether the name is in the table. -/
def contains (t : Table α) (name : String) : Bool :=
  (t.get? name).isSome

/-- The names, in order. -/
def names (t : Table α) : List String :=
  t.entries.map Prod.fst

/-- The values, in order. -/
def values (t : Table α) : List α :=
  t.entries.map Prod.snd

/-- Whether the table has no entries. -/
def isEmpty (t : Table α) : Bool :=
  t.entries.isEmpty

/-- Number of entries. -/
def size (t : Table α) : Nat :=
  t.entries.length

/-- Sets the values of all entries of `s` in order. -/
def insertAll (t s : Table α) : Table α :=
  s.entries.foldl (fun t e => t.insert e.1 e.2) t

/-- The table of a list of entries; later ones replace the values of earlier ones. -/
def ofList (es : List (String × α)) : Table α :=
  es.foldl (fun t e => t.insert e.1 e.2) empty

/-- Changes every value, knowing its name. -/
def mapEntries (f : String → α → β) (t : Table α) : Table β :=
  ⟨t.entries.map fun e => (e.1, f e.1 e.2), by
    have h : (t.entries.map fun e => (e.1, f e.1 e.2)).map Prod.fst = t.entries.map Prod.fst := by
      simp [Function.comp_def]
    rw [h]
    exact t.nodup⟩

/-- Changes every value. -/
def map (f : α → β) (t : Table α) : Table β :=
  t.mapEntries fun _ => f

/-- Changes the value of a name, if it is in the table. -/
def modify (t : Table α) (name : String) (f : α → α) : Table α :=
  t.mapEntries fun key value => if key = name then f value else value

/-- Keeps the entries that satisfy `p`. -/
def filter (p : String → α → Bool) (t : Table α) : Table α :=
  ⟨t.entries.filter fun e => p e.1 e.2,
    t.nodup.sublist (List.Sublist.map _ List.filter_sublist)⟩

/-- Removes a name; the others keep their order. -/
def erase (t : Table α) (name : String) : Table α :=
  t.filter fun key _ => key != name

end Table

end C3Lens
