import Mathlib.Data.List.Nodup
import C3Lens.Table

/-!
# Laws of ordered tables

A table is seen through `get?`, its names and its list of entries. Each operation has one law
for each view:

* `get?_insert`, `get?_erase`, `get?_mapEntries`, `get?_modify`;
* `names_insert`, `names_erase`, `names_mapEntries`;
* `entries_insert_perm`: an insertion replaces the entry of its name and leaves the others.
-/

namespace C3Lens.Table

variable {α β γ : Type}

theorem ext_entries {t s : Table α} (h : t.entries = s.entries) : t = s := by
  cases t
  cases s
  cases h
  rfl

/-! ## Looking up a name -/

theorem lookup_cons_eq_ite (e : String × α) (es : List (String × α)) (name : String) :
    (e :: es).lookup name = if name = e.1 then some e.2 else es.lookup name := by
  rw [List.lookup_cons]
  by_cases h : name = e.1
  · simp [h]
  · rw [if_neg h, beq_eq_false_iff_ne.2 h]

theorem mem_entries_iff {t : Table α} {name : String} {a : α} :
    (name, a) ∈ t.entries ↔ t.get? name = some a := by
  obtain ⟨es, nodup⟩ := t
  simp only [get?]
  induction es with
  | nil => simp
  | cons e es ih =>
    rw [List.map_cons, List.nodup_cons] at nodup
    rw [List.mem_cons, lookup_cons_eq_ite, ih nodup.2]
    split
    next h =>
      subst h
      have absent : es.lookup e.1 ≠ some a := fun found =>
        nodup.1 (List.mem_map.2 ⟨(e.1, a), (ih nodup.2).2 found, rfl⟩)
      simp only [absent, or_false, Option.some_inj]
      constructor
      · intro eq
        rw [← eq]
      · intro eq
        rw [← eq]
    next h =>
      have different : (name, a) ≠ e := fun eq => h (by rw [← eq])
      simp [different]

theorem mem_values_iff {t : Table α} {a : α} : a ∈ t.values ↔ ∃ name, t.get? name = some a := by
  simp only [values, List.mem_map, Prod.exists, exists_eq_right, mem_entries_iff]

theorem mem_names_iff {t : Table α} {name : String} : name ∈ t.names ↔ ∃ a, t.get? name = some a := by
  simp only [names, List.mem_map, Prod.exists, mem_entries_iff, exists_and_right, exists_eq_right]

theorem contains_iff {t : Table α} {name : String} : t.contains name = true ↔ name ∈ t.names := by
  rw [mem_names_iff, contains, Option.isSome_iff_exists]

theorem get?_eq_none_iff {t : Table α} {name : String} : t.get? name = none ↔ name ∉ t.names := by
  rw [← contains_iff, contains, Bool.not_eq_true, Option.isSome_eq_false_iff, Option.isNone_iff_eq_none]

@[simp] theorem get?_empty (name : String) : (empty : Table α).get? name = none := rfl

@[simp] theorem names_empty : (empty : Table α).names = [] := rfl

/-- Two tables with the same names in the same order and the same values are equal. -/
theorem ext_get? {t s : Table α} (names : t.names = s.names)
    (values : ∀ name, t.get? name = s.get? name) : t = s := by
  apply ext_entries
  have pick : ∀ u : Table α, u.entries.map (fun e => (e.1, u.get? e.1)) =
      u.entries.map (fun e => (e.1, some e.2)) := by
    intro u
    refine List.map_congr_left fun e he => ?_
    rw [mem_entries_iff.1 (show (e.1, e.2) ∈ u.entries from he)]
  have byNames : ∀ u : Table α, u.entries.map (fun e => (e.1, u.get? e.1)) =
      u.names.map (fun name => (name, u.get? name)) := by
    intro u
    simp [Table.names, Function.comp_def]
  have inj : Function.Injective fun e : String × α => (e.1, some e.2) := by
    rintro ⟨a, b⟩ ⟨c, d⟩ h
    simpa using h
  apply List.map_injective_iff.2 inj
  show t.entries.map (fun e => (e.1, some e.2)) = s.entries.map (fun e => (e.1, some e.2))
  rw [← pick t, ← pick s, byNames t, byNames s, names]
  refine List.map_congr_left fun name _ => ?_
  rw [values]

/-! ## Insertion -/

theorem lookup_insertEntry (name key : String) (a : α) (es : List (String × α)) :
    (insertEntry name a es).lookup key = if key = name then some a else es.lookup key := by
  induction es with
  | nil => simp [insertEntry, lookup_cons_eq_ite]
  | cons e es ih =>
    rw [insertEntry]
    by_cases he : e.1 = name
    · rw [if_pos he, lookup_cons_eq_ite, lookup_cons_eq_ite, he]
      split <;> rfl
    · rw [if_neg he, lookup_cons_eq_ite, ih, lookup_cons_eq_ite]
      by_cases hk : key = e.1
      · rw [if_pos hk, hk, if_neg he, if_pos rfl]
      · rw [if_neg hk, if_neg hk]

theorem get?_insert (t : Table α) (name key : String) (a : α) :
    (t.insert name a).get? key = if key = name then some a else t.get? key :=
  lookup_insertEntry name key a t.entries

@[simp] theorem get?_insert_self (t : Table α) (name : String) (a : α) :
    (t.insert name a).get? name = some a := by
  rw [get?_insert, if_pos rfl]

theorem keys_insertEntry (name : String) (a : α) (es : List (String × α)) :
    (insertEntry name a es).map Prod.fst =
      if name ∈ es.map Prod.fst then es.map Prod.fst else es.map Prod.fst ++ [name] := by
  induction es with
  | nil => simp [insertEntry]
  | cons e es ih =>
    rw [insertEntry]
    by_cases h : e.1 = name
    · simp [h]
    · rw [if_neg h, List.map_cons, ih]
      by_cases hk : name ∈ es.map Prod.fst
      · simp [hk]
      · have hne : ¬ name = e.1 := fun eq => h eq.symm
        rw [if_neg hk, List.map_cons, if_neg (List.not_mem_cons_of_ne_of_not_mem hne hk)]
        rfl

theorem names_insert (t : Table α) (name : String) (a : α) :
    (t.insert name a).names = if name ∈ t.names then t.names else t.names ++ [name] :=
  keys_insertEntry name a t.entries

theorem mem_names_insert {t : Table α} {name key : String} {a : α} :
    key ∈ (t.insert name a).names ↔ key = name ∨ key ∈ t.names :=
  mem_keys_insertEntry

/-- A new name comes last. -/
theorem entries_insert_of_notMem {t : Table α} {name : String} (h : name ∉ t.names) (a : α) :
    (t.insert name a).entries = t.entries ++ [(name, a)] := by
  have last : ∀ es : List (String × α), name ∉ es.map Prod.fst →
      insertEntry name a es = es ++ [(name, a)] := by
    intro es
    induction es with
    | nil => exact fun _ => rfl
    | cons e es ih =>
      intro new
      rw [List.map_cons, List.mem_cons, not_or] at new
      rw [insertEntry, if_neg (Ne.symm new.1), ih new.2, List.cons_append]
  exact last t.entries h

/-- Entries with new names come last, in order. -/
theorem entries_foldl_insert {es : List (String × α)} {t : Table α} (nodup : (t.names ++ es.map Prod.fst).Nodup) :
    (es.foldl (fun t e => t.insert e.1 e.2) t).entries = t.entries ++ es := by
  induction es generalizing t with
  | nil => exact (List.append_nil _).symm
  | cons e es ih =>
    have new : e.1 ∉ t.names := fun mem => (List.nodup_append.1 nodup).2.2 e.1 mem e.1 List.mem_cons_self rfl
    have names : (t.insert e.1 e.2).names = t.names ++ [e.1] := by rw [names_insert, if_neg new]
    rw [List.foldl_cons, ih, entries_insert_of_notMem new, List.append_assoc]
    · rfl
    · rw [names, List.append_assoc]
      exact nodup

theorem entries_ofList {es : List (String × α)} (nodup : (es.map Prod.fst).Nodup) : (ofList es).entries = es :=
  entries_foldl_insert (t := empty) nodup

@[simp] theorem insert_insert (t : Table α) (name : String) (a b : α) :
    (t.insert name a).insert name b = t.insert name b := by
  apply ext_get?
  · rw [names_insert, if_pos (mem_names_insert.2 (.inl rfl)), names_insert, names_insert]
  · intro key
    simp only [get?_insert]
    split <;> rfl

/-- Putting back the value that a name has changes nothing. -/
theorem insert_get? {t : Table α} {name : String} {a : α} (h : t.get? name = some a) :
    t.insert name a = t := by
  apply ext_get?
  · rw [names_insert, if_pos (mem_names_iff.2 ⟨a, h⟩)]
  · intro key
    rw [get?_insert]
    split
    next eq => rw [eq, h]
    next => rfl

/-! ## Removal -/

theorem entries_erase (t : Table α) (name : String) :
    (t.erase name).entries = t.entries.filter fun e => e.1 != name := rfl

theorem names_erase (t : Table α) (name : String) :
    (t.erase name).names = t.names.filter (· != name) := by
  rw [names, entries_erase, names, List.filter_map]
  rfl

theorem mem_names_erase {t : Table α} {name key : String} :
    key ∈ (t.erase name).names ↔ key ∈ t.names ∧ key ≠ name := by
  rw [names_erase, List.mem_filter, bne_iff_ne]

theorem get?_erase (t : Table α) (name key : String) :
    (t.erase name).get? key = if key = name then none else t.get? key := by
  by_cases h : key = name
  · rw [if_pos h, get?_eq_none_iff, mem_names_erase]
    exact fun hk => hk.2 h
  · rw [if_neg h]
    refine Option.ext fun a => ?_
    rw [← mem_entries_iff, ← mem_entries_iff, entries_erase, List.mem_filter]
    simp [h]

@[simp] theorem get?_erase_self (t : Table α) (name : String) : (t.erase name).get? name = none := by
  rw [get?_erase, if_pos rfl]

theorem get?_filter (p : String → α → Bool) (t : Table α) (name : String) :
    (t.filter p).get? name = (t.get? name).filter (p name) := by
  ext a
  rw [Option.filter_eq_some_iff, ← mem_entries_iff, ← mem_entries_iff]
  exact List.mem_filter

theorem erase_of_notMem {t : Table α} {name : String} (h : name ∉ t.names) : t.erase name = t := by
  apply ext_get?
  · rw [names_erase]
    refine List.filter_eq_self.2 fun key hk => ?_
    rw [bne_iff_ne]
    exact fun eq => h (eq ▸ hk)
  · intro key
    rw [get?_erase]
    split
    next eq => rw [eq, get?_eq_none_iff.2 h]
    next => rfl

/-- The entries of a table are that of a name it has and all others. -/
theorem entries_perm_of_get? {t : Table α} {name : String} {a : α} (h : t.get? name = some a) :
    t.entries.Perm ((name, a) :: (t.erase name).entries) := by
  have nodup : ∀ u : Table α, u.entries.Nodup := fun u => List.Nodup.of_map _ u.nodup
  rw [List.perm_ext_iff_of_nodup (nodup t)]
  · intro e
    rw [entries_erase, List.mem_cons, List.mem_filter, bne_iff_ne]
    by_cases he : e.1 = name
    · have only : e ∈ t.entries ↔ e = (name, a) := by
        obtain ⟨key, b⟩ := e
        subst he
        rw [mem_entries_iff, h, Option.some_inj, Prod.mk.injEq]
        exact ⟨fun eq => ⟨rfl, eq.symm⟩, fun eq => eq.2.symm⟩
      simp [only, he]
    · have other : e ≠ (name, a) := fun eq => he (by rw [eq])
      simp [he, other]
  · rw [List.nodup_cons, entries_erase, List.mem_filter, bne_iff_ne]
    exact ⟨fun hm => hm.2 rfl, (nodup t).filter _⟩

theorem values_perm_of_get? {t : Table α} {name : String} {a : α} (h : t.get? name = some a) :
    t.values.Perm (a :: (t.erase name).values) :=
  (entries_perm_of_get? h).map Prod.snd

theorem erase_insert (t : Table α) (name : String) (a : α) :
    (t.insert name a).erase name = t.erase name := by
  apply ext_get?
  · rw [names_erase, names_erase, names_insert]
    split
    · rfl
    · simp
  · intro key
    simp only [get?_erase, get?_insert]
    split <;> rfl

/-- The values after an insertion are the new one and those of all other names. -/
theorem values_insert_perm (t : Table α) (name : String) (a : α) :
    (t.insert name a).values.Perm (a :: (t.erase name).values) := by
  have h := values_perm_of_get? (get?_insert_self t name a)
  rwa [erase_insert] at h

/-! ## Changing values -/

theorem values_insert_subset (t : Table α) (name : String) (a : α) :
    (t.insert name a).values ⊆ a :: t.values := by
  intro b hb
  rcases List.mem_cons.1 ((values_insert_perm t name a).subset hb) with rfl | hb
  · exact List.mem_cons_self
  · obtain ⟨key, found⟩ := mem_values_iff.1 hb
    rw [get?_erase] at found
    split at found
    · cases found
    · exact List.mem_cons_of_mem _ (mem_values_iff.2 ⟨key, found⟩)

theorem flatMap_insert_subset (t : Table α) (name : String) (a : α) (f : α → List β) :
    (t.insert name a).values.flatMap f ⊆ t.values.flatMap f ++ f a := by
  intro b hb
  obtain ⟨c, hc, hbc⟩ := List.mem_flatMap.1 hb
  rcases List.mem_cons.1 (values_insert_subset t name a hc) with same | hc
  · exact List.mem_append_right _ (same ▸ hbc)
  · exact List.mem_append_left _ (List.mem_flatMap.2 ⟨c, hc, hbc⟩)

theorem values_foldl_insert_subset (es : List (String × α)) (t : Table α) :
    (es.foldl (fun t e => t.insert e.1 e.2) t).values ⊆ t.values ++ es.map Prod.snd := by
  induction es generalizing t with
  | nil => exact List.subset_append_left _ _
  | cons e es ih =>
    intro b hb
    rcases List.mem_append.1 (ih (t.insert e.1 e.2) hb) with hb | hb
    · rcases List.mem_cons.1 (values_insert_subset t e.1 e.2 hb) with rfl | hb
      · exact List.mem_append_right _ List.mem_cons_self
      · exact List.mem_append_left _ hb
    · exact List.mem_append_right _ (List.mem_cons_of_mem _ hb)

theorem forall_values_insert {P : α → Prop} {t : Table α} {name : String} {a : α} (h : ∀ b ∈ t.values, P b)
    (new : P a) : ∀ b ∈ (t.insert name a).values, P b := by
  intro b hb
  rcases List.mem_cons.1 (values_insert_subset t name a hb) with rfl | old
  · exact new
  · exact h b old

theorem forall_values_foldl_insert {P : α → Prop} {key : α → String} {as : List α} {t : Table α}
    (h : ∀ b ∈ t.values, P b) (new : ∀ a ∈ as, P a) :
    ∀ b ∈ (as.foldl (fun t a => t.insert (key a) a) t).values, P b := by
  induction as generalizing t with
  | nil => exact h
  | cons a as ih =>
    exact ih (forall_values_insert h (new a List.mem_cons_self)) fun b hb => new b (List.mem_cons_of_mem _ hb)

theorem values_insertAll_subset (t s : Table α) : (t.insertAll s).values ⊆ t.values ++ s.values :=
  values_foldl_insert_subset s.entries t

theorem values_ofList_subset (es : List (String × α)) : (ofList es).values ⊆ es.map Prod.snd :=
  values_foldl_insert_subset es empty

/-- Values that are put under their names. -/
theorem forall_values_ofList {P : α → Prop} {key : α → String} {as : List α} (h : ∀ a ∈ as, P a) :
    ∀ a ∈ (ofList (as.map fun a => (key a, a))).values, P a := by
  intro a ha
  obtain ⟨e, he, rfl⟩ := List.mem_map.1 (values_ofList_subset _ ha)
  obtain ⟨b, hb, rfl⟩ := List.mem_map.1 he
  exact h b hb

theorem get?_mapEntries (f : String → α → β) (t : Table α) (name : String) :
    (t.mapEntries f).get? name = (t.get? name).map (f name) := by
  obtain ⟨es, nodup⟩ := t
  simp only [get?, mapEntries]
  clear nodup
  induction es with
  | nil => rfl
  | cons e es ih =>
    rw [List.map_cons, lookup_cons_eq_ite, lookup_cons_eq_ite, ih]
    split
    next h =>
      subst h
      rfl
    next => rfl

@[simp] theorem names_mapEntries (f : String → α → β) (t : Table α) :
    (t.mapEntries f).names = t.names := by
  simp [names, mapEntries, Function.comp_def]

@[simp] theorem get?_map (f : α → β) (t : Table α) (name : String) :
    (t.map f).get? name = (t.get? name).map f :=
  get?_mapEntries _ t name

@[simp] theorem names_map (f : α → β) (t : Table α) : (t.map f).names = t.names :=
  names_mapEntries _ t

@[simp] theorem values_map (f : α → β) (t : Table α) : (t.map f).values = t.values.map f := by
  simp [values, map, mapEntries, Function.comp_def]

@[simp] theorem map_map (g : β → γ) (f : α → β) (t : Table α) : (t.map f).map g = t.map (g ∘ f) := by
  apply ext_entries
  simp [map, mapEntries, Function.comp_def]

theorem map_congr {f g : α → β} {t : Table α} (h : ∀ a ∈ t.values, f a = g a) : t.map f = t.map g := by
  apply ext_entries
  refine List.map_congr_left fun e he => ?_
  show (e.1, f e.2) = (e.1, g e.2)
  rw [h e.2 (List.mem_map_of_mem he)]

theorem mapEntries_congr {f g : String → α → β} {t : Table α}
    (h : ∀ name a, t.get? name = some a → f name a = g name a) : t.mapEntries f = t.mapEntries g := by
  apply ext_entries
  refine List.map_congr_left fun e he => ?_
  rw [h e.1 e.2 (mem_entries_iff.1 he)]

theorem mapEntries_mapEntries (g : String → β → γ) (f : String → α → β) (t : Table α) :
    (t.mapEntries f).mapEntries g = t.mapEntries fun name a => g name (f name a) := by
  apply ext_entries
  simp [mapEntries, Function.comp_def]

theorem mapEntries_id {f : String → α → α} {t : Table α}
    (h : ∀ name a, t.get? name = some a → f name a = a) : t.mapEntries f = t := by
  apply ext_get?
  · rw [names_mapEntries]
  · intro name
    rw [get?_mapEntries]
    cases found : t.get? name with
    | none => rfl
    | some a => rw [Option.map_some, h name a found]

theorem map_id' {f : α → α} {t : Table α} (h : ∀ a ∈ t.values, f a = a) : t.map f = t :=
  mapEntries_id fun name a found => h a (mem_values_iff.2 ⟨name, found⟩)

@[simp] theorem names_modify (t : Table α) (name : String) (f : α → α) :
    (t.modify name f).names = t.names :=
  names_mapEntries _ t

theorem get?_modify (t : Table α) (name key : String) (f : α → α) :
    (t.modify name f).get? key = if key = name then (t.get? key).map f else t.get? key := by
  rw [modify, get?_mapEntries]
  split
  · rfl
  · exact congrFun Option.map_id_fun' _

/-- Changes of two values may be made in either order, and so may changes of one value that do not
disturb each other. -/
theorem modify_comm {t : Table α} {a b : String} {f g : α → α} (h : a = b → ∀ x, f (g x) = g (f x)) :
    (t.modify a f).modify b g = (t.modify b g).modify a f := by
  simp only [modify, mapEntries_mapEntries]
  refine mapEntries_congr fun name x _ => ?_
  by_cases first : name = a
  · by_cases second : name = b
    · simp only [if_pos first, if_pos second, h (first.symm.trans second)]
    · simp only [if_pos first, if_neg second]
  · simp only [if_neg first]

theorem modify_of_fixed {t : Table α} {name : String} {f : α → α}
    (h : ∀ a, t.get? name = some a → f a = a) : t.modify name f = t := by
  refine mapEntries_id fun key a found => ?_
  split
  next same => exact h a (same ▸ found)
  next => rfl

theorem mapEntries_insert (f : String → α → β) (t : Table α) (name : String) (a : α) :
    (t.insert name a).mapEntries f = (t.mapEntries f).insert name (f name a) := by
  apply ext_get?
  · simp only [names_mapEntries, names_insert]
  · intro key
    simp only [get?_mapEntries, get?_insert]
    split
    next same => rw [same, Option.map_some]
    next => rfl

theorem mapEntries_erase (f : String → α → β) (t : Table α) (name : String) :
    (t.erase name).mapEntries f = (t.mapEntries f).erase name := by
  apply ext_get?
  · simp only [names_mapEntries, names_erase]
  · intro key
    simp only [get?_mapEntries, get?_erase]
    split <;> rfl

theorem map_insert (f : α → β) (t : Table α) (name : String) (a : α) :
    (t.insert name a).map f = (t.map f).insert name (f a) :=
  mapEntries_insert _ t name a

theorem map_erase (f : α → β) (t : Table α) (name : String) :
    (t.erase name).map f = (t.map f).erase name :=
  mapEntries_erase _ t name

/-- A change of one value that `f` does not see leaves the image under `f`. -/
theorem map_modify {f : α → β} {g : α → α} {t : Table α} {name : String}
    (h : ∀ a, t.get? name = some a → f (g a) = f a) : (t.modify name g).map f = t.map f := by
  apply ext_get?
  · simp
  · intro key
    rw [get?_map, get?_modify, get?_map]
    split
    next eq =>
      subst eq
      cases found : t.get? key with
      | none => rfl
      | some a => simp [h a found]
    next => rfl

/-- A change of one value goes past `f`. -/
theorem map_modify_comm {f : α → β} {g : α → α} {g' : β → β} (h : ∀ a, f (g a) = g' (f a))
    (t : Table α) (name : String) : (t.modify name g).map f = (t.map f).modify name g' := by
  rw [map, modify, mapEntries_mapEntries, map, modify, mapEntries_mapEntries]
  refine mapEntries_congr fun key a _ => ?_
  rw [apply_ite f, h]

theorem map_foldl_insert {f : α → β} {key : α → String} {newKey : β → String}
    (kept : ∀ a, newKey (f a) = key a) (as : List α) (t : Table α) :
    (as.foldl (fun t a => t.insert (key a) a) t).map f =
      (as.map f).foldl (fun t b => t.insert (newKey b) b) (t.map f) := by
  induction as generalizing t with
  | nil => rfl
  | cons a as ih =>
    rw [List.foldl_cons, ih, map_insert, List.map_cons, List.foldl_cons, kept]

theorem map_ofList {f : α → β} {key : α → String} {newKey : β → String}
    (kept : ∀ a, newKey (f a) = key a) (as : List α) :
    (ofList (as.map fun a => (key a, a))).map f = ofList ((as.map f).map fun b => (newKey b, b)) := by
  rw [ofList, ofList, List.foldl_map, List.foldl_map, map_foldl_insert kept]
  rfl

/-! ## Values under their own names -/

/-- Every value stands under its name. -/
def KeyedBy (key : α → String) (t : Table α) : Prop :=
  ∀ name a, t.get? name = some a → key a = name

section KeyedBy

variable {key : α → String} {t : Table α}

theorem keyedBy_empty : (empty : Table α).KeyedBy key :=
  fun _ _ h => nomatch h

theorem KeyedBy.get?_of_mem (h : t.KeyedBy key) {a : α} (ha : a ∈ t.values) : t.get? (key a) = some a := by
  obtain ⟨name, found⟩ := mem_values_iff.1 ha
  rw [h name a found, found]

theorem KeyedBy.names_eq (h : t.KeyedBy key) : t.names = t.values.map key := by
  rw [names, values, List.map_map]
  exact List.map_congr_left fun e he => (h e.1 e.2 (mem_entries_iff.1 he)).symm

/-- A value with a new name comes last. -/
theorem KeyedBy.values_insert (h : t.KeyedBy key) {a : α} (new : key a ∉ t.values.map key) :
    (t.insert (key a) a).values = t.values ++ [a] := by
  rw [← h.names_eq] at new
  rw [values, entries_insert_of_notMem new, List.map_append]
  rfl

theorem KeyedBy.insert (h : t.KeyedBy key) {name : String} {a : α} (named : key a = name) :
    (t.insert name a).KeyedBy key := by
  intro other b hb
  rw [get?_insert] at hb
  split at hb
  next same =>
    cases hb
    exact named.trans same.symm
  next => exact h other b hb

theorem KeyedBy.erase (h : t.KeyedBy key) (name : String) : (t.erase name).KeyedBy key := by
  intro other b hb
  rw [get?_erase] at hb
  split at hb
  · cases hb
  · exact h other b hb

theorem KeyedBy.insertAll (h : t.KeyedBy key) {s : Table α} (hs : s.KeyedBy key) :
    (t.insertAll s).KeyedBy key := by
  have named : ∀ e ∈ s.entries, key e.2 = e.1 := fun e he => hs e.1 e.2 (mem_entries_iff.1 he)
  rw [Table.insertAll]
  generalize s.entries = es at named
  induction es generalizing t with
  | nil => exact h
  | cons e es ih =>
    exact ih (h.insert (named e List.mem_cons_self)) fun e he => named e (List.mem_cons_of_mem _ he)

/-- Values are put under their names, one after the other. -/
theorem KeyedBy.foldl_insert_key (h : t.KeyedBy key) (as : List α) :
    (as.foldl (fun t a => t.insert (key a) a) t).KeyedBy key := by
  induction as generalizing t with
  | nil => exact h
  | cons a as ih => exact ih (h.insert rfl)

theorem keyedBy_ofList (key : α → String) (as : List α) :
    (ofList (as.map fun a => (key a, a))).KeyedBy key := by
  rw [ofList, List.foldl_map]
  exact keyedBy_empty.foldl_insert_key as

theorem KeyedBy.mapEntries (h : t.KeyedBy key) {f : String → α → β} {newKey : β → String}
    (kept : ∀ name a, newKey (f name a) = key a) : (t.mapEntries f).KeyedBy newKey := by
  intro name b hb
  rw [get?_mapEntries] at hb
  obtain ⟨a, ha, rfl⟩ := Option.map_eq_some_iff.1 hb
  exact (kept name a).trans (h name a ha)

theorem KeyedBy.map (h : t.KeyedBy key) {f : α → β} {newKey : β → String}
    (kept : ∀ a, newKey (f a) = key a) : (t.map f).KeyedBy newKey :=
  h.mapEntries fun _ => kept

theorem KeyedBy.modify (h : t.KeyedBy key) (name : String) {f : α → α} (kept : ∀ a, key (f a) = key a) :
    (t.modify name f).KeyedBy key := by
  refine h.mapEntries fun other a => ?_
  split
  · exact kept a
  · rfl

end KeyedBy

end C3Lens.Table
