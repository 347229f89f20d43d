import C3Lens.Proofs.NameQuery
import C3Lens.Proofs.Trie
import C3Lens.Workspace.NameIndex

/-!
# The index of names as a multiset of entries

The index is seen through all its entries and through the entries at a path. Adding a unit
adds the locations of its modules and declarations that have a key; clearing a document
removes the entries of that document and no other (`entries_insertUnit_perm`,
`entries_clear`, `entriesAt_insertUnit`, `entriesAt_clear`). The size is the number of
entries all along (`Counted`), and no branch is dead (`pruned_and_counted`).
-/

namespace C3Lens

/-- The names under which a location is indexed; there may be none. -/
def SymbolLocation.key (l : SymbolLocation) : List String :=
  (NameQuery.parse l.qualifiedName).names

/-- Whether the location has a key, without which it is not indexed. -/
def SymbolLocation.hasKey (l : SymbolLocation) : Bool :=
  !l.key.isEmpty

/-- The locations of all modules of a unit that are not private, and of what they declare. -/
def SourceUnit.locations (u : SourceUnit) : List SymbolLocation :=
  (u.modules.values.filter fun m => !m.isPrivate).flatMap fun m =>
    (Symbol.module m :: m.children).map (SymbolLocation.ofSymbol u.doc)

theorem SourceUnit.locations_eq (u : SourceUnit) :
    u.locations = u.modules.values.flatMap (NameIndex.entriesOf u.doc) := by
  rw [locations]
  induction u.modules.values with
  | nil => rfl
  | cons m ms ih =>
    rw [List.flatMap_cons, ← ih, NameIndex.entriesOf, List.filter_cons]
    cases m.isPrivate <;> rfl

theorem SourceUnit.unit_of_mem_locations {u : SourceUnit} {l : SymbolLocation}
    (h : l ∈ u.locations) : l.unit = u.doc := by
  obtain ⟨m, -, hl⟩ := List.mem_flatMap.1 h
  obtain ⟨s, -, rfl⟩ := List.mem_map.1 hl
  rfl

namespace NameIndex

/-- All entries. -/
def entries (index : NameIndex) : List SymbolLocation :=
  index.trie.all

/-- The entries at a path, in the order of their insertion. -/
def entriesAt (path : List String) (index : NameIndex) : List SymbolLocation :=
  index.trie.valuesAt path

/-- The size is the number of entries. -/
def Counted (index : NameIndex) : Prop :=
  index.size = index.entries.length

/-! ## Adding entries -/

theorem insert_eq (index : NameIndex) (l : SymbolLocation) :
    index.insert l = if l.hasKey then ⟨index.trie.insert l.key l, index.size + 1⟩ else index := by
  rw [insert, SymbolLocation.hasKey, SymbolLocation.key]
  cases (NameQuery.parse l.qualifiedName).names.isEmpty <;> rfl

theorem insertUnit_eq_foldl (index : NameIndex) (u : SourceUnit) :
    index.insertUnit u = u.locations.foldl insert index := by
  rw [insertUnit, SourceUnit.locations_eq, List.foldl_flatMap]
  rfl

theorem entries_foldl_insert_perm (ls : List SymbolLocation) (index : NameIndex) :
    (ls.foldl insert index).entries.Perm (ls.filter SymbolLocation.hasKey ++ index.entries) := by
  induction ls generalizing index with
  | nil => exact List.Perm.refl _
  | cons l ls ih =>
    refine (ih _).trans ?_
    rw [insert_eq, List.filter_cons]
    split
    · exact (List.Perm.append_left _ (Trie.all_insert_perm l.key l index.trie)).trans
        List.perm_middle
    · exact List.Perm.refl _

theorem entries_insertUnit_perm (index : NameIndex) (u : SourceUnit) :
    (index.insertUnit u).entries.Perm (u.locations.filter SymbolLocation.hasKey ++ index.entries) := by
  rw [insertUnit_eq_foldl]
  exact entries_foldl_insert_perm _ _

theorem counted_insert {index : NameIndex} (h : index.Counted) (l : SymbolLocation) :
    (index.insert l).Counted := by
  rw [insert_eq]
  split
  · have len := (Trie.all_insert_perm l.key l index.trie).length_eq
    rw [List.length_cons] at len
    show index.size + 1 = (index.trie.insert l.key l).all.length
    rw [len, h]
    rfl
  · exact h

theorem counted_insertUnit {index : NameIndex} (h : index.Counted) (u : SourceUnit) :
    (index.insertUnit u).Counted := by
  rw [insertUnit_eq_foldl]
  generalize u.locations = ls
  induction ls generalizing index with
  | nil => exact h
  | cons l ls ih => exact ih (counted_insert h l)

theorem entriesAt_insert (path : List String) (index : NameIndex) (l : SymbolLocation) :
    (index.insert l).entriesAt path =
      index.entriesAt path ++ [l].filter fun l => l.hasKey && l.key == path := by
  rw [insert_eq]
  by_cases hk : l.hasKey = true
  · rw [if_pos hk]
    show (index.trie.insert l.key l).valuesAt path = _
    rw [Trie.valuesAt_insert]
    by_cases hp : path = l.key
    · subst hp
      simp [hk, entriesAt]
    · have other : (l.key == path) = false := beq_eq_false_iff_ne.2 (Ne.symm hp)
      simp [hp, other, entriesAt]
  · simp [hk]

theorem entriesAt_foldl_insert (path : List String) (ls : List SymbolLocation) (index : NameIndex) :
    (ls.foldl insert index).entriesAt path =
      index.entriesAt path ++ ls.filter fun l => l.hasKey && l.key == path := by
  induction ls generalizing index with
  | nil => rw [List.foldl_nil, List.filter_nil, List.append_nil]
  | cons l ls ih =>
    rw [List.foldl_cons, ih, entriesAt_insert, List.append_assoc, ← List.filter_append,
      List.singleton_append]

theorem entriesAt_insertUnit (path : List String) (index : NameIndex) (u : SourceUnit) :
    (index.insertUnit u).entriesAt path =
      index.entriesAt path ++ u.locations.filter fun l => l.hasKey && l.key == path := by
  rw [insertUnit_eq_foldl, entriesAt_foldl_insert]

theorem distinct_insert {index : NameIndex} (h : index.trie.Distinct) (l : SymbolLocation) :
    (index.insert l).trie.Distinct := by
  rw [insert_eq]
  split
  · exact Trie.distinct_insert _ _ h
  · exact h

theorem distinct_insertUnit {index : NameIndex} (h : index.trie.Distinct) (u : SourceUnit) :
    (index.insertUnit u).trie.Distinct := by
  rw [insertUnit_eq_foldl]
  generalize u.locations = ls
  induction ls generalizing index with
  | nil => exact h
  | cons l ls ih => exact ih (distinct_insert h l)

/-! ## Removing the entries of a document -/

theorem entries_clear (index : NameIndex) (doc : DocId) :
    (index.clear doc).entries = index.entries.filter (·.unit != doc) :=
  Trie.all_remove _ _

theorem mem_entries_insertUnit {index : NameIndex} {u : SourceUnit} {l : SymbolLocation} :
    l ∈ (index.insertUnit u).entries ↔ (l ∈ u.locations ∧ l.hasKey = true) ∨ l ∈ index.entries := by
  rw [(entries_insertUnit_perm index u).mem_iff, List.mem_append, List.mem_filter]

theorem mem_entries_clear {index : NameIndex} {doc : DocId} {l : SymbolLocation} :
    l ∈ (index.clear doc).entries ↔ l ∈ index.entries ∧ l.unit ≠ doc := by
  rw [entries_clear, List.mem_filter, bne_iff_ne]

theorem counted_clear {index : NameIndex} (h : index.Counted) (doc : DocId) :
    (index.clear doc).Counted := by
  show index.size - index.trie.countWhere (·.unit == doc) = (index.clear doc).entries.length
  have parts := List.length_eq_countP_add_countP (fun l : SymbolLocation => l.unit == doc)
    (l := index.entries)
  have kept : (fun l : SymbolLocation => l.unit != doc) = fun l => decide ¬(l.unit == doc) = true := by
    funext l
    cases same : l.unit == doc <;> simp [bne, same]
  rw [entries_clear, Trie.countWhere_eq, h, kept, ← List.countP_eq_length_filter]
  exact Nat.sub_eq_of_eq_add' parts

theorem entriesAt_clear (path : List String) {index : NameIndex} (h : index.trie.Distinct)
    (doc : DocId) :
    (index.clear doc).entriesAt path = (index.entriesAt path).filter (·.unit != doc) :=
  Trie.valuesAt_remove _ path h

theorem distinct_clear {index : NameIndex} (h : index.trie.Distinct) (doc : DocId) :
    (index.clear doc).trie.Distinct :=
  Trie.distinct_remove _ h

/-! ## Entries under their keys -/

/-- Every entry stands under its key. -/
def Keyed (index : NameIndex) : Prop :=
  ∀ path, ∀ l ∈ index.entriesAt path, l.key = path

theorem keyed_empty : empty.Keyed := by
  intro path l hl
  rw [entriesAt, empty, Trie.valuesAt_empty] at hl
  cases hl

theorem Keyed.insert {index : NameIndex} (h : index.Keyed) (l : SymbolLocation) :
    (index.insert l).Keyed := by
  intro path k hk
  rw [entriesAt_insert] at hk
  rcases List.mem_append.1 hk with old | new
  · exact h path k old
  · have key := (List.mem_filter.1 new).2
    rw [Bool.and_eq_true, beq_iff_eq] at key
    exact key.2

theorem Keyed.insertUnit {index : NameIndex} (h : index.Keyed) (u : SourceUnit) :
    (index.insertUnit u).Keyed := by
  rw [insertUnit_eq_foldl]
  generalize u.locations = ls
  induction ls generalizing index with
  | nil => exact h
  | cons l ls ih => exact ih (h.insert l)

theorem Keyed.clear {index : NameIndex} (h : index.Keyed) (distinct : index.trie.Distinct) (doc : DocId) :
    (index.clear doc).Keyed := by
  intro path l hl
  rw [entriesAt_clear path distinct] at hl
  exact h path l (List.mem_of_mem_filter hl)

end NameIndex

/-!
## Searches in the index of names

After any calls that add locations and clear documents, a search finds the locations that survive
and have a key that the query asks for (`NameIndex.search_afterAll`). A location survives if it has a
key and its document is not cleared behind it. Entries of one name come in the order in which they
were added; below a name there is no order.
-/

/-! ## What a query asks for -/

namespace NameQuery

/-- Whether a query asks for what stands under a key. -/
def Asks : NameQuery → List String → Prop
  | exact path, key => key = path
  | below path, key => ∃ next rest, key = path ++ next :: rest
  | beginning path start, key => ∃ next rest, key = path ++ next :: rest ∧ start.toList <+: next.toList

/-- The name in a key behind a path. -/
def next? : List String → List String → Option String
  | [], key => key.head?
  | _ :: _, [] => none
  | name :: path, other :: key => if name = other then next? path key else none

theorem next?_eq_some_iff {path key : List String} {next : String} :
    next? path key = some next ↔ ∃ rest, key = path ++ next :: rest := by
  induction path generalizing key with
  | nil => cases key <;> simp [next?]
  | cons name path ih =>
    cases key with
    | nil => simp [next?]
    | cons other key =>
      rw [next?]
      by_cases same : name = other
      · simp [same, ih]
      · simp [same, Ne.symm same]

instance (query : NameQuery) (key : List String) : Decidable (query.Asks key) :=
  match query with
  | exact path => inferInstanceAs (Decidable (key = path))
  | below path =>
    decidable_of_iff ((next? path key).isSome = true) <| by
      simp only [Asks, Option.isSome_iff_exists, next?_eq_some_iff]
  | beginning path start =>
    decidable_of_iff (∃ next ∈ next? path key, start.toList <+: next.toList) <| by
      simp only [Asks, Option.mem_def, next?_eq_some_iff, exists_and_right]

end NameQuery

namespace NameIndex

/-! ## Histories -/

/-- A call that changes the index. -/
inductive Change where
  | insert (l : SymbolLocation)
  | clear (unit : DocId)
deriving DecidableEq

/-- The index after a call. -/
def Change.apply (index : NameIndex) : Change → NameIndex
  | insert l => index.insert l
  | clear unit => index.clear unit

/-- The index after calls in order, without entries at first. -/
def afterAll (changes : List Change) : NameIndex :=
  changes.foldl Change.apply empty

/-- The locations that are added with a key and whose documents are not cleared behind them, in the
order of the calls. -/
def surviving : List Change → List SymbolLocation
  | [] => []
  | .insert l :: later =>
    if l.hasKey = true ∧ .clear l.unit ∉ later then l :: surviving later else surviving later
  | .clear _ :: later => surviving later

section History

variable {index : NameIndex}

theorem distinct_foldl_apply (changes : List Change) (h : index.trie.Distinct) :
    (changes.foldl Change.apply index).trie.Distinct := by
  induction changes generalizing index with
  | nil => exact h
  | cons change changes ih =>
    cases change with
    | insert l => exact ih (distinct_insert h l)
    | clear unit => exact ih (distinct_clear h unit)

theorem Keyed.foldl_apply (changes : List Change) (h : index.Keyed) (distinct : index.trie.Distinct) :
    (changes.foldl Change.apply index).Keyed := by
  induction changes generalizing index with
  | nil => exact h
  | cons change changes ih =>
    cases change with
    | insert l => exact ih (h.insert l) (distinct_insert distinct l)
    | clear unit => exact ih (h.clear distinct unit) (distinct_clear distinct unit)

theorem clear_notMem_cons_insert (k l : SymbolLocation) (changes : List Change) :
    .clear k.unit ∉ Change.insert l :: changes ↔ Change.clear k.unit ∉ changes := by
  simp

theorem clear_notMem_cons_clear (k : SymbolLocation) (unit : DocId) (changes : List Change) :
    .clear k.unit ∉ Change.clear unit :: changes ↔ k.unit ≠ unit ∧ Change.clear k.unit ∉ changes := by
  simp

/-- At a path stand the entries from before that are not cleared, and the surviving ones of the path
behind them. -/
theorem entriesAt_foldl_apply (path : List String) (changes : List Change) (h : index.trie.Distinct) :
    (changes.foldl Change.apply index).entriesAt path =
      (index.entriesAt path).filter (fun l => .clear l.unit ∉ changes) ++
        (surviving changes).filter fun l => l.key = path := by
  induction changes generalizing index with
  | nil => simp [surviving]
  | cons change changes ih =>
    rw [List.foldl_cons]
    cases change with
    | insert l =>
      rw [Change.apply, ih (distinct_insert h l), entriesAt_insert]
      simp only [clear_notMem_cons_insert, List.filter_append, List.append_assoc, surviving]
      congr 1
      by_cases key : l.hasKey = true <;> by_cases cleared : Change.clear l.unit ∈ changes <;>
        by_cases there : l.key = path <;> simp [key, cleared, there]
    | clear unit =>
      rw [Change.apply, ih (distinct_clear h unit), entriesAt_clear path h, List.filter_filter]
      simp only [clear_notMem_cons_clear, surviving]
      simp [bne, Bool.and_comm, Bool.beq_eq_decide_eq]

theorem entries_foldl_apply (changes : List Change) :
    (changes.foldl Change.apply index).entries.Perm
      (index.entries.filter (fun l => .clear l.unit ∉ changes) ++ surviving changes) := by
  induction changes generalizing index with
  | nil => simp [surviving]
  | cons change changes ih =>
    rw [List.foldl_cons]
    cases change with
    | insert l =>
      have more := entries_foldl_insert_perm [l] index
      refine (@ih (index.insert l)).trans ?_
      refine ((more.filter _).append_right _).trans ?_
      simp only [clear_notMem_cons_insert, List.filter_append, surviving]
      by_cases key : l.hasKey = true <;> by_cases cleared : Change.clear l.unit ∈ changes <;>
        simp [key, cleared, List.perm_middle.symm]
    | clear unit =>
      refine (@ih (index.clear unit)).trans ?_
      rw [entries_clear, List.filter_filter]
      simp only [clear_notMem_cons_clear, surviving]
      simp [bne, Bool.and_comm, Bool.beq_eq_decide_eq]

end History

theorem distinct_afterAll (changes : List Change) : (afterAll changes).trie.Distinct :=
  distinct_foldl_apply changes Trie.distinct_empty

theorem keyed_afterAll (changes : List Change) : (afterAll changes).Keyed :=
  keyed_empty.foldl_apply changes Trie.distinct_empty

theorem entriesAt_afterAll (path : List String) (changes : List Change) :
    (afterAll changes).entriesAt path = (surviving changes).filter fun l => l.key = path := by
  rw [afterAll, entriesAt_foldl_apply path changes Trie.distinct_empty]
  simp [entriesAt, empty]

theorem entries_afterAll (changes : List Change) : (afterAll changes).entries.Perm (surviving changes) := by
  refine (entries_foldl_apply changes).trans ?_
  simp [entries, empty]

/-! ## Shape and size -/

/-- What the empty index has and every call keeps, every index has. -/
theorem afterAll_induction {P : NameIndex → Prop} (none : P empty)
    (insert : ∀ index l, P index → P (index.insert l)) (clear : ∀ index unit, P index → P (index.clear unit))
    (changes : List Change) : P (afterAll changes) := by
  suffices keeps : ∀ index, P index → P (changes.foldl Change.apply index) from keeps empty none
  induction changes with
  | nil => exact fun _ h => h
  | cons change changes ih =>
    intro index h
    cases change with
    | insert l => exact ih _ (insert index l h)
    | clear unit => exact ih _ (clear index unit h)

theorem pruned_afterAll (changes : List Change) : (afterAll changes).trie.Pruned := by
  refine afterAll_induction (P := fun index => index.trie.Pruned) Trie.pruned_empty (fun index l h => ?_)
    (fun index _ _ => Trie.pruned_remove _ index.trie) changes
  rw [insert_eq]
  split
  · exact Trie.pruned_insert _ _ h
  · exact h

theorem counted_afterAll (changes : List Change) : (afterAll changes).Counted :=
  afterAll_induction (P := Counted) rfl (fun _ l h => counted_insert h l) (fun _ unit h => counted_clear h unit) changes

/-- After any calls every node of the trie but the root leads to an entry, the size is the number of all
entries, and so no more entries are taken from it than there are when a document is cleared. -/
theorem pruned_and_counted (changes : List Change) :
    (∀ node : Trie SymbolLocation, node.IsBelow (afterAll changes).trie → node.all ≠ []) ∧
      (afterAll changes).size = (afterAll changes).trie.all.length ∧
      ∀ unit, (afterAll changes).trie.countWhere (·.unit == unit) ≤ (afterAll changes).size := by
  have counted := counted_afterAll changes
  refine ⟨pruned_afterAll changes, counted, fun unit => ?_⟩
  rw [Trie.countWhere_eq, counted]
  exact List.countP_le_length

/-! ## Searches -/

/-- What an exact search finds. -/
theorem search_of_exact {index : NameIndex} {query : String} {path : List String}
    (asked : NameQuery.parse query = .exact path) : index.search query = index.entriesAt path := by
  rw [search, asked]
  rfl

/-- A search below a name finds the entries whose keys the query asks for. -/
theorem search_eq_filter {index : NameIndex} (distinct : index.trie.Distinct) (keyed : index.Keyed)
    {query : String} (further : ∀ path, NameQuery.parse query ≠ .exact path) :
    index.search query = index.entries.filter fun l => (NameQuery.parse query).Asks l.key := by
  have whole : index.trie.KeyedFrom SymbolLocation.key [] := keyed
  rw [search]
  cases asked : NameQuery.parse query with
  | exact path => exact absurd asked (further path)
  | below path =>
    have found := Trie.filter_all_descend (p := fun l => (NameQuery.below path).Asks l.key)
      (q := fun _ => true) path distinct whole fun l => by
        rw [decide_eq_true_iff, NameQuery.Asks]
        simp only [List.nil_append, and_true]
    rw [entries, found]
    dsimp only
    cases index.trie.descend? path with
    | none => rfl
    | some t => rw [Option.map_some, Option.getD_some, List.filter_true]
  | beginning path start =>
    have found := Trie.filter_all_descend (p := fun l => (NameQuery.beginning path start).Asks l.key)
      (q := (·.startsWith start)) path distinct whole fun l => by
        rw [decide_eq_true_iff, NameQuery.Asks]
        simp only [List.nil_append, String.startsWith_string_iff]
    rw [entries, found]
    dsimp only
    cases index.trie.descend? path with
    | none => rfl
    | some t => rfl

section Entries

variable {index : NameIndex} {l : SymbolLocation} (distinct : index.trie.Distinct) (keyed : index.Keyed)
include distinct keyed

theorem mem_entriesAt_key (h : l ∈ index.entries) : l ∈ index.entriesAt l.key := by
  obtain ⟨path, there⟩ := Trie.exists_mem_valuesAt distinct h
  rw [keyed path l there]
  exact there

/-- What a search for beginnings finds. -/
theorem mem_search_star_iff (pre : String) :
    l ∈ index.search (pre ++ "*") ↔ l ∈ index.entries ∧ (NameQuery.parse (pre ++ "*")).Asks l.key := by
  have further : ∀ path, NameQuery.parse (pre ++ "*") ≠ .exact path := by
    intro path
    rw [NameQuery.parse_star]
    exact NameQuery.noConfusion
  rw [search_eq_filter distinct keyed further, List.mem_filter, decide_eq_true_iff]

end Entries

/-- The index is a multimap: an exact search finds the surviving locations of the path in order, any
other search finds the surviving locations whose keys it asks for. -/
theorem search_afterAll (changes : List Change) (query : String) :
    ((afterAll changes).search query).Perm
      ((surviving changes).filter fun l => (NameQuery.parse query).Asks l.key) ∧
    ∀ path, NameQuery.parse query = .exact path →
      (afterAll changes).search query = (surviving changes).filter fun l => l.key = path := by
  have ordered : ∀ path, NameQuery.parse query = .exact path →
      (afterAll changes).search query = (surviving changes).filter fun l => l.key = path := by
    intro path asked
    rw [search_of_exact asked, entriesAt_afterAll]
  refine ⟨?_, ordered⟩
  by_cases exactly : ∃ path, NameQuery.parse query = .exact path
  · obtain ⟨path, asked⟩ := exactly
    rw [ordered path asked, asked]
    exact List.Perm.refl _
  · rw [search_eq_filter (distinct_afterAll changes) (keyed_afterAll changes) fun path asked => exactly ⟨path, asked⟩]
    exact (entries_afterAll changes).filter _

end NameIndex

end C3Lens
