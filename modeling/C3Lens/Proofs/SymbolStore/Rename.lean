import C3Lens.Proofs.SymbolStore.Resolved

/-!
# Reading a document that was moved

A unit is `Current` if to register it again would change nothing. `Current.rename`: a document that is
moved to a free id is as current as it was before, if its types have the same homes after the move, which
makes its unit the last one of the store, and no other document declares a struct that it inlines.

The two registrations go through the same queue. After each turn the store of the one is that of the
other with the moved document under its new id (`MovedTo`).
-/

namespace C3Lens

namespace SymbolStore

variable {s s' a b : SymbolStore} {old new doc : DocId} {name : String}

/-! ## Structs of one document -/

/-- No other document declares a struct of the name. -/
def OnlyIn (s : SymbolStore) (doc : DocId) (name : String) : Prop :=
  ∀ other v, other ≠ doc → s.unit? other = some v → ∀ m ∈ v.modules.values, m.structs.get? name = none

theorem OnlyIn.of_skeleton (h : s.OnlyIn doc name) (same : s'.skeleton = s.skeleton) :
    s'.OnlyIn doc name := by
  intro other v ne unit m hm
  obtain ⟨u, hu, units⟩ := unit?_of_skeleton same unit
  obtain ⟨n, hn, modules⟩ := SourceUnit.exists_module_of_skeleton units hm
  have structs := Module.bare_struct_of_skeleton modules name
  rw [h other u ne hu n hn, Option.map_none] at structs
  exact Option.map_eq_none_iff.1 structs.symm

theorem OwnsStructsOf.of_skeleton (h : s.OwnsStructsOf doc) (same : s'.skeleton = s.skeleton) :
    s'.OwnsStructsOf doc := by
  intro v unit
  obtain ⟨u, hu, units⟩ := unit?_of_skeleton same unit
  exact SourceUnit.doc_of_skeleton units (h u hu)

instance decidableOnlyIn (s : SymbolStore) (doc : DocId) (name : String) : Decidable (s.OnlyIn doc name) :=
  decidable_of_iff ((s.units.entries.all fun e =>
      e.1 == doc.text || e.2.modules.values.all fun m => (m.structs.get? name).isNone) = true) <| by
    simp only [List.all_eq_true, Bool.or_eq_true, beq_iff_eq, Option.isNone_iff_eq_none, or_iff_not_imp_left]
    constructor
    · intro h other v ne unit
      exact h (other.text, v) (Table.mem_entries_iff.2 unit) fun same => ne (DocId.text_inj.1 same)
    · intro h e he ne
      exact h ⟨e.1⟩ e.2 (fun same => ne (congrArg DocId.text same)) (Table.mem_entries_iff.1 he)

/-- The first struct that is found is found in the unit of the document. -/
theorem OnlyIn.findSome? (h : s.OnlyIn doc name) (p : Module → Bool) :
    (s.modules.filter p).findSome? (·.structs.get? name) =
      (s.unit? doc).bind fun u => (u.modules.values.filter p).findSome? (·.structs.get? name) := by
  have others : ∀ e ∈ s.units.entries, e.1 ≠ doc.text →
      (e.2.modules.values.filter p).findSome? (·.structs.get? name) = none := by
    intro e he ne
    refine List.findSome?_eq_none_iff.2 fun m hm => ?_
    refine h ⟨e.1⟩ e.2 (fun same => ne (congrArg DocId.text same)) ?_ m (List.mem_of_mem_filter hm)
    exact Table.mem_entries_iff.1 he
  have modules : s.modules.filter p = s.units.entries.flatMap fun e => e.2.modules.values.filter p := by
    rw [SymbolStore.modules, List.filter_flatMap, Table.values, List.flatMap_map]
  have nodup := s.units.nodup
  rw [modules]
  show _ = (s.units.entries.lookup doc.text).bind _
  revert others nodup
  generalize s.units.entries = es
  intro others nodup
  induction es with
  | nil => rfl
  | cons e es ih =>
    rw [List.map_cons, List.nodup_cons] at nodup
    have rest := ih (fun d hd => others d (List.mem_cons_of_mem _ hd)) nodup.2
    rw [List.flatMap_cons, List.findSome?_append, rest, Table.lookup_cons_eq_ite]
    split
    next here =>
      have absent : es.lookup doc.text = none := by
        refine List.lookup_eq_none_iff.2 fun d hd => bne_iff_ne.2 fun same => nodup.1 ?_
        rw [← here, same]
        exact List.mem_map_of_mem hd
      rw [absent]
      exact Option.or_none
    next there =>
      rw [others e List.mem_cons_self (Ne.symm there)]
      rfl

/-! ## One turn in both stores -/

/-- The store `b` is `a` with the unit of `old` under the id `new`, wherever it stands. -/
structure MovedTo (old new : DocId) (a b : SymbolStore) : Prop where
  unit : b.unit? new = (a.unit? old).map (SourceUnit.setDoc new)
  gone : b.unit? old = none
  others : ∀ doc, doc ≠ old → doc ≠ new → b.unit? doc = a.unit? doc
  inlines : b.pending.inlines = a.pending.inlines.map (PendingInline.rename old new)
  fresh : ∀ i ∈ a.pending.inlines, i.doc ≠ new

theorem MovedTo.onlyIn (h : MovedTo old new a b) (only : a.OnlyIn old name) : b.OnlyIn new name := by
  intro doc v ne unit
  by_cases same : doc = old
  · rw [same, h.gone] at unit
    cases unit
  · rw [h.others doc same ne] at unit
    exact only doc v same unit

/-- The same struct is found in both, once under the old and once under the new id. -/
theorem MovedTo.inlinedStruct? (h : MovedTo old new a b) {i : PendingInline} (only : a.OnlyIn old i.inlined) :
    b.inlinedStruct? { i with doc := new } = (a.inlinedStruct? i).map (Aggregate.setDoc new) := by
  have found : ∀ p : Module → Bool, (∀ m, p (m.setDoc new) = p m) →
      (b.modules.filter p).findSome? (·.structs.get? i.inlined) =
        ((a.modules.filter p).findSome? (·.structs.get? i.inlined)).map (Aggregate.setDoc new) := by
    intro p kept
    have same : p ∘ Module.setDoc new = p := funext kept
    rw [(h.onlyIn only).findSome? p, only.findSome? p, h.unit]
    cases a.unit? old with
    | none => rfl
    | some u =>
      have structs : ∀ m : Module, (m.setDoc new).structs.get? i.inlined =
          (m.structs.get? i.inlined).map (Aggregate.setDoc new) := fun _ => Table.get?_map _ _ _
      simp only [Option.map_some, Option.bind_some, SourceUnit.setDoc, Table.values_map, List.filter_map,
        same, List.findSome?_map, Function.comp_def, structs]
      exact List.map_findSome?.symm
  have named := found (·.name == i.moduleName) fun _ => rfl
  have all := found (fun _ => true) fun _ => rfl
  rw [List.filter_true, List.filter_true] at all
  rw [SymbolStore.inlinedStruct?, modulesNamed, named, all, SymbolStore.inlinedStruct?, modulesNamed, map_orElse]

/-- What an inline member names is of the document. -/
theorem OnlyIn.doc_of_inlinedStruct? {i : PendingInline} (only : a.OnlyIn doc i.inlined)
    (owns : a.OwnsStructsOf doc) {c : Struct} (found : a.inlinedStruct? i = some c) : c.doc = doc := by
  have each : ∀ p : Module → Bool, (a.modules.filter p).findSome? (·.structs.get? i.inlined) = some c →
      c.doc = doc := by
    intro p first
    rw [only.findSome? p] at first
    obtain ⟨u, unit, here⟩ := Option.bind_eq_some_iff.1 first
    obtain ⟨m, hm, declared⟩ := List.exists_of_findSome?_eq_some here
    exact owns u unit m (List.mem_of_mem_filter hm) _ c declared
  rw [SymbolStore.inlinedStruct?, Option.orElse_eq_some] at found
  rcases found with named | ⟨-, any⟩
  · exact each _ named
  · rw [← List.filter_true a.modules] at any
    exact each _ any

theorem MovedTo.inlinedMembers? (h : MovedTo old new a b) (owns : a.OwnsStructsOf old) {i : PendingInline}
    (doc : i.doc = old) (only : a.OnlyIn old i.inlined) :
    b.inlinedMembers? { i with doc := new } =
      (a.inlinedMembers? i).map (List.map (Member.setDoc new)) := by
  rw [SymbolStore.inlinedMembers?, h.inlinedStruct? only, SymbolStore.inlinedMembers?]
  cases found : a.inlinedStruct? i with
  | none => rfl
  | some c =>
    have own : c.doc = i.doc := (only.doc_of_inlinedStruct? owns found).trans doc.symm
    show (if c.name == i.structName && new == new then none else some (c.setDoc new).members) =
      (if c.name == i.structName && c.doc == i.doc then none else some c.members).map _
    rw [own, beq_self_eq_true, beq_self_eq_true]
    split <;> rfl

theorem MovedTo.awaits (h : MovedTo old new a b) {i : PendingInline} (doc : i.doc = old) :
    b.awaits { i with doc := new } = a.awaits i := by
  rw [Bool.eq_iff_iff, awaits_iff, awaits_iff, h.unit, doc]
  simp only [Option.map_eq_some_iff, exists_exists_and_eq_and,
    SourceUnit.asks_setDoc (i := { i with doc := new }) (j := i) new ⟨rfl, rfl, rfl⟩]

/-- The turn of an inline member of the moved document. -/
theorem MovedTo.settleInline (h : MovedTo old new a b) (ne : new ≠ old) (owns : a.OwnsStructsOf old)
    {i : PendingInline} (doc : i.doc = old) (only : a.OnlyIn old i.inlined) :
    MovedTo old new (a.settleInline i) (b.settleInline { i with doc := new }) := by
  have members := h.inlinedMembers? owns doc only
  refine ⟨?_, ?_, fun other notOld notNew => ?_, ?_, fun j hj => ?_⟩
  · rw [unit?_settleInline, if_pos rfl, unit?_settleInline, if_pos doc.symm, members, h.unit]
    cases a.unit? old with
    | none => rfl
    | some u =>
      cases a.inlinedMembers? i with
      | none => rfl
      | some ms => exact congrArg some (u.setDoc_hoist new ⟨rfl, rfl, rfl⟩ ms).symm
  · rw [unit?_settleInline, if_neg (Ne.symm ne)]
    exact h.gone
  · rw [unit?_settleInline, if_neg notNew, unit?_settleInline, if_neg fun same => notOld (same.trans doc)]
    exact h.others other notOld notNew
  · simp only [inlines_settleInline, members, h.awaits doc, Option.map_eq_none_iff, h.inlines]
    split
    · rw [← PendingInline.rename_of_eq doc, Pending.map_addNew]
      intro mem
      obtain ⟨j, hj, same⟩ := List.mem_map.1 mem
      have known := PendingInline.rename_inj (h.fresh j hj) (fun eq => ne (eq.symm.trans doc)) same
      rwa [known] at hj
    · rfl
  · rw [inlines_settleInline] at hj
    split at hj
    · rcases Pending.mem_addNew.1 hj with hj | rfl
      · exact h.fresh j hj
      · exact fun eq => ne (eq.symm.trans doc)
    · exact h.fresh j hj

/-- The turns of all inline members of the moved document. -/
theorem MovedTo.foldl_settleInline (h : MovedTo old new a b) (ne : new ≠ old) (owns : a.OwnsStructsOf old)
    {is : List PendingInline} (docs : ∀ i ∈ is, i.doc = old) (only : ∀ i ∈ is, a.OnlyIn old i.inlined) :
    MovedTo old new (is.foldl SymbolStore.settleInline a)
      ((is.map ({ · with doc := new })).foldl SymbolStore.settleInline b) := by
  induction is generalizing a b with
  | nil => exact h
  | cons i is ih =>
    have turn := h.settleInline ne owns (docs i List.mem_cons_self) (only i List.mem_cons_self)
    have same := (hoistsTo_settleInline a i).skeleton_eq
    exact ih turn (owns.of_skeleton same) (fun j hj => docs j (List.mem_cons_of_mem _ hj))
      fun j hj => (only j (List.mem_cons_of_mem _ hj)).of_skeleton same

/-! ## What waits of other documents -/

theorem waits_iff {t : PendingType} : s.waits t = true ↔ s.home? t = none ∧ s.contains t.doc = true := by
  rw [waits, Bool.and_eq_true, Option.isNone_iff_eq_none]

/-- All that waits of other documents goes on waiting when the unit is placed. -/
structure Undisturbed (s : SymbolStore) (u : SourceUnit) (p : Pending) : Prop where
  nodup : s.pending.inlines.Nodup
  types : ∀ name, ∀ t ∈ s.pending.typesIn name, t.doc ≠ u.doc → (s.placed u p).waits t = true
  unknown : ∀ i ∈ s.pending.inlines, i.doc ≠ u.doc → (s.placed u p).inlinedMembers? i = none
  awaits : ∀ i ∈ s.pending.inlines, i.doc ≠ u.doc → s.awaits i = true

section Registration

variable {u : SourceUnit} {p : Pending}

/-- When the registration comes to the inline members of the unit, the other units and what waits of them
are as they were. -/
theorem Undisturbed.settledBefore (h : s.Undisturbed u p) (hs : s.pending.Tidy) (hp : p.Tidy)
    (own : p.BelongsTo u.doc) :
    (∀ other, other ≠ u.doc → (s.settledBefore u p).unit? other = s.unit? other) ∧
      (s.settledBefore u p).pending.inlines = s.pending.inlines.filter (·.doc != u.doc) := by
  let bound := (s.placed u p).bindAll (s.placed u p).pending.types
  let start : SymbolStore := { bound with pending := { bound.pending with inlines := [] } }
  have units : ∀ other, other ≠ u.doc → start.unit? other = s.unit? other := by
    intro other ne
    refine unit?_bindAll_placed_of_ne hs hp own ne fun name t ht => ?_
    refine or_iff_not_imp_right.2 fun here => (waits_iff.1 (h.types name t ht ?_)).1
    exact fun same => ne ((not_not.1 here).symm.trans same)
  have pass : (s.pending.inlines.filter (·.doc != u.doc)).foldl SymbolStore.settleInline start =
      { start with
        pending := { start.pending with
          inlines := start.pending.inlines ++ s.pending.inlines.filter (·.doc != u.doc) } } := by
    have others : ∀ i ∈ s.pending.inlines.filter (·.doc != u.doc), i ∈ s.pending.inlines ∧ i.doc ≠ u.doc :=
      fun i hi => ⟨List.mem_of_mem_filter hi, bne_iff_ne.1 (List.mem_filter.1 hi).2⟩
    refine foldl_settleInline_of_idle (h.nodup.filter _) (fun i hi => ?_) fun i hi => ?_
    · obtain ⟨mem, ne⟩ := others i hi
      have known := isSome_inlinedMembers?_congr
        (skeleton_bindAll (s.placed u p) (s.placed u p).pending.types) i
      rw [h.unknown i mem ne, Option.isSome_none, Option.isSome_eq_false_iff, Option.isNone_iff_eq_none] at known
      exact known
    · obtain ⟨mem, ne⟩ := others i hi
      rw [awaits_iff, units i.doc ne, ← awaits_iff]
      exact h.awaits i mem ne
  have whole : s.settledBefore u p = _ := pass
  rw [whole]
  exact ⟨units, List.nil_append _⟩

/-! ## Units that are up to date -/

/-- To register the unit would change nothing. -/
structure Current (s : SymbolStore) (u : SourceUnit) (p : Pending) : Prop where
  units : (s.register u p).units = s.units
  types : ∀ name, (s.register u p).pending.typesIn name = s.pending.typesIn name
  inlines : (s.register u p).pending.inlines = s.pending.inlines

theorem Current.skeleton_placed (h : s.Current u p) : (s.placed u p).skeleton = s.skeleton :=
  (skeleton_settle _).symm.trans (skeleton_eq_of_units h.units)

theorem Current.idle (h : s.Current u p) : s.Idle :=
  (idle_register s u p).congr h.units.symm h.inlines.symm

/-- All that waits waits rightly. -/
theorem Current.waits (h : s.Current u p) (hs : s.pending.Tidy) {t : PendingType}
    (ht : t ∈ s.pending.typesIn name) : s.waits t = true := by
  rw [← h.types, register_eq, typesIn_settle (tidy_placed hs u p)] at ht
  rw [← waits_congr h.skeleton_placed]
  exact (List.mem_filter.1 ht).2

/-- What waits of the document itself is what it asks for and is not found. -/
theorem Current.typesIn_own (h : s.Current u p) (hs : s.pending.Tidy) (hp : p.Tidy)
    (own : p.BelongsTo u.doc) (name : String) :
    (s.pending.typesIn name).filter (·.doc == u.doc) = (p.typesIn name).filter s.waits := by
  have all := h.types name
  rw [register_eq, typesIn_settle (tidy_placed hs u p), typesIn_placed hp own,
    funext (waits_congr h.skeleton_placed), List.filter_append] at all
  have others : (((s.pending.typesIn name).filter (·.doc != u.doc)).filter s.waits).filter
      (·.doc == u.doc) = [] := by
    refine List.filter_eq_nil_iff.2 fun t ht here => ?_
    exact bne_iff_ne.1 (List.mem_filter.1 (List.mem_of_mem_filter ht)).2 (beq_iff_eq.1 here)
  rw [← all, List.filter_append, others, List.nil_append]
  refine List.filter_eq_self.2 fun t ht => beq_iff_eq.2 ?_
  exact doc_of_mem_typesIn own (List.mem_of_mem_filter ht)

/-- The unit is there, resolved. -/
theorem Current.resolvesTo (h : s.Current u p) : ∃ v, s.unit? u.doc = some v ∧ u.ResolvesTo v := by
  obtain ⟨modules, hoists, after, -, -⟩ := unit?_register_expands s u p u.doc
  have kept : (s.register u p).unit? u.doc = s.unit? u.doc := congrArg (Table.get? · u.doc.text) h.units
  rw [kept, unit?_placed, if_pos rfl] at after
  exact ⟨_, after, modules, hoists, rfl⟩

/-! ## The move -/

/-- The types of a queue with the same homes, under another id. -/
theorem moduleAfter_map {ts : List PendingType}
    (homes : ∀ t ∈ ts, s'.home? { t with doc := new } = s.home? t) (type : TypeRef) :
    s'.moduleAfter (ts.map ({ · with doc := new })) type = s.moduleAfter ts type := by
  induction ts generalizing type with
  | nil => rfl
  | cons t ts ih =>
    have one : s'.moduleUnder { t with doc := new } type = s.moduleUnder t type := by
      rw [moduleUnder, homes t List.mem_cons_self, moduleUnder]
      rfl
    rw [List.map_cons, moduleAfter, one, ih fun t ht => homes t (List.mem_cons_of_mem _ ht), moduleAfter]

/-- Where a move of one store leads does not depend on more than its units. -/
theorem MovedTo.unit?_congr {a' b' : SymbolStore} (h : MovedTo old new a b) (h' : MovedTo old new a' b')
    (same : ∀ doc, a'.unit? doc = a.unit? doc) (doc : DocId) : b'.unit? doc = b.unit? doc := by
  by_cases here : doc = new
  · rw [here, h'.unit, h.unit, same]
  by_cases there : doc = old
  · rw [there, h'.gone, h.gone]
  · rw [h'.others doc there here, h.others doc there here, same]

theorem Current.skeleton_rename (h : s.Current u p) (new : DocId) :
    ((s.rename u.doc new).placed (u.setDoc new) (p.setDoc new)).skeleton = (s.rename u.doc new).skeleton := by
  obtain ⟨v, unit, resolves⟩ := h.resolvesTo
  rw [rename_of_unit? unit, skeleton, placed, Table.map_insert, Table.map_insert, skeleton, Table.map_insert,
    (resolves.setDoc new).skeleton_eq]
  exact congrArg (SymbolStore.mk · _) (Table.insert_insert _ _ _ _)

section Rename

variable (h : s.Current u p) (hs : s.pending.Tidy) (free : s.unit? new = none)

section Fresh

include h free

theorem Current.ne_of_free : new ≠ u.doc := by
  rintro rfl
  obtain ⟨v, unit, -⟩ := h.resolvesTo
  rw [free] at unit
  cases unit

theorem Current.fresh_inlines : ∀ i ∈ s.pending.inlines, i.doc ≠ new := by
  rintro i hi rfl
  obtain ⟨v, unit, -⟩ := awaits_iff.1 (h.idle.awaits i hi)
  rw [free] at unit
  cases unit

theorem Current.movedTo : MovedTo u.doc new s (s.rename u.doc new) := by
  obtain ⟨v, unit, -⟩ := h.resolvesTo
  refine ⟨?_, ?_, fun doc notOld notNew => ?_, ?_, h.fresh_inlines free⟩
  · rw [unit?_rename unit, if_pos rfl, unit]
    rfl
  · rw [unit?_rename unit, if_neg (Ne.symm (h.ne_of_free free)), if_pos rfl]
  · rw [unit?_rename unit, if_neg notNew, if_neg notOld]
  · rw [rename_of_unit? unit, Pending.inlines_rename]

include hs

theorem Current.fresh_types : ∀ t ∈ s.pending.typesIn name, t.doc ≠ new := by
  rintro t ht rfl
  have there : (s.unit? t.doc).isSome = true := (waits_iff.1 (h.waits hs ht)).2
  rw [free] at there
  cases there

theorem Current.typesIn_rename (name : String) : (s.rename u.doc new).pending.typesIn name =
    (s.pending.typesIn name).filter (·.doc != u.doc) ++
      ((s.pending.typesIn name).filter (·.doc == u.doc)).map ({ · with doc := new }) := by
  obtain ⟨v, unit, -⟩ := h.resolvesTo
  rw [rename_of_unit? unit]
  exact Pending.typesIn_rename hs name fun t ht => h.fresh_types hs free t ht

/-- The types of other documents wait after the move. -/
theorem Current.waits_rename {t : PendingType} (ht : t ∈ s.pending.typesIn name) (ne : t.doc ≠ u.doc) :
    (s.rename u.doc new).waits t = true := by
  obtain ⟨v, unit, -⟩ := h.resolvesTo
  obtain ⟨homeless, known⟩ := waits_iff.1 (h.waits hs ht)
  have notNew := h.fresh_types hs free t ht
  refine waits_iff.2 ⟨home?_rename unit free homeless ne notNew, ?_⟩
  show ((s.rename u.doc new).unit? t.doc).isSome = true
  rw [unit?_rename unit, if_neg notNew, if_neg ne]
  exact known

end Fresh

variable (hp : p.Tidy) (own : p.BelongsTo u.doc)

include h hs free

/-- What waits of other documents is not disturbed when the moved document is read. -/
theorem Current.undisturbed (owns : s.OwnsStructsOf u.doc) :
    (s.rename u.doc new).Undisturbed (u.setDoc new) (p.setDoc new) := by
  obtain ⟨v, unit, -⟩ := h.resolvesTo
  have movedTo := h.movedTo free
  have skeleton := h.skeleton_rename new
  -- An inline member of another document than `new` is one that was not moved.
  have kept : ∀ i ∈ (s.rename u.doc new).pending.inlines, i.doc ≠ new →
      i ∈ s.pending.inlines ∧ i.doc ≠ u.doc := by
    intro i hi notNew
    rw [movedTo.inlines] at hi
    obtain ⟨j, hj, rfl⟩ := List.mem_map.1 hi
    by_cases here : j.doc = u.doc
    · rw [PendingInline.rename_of_eq here] at notNew
      exact absurd rfl notNew
    · rw [PendingInline.rename_of_ne here]
      exact ⟨hj, here⟩
  refine ⟨?_, fun name t ht notNew => ?_, fun i hi notNew => ?_, fun i hi notNew => ?_⟩
  · rw [movedTo.inlines]
    refine (List.nodup_map_iff_inj_on h.idle.nodup).2 fun i hi j hj same => ?_
    exact PendingInline.rename_inj (movedTo.fresh i hi) (movedTo.fresh j hj) same
  · rw [waits_congr skeleton]
    rw [h.typesIn_rename hs free, List.mem_append] at ht
    rcases ht with stays | moved
    · exact h.waits_rename hs free (List.mem_of_mem_filter stays) (bne_iff_ne.1 (List.mem_filter.1 stays).2)
    · obtain ⟨c, -, rfl⟩ := List.mem_map.1 moved
      exact absurd rfl notNew
  · obtain ⟨hi, notOld⟩ := kept i hi notNew
    have known := isSome_inlinedMembers?_congr skeleton i
    rw [inlinedMembers?_rename unit free owns (h.idle.unknown i hi) notOld, Option.isSome_none,
      Option.isSome_eq_false_iff, Option.isNone_iff_eq_none] at known
    exact known
  · obtain ⟨hi, notOld⟩ := kept i hi notNew
    rw [awaits_iff, movedTo.others i.doc notOld notNew, ← awaits_iff]
    exact h.idle.awaits i hi

include hp own

/-- What waits after the moved document is read. -/
theorem Current.typesIn_register_rename
    (homes : ∀ t ∈ p.types, (s.rename u.doc new).home? { t with doc := new } = s.home? t) (name : String) :
    ((s.rename u.doc new).register (u.setDoc new) (p.setDoc new)).pending.typesIn name =
      (s.rename u.doc new).pending.typesIn name := by
  obtain ⟨v, unit, -⟩ := h.resolvesTo
  have typesIn := h.typesIn_rename hs free name
  have tidy : (s.rename u.doc new).pending.Tidy := by
    rw [rename_of_unit? unit]
    exact hs.rename u.doc new
  have others : ((s.rename u.doc new).pending.typesIn name).filter (·.doc != new) =
      (s.pending.typesIn name).filter (·.doc != u.doc) := by
    rw [typesIn, List.filter_append]
    have moved : (((s.pending.typesIn name).filter (·.doc == u.doc)).map ({ · with doc := new })).filter
        (fun t : PendingType => t.doc != new) = [] := by
      refine List.filter_eq_nil_iff.2 fun t ht here => ?_
      obtain ⟨c, -, rfl⟩ := List.mem_map.1 ht
      exact bne_iff_ne.1 here rfl
    rw [moved, List.append_nil]
    exact List.filter_eq_self.2 fun t ht => bne_iff_ne.2 (h.fresh_types hs free t (List.mem_of_mem_filter ht))
  have stay : ((s.pending.typesIn name).filter (·.doc != u.doc)).filter (s.rename u.doc new).waits =
      (s.pending.typesIn name).filter (·.doc != u.doc) :=
    List.filter_eq_self.2 fun t ht => h.waits_rename hs free (List.mem_of_mem_filter ht)
      (bne_iff_ne.1 (List.mem_filter.1 ht).2)
  have moved : ((p.setDoc new).typesIn name).filter (s.rename u.doc new).waits =
      ((s.pending.typesIn name).filter (·.doc == u.doc)).map ({ · with doc := new }) := by
    rw [h.typesIn_own hs hp own, Pending.typesIn_setDoc, List.filter_map]
    refine congrArg (List.map _) (List.filter_congr fun t ht => ?_)
    have mine := Pending.mem_types_iff.2 ⟨name, ht⟩
    have before : s.contains t.doc = true := by
      rw [own.types t mine]
      exact congrArg Option.isSome unit
    have after : (s.rename u.doc new).contains new = true := by
      have there : (s.rename u.doc new).unit? new = some (v.setDoc new) :=
        (unit?_rename unit new).trans (if_pos rfl)
      exact congrArg Option.isSome there
    show (((s.rename u.doc new).home? { t with doc := new }).isNone && (s.rename u.doc new).contains new) =
      ((s.home? t).isNone && s.contains t.doc)
    rw [homes t mine, before, after]
  rw [register_eq, typesIn_settle (tidy_placed tidy _ _), typesIn_placed (hp.setDoc own new)
    (p.belongsTo_setDoc new), funext (waits_congr (h.skeleton_rename new)), List.filter_append]
  refine Eq.trans ?_ typesIn.symm
  refine (congrArg₂ (· ++ ·) ?_ moved)
  exact (congrArg (List.filter _) others).trans stay

/-- The two registrations come to the inline members of the document with the same units. -/
theorem Current.movedTo_settledBefore (owns : s.OwnsStructsOf u.doc)
    (homes : ∀ t ∈ p.types, (s.rename u.doc new).home? { t with doc := new } = s.home? t) :
    MovedTo u.doc new (s.settledBefore u p)
      ((s.rename u.doc new).settledBefore (u.setDoc new) (p.setDoc new)) := by
  obtain ⟨v, unit, -⟩ := h.resolvesTo
  have ne := h.ne_of_free free
  have movedTo := h.movedTo free
  have skeleton := h.skeleton_rename new
  have tidy : (s.rename u.doc new).pending.Tidy := by
    rw [rename_of_unit? unit]
    exact hs.rename u.doc new
  obtain ⟨units, inlines⟩ := (h.undisturbed hs free owns).settledBefore tidy (hp.setDoc own new)
    (p.belongsTo_setDoc new)
  have before : (s.settledBefore u p).pending.inlines = s.pending.inlines.filter (·.doc != u.doc) := by
    rw [← inlines_register_others s own, h.inlines]
  refine ⟨?_, ?_, fun other notOld notNew => ?_, ?_, fun i hi => ?_⟩
  · have after : ∀ name, ((s.rename u.doc new).placed (u.setDoc new) (p.setDoc new)).moduleAfter
        ((p.setDoc new).typesIn name) = (s.placed u p).moduleAfter (p.typesIn name) := by
      intro name
      funext type
      rw [Pending.typesIn_setDoc, moduleAfter_congr skeleton, moduleAfter_congr h.skeleton_placed]
      exact moduleAfter_map (fun t ht => homes t (Pending.mem_types_iff.2 ⟨name, ht⟩)) type
    have there := unit?_settledBefore (s.rename u.doc new) (u := u.setDoc new) (hp.setDoc own new)
      (p.belongsTo_setDoc new)
    simp only [after] at there
    refine there.trans ?_
    rw [unit?_settledBefore s hp own]
    exact congrArg some (SourceUnit.setDoc_mapModules new _ u).symm
  · rw [units u.doc (Ne.symm ne)]
    exact movedTo.gone
  · have kept : ∀ i ∈ p.inlines.foldl Pending.addNew [], i.doc = other →
        (s.settledBefore u p).inlinedMembers? i = none := by
      intro i hi same
      exact absurd (same.symm.trans (doc_of_mem_own own hi)) notOld
    have registered : (s.register u p).unit? other = _ :=
      congrArg (Table.get? · other.text) (units_register s own).1
    have same : (s.register u p).unit? other = s.unit? other := congrArg (Table.get? · other.text) h.units
    rw [units other notNew, movedTo.others other notOld notNew, ← same, registered]
    exact unit?_foldl_settleInline kept
  · rw [inlines, movedTo.inlines, before, List.filter_map]
    refine congrArg (List.map _) (List.filter_congr fun i hi => ?_)
    by_cases here : i.doc = u.doc
    · rw [Function.comp_apply, PendingInline.rename_of_eq here, here]
      exact (bne_self_eq_false new).trans (bne_self_eq_false u.doc).symm
    · rw [Function.comp_apply, PendingInline.rename_of_ne here, bne_iff_ne.2 here]
      exact bne_iff_ne.2 (movedTo.fresh i hi)
  · rw [before] at hi
    exact movedTo.fresh i (List.mem_of_mem_filter hi)

/-- A document that is moved is as current as before. -/
theorem Current.rename (owns : s.OwnsStructsOf u.doc)
    (homes : ∀ t ∈ p.types, (s.rename u.doc new).home? { t with doc := new } = s.home? t)
    (only : ∀ i ∈ p.inlines, s.OnlyIn u.doc i.inlined) :
    (s.rename u.doc new).Current (u.setDoc new) (p.setDoc new) := by
  have start := h.movedTo_settledBefore hs free hp own owns homes
  have same : (s.settledBefore u p).skeleton = s.skeleton :=
    (skeleton_settledBefore s u p).trans h.skeleton_placed
  have queue : (p.setDoc new).inlines.foldl Pending.addNew [] =
      (p.inlines.foldl Pending.addNew []).map ({ · with doc := new }) := by
    have inj : ∀ i ∈ [] ++ p.inlines, ∀ j ∈ [] ++ p.inlines,
        ({ i with doc := new } : PendingInline) = { j with doc := new } → i = j := fun i hi j hj =>
      PendingInline.eq_of_setDoc ((own.inlines i hi).trans (own.inlines j hj).symm)
    exact (Pending.map_foldl_addNew inj).symm
  have finish := start.foldl_settleInline (h.ne_of_free free) (owns.of_skeleton same)
    (fun i hi => doc_of_mem_own own hi) fun i hi =>
      (only i ((Pending.mem_foldl_addNew.1 hi).resolve_left List.not_mem_nil)).of_skeleton same
  rw [← queue] at finish
  have own' : (p.setDoc new).BelongsTo (u.setDoc new).doc := p.belongsTo_setDoc new
  have before := units_register s own
  have after := units_register (s.rename u.doc new) own'
  refine ⟨?_, h.typesIn_register_rename hs free hp own homes, ?_⟩
  · have names := names_congr ((skeleton_settle _).trans (h.skeleton_rename new))
    refine Table.ext_get? names fun text => ?_
    have units := (h.movedTo free).unit?_congr finish
      (fun doc => congrArg (Table.get? · doc.text) (before.1.symm.trans h.units)) ⟨text⟩
    exact (congrArg (Table.get? · text) after.1).trans units
  · rw [after.2, finish.inlines, ← before.2, h.inlines, (h.movedTo free).inlines]

end Rename

end Registration

end SymbolStore

end C3Lens
