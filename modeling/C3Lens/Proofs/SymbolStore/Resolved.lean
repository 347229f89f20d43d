import C3Lens.Proofs.SymbolStore.Delete
import C3Lens.Proofs.SymbolStore.Inlines
import C3Lens.Proofs.SymbolStore.Register

/-!
# What is left of a unit that was read

A unit in the store is the unit as it was read, with other modules for its types and with hoisted
members (`Resolved`). What of its pending work is not done waits, and is not known. A registration
of another document keeps this (`Resolved.register`), and so does forgetting another document
(`Resolved.delete`).

A registration goes once through the queue of inline members. `Expands` says that it puts members
behind one of them: those that are found for it when its turn comes. `unit?_register_expands` tells
each unit after a registration by the expansions of its own queue.
-/

namespace C3Lens.SymbolStore

/-- The unit `u` with the pending work `p` is in the store, its types with the modules `modules` and
with the expansions `hoists`. -/
structure Resolved (s : SymbolStore) (u : SourceUnit) (p : Pending)
    (modules : String → TypeRef → String) (hoists : List (PendingInline × List Member)) : Prop where
  unit : s.unit? u.doc = some ((u.mapModules modules).hoistAll hoists)
  types : ∀ name, ∀ c ∈ s.pending.typesIn name, c.doc = u.doc →
    c ∈ p.typesIn name ∧ s.home? c = none
  inlines : ∀ i ∈ s.pending.inlines, i.doc = u.doc →
    i ∈ p.inlines ∧ i ∉ hoists.map Prod.fst ∧ s.inlinedMembers? i = none
  nodup : (hoists.map Prod.fst).Nodup
  own : ∀ i ∈ hoists.map Prod.fst, i ∈ p.inlines
  rest : ∀ i ∈ p.inlines, i ∈ hoists.map Prod.fst ∨ i ∈ s.pending.inlines ∨ ¬ u.Asks i

/-! ## One registration -/

theorem inlinedMembers?_congr_units {s s' : SymbolStore} (h : s'.units = s.units) (i : PendingInline) :
    s'.inlinedMembers? i = s.inlinedMembers? i := by
  simp only [inlinedMembers?, inlinedStruct?, modulesNamed, modules, h]

theorem mem_inlines_foldl_settleInline_of_mem {s : SymbolStore} {i : PendingInline}
    (h : i ∈ s.pending.inlines) (is : List PendingInline) :
    i ∈ (is.foldl settleInline s).pending.inlines := by
  induction is generalizing s with
  | nil => exact h
  | cons j is ih =>
    refine ih ?_
    rw [inlines_settleInline]
    split
    · exact Pending.mem_addNew.2 (.inl h)
    · exact h

/-- An inline member without members keeps waiting, if its struct asks for it. -/
theorem mem_inlines_foldl_settleInline_of_awaits {is : List PendingInline} {s : SymbolStore}
    {i : PendingInline} (h : i ∈ is) (unknown : s.inlinedMembers? i = none) (awaits : s.awaits i = true) :
    i ∈ (is.foldl settleInline s).pending.inlines := by
  induction is generalizing s with
  | nil => cases h
  | cons j is ih =>
    rcases List.mem_cons.1 h with rfl | h
    · refine mem_inlines_foldl_settleInline_of_mem ?_ is
      rw [inlines_settleInline, if_pos ⟨unknown, awaits⟩]
      exact Pending.mem_addNew.2 (.inr rfl)
    · exact ih h ((inlinedMembers?_settleInline_eq_none i j).2 unknown)
        (awaits_settleInline awaits unknown j)

section Register

variable {s : SymbolStore} {v : SourceUnit} {q : Pending}

/-- The store between binding types and expanding inline members. -/
def boundStore (s : SymbolStore) (v : SourceUnit) (q : Pending) : SymbolStore :=
  let bound := (s.placed v q).bindAll (s.placed v q).pending.types
  { bound with pending := { bound.pending with inlines := [] } }

theorem units_register_eq (s : SymbolStore) (v : SourceUnit) (q : Pending) :
    (s.register v q).units =
        ((s.placed v q).pending.inlines.foldl settleInline (s.boundStore v q)).units ∧
      (s.register v q).pending.inlines =
        ((s.placed v q).pending.inlines.foldl settleInline (s.boundStore v q)).pending.inlines :=
  units_settle _

theorem skeleton_boundStore (s : SymbolStore) (v : SourceUnit) (q : Pending) :
    (s.boundStore v q).skeleton = (s.register v q).skeleton := by
  rw [register_eq, skeleton_settle]
  exact skeleton_bindAll (s.placed v q) _

/-- The unit of a document after a registration, be it the registered one or another: its waiting
types are bound, then its waiting inline members are expanded. -/
theorem unit?_register (hs : s.pending.Tidy) (v : SourceUnit) (q : Pending) (doc : DocId) :
    ∃ hoists : List (PendingInline × List Member),
      (s.register v q).unit? doc = ((s.placed v q).unit? doc).map (fun w => SourceUnit.hoistAll
        (w.mapModules fun name => (s.placed v q).moduleAfter
          (((s.placed v q).pending.typesIn name).filter (·.doc == doc))) hoists) ∧
      hoists.map Prod.fst = (s.placed v q).pending.inlines.filter
        (fun i => i.doc == doc && ((s.register v q).inlinedMembers? i).isSome) ∧
      ∀ h ∈ hoists, ∃ members, (s.register v q).inlinedMembers? h.1 = some members ∧
        (members = h.2 ∨ ∃ m ∈ members, m.isExpanded = true) := by
  obtain ⟨hoists, unit, queue, members⟩ := unit?_foldl_settleInline_eq
    (s.placed v q).pending.inlines (s.boundStore v q) doc
  have units := (units_register_eq s v q).1
  have known := isSome_inlinedMembers?_congr (skeleton_boundStore s v q)
  refine ⟨hoists, ?_, ?_, ?_⟩
  · have found : (s.register v q).unit? doc = _ := congrArg (Table.get? · doc.text) units
    have bound : (s.boundStore v q).unit? doc = ((s.placed v q).unit? doc).map fun w =>
        w.mapModules fun name => (s.placed v q).moduleAfter
          ((s.placed v q).pending.types.filter (·.isIn doc.text name)) :=
      unit?_bindAll _ _ _
    simp only [(tidy_placed hs v q).filter_isIn] at bound
    refine found.trans (unit.trans ?_)
    rw [bound, Option.map_map]
    rfl
  · rw [queue]
    simp only [known]
  · intro h hh
    rw [inlinedMembers?_congr_units units]
    exact members h hh

/-- Two stores with the same units and the same queue of inline members. -/
theorem Idle.congr {s s' : SymbolStore} (h : s.Idle) (units : s'.units = s.units)
    (inlines : s'.pending.inlines = s.pending.inlines) : s'.Idle := by
  refine ⟨inlines ▸ h.nodup, fun i hi => ?_, fun i hi => ?_⟩
  · rw [inlinedMembers?_congr_units units]
    exact h.unknown i (inlines ▸ hi)
  · have unit : s'.unit? i.doc = s.unit? i.doc := congrArg (Table.get? · i.doc.text) units
    rw [awaits_iff, unit, ← awaits_iff]
    exact h.awaits i (inlines ▸ hi)

/-- After a registration the queue of inline members is idle. -/
theorem idle_register (s : SymbolStore) (v : SourceUnit) (q : Pending) : (s.register v q).Idle := by
  obtain ⟨units, inlines⟩ := units_register_eq s v q
  have start : (s.boundStore v q).Idle := Idle.of_nil rfl
  exact (start.foldl_settleInline _).congr units inlines

theorem nodup_inlines_register (s : SymbolStore) (v : SourceUnit) (q : Pending) :
    (s.register v q).pending.inlines.Nodup :=
  (idle_register s v q).nodup

theorem unknown_register {i : PendingInline} (h : i ∈ (s.register v q).pending.inlines) :
    i ∈ (s.placed v q).pending.inlines ∧ (s.register v q).inlinedMembers? i = none := by
  refine ⟨?_, (idle_register s v q).unknown i h⟩
  rw [(units_register_eq s v q).2] at h
  exact (mem_inlines_foldl_settleInline h).resolve_left List.not_mem_nil

/-- What is asked for and not known waits. -/
theorem waits_register {i : PendingInline} (h : i ∈ (s.placed v q).pending.inlines)
    (unknown : (s.register v q).inlinedMembers? i = none) {w : SourceUnit}
    (unit : (s.placed v q).unit? i.doc = some w) (asks : w.Asks i) :
    i ∈ (s.register v q).pending.inlines := by
  have known := isSome_inlinedMembers?_congr (skeleton_boundStore s v q) i
  have bound : (s.boundStore v q).unit? i.doc = _ :=
    unit?_bindAll (s.placed v q) (s.placed v q).pending.types i.doc
  rw [(units_register_eq s v q).2]
  refine mem_inlines_foldl_settleInline_of_awaits h ?_ ?_
  · rw [unknown, Option.isSome_none, Option.isSome_eq_false_iff, Option.isNone_iff_eq_none] at known
    exact known
  · rw [awaits_iff, bound, unit]
    exact ⟨_, rfl, (SourceUnit.asks_mapModules _).2 asks⟩

end Register

/-! ## Units that were read -/

section Kept

variable {s : SymbolStore} {u v : SourceUnit} {p q : Pending} {modules : String → TypeRef → String}
  {hoists : List (PendingInline × List Member)}

/-- Inline members of one document are told apart by their places. -/
theorem eq_of_sameIn (own : p.BelongsTo u.doc) {i j : PendingInline} (hi : i ∈ p.inlines)
    (hj : j ∈ p.inlines) (same : i.SameIn j) : i = j :=
  same.eq ((own.inlines i hi).trans (own.inlines j hj).symm)

theorem Resolved.asks (h : s.Resolved u p modules hoists) (own : p.BelongsTo u.doc) {i : PendingInline}
    (hi : i ∈ p.inlines) (new : i ∉ hoists.map Prod.fst) (asks : u.Asks i) :
    ((u.mapModules modules).hoistAll hoists).Asks i := by
  refine SourceUnit.Asks.hoistAll ((SourceUnit.asks_mapModules _).2 asks) fun g hg same => new ?_
  have mem : g.1 ∈ hoists.map Prod.fst := List.mem_map_of_mem hg
  rwa [eq_of_sameIn own hi (h.own g.1 mem) same]

theorem mem_inlines_placed (hp : p.BelongsTo u.doc) {i : PendingInline} (doc : i.doc = u.doc) :
    i ∈ (s.placed u p).pending.inlines ↔ i ∈ p.inlines := by
  show i ∈ ((s.pending.purge u.doc).append p).inlines ↔ _
  rw [Pending.inlines_purge_append hp, List.mem_append, List.mem_filter, bne_iff_ne,
    Pending.mem_foldl_addNew]
  simp [doc]

theorem mem_inlines_placed_of_ne (hp : p.BelongsTo u.doc) {i : PendingInline} (doc : i.doc ≠ u.doc) :
    i ∈ (s.placed u p).pending.inlines ↔ i ∈ s.pending.inlines := by
  show i ∈ ((s.pending.purge u.doc).append p).inlines ↔ _
  rw [Pending.inlines_purge_append hp, List.mem_append, List.mem_filter, bne_iff_ne,
    Pending.mem_foldl_addNew, or_iff_right List.not_mem_nil, and_iff_left doc, or_iff_left]
  exact fun hi => doc (hp.inlines i hi)

theorem nodup_inlines_placed (hs : s.pending.inlines.Nodup) (hp : p.BelongsTo u.doc) :
    (s.placed u p).pending.inlines.Nodup := by
  show ((s.pending.purge u.doc).append p).inlines.Nodup
  rw [Pending.inlines_purge_append hp, List.nodup_append]
  refine ⟨hs.filter _, Pending.nodup_foldl_addNew List.nodup_nil _, fun i hi j hj same => ?_⟩
  rw [Pending.mem_foldl_addNew, or_iff_right List.not_mem_nil] at hj
  rw [List.mem_filter, bne_iff_ne] at hi
  exact hi.2 (same ▸ hp.inlines j hj)

/-- A unit that is registered is resolved by its own queue. -/
theorem resolved_register (hs : s.pending.Tidy) (nodup : s.pending.inlines.Nodup) (hp : p.Tidy)
    (own : p.BelongsTo u.doc) :
    ∃ hoists, (s.register u p).Resolved u p (fun name => (s.placed u p).moduleAfter (p.typesIn name))
        hoists ∧
      ∀ h ∈ hoists, ∃ members, (s.register u p).inlinedMembers? h.1 = some members ∧
        (members = h.2 ∨ ∃ m ∈ members, m.isExpanded = true) := by
  obtain ⟨hoists, unit, queue, members⟩ := unit?_register hs u p u.doc
  have ownTypes : ∀ name, ((s.placed u p).pending.typesIn name).filter (·.doc == u.doc) =
      p.typesIn name := by
    intro name
    rw [← (tidy_placed hs u p).filter_isIn, filter_types_placed s hp own]
  simp only [ownTypes, unit?_placed, if_true, Option.map_some] at unit
  have known : ∀ i ∈ p.inlines, i ∈ hoists.map Prod.fst ↔
      ((s.register u p).inlinedMembers? i).isSome = true := by
    intro i hi
    rw [queue, List.mem_filter, mem_inlines_placed own (own.inlines i hi), Bool.and_eq_true, beq_iff_eq]
    simp only [hi, own.inlines i hi, true_and]
  refine ⟨hoists, ⟨unit, ?_, ?_, ?_, ?_, ?_⟩, members⟩
  · intro name c hc doc
    obtain ⟨waited, homeless⟩ := homeless_register hs hc
    refine ⟨?_, homeless⟩
    rw [← ownTypes]
    exact List.mem_filter.2 ⟨waited, beq_iff_eq.2 doc⟩
  · intro i hi doc
    obtain ⟨waited, unknown⟩ := unknown_register hi
    have mine := (mem_inlines_placed own doc).1 waited
    refine ⟨mine, ?_, unknown⟩
    rw [known i mine, unknown]
    exact Bool.false_ne_true
  · rw [queue]
    exact (nodup_inlines_placed nodup own).filter _
  · intro i hi
    rw [queue, List.mem_filter, Bool.and_eq_true, beq_iff_eq] at hi
    exact (mem_inlines_placed own hi.2.1).1 hi.1
  · intro i hi
    by_cases asks : u.Asks i
    · cases found : (s.register u p).inlinedMembers? i with
      | some members =>
        refine .inl ((known i hi).2 ?_)
        rw [found]
        rfl
      | none =>
        have placed : (s.placed u p).unit? i.doc = some u := by
          rw [unit?_placed, if_pos (own.inlines i hi)]
        exact .inr (.inl (waits_register ((mem_inlines_placed own (own.inlines i hi)).2 hi) found placed
          asks))
    · exact .inr (.inr asks)

/-- The registration of another document binds and expands what waits. -/
theorem Resolved.register (h : s.Resolved u p modules hoists) (own : p.BelongsTo u.doc)
    (hs : s.pending.Tidy) (nodup : s.pending.inlines.Nodup) (hq : q.Tidy) (other : q.BelongsTo v.doc)
    (ne : v.doc ≠ u.doc) :
    ∃ new, (s.register v q).Resolved u p
        (fun name t => (s.placed v q).moduleAfter ((s.pending.typesIn name).filter (·.doc == u.doc))
          (t.mapModule (modules name)))
        (SourceUnit.rebind (fun name => (s.placed v q).moduleAfter
          ((s.pending.typesIn name).filter (·.doc == u.doc))) hoists ++ new) ∧
      ∀ h ∈ new, ∃ members, (s.register v q).inlinedMembers? h.1 = some members ∧
        (members = h.2 ∨ ∃ m ∈ members, m.isExpanded = true) := by
  obtain ⟨new, unit, queue, members⟩ := unit?_register hs v q u.doc
  have waiting : ∀ name, ((s.placed v q).pending.typesIn name).filter (·.doc == u.doc) =
      (s.pending.typesIn name).filter (·.doc == u.doc) := by
    intro name
    rw [← (tidy_placed hs v q).filter_isIn, filter_types_placed_of_ne hs hq other (Ne.symm ne)]
  simp only [waiting, unit?_placed, if_neg (Ne.symm ne), h.unit, Option.map_some,
    SourceUnit.mapModules_hoistAll, SourceUnit.mapModules_mapModules, ← SourceUnit.hoistAll_append] at unit
  have notOther : ∀ {i : PendingInline}, i.doc = u.doc → i.doc ≠ v.doc := fun doc same =>
    ne (same.symm.trans doc)
  have mem_new : ∀ i, i ∈ new.map Prod.fst ↔ i ∈ s.pending.inlines ∧ i.doc = u.doc ∧
      ((s.register v q).inlinedMembers? i).isSome = true := by
    intro i
    rw [queue, List.mem_filter, Bool.and_eq_true, beq_iff_eq]
    constructor
    · rintro ⟨waits, doc, known⟩
      exact ⟨(mem_inlines_placed_of_ne other (notOther doc)).1 waits, doc, known⟩
    · rintro ⟨waits, doc, known⟩
      exact ⟨(mem_inlines_placed_of_ne other (notOther doc)).2 waits, doc, known⟩
  refine ⟨new, ⟨unit, ?_, ?_, ?_, ?_, ?_⟩, members⟩
  · intro name c hc doc
    obtain ⟨waited, homeless⟩ := homeless_register hs hc
    have before : c ∈ (s.pending.typesIn name).filter (·.doc == u.doc) := by
      rw [← waiting]
      exact List.mem_filter.2 ⟨waited, beq_iff_eq.2 doc⟩
    exact ⟨(h.types name c (List.mem_of_mem_filter before) doc).1, homeless⟩
  · intro i hi doc
    obtain ⟨waited, unknown⟩ := unknown_register hi
    obtain ⟨mine, old, -⟩ := h.inlines i ((mem_inlines_placed_of_ne other (notOther doc)).1 waited) doc
    refine ⟨mine, ?_, unknown⟩
    rw [List.map_append, SourceUnit.fst_rebind, List.mem_append, mem_new, unknown]
    rintro (mem | ⟨-, -, known⟩)
    · exact old mem
    · cases known
  · rw [List.map_append, SourceUnit.fst_rebind, List.nodup_append]
    refine ⟨h.nodup, ?_, fun i hi j hj same => ?_⟩
    · rw [queue]
      exact (nodup_inlines_placed nodup other).filter _
    · subst same
      obtain ⟨waits, doc, -⟩ := (mem_new i).1 hj
      exact (h.inlines i waits doc).2.1 hi
  · intro i hi
    rw [List.map_append, SourceUnit.fst_rebind, List.mem_append, mem_new] at hi
    rcases hi with hi | ⟨waits, doc, -⟩
    · exact h.own i hi
    · exact (h.inlines i waits doc).1
  · intro i hi
    have doc := own.inlines i hi
    rw [List.map_append, SourceUnit.fst_rebind, List.mem_append, mem_new]
    rcases h.rest i hi with done | waits | asks
    · exact .inl (.inl done)
    · cases found : (s.register v q).inlinedMembers? i with
      | some members => exact .inl (.inr ⟨waits, doc, rfl⟩)
      | none =>
        refine or_iff_not_imp_left.2 fun _ => or_iff_not_imp_right.2 fun asked => ?_
        have placed : (s.placed v q).unit? i.doc =
            some ((u.mapModules modules).hoistAll hoists) := by
          rw [unit?_placed, if_neg (notOther doc), doc, h.unit]
        refine waits_register ((mem_inlines_placed_of_ne other (notOther doc)).2 waits) found placed ?_
        exact h.asks own hi (h.inlines i waits doc).2.1 (not_not.1 asked)
    · exact .inr (.inr asks)

/-- Forgetting another document changes nothing. -/
theorem Resolved.delete (h : s.Resolved u p modules hoists) (own : p.BelongsTo u.doc)
    (structs : s.OwnsStructs) {doc : DocId} (ne : u.doc ≠ doc) :
    (s.delete doc).Resolved u p modules hoists := by
  refine ⟨?_, ?_, ?_, h.nodup, h.own, ?_⟩
  · rw [unit?_delete, if_neg ne]
    exact h.unit
  · intro name c hc same
    have waits : c ∈ (s.pending.purge doc).typesIn name := hc
    rw [Pending.typesIn_purge] at waits
    obtain ⟨mine, homeless⟩ := h.types name c (List.mem_of_mem_filter waits) same
    exact ⟨mine, home?_delete homeless fun eq => ne (same.symm.trans eq)⟩
  · intro i hi same
    have waits : i ∈ (s.pending.purge doc).inlines := hi
    rw [Pending.inlines_purge] at waits
    obtain ⟨mine, new, unknown⟩ := h.inlines i (List.mem_of_mem_filter waits) same
    exact ⟨mine, new, inlinedMembers?_delete (structs.of doc) unknown fun eq => ne (same.symm.trans eq)⟩
  · intro i hi
    refine (h.rest i hi).imp_right (Or.imp_left fun waits => ?_)
    show i ∈ (s.pending.purge doc).inlines
    rw [Pending.inlines_purge]
    refine List.mem_filter.2 ⟨waits, bne_iff_ne.2 fun eq => ne ?_⟩
    exact (own.inlines i hi).symm.trans eq

end Kept

end C3Lens.SymbolStore

/-! ## What a registration expands -/

namespace C3Lens.SymbolStore

/-- The store when all inline members of `before` have had their turn in the registration of `v`. -/
def turn (s : SymbolStore) (v : SourceUnit) (q : Pending) (before : List PendingInline) : SymbolStore :=
  before.foldl settleInline (s.boundStore v q)

/-- The registration of `v` puts the members `h.2` behind the inline member `h.1`. -/
def Expands (s : SymbolStore) (v : SourceUnit) (q : Pending) (h : PendingInline × List Member) : Prop :=
  ∃ before after, (s.placed v q).pending.inlines = before ++ h.1 :: after ∧
    (s.turn v q before).inlinedMembers? h.1 = some h.2

/-- The unit of a document after a registration, be it the registered one or another: its types
have other modules, and of its queue all that is known is expanded. -/
theorem unit?_register_expands (s : SymbolStore) (v : SourceUnit) (q : Pending) (doc : DocId) :
    ∃ modules : String → TypeRef → String, ∃ hoists : List (PendingInline × List Member),
      (s.register v q).unit? doc =
        ((s.placed v q).unit? doc).map (fun w => (w.mapModules modules).hoistAll hoists) ∧
      hoists.map Prod.fst = (s.placed v q).pending.inlines.filter
        (fun i => i.doc == doc && ((s.register v q).inlinedMembers? i).isSome) ∧
      ∀ h ∈ hoists, s.Expands v q h := by
  obtain ⟨hoists, unit, queue, turns⟩ := unit?_foldl_settleInline_turns
    (s.placed v q).pending.inlines (s.boundStore v q) doc
  have known := isSome_inlinedMembers?_congr (skeleton_boundStore s v q)
  have found : (s.register v q).unit? doc = _ := congrArg (Table.get? · doc.text) (units_register_eq s v q).1
  have bound : (s.boundStore v q).unit? doc = ((s.placed v q).unit? doc).map fun w =>
      w.mapModules fun name => (s.placed v q).moduleAfter
        ((s.placed v q).pending.types.filter (·.isIn doc.text name)) :=
    unit?_bindAll _ _ _
  refine ⟨fun name => (s.placed v q).moduleAfter
    ((s.placed v q).pending.types.filter (·.isIn doc.text name)), hoists, ?_, ?_, turns⟩
  · refine found.trans (unit.trans ?_)
    rw [bound, Option.map_map]
    rfl
  · rw [queue]
    simp only [known]

end C3Lens.SymbolStore
