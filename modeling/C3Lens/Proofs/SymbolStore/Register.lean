import C3Lens.Proofs.SymbolStore.Inlines

/-!
# Registering a unit

A unit comes into the store with its own pending work behind that of the others
(`typesIn_placed`). `register_register`: to register the same unit again changes neither the units
nor what waits. The second registration binds the unit as the first one did, finds no home for
what the first one left, and expands the inline members of the unit from the same structs: all
other documents were done before.
-/

namespace C3Lens

namespace Pending

/-- Of a tidy queue, the types of one module of one document. -/
theorem Tidy.filter_isIn {p : Pending} (h : p.Tidy) (doc : DocId) (name : String) :
    p.types.filter (·.isIn doc.text name) = (p.typesIn name).filter (·.doc == doc) := by
  rw [← h.filter_types, List.filter_filter]
  refine List.filter_congr fun t _ => ?_
  have same : (t.doc.text == doc.text) = (t.doc == doc) := by
    rw [Bool.eq_iff_iff, beq_iff_eq, beq_iff_eq]
    exact DocId.text_inj
  rw [PendingType.isIn, same]

end Pending

namespace SymbolStore

/-- The store with a unit in the place of the one of its document, before anything is settled. -/
def placed (s : SymbolStore) (u : SourceUnit) (p : Pending) : SymbolStore :=
  ⟨s.units.insert u.doc.text u, (s.pending.purge u.doc).append p⟩

theorem register_eq (s : SymbolStore) (u : SourceUnit) (p : Pending) :
    s.register u p = (s.placed u p).settle := rfl

theorem unit?_placed (s : SymbolStore) (u : SourceUnit) (p : Pending) (doc : DocId) :
    (s.placed u p).unit? doc = if doc = u.doc then some u else s.unit? doc := by
  show (s.units.insert u.doc.text u).get? doc.text = _
  rw [Table.get?_insert]
  simp only [DocId.text_inj]
  rfl

/-- The types without homes stay as they are. -/
theorem moduleAfter_of_none {s : SymbolStore} {ts : List PendingType}
    (h : ∀ t ∈ ts, s.home? t = none) (type : TypeRef) : s.moduleAfter ts type = type.moduleName := by
  induction ts generalizing type with
  | nil => rfl
  | cons t ts ih =>
    rw [moduleAfter, ih fun u hu => h u (List.mem_cons_of_mem _ hu)]
    show s.moduleUnder t type = type.moduleName
    rw [moduleUnder, h t List.mem_cons_self]

theorem unit?_bindAll (s : SymbolStore) (ts : List PendingType) (doc : DocId) :
    (s.bindAll ts).unit? doc = (s.unit? doc).map fun u => { u with
      modules := u.modules.mapEntries fun name m =>
        m.mapModule (s.moduleAfter (ts.filter (·.isIn doc.text name))) } :=
  unit?_mapModules _ _ _

section Placed

variable {s : SymbolStore} {u : SourceUnit} {p : Pending}

theorem tidy_placed (hs : s.pending.Tidy) (u : SourceUnit) (p : Pending) : (s.placed u p).pending.Tidy :=
  (hs.purge u.doc).append p

theorem typesIn_placed (hp : p.Tidy) (own : p.BelongsTo u.doc) (name : String) :
    (s.placed u p).pending.typesIn name =
      (s.pending.typesIn name).filter (·.doc != u.doc) ++ p.typesIn name :=
  Pending.typesIn_purge_append hp own name

/-- What waits after a registration has no home. -/
theorem homeless_register (hs : s.pending.Tidy) {name : String} {c : PendingType}
    (h : c ∈ (s.register u p).pending.typesIn name) :
    c ∈ (s.placed u p).pending.typesIn name ∧ (s.register u p).home? c = none := by
  rw [register_eq, typesIn_settle (tidy_placed hs u p), List.mem_filter, waits, Bool.and_eq_true,
    Option.isNone_iff_eq_none] at h
  rw [register_eq, home?_congr (skeleton_settle _)]
  exact ⟨h.1, h.2.1⟩

theorem doc_of_mem_typesIn (own : p.BelongsTo u.doc) {name : String} {t : PendingType}
    (ht : t ∈ p.typesIn name) : t.doc = u.doc :=
  own.types t (Pending.mem_types_iff.2 ⟨name, ht⟩)

/-- The types of the document itself, in the order of its own queue. -/
theorem filter_types_placed (s : SymbolStore) (hp : p.Tidy) (own : p.BelongsTo u.doc) (name : String) :
    (s.placed u p).pending.types.filter (·.isIn u.doc.text name) = p.typesIn name := by
  have others : ∀ group, ((s.pending.typesIn group).filter (·.doc != u.doc)).filter
      (·.isIn u.doc.text name) = [] := by
    intro group
    refine List.filter_eq_nil_iff.2 fun t ht here => ?_
    exact bne_iff_ne.1 (List.mem_filter.1 ht).2 (congrArg DocId.mk (PendingType.isIn_iff.1 here).1.symm)
  rw [@Pending.filter_types _ name, typesIn_placed hp own, List.filter_append, others, List.nil_append]
  · refine List.filter_eq_self.2 fun t ht => PendingType.isIn_iff.2 ⟨?_, (hp.context_eq name t ht).symm⟩
    rw [doc_of_mem_typesIn own ht]
  · intro group ne
    rw [typesIn_placed hp own, List.filter_append, others, List.nil_append]
    refine List.filter_eq_nil_iff.2 fun t ht here => ne ?_
    rw [(PendingType.isIn_iff.1 here).2, hp.context_eq group t ht]

/-- The modules of the unit after its registration: their types are bound in the order of the queue
of the document itself, then members are hoisted. -/
theorem module?_register (s : SymbolStore) (hp : p.Tidy) (own : p.BelongsTo u.doc) {name : String}
    {m : Module} (h : u.module? name = some m) :
    ∃ n, ((s.register u p).unit? u.doc).bind (·.module? name) = some n ∧
      (m.mapModule ((s.placed u p).moduleAfter (p.typesIn name))).HoistsTo n := by
  obtain ⟨f, units, hoists⟩ := hoistsTo_expandAll ((s.placed u p).bindAll (s.placed u p).pending.types)
    (s.placed u p).pending.inlines
  have settled := (units_settle (s.placed u p)).1.trans units
  have found : (s.register u p).unit? u.doc = _ := congrArg (Table.get? · u.doc.text) settled
  refine ⟨_, ?_, hoists u.doc.text name _⟩
  have declared : u.modules.get? name = some m := h
  rw [found]
  show ((mapModules f _).unit? u.doc).bind _ = _
  rw [unit?_mapModules, unit?_bindAll, unit?_placed, if_pos rfl]
  simp only [Option.map_some, Option.bind_some, SourceUnit.module?, Table.get?_mapEntries, declared,
    filter_types_placed s hp own]

/-- The types of another document, as they wait already. -/
theorem filter_types_placed_of_ne (hs : s.pending.Tidy) (hp : p.Tidy) (own : p.BelongsTo u.doc)
    {doc : DocId} (ne : doc ≠ u.doc) (name : String) :
    (s.placed u p).pending.types.filter (·.isIn doc.text name) =
      (s.pending.typesIn name).filter (·.doc == doc) := by
  rw [(tidy_placed hs u p).filter_isIn, typesIn_placed hp own, List.filter_append, List.filter_filter]
  have new : (p.typesIn name).filter (·.doc == doc) = [] := by
    refine List.filter_eq_nil_iff.2 fun t ht => ?_
    rw [doc_of_mem_typesIn own ht, beq_iff_eq]
    exact Ne.symm ne
  rw [new, List.append_nil]
  refine List.filter_congr fun t _ => ?_
  by_cases same : t.doc = doc
  · rw [same, beq_self_eq_true, Bool.true_and, bne_iff_ne]
    exact ne
  · rw [beq_eq_false_iff_ne.2 same, Bool.false_and]

theorem skeleton_placed_register (s : SymbolStore) (u : SourceUnit) (p : Pending) :
    ((s.register u p).placed u p).skeleton = (s.placed u p).skeleton := by
  have kept : (s.register u p).units.map SourceUnit.skeleton =
      (s.placed u p).units.map SourceUnit.skeleton :=
    congrArg SymbolStore.units (skeleton_settle (s.placed u p))
  rw [skeleton, placed, Table.map_insert, kept, placed, Table.map_insert, Table.insert_insert,
    ← Table.map_insert]
  rfl

/-! ## Registering twice -/

/-- The store when it comes to the inline members of the new unit. -/
def settledBefore (s : SymbolStore) (u : SourceUnit) (p : Pending) : SymbolStore :=
  ((s.placed u p).bindAll (s.placed u p).pending.types).expandAll
    (s.pending.inlines.filter (·.doc != u.doc))

/-- What waits after a second registration. -/
theorem typesIn_register_register (hs : s.pending.Tidy) (hp : p.Tidy) (own : p.BelongsTo u.doc)
    (name : String) :
    ((s.register u p).register u p).pending.typesIn name = (s.register u p).pending.typesIn name := by
  have once : (s.register u p).pending.typesIn name =
      ((s.pending.typesIn name).filter (·.doc != u.doc)).filter (s.placed u p).waits ++
        (p.typesIn name).filter (s.placed u p).waits := by
    rw [register_eq, typesIn_settle (tidy_placed hs u p), typesIn_placed hp own, List.filter_append]
  have others : ((p.typesIn name).filter (s.placed u p).waits).filter (·.doc != u.doc) = [] := by
    refine List.filter_eq_nil_iff.2 fun t ht => ?_
    rw [doc_of_mem_typesIn own (List.mem_of_mem_filter ht), bne_self_eq_false]
    exact Bool.false_ne_true
  have homes : ((s.register u p).placed u p).waits = (s.placed u p).waits :=
    funext (waits_congr (skeleton_placed_register s u p))
  have tidy : (s.register u p).pending.Tidy := tidy_settle _
  rw [register_eq (s.register u p), typesIn_settle (tidy_placed tidy u p), typesIn_placed hp own, homes,
    once, List.filter_append, List.filter_append, others, List.append_nil]
  congr 1
  simp only [List.filter_filter]
  refine List.filter_congr fun t _ => ?_
  cases (s.placed u p).waits t <;> simp

/-- The units after a registration: first the inline members of the others are expanded, then those
of the document. -/
theorem units_register (s : SymbolStore) (own : p.BelongsTo u.doc) :
    (s.register u p).units =
        ((p.inlines.foldl Pending.addNew []).foldl settleInline (s.settledBefore u p)).units ∧
      (s.register u p).pending.inlines =
        ((p.inlines.foldl Pending.addNew []).foldl settleInline
          (s.settledBefore u p)).pending.inlines := by
  have queue : (s.placed u p).pending.inlines =
      s.pending.inlines.filter (·.doc != u.doc) ++ p.inlines.foldl Pending.addNew [] :=
    Pending.inlines_purge_append own
  have settled := units_settle (s.placed u p)
  rwa [queue, expandAll, List.foldl_append] at settled

theorem skeleton_settledBefore (s : SymbolStore) (u : SourceUnit) (p : Pending) :
    (s.settledBefore u p).skeleton = (s.placed u p).skeleton := by
  rw [settledBefore, (hoistsTo_expandAll _ _).skeleton_eq, skeleton_bindAll]

theorem idle_settledBefore (s : SymbolStore) (u : SourceUnit) (p : Pending) :
    (s.settledBefore u p).Idle :=
  (Idle.of_nil rfl).foldl_settleInline _

/-- No inline member of the document itself is expanded before its turn. -/
theorem doc_ne_of_mem_settledBefore {i : PendingInline}
    (hi : i ∈ (s.settledBefore u p).pending.inlines) : i.doc ≠ u.doc := by
  rcases mem_inlines_foldl_settleInline hi with hi | hi
  · exact absurd hi List.not_mem_nil
  · exact bne_iff_ne.1 (List.mem_filter.1 hi).2

theorem doc_of_mem_own (own : p.BelongsTo u.doc) {i : PendingInline}
    (hi : i ∈ p.inlines.foldl Pending.addNew []) : i.doc = u.doc := by
  rw [Pending.mem_foldl_addNew, or_iff_right List.not_mem_nil] at hi
  exact own.inlines i hi

/-- The other documents wait for the same members before and after. -/
theorem inlines_register_others (s : SymbolStore) (own : p.BelongsTo u.doc) :
    (s.register u p).pending.inlines.filter (·.doc != u.doc) =
      (s.settledBefore u p).pending.inlines := by
  have notOthers : ∀ i ∈ p.inlines.foldl Pending.addNew [], (i.doc != u.doc) = false := by
    intro i hi
    rw [doc_of_mem_own own hi, bne_self_eq_false]
  rw [(units_register s own).2, filter_inlines_foldl_settleInline notOthers]
  exact List.filter_eq_self.2 fun i hi => bne_iff_ne.2 (doc_ne_of_mem_settledBefore hi)

/-- The unit of the document, once its types are bound. -/
theorem unit?_settledBefore (s : SymbolStore) (hp : p.Tidy) (own : p.BelongsTo u.doc) :
    (s.settledBefore u p).unit? u.doc = some { u with
      modules := u.modules.mapEntries fun name m =>
        m.mapModule ((s.placed u p).moduleAfter (p.typesIn name)) } := by
  have others : ∀ i ∈ s.pending.inlines.filter (·.doc != u.doc), i.doc = u.doc →
      ((s.placed u p).bindAll (s.placed u p).pending.types).inlinedMembers? i = none := by
    intro i hi same
    exact absurd same (bne_iff_ne.1 (List.mem_filter.1 hi).2)
  rw [settledBefore, unit?_expandAll others, unit?_bindAll, unit?_placed, if_pos rfl, Option.map_some]
  simp only [filter_types_placed s hp own]

/-- The unit of another document, once its types are bound, when all of them that wait in the
store have no home. -/
theorem unit?_bindAll_placed_of_ne (hs : s.pending.Tidy) (hp : p.Tidy) (own : p.BelongsTo u.doc)
    {doc : DocId} (ne : doc ≠ u.doc)
    (homeless : ∀ name, ∀ t ∈ s.pending.typesIn name, (s.placed u p).home? t = none ∨ t.doc ≠ doc) :
    ((s.placed u p).bindAll (s.placed u p).pending.types).unit? doc = s.unit? doc := by
  have same : ∀ name (m : Module), m.mapModule ((s.placed u p).moduleAfter
      ((s.placed u p).pending.types.filter (·.isIn doc.text name))) = m := by
    intro name m
    have after : (s.placed u p).moduleAfter
        ((s.placed u p).pending.types.filter (·.isIn doc.text name)) = TypeRef.moduleName := by
      funext type
      refine moduleAfter_of_none (fun t ht => ?_) type
      rw [filter_types_placed_of_ne hs hp own ne, List.mem_filter, beq_iff_eq] at ht
      exact (homeless name t ht.1).resolve_right fun other => other ht.2
    rw [after]
    exact Module.mapModule_self m
  rw [unit?_bindAll, unit?_placed, if_neg ne]
  cases s.unit? doc with
  | none => rfl
  | some v =>
    rw [Option.map_some, Table.mapEntries_id fun name m _ => same name m]

/-- What a second registration starts from is what the first one had before it came to the inline
members of the document. -/
theorem units_bindAll_placed_register (hs : s.pending.Tidy) (hp : p.Tidy) (own : p.BelongsTo u.doc) :
    (((s.register u p).placed u p).bindAll ((s.register u p).placed u p).pending.types).units =
      (s.settledBefore u p).units := by
  have tidy : (s.register u p).pending.Tidy := tidy_settle _
  have skeletons := skeleton_placed_register s u p
  have names := names_congr (((skeleton_bindAll ((s.register u p).placed u p)
    ((s.register u p).placed u p).pending.types).trans skeletons).trans
      (skeleton_settledBefore s u p).symm)
  refine Table.ext_get? names fun text => ?_
  show SymbolStore.unit? _ ⟨text⟩ = SymbolStore.unit? _ ⟨text⟩
  by_cases same : (⟨text⟩ : DocId) = u.doc
  · rw [same, unit?_settledBefore s hp own, unit?_bindAll, unit?_placed, if_pos rfl, Option.map_some]
    simp only [filter_types_placed _ hp own, funext (moduleAfter_congr skeletons _)]
  · have homeless : ∀ name, ∀ t ∈ (s.register u p).pending.typesIn name,
        ((s.register u p).placed u p).home? t = none ∨ t.doc ≠ ⟨text⟩ := by
      intro name t ht
      have homes := home?_congr (skeletons.trans (skeleton_settle (s.placed u p)).symm) t
      exact .inl (homes.trans (homeless_register hs ht).2)
    have others : ∀ i ∈ p.inlines.foldl Pending.addNew [], i.doc = ⟨text⟩ →
        (s.settledBefore u p).inlinedMembers? i = none := by
      intro i hi eq
      exact absurd (eq.symm.trans (doc_of_mem_own own hi)) same
    rw [unit?_bindAll_placed_of_ne tidy hp own same homeless, ← unit?_foldl_settleInline others]
    exact congrArg (Table.get? · text) (units_register s own).1

theorem register_register (hs : s.pending.Tidy) (hp : p.Tidy) (own : p.BelongsTo u.doc) :
    ((s.register u p).register u p).units = (s.register u p).units ∧
      (∀ name, ((s.register u p).register u p).pending.groups.get? name =
        (s.register u p).pending.groups.get? name) ∧
      ((s.register u p).register u p).pending.inlines = (s.register u p).pending.inlines := by
  have start := units_bindAll_placed_register hs hp own
  have tidy : (s.register u p).pending.Tidy := tidy_settle _
  have queue : ((s.register u p).placed u p).pending.inlines =
      (s.settledBefore u p).pending.inlines ++ p.inlines.foldl Pending.addNew [] := by
    rw [← inlines_register_others s own]
    exact Pending.inlines_purge_append own
  have first := units_register s own
  have second := units_settle ((s.register u p).placed u p)
  have pass := (idle_settledBefore s u p).expandAll_append start (p.inlines.foldl Pending.addNew [])
  rw [queue, pass.1, pass.2, ← first.1, ← first.2] at second
  refine ⟨second.1, fun name => ?_, second.2⟩
  exact Pending.Tidy.groups_eq_of_typesIn (tidy_settle _) tidy (typesIn_register_register hs hp own) name

end Placed

end SymbolStore

end C3Lens
