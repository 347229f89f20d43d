import C3Lens.Proofs.SymbolStore.Rename
import C3Lens.Proofs.SymbolStore.Shadow

/-!
# A store without the work of one document

`Relieved doc q s c` says that the store `c` is the store `s` without the pending work of the document,
which is among `q`. As long as the document still waits for all of this in `s`, it makes no difference:
what is registered, forgotten or moved has the same effect on both (`Relieved.register`,
`Relieved.delete`, `Relieved.rename`). What has been found once is not waited for again
(`waitsFor_of_register` and its kin).
-/

namespace C3Lens.SymbolStore

/-- All of the work is still waiting. -/
structure WaitsFor (s : SymbolStore) (q : Pending) : Prop where
  types : ∀ t ∈ q.types, t ∈ s.pending.types
  inlines : ∀ i ∈ q.inlines, i ∈ s.pending.inlines

instance (s : SymbolStore) (q : Pending) : Decidable (WaitsFor s q) :=
  decidable_of_iff ((∀ t ∈ q.types, t ∈ s.pending.types) ∧ ∀ i ∈ q.inlines, i ∈ s.pending.inlines)
    ⟨fun h => ⟨h.1, h.2⟩, fun h => ⟨h.types, h.inlines⟩⟩

/-- The store `c` is `s` without the work of the document, all of which is in `q`. -/
structure Relieved (doc : DocId) (q : Pending) (s c : SymbolStore) : Prop where
  units : c.units = s.units
  types : ∀ name, c.pending.typesIn name = (s.pending.typesIn name).filter (·.doc != doc)
  inlines : c.pending.inlines = s.pending.inlines.filter (·.doc != doc)
  tidy : s.pending.Tidy
  tidy' : c.pending.Tidy
  asked : ∀ t ∈ s.pending.types, t.doc = doc → t ∈ q.types
  asked' : ∀ i ∈ s.pending.inlines, i.doc = doc → i ∈ q.inlines

variable {s c : SymbolStore} {doc : DocId} {q p : Pending} {u : SourceUnit}

/-! ## What waits, waited before -/

theorem mem_types_of_register (hs : s.pending.Tidy) (hp : p.Tidy) (own : p.BelongsTo u.doc)
    {t : PendingType} (other : t.doc ≠ u.doc) (h : t ∈ (s.register u p).pending.types) :
    t ∈ s.pending.types ∧ (s.register u p).home? t = none := by
  obtain ⟨name, mem⟩ := Pending.mem_types_iff.1 h
  obtain ⟨placed, homeless⟩ := homeless_register hs mem
  rw [typesIn_placed hp own] at placed
  rcases List.mem_append.1 placed with before | new
  · exact ⟨Pending.mem_types_iff.2 ⟨name, List.mem_of_mem_filter before⟩, homeless⟩
  · exact absurd (doc_of_mem_typesIn own new) other

theorem mem_inlines_of_register (own : p.BelongsTo u.doc) {i : PendingInline} (other : i.doc ≠ u.doc)
    (h : i ∈ (s.register u p).pending.inlines) :
    i ∈ s.pending.inlines ∧ (s.register u p).inlinedMembers? i = none := by
  refine ⟨?_, (idle_register s u p).unknown i h⟩
  rw [(units_register_eq s u p).2] at h
  rcases mem_inlines_foldl_settleInline h with none | queued
  · exact absurd none List.not_mem_nil
  · have queue : (s.placed u p).pending.inlines = _ := Pending.inlines_purge_append own
    rw [queue] at queued
    rcases List.mem_append.1 queued with before | new
    · exact List.mem_of_mem_filter before
    · exact absurd (doc_of_mem_own own new) other

section

variable (hq : q.BelongsTo doc)
include hq

theorem waitsFor_of_register (hs : s.pending.Tidy) (hp : p.Tidy) (own : p.BelongsTo u.doc)
    (other : u.doc ≠ doc) (h : (s.register u p).WaitsFor q) : s.WaitsFor q where
  types t ht := (mem_types_of_register hs hp own (hq.types t ht ▸ other.symm) (h.types t ht)).1
  inlines i hi := (mem_inlines_of_register own (hq.inlines i hi ▸ other.symm) (h.inlines i hi)).1

omit hq in
theorem waitsFor_of_delete {gone : DocId} (h : (s.delete gone).WaitsFor q) : s.WaitsFor q where
  types t ht := by
    obtain ⟨name, mem⟩ := Pending.mem_types_iff.1 (h.types t ht)
    have purged : t ∈ (s.pending.purge gone).typesIn name := mem
    rw [Pending.typesIn_purge] at purged
    exact Pending.mem_types_iff.2 ⟨name, List.mem_of_mem_filter purged⟩
  inlines i hi := by
    have purged : i ∈ (s.pending.purge gone).inlines := h.inlines i hi
    rw [Pending.inlines_purge] at purged
    exact List.mem_of_mem_filter purged

theorem waitsFor_of_rename (hs : s.pending.Tidy) {old new : DocId} (other : new ≠ doc)
    (h : (s.rename old new).WaitsFor q) : s.WaitsFor q := by
  rw [SymbolStore.rename] at h
  split at h
  · exact h
  refine ⟨fun t ht => ?_, fun i hi => ?_⟩
  · obtain ⟨name, mem⟩ := Pending.mem_types_iff.1 (h.types t ht)
    have moved : t ∈ (s.pending.rename old new).typesIn name := mem
    rw [Pending.typesIn_rename_eq_foldl hs, Pending.mem_foldl_addNew] at moved
    rcases moved with kept | moved
    · exact Pending.mem_types_iff.2 ⟨name, List.mem_of_mem_filter kept⟩
    · obtain ⟨v, -, rfl⟩ := List.mem_map.1 moved
      exact absurd (hq.types _ ht) other
  · have moved : i ∈ (s.pending.rename old new).inlines := h.inlines i hi
    rw [Pending.inlines_rename] at moved
    obtain ⟨j, hj, same⟩ := List.mem_map.1 moved
    rw [PendingInline.rename] at same
    split at same
    · exact absurd ((congrArg PendingInline.doc same).trans (hq.inlines i hi)) other
    · exact same ▸ hj

end

/-! ## The same steps -/

theorem units_settleInline_congr (units : c.units = s.units) (i : PendingInline) :
    (c.settleInline i).units = (s.settleInline i).units := by
  have idle : ∀ s : SymbolStore, (if s.awaits i then
      { s with pending := s.pending.addInline i } else s).units = s.units := fun s => by
    split <;> rfl
  rw [settleInline, settleInline, inlinedMembers?_congr_units units]
  cases s.inlinedMembers? i with
  | none => exact (idle c).trans (units.trans (idle s).symm)
  | some members =>
    dsimp only
    rw [modifyModule, modifyModule, units]

theorem awaits_congr_units (units : c.units = s.units) (i : PendingInline) : c.awaits i = s.awaits i := by
  simp only [awaits, unit?, units]

theorem filter_addNew_of_not {α : Type} [DecidableEq α] {keep : α → Bool} {a : α} (dropped : keep a = false)
    (as : List α) : (Pending.addNew as a).filter keep = as.filter keep := by
  rw [Pending.addNew]
  split
  · rfl
  · rw [List.filter_append, List.filter_cons_of_neg (by simp [dropped]), List.filter_nil, List.append_nil]

/-- Inline members that are not found have no effect but to wait. -/
theorem foldl_settleInline_filter (is : List PendingInline) (units : c.units = s.units)
    (inlines : c.pending.inlines = s.pending.inlines.filter (·.doc != doc))
    (unknown : ∀ i ∈ is, i.doc = doc → s.inlinedMembers? i = none) :
    ((is.filter (·.doc != doc)).foldl settleInline c).units = (is.foldl settleInline s).units ∧
      ((is.filter (·.doc != doc)).foldl settleInline c).pending.inlines =
        (is.foldl settleInline s).pending.inlines.filter (·.doc != doc) := by
  induction is generalizing s c with
  | nil => exact ⟨units, inlines⟩
  | cons i is ih =>
    rw [List.forall_mem_cons] at unknown
    have later : ∀ j ∈ is, j.doc = doc → (s.settleInline i).inlinedMembers? j = none := fun j hj own =>
      (inlinedMembers?_settleInline_eq_none j i).2 (unknown.2 j hj own)
    by_cases own : i.doc = doc
    · have dropped : (i.doc != doc) = false := bne_eq_false_iff_eq.2 own
      rw [List.filter_cons, if_neg (Bool.eq_false_iff.1 dropped)]
      refine ih ?_ ?_ later
      · rw [units, settleInline, unknown.1 own]
        dsimp only
        split <;> rfl
      · rw [inlines, inlines_settleInline]
        split
        · refine (filter_addNew_of_not ?_ _).symm
          exact dropped
        · rfl
    · have kept : (i.doc != doc) = true := bne_iff_ne.2 own
      rw [List.filter_cons, if_pos kept]
      refine ih (units_settleInline_congr units i) ?_ later
      rw [inlines_settleInline, inlines_settleInline, inlinedMembers?_congr_units units,
        awaits_congr_units units, inlines]
      split
      · refine (Pending.filter_addNew ?_).symm
        exact kept
      · rfl

theorem placed_congr (units : c.units = s.units) (u : SourceUnit) (p : Pending) :
    (c.placed u p).units = (s.placed u p).units :=
  congrArg (·.insert u.doc.text u) units

namespace Relieved

variable (h : Relieved doc q s c)
include h

theorem typesIn_placed (hp : p.Tidy) (own : p.BelongsTo u.doc) (other : u.doc ≠ doc) (name : String) :
    (c.placed u p).pending.typesIn name =
      ((s.placed u p).pending.typesIn name).filter (·.doc != doc) := by
  have foreign : (p.typesIn name).filter (·.doc != doc) = p.typesIn name :=
    List.filter_eq_self.2 fun t ht => bne_iff_ne.2 (doc_of_mem_typesIn own ht ▸ other)
  rw [SymbolStore.typesIn_placed hp own, SymbolStore.typesIn_placed hp own, h.types, List.filter_append, foreign,
    List.filter_filter, List.filter_filter]
  simp only [Bool.and_comm]

theorem inlines_placed (own : p.BelongsTo u.doc) (other : u.doc ≠ doc) :
    (c.placed u p).pending.inlines = (s.placed u p).pending.inlines.filter (·.doc != doc) := by
  have foreign : (p.inlines.foldl Pending.addNew []).filter (·.doc != doc) = p.inlines.foldl Pending.addNew [] :=
    List.filter_eq_self.2 fun i hi => bne_iff_ne.2 (doc_of_mem_own own hi ▸ other)
  have queue : ∀ s : SymbolStore, (s.placed u p).pending.inlines = _ := fun s =>
    Pending.inlines_purge_append (p := s.pending) own
  rw [queue, queue, h.inlines, List.filter_append, foreign, List.filter_filter, List.filter_filter]
  simp only [Bool.and_comm]

/-- The types are bound alike, if those of the document have no homes. -/
theorem units_bindAll (hp : p.Tidy) (own : p.BelongsTo u.doc) (other : u.doc ≠ doc)
    (homeless : ∀ t ∈ s.pending.types, t.doc = doc → (s.placed u p).home? t = none) :
    ((c.placed u p).bindAll (c.placed u p).pending.types).units =
      ((s.placed u p).bindAll (s.placed u p).pending.types).units := by
  have units := placed_congr h.units u p
  have skeleton : (c.placed u p).skeleton = (s.placed u p).skeleton := skeleton_eq_of_units units
  have bound : ∀ (d name : String) (type : TypeRef),
      (c.placed u p).moduleAfter ((c.placed u p).pending.types.filter (·.isIn d name)) type =
        (s.placed u p).moduleAfter ((s.placed u p).pending.types.filter (·.isIn d name)) type := by
    intro d name type
    have tidy := tidy_placed h.tidy u p
    have tidy' := tidy_placed h.tidy' u p
    rw [moduleAfter_congr skeleton, tidy.filter_isIn ⟨d⟩, tidy'.filter_isIn ⟨d⟩,
      h.typesIn_placed hp own other, List.filter_filter]
    by_cases lib : (⟨d⟩ : DocId) = doc
    · rw [lib]
      have none : ((s.placed u p).pending.typesIn name).filter
          (fun t => t.doc == doc && t.doc != doc) = [] :=
        List.filter_eq_nil_iff.2 fun t _ => by simp
      rw [none, moduleAfter, moduleAfter_of_none]
      intro t ht
      obtain ⟨mem, isDoc⟩ := List.mem_filter.1 ht
      rw [SymbolStore.typesIn_placed hp own] at mem
      rcases List.mem_append.1 mem with before | new
      · exact homeless t (Pending.mem_types_iff.2 ⟨name, List.mem_of_mem_filter before⟩) (beq_iff_eq.1 isDoc)
      · exact absurd ((doc_of_mem_typesIn own new).symm.trans (beq_iff_eq.1 isDoc)) other
    · have same : ∀ t : PendingType, (t.doc == ⟨d⟩ && t.doc != doc) = (t.doc == ⟨d⟩) := by
        intro t
        by_cases there : t.doc = ⟨d⟩
        · rw [there, bne_iff_ne.2 lib, Bool.and_true]
        · rw [beq_false_of_ne there, Bool.false_and]
      simp only [same]
  have modules : ∀ d : String, (fun name (m : Module) => m.mapModule
        ((c.placed u p).moduleAfter ((c.placed u p).pending.types.filter (·.isIn d name)))) =
      fun name (m : Module) => m.mapModule
        ((s.placed u p).moduleAfter ((s.placed u p).pending.types.filter (·.isIn d name))) :=
    fun d => funext fun name => funext fun m => congrArg m.mapModule (funext (bound d name))
  rw [bindAll, bindAll, mapModules, mapModules]
  dsimp only
  rw [units]
  exact Table.mapEntries_congr fun d v _ => by rw [modules d]

/-- A registration that finds nothing for the document has the same effect on both. -/
theorem register (hp : p.Tidy) (own : p.BelongsTo u.doc) (other : u.doc ≠ doc)
    (waiting : (s.register u p).WaitsFor q) : Relieved doc q (s.register u p) (c.register u p) := by
  have skeleton : (s.register u p).skeleton = (s.placed u p).skeleton := skeleton_settle _
  have waits : (c.placed u p).waits = (s.placed u p).waits :=
    funext (waits_congr (skeleton_eq_of_units (placed_congr h.units u p)))
  have mine : ∀ t ∈ s.pending.types, t.doc = doc → (s.placed u p).home? t = none := by
    intro t ht isDoc
    rw [← home?_congr skeleton]
    exact (mem_types_of_register h.tidy hp own (isDoc ▸ other.symm) (waiting.types t (h.asked t ht isDoc))).2
  have unknown : ∀ i ∈ (s.placed u p).pending.inlines, i.doc = doc →
      (s.boundStore u p).inlinedMembers? i = none := by
    intro i hi isDoc
    have queue : (s.placed u p).pending.inlines = _ := Pending.inlines_purge_append own
    rw [queue] at hi
    rcases List.mem_append.1 hi with before | new
    · have still := waiting.inlines i (h.asked' i (List.mem_of_mem_filter before) isDoc)
      have found := isSome_inlinedMembers?_congr (s.skeleton_boundStore u p) i
      rw [(mem_inlines_of_register own (isDoc ▸ other.symm) still).2, Option.isSome_none,
        Option.isSome_eq_false_iff, Option.isNone_iff_eq_none] at found
      exact found
    · exact absurd ((doc_of_mem_own own new).symm.trans isDoc) other
  have both := foldl_settleInline_filter (s := s.boundStore u p) (c := c.boundStore u p)
    (s.placed u p).pending.inlines (h.units_bindAll hp own other mine) rfl unknown
  rw [← h.inlines_placed own other] at both
  obtain ⟨unitsS, inlinesS⟩ := units_register_eq s u p
  obtain ⟨unitsC, inlinesC⟩ := units_register_eq c u p
  refine ⟨?_, fun name => ?_, ?_, tidy_settle _, tidy_settle _, fun t ht isDoc => ?_, fun i hi isDoc => ?_⟩
  · rw [unitsC, unitsS, both.1]
  · rw [register_eq, register_eq, typesIn_settle (tidy_placed h.tidy u p),
      typesIn_settle (tidy_placed h.tidy' u p), h.typesIn_placed hp own other, waits, List.filter_filter,
      List.filter_filter]
    simp only [Bool.and_comm]
  · rw [inlinesC, inlinesS, both.2]
  · exact h.asked t (mem_types_of_register h.tidy hp own (isDoc ▸ other.symm) ht).1 isDoc
  · exact h.asked' i (mem_inlines_of_register own (isDoc ▸ other.symm) hi).1 isDoc

theorem delete {gone : DocId} : Relieved doc q (s.delete gone) (c.delete gone) where
  units := congrArg (·.erase gone.text) h.units
  types name := by
    show (c.pending.purge gone).typesIn name = ((s.pending.purge gone).typesIn name).filter _
    rw [Pending.typesIn_purge, Pending.typesIn_purge, h.types, List.filter_filter, List.filter_filter]
    simp only [Bool.and_comm]
  inlines := by
    show (c.pending.purge gone).inlines = (s.pending.purge gone).inlines.filter _
    rw [Pending.inlines_purge, Pending.inlines_purge, h.inlines, List.filter_filter, List.filter_filter]
    simp only [Bool.and_comm]
  tidy := h.tidy.purge gone
  tidy' := h.tidy'.purge gone
  asked t ht := by
    obtain ⟨name, mem⟩ := Pending.mem_types_iff.1 ht
    have purged : t ∈ (s.pending.purge gone).typesIn name := mem
    rw [Pending.typesIn_purge] at purged
    exact h.asked t (Pending.mem_types_iff.2 ⟨name, List.mem_of_mem_filter purged⟩)
  asked' i hi := by
    have purged : i ∈ (s.pending.purge gone).inlines := hi
    rw [Pending.inlines_purge] at purged
    exact h.asked' i (List.mem_of_mem_filter purged)

theorem rename {old new : DocId} (notOld : old ≠ doc) (notNew : new ≠ doc) :
    Relieved doc q (s.rename old new) (c.rename old new) := by
  have unit : c.unit? old = s.unit? old := congrArg (·.get? old.text) h.units
  cases there : s.unit? old with
  | none => simpa only [SymbolStore.rename, there, unit.trans there] using h
  | some u =>
    rw [rename_of_unit? there, rename_of_unit? (unit.trans there)]
    refine ⟨congrArg (fun t : Table SourceUnit => (t.erase old.text).insert new.text (u.setDoc new)) h.units,
      fun name => ?_, ?_, h.tidy.rename old new, h.tidy'.rename old new, fun t ht isDoc => ?_,
      fun i hi isDoc => ?_⟩
    · have mine : ∀ t : PendingType, (t.doc == old && t.doc != doc) = (t.doc == old) := fun t => by
        by_cases own : t.doc = old
        · rw [own, bne_iff_ne.2 notOld, Bool.and_true]
        · rw [beq_false_of_ne own, Bool.false_and]
      have moved : ∀ ts : List PendingType, (ts.map fun t => { t with doc := new }).filter (·.doc != doc) =
          ts.map fun t => { t with doc := new } := fun ts => List.filter_eq_self.2 fun t ht => by
        obtain ⟨v, -, rfl⟩ := List.mem_map.1 ht
        exact bne_iff_ne.2 notNew
      rw [Pending.typesIn_rename_eq_foldl h.tidy, Pending.typesIn_rename_eq_foldl h.tidy', h.types,
        Pending.filter_foldl_addNew, moved, List.filter_filter, List.filter_filter, List.filter_filter]
      simp only [mine, Bool.and_comm]
    · have kept : ((fun i => i.doc != doc) ∘ PendingInline.rename old new) =
          (·.doc != doc) := funext fun i => by
        by_cases own : i.doc = old
        · rw [Function.comp_apply, PendingInline.rename_of_eq own, own, bne_iff_ne.2 notOld, bne_iff_ne.2 notNew]
        · rw [Function.comp_apply, PendingInline.rename_of_ne own]
      rw [Pending.inlines_rename, Pending.inlines_rename, h.inlines, List.filter_map, kept]
    · obtain ⟨name, mem⟩ := Pending.mem_types_iff.1 ht
      rw [Pending.typesIn_rename_eq_foldl h.tidy, Pending.mem_foldl_addNew] at mem
      rcases mem with kept | moved
      · exact h.asked t (Pending.mem_types_iff.2 ⟨name, List.mem_of_mem_filter kept⟩) isDoc
      · obtain ⟨v, -, rfl⟩ := List.mem_map.1 moved
        exact absurd isDoc notNew
    · rw [Pending.inlines_rename] at hi
      obtain ⟨j, hj, rfl⟩ := List.mem_map.1 hi
      by_cases own : j.doc = old
      · rw [PendingInline.rename_of_eq own] at isDoc
        exact absurd isDoc notNew
      · rw [PendingInline.rename_of_ne own] at isDoc ⊢
        exact h.asked' j hj isDoc

end Relieved

end C3Lens.SymbolStore
