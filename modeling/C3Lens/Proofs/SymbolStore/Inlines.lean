import Mathlib.Data.List.Forall2
import C3Lens.Proofs.Symbol.Hoisting
import C3Lens.Proofs.SymbolStore.Settle

/-!
# The queue of inline members

An inline member that was not expanded keeps waiting: the inlined struct is still unknown after
others were expanded, and its own struct still asks for it (`Idle`). Going through such a queue
again changes nothing (`foldl_settleInline_of_idle`).

The members found for an inline member are those of one struct, which later expansions may give
further members but never take away (`HoistsTo.inlinedMembers?`). A queue of inline members changes
the unit of a document by the expansions of its own inline members, as far as there are members for
them, in their order (`unit?_foldl_settleInline_eq`).
-/

namespace C3Lens

namespace SymbolStore

/-! ## One inline member -/

theorem awaits_iff {s : SymbolStore} {i : PendingInline} :
    s.awaits i = true ↔ ∃ u, s.unit? i.doc = some u ∧ u.Asks i := by
  have awaits : s.awaits i = ((s.unit? i.doc).bind fun u => (u.host? i).map fun a =>
      a.awaitedTypes.contains i.inlined).getD false := by
    rw [SymbolStore.awaits]
    cases s.unit? i.doc with
    | none => rfl
    | some u =>
      show ((u.modules.get? i.moduleName).bind _).getD false = ((u.host? i).map _).getD false
      rw [SourceUnit.host?]
      cases u.modules.get? i.moduleName with
      | none => rfl
      | some m =>
        show ((m.structs.get? i.structName).bind _).getD false = ((m.structs.get? i.structName).map _).getD _
        cases m.structs.get? i.structName <;> rfl
  rw [awaits]
  cases s.unit? i.doc with
  | none => simp
  | some u =>
    cases host : u.host? i with
    | none => simp [SourceUnit.Asks, host]
    | some a => simp [SourceUnit.Asks, host]

/-- What the expansion of an inline member does to the units. -/
theorem unit?_settleInline (s : SymbolStore) (i : PendingInline) (doc : DocId) :
    (s.settleInline i).unit? doc =
      if doc = i.doc then (s.unit? doc).map fun u => ((s.inlinedMembers? i).map (u.hoist i)).getD u
      else s.unit? doc := by
  rw [settleInline]
  cases s.inlinedMembers? i with
  | none =>
    show (if s.awaits i then { s with pending := s.pending.addInline i } else s).unit? doc = _
    simp only [Option.map_none, Option.getD_none, Option.map_id', ite_self]
    split <;> rfl
  | some members =>
    show (s.units.modify i.doc.text (·.hoist i members)).get? doc.text = _
    rw [Table.get?_modify]
    simp only [DocId.text_inj]
    rfl

/-- Expanding one inline member leaves all others waiting. -/
theorem awaits_settleInline {s : SymbolStore} {i : PendingInline} (h : s.awaits i = true)
    (unknown : s.inlinedMembers? i = none) (j : PendingInline) : (s.settleInline j).awaits i = true := by
  obtain ⟨u, hu, asks⟩ := awaits_iff.1 h
  rw [awaits_iff, unit?_settleInline, hu]
  split
  next doc =>
    cases found : s.inlinedMembers? j with
    | none => exact ⟨u, rfl, asks⟩
    | some members =>
      refine ⟨_, rfl, asks.hoist (fun same => ?_) members⟩
      have eq : i = j := by
        obtain ⟨_, _, _, _⟩ := i
        obtain ⟨_, _, _, _⟩ := j
        obtain ⟨rfl, rfl, rfl⟩ := same
        cases doc
        rfl
      rw [← eq, unknown] at found
      cases found
  next => exact ⟨u, rfl, asks⟩

/-! ## Idle queues -/

/-- What waits in the queue waits rightly: there are no members for it, and its struct still asks
for them. -/
structure Idle (s : SymbolStore) : Prop where
  nodup : s.pending.inlines.Nodup
  unknown : ∀ i ∈ s.pending.inlines, s.inlinedMembers? i = none
  awaits : ∀ i ∈ s.pending.inlines, s.awaits i = true

theorem Idle.of_nil {s : SymbolStore} (h : s.pending.inlines = []) : s.Idle := by
  refine ⟨?_, fun i hi => ?_, fun i hi => ?_⟩
  · rw [h]
    exact List.nodup_nil
  · rw [h] at hi
    cases hi
  · rw [h] at hi
    cases hi

theorem inlinedMembers?_settleInline_eq_none {s : SymbolStore} (i j : PendingInline) :
    (s.settleInline j).inlinedMembers? i = none ↔ s.inlinedMembers? i = none := by
  have known := isSome_inlinedMembers?_congr (hoistsTo_settleInline s j).skeleton_eq i
  rw [← Option.isNone_iff_eq_none, ← Option.isNone_iff_eq_none, ← Option.not_isSome, known,
    Option.not_isSome]

theorem inlines_settleInline (s : SymbolStore) (j : PendingInline) :
    (s.settleInline j).pending.inlines =
      if s.inlinedMembers? j = none ∧ s.awaits j = true then Pending.addNew s.pending.inlines j
      else s.pending.inlines := by
  rw [settleInline]
  cases s.inlinedMembers? j with
  | some members => rfl
  | none =>
    show (if s.awaits j then { s with pending := s.pending.addInline j } else s).pending.inlines = _
    simp only [true_and]
    split <;> rfl

theorem Idle.settleInline {s : SymbolStore} (h : s.Idle) (j : PendingInline) :
    (s.settleInline j).Idle := by
  have mem : ∀ i ∈ (s.settleInline j).pending.inlines,
      s.inlinedMembers? i = none ∧ s.awaits i = true := by
    intro i hi
    rw [inlines_settleInline] at hi
    split at hi
    next idle =>
      rcases Pending.mem_addNew.1 hi with hi | rfl
      · exact ⟨h.unknown i hi, h.awaits i hi⟩
      · exact idle
    next => exact ⟨h.unknown i hi, h.awaits i hi⟩
  refine ⟨?_, fun i hi => ?_, fun i hi => ?_⟩
  · rw [inlines_settleInline]
    split
    · exact Pending.nodup_addNew h.nodup j
    · exact h.nodup
  · exact (inlinedMembers?_settleInline_eq_none i j).2 (mem i hi).1
  · exact awaits_settleInline (mem i hi).2 (mem i hi).1 j

theorem Idle.foldl_settleInline {s : SymbolStore} (h : s.Idle) (is : List PendingInline) :
    (is.foldl SymbolStore.settleInline s).Idle := by
  induction is generalizing s with
  | nil => exact h
  | cons i is ih => exact ih (h.settleInline i)

/-- Going through an idle queue again puts everything back where it was. -/
theorem foldl_settleInline_of_idle {s : SymbolStore} {is : List PendingInline}
    (nodup : (s.pending.inlines ++ is).Nodup) (unknown : ∀ i ∈ is, s.inlinedMembers? i = none)
    (awaits : ∀ i ∈ is, s.awaits i = true) :
    is.foldl SymbolStore.settleInline s =
      { s with pending := { s.pending with inlines := s.pending.inlines ++ is } } := by
  induction is generalizing s with
  | nil => rw [List.foldl_nil, List.append_nil]
  | cons i is ih =>
    have new : i ∉ s.pending.inlines := fun hi =>
      (List.nodup_append.1 nodup).2.2 i hi i List.mem_cons_self rfl
    have one : s.settleInline i =
        { s with pending := { s.pending with inlines := s.pending.inlines ++ [i] } } := by
      rw [SymbolStore.settleInline, unknown i List.mem_cons_self, awaits i List.mem_cons_self,
        Pending.addInline, Pending.addNew_of_notMem new]
      rfl
    rw [List.foldl_cons, one, ih]
    · simp only [List.append_assoc, List.singleton_append]
    · rwa [List.append_assoc, List.singleton_append]
    · exact fun j hj => unknown j (List.mem_cons_of_mem _ hj)
    · exact fun j hj => awaits j (List.mem_cons_of_mem _ hj)

/-- An idle queue may be gone through before other inline members. -/
theorem Idle.expandAll_append {s t : SymbolStore} (idle : s.Idle) (units : t.units = s.units)
    (is : List PendingInline) :
    (t.expandAll (s.pending.inlines ++ is)).units = (is.foldl SymbolStore.settleInline s).units ∧
      (t.expandAll (s.pending.inlines ++ is)).pending.inlines =
        (is.foldl SymbolStore.settleInline s).pending.inlines := by
  have nodup : ([] ++ s.pending.inlines).Nodup := idle.nodup
  have pass := @foldl_settleInline_of_idle ⟨s.units, ⟨t.pending.groups, []⟩⟩ _ nodup idle.unknown
    idle.awaits
  have rest := foldl_settleInline_groups is s t.pending.groups
  have all : t.expandAll (s.pending.inlines ++ is) = is.foldl SymbolStore.settleInline
      ⟨s.units, ⟨t.pending.groups, s.pending.inlines⟩⟩ := by
    rw [expandAll, List.foldl_append, units, pass, List.nil_append]
  rw [all, rest]
  exact ⟨rfl, rfl⟩

/-- The work of one document does not count for another one. -/
theorem filter_inlines_foldl_settleInline {is : List PendingInline} {p : PendingInline → Bool}
    (h : ∀ i ∈ is, p i = false) (s : SymbolStore) :
    (is.foldl SymbolStore.settleInline s).pending.inlines.filter p = s.pending.inlines.filter p := by
  induction is generalizing s with
  | nil => rfl
  | cons i is ih =>
    rw [List.foldl_cons, ih (fun j hj => h j (List.mem_cons_of_mem _ hj)), inlines_settleInline]
    split
    · rw [Pending.addNew]
      split
      · rfl
      · rw [List.filter_append, List.filter_singleton, h i List.mem_cons_self]
        exact List.append_nil _
    · rfl

theorem mem_inlines_foldl_settleInline {is : List PendingInline} {s : SymbolStore} {i : PendingInline}
    (h : i ∈ (is.foldl SymbolStore.settleInline s).pending.inlines) :
    i ∈ s.pending.inlines ∨ i ∈ is := by
  induction is generalizing s with
  | nil => exact .inl h
  | cons j is ih =>
    rcases ih h with h | h
    · rw [inlines_settleInline] at h
      split at h
      · rcases Pending.mem_addNew.1 h with h | rfl
        · exact .inl h
        · exact .inr List.mem_cons_self
      · exact .inl h
    · exact .inr (List.mem_cons_of_mem _ h)

end SymbolStore

end C3Lens

/-! ## Members that are found -/

namespace C3Lens.SymbolStore

/-! ## Structs that are found -/

theorem HoistsTo.modules {s s' : SymbolStore} (h : s.HoistsTo s') :
    List.Forall₂ Module.HoistsTo s.modules s'.modules := by
  obtain ⟨f, units, hoists⟩ := h
  have values : ∀ (doc : String) (es : List (String × Module)), List.Forall₂ Module.HoistsTo
      (es.map Prod.snd) ((es.map fun e => (e.1, f doc e.1 e.2)).map Prod.snd) := by
    intro doc es
    rw [List.map_map, List.forall₂_map_left_iff, List.forall₂_map_right_iff, List.forall₂_same]
    exact fun e _ => hoists doc e.1 e.2
  rw [SymbolStore.modules, SymbolStore.modules, units]
  show List.Forall₂ _ ((s.units.entries.map Prod.snd).flatMap _)
    (((s.units.entries.map _).map Prod.snd).flatMap _)
  generalize s.units.entries = es
  induction es with
  | nil => exact .nil
  | cons e es ih => exact List.rel_append (values e.1 e.2.modules.entries) ih

theorem findSome?_struct_hoistsTo {ms ns : List Module} (h : List.Forall₂ Module.HoistsTo ms ns)
    (name : String) :
    Option.Rel Aggregate.HoistsTo (ms.findSome? (·.structs.get? name))
      (ns.findSome? (·.structs.get? name)) := by
  induction h with
  | nil => exact .none
  | @cons m n ms ns hoists _ ih =>
    rw [List.findSome?_cons, List.findSome?_cons]
    cases ha : m.structs.get? name with
    | none =>
      have absent : n.structs.get? name = none := by
        rw [Table.get?_eq_none_iff, hoists.names, ← Table.get?_eq_none_iff]
        exact ha
      rw [absent]
      exact ih
    | some a =>
      obtain ⟨b, hb, hab⟩ := hoists.struct_of_get? ha
      rw [hb]
      exact .some hab

theorem HoistsTo.inlinedStruct? {s s' : SymbolStore} (h : s.HoistsTo s') (i : PendingInline) :
    Option.Rel Aggregate.HoistsTo (s.inlinedStruct? i) (s'.inlinedStruct? i) := by
  have named : List.Forall₂ Module.HoistsTo (s.modulesNamed i.moduleName)
      (s'.modulesNamed i.moduleName) := by
    refine List.rel_filter (fun m n hoists => ?_) h.modules
    have name : n.name = m.name := by rw [hoists.rest]
    show (m.name == _) = true ↔ (n.name == _) = true
    rw [name]
  have own := findSome?_struct_hoistsTo named i.inlined
  have all := findSome?_struct_hoistsTo h.modules i.inlined
  rw [SymbolStore.inlinedStruct?, SymbolStore.inlinedStruct?]
  revert own
  cases (s.modulesNamed i.moduleName).findSome? (·.structs.get? i.inlined) <;>
    cases (s'.modulesNamed i.moduleName).findSome? (·.structs.get? i.inlined) <;> intro own
  · exact all
  · cases own
  · cases own
  · exact own

/-- What is found stays found: the same members, or more of them, which is seen at an expanded
one. -/
theorem HoistsTo.inlinedMembers? {s s' : SymbolStore} (h : s.HoistsTo s') {i : PendingInline}
    {members : List Member} (found : s.inlinedMembers? i = some members) :
    ∃ more, s'.inlinedMembers? i = some more ∧ (more = members ∨ ∃ m ∈ more, m.isExpanded = true) := by
  have structs := h.inlinedStruct? i
  rw [SymbolStore.inlinedMembers?] at found ⊢
  revert structs
  cases ha : s.inlinedStruct? i with
  | none =>
    rw [ha] at found
    cases found
  | some a =>
    rw [ha] at found
    cases hb : s'.inlinedStruct? i with
    | none =>
      intro structs
      cases structs
    | some b =>
      rintro (⟨hoists⟩ | _)
      have name : b.name = a.name := by rw [hoists.rest]
      have doc : b.doc = a.doc := by rw [hoists.rest]
      have shown : (if a.name == i.structName && a.doc == i.doc then none else some a.members) =
        some members := found
      show ∃ more, (if b.name == i.structName && b.doc == i.doc then none else some b.members) =
        some more ∧ _
      rw [name, doc]
      split at shown
      · cases shown
      next other =>
        cases shown
        rw [if_neg other]
        exact ⟨_, rfl, hoists.expanded⟩

/-! ## The queue of a document -/

/-- The inline members of a document that are expanded, in their order, each with the members that
are found for it when its turn comes. -/
theorem unit?_foldl_settleInline_turns (is : List PendingInline) (s : SymbolStore) (doc : DocId) :
    ∃ hoists : List (PendingInline × List Member),
      (is.foldl settleInline s).unit? doc = (s.unit? doc).map (·.hoistAll hoists) ∧
      hoists.map Prod.fst = is.filter (fun i => i.doc == doc && (s.inlinedMembers? i).isSome) ∧
      ∀ h ∈ hoists, ∃ before after, is = before ++ h.1 :: after ∧
        (before.foldl settleInline s).inlinedMembers? h.1 = some h.2 := by
  induction is generalizing s with
  | nil => exact ⟨[], Option.map_id'.symm, rfl, fun h hh => absurd hh List.not_mem_nil⟩
  | cons i is ih =>
    obtain ⟨hoists, unit, queue, turns⟩ := ih (s.settleInline i)
    have known : ∀ j, ((s.settleInline i).inlinedMembers? j).isSome = (s.inlinedMembers? j).isSome :=
      isSome_inlinedMembers?_congr (hoistsTo_settleInline s i).skeleton_eq
    have later : ∀ h ∈ hoists, ∃ before after, i :: is = before ++ h.1 :: after ∧
        (before.foldl settleInline s).inlinedMembers? h.1 = some h.2 := by
      intro h hh
      obtain ⟨before, after, rfl, found⟩ := turns h hh
      exact ⟨i :: before, after, rfl, found⟩
    simp only [known] at queue
    rw [unit?_settleInline] at unit
    rw [List.foldl_cons, List.filter_cons]
    by_cases here : doc = i.doc
    · cases found : s.inlinedMembers? i with
      | none =>
        refine ⟨hoists, ?_, ?_, later⟩
        · rw [unit, if_pos here, found]
          simp only [Option.map_none, Option.getD_none, Option.map_id']
        · rw [queue]
          simp
      | some new =>
        refine ⟨(i, new) :: hoists, ?_, ?_, ?_⟩
        · rw [unit, if_pos here, found, Option.map_map]
          rfl
        · rw [List.map_cons, queue, here]
          simp
        · intro h hh
          rcases List.mem_cons.1 hh with rfl | hh
          · exact ⟨[], is, rfl, found⟩
          · exact later h hh
    · refine ⟨hoists, ?_, ?_, later⟩
      · rw [unit, if_neg here]
      · rw [queue, beq_eq_false_iff_ne.2 fun same => here same.symm]
        simp

/-- The same, with what is still found for each of them at the end of the queue. -/
theorem unit?_foldl_settleInline_eq (is : List PendingInline) (s : SymbolStore) (doc : DocId) :
    ∃ hoists : List (PendingInline × List Member),
      (is.foldl settleInline s).unit? doc = (s.unit? doc).map (·.hoistAll hoists) ∧
      hoists.map Prod.fst = is.filter (fun i => i.doc == doc && (s.inlinedMembers? i).isSome) ∧
      ∀ h ∈ hoists, ∃ members, (is.foldl settleInline s).inlinedMembers? h.1 = some members ∧
        (members = h.2 ∨ ∃ m ∈ members, m.isExpanded = true) := by
  obtain ⟨hoists, unit, queue, turns⟩ := unit?_foldl_settleInline_turns is s doc
  refine ⟨hoists, unit, queue, fun h hh => ?_⟩
  obtain ⟨before, after, rfl, found⟩ := turns h hh
  rw [List.foldl_append]
  exact (hoistsTo_foldl_settleInline (h.1 :: after) _).inlinedMembers? found

end C3Lens.SymbolStore
