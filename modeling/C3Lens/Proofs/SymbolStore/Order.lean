import C3Lens.Proofs.Symbol.Inlining
import C3Lens.Proofs.SymbolStore.Modules
import C3Lens.Proofs.SymbolStore.Waiting

/-!
# Inline members and the order of registration

Documents whose structs have distinct names and do not inline themselves by way of others give each
struct the same names of members in every order, as far as nothing keeps waiting: the names are all
there can be exactly if no member of the struct waits for a registered struct that has members
(`inlinedNames_iff_settled`). In every order each struct is an inlining of the struct as it was
declared (`Follows`); a registration keeps that, since it hoists such inlinings into such.

What keeps waiting depends on the order (`names_of_chain`): a member that is hoisted while it waits
has no entry in the queue.
-/

namespace C3Lens

/-- The structs that units declare, by their names. -/
def structsOf (rs : List ReadUnit) : List (String × List Slot) :=
  rs.flatMap fun r => r.unit.modules.values.flatMap fun m => m.structs.entries.map fun e =>
    (e.1, e.2.slots)

/-- One of the units declares the struct. -/
def Declares (rs : List ReadUnit) (name : String) (slots : List Slot) : Prop :=
  (name, slots) ∈ structsOf rs

theorem declares_iff {rs : List ReadUnit} {name : String} {slots : List Slot} :
    Declares rs name slots ↔ ∃ r ∈ rs, ∃ m ∈ r.unit.modules.values, ∃ a,
      m.structs.get? name = some a ∧ a.slots = slots := by
  simp only [Declares, structsOf, List.mem_flatMap, List.mem_map, Prod.mk.injEq]
  constructor
  · rintro ⟨r, hr, m, hm, e, he, rfl, rfl⟩
    exact ⟨r, hr, m, hm, e.2, Table.mem_entries_iff.1 he, rfl⟩
  · rintro ⟨r, hr, m, hm, a, ha, rfl⟩
    exact ⟨r, hr, m, hm, (name, a), Table.mem_entries_iff.2 ha, rfl, rfl⟩

namespace SymbolStore

/-! ## Structs of a store -/

variable {s : SymbolStore} {decl : String → List Slot → Prop}

/-- Every struct of the module is an inlining of a declared one. -/
def Follows (decl : String → List Slot → Prop) (m : Module) : Prop :=
  ∀ name a, m.structs.get? name = some a → ∃ bs, decl name bs ∧ Inlined decl bs a.slots

theorem stable_follows (decl : String → List Slot → Prop) : Module.Stable (Follows decl) where
  mapModule := by
    intro m f h name a ha
    have mapped : (m.structs.map _).get? name = some a := ha
    rw [Table.get?_map] at mapped
    obtain ⟨b, hb, rfl⟩ := Option.map_eq_some_iff.1 mapped
    rw [Aggregate.slots_mapModule]
    exact h name b hb
  inherit := by
    intro home m structName typeName b hhome hm hb name a ha
    obtain ⟨bs, declared, inlined⟩ := hhome typeName b hb
    rw [Table.get?_modify] at ha
    split at ha
    · obtain ⟨c, hc, rfl⟩ := Option.map_eq_some_iff.1 ha
      obtain ⟨cs, known, inner⟩ := hm name c hc
      refine ⟨cs, known, ?_⟩
      rw [Aggregate.slots_inherit]
      exact inner.hoist declared inlined
    · exact hm name a ha

theorem follows_ofChanges {rs : List ReadUnit}
    (declared : ∀ name slots, Declares rs name slots → decl name slots) :
    (ofChanges (rs.map .register)).Every (Follows decl) := by
  induction rs using List.reverseRecOn with
  | nil => exact every_empty
  | append_singleton rs r ih =>
    have parts : structsOf (rs ++ [r]) = structsOf rs ++ structsOf [r] := List.flatMap_append
    simp only [Declares, parts, List.mem_append] at declared
    rw [List.map_append, List.map_singleton, ofChanges, List.foldl_concat]
    refine (ih fun name slots h => declared name slots (.inl h)).register (stable_follows decl) ?_ _
    intro m hm name a ha
    exact ⟨a.slots, declared name a.slots (.inr (declares_iff.2
      ⟨r, List.mem_singleton_self r, m, hm, a, ha, rfl⟩)), Inlined.refl _⟩

/-! ## Registered structs -/

variable {v : SourceUnit} {q : Pending} {i : PendingInline}

theorem isSome_host?_hoistAll (u : SourceUnit) (hoists : List (PendingInline × List Member))
    (i : PendingInline) : ((u.hoistAll hoists).host? i).isSome = (u.host? i).isSome := by
  induction hoists generalizing u with
  | nil => rfl
  | cons h hoists ih =>
    refine (ih (u.hoist h.1 h.2)).trans ?_
    rw [SourceUnit.host?_hoist]
    split
    · rw [Option.isSome_map]
    · rfl

/-- A registration neither adds nor drops structs. -/
theorem isSome_host?_register (s : SymbolStore) (v : SourceUnit) (q : Pending) (i : PendingInline) :
    ((s.register v q).host? i).isSome = ((s.placed v q).host? i).isSome := by
  obtain ⟨modules, hoists, after, -, -⟩ := unit?_register_expands s v q i.doc
  rw [host?, after, host?]
  cases (s.placed v q).unit? i.doc with
  | none => rfl
  | some u =>
    rw [Option.map_some, Option.bind_some, Option.bind_some, isSome_host?_hoistAll,
      SourceUnit.host?_mapModules, Option.isSome_map]

/-- All structs of documents with different ids are in the store. -/
theorem isSome_host?_ofChanges {rs : List ReadUnit} (ids : (rs.map (·.unit.doc)).Nodup) {r : ReadUnit}
    (hr : r ∈ rs) (doc : i.doc = r.unit.doc) (host : (r.unit.host? i).isSome = true) :
    ((ofChanges (rs.map .register)).host? i).isSome = true := by
  induction rs using List.reverseRecOn with
  | nil => cases hr
  | append_singleton rs k ih =>
    rw [List.map_append, List.nodup_append] at ids
    have last : ofChanges ((rs ++ [k]).map .register) =
        (ofChanges (rs.map .register)).register k.unit k.work := by
      rw [List.map_append, List.map_singleton, ofChanges, List.foldl_concat]
      rfl
    rw [last, isSome_host?_register, SymbolStore.host?, unit?_placed]
    rcases List.mem_append.1 hr with old | new
    · rw [if_neg]
      · exact ih ids.1 old
      · rw [doc]
        exact ids.2.2 _ (List.mem_map_of_mem old) _ (List.mem_singleton_self k.unit.doc)
    · cases List.mem_singleton.1 new
      rw [if_pos doc]
      exact host

/-! ## Any order -/

theorem declares_unique {rs : List ReadUnit} (distinct : ((structsOf rs).map Prod.fst).Nodup)
    (name : String) (bs cs : List Slot) (h : Declares rs name bs) (k : Declares rs name cs) : bs = cs :=
  congrArg Prod.snd (List.inj_on_of_nodup_map distinct h k rfl)

theorem finite_declares (rs : List ReadUnit) : {name | ∃ slots, Declares rs name slots}.Finite := by
  refine Set.Finite.subset ((structsOf rs).map Prod.fst).finite_toSet fun name declared => ?_
  obtain ⟨slots, declared⟩ := declared
  exact List.mem_map_of_mem (f := Prod.fst) declared

/-- Structs with distinct names that do not inline themselves by way of others have names of members
that depend on the declarations alone: the members of each struct, with those of the struct that an
inline member names behind it. However the documents are ordered, and the declarations among them,
every struct has just these names once all documents are registered, exactly if none of its members
still waits for a declared struct that has members. -/
theorem inlinedNames_iff_settled (rs : List ReadUnit) (distinct : ((structsOf rs).map Prod.fst).Nodup)
    (acyclic : ∀ name, ¬ Relation.TransGen (InlinesIn (Declares rs)) name name) :
    ∃ full : String → List String,
      (∀ name slots, Declares rs name slots →
        full name = slots.flatMap fun m => m.name :: if m.waits then full m.typeName else []) ∧
      (∀ name, (∀ slots, ¬ Declares rs name slots) → full name = []) ∧
      ∀ order : List ReadUnit, (order.map (·.unit.doc)).Nodup → (structsOf order).Perm (structsOf rs) →
        ∀ r ∈ order, ∀ i : PendingInline, i.doc = r.unit.doc → (r.unit.host? i).isSome = true →
          ∃ a, (ofChanges (order.map .register)).host? i = some a ∧
            (a.members.map (·.name) = full i.structName ↔
              ∀ m ∈ a.members, m.awaitsExpansion = true →
                ∀ slots, Declares rs m.type.name slots → slots = []) := by
  obtain ⟨full, equation, unknown, exact⟩ :=
    exists_inlinedNames (declares_unique distinct) (finite_declares rs) acyclic
  refine ⟨full, equation, unknown, fun order ids perm r hr i doc host => ?_⟩
  obtain ⟨a, there⟩ := Option.isSome_iff_exists.1 (isSome_host?_ofChanges ids hr doc host)
  have follows : (ofChanges (order.map .register)).Every (Follows (Declares rs)) :=
    follows_ofChanges fun name slots h => perm.mem_iff.1 h
  obtain ⟨u, unit, declared⟩ := Option.bind_eq_some_iff.1 there
  obtain ⟨m, module, struct⟩ := Option.bind_eq_some_iff.1 declared
  have registered : m ∈ (ofChanges (order.map .register)).modules :=
    mem_modules_iff.2 ⟨_, u, _, unit, module⟩
  obtain ⟨bs, known, inlined⟩ := follows m registered i.structName a struct
  refine ⟨a, there, ?_⟩
  have names : a.slots.map Slot.name = a.members.map (·.name) := List.map_map
  rw [← names, exact i.structName bs a.slots known inlined, Settled, Aggregate.slots,
    List.forall_mem_map]
  rfl

/-- A relation along which a number decreases has no cycles. -/
theorem not_transGen_of_rank {r : String → String → Prop} (rank : String → Nat)
    (less : ∀ a b, r a b → rank b < rank a) (a : String) : ¬ Relation.TransGen r a a := by
  have along : ∀ b, Relation.TransGen r a b → rank b < rank a := by
    intro b path
    induction path with
    | single step => exact less _ _ step
    | tail _ step ih => exact (less _ _ step).trans ih
  exact fun cycle => (along a cycle).ne rfl

set_option maxRecDepth 100000 in
/-- What is declared in the documents of `chain`, and what is left to do for `A` when they were registered
in the opposite order. -/
theorem structsOf_chain : structsOf chain =
      [("A", [⟨"", "B", true⟩, ⟨"a", "int", false⟩]), ("B", [⟨"", "C", true⟩, ⟨"b", "int", false⟩]),
        ("C", [⟨"c", "int", false⟩])] ∧
    (chain[0].unit.host? ⟨⟨"file:///a.c3"⟩, "app", "A", "B"⟩).isSome = true ∧
    ((ofChanges (chain.reverse.map .register)).host? ⟨⟨"file:///a.c3"⟩, "app", "A", "B"⟩).all
      (·.members.all fun m => !m.awaitsExpansion) = true := by
  decide +kernel

/-- Registered in the opposite order, `A` has the members of all three structs. -/
theorem inlinedNames_reverse_chain :
    ((ofChanges (chain.reverse.map .register)).host? ⟨⟨"file:///a.c3"⟩, "app", "A", "B"⟩).map
      (·.members.map (·.name)) = some ["", "", "c", "b", "a"] := by
  obtain ⟨structs, host, settled⟩ := structsOf_chain
  have distinct : ((structsOf chain).map Prod.fst).Nodup := by
    rw [structs]
    decide
  have acyclic : ∀ name, ¬ Relation.TransGen (InlinesIn (Declares chain)) name name := by
    refine not_transGen_of_rank (fun name => if name = "A" then 2 else if name = "B" then 1 else 0) ?_
    rintro a b ⟨slots, declared, m, hm, waits, rfl⟩
    rw [Declares, structs] at declared
    simp only [List.mem_cons, Prod.mk.injEq, List.not_mem_nil, or_false] at declared
    rcases declared with ⟨rfl, rfl⟩ | ⟨rfl, rfl⟩ | ⟨rfl, rfl⟩ <;>
      simp only [List.mem_cons, List.not_mem_nil, or_false] at hm
    · rcases hm with rfl | rfl
      · decide
      · cases waits
    · rcases hm with rfl | rfl
      · decide
      · cases waits
    · cases hm
      cases waits
  obtain ⟨full, equation, unknown, exact⟩ := inlinedNames_iff_settled chain distinct acyclic
  have ids : (chain.reverse.map (·.unit.doc)).Nodup := by
    simp [chain]
  have perm : (structsOf chain.reverse).Perm (structsOf chain) := chain.reverse_perm.flatMap_right _
  have doc : (⟨"file:///a.c3"⟩ : DocId) = chain[0].unit.doc := (ReadUnit.doc_ofText _ _).symm
  obtain ⟨a, there, names⟩ := exact chain.reverse ids perm chain[0]
    (List.mem_reverse.2 (List.getElem_mem _)) _ doc host
  rw [there, Option.all_some, List.all_eq_true] at settled
  have full_a : full "A" = ["", "", "c", "b", "a"] := by
    have declares := fun name slots (h : (name, slots) ∈ structsOf chain) => equation name slots h
    simp only [structs, List.mem_cons, Prod.mk.injEq, List.not_mem_nil, or_false] at declares
    rw [declares "A" _ (.inl ⟨rfl, rfl⟩)]
    simp only [List.flatMap_cons, List.flatMap_nil, if_true]
    rw [declares "B" _ (.inr (.inl ⟨rfl, rfl⟩))]
    simp only [List.flatMap_cons, List.flatMap_nil, if_true]
    rw [declares "C" _ (.inr (.inr ⟨rfl, rfl⟩))]
    rfl
  rw [there, Option.map_some, names.2, full_a]
  intro m hm waits
  have := settled m hm
  rw [waits] at this
  cases this

set_option maxRecDepth 100000 in
/-- The members of `A` after the documents of `chain` were registered in this order and in the
opposite one. -/
theorem names_of_chain :
    let i : PendingInline := ⟨⟨"file:///a.c3"⟩, "app", "A", "B"⟩
    ((ofChanges (chain.map .register)).host? i).map (·.members.map (·.name)) =
        some ["", "", "b", "a"] ∧
      ((ofChanges (chain.reverse.map .register)).host? i).map (·.members.map (·.name)) =
        some ["", "", "c", "b", "a"] := by
  decide +kernel

end SymbolStore

end C3Lens
