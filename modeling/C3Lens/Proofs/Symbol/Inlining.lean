import Mathlib.Data.Set.Finite.Basic
import Mathlib.Logic.Relation
import Mathlib.Order.WellFoundedSet
import C3Lens.Proofs.Symbol.Hoisting

/-!
# Inlining in any order

For the names of the members of a struct, only the names of members and of their types count, and
which of the members wait (`Slot`). The members that expansions leave a struct with, in whatever
order they were made, are an inlining of the members it was written with (`Inlined`), and go on
being one when an inlining of another struct is hoisted into them (`Inlined.hoist`). There are
inlinings in which nothing waits for a struct if no struct inlines itself by way of others
(`exists_complete`), and no other has their names unless what waits in it has no members
(`Inlined.names_eq_iff`). So the names of an inlining are all the names there can be exactly if
nothing in it waits for a struct that has members (`exists_inlinedNames`).
-/

namespace C3Lens

/-- What counts for the expansion of a member. -/
structure Slot where
  name : String
  typeName : String
  waits : Bool
deriving DecidableEq

/-- The member as far as expansions see it. -/
def Member.slot (m : Member) : Slot :=
  ⟨m.name, m.type.name, m.awaitsExpansion⟩

/-- The members of a struct as far as expansions see them. -/
def Aggregate.slots (a : Struct) : List Slot :=
  a.members.map Member.slot

namespace Slot

/-- The member when it is expanded. -/
def done (m : Slot) : Slot :=
  { m with waits := false }

/-- Whether the member waits for the type. -/
def waitsFor (m : Slot) (typeName : String) : Bool :=
  m.waits && m.typeName == typeName

/-- Puts members behind the first one that waits for them. -/
def hoist (typeName : String) (inherited : List Slot) : List Slot → List Slot
  | [] => []
  | m :: ms =>
    if m.waitsFor typeName then m.done :: (inherited ++ ms) else m :: hoist typeName inherited ms

theorem hoist_append (typeName : String) (inherited ms ns : List Slot) :
    hoist typeName inherited (ms ++ ns) =
      if ms.any (·.waitsFor typeName) then hoist typeName inherited ms ++ ns
      else ms ++ hoist typeName inherited ns := by
  induction ms with
  | nil => rfl
  | cons m ms ih =>
    rw [List.cons_append, hoist, List.any_cons, hoist]
    cases m.waitsFor typeName with
    | true => simp only [if_true, Bool.true_or, List.cons_append, List.append_assoc]
    | false =>
      rw [Bool.false_or, ih]
      simp only [Bool.false_eq_true, if_false]
      split <;> rfl

end Slot

theorem Aggregate.slots_inherit (a : Struct) (typeName : String) (inherited : List Member) :
    (a.inherit typeName inherited).slots =
      Slot.hoist typeName (inherited.map Member.slot) a.slots := by
  rw [inherit_eq, slots, slots]
  dsimp only
  induction a.members with
  | nil => rfl
  | cons m members ih =>
    have waits : m.slot.waitsFor typeName = waitsFor m typeName := rfl
    rw [hoistInto_cons, List.map_cons, Slot.hoist, waits]
    split
    · rw [List.map_cons, List.map_append, List.map_map]
      rfl
    · rw [List.map_cons, ih]

theorem Aggregate.slots_mapModule (a : Struct) (f : TypeRef → String) :
    (a.mapModule f).slots = a.slots := by
  have same : ∀ m : Member, (m.mapModule f).slot = m.slot := by
    rintro ⟨_, _, _, _, _, _, _⟩
    rw [Member.mapModule, Member.slot, TypeRef.mapModule_name, Member.slot]
  rw [slots, mapModule, List.map_map, slots]
  exact List.map_congr_left fun m _ => same m

section

variable {decl : String → List Slot → Prop}

/-! ## Inlinings -/

/-- `ns` are the members `ms`, with an inlining of the struct that it waits for behind some of those
that wait; `decl` tells the structs by their names. -/
inductive Inlined (decl : String → List Slot → Prop) : List Slot → List Slot → Prop where
  | nil : Inlined decl [] []
  | keep {m : Slot} {ms ns : List Slot} : Inlined decl ms ns → Inlined decl (m :: ms) (m :: ns)
  | expand {m : Slot} {ms ns bs cs : List Slot} : m.waits = true → decl m.typeName bs →
      Inlined decl bs cs → Inlined decl ms ns → Inlined decl (m :: ms) (m.done :: (cs ++ ns))

/-- No member waits for a struct that there is. -/
def Complete (decl : String → List Slot → Prop) (ms : List Slot) : Prop :=
  ∀ m ∈ ms, m.waits = true → ∀ bs, ¬ decl m.typeName bs

theorem Inlined.refl (ms : List Slot) : Inlined decl ms ms := by
  induction ms with
  | nil => exact .nil
  | cons m ms ih => exact .keep ih

/-- To hoist an inlining into an inlining is to inline. -/
theorem Inlined.hoist {ms ns bs cs : List Slot} (h : Inlined decl ms ns) {typeName : String}
    (declared : decl typeName bs) (inlined : Inlined decl bs cs) :
    Inlined decl ms (Slot.hoist typeName cs ns) := by
  induction h with
  | nil => exact .nil
  | @keep m ms ns rest ih =>
    rw [Slot.hoist]
    split
    next waiting =>
      rw [Slot.waitsFor, Bool.and_eq_true, beq_iff_eq] at waiting
      exact .expand waiting.1 (waiting.2 ▸ declared) inlined rest
    next => exact .keep ih
  | @expand m ms ns ds es waits known inner rest innerIh ih =>
    -- The member is expanded; what waits first is among its own inlining or behind it.
    have here : m.done.waitsFor typeName = false := rfl
    rw [Slot.hoist, here, if_neg Bool.false_ne_true, Slot.hoist_append]
    split
    · exact .expand waits known innerIh rest
    · exact .expand waits known inner ih

theorem complete_cons {m : Slot} {ms : List Slot} :
    Complete decl (m :: ms) ↔ (m.waits = true → ∀ bs, ¬ decl m.typeName bs) ∧ Complete decl ms :=
  List.forall_mem_cons

theorem complete_done {m : Slot} {ms ns : List Slot} :
    Complete decl (m.done :: (ms ++ ns)) ↔ Complete decl ms ∧ Complete decl ns := by
  rw [complete_cons, Complete, List.forall_mem_append]
  exact and_iff_right (fun waits => nomatch waits)

/-! ## What there is to inline -/

/-- The struct `a` has a member that inlines the struct `b`. -/
def InlinesIn (decl : String → List Slot → Prop) (a b : String) : Prop :=
  ∃ bs, decl a bs ∧ ∃ m ∈ bs, m.waits = true ∧ m.typeName = b

theorem exists_complete_of_each {ms : List Slot}
    (each : ∀ m ∈ ms, m.waits = true → ∀ bs, decl m.typeName bs →
      ∃ cs, Inlined decl bs cs ∧ Complete decl cs) :
    ∃ ns, Inlined decl ms ns ∧ Complete decl ns := by
  induction ms with
  | nil => exact ⟨[], .nil, fun m hm => absurd hm List.not_mem_nil⟩
  | cons m ms ih =>
    obtain ⟨ns, rest, complete⟩ := ih fun k hk => each k (List.mem_cons_of_mem _ hk)
    by_cases there : m.waits = true ∧ ∃ bs, decl m.typeName bs
    · obtain ⟨waits, bs, declared⟩ := there
      obtain ⟨cs, inlined, inner⟩ := each m List.mem_cons_self waits bs declared
      exact ⟨_, .expand waits declared inlined rest, complete_done.2 ⟨inner, complete⟩⟩
    · exact ⟨_, .keep rest, complete_cons.2 ⟨fun waits bs declared => there ⟨waits, bs, declared⟩, complete⟩⟩

/-- Where no struct inlines itself by way of others, all of them can be inlined completely. -/
theorem exists_complete (finite : {a | ∃ bs, decl a bs}.Finite)
    (acyclic : ∀ a, ¬ Relation.TransGen (InlinesIn decl) a a) {a : String} {bs : List Slot}
    (declared : decl a bs) : ∃ ns, Inlined decl bs ns ∧ Complete decl ns := by
  let inner : String → String → Prop := fun b a => Relation.TransGen (InlinesIn decl) a b
  have order : IsStrictOrder String inner :=
    { irrefl := acyclic, trans := fun _ _ _ h k => k.trans h }
  have founded : {a | ∃ bs, decl a bs}.WellFoundedOn inner := finite.wellFoundedOn
  let P : String → Prop := fun a => ∀ bs, decl a bs → ∃ ns, Inlined decl bs ns ∧ Complete decl ns
  have all : P a := by
    refine founded.induction (P := P) ⟨bs, declared⟩ fun a _ ih bs declared => ?_
    refine exists_complete_of_each fun m hm waits cs inlined => ?_
    exact ih m.typeName ⟨cs, inlined⟩ (.single ⟨bs, declared, m, hm, waits, rfl⟩) cs inlined
  exact all bs declared

/-! ## Names -/

/-- Nothing that waits could bring a member. -/
def Settled (decl : String → List Slot → Prop) (ms : List Slot) : Prop :=
  ∀ m ∈ ms, m.waits = true → ∀ bs, decl m.typeName bs → bs = []

theorem settled_cons {m : Slot} {ms : List Slot} :
    Settled decl (m :: ms) ↔
      (m.waits = true → ∀ bs, decl m.typeName bs → bs = []) ∧ Settled decl ms :=
  List.forall_mem_cons

theorem settled_done {m : Slot} {ms ns : List Slot} :
    Settled decl (m.done :: (ms ++ ns)) ↔ Settled decl ms ∧ Settled decl ns := by
  rw [settled_cons, Settled, List.forall_mem_append]
  exact and_iff_right (fun waits => nomatch waits)

theorem Inlined.eq_nil_iff {ms ns : List Slot} (h : Inlined decl ms ns) : ns = [] ↔ ms = [] := by
  cases h with
  | nil => rfl
  | keep => exact ⟨nofun, nofun⟩
  | expand => exact ⟨nofun, nofun⟩

section Functional

variable (functional : ∀ a bs cs, decl a bs → decl a cs → bs = cs)
include functional

/-- No inlining has more members than a complete one, and it has as many exactly if it is settled;
then the names are the same. -/
theorem Inlined.length_le {ms ns full : List Slot} (h : Inlined decl ms ns)
    (most : Inlined decl ms full) (complete : Complete decl full) :
    ns.length ≤ full.length ∧ (full.length ≤ ns.length → Settled decl ns) ∧
      (Settled decl ns → ns.map Slot.name = full.map Slot.name) := by
  induction h generalizing full with
  | nil =>
    cases most
    exact ⟨le_rfl, fun _ m hm => absurd hm List.not_mem_nil, fun _ => rfl⟩
  | @keep m ms ns rest ih =>
    cases most with
    | keep tail =>
      obtain ⟨le, settled, names⟩ := ih tail (complete_cons.1 complete).2
      refine ⟨Nat.succ_le_succ le, fun ge => settled_cons.2 ⟨fun waits bs declared => ?_, ?_⟩, fun all => ?_⟩
      · exact absurd declared ((complete_cons.1 complete).1 waits bs)
      · exact settled (Nat.le_of_succ_le_succ ge)
      · rw [List.map_cons, List.map_cons, names (settled_cons.1 all).2]
    | @expand _ _ tail bs cs waits declared inlined rest' =>
      obtain ⟨le, settled, names⟩ := ih rest' (complete_done.1 complete).2
      simp only [List.length_cons, List.length_append]
      refine ⟨by omega, fun ge => settled_cons.2 ⟨fun _ ds known => ?_, settled (by omega)⟩, fun all => ?_⟩
      · rw [functional _ _ _ known declared, ← inlined.eq_nil_iff, ← List.length_eq_zero_iff]
        omega
      · obtain ⟨none, some⟩ := settled_cons.1 all
        rw [inlined.eq_nil_iff.2 (none waits bs declared), List.nil_append, List.map_cons, List.map_cons,
          names some]
        rfl
  | @expand m ms ns bs cs waits declared inlined rest innerIh ih =>
    cases most with
    | keep => exact absurd declared ((complete_cons.1 complete).1 waits bs)
    | @expand _ _ tail ds es _ known inlined' rest' =>
      obtain ⟨inner, behind⟩ := complete_done.1 complete
      rw [functional _ _ _ known declared] at inlined'
      obtain ⟨le, settled, names⟩ := innerIh inlined' inner
      obtain ⟨le', settled', names'⟩ := ih rest' behind
      simp only [List.length_cons, List.length_append]
      refine ⟨by omega, fun ge => settled_done.2 ⟨settled (by omega), settled' (by omega)⟩, fun all => ?_⟩
      obtain ⟨first, second⟩ := settled_done.1 all
      rw [List.map_cons, List.map_append, names first, names' second, List.map_cons, List.map_append]

theorem Inlined.names_eq_iff {ms ns full : List Slot} (h : Inlined decl ms ns)
    (most : Inlined decl ms full) (complete : Complete decl full) :
    ns.map Slot.name = full.map Slot.name ↔ Settled decl ns := by
  obtain ⟨-, settled, names⟩ := h.length_le functional most complete
  refine ⟨fun same => settled ?_, names⟩
  have lengths := congrArg List.length same
  rw [List.length_map, List.length_map] at lengths
  exact lengths.ge

end Functional

theorem Complete.settled {ms : List Slot} (h : Complete decl ms) : Settled decl ms :=
  fun m hm waits bs declared => absurd declared (h m hm waits bs)

/-- The names of a complete inlining, by the names of those that it inlines. -/
theorem Inlined.names_eq_flatMap {full : String → List String}
    (known : ∀ a bs cs, decl a bs → Inlined decl bs cs → Complete decl cs → full a = cs.map Slot.name)
    (unknown : ∀ a, (∀ bs, ¬ decl a bs) → full a = []) {ms ns : List Slot} (h : Inlined decl ms ns)
    (complete : Complete decl ns) :
    ns.map Slot.name = ms.flatMap fun m => m.name :: if m.waits then full m.typeName else [] := by
  induction h with
  | nil => rfl
  | @keep m ms ns rest ih =>
    obtain ⟨alone, behind⟩ := complete_cons.1 complete
    rw [List.map_cons, List.flatMap_cons, ih behind]
    split
    next waits => rw [unknown _ (alone waits)]; rfl
    next => rfl
  | @expand m ms ns bs cs waits declared inlined rest _ ih =>
    obtain ⟨inner, behind⟩ := complete_done.1 complete
    rw [List.map_cons, List.map_append, List.flatMap_cons, if_pos waits, ih behind,
      known _ _ _ declared inlined inner]
    rfl

/-- Each struct has names of members that do not depend on how it is inlined: its own, with those of
the struct that an inline member names behind it. An inlining has just these exactly if it is
settled. -/
theorem exists_inlinedNames (functional : ∀ a bs cs, decl a bs → decl a cs → bs = cs)
    (finite : {a | ∃ bs, decl a bs}.Finite) (acyclic : ∀ a, ¬ Relation.TransGen (InlinesIn decl) a a) :
    ∃ full : String → List String,
      (∀ a bs, decl a bs →
        full a = bs.flatMap fun m => m.name :: if m.waits then full m.typeName else []) ∧
      (∀ a, (∀ bs, ¬ decl a bs) → full a = []) ∧
      ∀ a bs ns, decl a bs → Inlined decl bs ns → (ns.map Slot.name = full a ↔ Settled decl ns) := by
  have names : ∀ a, ∃ names : List String,
      (∀ bs cs, decl a bs → Inlined decl bs cs → Complete decl cs → names = cs.map Slot.name) ∧
      ((∀ bs, ¬ decl a bs) → names = []) := by
    intro a
    by_cases there : ∃ bs, decl a bs
    · obtain ⟨bs, declared⟩ := there
      obtain ⟨ns, inlined, complete⟩ := exists_complete finite acyclic declared
      refine ⟨ns.map Slot.name, fun bs' cs declared' inlined' complete' => ?_, fun none => ?_⟩
      · rw [functional a bs bs' declared declared'] at inlined
        exact (inlined.names_eq_iff functional inlined' complete').2 complete.settled
      · exact absurd declared (none bs)
    · exact ⟨[], fun bs _ declared => absurd ⟨bs, declared⟩ there, fun _ => rfl⟩
  choose full known unknown using names
  refine ⟨full, fun a bs declared => ?_, unknown, fun a bs ns declared inlined => ?_⟩
  · obtain ⟨ns, inlined, complete⟩ := exists_complete finite acyclic declared
    rw [known a bs ns declared inlined complete, inlined.names_eq_flatMap known unknown complete]
  · obtain ⟨cs, most, complete⟩ := exists_complete finite acyclic declared
    rw [known a bs cs declared most complete, inlined.names_eq_iff functional most complete]

end

end C3Lens
