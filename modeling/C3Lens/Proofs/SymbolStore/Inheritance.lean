import C3Lens.Document.Basic
import C3Lens.Proofs.SymbolStore.Resolved

/-!
# Which struct an inline member inherits from

The type of an inline member is bound with regard to its qualifier, to parents and children of its
module and to imports. Its members are found by the name of the type alone: in the modules that are
named like the module of the host, and else in all modules, in the order of their registration
(`inlinedStruct?_eq`). `hoisted_from_bound_iff` says when the two choose modules of one name, and
`hoisted_from_namesake` is a case in which they do not.
-/

namespace C3Lens

namespace SymbolStore

/-- Whether the module declares a struct of the name. -/
def declaresStruct (name : String) (m : Module) : Bool :=
  m.structs.contains name

/-- The module whose struct an inline member inherits from. -/
def inlineHome? (s : SymbolStore) (i : PendingInline) : Option Module :=
  (s.modulesNamed i.moduleName).find? (declaresStruct i.inlined) <|>
    s.modules.find? (declaresStruct i.inlined)

theorem findSome?_struct (name : String) (ms : List Module) :
    ms.findSome? (·.structs.get? name) =
      (ms.find? (declaresStruct name)).bind (·.structs.get? name) := by
  induction ms with
  | nil => rfl
  | cons m ms ih =>
    rw [List.findSome?_cons, List.find?_cons, declaresStruct, Table.contains]
    cases found : m.structs.get? name with
    | none => exact ih
    | some a => exact found.symm

theorem inlinedStruct?_eq (s : SymbolStore) (i : PendingInline) :
    s.inlinedStruct? i = (s.inlineHome? i).bind (·.structs.get? i.inlined) := by
  rw [inlinedStruct?, findSome?_struct, findSome?_struct, inlineHome?]
  cases found : (s.modulesNamed i.moduleName).find? (declaresStruct i.inlined) with
  | none => rfl
  | some m =>
    have declares : (m.structs.get? i.inlined).isSome = true :=
      @List.find?_some _ (declaresStruct i.inlined) _ _ found
    obtain ⟨a, ha⟩ := Option.isSome_iff_exists.1 declares
    show (m.structs.get? i.inlined <|> _) = m.structs.get? i.inlined
    rw [ha]
    rfl

/-- The members that are found are those of one struct. -/
theorem inlineHome?_of_inlinedMembers? {s : SymbolStore} {i : PendingInline} {members : List Member}
    (h : s.inlinedMembers? i = some members) :
    ∃ home a, s.inlineHome? i = some home ∧ home.structs.get? i.inlined = some a ∧
      a.members = members := by
  obtain ⟨a, inlined, shown⟩ := Option.bind_eq_some_iff.1 h
  obtain ⟨home, chosen, declared⟩ := Option.bind_eq_some_iff.1 ((inlinedStruct?_eq s i).symm.trans inlined)
  refine ⟨home, a, chosen, declared, ?_⟩
  split at shown
  · cases shown
  · exact Option.some.inj shown

theorem mem_modules_of_inlineHome? {s : SymbolStore} {i : PendingInline} {home : Module}
    (h : s.inlineHome? i = some home) : home ∈ s.modules := by
  rw [inlineHome?] at h
  cases own : (s.modulesNamed i.moduleName).find? (declaresStruct i.inlined) with
  | some m =>
    rw [own] at h
    obtain rfl : m = home := Option.some.inj h
    exact List.mem_of_mem_filter (List.mem_of_find?_eq_some own)
  | none =>
    rw [own] at h
    exact List.mem_of_find?_eq_some h

/-- Where modules of the name `name` declare the struct, it is inherited from one of them exactly if
they are named like the module of the host, or that one has no such struct and they come first. -/
theorem name_inlineHome?_iff {s : SymbolStore} {i : PendingInline} {home bound : Module} {name : String}
    (chosen : s.inlineHome? i = some home) (registered : bound ∈ s.modulesNamed name)
    (declares : declaresStruct i.inlined bound = true) :
    home.name = name ↔ name = i.moduleName ∨
      (s.modulesNamed i.moduleName).find? (declaresStruct i.inlined) = none ∧
      (s.modules.find? (declaresStruct i.inlined)).map (·.name) = some name := by
  rw [inlineHome?] at chosen
  cases own : (s.modulesNamed i.moduleName).find? (declaresStruct i.inlined) with
  | some m =>
    rw [own] at chosen
    obtain rfl : m = home := Option.some.inj chosen
    have named : m.name = i.moduleName := beq_iff_eq.1 (List.mem_filter.1 (List.mem_of_find?_eq_some own)).2
    rw [named]
    exact ⟨fun same => .inl same.symm, fun same => (same.resolve_right nofun).symm⟩
  | none =>
    rw [own] at chosen
    have first : s.modules.find? (declaresStruct i.inlined) = some home := chosen
    rw [first, Option.map_some, Option.some.injEq]
    refine ⟨fun same => .inr ⟨rfl, same⟩, fun same => same.elim (fun here => ?_) And.right⟩
    rw [here] at registered
    exact absurd declares (List.find?_eq_none.1 own bound registered)

end SymbolStore

namespace Aggregate

/-- Members go behind the first one that waits for them. -/
theorem hoistInto_append {owner typeName : String} {inherited front back : List Member} {m : Member}
    (first : ∀ k ∈ front, waitsFor k typeName = false) (waiting : waitsFor m typeName = true) :
    hoistInto owner typeName inherited (front ++ m :: back) =
      front ++ { m with awaitsExpansion := false, isExpanded := true } ::
        (inherited.map ({ · with owner := owner }) ++ back) := by
  induction front with
  | nil => rw [List.nil_append, hoistInto_cons, if_pos waiting, List.nil_append]
  | cons k front ih =>
    rw [List.cons_append, hoistInto_cons, first k List.mem_cons_self, if_neg Bool.false_ne_true,
      ih fun n hn => first n (List.mem_cons_of_mem _ hn), List.cons_append]

end Aggregate

namespace SymbolStore

theorem turn_concat (s : SymbolStore) (v : SourceUnit) (q : Pending) (before : List PendingInline)
    (i : PendingInline) : s.turn v q (before ++ [i]) = (s.turn v q before).settleInline i := by
  rw [turn, List.foldl_append]
  rfl

/-- The struct of an inline member, wherever it is registered. -/
def host? (s : SymbolStore) (i : PendingInline) : Option Struct :=
  (s.unit? i.doc).bind (·.host? i)

theorem host?_settleInline {s : SymbolStore} {i : PendingInline} {members : List Member}
    (found : s.inlinedMembers? i = some members) :
    (s.settleInline i).host? i = (s.host? i).map (·.inherit i.inlined members) := by
  rw [host?, unit?_settleInline, if_pos rfl, found, host?]
  cases s.unit? i.doc with
  | none => rfl
  | some u =>
    show (u.hoist i members).host? i = _
    rw [SourceUnit.host?_hoist, if_pos ⟨rfl, rfl⟩]
    rfl

theorem HoistsTo.host? {s s' : SymbolStore} (h : s.HoistsTo s') {i : PendingInline} {a : Struct}
    (host : s.host? i = some a) : ∃ b, s'.host? i = some b ∧ a.HoistsTo b := by
  obtain ⟨f, units, hoists⟩ := h
  obtain ⟨u, unit, declared⟩ := Option.bind_eq_some_iff.1 host
  obtain ⟨m, module, struct⟩ := Option.bind_eq_some_iff.1 declared
  obtain ⟨b, hb, hab⟩ := (hoists i.doc.text i.moduleName m).struct_of_get? struct
  have after : s'.unit? i.doc = _ := congrArg (Table.get? · i.doc.text) units
  refine ⟨b, ?_, hab⟩
  rw [SymbolStore.host?, after]
  show ((s.mapModules f).unit? i.doc).bind _ = _
  rw [unit?_mapModules, unit, Option.map_some, Option.bind_some, SourceUnit.host?,
    Table.get?_mapEntries, module]
  exact hb

theorem host?_register (s : SymbolStore) (v : SourceUnit) (q : Pending) (i : PendingInline) :
    (s.register v q).host? i = (s.turn v q (s.placed v q).pending.inlines).host? i := by
  have unit : (s.register v q).unit? i.doc = _ :=
    congrArg (Table.get? · i.doc.text) (units_register_eq s v q).1
  rw [host?, unit]
  rfl

/-- When the inline member `i` of the struct `a` has its turn in the registration of `v`, and its
type is bound to a registered module that declares the struct: the members that come right behind
it, where later expansions may only put more between them, are those of the struct of `home`; and
`home` has the name of the module that the type is bound to exactly if the module of `a` has that
name, or no module named like it declares such a struct and of all modules that do the first one
has the name. -/
theorem hoisted_from_bound_iff (s : SymbolStore) (v : SourceUnit) (q : Pending)
    {before after : List PendingInline} {i : PendingInline} {inherited front back : List Member}
    {a : Struct} {m : Member} {bound : Module}
    (queue : (s.placed v q).pending.inlines = before ++ i :: after)
    (found : (s.turn v q before).inlinedMembers? i = some inherited)
    (host : (s.turn v q before).host? i = some a) (members : a.members = front ++ m :: back)
    (first : ∀ k ∈ front, Aggregate.waitsFor k i.inlined = false)
    (waiting : Aggregate.waitsFor m i.inlined = true)
    (registered : bound ∈ (s.turn v q before).modulesNamed m.type.moduleName)
    (declares : declaresStruct i.inlined bound = true) :
    let t := s.turn v q before
    ∃ home b, t.inlineHome? i = some home ∧ home.structs.get? i.inlined = some b ∧
      (∃ c, (s.register v q).host? i = some c ∧ Aggregate.HoistsTo { a with
        members := front ++ { m with awaitsExpansion := false, isExpanded := true } ::
          (b.members.map ({ · with owner := a.name }) ++ back) } c) ∧
      (home.name = m.type.moduleName ↔ m.type.moduleName = i.moduleName ∨
        (t.modulesNamed i.moduleName).find? (declaresStruct i.inlined) = none ∧
        (t.modules.find? (declaresStruct i.inlined)).map (·.name) = some m.type.moduleName) := by
  intro t
  obtain ⟨home, b, chosen, declared, rfl⟩ := inlineHome?_of_inlinedMembers? found
  refine ⟨home, b, chosen, declared, ?_, name_inlineHome?_iff chosen registered declares⟩
  have hoisted : (s.turn v q (before ++ [i])).host? i = some { a with
      members := front ++ { m with awaitsExpansion := false, isExpanded := true } ::
        (b.members.map ({ · with owner := a.name }) ++ back) } := by
    rw [turn_concat, host?_settleInline found, host, Option.map_some, Aggregate.inherit_eq, members,
      Aggregate.hoistInto_append first waiting]
  have rest : s.turn v q (before ++ i :: after) = after.foldl settleInline (s.turn v q (before ++ [i])) := by
    rw [turn, turn, ← List.foldl_append, List.append_assoc, List.singleton_append]
  rw [host?_register, queue, rest]
  exact (hoistsTo_foldl_settleInline after _).host? hoisted

/-- Reads a document and registers its unit. -/
def read (s : SymbolStore) (doc : DocId) (text : String) : SymbolStore :=
  s.register (outlineOfText doc text).1 (outlineOfText doc text).2

/-- Reads documents, one after the other, into an empty store. -/
def ofTexts (docs : List (DocId × String)) : SymbolStore :=
  docs.foldl (fun s d => s.read d.1 d.2) empty

/-- Two modules that declare structs of one name. -/
def namesakes : SymbolStore :=
  ofTexts [(⟨"file:///a.c3"⟩, "module a;\nstruct S { int x; }"),
    (⟨"file:///b.c3"⟩, "module b;\nstruct S { int y; }")]

/-- An inline member in the module that declares the second of them. -/
def heir : SourceUnit × Pending :=
  outlineOfText ⟨"file:///c.c3"⟩ "module b;\nstruct T { inline S; }"

set_option maxRecDepth 100000 in
/-- In the module `b` the struct of that module is inherited. -/
theorem hoisted_from_own_module :
    let i : PendingInline := ⟨⟨"file:///c.c3"⟩, "b", "T", "S"⟩
    let t := namesakes.turn heir.1 heir.2 []
    ∃ a m, t.host? i = some a ∧ a.members = [] ++ m :: [] ∧ m.type.moduleName = "b" ∧
      ∃ home, t.inlineHome? i = some home ∧ home.name = m.type.moduleName := by
  intro i t
  have facts : (namesakes.placed heir.1 heir.2).pending.inlines = [] ++ i :: [] ∧
      (t.inlinedMembers? i).isSome = true ∧
      (t.host? i).any (fun a => a.members.map (fun m =>
        Aggregate.waitsFor m "S" && m.type.moduleName == "b") == [true]) = true ∧
      (t.modulesNamed "b").any (declaresStruct "S") = true := by
    decide +kernel
  obtain ⟨queue, found, hosted, declared⟩ := facts
  obtain ⟨inherited, members⟩ := Option.isSome_iff_exists.1 found
  obtain ⟨a, host, one⟩ := (Option.any_eq_true _ _).1 hosted
  obtain ⟨bound, registered, declares⟩ := List.any_eq_true.1 declared
  obtain ⟨m, alone, waits⟩ := List.map_eq_singleton_iff.1 (beq_iff_eq.1 one)
  rw [Bool.and_eq_true, beq_iff_eq] at waits
  rw [← waits.2] at registered
  have parts : a.members = [] ++ m :: [] := alone
  obtain ⟨home, b, chosen, -, -, agrees⟩ := hoisted_from_bound_iff namesakes heir.1 heir.2 queue members
    host parts (fun k hk => absurd hk List.not_mem_nil) waits.1 registered declares
  exact ⟨a, m, host, alone, waits.2, home, chosen, agrees.2 (.inl waits.2)⟩

set_option maxRecDepth 100000 in
/-- The type of the inline member is bound to `b`, which is imported and whose struct has the member
`y`, and the member `x` of the struct of `a` is put behind it. -/
theorem hoisted_from_namesake :
    let i : PendingInline := ⟨⟨"file:///c.c3"⟩, "c", "T", "S"⟩
    let o := outlineOfText ⟨"file:///c.c3"⟩ "module c;\nimport b;\nstruct T { inline S; }"
    let t := namesakes.turn o.1 o.2 []
    (namesakes.placed o.1 o.2).pending.inlines = [i] ∧
      (t.host? i).map (·.members.map fun m => (m.type.name, m.type.moduleName, m.awaitsExpansion)) =
        some [("S", "b", true)] ∧
      (t.modulesNamed "b").map (fun m => (m.structs.get? "S").map (·.members.map (·.name))) =
        [some ["y"]] ∧
      ((namesakes.register o.1 o.2).host? i).map (·.members.map (·.name)) = some ["", "x"] := by
  decide +kernel

end SymbolStore

end C3Lens
