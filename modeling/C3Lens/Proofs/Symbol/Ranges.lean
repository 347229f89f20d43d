import C3Lens.Proofs.Symbol.Moved

/-!
# Symbols without their ranges

`eraseRanges` takes the places in the text out of a symbol and of all that it holds, and leaves the rest.
So two units with the same erasure hold the same declarations, which may stand elsewhere. To add
declarations to a module or a module to a unit goes past the erasure.
-/

namespace C3Lens

namespace Declaration

/-- The declaration without its ranges. -/
def eraseRanges (d : Declaration) : Declaration :=
  { d with nameRange := default, range := default }

/-- Declarations with the same erasure differ in their ranges only. -/
theorem exists_of_eraseRanges_eq {d d' : Declaration} (h : d.eraseRanges = d'.eraseRanges) :
    ∃ nameRange range, d' = { d with nameRange := nameRange, range := range } := by
  obtain ⟨name, path, doc, nameRange, range, comment?⟩ := d
  obtain ⟨name', path', doc', nameRange', range', comment'?⟩ := d'
  cases h
  exact ⟨nameRange', range', rfl⟩

end Declaration

namespace Variable

/-- The variable without its ranges. -/
def eraseRanges (v : Variable) : Variable :=
  { v with nameRange := default, range := default }

end Variable

namespace Function

/-- The function without ranges. -/
def eraseRanges (f : Function) : Function :=
  { f with
    nameRange := default
    range := default
    parameters := f.parameters.map Variable.eraseRanges
    locals := f.locals.map Variable.eraseRanges }

end Function

namespace Member

mutual

/-- The member, with its body, without ranges. -/
def eraseRanges : Member → Member
  | ⟨d, type, bits?, awaits, expanded, body?, owner⟩ =>
    ⟨{ d with nameRange := default, range := default }, type, bits?, awaits, expanded,
      eraseRangesOfBody body?, owner⟩

/-- A body, if there is one, without ranges. -/
def eraseRangesOfBody : Option (Aggregate Member) → Option (Aggregate Member)
  | none => none
  | some ⟨d, members, isUnion, interfaces⟩ =>
    some ⟨{ d with nameRange := default, range := default }, eraseRangesOfList members, isUnion, interfaces⟩

/-- Members without ranges. -/
def eraseRangesOfList : List Member → List Member
  | [] => []
  | m :: ms => eraseRanges m :: eraseRangesOfList ms

end

theorem eraseRangesOfList_eq (ms : List Member) : eraseRangesOfList ms = ms.map eraseRanges := by
  induction ms with
  | nil => rfl
  | cons m ms ih => rw [eraseRangesOfList, ih, List.map_cons]

theorem eraseRanges_owner (m : Member) (owner : String) :
    ({ m with owner := owner } : Member).eraseRanges = { m.eraseRanges with owner := owner } := by
  obtain ⟨_, _, _, _, _, _, _⟩ := m
  simp only [eraseRanges]

theorem map_eraseRanges_owner (ms : List Member) (owner : String) :
    (ms.map ({ · with owner := owner })).map eraseRanges =
      (ms.map eraseRanges).map ({ · with owner := owner }) := by
  rw [List.map_map, List.map_map]
  exact List.map_congr_left fun m _ => eraseRanges_owner m owner

end Member

namespace Aggregate

/-- The struct without ranges. -/
def eraseRanges (s : Struct) : Struct :=
  { s with nameRange := default, range := default, members := s.members.map Member.eraseRanges }

end Aggregate

namespace Bitstruct

/-- The bitstruct without ranges. -/
def eraseRanges (b : Bitstruct) : Bitstruct :=
  { b with nameRange := default, range := default, members := b.members.map Member.eraseRanges }

end Bitstruct

namespace Enumerator

/-- The enumerator without its ranges. -/
def eraseRanges (e : Enumerator) : Enumerator :=
  { e with nameRange := default, range := default }

end Enumerator

namespace Enum

/-- The enum without ranges. -/
def eraseRanges (e : Enum) : Enum :=
  { e with
    nameRange := default
    range := default
    enumerators := e.enumerators.map Enumerator.eraseRanges
    values := e.values.map Variable.eraseRanges }

end Enum

namespace FaultConstant

/-- The constant without its ranges. -/
def eraseRanges (c : FaultConstant) : FaultConstant :=
  { c with nameRange := default, range := default }

end FaultConstant

namespace Fault

/-- The fault without ranges. -/
def eraseRanges (f : Fault) : Fault :=
  { f with nameRange := default, range := default, constants := f.constants.map FaultConstant.eraseRanges }

end Fault

namespace Alias

/-- The alias without its ranges. -/
def eraseRanges (a : Alias) : Alias :=
  { a with nameRange := default, range := default }

end Alias

namespace Distinct

/-- The distinct type without its ranges. -/
def eraseRanges (d : Distinct) : Distinct :=
  { d with nameRange := default, range := default }

end Distinct

namespace Interface

/-- The interface without ranges. -/
def eraseRanges (i : Interface) : Interface :=
  { i with nameRange := default, range := default, methods := i.methods.map Function.eraseRanges }

end Interface

namespace Module

/-- The module without ranges. -/
def eraseRanges (m : Module) : Module :=
  { m with
    nameRange := default
    range := default
    globals := m.globals.map Variable.eraseRanges
    enums := m.enums.map Enum.eraseRanges
    faults := m.faults.map Fault.eraseRanges
    faultConstants := m.faultConstants.map FaultConstant.eraseRanges
    structs := m.structs.map Aggregate.eraseRanges
    bitstructs := m.bitstructs.map Bitstruct.eraseRanges
    aliases := m.aliases.map Alias.eraseRanges
    distincts := m.distincts.map Distinct.eraseRanges
    interfaces := m.interfaces.map Interface.eraseRanges
    functions := m.functions.map Function.eraseRanges }

theorem eraseRanges_addImports (m : Module) (paths : List ModulePath) :
    (m.addImports paths).eraseRanges = m.eraseRanges.addImports paths := by
  induction paths generalizing m with
  | nil => rfl
  | cons path paths ih =>
    refine (ih (m.addImport path)).trans (congrArg (addImports · paths) ?_)
    exact apply_ite eraseRanges (m.imports.contains path = true) m { m with imports := m.imports ++ [path] }

theorem eraseRanges_addVariables (m : Module) (vs : List Variable) :
    (m.addVariables vs).eraseRanges = m.eraseRanges.addVariables (vs.map Variable.eraseRanges) := by
  have globals := @Table.map_foldl_insert _ _ Variable.eraseRanges (·.name) (·.name) (fun _ => rfl) vs m.globals
  exact congrArg (fun t => { m.eraseRanges with globals := t }) globals

theorem eraseRanges_addFaultConstants (m : Module) (cs : List FaultConstant) :
    (m.addFaultConstants cs).eraseRanges =
      m.eraseRanges.addFaultConstants (cs.map FaultConstant.eraseRanges) := by
  have constants := @Table.map_foldl_insert _ _ FaultConstant.eraseRanges (·.name) (·.name) (fun _ => rfl) cs
    m.faultConstants
  exact congrArg (fun t => { m.eraseRanges with faultConstants := t }) constants

end Module

namespace SourceUnit

/-- The unit without ranges. -/
def eraseRanges (u : SourceUnit) : SourceUnit :=
  { u with modules := u.modules.map Module.eraseRanges }

variable (u : SourceUnit)

theorem eraseRanges_modify {f g : Module → Module} (hf : ∀ m, (f m).eraseRanges = g m.eraseRanges)
    (name : String) : (u.modify name f).eraseRanges = u.eraseRanges.modify name g :=
  congrArg (SourceUnit.mk u.doc) (Table.map_modify_comm hf u.modules name)

/-- A module without declarations comes into the unit. -/
theorem eraseRanges_register {m : Module} (nothing : ∀ k : Module, k.merge m = k)
    (erased : ∀ k : Module, k.merge m.eraseRanges = k) :
    (u.register m).eraseRanges = u.eraseRanges.register m.eraseRanges := by
  have found : u.eraseRanges.modules.get? m.eraseRanges.name =
      (u.modules.get? m.name).map Module.eraseRanges := Table.get?_map _ _ _
  rw [register, register, found]
  cases u.modules.get? m.name with
  | none => exact congrArg (SourceUnit.mk u.doc) (Table.map_insert _ _ _ _)
  | some known =>
    rw [Option.map_some]
    dsimp only
    rw [nothing, erased]
    exact congrArg (SourceUnit.mk u.doc) (Table.map_insert _ _ _ _)

end SourceUnit

end C3Lens
