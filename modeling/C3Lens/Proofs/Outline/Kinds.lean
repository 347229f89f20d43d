import C3Lens.Outline.Unit
import C3Lens.Proofs.Table
import C3Lens.Symbol.View

/-!
# What a node declares

A node inside a module declares nothing, or one builder reads it, what is built comes into a table of the
module, and the region of the module reaches behind it. The ways to do so are the cases of
`OutlineState.Declares`. What is said of all declarations is said for each of them, once of the state
behind a node (`OutlineState.declare_induct`) or of two states behind nodes of one kind
(`OutlineState.declare_induct₂`).
-/

namespace C3Lens

theorem Module.forall_children {m : Module} {P : Symbol → Prop} :
    (∀ s ∈ m.children, P s) ↔
      (∀ v ∈ m.globals.values, P (.variable v)) ∧ (∀ e ∈ m.enums.values, P (.enum e)) ∧
      (∀ f ∈ m.faults.values, P (.fault f)) ∧ (∀ c ∈ m.faultConstants.values, P (.faultConstant c)) ∧
      (∀ a ∈ m.structs.values, P (.aggregate a)) ∧ (∀ b ∈ m.bitstructs.values, P (.bitstruct b)) ∧
      (∀ a ∈ m.aliases.values, P (.alias a)) ∧ (∀ d ∈ m.distincts.values, P (.distinct d)) ∧
      (∀ i ∈ m.interfaces.values, P (.interface i)) ∧ ∀ f ∈ m.functions, P (.function f) := by
  simp only [children, List.forall_mem_append, List.forall_mem_map, and_assoc]

namespace OutlineState

/-- Nodes of the kind are read by `builder`, and `add` puts what it builds into the module; `symbols` tells
which symbols these are. -/
inductive Declares : NodeKind → {α : Type} → (builder : Place → Option DocComment → Outline α) →
    (add : α → Module → Module) → (symbols : α → List Symbol) → Prop
  | function {kind : NodeKind} (callable : kind = .fnDef ∨ kind = .macroDef) :
      Declares kind Outline.functionOf (fun f m => { m with functions := m.functions ++ [f] })
        fun f => [.function f]
  | struct : Declares .structDef Outline.structOf (fun a m => { m with structs := m.structs.insert a.name a })
      fun a => [.aggregate a]
  | bitstruct : Declares .bitstructDef Outline.bitstructOf
      (fun b m => { m with bitstructs := m.bitstructs.insert b.name b }) fun b => [.bitstruct b]
  | enum : Declares .enumDef Outline.enumOf (fun e m => { m with enums := m.enums.insert e.name e })
      fun e => [.enum e]
  | fault : Declares .faultDef Outline.faultOf (fun f m => { m with faults := m.faults.insert f.name f })
      fun f => [.fault f]
  | faultConstants : Declares .faultdefDecl
      (fun p comment? => Outline.faultConstantsBelow p none comment?)
      (fun cs m => m.addFaultConstants cs) fun cs => cs.map .faultConstant
  | distinct {kind : NodeKind} (naming : kind = .distinctDecl ∨ kind = .defDecl) :
      Declares kind Outline.distinctOf (fun d m => { m with distincts := m.distincts.insert d.name d })
        fun d => [.distinct d]
  | aliased : Declares .defDecl Outline.aliasOf (fun a m => { m with aliases := m.aliases.insert a.name a })
      fun a => [.alias a]
  | interface : Declares .interfaceDef Outline.interfaceOf
      (fun i m => { m with interfaces := m.interfaces.insert i.name i }) fun i => [.interface i]
  | globals {kind : NodeKind} (lasting : kind = .constDecl ∨ kind = .globalVarDecl) :
      Declares kind Outline.variablesOf (fun vs m => m.addVariables vs) fun vs => vs.map .variable

section

variable {α : Type} {kind : NodeKind} {builder : Place → Option DocComment → Outline α}
  {add : α → Module → Module} {symbols : α → List Symbol}

/-- The module declares what it declared before and the new symbols. -/
theorem Declares.forall_children (h : Declares kind builder add symbols) {Q : Symbol → Prop} {m : Module} {a : α}
    (old : ∀ x ∈ m.children, Q x) (new : ∀ x ∈ symbols a, Q x) : ∀ x ∈ (add a m).children, Q x := by
  rw [Module.forall_children] at old ⊢
  obtain ⟨globals, enums, faults, constants, structs, bitstructs, aliases, distincts, interfaces, functions⟩ := old
  cases h with
  | function => exact ⟨globals, enums, faults, constants, structs, bitstructs, aliases, distincts, interfaces,
      List.forall_mem_append.2 ⟨functions, List.forall_mem_singleton.2 (List.forall_mem_singleton.1 new)⟩⟩
  | struct =>
    exact ⟨globals, enums, faults, constants,
      Table.forall_values_insert structs (List.forall_mem_singleton.1 new), bitstructs, aliases, distincts,
      interfaces, functions⟩
  | bitstruct =>
    exact ⟨globals, enums, faults, constants, structs,
      Table.forall_values_insert bitstructs (List.forall_mem_singleton.1 new), aliases, distincts, interfaces,
      functions⟩
  | enum =>
    exact ⟨globals, Table.forall_values_insert enums (List.forall_mem_singleton.1 new), faults, constants, structs,
      bitstructs, aliases, distincts, interfaces, functions⟩
  | fault =>
    exact ⟨globals, enums, Table.forall_values_insert faults (List.forall_mem_singleton.1 new), constants, structs,
      bitstructs, aliases, distincts, interfaces, functions⟩
  | faultConstants =>
    exact ⟨globals, enums, faults, Table.forall_values_foldl_insert constants (List.forall_mem_map.1 new), structs,
      bitstructs, aliases, distincts, interfaces, functions⟩
  | distinct =>
    exact ⟨globals, enums, faults, constants, structs, bitstructs, aliases,
      Table.forall_values_insert distincts (List.forall_mem_singleton.1 new), interfaces, functions⟩
  | aliased =>
    exact ⟨globals, enums, faults, constants, structs, bitstructs,
      Table.forall_values_insert aliases (List.forall_mem_singleton.1 new), distincts, interfaces, functions⟩
  | interface =>
    exact ⟨globals, enums, faults, constants, structs, bitstructs, aliases, distincts,
      Table.forall_values_insert interfaces (List.forall_mem_singleton.1 new), functions⟩
  | globals =>
    exact ⟨Table.forall_values_foldl_insert globals (List.forall_mem_map.1 new), enums, faults, constants, structs,
      bitstructs, aliases, distincts, interfaces, functions⟩

/-- Declarations leave alone what the module is called and what stands in front of it. -/
theorem Declares.toDeclaration_add (h : Declares kind builder add symbols) (a : α) (m : Module) :
    (add a m).toDeclaration = m.toDeclaration := by
  cases h <;> rfl

end

/-- Two states behind nodes of the same kind; of two aliases both or none name a distinct type. -/
theorem declare_induct₂ {R : OutlineState → OutlineState → Prop} {s s' : OutlineState} {kind : NodeKind}
    {p p' : Place} {comment? comment?' : Option DocComment}
    (which : kind = .defDecl → Outline.isDistinctAlias s.scope p = Outline.isDistinctAlias s'.scope p')
    (nothing : R s s')
    (declared : ∀ {α : Type} {builder : Place → Option DocComment → Outline α} {add : α → Module → Module}
      {symbols : α → List Symbol}, Declares kind builder add symbols →
        R ((s.build (builder p comment?) add).extendRegion p.stop)
          ((s'.build (builder p' comment?') add).extendRegion p'.stop)) :
    R (s.declare kind p comment?) (s'.declare kind p' comment?') := by
  unfold declare
  cases kind
  case fnDef => exact declared (.function (.inl rfl))
  case macroDef => exact declared (.function (.inr rfl))
  case structDef => exact declared .struct
  case bitstructDef => exact declared .bitstruct
  case enumDef => exact declared .enum
  case faultDef => exact declared .fault
  case faultdefDecl => exact declared .faultConstants
  case defDecl =>
    dsimp only
    rw [← which rfl]
    split
    · exact declared (.distinct (.inr rfl))
    · exact declared .aliased
  case distinctDecl => exact declared (.distinct (.inl rfl))
  case interfaceDef => exact declared .interface
  case constDecl => exact declared (.globals (.inl rfl))
  case globalVarDecl => exact declared (.globals (.inr rfl))
  all_goals exact nothing

/-- The state behind a node. -/
theorem declare_induct {P : OutlineState → Prop} {s : OutlineState} {kind : NodeKind} {p : Place}
    {comment? : Option DocComment} (nothing : P s)
    (declared : ∀ {α : Type} {builder : Place → Option DocComment → Outline α} {add : α → Module → Module}
      {symbols : α → List Symbol}, Declares kind builder add symbols →
        P ((s.build (builder p comment?) add).extendRegion p.stop)) : P (s.declare kind p comment?) :=
  @declare_induct₂ (fun t _ => P t) s s kind p p comment? comment? (fun _ => rfl) nothing declared

/-- The kinds of nodes that declare something. -/
def declaringKinds : List NodeKind :=
  [.fnDef, .macroDef, .structDef, .bitstructDef, .enumDef, .faultDef, .faultdefDecl, .defDecl, .distinctDecl,
    .interfaceDef, .constDecl, .globalVarDecl]

theorem declare_of_notMem (s : OutlineState) {kind : NodeKind} (h : kind ∉ declaringKinds) (p : Place)
    (comment? : Option DocComment) : s.declare kind p comment? = s := by
  cases kind <;> first | rfl | exact absurd (by decide) h

/-- A node of such a kind is always read by a builder. -/
theorem exists_declares (s : OutlineState) {kind : NodeKind} (h : kind ∈ declaringKinds) (p : Place)
    (comment? : Option DocComment) :
    ∃ (α : Type) (builder : Place → Option DocComment → Outline α) (add : α → Module → Module)
      (symbols : α → List Symbol), Declares kind builder add symbols ∧
        s.declare kind p comment? = (s.build (builder p comment?) add).extendRegion p.stop := by
  cases kind
  case fnDef => exact ⟨_, _, _, _, .function (.inl rfl), rfl⟩
  case macroDef => exact ⟨_, _, _, _, .function (.inr rfl), rfl⟩
  case structDef => exact ⟨_, _, _, _, .struct, rfl⟩
  case bitstructDef => exact ⟨_, _, _, _, .bitstruct, rfl⟩
  case enumDef => exact ⟨_, _, _, _, .enum, rfl⟩
  case faultDef => exact ⟨_, _, _, _, .fault, rfl⟩
  case faultdefDecl => exact ⟨_, _, _, _, .faultConstants, rfl⟩
  case defDecl =>
    rw [declare]
    split
    · exact ⟨_, _, _, _, .distinct (.inr rfl), rfl⟩
    · exact ⟨_, _, _, _, .aliased, rfl⟩
  case distinctDecl => exact ⟨_, _, _, _, .distinct (.inl rfl), rfl⟩
  case interfaceDef => exact ⟨_, _, _, _, .interface, rfl⟩
  case constDecl => exact ⟨_, _, _, _, .globals (.inl rfl), rfl⟩
  case globalVarDecl => exact ⟨_, _, _, _, .globals (.inr rfl), rfl⟩
  all_goals exact absurd h (by decide)

end OutlineState

end C3Lens
