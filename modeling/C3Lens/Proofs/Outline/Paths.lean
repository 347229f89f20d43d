import C3Lens.Proofs.Symbol.Spelling

/-!
# The paths of declarations

What a document declares in a module bears the path of the module: the modules of an outline stand under
the written paths of all that they hold (`onPath_outline`). The builders take the path from the scope, and
the scope is that of the module into which they put what they build.
-/

namespace C3Lens

/-! ## Builders -/

namespace Outline

variable (scope : Scope) (p : Place) (comment? : Option DocComment)

theorem path_declarationOf : Gives scope (declarationOf p comment?) fun d => d.modulePath = scope.path :=
  Gives.read (Gives.skip fun _ => Gives.pure rfl)

theorem path_variablesOf : Gives scope (variablesOf p comment?) fun vs => ∀ v ∈ vs, v.modulePath = scope.path := by
  refine Gives.read (Gives.skip fun _ => Gives.pure fun v hv => ?_)
  obtain ⟨_, _, rfl⟩ := List.mem_map.1 hv
  rfl

theorem path_functionOf : Gives scope (functionOf p comment?) fun f => f.modulePath = scope.path := by
  refine Gives.skip fun _ => Gives.bind (path_declarationOf scope p comment?) fun d hd => ?_
  extract_lets name kind withParameters
  have function : ∀ vs, Gives scope (withParameters vs) fun f => f.modulePath = scope.path := by
    intro vs
    dsimp only [withParameters]
    split
    · exact Gives.skip fun _ => Gives.pure hd
    · exact Gives.pure hd
  split
  · exact Gives.skip fun vs => function vs
  · exact function []

theorem path_structOf : Gives scope (structOf p comment?) fun a => a.modulePath = scope.path :=
  Gives.bind (path_declarationOf scope p comment?) fun _ hd => Gives.skip fun _ => Gives.pure hd

theorem path_bitstructOf : Gives scope (bitstructOf p comment?) fun b => b.modulePath = scope.path :=
  Gives.bind (path_declarationOf scope p comment?) fun _ hd => Gives.skip fun _ => Gives.skip fun _ =>
    Gives.pure hd

theorem path_enumOf : Gives scope (enumOf p comment?) fun e => e.modulePath = scope.path := by
  refine Gives.read (Gives.bind (path_declarationOf scope p comment?) fun d hd => ?_)
  extract_lets places withValues
  have enum : ∀ values, Gives scope (withValues values) fun e => e.modulePath = scope.path :=
    fun _ => Gives.skip fun _ => Gives.pure hd
  split
  · exact Gives.skip fun values => enum values
  · exact enum []

theorem path_faultConstantsBelow (fault? : Option String) :
    Gives scope (faultConstantsBelow p fault? comment?) fun cs => ∀ c ∈ cs, c.modulePath = scope.path := by
  refine Gives.read (Gives.pure fun c hc => ?_)
  obtain ⟨_, _, rfl⟩ := List.mem_map.1 hc
  rfl

theorem path_faultOf : Gives scope (faultOf p comment?) fun f => f.modulePath = scope.path := by
  refine Gives.bind (path_declarationOf scope p comment?) fun d hd => ?_
  dsimp only
  split
  · exact Gives.skip fun _ => Gives.pure hd
  · exact Gives.pure hd

theorem path_interfaceOf : Gives scope (interfaceOf p comment?) fun i => i.modulePath = scope.path := by
  refine Gives.bind (path_declarationOf scope p comment?) fun d hd => ?_
  dsimp only
  split
  · exact Gives.skip fun _ => Gives.pure hd
  · exact Gives.pure hd

theorem path_distinctOf : Gives scope (distinctOf p comment?) fun d => d.modulePath = scope.path :=
  Gives.bind (path_declarationOf scope p comment?) fun _ hd => Gives.skip fun _ => Gives.pure hd

theorem path_aliasOf : Gives scope (aliasOf p comment?) fun a => a.modulePath = scope.path := by
  refine Gives.bind (path_declarationOf scope p comment?) fun d hd => Gives.skip fun type? => ?_
  split
  · exact Gives.pure hd
  · split
    · exact Gives.pure hd
    · exact Gives.pure hd

end Outline

/-! ## Modules -/

/-- The module and all that it declares have the written path. -/
structure Module.OnPath (m : Module) (text : String) : Prop where
  own : m.modulePath.text = text
  children : ∀ s ∈ m.children, s.declaration.modulePath.text = text

/-- All modules of the unit stand under the paths of what they hold. -/
def SourceUnit.OnPath (u : SourceUnit) : Prop :=
  ∀ name m, u.module? name = some m → m.OnPath name

/-- The locations of what the module of the name declares bear the name. -/
theorem Module.OnPath.of_mem_entriesOf {m : Module} {text : String} (h : m.OnPath text) {unit : DocId}
    {l : SymbolLocation} (hl : l ∈ NameIndex.entriesOf unit m) : l.modulePath.text = text := by
  rw [NameIndex.entriesOf] at hl
  split at hl
  · exact absurd hl List.not_mem_nil
  · obtain ⟨s, hs, rfl⟩ := List.mem_map.1 hl
    rcases List.mem_cons.1 hs with rfl | child
    · exact h.own
    · exact h.children s child

namespace OutlineState

section Steps

variable {s : OutlineState}

theorem onPath_modifyModule (h : s.unit.OnPath) {f : Module → Module}
    (hf : ∀ m, m.OnPath s.scope.path.text → (f m).OnPath s.scope.path.text) : (s.modifyModule f).unit.OnPath := by
  intro name m hm
  have found : (s.unit.modules.modify s.scope.path.text f).get? name = some m := hm
  rw [Table.get?_modify] at found
  split at found
  next here =>
    obtain ⟨n, hn, rfl⟩ := Option.map_eq_some_iff.1 found
    subst here
    exact hf n (h _ n hn)
  next => exact h name m found

theorem onPath_extendRegion (h : s.unit.OnPath) (stop : Nat) : (s.extendRegion stop).unit.OnPath :=
  onPath_modifyModule h fun _ hm => ⟨hm.own, hm.children⟩

/-- What a builder yields is put into the module. -/
theorem onPath_build {α : Type} {builder : Outline α} {add : α → Module → Module} (h : s.unit.OnPath)
    (hadd : ∀ m, m.OnPath s.scope.path.text →
      (add (builder.result s.scope s.pending).1 m).OnPath s.scope.path.text) :
    (s.build builder add).unit.OnPath := by
  have built : ({ s with pending := (builder.result s.scope s.pending).2 } : OutlineState).unit.OnPath := h
  exact onPath_modifyModule built hadd

/-- A module that is declared again is left as it is. -/
theorem onPath_register {u : SourceUnit} (h : u.OnPath) {m : Module} (fresh : m.OnPath m.name)
    (nothing : ∀ k : Module, k.merge m = k) : (u.register m).OnPath := by
  intro name n hn
  rcases u.register_cases nothing with same | same
  · rw [SourceUnit.module?, same] at hn
    exact h name n hn
  · rw [SourceUnit.module?, same, Table.get?_insert] at hn
    split at hn
    next here =>
      cases hn
      exact here ▸ fresh
    next => exact h name n hn

theorem onPath_openModule (h : s.unit.OnPath) : s.openModule.unit.OnPath := by
  rw [OutlineState.openModule]
  split
  · exact h
  · exact onPath_register h ⟨rfl, fun _ hc => absurd hc List.not_mem_nil⟩
      fun k => k.merge_ofPath _ _ _ _ none [] false []

theorem onPath_declareModule (h : s.unit.OnPath) (p : Place) (comment? : Option DocComment) :
    (s.declareModule p comment?).unit.OnPath := by
  unfold OutlineState.declareModule
  split
  · exact h
  dsimp only
  split
  · exact h
  · exact onPath_register h ⟨rfl, fun _ hc => absurd hc List.not_mem_nil⟩ fun k => k.merge_ofPath _ _ _ _ _ _ _ _

theorem onPath_declare (h : s.unit.OnPath) (kind : NodeKind) (p : Place) (comment? : Option DocComment) :
    (s.declare kind p comment?).unit.OnPath := by
  refine declare_induct (P := fun t => t.unit.OnPath) h fun declares => onPath_extendRegion ?_ p.stop
  refine onPath_build h fun m hm => ⟨?_, declares.forall_children hm.children ?_⟩
  · rw [declares.toDeclaration_add]
    exact hm.own
  -- What is built is on the path.
  have text : ∀ {d : Declaration}, d.modulePath = s.scope.path → d.modulePath.text = s.scope.path.text :=
    fun same => congrArg ModulePath.text same
  cases declares with
  | function => exact List.forall_mem_singleton.2 (text (Outline.path_functionOf s.scope p comment? s.pending))
  | struct => exact List.forall_mem_singleton.2 (text (Outline.path_structOf s.scope p comment? s.pending))
  | bitstruct => exact List.forall_mem_singleton.2 (text (Outline.path_bitstructOf s.scope p comment? s.pending))
  | enum => exact List.forall_mem_singleton.2 (text (Outline.path_enumOf s.scope p comment? s.pending))
  | fault => exact List.forall_mem_singleton.2 (text (Outline.path_faultOf s.scope p comment? s.pending))
  | faultConstants =>
    exact List.forall_mem_map.2 fun c hc =>
      text (Outline.path_faultConstantsBelow s.scope p comment? none s.pending c hc)
  | distinct => exact List.forall_mem_singleton.2 (text (Outline.path_distinctOf s.scope p comment? s.pending))
  | aliased => exact List.forall_mem_singleton.2 (text (Outline.path_aliasOf s.scope p comment? s.pending))
  | interface => exact List.forall_mem_singleton.2 (text (Outline.path_interfaceOf s.scope p comment? s.pending))
  | globals =>
    exact List.forall_mem_map.2 fun v hv => text (Outline.path_variablesOf s.scope p comment? s.pending v hv)

theorem onPath_step (h : s.unit.OnPath) (previous : List Tree) (p : Place) : (s.step previous p).unit.OnPath := by
  have imports : ∀ paths, (s.openModule.modifyModule (·.addImports paths)).unit.OnPath := by
    intro paths
    refine onPath_modifyModule (onPath_openModule h) fun m hm => ?_
    obtain ⟨imports, same⟩ := m.addImports_eq paths
    rw [same]
    exact ⟨hm.own, hm.children⟩
  unfold OutlineState.step
  split
  · exact h
  · exact h
  · exact onPath_declareModule h p _
  · exact onPath_extendRegion (imports _) p.stop
  · exact onPath_declare (onPath_openModule h) _ p _

end Steps

end OutlineState

/-- The modules of an outline stand under the written paths of all that they hold. -/
theorem onPath_outline (doc : DocId) (lines : LineTable) (tree : Tree) : (outline doc lines tree).1.OnPath := by
  have read : ∀ (parts : List (List Tree × Place)) (s : OutlineState), s.unit.OnPath →
      (parts.foldl (fun s part => s.step part.1 part.2) s).unit.OnPath := by
    intro parts
    induction parts with
    | nil => exact fun _ hs => hs
    | cons part parts ih => exact fun s hs => ih _ (OutlineState.onPath_step hs part.1 part.2)
  have start : (OutlineState.start doc lines).unit.OnPath := fun _ _ hm => by cases hm
  have done := OutlineState.onPath_openModule (read (placesWithPrevious 0 [] tree.children) _ start)
  exact OutlineState.onPath_extendRegion done lines.byteSize

end C3Lens
