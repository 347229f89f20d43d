import C3Lens.Proofs.Symbol.Spelling

/-!
# What holds of all declarations of an outline

`forall_children_outline`: if every builder yields symbols with a property, at every place of a tree, then
all declarations in the modules of the outline have it. The reading puts what the builders yield into modules
and moves nothing else between them, so one step lemma (`AllChildren.step`) serves for every property.
-/

namespace C3Lens

/-- All declarations of the modules of the unit have the property. -/
def SourceUnit.AllChildren (Q : Symbol → Prop) (u : SourceUnit) : Prop :=
  ∀ m ∈ u.modules.values, ∀ x ∈ m.children, Q x

namespace Outline

/-- What the builders yield at a place has the property. -/
structure Builds (Q : Symbol → Prop) (scope : Scope) (p : Place) : Prop where
  function : ∀ comment?, Gives scope (functionOf p comment?) fun f => Q (.function f)
  struct : ∀ comment?, Gives scope (structOf p comment?) fun a => Q (.aggregate a)
  bitstruct : ∀ comment?, Gives scope (bitstructOf p comment?) fun b => Q (.bitstruct b)
  enum : ∀ comment?, Gives scope (enumOf p comment?) fun e => Q (.enum e)
  fault : ∀ comment?, Gives scope (faultOf p comment?) fun f => Q (.fault f)
  faultConstants : ∀ comment?, Gives scope (faultConstantsBelow p none comment?) fun cs =>
    ∀ c ∈ cs, Q (.faultConstant c)
  aliased : ∀ comment?, Gives scope (aliasOf p comment?) fun a => Q (.alias a)
  distinct : ∀ comment?, Gives scope (distinctOf p comment?) fun d => Q (.distinct d)
  interface : ∀ comment?, Gives scope (interfaceOf p comment?) fun i => Q (.interface i)
  globals : ∀ comment?, Gives scope (variablesOf p comment?) fun vs => ∀ v ∈ vs, Q (.variable v)

end Outline

namespace OutlineState

variable {Q : Symbol → Prop} {s : OutlineState}

theorem allChildren_modifyModule (h : s.unit.AllChildren Q) {f : Module → Module}
    (hf : ∀ m : Module, (∀ x ∈ m.children, Q x) → ∀ x ∈ (f m).children, Q x) :
    (s.modifyModule f).unit.AllChildren Q := by
  intro m hm
  obtain ⟨name, found⟩ := Table.mem_values_iff.1 hm
  have found : (s.unit.modules.modify s.scope.moduleName f).get? name = some m := found
  rw [Table.get?_modify] at found
  split at found
  · obtain ⟨n, hn, rfl⟩ := Option.map_eq_some_iff.1 found
    exact hf n (h n (Table.mem_values_iff.2 ⟨name, hn⟩))
  · exact h m (Table.mem_values_iff.2 ⟨name, found⟩)

theorem allChildren_extendRegion (h : s.unit.AllChildren Q) (stop : Nat) :
    (s.extendRegion stop).unit.AllChildren Q :=
  allChildren_modifyModule h fun _ hm => hm

/-- What a builder yields is put into the module. -/
theorem allChildren_build {α : Type} {builder : Outline α} {add : α → Module → Module} {P : α → Prop}
    (h : s.unit.AllChildren Q) (gives : Outline.Gives s.scope builder P)
    (hadd : ∀ a (m : Module), P a → (∀ x ∈ m.children, Q x) → ∀ x ∈ (add a m).children, Q x) :
    (s.build builder add).unit.AllChildren Q :=
  allChildren_modifyModule (s := { s with pending := (builder.result s.scope s.pending).2 }) h
    fun m hm => hadd _ m (gives s.pending) hm

/-- A module without declarations comes into the unit. -/
theorem allChildren_register {u : SourceUnit} (h : u.AllChildren Q) {m : Module} (none : m.children = [])
    (nothing : ∀ k : Module, k.merge m = k) : (u.register m).AllChildren Q := by
  refine SourceUnit.forall_register h ?_ fun k _ hk => (nothing k).symm ▸ hk
  rw [none]
  exact fun x hx => absurd hx List.not_mem_nil

theorem allChildren_openModule (h : s.unit.AllChildren Q) : s.openModule.unit.AllChildren Q := by
  rw [openModule]
  split
  · exact h
  · exact allChildren_register h rfl fun k => k.merge_ofPath _ _ _ _ none [] false []

theorem allChildren_declareModule (h : s.unit.AllChildren Q) (p : Place) (comment? : Option DocComment) :
    (s.declareModule p comment?).unit.AllChildren Q := by
  unfold declareModule
  split
  · exact h
  dsimp only
  split
  · exact h
  · exact allChildren_register h rfl fun k => k.merge_ofPath _ _ _ _ _ _ _ _

theorem allChildren_declare (h : s.unit.AllChildren Q) (kind : NodeKind) {p : Place}
    (builds : Outline.Builds Q s.scope p) (comment? : Option DocComment) :
    (s.declare kind p comment?).unit.AllChildren Q := by
  refine declare_induct (P := fun t => t.unit.AllChildren Q) h fun declares => allChildren_extendRegion ?_ p.stop
  refine allChildren_build h ?_ fun a m new old => declares.forall_children old new
  intro q
  cases declares with
  | function => exact List.forall_mem_singleton.2 (builds.function comment? q)
  | struct => exact List.forall_mem_singleton.2 (builds.struct comment? q)
  | bitstruct => exact List.forall_mem_singleton.2 (builds.bitstruct comment? q)
  | enum => exact List.forall_mem_singleton.2 (builds.enum comment? q)
  | fault => exact List.forall_mem_singleton.2 (builds.fault comment? q)
  | faultConstants => exact List.forall_mem_map.2 (builds.faultConstants comment? q)
  | distinct => exact List.forall_mem_singleton.2 (builds.distinct comment? q)
  | aliased => exact List.forall_mem_singleton.2 (builds.aliased comment? q)
  | interface => exact List.forall_mem_singleton.2 (builds.interface comment? q)
  | globals => exact List.forall_mem_map.2 (builds.globals comment? q)

theorem scope_openModule (s : OutlineState) : s.openModule.scope = s.scope := by
  rw [openModule]
  split
  · rfl
  · rfl

/-- The lines of the document stay the same. -/
theorem lines_step (s : OutlineState) (previous : List Tree) (p : Place) :
    (s.step previous p).scope.lines = s.scope.lines := by
  have declare : ∀ (t : OutlineState) kind comment?, (t.declare kind p comment?).scope = t.scope := by
    intro t kind comment?
    exact declare_induct (P := fun t' => t'.scope = t.scope) rfl fun _ => rfl
  unfold step
  split
  · rfl
  · rfl
  · unfold declareModule
    split
    · rfl
    dsimp only
    split
    · rfl
    · rfl
  · exact congrArg Scope.lines s.scope_openModule
  · rw [declare]
    exact congrArg Scope.lines s.scope_openModule

theorem allChildren_step (h : s.unit.AllChildren Q) (previous : List Tree) {p : Place}
    (builds : ∀ scope, scope.lines = s.scope.lines → Outline.Builds Q scope p) :
    (s.step previous p).unit.AllChildren Q := by
  unfold step
  split
  · exact h
  · exact h
  · exact allChildren_declareModule h p _
  · apply allChildren_extendRegion
    refine allChildren_modifyModule (allChildren_openModule h) fun m hm => ?_
    obtain ⟨imports, same⟩ := m.addImports_eq (importsOf p)
    rw [same]
    exact hm
  · apply allChildren_declare (allChildren_openModule h)
    apply builds
    exact congrArg Scope.lines s.scope_openModule

end OutlineState

/-- What the builders yield at all places of a tree holds of all declarations of the outline. -/
theorem forall_children_outline {Q : Symbol → Prop} (doc : DocId) {lines : LineTable} {tree : Tree}
    (builds : ∀ scope p, scope.lines = lines → p.descendants ⊆ Place.descendants ⟨0, tree⟩ →
      Outline.Builds Q scope p) : (outline doc lines tree).1.AllChildren Q := by
  have read : ∀ (parts : List (List Tree × Place)) (s : OutlineState), s.unit.AllChildren Q →
      s.scope.lines = lines → (∀ part ∈ parts, part.2.descendants ⊆ Place.descendants ⟨0, tree⟩) →
      (parts.foldl (fun s part => s.step part.1 part.2) s).unit.AllChildren Q := by
    intro parts
    induction parts with
    | nil => exact fun s hs _ _ => hs
    | cons part parts ih =>
      intro s hs same below
      rw [List.forall_mem_cons] at below
      apply ih
      · apply OutlineState.allChildren_step hs
        intro scope own
        exact builds scope part.2 (own.trans same) below.1
      · rw [OutlineState.lines_step, same]
      · exact below.2
  have start : (OutlineState.start doc lines).unit.AllChildren Q := fun m hm => absurd hm List.not_mem_nil
  have parts := read (placesWithPrevious 0 [] tree.children) _ start rfl fun part hp =>
    List.Subset.trans (Outline.placesWithPrevious_subset hp) (Place.descendants_of_children ⟨0, tree⟩)
  exact OutlineState.allChildren_extendRegion (OutlineState.allChildren_openModule parts) lines.byteSize

end C3Lens
