import C3Lens.Proofs.Outline.Declarations
import C3Lens.Proofs.Outline.Kinds
import C3Lens.Proofs.Outline.Names

/-!
# What the outline of a document records

`outline_sound`: the unit of an outline and all its pending work are those of the document, the
pending work is tidy, and each user-defined type written in a module of the unit is pending, as it
is written in that module. The reading keeps this at every step (`OutlineState.Sound`).

`declared_outline`: each module of the unit is made by putting one declaration after another into a
module without any (`Module.Declared`), so a property of modules that each declaration keeps holds of
all of them.
-/

namespace C3Lens

open TypeRef (usesOf)

theorem TypeRef.usesOf_mono {ts us : List TypeRef} (h : ts ⊆ us) : usesOf ts ⊆ usesOf us := by
  exact List.map_subset _ (List.filter_subset _ h)

/-! ## Types of a changed module -/

namespace Module

theorem types_merge_subset (m n : Module) : (m.merge n).types ⊆ m.types ++ n.types := by
  intro t
  simp only [types, merge, List.mem_append, List.mem_flatMap]
  have globals := Table.values_insertAll_subset m.globals n.globals
  have enums := Table.values_insertAll_subset m.enums n.enums
  have structs := Table.values_insertAll_subset m.structs n.structs
  have bitstructs := Table.values_insertAll_subset m.bitstructs n.bitstructs
  have aliases := Table.values_insertAll_subset m.aliases n.aliases
  have distincts := Table.values_insertAll_subset m.distincts n.distincts
  have interfaces := Table.values_insertAll_subset m.interfaces n.interfaces
  simp only [List.subset_def, List.mem_append] at *
  grind

/-- A module to which one declaration is added has the types of both. -/
theorem usesOf_types_subset {m n : Module} {ts : List TypeRef} (h : n.types ⊆ m.types ++ ts) :
    usesOf n.types ⊆ usesOf m.types ++ usesOf ts := by
  rw [← TypeRef.usesOf_append]
  exact TypeRef.usesOf_mono h

theorem types_addVariables_subset (m : Module) (vs : List Variable) :
    (m.addVariables vs).types ⊆ m.types ++ vs.flatMap Variable.types := by
  intro t
  simp only [types, addVariables, List.mem_append, List.mem_flatMap]
  have globals := Table.values_foldl_insert_subset (vs.map fun v => (v.name, v)) m.globals
  rw [List.foldl_map, List.map_map, Function.comp_def, List.map_id'] at globals
  simp only [List.subset_def, List.mem_append] at globals
  grind

/-- Imports change nothing else. -/
theorem addImports_eq (m : Module) (paths : List ModulePath) :
    ∃ imports, m.addImports paths = { m with imports := imports } := by
  induction paths generalizing m with
  | nil => exact ⟨m.imports, rfl⟩
  | cons path paths ih =>
    obtain ⟨imports, rest⟩ := ih (m.addImport path)
    refine ⟨imports, rest.trans ?_⟩
    rw [addImport]
    split <;> rfl

theorem name_addImports (m : Module) (paths : List ModulePath) : (m.addImports paths).name = m.name := by
  obtain ⟨imports, same⟩ := m.addImports_eq paths
  rw [same]

end Module

/-- A unit that a module is registered in keeps its modules under their names. -/
theorem SourceUnit.keyed_register {u : SourceUnit} (h : u.modules.KeyedBy (·.name)) (m : Module) :
    (u.register m).modules.KeyedBy (·.name) := by
  rw [register]
  split
  next k known => exact h.insert ((k.name_addImports m.imports).trans (h m.name k known))
  next => exact h.insert rfl

/-- What holds of the modules, of one more and of what it is merged into holds behind it. -/
theorem SourceUnit.forall_register {P : Module → Prop} {u : SourceUnit} {m : Module}
    (h : ∀ k ∈ u.modules.values, P k) (new : P m)
    (merged : ∀ k, u.modules.get? m.name = some k → P k → P (k.merge m)) :
    ∀ k ∈ (u.register m).modules.values, P k := by
  rw [register]
  cases known : u.modules.get? m.name with
  | none => exact Table.forall_values_insert h new
  | some k => exact Table.forall_values_insert h (merged k known (h k (Table.mem_values_iff.2 ⟨_, known⟩)))

/-- A module that adds nothing to one that is there comes into a unit where none has its name. -/
theorem SourceUnit.register_cases (u : SourceUnit) {m : Module} (nothing : ∀ k : Module, k.merge m = k) :
    (u.register m).modules = u.modules ∨ (u.register m).modules = u.modules.insert m.name m := by
  rw [register]
  cases known : u.modules.get? m.name with
  | none => exact .inr rfl
  | some k =>
    left
    dsimp only
    rw [nothing, Table.insert_get? known]

/-! ## Steps of the reading -/

namespace OutlineState

/-- What holds of the state at every point of the document. -/
structure Sound (s : OutlineState) (doc : DocId) : Prop where
  scope : s.scope.doc = doc
  unit : s.unit.doc = doc
  tidy : s.pending.Tidy
  own : s.pending.BelongsTo doc
  covers : ∀ name m, s.unit.module? name = some m → s.pending.Covers doc name (usesOf m.types)

section Steps

variable {s : OutlineState} {doc : DocId}

theorem sound_start (doc : DocId) (lines : LineTable) : (start doc lines).Sound doc := by
  refine ⟨rfl, rfl, Pending.tidy_empty, ⟨?_, ?_⟩, ?_⟩
  · intro t ht
    cases ht
  · intro i hi
    cases hi
  · intro name m hm
    cases hm

/-- A change of the module that writes no types but those of covered uses. -/
theorem Sound.modifyModule (h : s.Sound doc) {f : Module → Module} {us : List (String × String)}
    (covered : s.pending.Covers doc s.scope.moduleName us)
    (hf : ∀ m, usesOf (f m).types ⊆ usesOf m.types ++ us) : (s.modifyModule f).Sound doc := by
  refine ⟨h.scope, h.unit, h.tidy, h.own, fun name m hm => ?_⟩
  have found : (s.unit.modules.modify s.scope.moduleName f).get? name = some m := hm
  rw [Table.get?_modify] at found
  split at found
  next here =>
    obtain ⟨n, hn, rfl⟩ := Option.map_eq_some_iff.1 found
    subst here
    exact (Pending.covers_append.2 ⟨h.covers _ n hn, covered⟩).subset (hf n)
  next => exact h.covers name m found

theorem Sound.extendRegion (h : s.Sound doc) (stop : Nat) : (s.extendRegion stop).Sound doc :=
  h.modifyModule Pending.covers_nil fun _ => List.subset_append_left _ _

theorem Sound.build {α : Type} {builder : Outline α} {add : α → Module → Module}
    {f : α → List (String × String)} (h : s.Sound doc) (hb : Outline.Yields s.scope [] builder f)
    (hadd : ∀ a m, usesOf (add a m).types ⊆ usesOf m.types ++ f a) : (s.build builder add).Sound doc := by
  obtain ⟨grows, covers⟩ := hb s.pending Pending.covers_nil
  rw [h.scope] at grows covers
  have built : ({ s with pending := (builder.result s.scope s.pending).2 } : OutlineState).Sound doc :=
    ⟨h.scope, h.unit, grows.tidy h.tidy, grows.belongsTo h.own,
      fun name m hm => (h.covers name m hm).grow grows.types_subset⟩
  exact built.modifyModule covers (hadd _)

/-- A module that writes no types comes into the unit. -/
theorem covers_register {u : SourceUnit} {p : Pending} {m : Module} (none : m.types = [])
    (h : ∀ name n, u.module? name = some n → p.Covers doc name (usesOf n.types)) (name : String)
    (n : Module) (hn : (u.register m).module? name = some n) : p.Covers doc name (usesOf n.types) := by
  rw [SourceUnit.register, SourceUnit.module?] at hn
  cases known : u.modules.get? m.name with
  | none =>
    rw [known] at hn
    have found : (u.modules.insert m.name m).get? name = some n := hn
    rw [Table.get?_insert] at found
    split at found
    · cases found
      rw [none]
      exact Pending.covers_nil
    · exact h name n found
  | some k =>
    rw [known] at hn
    have found : (u.modules.insert m.name (k.merge m)).get? name = some n := hn
    rw [Table.get?_insert] at found
    split at found
    next here =>
      cases found
      subst here
      refine (h m.name k known).subset (TypeRef.usesOf_mono ?_)
      have merged := Module.types_merge_subset k m
      rwa [none, List.append_nil] at merged
    next => exact h name n found

theorem doc_register (u : SourceUnit) (m : Module) : (u.register m).doc = u.doc := by
  rw [SourceUnit.register]
  split
  · rfl
  · rfl

theorem Sound.openModule (h : s.Sound doc) : s.openModule.Sound doc := by
  rw [OutlineState.openModule]
  split
  · exact h
  · refine ⟨h.scope, (doc_register _ _).trans h.unit, h.tidy, h.own, ?_⟩
    exact covers_register rfl h.covers

theorem Sound.declareModule (h : s.Sound doc) (p : Place) (comment? : Option DocComment) :
    (s.declareModule p comment?).Sound doc := by
  unfold OutlineState.declareModule
  split
  · exact h
  dsimp only
  split
  · exact h
  · refine ⟨h.scope, (doc_register _ _).trans h.unit, h.tidy, h.own, ?_⟩
    exact covers_register rfl h.covers

theorem Sound.declare (h : s.Sound doc) (kind : NodeKind) (p : Place) (comment? : Option DocComment) :
    (s.declare kind p comment?).Sound doc := by
  refine declare_induct (P := fun t => t.Sound doc) h fun declares => Sound.extendRegion ?_ p.stop
  cases declares with
  | function =>
    refine h.build (Outline.yields_functionOf _ _ p comment?) fun f m => Module.usesOf_types_subset fun t ht => ?_
    simp only [Module.types, List.mem_append, List.flatMap_append] at *
    grind
  | struct =>
    refine h.build (Outline.yields_structOf _ _ p comment?) fun a m => Module.usesOf_types_subset fun t ht => ?_
    have inserted := Table.flatMap_insert_subset m.structs a.name a Aggregate.types
    simp only [Module.types, List.mem_append, List.subset_def] at *
    grind
  | bitstruct =>
    refine h.build (Outline.yields_bitstructOf _ _ p comment?) fun b m => Module.usesOf_types_subset fun t ht => ?_
    have inserted := Table.flatMap_insert_subset m.bitstructs b.name b Bitstruct.types
    simp only [Module.types, List.mem_append, List.subset_def] at *
    grind
  | enum =>
    refine h.build (Outline.yields_enumOf _ _ p comment?) fun e m => Module.usesOf_types_subset fun t ht => ?_
    have inserted := Table.flatMap_insert_subset m.enums e.name e Enum.types
    simp only [Module.types, List.mem_append, List.subset_def] at *
    grind
  | fault => exact h.build (Outline.yields_faultOf _ _ p comment?) fun f m => List.subset_append_left _ _
  | faultConstants =>
    exact h.build (Outline.yields_faultConstantsBelow _ _ p none comment?) fun cs m => List.subset_append_left _ _
  | distinct =>
    refine h.build (Outline.yields_distinctOf _ _ p comment?) fun d m => Module.usesOf_types_subset fun t ht => ?_
    have inserted := Table.flatMap_insert_subset m.distincts d.name d Distinct.types
    simp only [Module.types, List.mem_append, List.subset_def] at *
    grind
  | aliased =>
    refine h.build (Outline.yields_aliasOf _ _ p comment?) fun a m => Module.usesOf_types_subset fun t ht => ?_
    have inserted := Table.flatMap_insert_subset m.aliases a.name a Alias.types
    simp only [Module.types, List.mem_append, List.subset_def] at *
    grind
  | interface =>
    refine h.build (Outline.yields_interfaceOf _ _ p comment?) fun i m => Module.usesOf_types_subset fun t ht => ?_
    have inserted := Table.flatMap_insert_subset m.interfaces i.name i Interface.types
    simp only [Module.types, List.mem_append, List.subset_def] at *
    grind
  | globals =>
    exact h.build (Outline.yields_variablesOf _ _ p comment?) fun vs m =>
      Module.usesOf_types_subset (Module.types_addVariables_subset m vs)

theorem Sound.step (h : s.Sound doc) (previous : List Tree) (p : Place) : (s.step previous p).Sound doc := by
  have imports : ∀ paths, (s.openModule.modifyModule (·.addImports paths)).Sound doc := by
    intro paths
    refine h.openModule.modifyModule Pending.covers_nil fun m => ?_
    obtain ⟨_, same⟩ := m.addImports_eq paths
    rw [same]
    exact List.subset_append_left _ _
  unfold OutlineState.step
  split
  · exact h
  · exact h
  · exact h.declareModule p _
  · exact (imports _).extendRegion p.stop
  · exact h.openModule.declare _ p _

end Steps

end OutlineState

/-- The outline of a document is that document's alone, and each user-defined type it writes is
pending in it as written. -/
theorem outline_sound (doc : DocId) (lines : LineTable) (tree : Tree) :
    (outline doc lines tree).1.doc = doc ∧ (outline doc lines tree).2.Tidy ∧
      (outline doc lines tree).2.BelongsTo doc ∧
      ∀ name m, (outline doc lines tree).1.module? name = some m →
        (outline doc lines tree).2.Covers doc name (usesOf m.types) := by
  have read : ∀ (parts : List (List Tree × Place)) (s : OutlineState), s.Sound doc →
      (parts.foldl (fun s part => s.step part.1 part.2) s).Sound doc := by
    intro parts
    induction parts with
    | nil => exact fun s hs => hs
    | cons part parts ih => exact fun s hs => ih _ (hs.step part.1 part.2)
  have done := (read (placesWithPrevious 0 [] tree.children) _
    (OutlineState.sound_start doc lines)).openModule.extendRegion lines.byteSize
  exact ⟨done.unit, done.tidy, done.own, done.covers⟩

/-! ## Declarations -/

/-- What is read into an outline: a tree, and the document and lines that its places belong to. -/
structure Source where
  doc : DocId
  lines : LineTable
  root : Place

/-- The modules that a document can declare: they begin without declarations, and one declaration
after another is put into them. The tree of the document names the declarations, and it spells the
names of what stands inside of them. -/
inductive Module.Declared (src : Source) : Module → Prop where
  | start (path : ModulePath) (nameRange range : Range) (comment? : Option DocComment)
      (generics : List String) (isPrivate : Bool) (attributes : List String) :
      Declared src { Module.ofPath path src.doc nameRange range with
        comment? := comment?, genericParameters := generics, isPrivate := isPrivate,
        attributes := attributes }
  | range {m : Module} (h : Declared src m) (range : Range) : Declared src { m with range := range }
  | imports {m : Module} (h : Declared src m) (imports : List ModulePath) :
      Declared src { m with imports := imports }
  | function {m : Module} (h : Declared src m) (f : Function) (vs : List Variable)
      (parameters : f.parameters = .ofList (vs.map fun v => (v.name, v)))
      (named : f.NamedIn src.root src.lines) : Declared src { m with functions := m.functions ++ [f] }
  | struct {m : Module} (h : Declared src m) (a : Struct) (own : a.doc = src.doc)
      (named : a.toDeclaration.NamedIn src.root src.lines)
      (members : SpelledMembers a.members src.root src.lines) :
      Declared src { m with structs := m.structs.insert a.name a }
  | bitstruct {m : Module} (h : Declared src m) (b : Bitstruct)
      (named : b.toDeclaration.NamedIn src.root src.lines)
      (members : SpelledMembers b.members src.root src.lines) :
      Declared src { m with bitstructs := m.bitstructs.insert b.name b }
  | enum {m : Module} (h : Declared src m) (e : Enum)
      (named : e.toDeclaration.NamedIn src.root src.lines)
      (enumerators : ∀ v ∈ e.enumerators, v.toDeclaration.SpelledIn src.root src.lines) :
      Declared src { m with enums := m.enums.insert e.name e }
  | fault {m : Module} (h : Declared src m) (f : Fault)
      (named : f.toDeclaration.NamedIn src.root src.lines)
      (constants : ∀ c ∈ f.constants, c.toDeclaration.SpelledIn src.root src.lines) :
      Declared src { m with faults := m.faults.insert f.name f }
  | faultConstants {m : Module} (h : Declared src m) (cs : List FaultConstant)
      (named : ∀ c ∈ cs, c.toDeclaration.NamedIn src.root src.lines) :
      Declared src (m.addFaultConstants cs)
  | aliased {m : Module} (h : Declared src m) (a : Alias)
      (named : a.toDeclaration.NamedIn src.root src.lines) :
      Declared src { m with aliases := m.aliases.insert a.name a }
  | distinct {m : Module} (h : Declared src m) (d : Distinct)
      (named : d.toDeclaration.NamedIn src.root src.lines) :
      Declared src { m with distincts := m.distincts.insert d.name d }
  | interface {m : Module} (h : Declared src m) (i : Interface) (fs : List Function)
      (named : i.toDeclaration.NamedIn src.root src.lines)
      (methods : i.methods = .ofList (fs.map fun f => (f.name, f)))
      (functions : ∀ f ∈ fs, f.NamedIn src.root src.lines) :
      Declared src { m with interfaces := m.interfaces.insert i.name i }
  | globals {m : Module} (h : Declared src m) (vs : List Variable)
      (named : ∀ v ∈ vs, src.root.Names src.lines v.name v.nameRange) : Declared src (m.addVariables vs)

/-- A module without declarations adds nothing to another one. -/
theorem Module.merge_ofPath (k : Module) (path : ModulePath) (doc : DocId) (nameRange range : Range)
    (comment? : Option DocComment) (generics : List String) (isPrivate : Bool) (attributes : List String) :
    k.merge { Module.ofPath path doc nameRange range with
      comment? := comment?, genericParameters := generics, isPrivate := isPrivate,
      attributes := attributes } = k := by
  show ({ k with functions := k.functions ++ [] } : Module) = k
  rw [List.append_nil]

namespace Outline

theorem parameters_functionOf (p : Place) (comment? : Option DocComment) (scope : Scope) (q : Pending) :
    ∃ vs : List Variable, ((functionOf p comment?).result scope q).1.parameters =
      .ofList (vs.map fun v => (v.name, v)) := by
  unfold functionOf
  cases p.child? .paramList <;> cases p.child? .block <;> exact ⟨_, rfl⟩

end Outline

namespace OutlineState

/-- The modules of the unit stand under their names and are made of declarations of the document. -/
structure Declared (s : OutlineState) (src : Source) : Prop where
  doc : s.scope.doc = src.doc
  lines : s.scope.lines = src.lines
  keyed : s.unit.modules.KeyedBy (·.name)
  modules : ∀ name m, s.unit.module? name = some m → m.Declared src

section Steps

variable {s : OutlineState} {src : Source}

theorem Declared.modifyModule (h : s.Declared src) {f : Module → Module} (name : ∀ m, (f m).name = m.name)
    (hf : ∀ m, m.Declared src → (f m).Declared src) : (s.modifyModule f).Declared src := by
  refine ⟨h.doc, h.lines, h.keyed.modify _ name, fun name m hm => ?_⟩
  have found : (s.unit.modules.modify s.scope.moduleName f).get? name = some m := hm
  rw [Table.get?_modify] at found
  split at found
  · obtain ⟨n, hn, rfl⟩ := Option.map_eq_some_iff.1 found
    exact hf n (h.modules name n hn)
  · exact h.modules name m found

theorem Declared.extendRegion (h : s.Declared src) (stop : Nat) : (s.extendRegion stop).Declared src :=
  h.modifyModule (fun _ => rfl) fun _ hm => hm.range _

/-- What a builder yields is put into the module. -/
theorem Declared.build {α : Type} {builder : Outline α} {add : α → Module → Module}
    (h : s.Declared src) (name : ∀ a m, (add a m).name = m.name)
    (hadd : ∀ m, m.Declared src → (add (builder.result s.scope s.pending).1 m).Declared src) :
    (s.build builder add).Declared src := by
  have built : ({ s with pending := (builder.result s.scope s.pending).2 } : OutlineState).Declared src :=
    ⟨h.doc, h.lines, h.keyed, h.modules⟩
  exact built.modifyModule (name _) hadd

theorem Declared.register (h : s.Declared src) {m : Module} (fresh : m.Declared src)
    (nothing : ∀ k : Module, k.merge m = k) (name : String) (n : Module)
    (hn : (s.unit.register m).module? name = some n) : n.Declared src := by
  rcases s.unit.register_cases nothing with same | same
  · rw [SourceUnit.module?, same] at hn
    exact h.modules name n hn
  · rw [SourceUnit.module?, same, Table.get?_insert] at hn
    split at hn
    · cases hn
      exact fresh
    · exact h.modules name n hn

theorem Declared.openModule (h : s.Declared src) : s.openModule.Declared src := by
  rw [OutlineState.openModule]
  split
  · exact h
  · refine ⟨h.doc, h.lines, SourceUnit.keyed_register h.keyed _, h.register ?_ ?_⟩
    · rw [h.doc]
      exact .start _ _ _ none [] false []
    · exact fun k => k.merge_ofPath _ _ _ _ none [] false []

theorem Declared.declareModule (h : s.Declared src) (p : Place) (comment? : Option DocComment) :
    (s.declareModule p comment?).Declared src := by
  unfold OutlineState.declareModule
  split
  · exact h
  dsimp only
  split
  · exact h
  · refine ⟨h.doc, h.lines, SourceUnit.keyed_register h.keyed _, h.register ?_ ?_⟩
    · rw [h.doc]
      exact .start _ _ _ _ _ _ _
    · exact fun k => k.merge_ofPath _ _ _ _ _ _ _ _

theorem Declared.declare (h : s.Declared src) (kind : NodeKind) {p : Place}
    (below : p.descendants ⊆ src.root.descendants) (comment? : Option DocComment) :
    (s.declare kind p comment?).Declared src := by
  refine declare_induct (P := fun t => t.Declared src) h fun declares => Declared.extendRegion ?_ p.stop
  refine h.build (fun a m => congrArg Declaration.name (declares.toDeclaration_add a m)) fun m hm => ?_
  cases declares with
  | function =>
    obtain ⟨vs, parameters⟩ := Outline.parameters_functionOf p comment? s.scope s.pending
    have named := Outline.named_functionOf s.scope below comment? s.pending
    exact hm.function _ vs parameters (h.lines ▸ named)
  | struct =>
    have named := Outline.named_structOf s.scope below comment? s.pending
    have members := Outline.gives_structOf s.scope below comment? s.pending
    exact hm.struct _ h.doc (h.lines ▸ named) (h.lines ▸ members)
  | bitstruct =>
    have named := Outline.named_bitstructOf s.scope below comment? s.pending
    have members := Outline.gives_bitstructOf s.scope below comment? s.pending
    exact hm.bitstruct _ (h.lines ▸ named) (h.lines ▸ members)
  | enum =>
    have named := Outline.named_enumOf s.scope below comment? s.pending
    have enumerators := Outline.gives_enumOf s.scope below comment? s.pending
    exact hm.enum _ (h.lines ▸ named) (h.lines ▸ enumerators)
  | fault =>
    have named := Outline.named_faultOf s.scope below comment? s.pending
    have constants := Outline.gives_faultOf s.scope below comment? s.pending
    exact hm.fault _ (h.lines ▸ named) (h.lines ▸ constants)
  | faultConstants =>
    have named := Outline.named_faultConstantsBelow s.scope below none comment? s.pending
    exact hm.faultConstants _ (h.lines ▸ named)
  | distinct =>
    have named := Outline.named_distinctOf s.scope below comment? s.pending
    exact hm.distinct _ (h.lines ▸ named)
  | aliased =>
    have named := Outline.named_aliasOf s.scope below comment? s.pending
    exact hm.aliased _ (h.lines ▸ named)
  | interface =>
    obtain ⟨fs, methods, functions⟩ := Outline.gives_interfaceOf s.scope below comment? s.pending
    have named := Outline.named_interfaceOf s.scope below comment? s.pending
    exact hm.interface _ fs (h.lines ▸ named) methods (h.lines ▸ functions)
  | globals =>
    have named := Outline.named_variablesOf s.scope below comment? s.pending
    exact hm.globals _ (h.lines ▸ named)

theorem Declared.step (h : s.Declared src) (previous : List Tree) {p : Place}
    (below : p.descendants ⊆ src.root.descendants) : (s.step previous p).Declared src := by
  have imports : ∀ paths, (s.openModule.modifyModule (·.addImports paths)).Declared src := by
    intro paths
    refine h.openModule.modifyModule (fun m => m.name_addImports paths) fun m hm => ?_
    obtain ⟨imports, same⟩ := m.addImports_eq paths
    rw [same]
    exact hm.imports imports
  unfold OutlineState.step
  split
  · exact h
  · exact h
  · exact h.declareModule p _
  · exact (imports _).extendRegion p.stop
  · exact h.openModule.declare _ below _

end Steps

end OutlineState

/-- The modules of an outline stand under their names and are made of declarations of the document. -/
theorem declared_outline (doc : DocId) (lines : LineTable) (tree : Tree) :
    (outline doc lines tree).1.modules.KeyedBy (·.name) ∧
      ∀ name m, (outline doc lines tree).1.module? name = some m → m.Declared ⟨doc, lines, ⟨0, tree⟩⟩ := by
  have read : ∀ (parts : List (List Tree × Place)) (s : OutlineState), s.Declared ⟨doc, lines, ⟨0, tree⟩⟩ →
      (∀ part ∈ parts, part.2.descendants ⊆ Place.descendants ⟨0, tree⟩) →
      (parts.foldl (fun s part => s.step part.1 part.2) s).Declared ⟨doc, lines, ⟨0, tree⟩⟩ := by
    intro parts
    induction parts with
    | nil => exact fun s hs _ => hs
    | cons part parts ih =>
      intro s hs below
      exact ih _ (hs.step part.1 (below part List.mem_cons_self))
        fun q hq => below q (List.mem_cons_of_mem _ hq)
  have start : (OutlineState.start doc lines).Declared ⟨doc, lines, ⟨0, tree⟩⟩ := by
    refine ⟨rfl, rfl, Table.keyedBy_empty, fun name m hm => ?_⟩
    cases hm
  have parts := read (placesWithPrevious 0 [] tree.children) _ start fun part hp =>
    List.Subset.trans (Outline.placesWithPrevious_subset hp) (Place.descendants_of_children ⟨0, tree⟩)
  have done := parts.openModule.extendRegion lines.byteSize
  exact ⟨done.keyed, done.modules⟩

/-- The structs of an outline are those of its document. -/
theorem structs_outline {doc : DocId} {lines : LineTable} {tree : Tree} {name key : String} {m : Module}
    {a : Struct} (hm : (outline doc lines tree).1.module? name = some m)
    (ha : m.structs.get? key = some a) : a.doc = doc := by
  have declared := (declared_outline doc lines tree).2 name m hm
  clear hm
  induction declared with
  | start => cases ha
  | struct _ b own _ _ ih =>
    rw [Table.get?_insert] at ha
    split at ha
    · cases ha
      exact own
    · exact ih ha
  | _ =>
    -- All other declarations leave the structs as they are.
    rename_i ih
    exact ih ha

end C3Lens
