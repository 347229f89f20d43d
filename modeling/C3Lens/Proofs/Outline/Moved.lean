import C3Lens.Proofs.NameQuery
import C3Lens.Proofs.Outline.Moves
import C3Lens.Proofs.Outline.Unit

/-!
# The outline under another id

A text that is read under another id gives the same symbols with the other id and the same pending
work, if it gives modules of the same names (`outline_setDoc`). The name of a file names the module of
what stands before the first module declaration, so a text that begins with a module declaration has the
same outline under every id (`OutlineState.read_setPath`).
-/

namespace C3Lens

/-! ## Modules and units -/

namespace Module

variable (doc : DocId) (m n : Module)

theorem setDoc_addImports (paths : List ModulePath) :
    (m.addImports paths).setDoc doc = (m.setDoc doc).addImports paths := by
  induction paths generalizing m with
  | nil => rfl
  | cons path paths ih =>
    refine (ih (m.addImport path)).trans (congrArg (addImports · paths) ?_)
    exact apply_ite (setDoc doc) (m.imports.contains path = true) m { m with imports := m.imports ++ [path] }

theorem setDoc_addVariables (vs : List Variable) :
    (m.addVariables vs).setDoc doc = (m.setDoc doc).addVariables (vs.map (Variable.setDoc doc)) := by
  have globals := @Table.map_foldl_insert _ _ (Variable.setDoc doc) (·.name) (·.name) (fun _ => rfl) vs m.globals
  exact congrArg (fun t => { m.setDoc doc with globals := t }) globals

theorem setDoc_addFaultConstants (cs : List FaultConstant) :
    (m.addFaultConstants cs).setDoc doc =
      (m.setDoc doc).addFaultConstants (cs.map (FaultConstant.setDoc doc)) := by
  have constants := @Table.map_foldl_insert _ _ (FaultConstant.setDoc doc) (·.name) (·.name) (fun _ => rfl) cs
    m.faultConstants
  exact congrArg (fun t => { m.setDoc doc with faultConstants := t }) constants

end Module

namespace SourceUnit

variable (doc : DocId) (u : SourceUnit)

theorem setDoc_modify {f g : Module → Module} (hf : ∀ m, (f m).setDoc doc = g (m.setDoc doc)) (name : String) :
    (u.modify name f).setDoc doc = (u.setDoc doc).modify name g :=
  congrArg (SourceUnit.mk doc) (Table.map_modify_comm hf u.modules name)

/-- A module without declarations comes into the unit. -/
theorem setDoc_register {m : Module} (nothing : ∀ k : Module, k.merge m = k)
    (moved : ∀ k : Module, k.merge (m.setDoc doc) = k) :
    (u.register m).setDoc doc = (u.setDoc doc).register (m.setDoc doc) := by
  have found : (u.setDoc doc).modules.get? (m.setDoc doc).name = (u.modules.get? m.name).map (·.setDoc doc) :=
    Table.get?_map _ _ _
  rw [register, register, found]
  cases u.modules.get? m.name with
  | none => exact congrArg (SourceUnit.mk doc) (Table.map_insert _ _ _ _)
  | some known =>
    rw [Option.map_some]
    dsimp only
    rw [nothing, moved]
    exact congrArg (SourceUnit.mk doc) (Table.map_insert _ _ _ _)

end SourceUnit

/-! ## The reading -/

namespace OutlineState

/-- The state as that of another document. -/
def setDoc (doc : DocId) (s : OutlineState) : OutlineState :=
  { s with
    scope := { s.scope with doc := doc }
    unit := s.unit.setDoc doc
    pending := s.pending.setDoc doc }

section Steps

variable {s : OutlineState} (doc : DocId)

theorem setDoc_modifyModule {f g : Module → Module} (hf : ∀ m, (f m).setDoc doc = g (m.setDoc doc)) :
    (s.modifyModule f).setDoc doc = (s.setDoc doc).modifyModule g := by
  rw [modifyModule, setDoc, SourceUnit.setDoc_modify doc _ hf]
  rfl

theorem setDoc_extendRegion (stop : Nat) :
    (s.extendRegion stop).setDoc doc = (s.setDoc doc).extendRegion stop :=
  setDoc_modifyModule doc fun _ => rfl

theorem build_eq {α : Type} (s : OutlineState) (builder : Outline α) (add : α → Module → Module) :
    s.build builder add = ({ s with pending := (builder.result s.scope s.pending).2 }).modifyModule
      (add (builder.result s.scope s.pending).1) := rfl

theorem setDoc_build {α : Type} {builder : Outline α} {add : α → Module → Module} {f : α → α}
    (own : s.pending.BelongsTo s.scope.doc) (hb : Outline.Moves s.scope doc f builder builder)
    (hadd : ∀ a m, (add a m).setDoc doc = add (f a) (m.setDoc doc)) :
    (s.build builder add).setDoc doc = (s.setDoc doc).build builder add := by
  have moved : builder.result (s.setDoc doc).scope (s.setDoc doc).pending = _ := (hb s.pending own).2
  rw [build_eq, build_eq, moved]
  exact setDoc_modifyModule doc (hadd _)

/-- A module without declarations comes into the unit of the state. -/
theorem setDoc_registered {m : Module} (nothing : ∀ k : Module, k.merge m = k)
    (moved : ∀ k : Module, k.merge (m.setDoc doc) = k) (scope : Scope) (regionStart : Position) :
    setDoc doc ⟨scope, s.unit.register m, s.pending, true, regionStart⟩ =
      ⟨{ scope with doc := doc }, (s.unit.setDoc doc).register (m.setDoc doc), s.pending.setDoc doc, true,
        regionStart⟩ := by
  rw [setDoc, SourceUnit.setDoc_register doc s.unit nothing moved]

theorem setDoc_openModule : s.openModule.setDoc doc = (s.setDoc doc).openModule := by
  have merged : ∀ (d : DocId) (k : Module), k.merge (.ofPath s.scope.path d default default) = k :=
    fun d k => k.merge_ofPath _ _ _ _ none [] false []
  rw [openModule, openModule]
  refine (apply_ite (setDoc doc) (s.isOpen = true) s _).trans (congrArg (ite _ _) ?_)
  exact setDoc_registered doc (merged s.scope.doc) (merged doc) _ _

theorem setDoc_declareModule (p : Place) (comment? : Option DocComment) :
    (s.declareModule p comment?).setDoc doc = (s.setDoc doc).declareModule p comment? := by
  rw [declareModule, declareModule]
  cases p.child? .modulePath with
  | none => rfl
  | some pathPlace =>
    refine (apply_ite (setDoc doc) _ s _).trans (congrArg (ite _ _) ?_)
    refine setDoc_registered doc ?_ ?_ _ _
    · exact fun k => k.merge_ofPath _ _ _ _ _ _ _ _
    · exact fun k => k.merge_ofPath _ _ _ _ _ _ _ _

theorem setDoc_declare (own : s.pending.BelongsTo s.scope.doc) (kind : NodeKind) (p : Place)
    (comment? : Option DocComment) :
    (s.declare kind p comment?).setDoc doc = (s.setDoc doc).declare kind p comment? := by
  have built : ∀ {α : Type} {builder : Outline α} {add : α → Module → Module} {f : α → α},
      Outline.Moves s.scope doc f builder builder →
      (∀ a m, (add a m).setDoc doc = add (f a) (m.setDoc doc)) →
      ((s.build builder add).extendRegion p.stop).setDoc doc =
        ((s.setDoc doc).build builder add).extendRegion p.stop :=
    fun hb hadd => (setDoc_extendRegion doc p.stop).trans
      (congrArg (extendRegion · p.stop) (setDoc_build doc own hb hadd))
  refine declare_induct₂ (R := fun t t' => t.setDoc doc = t') (fun _ => rfl) rfl fun declares => ?_
  cases declares with
  | function =>
    refine built (Outline.moves_functionOf s.scope doc p comment?) fun f m => ?_
    rw [Module.setDoc, List.map_append]
    rfl
  | struct =>
    refine built (Outline.moves_structOf s.scope doc p comment?) fun a m => ?_
    rw [Module.setDoc, Table.map_insert]
    rfl
  | bitstruct =>
    refine built (Outline.moves_bitstructOf s.scope doc p comment?) fun b m => ?_
    rw [Module.setDoc, Table.map_insert]
    rfl
  | enum =>
    refine built (Outline.moves_enumOf s.scope doc p comment?) fun e m => ?_
    rw [Module.setDoc, Table.map_insert]
    rfl
  | fault =>
    refine built (Outline.moves_faultOf s.scope doc p comment?) fun f m => ?_
    rw [Module.setDoc, Table.map_insert]
    rfl
  | faultConstants =>
    exact built (Outline.moves_faultConstantsBelow s.scope doc p none comment?) fun cs m =>
      m.setDoc_addFaultConstants doc cs
  | distinct =>
    refine built (Outline.moves_distinctOf s.scope doc p comment?) fun d m => ?_
    rw [Module.setDoc, Table.map_insert]
    rfl
  | aliased =>
    refine built (Outline.moves_aliasOf s.scope doc p comment?) fun a m => ?_
    rw [Module.setDoc, Table.map_insert]
    rfl
  | interface =>
    refine built (Outline.moves_interfaceOf s.scope doc p comment?) fun i m => ?_
    rw [Module.setDoc, Table.map_insert]
    rfl
  | globals =>
    exact built (Outline.moves_variablesOf s.scope doc p comment?) fun vs m => m.setDoc_addVariables doc vs

theorem setDoc_step {old : DocId} (h : s.Sound old) (previous : List Tree) (p : Place) :
    (s.step previous p).setDoc doc = (s.setDoc doc).step previous p := by
  have imports : ∀ paths, ((s.openModule.modifyModule (·.addImports paths)).extendRegion p.stop).setDoc doc =
      ((s.setDoc doc).openModule.modifyModule (·.addImports paths)).extendRegion p.stop := by
    intro paths
    rw [setDoc_extendRegion, ← setDoc_openModule]
    exact congrArg (extendRegion · p.stop) (setDoc_modifyModule doc fun m => m.setDoc_addImports doc paths)
  have declared : ∀ kind, (s.openModule.declare kind p (commentBefore? previous)).setDoc doc =
      (s.setDoc doc).openModule.declare kind p (commentBefore? previous) := by
    intro kind
    rw [setDoc_declare doc (h.openModule.scope.symm ▸ h.openModule.own), setDoc_openModule]
  unfold step
  split
  · rfl
  · rfl
  · exact setDoc_declareModule doc p _
  · exact imports _
  · exact declared _

/-- The state when everything is read. -/
def read (s : OutlineState) (parts : List (List Tree × Place)) (stop : Nat) : OutlineState :=
  (parts.foldl (fun s part => s.step part.1 part.2) s).openModule.extendRegion stop

theorem setDoc_read {old : DocId} (h : s.Sound old) (parts : List (List Tree × Place)) (stop : Nat) :
    (s.read parts stop).setDoc doc = (s.setDoc doc).read parts stop := by
  induction parts generalizing s with
  | nil => exact (setDoc_extendRegion doc stop).trans (congrArg (extendRegion · stop) (setDoc_openModule doc))
  | cons part parts ih =>
    refine (ih (h.step part.1 part.2)).trans ?_
    rw [setDoc_step doc h]
    rfl

end Steps

/-! ## The module named for the file -/

/-- The state with another path for the module named for the file. -/
def setPath (path : ModulePath) (s : OutlineState) : OutlineState :=
  { s with scope := { s.scope with path := path } }

section Paths

variable {s : OutlineState}

theorem names_modifyModule (f : Module → Module) :
    (s.modifyModule f).unit.modules.names = s.unit.modules.names :=
  Table.names_modify _ _ _

theorem names_declare (kind : NodeKind) (p : Place) (comment? : Option DocComment) :
    (s.declare kind p comment?).unit.modules.names = s.unit.modules.names :=
  declare_induct (P := fun t => t.unit.modules.names = s.unit.modules.names) rfl fun _ =>
    (names_modifyModule _).trans (names_modifyModule _)

/-- The first module of a unit stays the first one. -/
theorem head?_names_register {u : SourceUnit} {first : String} (h : u.modules.names.head? = some first)
    (m : Module) : (u.register m).modules.names.head? = some first := by
  have kept : ∀ n : Module, (u.modules.insert m.name n).names.head? = some first := by
    intro n
    rw [Table.names_insert]
    split
    · exact h
    · rw [List.head?_append, h]
      rfl
  rw [SourceUnit.register]
  split
  · exact kept _
  · exact kept _

theorem head?_names_openModule {first : String} (h : s.unit.modules.names.head? = some first) :
    s.openModule.unit.modules.names.head? = some first := by
  rw [openModule]
  split
  · exact h
  · exact head?_names_register h _

theorem head?_names_step {first : String} (h : s.unit.modules.names.head? = some first)
    (previous : List Tree) (p : Place) : (s.step previous p).unit.modules.names.head? = some first := by
  unfold step
  split
  · exact h
  · exact h
  · unfold declareModule
    split
    · exact h
    dsimp only
    split
    · exact h
    · exact head?_names_register h _
  · rw [extendRegion, names_modifyModule, names_modifyModule]
    exact head?_names_openModule h
  · rw [names_declare]
    exact head?_names_openModule h

theorem head?_names_read {first : String} (h : s.unit.modules.names.head? = some first)
    (parts : List (List Tree × Place)) (stop : Nat) :
    (s.read parts stop).unit.modules.names.head? = some first := by
  induction parts generalizing s with
  | nil =>
    refine (congrArg List.head? (names_modifyModule _)).trans ?_
    exact head?_names_openModule h
  | cons part parts ih => exact ih (head?_names_step h part.1 part.2)

variable (closed : s.isOpen = false) (nothing : s.unit.modules = .empty)

include closed nothing

theorem names_openModule (path : ModulePath) :
    (s.setPath path).openModule.unit.modules.names.head? = some path.text := by
  have shut : (s.setPath path).isOpen = false := closed
  have bare : (s.setPath path).unit.modules = .empty := nothing
  rw [openModule, shut, if_neg Bool.false_ne_true, SourceUnit.register, bare]
  rfl

/-- The first thing that is read is skipped, or is a module declaration, or opens the module named for
the file. -/
theorem step_setPath (previous : List Tree) (p : Place) :
    (∀ path, (s.setPath path).step previous p = s.setPath path) ∨
      (∃ t, ∀ path, (s.setPath path).step previous p = t) ∨
      ∀ path, ((s.setPath path).step previous p).unit.modules.names.head? = some path.text := by
  have opened := names_openModule closed nothing
  unfold step
  split
  · exact .inl fun _ => rfl
  · exact .inl fun _ => rfl
  · unfold declareModule
    cases found : p.child? .modulePath with
    | none => exact .inl fun _ => rfl
    | some pathPlace =>
      by_cases empty : (ModulePath.parse pathPlace.tree.compactText).isEmpty = true
      · exact .inl fun _ => if_pos empty
      · refine .inr (.inl ⟨s.declareModule p (commentBefore? previous), fun path => ?_⟩)
        rw [declareModule, found]
        exact (if_neg empty).trans (if_neg empty).symm
  · refine .inr (.inr fun path => ?_)
    rw [extendRegion, names_modifyModule, names_modifyModule]
    exact opened path
  · refine .inr (.inr fun path => ?_)
    rw [names_declare]
    exact opened path

/-- The path is not used, or it names the first module. -/
theorem read_setPath (parts : List (List Tree × Place)) (stop : Nat) :
    (∀ path path', (s.setPath path).read parts stop = (s.setPath path').read parts stop) ∨
      ∀ path, ((s.setPath path).read parts stop).unit.modules.names.head? = some path.text := by
  induction parts with
  | nil =>
    refine .inr fun path => (congrArg List.head? (names_modifyModule _)).trans ?_
    exact names_openModule closed nothing path
  | cons part parts ih =>
    have first : ∀ path, (s.setPath path).read (part :: parts) stop =
        ((s.setPath path).step part.1 part.2).read parts stop := fun _ => rfl
    simp only [first]
    obtain skipped | ⟨t, declared⟩ | opened := step_setPath closed nothing part.1 part.2
    · simp only [skipped]
      exact ih
    · refine .inl fun path path' => ?_
      rw [declared, declared]
    · exact .inr fun path => head?_names_read (opened path) parts stop

end Paths

end OutlineState

/-! ## Modules of files -/

namespace ModulePath

theorem parse_of_plain {s : String} (plain : ∀ c ∈ s.toList, c ≠ ':' ∧ Text.isSpace c = false)
    (some : s ≠ "") : parse s = ⟨[s]⟩ := by
  have colons : ':' ∉ s.toList := fun mem => (plain ':' mem).1 rfl
  rw [parse, if_neg (beq_iff_eq.not.2 some), splitColons_of_notMem colons, List.reverse_nil,
    List.nil_append, String.ofList_toList, List.map_singleton,
    Text.trim_of_forall fun c hc => (plain c hc).2]

theorem plain_nameOfFile (file : String) :
    ∀ c ∈ (nameOfFile file).toList, c ≠ ':' ∧ Text.isSpace c = false := by
  have small : ∀ n < 128, (Char.ofNat n).isAlphanum = true →
      (Char.ofNat n).toLower ≠ ':' ∧ Text.isSpace (Char.ofNat n).toLower = false := by
    decide
  have letters : ∀ c : Char, c.isAlphanum = true → c.toLower ≠ ':' ∧ Text.isSpace c.toLower = false := by
    intro c hc
    have found := small c.toNat (Text.toNat_lt_of_isAlphanum hc)
    rw [Char.ofNat_toNat] at found
    exact found hc
  intro c hc
  rw [nameOfFile, String.toList_ofList] at hc
  obtain ⟨d, -, rfl⟩ := List.mem_map.1 (List.mem_of_mem_take hc)
  split
  next alnum => exact letters d alnum
  next => exact ⟨by decide, by decide⟩

theorem text_parse_nameOfFile (file : String) : (parse (nameOfFile file)).text = nameOfFile file := by
  by_cases empty : nameOfFile file = ""
  · rw [empty]
    rfl
  · rw [parse_of_plain (plain_nameOfFile file) empty]
    rfl

/-- Modules of files are told apart by their names. -/
theorem parse_nameOfFile_inj {a b : String}
    (same : (parse (nameOfFile a)).text = (parse (nameOfFile b)).text) :
    parse (nameOfFile a) = parse (nameOfFile b) := by
  rw [← text_parse_nameOfFile a, ← text_parse_nameOfFile b, same]

end ModulePath

/-- The path of the module that is named for the file of a document. -/
def DocId.filePath (doc : DocId) : ModulePath :=
  .parse (ModulePath.nameOfFile doc.fileName)

namespace OutlineState

theorem start_eq (doc : DocId) (lines : LineTable) :
    start doc lines = ⟨⟨doc, lines, doc.filePath, []⟩, .ofDoc doc, .empty, false, ⟨0, 0⟩⟩ := by
  rw [start, DocId.filePath]

theorem read_start {old new : DocId} (lines : LineTable) (parts : List (List Tree × Place)) (stop : Nat)
    (names : ((start new lines).read parts stop).unit.modules.names =
      ((start old lines).read parts stop).unit.modules.names) :
    (start new lines).read parts stop = ((start old lines).read parts stop).setDoc new := by
  have moved := setDoc_read new (sound_start old lines) parts stop
  have kept : (((start old lines).read parts stop).setDoc new).unit.modules.names = _ := Table.names_map _ _
  rw [← kept, moved] at names
  rw [moved]
  clear moved kept
  rw [start_eq, start_eq] at names ⊢
  have inj : new.filePath.text = old.filePath.text → new.filePath = old.filePath :=
    ModulePath.parse_nameOfFile_inj
  generalize new.filePath = here at names inj ⊢
  generalize old.filePath = there at names inj ⊢
  -- Both readings are of a state that differs in the path only.
  obtain unused | first := read_setPath (s := ⟨⟨new, lines, there, []⟩, .ofDoc new, .empty, false, ⟨0, 0⟩⟩)
    rfl rfl parts stop
  · exact unused here there
  · have heads := congrArg List.head? names
    have same := (first here).symm.trans (heads.trans (first there))
    rw [inj (Option.some_inj.1 same)]
    rfl

end OutlineState

/-- A text gives the same symbols and the same work under another id, if it gives modules of the same
names. -/
theorem outline_setDoc {old new : DocId} {lines : LineTable} {tree : Tree}
    (names : (outline new lines tree).1.modules.names = (outline old lines tree).1.modules.names) :
    outline new lines tree =
      ((outline old lines tree).1.setDoc new, (outline old lines tree).2.setDoc new) := by
  have both := OutlineState.read_start lines (placesWithPrevious 0 [] tree.children) lines.byteSize names
  exact Prod.ext (congrArg OutlineState.unit both) (congrArg OutlineState.pending both)

end C3Lens
