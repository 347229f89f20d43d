import C3Lens.Outline.Declarations

/-!
# The symbols of a document

The top level of a syntax tree is read from left to right. A module declaration opens the
region of its module, which the declarations behind it belong to; what stands before the
first one belongs to a module named for the file. Error nodes declare nothing.
-/

namespace C3Lens

/-- The state of reading the top level of a document. -/
structure OutlineState where
  scope : Scope
  unit : SourceUnit
  pending : Pending
  /-- Whether the module of the scope is in the unit. -/
  isOpen : Bool
  /-- Where the region of the module starts. -/
  regionStart : Position
deriving Inhabited

namespace OutlineState

/-- The state before the first declaration. -/
def start (doc : DocId) (lines : LineTable) : OutlineState :=
  { scope := ⟨doc, lines, .parse (ModulePath.nameOfFile doc.fileName), []⟩
    unit := .ofDoc doc
    pending := .empty
    isOpen := false
    regionStart := ⟨0, 0⟩ }

/-- Changes the module of the scope. -/
def modifyModule (s : OutlineState) (f : Module → Module) : OutlineState :=
  { s with unit := s.unit.modify s.scope.moduleName f }

/-- Puts the module named for the file into the unit, if no module is open. -/
def openModule (s : OutlineState) : OutlineState :=
  if s.isOpen then s
  else
    { s with
      unit := s.unit.register (.ofPath s.scope.path s.scope.doc default default)
      isOpen := true
      regionStart := ⟨0, 0⟩ }

/-- Lets the region of the module reach to a byte offset. -/
def extendRegion (s : OutlineState) (stop : Nat) : OutlineState :=
  s.modifyModule ({ · with range := ⟨s.regionStart, s.scope.lines.position stop⟩ })

/-- Runs a builder and puts what it builds into the module. -/
def build {α : Type} (s : OutlineState) (builder : Outline α) (add : α → Module → Module) :
    OutlineState :=
  let (a, pending) := (builder.run s.scope).run s.pending
  { s with pending := pending }.modifyModule (add a)

/-- Reads a module declaration. -/
def declareModule (s : OutlineState) (p : Place) (comment? : Option DocComment) : OutlineState :=
  match p.child? .modulePath with
  | none => s
  | some pathPlace =>
    let path := ModulePath.parse pathPlace.tree.compactText
    if path.isEmpty then s
    else
      let generics := match p.child? .genericParams with
        | some list => list.nameLeaves.map Place.text
        | none => []
      let attributes := (p.childrenOf .attribute).map (·.tree.compactText)
      let range := s.scope.range p
      let m : Module := { Module.ofPath path s.scope.doc (s.scope.range pathPlace) range with
        comment? := comment?
        genericParameters := generics
        isPrivate := attributes.contains "@private"
        attributes := attributes }
      { s with
        unit := s.unit.register m
        scope := { s.scope with path := path, genericParameters := generics }
        isOpen := true
        regionStart := range.start }

/-- Reads a declaration inside a module; nodes of other kinds declare nothing. -/
def declare (s : OutlineState) (kind : NodeKind) (p : Place) (comment? : Option DocComment) :
    OutlineState :=
  let declared := fun (t : OutlineState) => t.extendRegion p.stop
  match kind with
  | .fnDef | .macroDef =>
    declared (s.build (Outline.functionOf p comment?) fun f m =>
      { m with functions := m.functions ++ [f] })
  | .structDef =>
    declared (s.build (Outline.structOf p comment?) fun a m =>
      { m with structs := m.structs.insert a.name a })
  | .bitstructDef =>
    declared (s.build (Outline.bitstructOf p comment?) fun b m =>
      { m with bitstructs := m.bitstructs.insert b.name b })
  | .enumDef =>
    declared (s.build (Outline.enumOf p comment?) fun e m =>
      { m with enums := m.enums.insert e.name e })
  | .faultDef =>
    declared (s.build (Outline.faultOf p comment?) fun f m =>
      { m with faults := m.faults.insert f.name f })
  | .faultdefDecl =>
    declared (s.build (Outline.faultConstantsBelow p none comment?) fun cs m =>
      m.addFaultConstants cs)
  | .defDecl =>
    if Outline.isDistinctAlias s.scope p then
      declared (s.build (Outline.distinctOf p comment?) fun d m =>
        { m with distincts := m.distincts.insert d.name d })
    else
      declared (s.build (Outline.aliasOf p comment?) fun a m =>
        { m with aliases := m.aliases.insert a.name a })
  | .distinctDecl =>
    declared (s.build (Outline.distinctOf p comment?) fun d m =>
      { m with distincts := m.distincts.insert d.name d })
  | .interfaceDef =>
    declared (s.build (Outline.interfaceOf p comment?) fun i m =>
      { m with interfaces := m.interfaces.insert i.name i })
  | .constDecl | .globalVarDecl =>
    declared (s.build (Outline.variablesOf p comment?) fun vs m => m.addVariables vs)
  | _ => s

/-- The paths that an import names. -/
def importsOf (p : Place) : List ModulePath :=
  ((p.childrenOf .modulePath).map fun q => ModulePath.parse q.tree.compactText).filter
    fun path => !path.isEmpty

/-- Reads one part of the top level; `previous` is what stands before it. -/
def step (s : OutlineState) (previous : List Tree) (p : Place) : OutlineState :=
  match p.tree.nodeKind? with
  | none | some .error => s
  | some .moduleDecl => s.declareModule p (commentBefore? previous)
  | some .importDecl =>
    (s.openModule.modifyModule (·.addImports (importsOf p))).extendRegion p.stop
  | some kind => s.openModule.declare kind p (commentBefore? previous)

end OutlineState

/-- The symbols of a document, and the work that needs other documents. The region of the last
module reaches to the end of the text. -/
def outline (doc : DocId) (lines : LineTable) (tree : Tree) : SourceUnit × Pending :=
  let parts := placesWithPrevious 0 [] tree.children
  let read := parts.foldl (fun s (previous, p) => s.step previous p) (OutlineState.start doc lines)
  let done := read.openModule.extendRegion lines.byteSize
  (done.unit, done.pending)

/-- The symbols of a text. -/
def outlineOfText (doc : DocId) (text : String) : SourceUnit × Pending :=
  outline doc (.ofString text) (Parse.ofString text).tree

end C3Lens
