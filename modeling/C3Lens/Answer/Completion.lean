import C3Lens.Answer.Declaration

/-!
# Completions

What may be written at the cursor: behind a dot the members and methods of what stands in front
of it, behind a module path what its modules declare and the modules below, and elsewhere all
that is visible. Candidates begin with what is written already, and each label is offered once
for every kind of symbol.
-/

namespace C3Lens

/-- Something that may be written at the cursor. -/
structure Completion where
  label : String
  kind : SymbolKind
  detail : String
  /-- In Markdown. -/
  documentation? : Option String
deriving DecidableEq, Inhabited

namespace Completion

/-- A symbol under a label. -/
def labelled (label : String) (s : Symbol) : Completion :=
  ⟨label, s.kind, s.detail, s.documentation?⟩

/-- A symbol under its name; a method goes without its type. -/
def ofSymbol (s : Symbol) : Completion :=
  match s with
  | .function f => labelled (if f.receiver?.isSome then f.shortName else f.name) s
  | .interfaceMethod f _ => labelled f.shortName s
  | s => labelled s.name s

/-- A module under the last name of its path. -/
def ofModuleName (name : String) : Completion :=
  ⟨name, .module, SymbolKind.module.label, none⟩

/-- Keeps the candidates that begin with `start`, and of those with the same label and kind the
first. -/
def select (start : String) (candidates : List Completion) : List Completion :=
  (candidates.filter (·.label.startsWith start)).foldl (fun kept c =>
    if kept.any fun k => k.label == c.label && k.kind == c.kind then kept else kept ++ [c]) []

end Completion

namespace Viewpoint

/-! ## Behind a dot -/

/-- The members that a declaration offers. -/
def membersOf : Symbol → List Completion
  | .enum e => e.enumerators.map fun r => .ofSymbol (.enumerator r e)
  | .enumerator _ e => e.values.map fun x => .ofSymbol (.variable x)
  | .fault f => f.constants.map fun c => .ofSymbol (.faultConstant c)
  | .aggregate s => s.members.map fun m => .ofSymbol (.member m)
  | .bitstruct b => b.members.map fun m => .ofSymbol (.member m)
  | .interface i => i.methods.values.map fun f => .ofSymbol (.interfaceMethod f i)
  | _ => []

/-- The associated values that an enum or enumerator offers. -/
def associatedValuesOf : Symbol → List Completion
  | .enum e | .enumerator _ e => e.values.map fun x => .ofSymbol (.variable x)
  | _ => []

/-- The methods of a declaration that begin with `start`. -/
def methodsOf (v : Viewpoint) (start : String) (s : Symbol) : List Completion :=
  match methodHost? s with
  | none => []
  | some (host, path) =>
    let found := v.workspace.names.search (path.qualify (host ++ "." ++ start ++ "*"))
    ((found.filter (·.kind == .function)).filterMap v.workspace.symbolAt?).map .ofSymbol

/-- What a declaration offers, as far as the access goes. -/
def offersOf (v : Viewpoint) (start : String) (r : Reached) : List Completion :=
  (if r.access.readsMembers then membersOf r.symbol else []) ++
  (if r.access.members then [] else associatedValuesOf r.symbol) ++
  (if r.access.methods then v.methodsOf start r.symbol else [])

/-- The methods of a distinct type itself. -/
def distinctMethodsOf (v : Viewpoint) (start : String) (r : Reached) : List Completion :=
  if r.symbol.kind == .distinct && r.access.isValue && r.access.methods then
    v.methodsOf start r.symbol
  else []

/-- What may stand behind the last dot of a word. -/
def completionsBehindDot (v : Viewpoint) (w : Word) : List Completion :=
  match (w.parent?.bind v.parent?).bind (v.follow true) with
  | none => []
  | some r =>
    v.distinctMethodsOf w.start r ++
      match v.follow false r with
      | some base => v.offersOf w.start base
      | none => []

/-! ## Behind a module path -/

/-- The last name of a path right below `parent`. -/
def nameBelow? (parent path : ModulePath) : Option String :=
  if path.names.dropLast == parent.names then path.last? else none

/-- What may stand behind the module path of a word. -/
def completionsInModules (v : Viewpoint) (w : Word) : List Completion :=
  ((v.modulesMatching w.modulePath w.writtenModule).flatMap fun m => m.children.map .ofSymbol) ++
  v.workspace.symbols.modules.filterMap fun m =>
    ((nameBelow? w.modulePath m.modulePath) <|> (nameBelow? w.writtenModule m.modulePath)).map
      .ofModuleName

/-! ## Elsewhere -/

/-- A declaration with the values that it holds. -/
def withValues (s : Symbol) : List Completion :=
  .ofSymbol s ::
    match s with
    | .enum _ | .fault _ => membersOf s
    | _ => []

/-- The parameters and local variables at the cursor. -/
def localsOf (v : Viewpoint) (f : Function) : List Completion :=
  (f.parameters.values ++ f.localsBefore v.cursor.position).map fun x => .ofSymbol (.variable x)

/-- All that is visible. -/
def completionsAnywhere (v : Viewpoint) : List Completion :=
  v.modules.flatMap fun m =>
    ((v.functionIn? m).map v.localsOf).getD [] ++ m.content.children.flatMap withValues

/-- What may be written in the place of a word. -/
def completions (v : Viewpoint) (w : Word) : List Completion :=
  Completion.select w.start (
    if !w.access.isEmpty then v.completionsBehindDot w
    else if !w.modules.isEmpty then v.completionsInModules w
    else v.completionsAnywhere)

end Viewpoint

/-- What may be written at a position of a document. -/
def Workspace.completions (w : Workspace) (doc : DocId) (p : Position) : List Completion :=
  ((w.word? doc p).map (w.viewpoint doc p).completions).getD []

end C3Lens
