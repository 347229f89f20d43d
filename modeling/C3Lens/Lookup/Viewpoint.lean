import C3Lens.Cursor.Word
import C3Lens.Symbol.View
import C3Lens.Syntax.Kind
import C3Lens.Workspace.Basic

/-!
# Names seen from a cursor

A viewpoint is a cursor with the modules that are visible there. They are searched for a name, the
best first: those of the cursor's document, the cursor's module in other documents, modules above
and below it, and imported ones. A private module is seen in its own document and from modules of
the same path only.

Names are looked up from a viewpoint: plain names in the order of the visible modules, qualified
ones in the modules of the qualifier. Reserved words name nothing.
-/

namespace C3Lens

/-!
## Cursors

A cursor is a position in a document, together with the module that the position belongs to.
-/

/-- A position in a document and its module; the module has no names where the document is
unknown. -/
structure Cursor where
  doc : DocId
  modulePath : ModulePath
  position : Position
deriving DecidableEq, Inhabited

namespace Workspace

/-- The module of a document that a position belongs to. -/
def moduleAt? (w : Workspace) (doc : DocId) (p : Position) : Option Module :=
  (w.symbols.unit? doc).bind (·.moduleAt? p)

/-- The cursor at a position of a document. -/
def cursor (w : Workspace) (doc : DocId) (p : Position) : Cursor :=
  ⟨doc, ((w.moduleAt? doc p).map (·.modulePath)).getD ⟨[]⟩, p⟩

end Workspace

/-- How near a module is to the cursor. -/
inductive Nearness where
  | document | sameModule | elsewhere
deriving DecidableEq, Inhabited

/-- A module that can be searched, with the unit that registered it. -/
structure VisibleModule where
  unit : DocId
  content : Module
  nearness : Nearness
deriving Inhabited

namespace Workspace

/-- The modules of all units that satisfy `p`, which also sees the unit's document. -/
def modulesWhere (w : Workspace) (nearness : Nearness) (p : DocId → Module → Bool) :
    List VisibleModule :=
  w.symbols.units.values.flatMap fun u =>
    (u.modules.values.filter (p u.doc)).map fun m => ⟨u.doc, m, nearness⟩

/-- Whether a module may be seen from another document than its own. -/
def isOpenTo (c : Cursor) (unit : DocId) (m : Module) : Bool :=
  !m.isPrivate || unit == c.doc

/-- Whether an import makes a module visible. -/
def isImported (path : ModulePath) (m : Module) : Bool :=
  m.modulePath.endsWith path || m.modulePath.isRelative path

/-- The modules of the cursor's document, the cursor's own first. -/
def modulesOfDocument (w : Workspace) (c : Cursor) : List VisibleModule :=
  let ms := w.modulesWhere .document fun unit _ => unit == c.doc
  ms.filter (·.content.modulePath == c.modulePath) ++
    ms.filter (·.content.modulePath != c.modulePath)

/-- The paths that the cursor's module imports. -/
def importsOf (w : Workspace) (c : Cursor) : List ModulePath :=
  (((w.symbols.unit? c.doc).bind (·.module? c.modulePath.text)).map (·.imports)).getD []

/-- Leaves out modules that were there before. -/
def distinctModules (ms : List VisibleModule) : List VisibleModule :=
  ms.foldl (fun kept m =>
    if kept.any fun k => k.unit == m.unit && k.content.name == m.content.name then kept
    else kept ++ [m]) []

/-- The modules that are visible at a cursor, each once, in the order in which they are
searched. -/
def visibleModules (w : Workspace) (c : Cursor) : List VisibleModule :=
  distinctModules (
    w.modulesOfDocument c ++
    w.modulesWhere .sameModule (fun unit m => unit != c.doc && m.modulePath == c.modulePath) ++
    w.modulesWhere .elsewhere (fun unit m => m.modulePath.isRelative c.modulePath && isOpenTo c unit m) ++
    (w.importsOf c).flatMap fun path =>
      w.modulesWhere .elsewhere fun unit m => isImported path m && isOpenTo c unit m)

/-- All modules of a path. -/
def modulesAt (w : Workspace) (path : ModulePath) : List Module :=
  w.symbols.modules.filter (·.modulePath == path)

end Workspace


/-!
## What a dot gives access to

On the way from a value to the declaration of its type, what may be named behind a dot is
narrowed: the members of a type belong to the type, methods of a distinct type's base to values
only, and a distinct type that is not inline hides all that its base has.
-/

/-- How a declaration was reached: directly, or through a distinct type. -/
inductive Passage where
  | direct | throughInline | throughPlain
deriving DecidableEq, Inhabited

/-- What may be named behind a dot. -/
structure Access where
  passage : Passage
  /-- Whether members, enumerators and fault values may be named, as far as the passage goes. -/
  members : Bool
  /-- Whether methods may be named. -/
  methods : Bool
  /-- Whether what stands in front of the dot is a value. -/
  isValue : Bool
deriving DecidableEq, Inhabited

namespace Access

/-- The access that a path starts with. -/
def start : Access :=
  ⟨.direct, true, true, false⟩

/-- The access after a step from a symbol to the declaration that it stands for. -/
def afterStep (a : Access) (source target : Symbol) : Access :=
  let isValue := a.isValue || !source.isType
  let next := { a with members := target.isType, isValue := isValue }
  match source with
  | .distinct d =>
    if d.isInline then { next with passage := .throughInline, methods := a.methods && isValue }
    else { next with passage := .throughPlain, methods := false }
  | _ => next

/-- The access to what a member has. -/
def ofMember (member : Symbol) : Access :=
  ⟨.direct, member.isType, true, !member.isType⟩

/-- Whether members may be named. -/
def readsMembers (a : Access) : Bool :=
  a.members && a.passage != .throughPlain

end Access

/-- A cursor in a workspace and what is visible there. -/
structure Viewpoint where
  workspace : Workspace
  cursor : Cursor
  modules : List VisibleModule
deriving Inhabited

/-- The viewpoint at a position of a document. -/
def Workspace.viewpoint (w : Workspace) (doc : DocId) (p : Position) : Viewpoint :=
  ⟨w, w.cursor doc p, w.visibleModules (w.cursor doc p)⟩

namespace Viewpoint

/-! ## Plain names -/

/-- Whether a visible module is the cursor's own one, whose functions may hold the cursor. -/
def isOwn (v : Viewpoint) (m : VisibleModule) : Bool :=
  m.unit == v.cursor.doc && m.content.modulePath == v.cursor.modulePath

/-- The function that holds the cursor, in the cursor's own module. -/
def functionIn? (v : Viewpoint) (m : VisibleModule) : Option Function :=
  if v.isOwn m then m.content.functionAt? v.cursor.position else none

/-- The parameter or local variable of the name at the cursor. -/
def localIn? (v : Viewpoint) (name : String) (f : Function) : Option Variable :=
  f.parameters.get? name <|> f.localBefore? name v.cursor.position

/-- The declaration of the name in a visible module. -/
def findIn? (v : Viewpoint) (name : String) (m : VisibleModule) : Option Symbol :=
  ((v.functionIn? m).bind (v.localIn? name)).map .variable <|> m.content.child? name

/-- The visible module of the name, or of a path that ends with it. -/
def moduleNamed? (v : Viewpoint) (name : String) : Option Module :=
  (v.modules.map (·.content)).find? fun m => m.name == name || m.modulePath.last? == some name

/-- The declaration of a plain name. -/
def find? (v : Viewpoint) (name : String) : Option Symbol :=
  if isReserved name then none
  else v.modules.findSome? (v.findIn? name) <|> (v.moduleNamed? name).map .module

/-! ## Qualified names -/

/-- All modules whose paths end with the names of `tail`. -/
def modulesEnding (v : Viewpoint) (tail : ModulePath) : List Module :=
  v.workspace.symbols.modules.filter (·.modulePath.endsWith tail)

/-- The declaration of a name in the modules of a path, else in those whose paths end as
written. -/
def findQualified? (v : Viewpoint) (path written : ModulePath) (name : String) : Option Symbol :=
  if isReserved name then none
  else
    (v.workspace.modulesAt path).findSome? (·.child? name) <|>
    (v.modulesEnding written).findSome? (·.child? name)

/-- The modules of a path, or else those whose paths end as written. -/
def modulesMatching (v : Viewpoint) (path written : ModulePath) : List Module :=
  let exact := v.workspace.modulesAt path
  if exact.isEmpty then v.modulesEnding written else exact

/-- The module that a path names together with a further name. -/
def moduleBelow? (v : Viewpoint) (path written : ModulePath) (last : String) : Option Module :=
  let full : ModulePath := ⟨path.names ++ [last]⟩
  let tail : ModulePath := ⟨written.names ++ [last]⟩
  (v.workspace.modulesAt full).head? <|> (v.modulesEnding tail).head?

/-! ## Types and aliases -/

/-- The first type among the entries of the index for a qualified name. -/
def indexedType? (v : Viewpoint) (qualifiedName : String) : Option Symbol :=
  ((v.workspace.names.search qualifiedName).filterMap v.workspace.symbolAt?).find? (·.isType)

/-- The declaration of a type. -/
def typeDeclaration? (v : Viewpoint) (t : TypeRef) : Option Symbol :=
  if t.isNone || t.isBuiltin || t.isGenericParameter then none
  else
    v.indexedType? t.qualifiedName <|>
    (v.modules.filterMap (·.content.child? t.name)).find? (·.isType)

/-- The declaration that an alias in a module names. -/
def aliased? (v : Viewpoint) (path : String) (context : ModulePath) : Option Symbol :=
  match ModulePath.cutLast? path.toList with
  | some (qualifier, name) =>
    let written := ModulePath.parse (String.ofList qualifier)
    v.findQualified? written written (String.ofList name)
  | none => (v.workspace.modulesAt context).findSome? (·.child? path) <|> v.find? path

/-- The declaration that a symbol stands for, one step further. -/
def target? (v : Viewpoint) : Symbol → Option Symbol
  | .variable x => v.typeDeclaration? x.type
  | .member m =>
    match m.body? with
    | some body => some (.aggregate body)
    | none => v.typeDeclaration? m.type
  | .function f | .interfaceMethod f _ => v.typeDeclaration? f.returns
  | .alias a =>
    match a.target with
    | .type t => v.typeDeclaration? t
    | .symbol path => v.aliased? path a.modulePath
  | .distinct d => v.typeDeclaration? d.base
  | _ => none

/-! ## Methods -/

/-- The method of a type: in the index, in the type's module, or in a visible one. -/
def method? (v : Viewpoint) (typeName : String) (typeModule : ModulePath) (name : String) :
    Option Symbol :=
  let full := typeName ++ "." ++ name
  let indexed := ((v.workspace.names.search (typeModule.text ++ "::" ++ full)).filterMap
    v.workspace.symbolAt?).find? (·.kind == .function)
  indexed <|>
    ((v.workspace.modulesAt typeModule ++ v.modules.map (·.content)).findSome?
      (·.function? full)).map .function

end Viewpoint

end C3Lens
