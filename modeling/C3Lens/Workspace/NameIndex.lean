import C3Lens.Symbol.View
import C3Lens.Trie

/-!
# The index of qualified names

Every declaration is found under its fully qualified name, cut at `::` and `.`. The entries
of a document can be removed together.
-/

namespace C3Lens

/-- Where an indexed declaration is found. `unit` is the registered document that the entry
belongs to; it differs from `doc` where several files make one unit. -/
structure SymbolLocation where
  unit : DocId
  doc : DocId
  modulePath : ModulePath
  name : String
  kind : SymbolKind
  nameRange : Range
deriving DecidableEq, Inhabited

namespace SymbolLocation

/-- The location of a symbol of a unit. -/
def ofSymbol (unit : DocId) (s : Symbol) : SymbolLocation :=
  ⟨unit, s.doc, s.declaration.modulePath, s.name, s.kind, s.nameRange⟩

/-- The name under which the declaration is indexed. -/
def qualifiedName (l : SymbolLocation) : String :=
  if l.kind == .module then l.name else l.modulePath.qualify l.name

end SymbolLocation

/-- What a query asks for: the entries of one name, all entries below a name, or all whose
last name begins with something. -/
inductive NameQuery where
  | exact (path : List String)
  | below (path : List String)
  | beginning (path : List String) (start : String)
deriving DecidableEq, Inhabited

namespace NameQuery

/-- Cuts a name at `::` and `.`. -/
def segments (name : String) : List String :=
  ((ModulePath.splitColons [] name.toList).flatMap fun part =>
    (part.toList.splitOn '.').map String.ofList).map Text.trim

/-- The names of a path, without empty ones. -/
def path (name : String) : List String :=
  (segments name).filter (· != "")

/-- Reads a query: a star at its end asks for beginnings, a separator for what is below. -/
def parse (query : String) : NameQuery :=
  match Text.beforeEnd? "*" query with
  | some body =>
    let names := segments body
    .beginning names.dropLast (names.getLast?.getD "")
  | none =>
    match (Text.beforeEnd? "::" query) <|> (Text.beforeEnd? "." query) with
    | some body => .below (path body)
    | none => .exact (path query)

/-- All names of a query. -/
def names : NameQuery → List String
  | .exact path => path
  | .below path => path
  | .beginning path start => path ++ [start]

end NameQuery

/-- The index. -/
structure NameIndex where
  trie : Trie SymbolLocation
  /-- Number of entries. -/
  size : Nat
deriving Inhabited

namespace NameIndex

/-- The index without entries. -/
def empty : NameIndex :=
  ⟨.empty, 0⟩

/-- Adds an entry under its qualified name; one without a name is left out. -/
def insert (index : NameIndex) (l : SymbolLocation) : NameIndex :=
  let path := (NameQuery.parse l.qualifiedName).names
  if path.isEmpty then index else ⟨index.trie.insert path l, index.size + 1⟩

/-- The entries of a module: itself and what it declares. Of a private module there are
none, since no other document reaches it. -/
def entriesOf (unit : DocId) (m : Module) : List SymbolLocation :=
  if m.isPrivate then [] else (Symbol.module m :: m.children).map (.ofSymbol unit)

/-- Adds the entries of a module. -/
def insertModule (index : NameIndex) (unit : DocId) (m : Module) : NameIndex :=
  (entriesOf unit m).foldl insert index

/-- Adds the entries of all modules of a unit. -/
def insertUnit (index : NameIndex) (u : SourceUnit) : NameIndex :=
  u.modules.values.foldl (fun index m => index.insertModule u.doc m) index

/-- Removes the entries of a document. -/
def clear (index : NameIndex) (unit : DocId) : NameIndex :=
  ⟨index.trie.remove (·.unit == unit), index.size - index.trie.countWhere (·.unit == unit)⟩

/-- The entries that a query asks for. -/
def search (index : NameIndex) (query : String) : List SymbolLocation :=
  match NameQuery.parse query with
  | .exact path => ((index.trie.descend? path).map Trie.values).getD []
  | .below path =>
    match index.trie.descend? path with
    | some t => t.children.flatMap (·.2.all)
    | none => []
  | .beginning path start =>
    match index.trie.descend? path with
    | some t => (t.children.filter (·.1.startsWith start)).flatMap (·.2.all)
    | none => []

/-- The entries right at a name. -/
def get (index : NameIndex) (query : String) : List SymbolLocation :=
  ((index.trie.descend? (NameQuery.parse query).names).map Trie.values).getD []

/-- Whether there are no entries. -/
def isEmpty (index : NameIndex) : Bool :=
  index.size == 0

end NameIndex

end C3Lens
