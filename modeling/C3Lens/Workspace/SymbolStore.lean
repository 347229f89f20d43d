import C3Lens.Outline.Unit
import C3Lens.Symbol.View

/-!
# The store of all symbols

The store holds the units of all documents in the order of their registration, and the work
that still waits for other documents. Whenever a unit is registered, the waiting types are
bound to the modules that declare them and the waiting inline members are expanded, as far
as the registered units allow.
-/

namespace C3Lens

/-- All registered units and the pending work. -/
structure SymbolStore where
  units : Table SourceUnit
  pending : Pending
deriving Inhabited

namespace SymbolStore

/-- The store without units. -/
def empty : SymbolStore :=
  ⟨.empty, .empty⟩

/-- The unit of a document. -/
def unit? (s : SymbolStore) (doc : DocId) : Option SourceUnit :=
  s.units.get? doc.text

/-- Whether the document is registered. -/
def contains (s : SymbolStore) (doc : DocId) : Bool :=
  s.units.contains doc.text

/-- The registered documents, in order. -/
def docs (s : SymbolStore) : List DocId :=
  s.units.names.map DocId.mk

/-- The modules of all units, in order. -/
def modules (s : SymbolStore) : List Module :=
  s.units.values.flatMap (·.modules.values)

/-- The modules of the name, of all units. -/
def modulesNamed (s : SymbolStore) (name : String) : List Module :=
  s.modules.filter (·.name == name)

/-- Changes one module of one unit. -/
def modifyModule (s : SymbolStore) (doc : DocId) (name : String) (f : Module → Module) : SymbolStore :=
  { s with units := s.units.modify doc.text (·.modify name f) }

/-! ## Binding types -/

/-- Whether the module declares a type or an alias of the name. -/
def declaresType (name : String) (m : Module) : Bool :=
  ((m.child? name).map fun s => s.isType || s.isAlias).getD false

/-- Whether an import of `importer` makes the module visible. -/
def isImportedBy (importer m : Module) : Bool :=
  importer.imports.any m.modulePath.isRelative

/-- The module that declares a type written with a qualifier: the qualifier is the end of its
path, and a module that is imported comes first. -/
def qualifiedHome? (s : SymbolStore) (context : Module) (t : PendingType) : Option Module :=
  let candidates := s.modules.filter fun m =>
    m.modulePath.endsWith (.parse t.written) && declaresType t.typeName m
  (candidates.find? (isImportedBy context)) <|> candidates.head?

/-- The module that declares a type written without a qualifier: a parent or child of its
module or that module itself, else an imported one. Where nothing is imported, any will do. -/
def plainHome? (s : SymbolStore) (context : Module) (t : PendingType) : Option Module :=
  let candidates := s.modules.filter (declaresType t.typeName)
  (candidates.find? (·.modulePath.isRelative context.modulePath)) <|>
  (candidates.find? (isImportedBy context)) <|>
  if context.imports.isEmpty then candidates.head? else none

/-- The name of the module that declares a pending type. -/
def home? (s : SymbolStore) (t : PendingType) : Option String := do
  let unit ← s.unit? t.doc
  let context ← unit.module? t.context
  let home ← if t.written != t.context then s.qualifiedHome? context t else s.plainHome? context t
  return home.name

/-- The module of a type once the pending type `t` is known to be declared in `home`. -/
def boundModule (t : PendingType) (home : String) (type : TypeRef) : String :=
  if !type.isBuiltin && !type.isGenericParameter && type.name == t.typeName &&
      type.moduleName == t.written then home
  else type.moduleName

/-- Binds the types that a pending type stands for. -/
def bindType (s : SymbolStore) (t : PendingType) (home : String) : SymbolStore :=
  s.modifyModule t.doc t.context (·.mapModule (boundModule t home))

/-- Binds a pending type, or keeps it pending while its document is registered. -/
def settleType (s : SymbolStore) (t : PendingType) : SymbolStore :=
  match s.home? t with
  | some home => s.bindType t home
  | none => if s.contains t.doc then { s with pending := s.pending.addType t } else s

/-! ## Expanding inline members -/

/-- The struct that an inline member names, one of the same module first. -/
def inlinedStruct? (s : SymbolStore) (i : PendingInline) : Option Struct :=
  ((s.modulesNamed i.moduleName).findSome? (·.structs.get? i.inlined)) <|>
  (s.modules.findSome? (·.structs.get? i.inlined))

/-- The members that an inline member stands for; a struct does not inline itself. -/
def inlinedMembers? (s : SymbolStore) (i : PendingInline) : Option (List Member) := do
  let inlined ← s.inlinedStruct? i
  if inlined.name == i.structName && inlined.doc == i.doc then none else some inlined.members

/-- Whether the struct still waits for the inlined type. -/
def awaits (s : SymbolStore) (i : PendingInline) : Bool :=
  (do
    let unit ← s.unit? i.doc
    let m ← unit.module? i.moduleName
    let host ← m.structs.get? i.structName
    return host.awaitedTypes.contains i.inlined).getD false

/-- Expands an inline member, or keeps it pending while its struct waits for it. -/
def settleInline (s : SymbolStore) (i : PendingInline) : SymbolStore :=
  match s.inlinedMembers? i with
  | some members =>
    s.modifyModule i.doc i.moduleName fun m =>
      { m with structs := m.structs.modify i.structName (·.inherit i.inlined members) }
  | none => if s.awaits i then { s with pending := s.pending.addInline i } else s

/-- Does all pending work that can be done: types first, then inline members. -/
def settle (s : SymbolStore) : SymbolStore :=
  let inlines := s.pending.inlines
  let typed := s.pending.types.foldl settleType { s with pending := { s.pending with groups := .empty } }
  inlines.foldl settleInline { typed with pending := { typed.pending with inlines := [] } }

/-! ## Units -/

/-- Puts a unit in the place of the one of its document, with its pending work. -/
def register (s : SymbolStore) (u : SourceUnit) (pending : Pending) : SymbolStore :=
  settle ⟨s.units.insert u.doc.text u, (s.pending.purge u.doc).append pending⟩

/-- Forgets the unit of a document. -/
def delete (s : SymbolStore) (doc : DocId) : SymbolStore :=
  ⟨s.units.erase doc.text, s.pending.purge doc⟩

/-- Moves the unit of a document to another id; it becomes the last one, unless the other id
has a unit, whose place it takes. -/
def rename (s : SymbolStore) (old new : DocId) : SymbolStore :=
  match s.unit? old with
  | none => s
  | some u =>
    ⟨(s.units.erase old.text).insert new.text (u.setDoc new), s.pending.rename old new⟩

end SymbolStore

end C3Lens
