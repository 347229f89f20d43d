import C3Lens.Symbol.Declaration

/-!
# Modules and source units

A module holds the declarations made in it by one document; the same module may be declared
by many documents, and each of them has a `Module` of its own. A source unit holds all
modules of one document.
-/

namespace C3Lens

/-- What one document declares in one module. -/
structure Module extends Declaration where
  imports : List ModulePath := []
  genericParameters : List String := []
  isPrivate : Bool := false
  attributes : List String := []
  globals : Table Variable := .empty
  enums : Table Enum := .empty
  faults : Table Fault := .empty
  /-- Fault values that belong to no fault. -/
  faultConstants : Table FaultConstant := .empty
  structs : Table Struct := .empty
  bitstructs : Table Bitstruct := .empty
  aliases : Table Alias := .empty
  distincts : Table Distinct := .empty
  interfaces : Table Interface := .empty
  /-- A list, since methods of different types may share their names. -/
  functions : List Function := []
deriving Inhabited

namespace Module

/-- A module without declarations, named by its path. -/
def ofPath (path : ModulePath) (doc : DocId) (nameRange range : Range) : Module :=
  { name := path.text, modulePath := path, doc := doc, nameRange := nameRange, range := range,
    comment? := none }

/-- Adds an import, once. -/
def addImport (m : Module) (path : ModulePath) : Module :=
  if m.imports.contains path then m else { m with imports := m.imports ++ [path] }

/-- Adds imports in order. -/
def addImports (m : Module) (paths : List ModulePath) : Module :=
  paths.foldl addImport m

/-- Adds variables in order. -/
def addVariables (m : Module) (vs : List Variable) : Module :=
  { m with globals := vs.foldl (fun t v => t.insert v.name v) m.globals }

/-- Adds fault values in order. -/
def addFaultConstants (m : Module) (cs : List FaultConstant) : Module :=
  { m with faultConstants := cs.foldl (fun t c => t.insert c.name c) m.faultConstants }

/-- Whether `name` is a generic parameter of the module. -/
def isGenericParameter (m : Module) (name : String) : Bool :=
  m.genericParameters.contains name

/-- The first function of the full name. -/
def function? (m : Module) (name : String) : Option Function :=
  m.functions.find? (·.name == name)

/-- The first function whose declaration holds the position. -/
def functionAt? (m : Module) (p : Position) : Option Function :=
  m.functions.find? (·.range.contains p)

/-- Adds what another declaration of the same module holds. Range, comment and attributes stay
as they are. -/
def merge (m other : Module) : Module :=
  { m.addImports other.imports with
    globals := m.globals.insertAll other.globals
    enums := m.enums.insertAll other.enums
    faults := m.faults.insertAll other.faults
    faultConstants := m.faultConstants.insertAll other.faultConstants
    structs := m.structs.insertAll other.structs
    bitstructs := m.bitstructs.insertAll other.bitstructs
    aliases := m.aliases.insertAll other.aliases
    distincts := m.distincts.insertAll other.distincts
    interfaces := m.interfaces.insertAll other.interfaces
    functions := m.functions ++ other.functions }

/-- Moves the module and all it holds to another document. -/
def setDoc (doc : DocId) (m : Module) : Module :=
  { m with
    doc := doc
    globals := m.globals.map (Variable.setDoc doc)
    enums := m.enums.map (Enum.setDoc doc)
    faults := m.faults.map (Fault.setDoc doc)
    faultConstants := m.faultConstants.map (FaultConstant.setDoc doc)
    structs := m.structs.map (Aggregate.setDoc doc)
    bitstructs := m.bitstructs.map (Bitstruct.setDoc doc)
    aliases := m.aliases.map (Alias.setDoc doc)
    distincts := m.distincts.map (Distinct.setDoc doc)
    interfaces := m.interfaces.map (Interface.setDoc doc)
    functions := m.functions.map (Function.setDoc doc) }

/-- Changes the modules of all types written in the module. -/
def mapModule (f : TypeRef → String) (m : Module) : Module :=
  { m with
    globals := m.globals.map (Variable.mapModule f)
    enums := m.enums.map (Enum.mapModule f)
    structs := m.structs.map (Aggregate.mapModule f)
    bitstructs := m.bitstructs.map (Bitstruct.mapModule f)
    aliases := m.aliases.map (Alias.mapModule f)
    distincts := m.distincts.map (Distinct.mapModule f)
    interfaces := m.interfaces.map (Interface.mapModule f)
    functions := m.functions.map (Function.mapModule f) }

end Module

/-- The modules that one document declares, in order. -/
structure SourceUnit where
  doc : DocId
  modules : Table Module
deriving Inhabited

namespace SourceUnit

/-- A unit without modules. -/
def ofDoc (doc : DocId) : SourceUnit :=
  ⟨doc, .empty⟩

/-- The module of the name. -/
def module? (u : SourceUnit) (name : String) : Option Module :=
  u.modules.get? name

/-- Adds a module; what is there under its name is kept and extended. -/
def register (u : SourceUnit) (m : Module) : SourceUnit :=
  match u.modules.get? m.name with
  | some known => { u with modules := u.modules.insert m.name (known.merge m) }
  | none => { u with modules := u.modules.insert m.name m }

/-- Changes the module of the name, if there is one. -/
def modify (u : SourceUnit) (name : String) (f : Module → Module) : SourceUnit :=
  { u with modules := u.modules.modify name f }

/-- Moves the unit and all it holds to another document. -/
def setDoc (doc : DocId) (u : SourceUnit) : SourceUnit :=
  ⟨doc, u.modules.map (Module.setDoc doc)⟩

/-- Of the modules that end before `p` the one that ends last, the first of equals. -/
def lastBefore? (p : Position) : List Module → Option Module
  | [] => none
  | ms => ms.foldl (fun prior m =>
      if m.range.endsBefore p then
        match prior with
        | none => some m
        | some q => if m.range.endsAfter q.range then some m else prior
      else prior) none

/-- The first module whose region holds `p`; else the last that ends before it, else the
first module. -/
def moduleAt? (u : SourceUnit) (p : Position) : Option Module :=
  let ms := u.modules.values
  (ms.find? (·.range.contains p)) <|> lastBefore? p ms <|> ms.head?

end SourceUnit

end C3Lens
