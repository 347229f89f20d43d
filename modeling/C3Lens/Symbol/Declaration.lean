import C3Lens.Document.Id
import C3Lens.Symbol.Comment
import C3Lens.Symbol.ModulePath
import C3Lens.Symbol.TypeRef
import C3Lens.Table
import C3Lens.Text.Line

/-!
# Declarations

What all declared symbols have in common, and the symbols themselves. A symbol names its
module by the path; the table of all modules leads from the path to the module.
-/

namespace C3Lens

/-- Name, place and comment of a declared symbol. -/
structure Declaration where
  name : String
  /-- The module that the symbol belongs to. -/
  modulePath : ModulePath
  doc : DocId
  /-- Where the name stands. -/
  nameRange : Range
  /-- Where the whole declaration stands. -/
  range : Range
  comment? : Option DocComment
deriving DecidableEq, Inhabited

/-- `name` qualified by the path of a module, if the path has names. -/
def ModulePath.qualify (p : ModulePath) (name : String) : String :=
  if p.isEmpty then name else p.text ++ "::" ++ name

namespace Declaration

/-- The name qualified by the module. -/
def qualifiedName (d : Declaration) : String :=
  d.modulePath.qualify d.name

end Declaration

/-! ## Variables -/

/-- What a parameter has besides its name and type. -/
structure ParameterInfo where
  /-- Whether it takes any number of arguments. -/
  isVariadic : Bool
  /-- The default value as written. -/
  default? : Option String
deriving DecidableEq, Inhabited

/-- A variable, constant, parameter or associated value. -/
structure Variable extends Declaration where
  type : TypeRef
  parameter? : Option ParameterInfo
  isConstant : Bool
deriving Inhabited

namespace Variable

/-- Type and name. -/
def signature (v : Variable) : String :=
  v.type.text ++ " " ++ v.name

/-- Moves the variable to another document. -/
def setDoc (doc : DocId) (v : Variable) : Variable :=
  { v with doc := doc }

/-- Changes the modules of the types written in the variable's declaration. -/
def mapModule (f : TypeRef → String) (v : Variable) : Variable :=
  { v with type := v.type.mapModule f }

end Variable

/-! ## Functions -/

/-- The sorts of functions. -/
inductive FunctionKind where
  | free | method | macroDef
deriving DecidableEq, Inhabited

/-- A function, a method or a function-like macro. A method's name has its receiver's type in
front, with a dot between them. -/
structure Function extends Declaration where
  kind : FunctionKind
  returns : TypeRef
  parameters : Table Variable
  /-- The type that the function is a method of. -/
  receiver? : Option String
  /-- Local variables in the order of their declarations. -/
  locals : List Variable
deriving Inhabited

namespace Function

/-- The name without the receiver's type. -/
def shortName (f : Function) : String :=
  String.ofList (f.name.toList.reverse.takeWhile (· != '.')).reverse

/-- The parameters with their types. -/
def parametersText (f : Function) : String :=
  ", ".intercalate (f.parameters.values.map Variable.signature)

/-- Type returned, name and parameters. -/
def signature (f : Function) : String :=
  f.returns.text ++ " " ++ f.name ++ "(" ++ f.parametersText ++ ")"

/-- The local variables whose declarations start before `p`. -/
def localsBefore (f : Function) (p : Position) : List Variable :=
  f.locals.filter fun v => v.range.start < p

/-- The last local variable of the name whose declaration starts before `p`. -/
def localBefore? (f : Function) (name : String) (p : Position) : Option Variable :=
  f.locals.reverse.find? fun v => v.name == name && decide (v.range.start < p)

/-- Moves the function to another document. -/
def setDoc (doc : DocId) (f : Function) : Function :=
  { f with
    doc := doc
    parameters := f.parameters.map (Variable.setDoc doc)
    locals := f.locals.map (Variable.setDoc doc) }

/-- Changes the modules of the types written in the function. -/
def mapModule (g : TypeRef → String) (f : Function) : Function :=
  { f with
    returns := f.returns.mapModule g
    parameters := f.parameters.map (Variable.mapModule g)
    locals := f.locals.map (Variable.mapModule g) }

end Function

/-! ## Structs, unions and bitstructs -/

/-- A struct or union whose members are of the type `α`. -/
structure Aggregate (α : Type) extends Declaration where
  members : List α
  isUnion : Bool
  /-- The interfaces that it implements, as written. -/
  interfaces : List String
deriving Inhabited

/-- A member of a struct, union or bitstruct. -/
structure Member extends Declaration where
  type : TypeRef
  /-- The lowest and the highest bit that the member takes. -/
  bits? : Option (Nat × Nat)
  /-- Whether the members of the inlined type still have to be put behind this one. -/
  awaitsExpansion : Bool
  /-- Whether the members of the inlined type stand behind this one. -/
  isExpanded : Bool
  /-- The body of a struct that is declared in place. -/
  body? : Option (Aggregate Member)
  /-- The name of the type that the member belongs to. -/
  owner : String
deriving Inhabited

/-- A struct or union. -/
abbrev Struct := Aggregate Member

namespace Member

/-- Type and name. -/
def signature (m : Member) : String :=
  m.type.text ++ " " ++ m.name

mutual

/-- Moves the member, with its body, to another document. -/
def setDoc (doc : DocId) : Member → Member
  | ⟨d, type, bits?, awaits, expanded, body?, owner⟩ =>
    ⟨{ d with doc := doc }, type, bits?, awaits, expanded, setDocOfBody doc body?, owner⟩

/-- Moves a body, if there is one, to another document. -/
def setDocOfBody (doc : DocId) : Option (Aggregate Member) → Option (Aggregate Member)
  | none => none
  | some ⟨d, members, isUnion, interfaces⟩ =>
    some ⟨{ d with doc := doc }, setDocOfList doc members, isUnion, interfaces⟩

/-- Moves members to another document. -/
def setDocOfList (doc : DocId) : List Member → List Member
  | [] => []
  | m :: ms => setDoc doc m :: setDocOfList doc ms

end

mutual

/-- Changes the modules of the types written in the member and its body. -/
def mapModule (f : TypeRef → String) : Member → Member
  | ⟨d, type, bits?, awaits, expanded, body?, owner⟩ =>
    ⟨d, type.mapModule f, bits?, awaits, expanded, mapModuleOfBody f body?, owner⟩

/-- Changes the modules of the types written in a body, if there is one. -/
def mapModuleOfBody (f : TypeRef → String) : Option (Aggregate Member) → Option (Aggregate Member)
  | none => none
  | some ⟨d, members, isUnion, interfaces⟩ =>
    some ⟨d, mapModuleOfList f members, isUnion, interfaces⟩

/-- Changes the modules of the types written in members. -/
def mapModuleOfList (f : TypeRef → String) : List Member → List Member
  | [] => []
  | m :: ms => mapModule f m :: mapModuleOfList f ms

end

end Member

namespace Aggregate

/-- The first member of the name. -/
def member? (s : Struct) (name : String) : Option Member :=
  s.members.find? (·.name == name)

/-- The names of the inlined types whose members are not there yet. -/
def awaitedTypes (s : Struct) : List String :=
  (s.members.filter Member.awaitsExpansion).map (·.type.name)

/-- Puts the members `inherited` behind the first member of `members` that waits for the type
`typeName`; none waits if the result is `none`. -/
def inheritInto (owner typeName : String) (inherited : List Member) :
    List Member → Option (List Member)
  | [] => none
  | m :: ms =>
    if m.awaitsExpansion && m.type.name == typeName then
      some ({ m with awaitsExpansion := false, isExpanded := true } ::
        (inherited.map ({ · with owner := owner }) ++ ms))
    else (inheritInto owner typeName inherited ms).map (m :: ·)

/-- Gives the struct the members of the type that an inline member names, right behind that
member. Nothing changes where no member waits for the type. -/
def inherit (s : Struct) (typeName : String) (inherited : List Member) : Struct :=
  match inheritInto s.name typeName inherited s.members with
  | some members => { s with members := members }
  | none => s

/-- Moves the struct to another document. -/
def setDoc (doc : DocId) (s : Struct) : Struct :=
  { s with doc := doc, members := s.members.map (Member.setDoc doc) }

/-- Changes the modules of the types written in the struct. -/
def mapModule (f : TypeRef → String) (s : Struct) : Struct :=
  { s with members := s.members.map (Member.mapModule f) }

end Aggregate

/-- A bitstruct with the integer type that holds its bits. -/
structure Bitstruct extends Declaration where
  backing : TypeRef
  members : List Member
  interfaces : List String
deriving Inhabited

namespace Bitstruct

/-- The first member of the name. -/
def member? (b : Bitstruct) (name : String) : Option Member :=
  b.members.find? (·.name == name)

/-- Moves the bitstruct to another document. -/
def setDoc (doc : DocId) (b : Bitstruct) : Bitstruct :=
  { b with doc := doc, members := b.members.map (Member.setDoc doc) }

/-- Changes the modules of the types written in the bitstruct. -/
def mapModule (f : TypeRef → String) (b : Bitstruct) : Bitstruct :=
  { b with backing := b.backing.mapModule f, members := b.members.map (Member.mapModule f) }

end Bitstruct

/-! ## Enums -/

/-- One of the values of an enum. -/
structure Enumerator extends Declaration where
  /-- The value as written, or nothing. -/
  value : String
  enumName : String
deriving DecidableEq, Inhabited

namespace Enumerator

/-- The name, and the value if one is written. -/
def signature (e : Enumerator) : String :=
  if e.value == "" then e.name else e.name ++ ": " ++ e.value

end Enumerator

/-- An enum. Each of its enumerators has the associated values as fields. -/
structure Enum extends Declaration where
  backing : String
  enumerators : List Enumerator
  values : List Variable
  interfaces : List String
deriving Inhabited

namespace Enum

/-- The first enumerator of the name. -/
def enumerator? (e : Enum) (name : String) : Option Enumerator :=
  e.enumerators.find? (·.name == name)

/-- The first associated value of the name. -/
def value? (e : Enum) (name : String) : Option Variable :=
  e.values.find? (·.name == name)

/-- Moves the enum to another document. -/
def setDoc (doc : DocId) (e : Enum) : Enum :=
  { e with
    doc := doc
    enumerators := e.enumerators.map ({ · with doc := doc })
    values := e.values.map (Variable.setDoc doc) }

/-- Changes the modules of the types written in the enum. -/
def mapModule (f : TypeRef → String) (e : Enum) : Enum :=
  { e with values := e.values.map (Variable.mapModule f) }

end Enum

/-! ## Faults -/

/-- A fault value, of a fault or alone in its module. -/
structure FaultConstant extends Declaration where
  fault? : Option String
deriving DecidableEq, Inhabited

/-- A fault with its values. -/
structure Fault extends Declaration where
  backing : String
  constants : List FaultConstant
deriving Inhabited

namespace FaultConstant

/-- Moves the constant to another document. -/
def setDoc (doc : DocId) (c : FaultConstant) : FaultConstant :=
  { c with doc := doc }

end FaultConstant

namespace Fault

/-- The first constant of the name. -/
def constant? (f : Fault) (name : String) : Option FaultConstant :=
  f.constants.find? (·.name == name)

/-- Moves the fault to another document. -/
def setDoc (doc : DocId) (f : Fault) : Fault :=
  { f with doc := doc, constants := f.constants.map (FaultConstant.setDoc doc) }

end Fault

/-! ## Aliases, distinct types and interfaces -/

/-- What an alias stands for: another symbol, as written, or a type. -/
inductive AliasTarget where
  | symbol (path : String)
  | type (type : TypeRef)
deriving Inhabited

/-- An alias. -/
structure Alias extends Declaration where
  target : AliasTarget
deriving Inhabited

namespace Alias

/-- The type that the alias stands for. -/
def type? (a : Alias) : Option TypeRef :=
  match a.target with
  | .type t => some t
  | .symbol _ => none

/-- The declaration in one line. -/
def signature (a : Alias) : String :=
  "def " ++ a.name ++ " = " ++
    match a.target with
    | .symbol path => path
    | .type t => t.text

/-- Moves the alias to another document. -/
def setDoc (doc : DocId) (a : Alias) : Alias :=
  { a with doc := doc }

/-- Changes the modules of the types written in the alias. -/
def mapModule (f : TypeRef → String) (a : Alias) : Alias :=
  match a.target with
  | .type t => { a with target := .type (t.mapModule f) }
  | .symbol _ => a

end Alias

/-- A distinct type. Only an inline one shows the members of its base. -/
structure Distinct extends Declaration where
  base : TypeRef
  isInline : Bool
deriving Inhabited

namespace Distinct

/-- The declaration in one line. -/
def signature (d : Distinct) : String :=
  "distinct " ++ d.name ++ " = " ++ (if d.isInline then "inline " else "") ++ d.base.text

/-- Moves the distinct type to another document. -/
def setDoc (doc : DocId) (d : Distinct) : Distinct :=
  { d with doc := doc }

/-- Changes the modules of the types written in the declaration. -/
def mapModule (f : TypeRef → String) (d : Distinct) : Distinct :=
  { d with base := d.base.mapModule f }

end Distinct

/-- An interface with its methods. -/
structure Interface extends Declaration where
  methods : Table Function
deriving Inhabited

namespace Interface

/-- Moves the interface to another document. -/
def setDoc (doc : DocId) (i : Interface) : Interface :=
  { i with doc := doc, methods := i.methods.map (Function.setDoc doc) }

/-- Changes the modules of the types written in the interface. -/
def mapModule (f : TypeRef → String) (i : Interface) : Interface :=
  { i with methods := i.methods.map (Function.mapModule f) }

end Interface

end C3Lens
