import C3Lens.Json.Basic
import C3Lens.Symbol.Module

/-!
# Symbols from JSON

Reads what `Symbol.Encode` writes. Fields that are left out have the value that lets them be
left out. Where a value is malformed the whole is.
-/

namespace C3Lens

/-- Largest line, column and size. -/
def mostCoordinate : Nat := 4294967295

/-- Reads a coordinate or size. -/
def coordinate? (j : Json) : Option Nat :=
  j.natUpTo? mostCoordinate

/-- Reads a pair of coordinates. -/
def coordinates? : Json → Option (Nat × Nat)
  | .array [a, b] => do
    return (← coordinate? a, ← coordinate? b)
  | _ => none

/-- Reads a range. -/
def Range.ofJson? : Json → Option Range
  | .array [a, b] => do
    let (startLine, startCharacter) ← coordinates? a
    let (stopLine, stopCharacter) ← coordinates? b
    return .of startLine startCharacter stopLine stopCharacter
  | _ => none

/-- Reads a module path. -/
def ModulePath.ofJson? (j : Json) : Option ModulePath :=
  j.string?.map ModulePath.parse

/-- Reads a contract. -/
def Contract.ofJson? (j : Json) : Option Contract := do
  let ms ← j.record? ["name", "body"] 2
  return ⟨← ms.required "name" Json.string?, ← ms.required "body" Json.string?⟩

/-- Reads a doc comment. -/
def DocComment.ofJson? (j : Json) : Option DocComment := do
  let ms ← j.record? ["body", "contracts"] 1
  return ⟨← ms.required "body" Json.string?,
    ← ms.orElse "contracts" (Json.itemsOf? Contract.ofJson?) []⟩

/-- Reads the fields common to all symbols. -/
def Declaration.ofMembers? (ms : Json.Members) : Option Declaration := do
  return {
    name := ← ms.required "name" Json.string?
    modulePath := ← ms.required "module" ModulePath.ofJson?
    doc := ⟨← ms.required "doc_id" Json.string?⟩
    nameRange := ← ms.required "id_range" Range.ofJson?
    range := ← ms.required "doc_range" Range.ofJson?
    comment? := ← ms.optional "doc_comment" DocComment.ofJson? }

/-- Reads a list of texts that may be left out. -/
def textsOf? (ms : Json.Members) (name : String) : Option (List String) :=
  ms.orElse name (Json.itemsOf? Json.string?) []

/-- Reads a flag that may be left out. -/
def flagOf? (ms : Json.Members) (name : String) : Option Bool :=
  ms.orElse name Json.bool? false

/-- Reads a table. -/
def Table.ofJson? {α : Type} (read : Json → Option α) (j : Json) : Option (Table α) :=
  (j.membersOf? read).map Table.ofList

/-- Reads a table that may be left out. -/
def tableOf? {α : Type} (ms : Json.Members) (name : String) (read : Json → Option α) :
    Option (Table α) :=
  ms.orElse name (Table.ofJson? read) .empty

/-! ## Types and variables -/

/-- The fields of a type, in order. -/
def TypeRef.fieldNames : List String :=
  ["name", "builtin", "pointer_count", "optional", "generic_argument", "generic_arguments",
    "collection", "collection_size", "module"]

/-- Reads a type whose arguments have been read. -/
def TypeRef.ofMembers? (ms : Json.Members) (arguments? : Option (List TypeRef)) :
    Option TypeRef := do
  return {
    name := ← ms.required "name" Json.string?
    isBuiltin := ← flagOf? ms "builtin"
    pointers := ← ms.orElse "pointer_count" (Json.natUpTo? mostPointers) 0
    isOptional := ← flagOf? ms "optional"
    isGenericParameter := ← flagOf? ms "generic_argument"
    arguments := ← ms.orElse "generic_arguments" (fun _ => arguments?) []
    isCollection := ← flagOf? ms "collection"
    size? := ← ms.optional "collection_size" coordinate?
    moduleName := ← ms.orElse "module" Json.string? "" }

mutual

/-- Reads a type. -/
def TypeRef.ofJson? : Json → Option TypeRef
  | .object ms => TypeRef.ofMembers? ms (TypeRef.argumentsIn? ms)
  | .array items => do
    let ms ← (Json.array items).record? TypeRef.fieldNames 1
    TypeRef.ofMembers? ms (TypeRef.argumentsAt? 5 items)
  | _ => .none

/-- Reads the arguments of a type in the first field of their name. -/
def TypeRef.argumentsIn? : List (String × Json) → Option (List TypeRef)
  | [] => .none
  | (name, j) :: ms =>
    if name = "generic_arguments" then TypeRef.listOfJson? j else TypeRef.argumentsIn? ms

/-- Reads the arguments of a type at a place among values. -/
def TypeRef.argumentsAt? : Nat → List Json → Option (List TypeRef)
  | _, [] => .none
  | 0, j :: _ => TypeRef.listOfJson? j
  | n + 1, _ :: js => TypeRef.argumentsAt? n js

/-- Reads a list of types. -/
def TypeRef.listOfJson? : Json → Option (List TypeRef)
  | .array items => TypeRef.ofItems? items
  | _ => .none

/-- Reads types. -/
def TypeRef.ofItems? : List Json → Option (List TypeRef)
  | [] => some []
  | j :: js => do
    let t ← TypeRef.ofJson? j
    let ts ← TypeRef.ofItems? js
    return t :: ts

end

/-- The fields of what a parameter has besides name and type, in order. -/
def ParameterInfo.fieldNames : List String :=
  ["vararg", "default"]

/-- Reads what a parameter has besides name and type. -/
def ParameterInfo.ofJson? (j : Json) : Option ParameterInfo := do
  let ms ← j.record? ParameterInfo.fieldNames 2
  return ⟨← ms.required "vararg" Json.bool?, ← ms.optional "default" Json.string?⟩

/-- Reads a variable. -/
def Variable.ofJson? (j : Json) : Option Variable := do
  let ms ← j.members?
  return {
    toDeclaration := ← Declaration.ofMembers? ms
    type := ← Json.Members.required ms "type" TypeRef.ofJson?
    parameter? := ← Json.Members.optional ms "arg" ParameterInfo.ofJson?
    isConstant := ← flagOf? ms "constant" }

/-! ## Functions -/

/-- The sort of a function that a name stands for. -/
def FunctionKind.ofName? (name : String) : Option FunctionKind :=
  if name == "Free" then some .free
  else if name == "Method" then some .method
  else if name == "Macro" then some .macroDef
  else none

/-- Reads the sort of a function. -/
def FunctionKind.ofJson? : Json → Option FunctionKind
  | .string name => FunctionKind.ofName? name
  | .object [(name, .null)] => FunctionKind.ofName? name
  | _ => none

/-- Reads a function. -/
def Function.ofJson? (j : Json) : Option Function := do
  let ms ← j.members?
  return {
    toDeclaration := ← Declaration.ofMembers? ms
    kind := ← Json.Members.required ms "kind" FunctionKind.ofJson?
    returns := ← Json.Members.required ms "return_type" TypeRef.ofJson?
    parameters := ← tableOf? ms "args" Variable.ofJson?
    receiver? := ← Json.Members.optional ms "type_identifier" Json.string?
    locals := ← Json.Members.orElse ms "locals" (Json.itemsOf? Variable.ofJson?) [] }

/-! ## Structs and members -/

/-- Reads a struct whose members have been read. -/
def Aggregate.ofMembers? (ms : Json.Members) (members? : Option (List Member)) :
    Option Struct := do
  return {
    toDeclaration := ← Declaration.ofMembers? ms
    members := ← ms.required "members" fun _ => members?
    isUnion := ← flagOf? ms "union"
    interfaces := ← textsOf? ms "implements" }

/-- Reads a member whose body has been read. -/
def Member.ofMembers? (ms : Json.Members) (body? : Option Struct) : Option Member := do
  return {
    toDeclaration := ← Declaration.ofMembers? ms
    type := ← ms.required "type" TypeRef.ofJson?
    bits? := ← ms.optional "bit_range" coordinates?
    awaitsExpansion := ← flagOf? ms "inline_pending"
    isExpanded := ← flagOf? ms "expanded_inline"
    body? := ← ms.optional "substruct" fun _ => body?
    owner := ← ms.orElse "owner" Json.string? "" }

mutual

/-- Reads a member. -/
def Member.ofJson? : Json → Option Member
  | .object ms => Member.ofMembers? ms (Member.bodyIn? ms)
  | _ => none

/-- Reads the body of a member in the first field of its name. -/
def Member.bodyIn? : List (String × Json) → Option Struct
  | [] => none
  | (name, j) :: ms => if name = "substruct" then Member.structOfJson? j else Member.bodyIn? ms

/-- Reads a struct. -/
def Member.structOfJson? : Json → Option Struct
  | .object ms => Aggregate.ofMembers? ms (Member.membersIn? ms)
  | _ => none

/-- Reads the members of a struct in the first field of their name. -/
def Member.membersIn? : List (String × Json) → Option (List Member)
  | [] => none
  | (name, j) :: ms => if name = "members" then Member.listOfJson? j else Member.membersIn? ms

/-- Reads a list of members. -/
def Member.listOfJson? : Json → Option (List Member)
  | .array items => Member.ofItems? items
  | _ => none

/-- Reads members. -/
def Member.ofItems? : List Json → Option (List Member)
  | [] => some []
  | j :: js => do
    let m ← Member.ofJson? j
    let ms ← Member.ofItems? js
    return m :: ms

end

/-- Reads a bitstruct. -/
def Bitstruct.ofJson? (j : Json) : Option Bitstruct := do
  let ms ← j.members?
  return {
    toDeclaration := ← Declaration.ofMembers? ms
    backing := ← Json.Members.required ms "backing_type" TypeRef.ofJson?
    members := ← Json.Members.required ms "members" Member.listOfJson?
    interfaces := ← textsOf? ms "implements" }

/-! ## Enums and faults -/

/-- Reads an enumerator. -/
def Enumerator.ofJson? (j : Json) : Option Enumerator := do
  let ms ← j.members?
  return {
    toDeclaration := ← Declaration.ofMembers? ms
    value := ← Json.Members.orElse ms "value" Json.string? ""
    enumName := ← Json.Members.required ms "enum_name" Json.string? }

/-- Reads an enum. -/
def Enum.ofJson? (j : Json) : Option Enum := do
  let ms ← j.members?
  return {
    toDeclaration := ← Declaration.ofMembers? ms
    backing := ← Json.Members.orElse ms "backing_type" Json.string? ""
    enumerators := ← Json.Members.required ms "enumerators" (Json.itemsOf? Enumerator.ofJson?)
    values := ← Json.Members.orElse ms "associated_values" (Json.itemsOf? Variable.ofJson?) []
    interfaces := ← textsOf? ms "implements" }

/-- Reads a fault value. -/
def FaultConstant.ofJson? (j : Json) : Option FaultConstant := do
  let ms ← j.members?
  return {
    toDeclaration := ← Declaration.ofMembers? ms
    fault? := ← Json.Members.optional ms "fault_name" Json.string? }

/-- Reads a fault. -/
def Fault.ofJson? (j : Json) : Option Fault := do
  let ms ← j.members?
  return {
    toDeclaration := ← Declaration.ofMembers? ms
    backing := ← Json.Members.orElse ms "backing_type" Json.string? ""
    constants := ← Json.Members.required ms "constants" (Json.itemsOf? FaultConstant.ofJson?) }

/-! ## Aliases, distinct types and interfaces -/

/-- Reads what an alias stands for. -/
def AliasTarget.ofJson? : Json → Option AliasTarget
  | .object [(kind, j)] =>
    if kind == "Identifier" then j.string?.map .symbol
    else if kind == "Type" then (TypeRef.ofJson? j).map .type
    else none
  | _ => none

/-- Reads an alias. -/
def Alias.ofJson? (j : Json) : Option Alias := do
  let ms ← j.members?
  return {
    toDeclaration := ← Declaration.ofMembers? ms
    target := ← Json.Members.required ms "target" AliasTarget.ofJson? }

/-- Reads a distinct type. -/
def Distinct.ofJson? (j : Json) : Option Distinct := do
  let ms ← j.members?
  return {
    toDeclaration := ← Declaration.ofMembers? ms
    base := ← Json.Members.required ms "base_type" TypeRef.ofJson?
    isInline := ← flagOf? ms "inline" }

/-- Reads an interface. -/
def Interface.ofJson? (j : Json) : Option Interface := do
  let ms ← j.members?
  return {
    toDeclaration := ← Declaration.ofMembers? ms
    methods := ← Json.Members.required ms "methods" (Table.ofJson? Function.ofJson?) }

/-! ## Modules -/

/-- Reads a module. -/
def Module.ofJson? (j : Json) : Option Module := do
  let ms ← j.members?
  return {
    toDeclaration := ← Declaration.ofMembers? ms
    imports := ← Json.Members.orElse ms "imports" (Json.itemsOf? ModulePath.ofJson?) []
    genericParameters := ← textsOf? ms "generic_parameters"
    isPrivate := ← flagOf? ms "private"
    attributes := ← textsOf? ms "attributes"
    globals := ← tableOf? ms "variables" Variable.ofJson?
    enums := ← tableOf? ms "enums" Enum.ofJson?
    faults := ← tableOf? ms "faults" Fault.ofJson?
    faultConstants := ← tableOf? ms "fault_constants" FaultConstant.ofJson?
    structs := ← tableOf? ms "structs" Member.structOfJson?
    bitstructs := ← tableOf? ms "bitstructs" Bitstruct.ofJson?
    aliases := ← tableOf? ms "defs" Alias.ofJson?
    distincts := ← tableOf? ms "distincts" Distinct.ofJson?
    interfaces := ← tableOf? ms "interfaces" Interface.ofJson?
    functions := ← Json.Members.orElse ms "functions" (Json.itemsOf? Function.ofJson?) [] }

end C3Lens
