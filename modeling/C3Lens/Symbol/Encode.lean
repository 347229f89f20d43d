import C3Lens.Json.Basic
import C3Lens.Symbol.Module

/-!
# Symbols as JSON

Every symbol is written as an object that begins with the fields common to all symbols. Fields
that are often empty are left out where they are; tables are objects in their own order.
-/

namespace C3Lens

/-- A table as an object. -/
def Table.toJson {α : Type} (write : α → Json) (t : Table α) : Json :=
  .object (t.entries.map fun e => (e.1, write e.2))

/-- The field of a table, left out where the table is empty. -/
def Table.field {α : Type} (name : String) (write : α → Json) (t : Table α) : Json.Members :=
  Json.omitIf t.isEmpty name (Table.toJson write) t

/-- The field of a list, left out where the list is empty. -/
def listField {α : Type} (name : String) (write : α → Json) (as : List α) : Json.Members :=
  Json.omitIf as.isEmpty name (Json.list write) as

/-- A position as line and column. -/
def Position.toJson (p : Position) : Json :=
  .array [.nat p.line, .nat p.character]

/-- A range as its two ends. -/
def Range.toJson (r : Range) : Json :=
  .array [r.start.toJson, r.stop.toJson]

/-- A contract with name and text. -/
def Contract.toJson (c : Contract) : Json :=
  .object [("name", .string c.name), ("body", .string c.body)]

/-- A doc comment with its contracts. -/
def DocComment.toJson (d : DocComment) : Json :=
  .object (("body", .string d.body) :: listField "contracts" Contract.toJson d.contracts)

/-- The fields common to all symbols. -/
def Declaration.fields (d : Declaration) : Json.Members :=
  [("name", .string d.name), ("module", .string d.modulePath.text), ("doc_id", .string d.doc.text),
    ("id_range", d.nameRange.toJson), ("doc_range", d.range.toJson)] ++
  Json.ifSome "doc_comment" DocComment.toJson d.comment?

/-- The interfaces that a type implements. -/
def interfacesField (names : List String) : Json.Members :=
  listField "implements" .string names

mutual

/-- A type. -/
def TypeRef.toJson : TypeRef → Json
  | ⟨name, isBuiltin, pointers, isOptional, isGenericParameter, arguments, isCollection, size?,
      moduleName⟩ =>
    .object (
      [("name", .string name), ("builtin", .bool isBuiltin), ("pointer_count", .nat pointers),
        ("optional", .bool isOptional), ("generic_argument", .bool isGenericParameter)] ++
      Json.omitIf arguments.isEmpty "generic_arguments" .array (TypeRef.listToJson arguments) ++
      [("collection", .bool isCollection)] ++
      Json.ifSome "collection_size" .nat size? ++
      [("module", .string moduleName)])

/-- Types. -/
def TypeRef.listToJson : List TypeRef → List Json
  | [] => []
  | t :: ts => TypeRef.toJson t :: TypeRef.listToJson ts

end

/-- What a parameter has besides name and type. -/
def ParameterInfo.toJson (p : ParameterInfo) : Json :=
  .object [("vararg", .bool p.isVariadic), ("default", Json.orNull .string p.default?)]

/-- A variable. -/
def Variable.toJson (v : Variable) : Json :=
  .object (v.toDeclaration.fields ++ [("type", v.type.toJson)] ++
    Json.ifSome "arg" ParameterInfo.toJson v.parameter? ++ [("constant", .bool v.isConstant)])

/-- The sort of a function. -/
def FunctionKind.toJson : FunctionKind → Json
  | .free => .string "Free"
  | .method => .string "Method"
  | .macroDef => .string "Macro"

/-- A function. -/
def Function.toJson (f : Function) : Json :=
  .object (f.toDeclaration.fields ++
    [("kind", f.kind.toJson), ("return_type", f.returns.toJson)] ++
    f.parameters.field "args" Variable.toJson ++
    Json.ifSome "type_identifier" .string f.receiver? ++
    listField "locals" Variable.toJson f.locals)

mutual

/-- A member. -/
def Member.toJson : Member → Json
  | ⟨d, type, bits?, awaitsExpansion, isExpanded, body?, owner⟩ =>
    .object (d.fields ++ [("type", type.toJson)] ++
      Json.ifSome "bit_range" (fun b : Nat × Nat => .array [.nat b.1, .nat b.2]) bits? ++
      [("inline_pending", .bool awaitsExpansion), ("expanded_inline", .bool isExpanded)] ++
      Member.bodyField body? ++
      Json.omitIf (owner == "") "owner" .string owner)

/-- The body of a struct that is declared in place. -/
def Member.bodyField : Option (Aggregate Member) → Json.Members
  | none => []
  | some ⟨d, members, isUnion, interfaces⟩ =>
    [("substruct", .object (d.fields ++
      [("members", .array (Member.listToJson members)), ("union", .bool isUnion)] ++
      interfacesField interfaces))]

/-- Members. -/
def Member.listToJson : List Member → List Json
  | [] => []
  | m :: ms => Member.toJson m :: Member.listToJson ms

end

/-- A struct or union. -/
def Aggregate.toJson (s : Struct) : Json :=
  .object (s.toDeclaration.fields ++
    [("members", .array (Member.listToJson s.members)), ("union", .bool s.isUnion)] ++
    interfacesField s.interfaces)

/-- A bitstruct. -/
def Bitstruct.toJson (b : Bitstruct) : Json :=
  .object (b.toDeclaration.fields ++
    [("backing_type", b.backing.toJson), ("members", .array (Member.listToJson b.members))] ++
    interfacesField b.interfaces)

/-- An enumerator. -/
def Enumerator.toJson (e : Enumerator) : Json :=
  .object (e.toDeclaration.fields ++
    [("value", .string e.value), ("enum_name", .string e.enumName)])

/-- An enum. -/
def Enum.toJson (e : Enum) : Json :=
  .object (e.toDeclaration.fields ++
    [("backing_type", .string e.backing), ("enumerators", .list Enumerator.toJson e.enumerators)] ++
    listField "associated_values" Variable.toJson e.values ++ interfacesField e.interfaces)

/-- A fault value. -/
def FaultConstant.toJson (c : FaultConstant) : Json :=
  .object (c.toDeclaration.fields ++ Json.ifSome "fault_name" .string c.fault?)

/-- A fault. -/
def Fault.toJson (f : Fault) : Json :=
  .object (f.toDeclaration.fields ++
    [("backing_type", .string f.backing), ("constants", .list FaultConstant.toJson f.constants)])

/-- What an alias stands for. -/
def AliasTarget.toJson : AliasTarget → Json
  | .symbol path => .object [("Identifier", .string path)]
  | .type t => .object [("Type", t.toJson)]

/-- An alias. -/
def Alias.toJson (a : Alias) : Json :=
  .object (a.toDeclaration.fields ++ [("target", a.target.toJson)])

/-- A distinct type. -/
def Distinct.toJson (d : Distinct) : Json :=
  .object (d.toDeclaration.fields ++
    [("base_type", d.base.toJson), ("inline", .bool d.isInline)])

/-- An interface. -/
def Interface.toJson (i : Interface) : Json :=
  .object (i.toDeclaration.fields ++ [("methods", i.methods.toJson Function.toJson)])

/-- A module. -/
def Module.toJson (m : Module) : Json :=
  .object (m.toDeclaration.fields ++
    listField "imports" (fun p : ModulePath => .string p.text) m.imports ++
    listField "generic_parameters" .string m.genericParameters ++
    [("private", .bool m.isPrivate)] ++
    listField "attributes" .string m.attributes ++
    m.globals.field "variables" Variable.toJson ++
    m.enums.field "enums" Enum.toJson ++
    m.faults.field "faults" Fault.toJson ++
    m.faultConstants.field "fault_constants" FaultConstant.toJson ++
    m.structs.field "structs" Aggregate.toJson ++
    m.bitstructs.field "bitstructs" Bitstruct.toJson ++
    m.aliases.field "defs" Alias.toJson ++
    m.distincts.field "distincts" Distinct.toJson ++
    m.interfaces.field "interfaces" Interface.toJson ++
    listField "functions" Function.toJson m.functions)

end C3Lens
