import C3Lens.Outline.Scope
import C3Lens.Syntax.Kind

/-!
# Types of the source text

A type node becomes a `TypeRef`. A user-defined type is attributed to its qualifier or to
the module it is written in, and recorded as pending.
-/

namespace C3Lens.Outline

/-- A type known by its name and the qualifier it is written with, which may be empty. -/
def namedType (name qualifier : String) : Outline TypeRef := do
  let scope ← read
  if name == "" then return .none
  else if isBuiltinType name then return .builtin name
  else if qualifier == "" && scope.genericParameters.contains name then
    return { TypeRef.user name scope.moduleName with isGenericParameter := true }
  else
    let written := if qualifier == "" then scope.moduleName else qualifier
    modify (·.addType ⟨scope.doc, scope.moduleName, name, written⟩)
    return .user name written

/-- What the parts of a type node say. -/
structure TypeParts where
  /-- The names between the `::`. -/
  names : List String := []
  /-- A compile-time type with its operands. -/
  compileTime : String := ""
  signature? : Option String := none
  arguments : List TypeRef := []
  pointers : Nat := 0
  isOptional : Bool := false
  /-- The size of the last array mark, if there is such a mark. -/
  collection? : Option (Option Nat) := none

namespace TypeParts

/-- Takes a token of a type node into account. -/
def addToken (parts : TypeParts) (t : Token) : TypeParts :=
  if t.kind = .ident ∧ parts.compileTime = "" then { parts with names := parts.names ++ [t.text] }
  else
    match t.kind with
    | .faultKw => { parts with names := parts.names ++ [t.text] }
    | .ctIdent => { parts with compileTime := parts.compileTime ++ t.text }
    | .star => { parts with pointers := min (parts.pointers + 1) TypeRef.mostPointers }
    | .question | .bang => { parts with isOptional := true }
    | .whitespace | .lineComment | .blockComment | .docComment | .colonColon => parts
    | _ =>
      if parts.compileTime ≠ "" ∧ parts.pointers = 0 then
        { parts with compileTime := parts.compileTime ++ t.text }
      else parts

/-- The size that an array mark gives: that of its first integer. -/
def arraySize? (parts : List Tree) : Option Nat :=
  ((parts.filterMap Tree.token?).find? (·.kind == .intNumber)).bind (integerValue? ·.text)

/-- The type that the parts make. -/
def build (parts : TypeParts) : Outline TypeRef := do
  let type ←
    match parts.signature? with
    | some signature => pure (TypeRef.builtin signature)
    | none =>
      if parts.compileTime ≠ "" then pure (TypeRef.builtin parts.compileTime)
      else namedType (parts.names.getLast?.getD "") ("::".intercalate parts.names.dropLast)
  return { type with
    arguments := parts.arguments
    pointers := parts.pointers
    isOptional := parts.isOptional
    isCollection := parts.collection?.isSome
    size? := parts.collection?.join }

end TypeParts

mutual

/-- The type of a type node. -/
def typeOf : Tree → Outline TypeRef
  | .leaf _ => return .none
  | .node _ parts => do
    (← typePartsOf {} parts).build

/-- Takes the parts of a type node into account, one after the other. -/
def typePartsOf (done : TypeParts) : List Tree → Outline TypeParts
  | [] => return done
  | .leaf t :: rest => typePartsOf (done.addToken t) rest
  | .node .fnType parts :: rest =>
    typePartsOf { done with signature? := some (Tree.node .fnType parts).compactText } rest
  | .node .genericArgs parts :: rest => do
    let arguments ← argumentTypesOf parts
    typePartsOf { done with arguments := done.arguments ++ arguments } rest
  | .node .arraySuffix parts :: rest =>
    typePartsOf { done with collection? := some (TypeParts.arraySize? parts) } rest
  | .node _ _ :: rest => typePartsOf done rest

/-- The types among generic arguments. -/
def argumentTypesOf : List Tree → Outline (List TypeRef)
  | [] => return []
  | .node .type parts :: rest => do
    let type ← (← typePartsOf {} parts).build
    return type :: (← argumentTypesOf rest)
  | _ :: rest => argumentTypesOf rest

end

/-- The type written directly below a place, if one is. -/
def typeBelow? (p : Place) : Outline (Option TypeRef) := do
  match p.child? .type with
  | some type => return some (← typeOf type.tree)
  | none => return none

/-- The type written directly below a place, or no type. -/
def typeBelow (p : Place) : Outline TypeRef := do
  return (← typeBelow? p).getD .none

end C3Lens.Outline
