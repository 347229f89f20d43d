/-!
# Types as written

A type reference records what a declaration says about a type; nothing is inferred. The
module of a user-defined type is at first the one it was written in or the qualifier it was
written with, and later the module that declares it.
-/

namespace C3Lens

/-- A type as a declaration writes it. -/
structure TypeRef where
  name : String
  isBuiltin : Bool := false
  /-- Number of pointer marks, at most 255. -/
  pointers : Nat := 0
  isOptional : Bool := false
  /-- Whether the type names a generic parameter of its module. -/
  isGenericParameter : Bool := false
  arguments : List TypeRef := []
  isCollection : Bool := false
  size? : Option Nat := none
  moduleName : String := ""

namespace TypeRef

/-- A user-defined type of a module. -/
def user (name moduleName : String) : TypeRef :=
  { name := name, moduleName := moduleName }

/-- A built-in type. -/
def builtin (name : String) : TypeRef :=
  { name := name, isBuiltin := true }

/-- No type at all. -/
def none : TypeRef :=
  { name := "" }

instance : Inhabited TypeRef := ⟨none⟩

/-- Whether there is no type. -/
def isNone (t : TypeRef) : Bool :=
  t.name == ""

/-- Largest number of pointer marks that is counted. -/
def mostPointers : Nat := 255

/-- The marks behind the name and the arguments. -/
def marks (t : TypeRef) : String :=
  String.ofList (List.replicate t.pointers '*') ++
    (if t.isCollection then
      match t.size? with
      | some size => "[" ++ toString size ++ "]"
      | .none => "[]"
    else "") ++
    (if t.isOptional then "?" else "")

mutual

/-- The written form. -/
def text : TypeRef → String
  | t@⟨name, _, _, _, _, arguments, _, _, _⟩ =>
    name ++ (if arguments.isEmpty then "" else "\x7b" ++ textOfList arguments ++ "\x7d") ++ t.marks

/-- The written forms of types, with commas between them. -/
def textOfList : List TypeRef → String
  | [] => ""
  | [t] => text t
  | t :: ts => text t ++ ", " ++ textOfList ts

end

/-- The name qualified by its module; a built-in type has none. -/
def qualifiedName (t : TypeRef) : String :=
  if t.isBuiltin || t.moduleName == "" then t.name else t.moduleName ++ "::" ++ t.name

mutual

/-- Sets the module of the type and of its arguments to what `f` gives for each; `f` sees the
type as it was. -/
def mapModule (f : TypeRef → String) : TypeRef → TypeRef
  | t@⟨name, isBuiltin, pointers, isOptional, isGenericParameter, arguments, isCollection, size?, _⟩ =>
    ⟨name, isBuiltin, pointers, isOptional, isGenericParameter, mapModuleOfList f arguments,
      isCollection, size?, f t⟩

/-- The same for each of a list of types. -/
def mapModuleOfList (f : TypeRef → String) : List TypeRef → List TypeRef
  | [] => []
  | t :: ts => mapModule f t :: mapModuleOfList f ts

end

end TypeRef

end C3Lens
