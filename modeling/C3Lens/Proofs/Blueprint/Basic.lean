import C3Lens.Outline.Unit

/-!
# Blueprints of modules

A blueprint lists what one module declares: its imports and, in any order, its globals, structs, enums
and function prototypes.

* `Blueprint.text` writes it as a source text, one declaration after the other;
* `Blueprint.tree` is the syntax tree of such a text without its blanks;
* `Blueprint.IsProper` says that the names can be names and the types can be types;
* `Blueprint.Describes` compares it with a module: each declaration of the module by its name and by the
  texts of its types.

Of a type the module keeps no more than `TypeRef.mostPointers` stars, and no size from 2³² on
(`Blueprint.WrittenType.kept`).
-/

namespace C3Lens

namespace Blueprint

/-- A type as it is written: a name, stars behind it, and at most one array mark, with or without a
size. -/
structure WrittenType where
  name : String
  stars : Nat := 0
  mark? : Option (Option Nat) := none
deriving DecidableEq

/-- A name with its type: a variable, a member, a parameter, or the head of a function. -/
structure Slot where
  type : WrittenType
  name : String
deriving DecidableEq

/-- A declaration. -/
inductive Item where
  | global (slot : Slot)
  | struct (name : String) (members : List Slot)
  | enum (name : String) (enumerators : List String)
  | function (head : Slot) (parameters : List Slot)
deriving DecidableEq

end Blueprint

/-- What a module declares. -/
structure Blueprint where
  path : List String
  imports : List (List String)
  items : List Blueprint.Item
deriving DecidableEq

namespace Blueprint

/-! ## The declarations of one kind -/

/-- The globals, in order. -/
def globals (b : Blueprint) : List Slot :=
  b.items.filterMap fun | .global slot => some slot | _ => none

/-- The structs with their members, in order. -/
def structs (b : Blueprint) : List (String × List Slot) :=
  b.items.filterMap fun | .struct name members => some (name, members) | _ => none

/-- The enums with their enumerators, in order. -/
def enums (b : Blueprint) : List (String × List String) :=
  b.items.filterMap fun | .enum name enumerators => some (name, enumerators) | _ => none

/-- The functions with their parameters, in order. -/
def functions (b : Blueprint) : List (Slot × List Slot) :=
  b.items.filterMap fun | .function head parameters => some (head, parameters) | _ => none

/-! ## Source text -/

/-- An array mark, if there is one. -/
def markText : Option (Option Nat) → String
  | none => ""
  | some none => "[]"
  | some (some size) => "[" ++ toString size ++ "]"

def WrittenType.text (t : WrittenType) : String :=
  t.name ++ String.ofList (List.replicate t.stars '*') ++ markText t.mark?

def Slot.text (s : Slot) : String :=
  s.type.text ++ " " ++ s.name

def Item.text : Item → String
  | .global slot => slot.text ++ ";"
  | .struct name members =>
    "struct " ++ name ++ " \x7b\n" ++ String.join (members.map fun s => "\t" ++ s.text ++ ";\n") ++ "\x7d"
  | .enum name enumerators => "enum " ++ name ++ " \x7b " ++ ", ".intercalate enumerators ++ " \x7d"
  | .function head parameters => "fn " ++ head.text ++ "(" ++ ", ".intercalate (parameters.map Slot.text) ++ ");"

/-- A path with the reserved word in front of it. -/
def pathLine (word : String) (path : List String) : String :=
  word ++ " " ++ "::".intercalate path ++ ";\n"

/-- The text of a blueprint, one declaration after the other. -/
def text (b : Blueprint) : String :=
  pathLine "module" b.path ++ String.join (b.imports.map (pathLine "import")) ++
    String.join (b.items.map fun item => item.text ++ "\n")

/-! ## Syntax tree -/

section Tree

open C3Lens.Tree (leaf node)

def word (name : String) : Tree := leaf ⟨.ident, name⟩

def nameTree (name : String) : Tree := node .name [word name]

def semicolon : Tree := leaf ⟨.semicolon, ";"⟩

def comma : Tree := leaf ⟨.comma, ","⟩

/-- What an array mark holds in its brackets. -/
def sizeTrees (size? : Option Nat) : List Tree :=
  (size?.map fun size => leaf ⟨.intNumber, toString size⟩).toList

def markTree (size? : Option Nat) : Tree :=
  node .arraySuffix (leaf ⟨.leftBracket, "["⟩ :: (sizeTrees size? ++ [leaf ⟨.rightBracket, "]"⟩]))

def WrittenType.tree (t : WrittenType) : Tree :=
  node .type (word t.name :: (List.replicate t.stars (leaf ⟨.star, "*"⟩) ++ (t.mark?.map markTree).toList))

def Slot.trees (s : Slot) : List Tree :=
  [s.type.tree, nameTree s.name]

/-- A member of a struct. -/
def Slot.memberTree (s : Slot) : Tree :=
  node .memberDecl (s.trees ++ [semicolon])

/-- A parameter of a function. -/
def Slot.parameterTree (s : Slot) : Tree :=
  node .param s.trees

def enumeratorTree (name : String) : Tree :=
  node .enumerator [nameTree name]

/-- Trees between brackets. -/
def bracketed (opener closer : Token) (ts : List Tree) : List Tree :=
  leaf opener :: (ts ++ [leaf closer])

/-- Trees between braces. -/
def braced (ts : List Tree) : List Tree :=
  bracketed ⟨.leftBrace, "\x7b"⟩ ⟨.rightBrace, "\x7d"⟩ ts

/-- The list of parameters, in parentheses. -/
def parametersTree (parameters : List Slot) : Tree :=
  node .paramList (bracketed ⟨.leftParen, "("⟩ ⟨.rightParen, ")"⟩
    (List.intersperse comma (parameters.map Slot.parameterTree)))

def Item.tree : Item → Tree
  | .global slot => node .globalVarDecl (slot.trees ++ [semicolon])
  | .struct name members =>
    node .structDef [leaf ⟨.structKw, "struct"⟩, nameTree name,
      node .structBody (braced (members.map Slot.memberTree))]
  | .enum name enumerators =>
    node .enumDef [leaf ⟨.enumKw, "enum"⟩, nameTree name,
      node .enumBody (braced (List.intersperse comma (enumerators.map enumeratorTree)))]
  | .function head parameters =>
    node .fnDef (leaf ⟨.fnKw, "fn"⟩ :: (head.trees ++ [parametersTree parameters, semicolon]))

def pathTree (path : List String) : Tree :=
  node .modulePath (List.intersperse (leaf ⟨.colonColon, "::"⟩) (path.map word))

def moduleTree (path : List String) : Tree :=
  node .moduleDecl [leaf ⟨.moduleKw, "module"⟩, pathTree path, semicolon]

def importTree (path : List String) : Tree :=
  node .importDecl [leaf ⟨.importKw, "import"⟩, pathTree path, semicolon]

/-- The syntax tree of the text without the blanks. -/
def tree (b : Blueprint) : Tree :=
  node .sourceFile (moduleTree b.path :: (b.imports.map importTree ++ b.items.map Item.tree))

end Tree

/-- A path without its first name. -/
def pathTail (names : List String) : List Tree :=
  names.flatMap fun name => [Tree.leaf ⟨.colonColon, "::"⟩, word name]

theorem intersperse_path (name : String) (names : List String) :
    List.intersperse (Tree.leaf ⟨.colonColon, "::"⟩) ((name :: names).map word) = word name :: pathTail names := by
  induction names generalizing name with
  | nil => rfl
  | cons next names ih =>
    rw [List.map_cons, List.map_cons, List.intersperse_cons_cons, ← List.map_cons, ih]
    rfl

/-! ## What can be written -/

/-- The text is one token, a name and no reserved word. -/
def IsName (name : String) : Prop :=
  Token.ofString name = [⟨.ident, name⟩]

def IsPath (path : List String) : Prop :=
  path ≠ [] ∧ ∀ name ∈ path, IsName name

/-- A built-in type, except for the one that is a reserved word, or a name as user-defined types have. -/
def WrittenType.IsProper (t : WrittenType) : Prop :=
  isBuiltinType t.name = true ∧ t.name ≠ "fault" ∨ IsName t.name ∧ isTypeName t.name = true

def Slot.IsProper (s : Slot) : Prop :=
  s.type.IsProper ∧ IsName s.name

/-- Each slot is proper, and no two have the same name. -/
def AreProper (slots : List Slot) : Prop :=
  (∀ s ∈ slots, s.IsProper) ∧ (slots.map Slot.name).Nodup

def Item.IsProper : Item → Prop
  | .global slot => slot.IsProper
  | .struct name members => IsName name ∧ AreProper members
  | .enum name enumerators => IsName name ∧ (∀ e ∈ enumerators, IsName e) ∧ enumerators.Nodup
  | .function head parameters => head.IsProper ∧ AreProper parameters

/-- Names are names, types are types, and no two declarations of a kind have the same name. -/
structure IsProper (b : Blueprint) : Prop where
  path : IsPath b.path
  imports : (∀ path ∈ b.imports, IsPath path) ∧ b.imports.Nodup
  items : ∀ item ∈ b.items, item.IsProper
  globals : (b.globals.map Slot.name).Nodup
  structs : (b.structs.map Prod.fst).Nodup
  enums : (b.enums.map Prod.fst).Nodup
  functions : (b.functions.map (·.1.name)).Nodup

section Decidable

instance (name : String) : Decidable (IsName name) :=
  inferInstanceAs (Decidable (Token.ofString name = _))

instance (path : List String) : Decidable (IsPath path) :=
  inferInstanceAs (Decidable (path ≠ [] ∧ ∀ name ∈ path, IsName name))

instance (t : WrittenType) : Decidable t.IsProper :=
  inferInstanceAs
    (Decidable (isBuiltinType t.name = true ∧ t.name ≠ "fault" ∨ IsName t.name ∧ isTypeName t.name = true))

instance (s : Slot) : Decidable s.IsProper :=
  inferInstanceAs (Decidable (s.type.IsProper ∧ IsName s.name))

instance (slots : List Slot) : Decidable (AreProper slots) :=
  inferInstanceAs (Decidable ((∀ s ∈ slots, s.IsProper) ∧ (slots.map Slot.name).Nodup))

instance (item : Item) : Decidable item.IsProper :=
  match item with
  | .global slot => inferInstanceAs (Decidable slot.IsProper)
  | .struct name members => inferInstanceAs (Decidable (IsName name ∧ AreProper members))
  | .enum name enumerators =>
    inferInstanceAs (Decidable (IsName name ∧ (∀ e ∈ enumerators, IsName e) ∧ enumerators.Nodup))
  | .function head parameters => inferInstanceAs (Decidable (head.IsProper ∧ AreProper parameters))

instance (b : Blueprint) : Decidable b.IsProper :=
  decidable_of_iff (IsPath b.path ∧ ((∀ path ∈ b.imports, IsPath path) ∧ b.imports.Nodup) ∧
      (∀ item ∈ b.items, item.IsProper) ∧ (b.globals.map Slot.name).Nodup ∧ (b.structs.map Prod.fst).Nodup ∧
      (b.enums.map Prod.fst).Nodup ∧ (b.functions.map (·.1.name)).Nodup)
    ⟨fun ⟨path, imports, items, globals, structs, enums, functions⟩ =>
      ⟨path, imports, items, globals, structs, enums, functions⟩,
    fun h => ⟨h.path, h.imports, h.items, h.globals, h.structs, h.enums, h.functions⟩⟩

end Decidable

/-! ## What is read -/

/-- What is kept of a type. -/
def WrittenType.kept (t : WrittenType) : WrittenType :=
  ⟨t.name, min t.stars TypeRef.mostPointers, t.mark?.map fun size? => size?.filter (· < 4294967296)⟩

/-- The name and the text of the type, as it is kept. -/
def Slot.entry (s : Slot) : String × String :=
  (s.name, s.type.kept.text)

/-- What is compared of a global. -/
def globalEntry (v : Variable) : (String × String) × Bool :=
  ((v.name, v.type.text), v.isConstant)

def parameterEntry (v : Variable) : (String × String) × Option ParameterInfo :=
  ((v.name, v.type.text), v.parameter?)

def memberEntry (m : Member) : String × String :=
  (m.name, m.type.text)

def structEntry (a : Struct) : String × Bool × List (String × String) :=
  (a.name, a.isUnion, a.members.map memberEntry)

def enumEntry (e : Enum) : String × String × List (String × String) :=
  (e.name, e.backing, e.enumerators.map fun x => (x.name, x.value))

def functionEntry (f : Function) :
    FunctionKind × (String × String) × List ((String × String) × Option ParameterInfo) :=
  (f.kind, (f.name, f.returns.text), f.parameters.values.map parameterEntry)

/-- The module declares what the blueprint lists, in the same order, and nothing else. -/
structure Describes (b : Blueprint) (m : Module) : Prop where
  path : m.modulePath.names = b.path
  imports : m.imports.map ModulePath.names = b.imports
  globals : m.globals.values.map globalEntry = b.globals.map fun s => (s.entry, false)
  structs : m.structs.values.map structEntry = b.structs.map fun a => (a.1, false, a.2.map Slot.entry)
  enums : m.enums.values.map enumEntry = b.enums.map fun e => (e.1, "", e.2.map fun name => (name, ""))
  functions : m.functions.map functionEntry =
    b.functions.map fun f => (.free, f.1.entry, f.2.map fun s => (s.entry, some ⟨false, none⟩))
  generics : m.genericParameters = [] ∧ m.attributes = []
  others : m.bitstructs.values = [] ∧ m.faults.values = [] ∧ m.faultConstants.values = [] ∧
    m.aliases.values = [] ∧ m.distincts.values = [] ∧ m.interfaces.values = []

end Blueprint

end C3Lens
