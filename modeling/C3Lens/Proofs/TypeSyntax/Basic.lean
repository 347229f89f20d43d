import C3Lens.Proofs.Blueprint.Basic

/-!
# Written types

A written type is a name with a path in front of it, arguments behind it, which are types again, and then
any marks in any order: stars, question and exclamation marks, and array marks with or without a size.

* `TypeSyntax.tree` is the syntax tree of a type without its blanks;
* `TypeSyntax.IsProper` says that the names are those of types and that sizes are numbers;
* `TypeForm` is what a reader may be shown of a type, and `TypeForm.text` how;
* `TypeSyntax.declared` has one suffix for each star and array mark, in the order in which they are written.

Of the suffixes a `TypeRef` holds a number, up to `TypeRef.mostPointers`, and one array with a size below 2³².
That is `TypeSyntax.kept`.
-/

namespace C3Lens

/-! ## Suffixes -/

/-- A pointer suffix, or an array suffix, which may have a size. -/
inductive TypeSuffix where
  | pointer
  | array (size? : Option Nat)
deriving DecidableEq

namespace TypeSuffix

def text : TypeSuffix → String
  | pointer => "*"
  | array size? => Blueprint.markText (some size?)

/-- What stands in the brackets of an array suffix. -/
def array? : TypeSuffix → Option (Option Nat)
  | pointer => none
  | array size? => some size?

/-- The size of the last array suffix, if there is one; no size if it is no number of 32 bits. -/
def keptArray? (suffixes : List TypeSuffix) : Option (Option Nat) :=
  (suffixes.filterMap array?).getLast?.map fun size? => size?.filter (· < 4294967296)

/-- What a type keeps of its suffixes: the pointers that are counted, and behind them the last array. -/
def kept (suffixes : List TypeSuffix) : List TypeSuffix :=
  List.replicate (min (suffixes.count pointer) TypeRef.mostPointers) pointer ++
    ((keptArray? suffixes).map array).toList

/-- There are no more pointers than are counted, and behind them at most one array, whose size is a
number of 32 bits if it has one. -/
def AreKept (suffixes : List TypeSuffix) : Prop :=
  ∃ (n : Nat) (size?? : Option (Option Nat)), n ≤ TypeRef.mostPointers ∧
    (∀ size, size?? = some (some size) → size < 4294967296) ∧
    suffixes = List.replicate n pointer ++ (size??.map array).toList

end TypeSuffix

/-! ## Forms -/

/-- What is shown of a type: its name, the forms of its arguments, its suffixes, and whether it is
optional. -/
inductive TypeForm where
  | named (name : String) (arguments : List TypeForm) (suffixes : List TypeSuffix) (isOptional : Bool)

namespace TypeForm

/-- What stands behind the name and the arguments. -/
def suffixText (suffixes : List TypeSuffix) (isOptional : Bool) : String :=
  String.join (suffixes.map TypeSuffix.text) ++ (if isOptional then "?" else "")

mutual

def text : TypeForm → String
  | named name arguments suffixes isOptional =>
    name ++ (if arguments.isEmpty then "" else "\x7b" ++ textOfList arguments ++ "\x7d") ++
      suffixText suffixes isOptional

/-- The texts of forms, with commas between them. -/
def textOfList : List TypeForm → String
  | [] => ""
  | [t] => text t
  | t :: ts => text t ++ ", " ++ textOfList ts

end

end TypeForm

/-! ## Types -/

/-- A mark behind a type. The size of an array mark is a numeral, as it is spelled. -/
inductive TypeMark where
  | star
  | question
  | bang
  | array (size? : Option String)
deriving DecidableEq

/-- A type as it is written. What has no arguments has no brackets for them either. -/
inductive TypeSyntax where
  | named (path : List String) (name : String) (inBraces : Bool) (arguments : List TypeSyntax)
    (marks : List TypeMark)

/-- The numeral is one of digits, with underscores between them. -/
def IsDecimal (numeral : String) : Prop :=
  numeral.toList.head?.any Char.isDigit = true ∧ numeral.toList.all Token.isDecimal = true

instance (numeral : String) : Decidable (IsDecimal numeral) :=
  inferInstanceAs (Decidable (numeral.toList.head?.any Char.isDigit = true ∧
    numeral.toList.all Token.isDecimal = true))

def decimalValue (numeral : String) : Nat :=
  Nat.ofDigitChars 10 (numeral.toList.filter (· != '_')) 0

/-- A built-in type, or a name as user-defined types have. -/
def IsTypeWord (name : String) : Prop :=
  isBuiltinType name = true ∨ Blueprint.IsName name ∧ isTypeName name = true

instance (name : String) : Decidable (IsTypeWord name) :=
  inferInstanceAs (Decidable (isBuiltinType name = true ∨ Blueprint.IsName name ∧ isTypeName name = true))

namespace TypeMark

/-- The suffix that a star or an array mark stands for. -/
def suffix? : TypeMark → Option TypeSuffix
  | star => some .pointer
  | array size? => some (.array (size?.map decimalValue))
  | question | bang => none

def suffixes (marks : List TypeMark) : List TypeSuffix :=
  marks.filterMap suffix?

/-- Whether the mark makes the type optional. -/
def isOptional : TypeMark → Bool
  | question | bang => true
  | star | array _ => false

def tree : TypeMark → Tree
  | star => .leaf ⟨.star, "*"⟩
  | question => .leaf ⟨.question, "?"⟩
  | bang => .leaf ⟨.bang, "!"⟩
  | array size? =>
    .node .arraySuffix (Blueprint.bracketed ⟨.leftBracket, "["⟩ ⟨.rightBracket, "]"⟩
      (size?.map fun numeral => Tree.leaf ⟨.intNumber, numeral⟩).toList)

/-- A size is a decimal numeral. -/
def IsProper (mark : TypeMark) : Prop :=
  ∀ numeral, mark = array (some numeral) → IsDecimal numeral

instance : (mark : TypeMark) → Decidable mark.IsProper
  | star => isTrue nofun
  | question => isTrue nofun
  | bang => isTrue nofun
  | array none => isTrue nofun
  | array (some numeral) =>
    decidable_of_iff (IsDecimal numeral)
      ⟨fun decimal _ same => by cases same; exact decimal, fun h => h numeral rfl⟩

end TypeMark

namespace TypeSyntax

/-! ### Trees -/

/-- The token of a name. One built-in type is a reserved word. -/
def wordToken (name : String) : Token :=
  ⟨if name = "fault" then .faultKw else .ident, name⟩

def pathTrees (path : List String) : List Tree :=
  path.flatMap fun name => [Blueprint.word name, .leaf ⟨.colonColon, "::"⟩]

/-- The brackets around arguments. -/
def opener (inBraces : Bool) : Token :=
  if inBraces then ⟨.leftBrace, "\x7b"⟩ else ⟨.leftGeneric, "(<"⟩

def closer (inBraces : Bool) : Token :=
  if inBraces then ⟨.rightBrace, "\x7d"⟩ else ⟨.rightGeneric, ">)"⟩

/-- Arguments in their brackets, if there are any. -/
def argumentTrees (inBraces : Bool) : List Tree → List Tree
  | [] => []
  | t :: ts =>
    [.node .genericArgs (Blueprint.bracketed (opener inBraces) (closer inBraces)
      (List.intersperse Blueprint.comma (t :: ts)))]

mutual

def tree : TypeSyntax → Tree
  | named path name inBraces arguments marks =>
    .node .type (pathTrees path ++ .leaf (wordToken name) ::
      (argumentTrees inBraces (treesOfList arguments) ++ marks.map TypeMark.tree))

def treesOfList : List TypeSyntax → List Tree
  | [] => []
  | t :: ts => tree t :: treesOfList ts

end

/-- The tokens of the type, without blanks. -/
def tokens (t : TypeSyntax) : List Token :=
  t.tree.tokens

/-- Whether the type itself has arguments in braces. -/
def UsesBraces : TypeSyntax → Prop
  | named _ _ inBraces arguments _ => inBraces = true ∧ arguments ≠ []

/-- The kinds of tokens with which a type would go on; `braces` tells whether it may have arguments in
braces. -/
def continuing (braces : Bool) : List TokenKind :=
  [.star, .question, .bang, .leftBracket, .leftGeneric, .colonColon] ++ (if braces then [.leftBrace] else [])

/-- The path is one of names, the name is that of a type, arguments are in braces only behind the name of a
user-defined type, and arguments and marks are proper. -/
inductive IsProper : TypeSyntax → Prop
  | named {path : List String} {name : String} {inBraces : Bool} {arguments : List TypeSyntax}
      {marks : List TypeMark} (parts : ∀ part ∈ path, Blueprint.IsName part) (word : IsTypeWord name)
      (user : inBraces = true → isTypeName name = true) (inner : ∀ a ∈ arguments, IsProper a)
      (sizes : ∀ mark ∈ marks, mark.IsProper) : IsProper (named path name inBraces arguments marks)

/-! ### What is shown -/

mutual

/-- The form of a type, with what `keep` leaves of the suffixes of the type and of all its arguments. -/
def form (keep : List TypeSuffix → List TypeSuffix) : TypeSyntax → TypeForm
  | named _ name _ arguments marks =>
    .named name (formsOfList keep arguments) (keep (TypeMark.suffixes marks))
      (marks.any TypeMark.isOptional)

def formsOfList (keep : List TypeSuffix → List TypeSuffix) : List TypeSyntax → List TypeForm
  | [] => []
  | t :: ts => form keep t :: formsOfList keep ts

end

/-- The form with all suffixes. -/
def declared (t : TypeSyntax) : TypeForm :=
  t.form id

/-- The form with the suffixes that a type keeps. -/
def kept (t : TypeSyntax) : TypeForm :=
  t.form TypeSuffix.kept

/-- The type keeps its suffixes, and so do all its arguments. -/
inductive KeepsSuffixes : TypeSyntax → Prop
  | named {path : List String} {name : String} {inBraces : Bool} {arguments : List TypeSyntax}
      {marks : List TypeMark} (own : TypeSuffix.AreKept (TypeMark.suffixes marks))
      (inner : ∀ a ∈ arguments, KeepsSuffixes a) : KeepsSuffixes (named path name inBraces arguments marks)

end TypeSyntax

end C3Lens
