/-!
# JSON values

The members of an object keep the order and the repetitions of the text. Numbers without a
fraction and exponent are integers of at most 64 bits; all others keep their spelling.
-/

namespace C3Lens

/-- A JSON value. -/
inductive Json where
  | null
  | bool (value : Bool)
  | int (value : Int)
  | float (spelling : String)
  | string (value : String)
  | array (items : List Json)
  | object (members : List (String × Json))
deriving Inhabited

namespace Json

/-- A natural number. -/
def nat (n : Nat) : Json :=
  int n

/-- A value that may be missing. -/
def orNull {α : Type} (f : α → Json) : Option α → Json
  | some a => f a
  | none => null

/-- A list of values. -/
def list {α : Type} (f : α → Json) (as : List α) : Json :=
  array (as.map f)

/-- The members of an object. -/
def members? : Json → Option (List (String × Json))
  | object members => some members
  | _ => none

/-- The items of an array. -/
def items? : Json → Option (List Json)
  | array items => some items
  | _ => none

/-- The text of a string. -/
def string? : Json → Option String
  | string s => some s
  | _ => none

/-- The value of a truth value. -/
def bool? : Json → Option Bool
  | bool b => some b
  | _ => none

/-- The value of an integer. -/
def int? : Json → Option Int
  | int n => some n
  | _ => none

/-- An integer from zero to `most`. -/
def natUpTo? (most : Nat) : Json → Option Nat
  | int n => if 0 ≤ n ∧ n ≤ most then some n.toNat else none
  | _ => none

/-- Whether the value is `null`. -/
def isNull : Json → Bool
  | null => true
  | _ => false

/-- The last member of the name, in an object. -/
def get? (name : String) : Json → Option Json
  | object members => (members.reverse.find? (·.1 == name)).map (·.2)
  | _ => none

end Json

end C3Lens

/-!
## Records in JSON

A record is an object whose members are the fields. A field that is given twice makes the
record malformed; members that are no fields do not count. Some records may also be written as
an array of the values of their fields.
-/

namespace C3Lens.Json

/-- The members of a record. -/
abbrev Members := List (String × Json)

namespace Members

/-- The value of a field that may be missing; `none` if it is given twice. -/
def find? (ms : Members) (name : String) : Option (Option Json) :=
  match ms.filter (·.1 == name) with
  | [] => some none
  | [m] => some (some m.2)
  | _ => none

/-- Reads a field that has to be there. -/
def required {α : Type} (ms : Members) (name : String) (read : Json → Option α) : Option α := do
  match ← ms.find? name with
  | some j => read j
  | none => none

/-- Reads a field that has a value of its own when it is missing. -/
def orElse {α : Type} (ms : Members) (name : String) (read : Json → Option α) (default : α) :
    Option α := do
  match ← ms.find? name with
  | some j => read j
  | none => some default

/-- Reads a field that may be missing or `null`. -/
def optional {α : Type} (ms : Members) (name : String) (read : Json → Option α) :
    Option (Option α) := do
  match ← ms.find? name with
  | some j => if j.isNull then some none else (read j).map some
  | none => some none

end Members

/-- The fields of a record that may also be an array of at least `least` values in the order of
`names`. -/
def record? (names : List String) (least : Nat) : Json → Option Members
  | object ms => some ms
  | array items =>
    if least ≤ items.length ∧ items.length ≤ names.length then some (names.zip items) else none
  | _ => none

/-- Reads all items of an array. -/
def itemsOf? {α : Type} (read : Json → Option α) (j : Json) : Option (List α) :=
  j.items?.bind fun items => items.mapM read

/-- Reads all members of an object. -/
def membersOf? {α : Type} (read : Json → Option α) (j : Json) : Option (List (String × α)) :=
  j.members?.bind fun ms => ms.mapM fun m => (read m.2).map fun a => (m.1, a)

/-- The members of a field that is left out where its value is empty. -/
def omitIf {α : Type} (isEmpty : Bool) (name : String) (write : α → Json) (a : α) : Members :=
  if isEmpty then [] else [(name, write a)]

/-- The members of a field that is left out where it has no value. -/
def ifSome {α : Type} (name : String) (write : α → Json) (a? : Option α) : Members :=
  (a?.map fun a => (name, write a)).toList

end C3Lens.Json
