import C3Lens.Files.Url
import C3Lens.Json.Basic

/-!
# Shapes of values

Every message of the protocol has a shape: which members its parameters have, and of what kind
their values are. `Shape.fit?` checks a value and brings it into its usual form: a record that
is written as a row of its values becomes an object, optional members that are `null` are left
out, and so are members that are none of the shape.
-/

namespace C3Lens

/-- Whether a member of a record has to be there. -/
inductive Need where
  | needed
  /-- The member may be missing, which `null` means too; a row has to tell it. -/
  | optional
  /-- The member may be missing, also at the end of a row. -/
  | defaulted
deriving DecidableEq, Inhabited

mutual

/-- The shape of a value. -/
inductive Shape where
  | any
  | nothing
  | bool
  | number
  | text
  | url
  /-- An integer between two bounds. -/
  | int (least most : Int)
  /-- One of some words, or an object that has the word for its only member, with `null`. -/
  | word (words : List String)
  | list (item : Shape)
  /-- A list of a fixed length. -/
  | tuple (length : Nat) (item : Shape)
  /-- An object with any members, whose names may have to be URLs. -/
  | dictionary (byUrl : Bool) (item : Shape)
  /-- The first of two shapes that fits. -/
  | either (first second : Shape)
  /-- An object, or, if `orRow` allows it, the row of the values of its members. -/
  | record (orRow : Bool) (fields : List Field)
  /-- An object all other members of which have a shape in common. -/
  | openRecord (fields : List Field) (others : Shape)

/-- A member of a record. -/
inductive Field where
  | mk (name : String) (need : Need) (shape : Shape)

end

instance : Inhabited Shape := ⟨.any⟩

namespace Field

/-- The name of a member. -/
def name : Field → String
  | mk name _ _ => name

/-- Whether a member has to be there. -/
def need : Field → Need
  | mk _ need _ => need

end Field

namespace Shape

/-- The members of an object that are given by name; of several, the last one counts. -/
def lookUp (members : List (String × Json)) (name : String) : Option Json :=
  (members.reverse.find? (·.1 == name)).map (·.2)

/-- The members that a row of values gives; only defaulted ones may be missing at its end. -/
def ofRow? (fields : List Field) (items : List Json) : Option (List (String × Json)) :=
  if items.length ≤ fields.length && (fields.drop items.length).all (·.need == .defaulted) then
    some ((fields.map Field.name).zip items)
  else none

/-- The members of a record. -/
def members? (orRow : Bool) (fields : List Field) : Json → Option (List (String × Json))
  | .object members => some members
  | .array items => if orRow then ofRow? fields items else none
  | _ => none

/-- Checks a word. -/
def word? (words : List String) : Json → Option Json
  | .string s => if words.contains s then some (.string s) else none
  | .object [(name, .null)] => if words.contains name then some (.string name) else none
  | _ => none

mutual

/-- Checks a value and brings it into its usual form. -/
def fit? : Shape → Json → Option Json
  | any, j => some j
  | nothing, j => if j.isNull then some j else none
  | bool, j => j.bool?.map .bool
  | number, j =>
    match j with
    | .int n => some (.int n)
    | .float spelling => some (.float spelling)
    | _ => none
  | text, j => j.string?.map .string
  | url, j => (j.string?.filter fun s => (Url.parse? s).isSome).map .string
  | int least most, j => (j.int?.filter fun n => decide (least ≤ n) && decide (n ≤ most)).map .int
  | word words, j => word? words j
  | list item, j => (j.items?.bind fun items => items.mapM fun i => fit? item i).map .array
  | tuple length item, j =>
    ((j.items?.filter (·.length == length)).bind fun items =>
      items.mapM fun i => fit? item i).map .array
  | dictionary byUrl item, j =>
    (j.members?.bind fun members => members.mapM fun (name, i) =>
      if byUrl && (Url.parse? name).isNone then none
      else (fit? item i).map fun i => (name, i)).map .object
  | either first second, j => (fit? first j) <|> fit? second j
  | record orRow fields, j => do
    let members ← members? orRow fields j
    return .object (← fitAll? fields members)
  | openRecord fields others, j => do
    let members ← j.members?
    let known := fields.map Field.name
    let more ← (members.filter fun m => !known.contains m.1).mapM fun (name, i) =>
      (fit? others i).map fun i => (name, i)
    return .object ((← fitAll? fields members) ++ more)

/-- Checks the members of a record. -/
def fitAll? : List Field → List (String × Json) → Option (List (String × Json))
  | [], _ => some []
  | field :: fields, members => do
    let first ← fitField? field members
    return first ++ (← fitAll? fields members)

/-- Checks a member of a record. -/
def fitField? : Field → List (String × Json) → Option (List (String × Json))
  | .mk name need shape, members =>
    match lookUp members name with
    | none => if need = .needed then none else some []
    | some j =>
      if need = .optional && j.isNull then some []
      else (fit? shape j).map fun j => [(name, j)]

end

/-! ## Common shapes -/

/-- A signed integer of 32 bits, which most numbered choices are. -/
def signed : Shape := int (-2147483648) 2147483647

/-- An unsigned integer of 32 bits. -/
def unsigned : Shape := int 0 4294967295

/-- An object or the row of its values. -/
def rowed (fields : List Field) : Shape := record true fields

/-- An object that may not be a row. -/
def plain (fields : List Field) : Shape := record false fields

end Shape

namespace Field

/-- A member that has to be there. -/
def needed (name : String) (shape : Shape) : Field := mk name .needed shape

/-- A member that may be missing. -/
def optional (name : String) (shape : Shape) : Field := mk name .optional shape

/-- A truth value that may be missing. -/
def flag (name : String) : Field := optional name .bool

end Field

end C3Lens
