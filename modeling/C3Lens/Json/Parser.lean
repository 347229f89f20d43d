import C3Lens.Json.Basic
import C3Lens.Json.Numeral
import C3Lens.Json.Quoted

/-!
# Reading JSON

`Json.parse?` reads a text that holds exactly one value. Values nest at most 127 levels
deep, strings hold no control characters and no lone surrogates, and a number has to be in
the range of 64-bit integers or of double precision floating point numbers.

`Json.parseBy?` follows a guide that tells which members of objects are needed. The others are
skipped: they are left out of the value, and only their form is asked for.
-/

namespace C3Lens.Json

/-!
## Skipping values

A value that is not needed is skipped. It has to be written correctly, but may nest to any
depth, and its numbers and escapes may be out of range. The lists that are open at a place are
known by their closing brackets, the innermost one first.
-/

/-- What follows the name of a member and its colon. -/
def skipName (s : List Char) : Option (List Char) := do
  let s ← skipString (skipBlanks s)
  expectWord ":" (skipBlanks s)

/-- What follows a value that is no list. -/
def skipAtom (s : List Char) : Option (List Char) :=
  match s with
  | [] => none
  | c :: t =>
    match c with
    | 'n' => expectWord "ull" t
    | 't' => expectWord "rue" t
    | 'f' => expectWord "alse" t
    | '\x22' => skipString s
    | _ => (Numeral.scan s).map (·.2)

/-- What stands behind the comma, or the opening bracket, of a list that is not at its end:
in an object the name of a member comes first. -/
def nextItem (close : Char) (s : List Char) : Option (List Char) :=
  if close = '\x7d' then skipName s else some s

/-- Goes on behind a value: closes the lists that end there. The result is the lists that
stay open, and the text from their next value on. -/
def closeLists : List Char → List Char → Option (List Char × List Char)
  | [], s => some ([], s)
  | close :: opened, s =>
    match skipBlanks s with
    | [] => none
    | c :: s =>
      if c = close then closeLists opened s
      else if c = ',' then (nextItem close s).map fun s => (close :: opened, s)
      else none

/-- Reads the start of a value: a list that holds items stays open, and any other value is
passed with the lists that end behind it. -/
def passValue (opened : List Char) (s : List Char) : Option (List Char × List Char) :=
  match skipBlanks s with
  | [] => none
  | c :: t =>
    if c = '[' || c = '\x7b' then
      let close := if c = '[' then ']' else '\x7d'
      match skipBlanks t with
      | [] => none
      | d :: u =>
        if d = close then closeLists opened u
        else (nextItem close (d :: u)).map fun s => (close :: opened, s)
    else (skipAtom (c :: t)).bind (closeLists opened)

/-- Skips a value and what is left of the lists around it; `n` bounds the number of values. -/
def skipWithin : Nat → List Char → List Char → Option (List Char)
  | 0, _, _ => none
  | n + 1, opened, s =>
    match passValue opened s with
    | none => none
    | some ([], s) => some s
    | some (opened, s) => skipWithin n opened s

/-- What follows a value. -/
def skipValue (s : List Char) : Option (List Char) :=
  skipWithin (s.length + 1) [] s

/-- Which members of a value are needed. The parts of a value that are read differ in how
they are read on, which a state of the type `σ` tells. -/
structure Guide (σ : Type) where
  /-- How the value of a member is read; `none` if the member is not needed. -/
  member? : σ → String → Option σ
  /-- How the item at a place of an array is read. -/
  item : σ → Nat → σ

/-- The guide that needs all members. -/
def Guide.everything : Guide Unit :=
  ⟨fun _ _ => some (), fun _ _ => ()⟩

/-- A number. -/
def number : Scan Json := fun s => do
  let (numeral, rest) ← Numeral.scan s
  match numeral.integer? with
  | some n => return (int n, rest)
  | none =>
    if numeral.isFinite then
      return (float (String.ofList (s.take (s.length - rest.length))), rest)
    else none

/-- A member of an object, its value read by `read`; a member for which there is no way to
read it is skipped. -/
def memberScan (read? : String → Option (Scan Json)) : Scan (Option (String × Json)) :=
  fun s => do
    let (name, s) ← stringScan (skipBlanks s)
    let s ← expectWord ":" (skipBlanks s)
    match read? name with
    | none => return (none, ← skipValue s)
    | some read =>
      let (j, s) ← read s
      return (some (name, j), s)

/-- A value in which arrays and objects nest less than `depth` levels deep. -/
def value {σ : Type} (guide : Guide σ) : Nat → σ → Scan Json
  | 0, _, _ => none
  | depth + 1, here, s =>
    match skipBlanks s with
    | [] => none
    | c :: s =>
      match c with
      | 'n' => (expectWord "ull" s).map fun s => (null, s)
      | 't' => (expectWord "rue" s).map fun s => (bool true, s)
      | 'f' => (expectWord "alse" s).map fun s => (bool false, s)
      | '\x22' => (stringScan (c :: s)).map fun (t, s) => (string t, s)
      | '[' =>
        if depth = 0 then none
        else
          (listItems ']' (fun place => value guide depth (guide.item here place)) s).map
            fun (js, s) => (array js, s)
      | '\x7b' =>
        if depth = 0 then none
        else
          (listItems '\x7d'
              (fun _ => memberScan fun name => (guide.member? here name).map (value guide depth))
              s).map
            fun (ms, s) => (object (ms.filterMap id), s)
      | _ => number (c :: s)

/-- One more than the number of levels that values may nest. -/
def nestingLimit : Nat := 128

/-- Reads of a text that holds exactly one value what a guide needs. -/
def parseBy? {σ : Type} (guide : Guide σ) (start : σ) (s : String) : Option Json :=
  match value guide nestingLimit start s.toList with
  | some (j, rest) => if (skipBlanks rest).isEmpty then some j else none
  | none => none

/-- Reads a text that holds exactly one value. -/
def parse? (s : String) : Option Json :=
  parseBy? .everything () s

end C3Lens.Json
