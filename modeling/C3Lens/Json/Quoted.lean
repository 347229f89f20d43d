import C3Lens.Text.Hex

/-!
# Strings in quotes

A string holds no control characters, and the escapes of a string that is read name no lone
surrogates. Of a string that is skipped only the form is asked for: four hexadecimal digits
make an escape there, whatever they name.
-/

namespace C3Lens.Json

/-!
## Scanning JSON

What the readers of JSON share: blanks, words, and lists in brackets. A reader takes characters
from the front of a text; it has none to give where the text does not begin with what it reads.
-/

/-- A reader gives what it has read and the rest of the text. -/
abbrev Scan (α : Type) := List Char → Option (α × List Char)

/-- The blanks of JSON. -/
def isBlank (c : Char) : Bool :=
  c == ' ' || c == '\t' || c == '\n' || c == '\r'

/-- Drops leading blanks. -/
def skipBlanks (s : List Char) : List Char :=
  s.dropWhile isBlank

/-- Drops `word`, with which the text has to begin. -/
def expectWord (word : String) (s : List Char) : Option (List Char) :=
  if word.toList.isPrefixOf s then some (s.drop word.length) else none

/-- The items of a list behind its first `place` items, which `done` holds, the last one first.
`item` reads the item at a place, `close` ends the list, and `n` bounds the number of items. -/
def furtherItems {α : Type} (close : Char) (item : Nat → Scan α) :
    Nat → Nat → List α → Scan (List α)
  | 0, _, _, _ => none
  | n + 1, place, done, s =>
    match skipBlanks s with
    | [] => none
    | c :: s =>
      if c = close then some (done.reverse, s)
      else if c = ',' then
        match item place s with
        | some (a, s) => furtherItems close item n (place + 1) (a :: done) s
        | none => none
      else none

/-- The items of a list behind its opening bracket, with commas between them. -/
def listItems {α : Type} (close : Char) (item : Nat → Scan α) : Scan (List α) := fun s =>
  match skipBlanks s with
  | [] => none
  | c :: t =>
    if c = close then some ([], t)
    else
      match item 0 (c :: t) with
      | some (a, s) => furtherItems close item (s.length + 1) 1 [a] s
      | none => none

/-- Four hexadecimal digits. -/
def hex4 : Scan Nat
  | a :: b :: c :: d :: s => do
    let a ← Text.hexValue? a
    let b ← Text.hexValue? b
    let c ← Text.hexValue? c
    let d ← Text.hexValue? d
    return (((a * 16 + b) * 16 + c) * 16 + d, s)
  | _ => none

/-- The character of a `\u` escape, behind the `u`; one outside the basic plane takes two
escapes. -/
def unicodeEscape : Scan Char := fun s => do
  let (high, s) ← hex4 s
  if 0xDC00 ≤ high && high ≤ 0xDFFF then none
  else if 0xD800 ≤ high && high ≤ 0xDBFF then
    match s with
    | '\\' :: 'u' :: s =>
      let (low, s) ← hex4 s
      if 0xDC00 ≤ low && low ≤ 0xDFFF then
        return (Char.ofNat (0x10000 + (high - 0xD800) * 0x400 + (low - 0xDC00)), s)
      else none
    | _ => none
  else return (Char.ofNat high, s)

/-- The character that a letter stands for behind a backslash. -/
def escapeLetter? (c : Char) : Option Char :=
  match c with
  | '\x22' => some '\x22'
  | '\\' => some '\\'
  | '/' => some '/'
  | 'b' => some '\x08'
  | 'f' => some '\x0c'
  | 'n' => some '\n'
  | 'r' => some '\r'
  | 't' => some '\t'
  | _ => none

/-- The character of an escape, behind the backslash. -/
def escape : Scan Char
  | [] => none
  | c :: s => if c = 'u' then unicodeEscape s else (escapeLetter? c).map fun d => (d, s)

/-- The rest of a string behind its opening quote. `done` holds the characters read, last
first, and `n` bounds their number. -/
def stringBody : Nat → List Char → Scan String
  | 0, _, _ => none
  | _ + 1, _, [] => none
  | n + 1, done, c :: s =>
    if c = '\x22' then some (String.ofList done.reverse, s)
    else if c = '\\' then
      match escape s with
      | some (d, s) => stringBody n (d :: done) s
      | none => none
    else if c.toNat < 0x20 then none
    else stringBody n (c :: done) s

/-- A string. -/
def stringScan : Scan String
  | '\x22' :: s => stringBody (s.length + 1) [] s
  | _ => none

/-- What follows an escape whose meaning does not count, behind the backslash. -/
def skipEscape : List Char → Option (List Char)
  | [] => none
  | c :: s => if c = 'u' then (hex4 s).map (·.2) else (escapeLetter? c).map fun _ => s

/-- What follows a string whose characters do not count, behind its opening quote; `n` bounds
their number. -/
def skipStringBody : Nat → List Char → Option (List Char)
  | 0, _ => none
  | _ + 1, [] => none
  | n + 1, c :: s =>
    if c = '\x22' then some s
    else if c = '\\' then
      match skipEscape s with
      | some s => skipStringBody n s
      | none => none
    else if c.toNat < 0x20 then none
    else skipStringBody n s

/-- What follows a string whose characters do not count. -/
def skipString : List Char → Option (List Char)
  | '\x22' :: s => skipStringBody (s.length + 1) s
  | _ => none

end C3Lens.Json
