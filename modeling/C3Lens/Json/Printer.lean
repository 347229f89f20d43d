import C3Lens.Json.Basic
import C3Lens.Text.Hex

/-!
# Writing JSON

Values are written without blanks. In strings only quotes, backslashes and control
characters are escaped.
-/

namespace C3Lens.Json

/-- The written form of a character in a string. -/
def escapeChar (c : Char) : List Char :=
  match c with
  | '\x22' => ['\\', '\x22']
  | '\\' => ['\\', '\\']
  | '\n' => ['\\', 'n']
  | '\r' => ['\\', 'r']
  | '\t' => ['\\', 't']
  | '\x08' => ['\\', 'b']
  | '\x0c' => ['\\', 'f']
  | c =>
    if c.toNat < 0x20 then
      ['\\', 'u', '0', '0', Text.lowerHexDigit (c.toNat / 16),
        Text.lowerHexDigit (c.toNat % 16)]
    else [c]

/-- The written form of a string, with its quotes. -/
def quote (s : String) : List Char :=
  '\x22' :: (s.toList.flatMap escapeChar ++ ['\x22'])

mutual

/-- The characters of the written form of a value. -/
def written : Json → List Char
  | null => "null".toList
  | bool true => "true".toList
  | bool false => "false".toList
  | int n => (toString n).toList
  | float spelling => spelling.toList
  | string s => quote s
  | array items => '[' :: (writtenItems items ++ [']'])
  | object members => '\x7b' :: (writtenMembers members ++ ['\x7d'])

/-- The items of an array, with commas between them. -/
def writtenItems : List Json → List Char
  | [] => []
  | [j] => written j
  | j :: js => written j ++ ',' :: writtenItems js

/-- The members of an object, with commas between them. -/
def writtenMembers : List (String × Json) → List Char
  | [] => []
  | [(name, j)] => quote name ++ ':' :: written j
  | (name, j) :: ms => quote name ++ ':' :: (written j ++ ',' :: writtenMembers ms)

end

/-- The written form of a value. -/
def print (j : Json) : String :=
  String.ofList j.written

end C3Lens.Json
