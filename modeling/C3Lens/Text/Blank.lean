/-!
# White space and lines

The white space of the Unicode standard, the removal of it at the ends of a text, and the
lines of a text.
-/

namespace C3Lens.Text

/-- Whether a character is white space in the sense of the Unicode standard. -/
def isSpace (c : Char) : Bool :=
  (9 ≤ c.toNat && c.toNat ≤ 13) || c.toNat = 0x20 || c.toNat = 0x85 || c.toNat = 0xA0 ||
  c.toNat = 0x1680 || (0x2000 ≤ c.toNat && c.toNat ≤ 0x200A) || c.toNat = 0x2028 ||
  c.toNat = 0x2029 || c.toNat = 0x202F || c.toNat = 0x205F || c.toNat = 0x3000

/-- Removes the characters of a class at the start. -/
def trimLeft (p : Char → Bool) (s : String) : String :=
  String.ofList (s.toList.dropWhile p)

/-- Removes the characters of a class at the end. -/
def trimRight (p : Char → Bool) (s : String) : String :=
  String.ofList (s.toList.reverse.dropWhile p).reverse

/-- Removes the characters of a class at both ends. -/
def trimBoth (p : Char → Bool) (s : String) : String :=
  trimRight p (trimLeft p s)

/-- Removes white space at both ends. -/
def trim (s : String) : String :=
  trimBoth isSpace s

/-- What follows `start` in `s`, if `s` begins with it. -/
def afterStart? (start s : String) : Option String :=
  if start.toList.isPrefixOf s.toList then some (String.ofList (s.toList.drop start.length))
  else none

/-- What precedes `tail` in `s`, if `s` ends with it. -/
def beforeEnd? (tail s : String) : Option String :=
  if tail.toList.isSuffixOf s.toList then some (String.ofList (s.toList.take (s.length - tail.length)))
  else none

/-- The lines of a text; an end of line in front of the end does not open another line, and
a carriage return in front of an end of line belongs to it. `current` holds what was read of
the line, last character first. -/
def lines (current : List Char) : List Char → List String
  | [] => if current.isEmpty then [] else [String.ofList current.reverse]
  | c :: s =>
    if c = '\n' then
      let line := if current.head? = some '\r' then current.drop 1 else current
      String.ofList line.reverse :: lines [] s
    else lines (c :: current) s

end C3Lens.Text
