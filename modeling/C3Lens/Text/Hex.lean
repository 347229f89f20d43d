/-!
# Hexadecimal numbers
-/

namespace C3Lens.Text

/-- The value of a hexadecimal digit of either case. -/
def hexValue? (c : Char) : Option Nat :=
  if c.isDigit then some (c.toNat - 48)
  else if 'a' ≤ c && c ≤ 'f' then some (c.toNat - 87)
  else if 'A' ≤ c && c ≤ 'F' then some (c.toNat - 55)
  else none

/-- An upper-case hexadecimal digit. -/
def upperHexDigit (n : Nat) : Char :=
  if n < 10 then Char.ofNat (n + 48) else Char.ofNat (n + 55)

/-- A lower-case hexadecimal digit. -/
def lowerHexDigit (n : Nat) : Char :=
  if n < 10 then Char.ofNat (n + 48) else Char.ofNat (n + 87)

/-- The number that hexadecimal digits write; any other character counts as the digit zero. -/
def hexNumber (digits : List Char) : Nat :=
  digits.foldl (fun n c => n * 16 + (hexValue? c).getD 0) 0

/-!
## Sets of code points

A set of code points is a list of ranges. Long sets are written as text: hexadecimal words
parted by blanks, `41-5A` for a range and `5F` for a single code point.
-/

/-- Whether a code point lies in one of the ranges. -/
def inRanges (ranges : List (Nat × Nat)) (code : Nat) : Bool :=
  ranges.any fun r => decide (r.1 ≤ code) && decide (code ≤ r.2)

/-- The words of a text, parted by blanks and line ends. -/
def words (text : String) : List (List Char) :=
  (text.toList.splitOnP fun c => c == ' ' || c == '\n').filter fun word => !word.isEmpty

/-- What stands before the first `mark` and behind it. -/
def splitAt? (mark : Char) (cs : List Char) : Option (List Char × List Char) :=
  match cs.dropWhile (· != mark) with
  | _ :: behind => some (cs.takeWhile (· != mark), behind)
  | [] => none

/-- The range that a word such as `41-5A` or `5F` writes. -/
def rangeOfWord (word : List Char) : Nat × Nat :=
  match splitAt? '-' word with
  | some (first, last) => (hexNumber first, hexNumber last)
  | none => (hexNumber word, hexNumber word)

/-- The ranges that a text writes. -/
def rangesOfText (text : String) : List (Nat × Nat) :=
  (words text).map rangeOfWord

end C3Lens.Text
