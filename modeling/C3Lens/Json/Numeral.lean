/-!
# Numerals

The written form of numbers: digits, perhaps with a sign, a fraction and an exponent. A number
that is no integer of 64 bits is taken for one of double precision, in two steps: its first
digits, as far as 64 bits hold them, are rounded, and then multiplied by a power of ten. It is
out of range if the product is.
-/

namespace C3Lens.Json

/-- The written form of a number. -/
structure Numeral where
  negative : Bool
  whole : List Char
  fraction : List Char
  /-- Whether the exponent is negative, and its digits. -/
  exponent? : Option (Bool × List Char)
deriving DecidableEq, Inhabited

/-- The value of a decimal digit. -/
def digitValue (d : Char) : Nat :=
  d.toNat - 48

/-- The value of decimal digits. -/
def digitsValue (ds : List Char) : Nat :=
  ds.foldl (fun n d => n * 10 + digitValue d) 0

/-- Largest integer. -/
def mostPositive : Nat := 18446744073709551615

/-- Largest magnitude of a negative integer. -/
def mostNegative : Nat := 9223372036854775808

namespace Numeral

/-- Reads a numeral; the result is also what follows it. -/
def scan (s : List Char) : Option (Numeral × List Char) := do
  let negative := s.head? == some '-'
  let unsigned := if negative then s.drop 1 else s
  let whole := unsigned.takeWhile Char.isDigit
  let rest := unsigned.drop whole.length
  if whole.isEmpty || (whole.head? == some '0' && whole.length > 1) then none
  else
    let (fraction, rest) ← match rest with
      | '.' :: t =>
        let ds := t.takeWhile Char.isDigit
        if ds.isEmpty then none else some (ds, t.drop ds.length)
      | _ => some ([], rest)
    let (exponent?, rest) ← match rest with
      | e :: t =>
        if e == 'e' || e == 'E' then
          let sign := t.head?
          let t := if sign == some '+' || sign == some '-' then t.drop 1 else t
          let ds := t.takeWhile Char.isDigit
          if ds.isEmpty then none else some (some (sign == some '-', ds), t.drop ds.length)
        else some (none, rest)
      | [] => some (none, rest)
    return (⟨negative, whole, fraction, exponent?⟩, rest)

/-- The integer that a numeral writes. Zero with a minus sign is none. -/
def integer? (n : Numeral) : Option Int :=
  let magnitude := digitsValue n.whole
  if !n.fraction.isEmpty || n.exponent?.isSome then none
  else if n.negative then
    if 0 < magnitude ∧ magnitude ≤ mostNegative then some (-Int.ofNat magnitude) else none
  else if magnitude ≤ mostPositive then some (Int.ofNat magnitude) else none

/-- Puts digits behind a value as long as 64 bits hold it; the result is also the digits that
are left. -/
def takeDigits (value : Nat) : List Char → Nat × List Char
  | [] => (value, [])
  | d :: ds =>
    let longer := value * 10 + digitValue d
    if longer ≤ mostPositive then takeDigits longer ds else (value, d :: ds)

/-- The first digits as far as 64 bits hold them, and the power of ten that they are to be
multiplied by if there is no exponent. -/
def parts (n : Numeral) : Nat × Int :=
  let (first, wholeLeft) := takeDigits 0 n.whole
  let (value, left) := takeDigits first n.fraction
  (value, Int.ofNat wholeLeft.length - Int.ofNat (n.fraction.length - left.length))

/-- A number rounded to the 53 digits of double precision; of two numbers equally near the even
one. -/
def roundDouble (n : Nat) : Nat :=
  let unit := Nat.pow 2 (n.log2 + 1 - 53)
  let below := n / unit
  let rest := 2 * (n % unit)
  (if rest > unit || (rest == unit && below % 2 == 1) then below + 1 else below) * unit

/-- What numbers of double precision stay below, rounding aside. -/
def doubleLimit : Nat := Nat.pow 2 1024 - Nat.pow 2 970

/-- Largest power of ten that double precision holds. -/
def mostPower : Int := 308

/-- Whether a value times a power of ten is in the range of double precision. -/
def fitsDouble (value : Nat) (power : Int) : Bool :=
  value == 0 || decide (power < 0) ||
    (decide (power ≤ mostPower) &&
      decide (roundDouble value * roundDouble (Nat.pow 10 power.toNat) < doubleLimit))

/-- Largest exponent that is written out. -/
def mostExponent : Nat := 2147483647

/-- Whether a number is in the range of double precision. -/
def isFinite (n : Numeral) : Bool :=
  let (value, power) := n.parts
  match n.exponent? with
  | none => fitsDouble value power
  | some (isNegative, digits) =>
    let exponent := digitsValue digits
    if exponent > mostExponent then value == 0 || isNegative
    else fitsDouble value (if isNegative then power - exponent else power + exponent)

end Numeral

end C3Lens.Json
