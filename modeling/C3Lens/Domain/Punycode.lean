/-!
# Punycode

A label with characters beyond ASCII is written in ASCII: first its ASCII characters, then a
hyphen, then for each other character, in rising order, how far it lies behind the one before.
The distances are numbers of a varying number of digits; the bias, which follows the distances
so far, tells where a number ends.

Main statements: reading the digits of a number gives the number (`readNumber?_digits`).
-/

namespace C3Lens.Domain.Punycode

/-- The number of digits. -/
def radix : Nat := 36

/-- The first code point that is written by its distance. -/
def firstCode : Nat := 0x80

/-- The bias in front of the first number. -/
def firstBias : Nat := 72

/-- A digit: a letter, then a decimal digit. -/
def digit (n : Nat) : Char :=
  if n < 26 then Char.ofNat (n + 97) else Char.ofNat (n + 22)

/-- The value of a digit of either case. -/
def digitValue? (c : Char) : Option Nat :=
  if 'a' ≤ c && c ≤ 'z' then some (c.toNat - 97)
  else if 'A' ≤ c && c ≤ 'Z' then some (c.toNat - 65)
  else if c.isDigit then some (c.toNat - 22)
  else none

theorem digitValue?_digit {n : Nat} (h : n < radix) : digitValue? (digit n) = some n := by
  have all : ∀ m ∈ List.range radix, digitValue? (digit m) = some m := by decide
  exact all n (List.mem_range.mpr h)

/-- A digit below the threshold is the last one of its number. -/
def threshold (bias place : Nat) : Nat :=
  max 1 (min 26 (radix * (place + 1) - bias))

theorem threshold_pos (bias place : Nat) : 1 ≤ threshold bias place := by
  unfold threshold
  omega

theorem threshold_le (bias place : Nat) : threshold bias place ≤ 26 := by
  unfold threshold
  omega

/-- The bias for a distance that has been damped: how often it can be divided, and what is
left then. -/
def settle (steps distance : Nat) : Nat :=
  if distance ≤ 455 then radix * steps + 36 * distance / (distance + 38)
  else settle (steps + 1) (distance / 35)
termination_by distance
decreasing_by omega

/-- The bias behind a distance, with which the text has `length` characters. -/
def adapt (distance length : Nat) (first : Bool) : Nat :=
  let damped := if first then distance / 700 else distance / 2
  settle 0 (damped + damped / length)

/-! ## Numbers -/

/-- The digits of a number, from a place on. -/
def digits (bias place n : Nat) : List Char :=
  let t := threshold bias place
  if n < t then [digit n]
  else digit (t + (n - t) % (radix - t)) :: digits bias (place + 1) ((n - t) / (radix - t))
termination_by n
decreasing_by
  have := threshold_pos bias place
  have := threshold_le bias place
  exact Nat.lt_of_le_of_lt (Nat.div_le_self _ _) (by omega)

/-- Reads a number: what it adds to `sum`, its digits weighted, and the rest. -/
def readNumber? (bias place weight sum : Nat) : List Char → Option (Nat × List Char)
  | [] => none
  | c :: rest => do
    let d ← digitValue? c
    let t := threshold bias place
    if d < t then return (sum + d * weight, rest)
    else readNumber? bias (place + 1) (weight * (radix - t)) (sum + d * weight) rest

theorem readNumber?_length {bias place weight sum : Nat} {cs : List Char} {r : Nat × List Char}
    (h : readNumber? bias place weight sum cs = some r) : r.2.length < cs.length := by
  induction cs generalizing place weight sum with
  | nil => simp [readNumber?] at h
  | cons c rest ih =>
    simp only [readNumber?, Option.bind_eq_bind, Option.bind_eq_some_iff] at h
    obtain ⟨d, _, h⟩ := h
    split at h
    · cases h
      simp
    · have := ih h
      simp only [List.length_cons]
      omega

theorem readNumber?_digits (bias place weight sum n : Nat) (rest : List Char) :
    readNumber? bias place weight sum (digits bias place n ++ rest) =
      some (sum + n * weight, rest) := by
  induction n using Nat.strongRecOn generalizing place weight sum with
  | _ n ih =>
    have low := threshold_pos bias place
    have high := threshold_le bias place
    rw [digits]
    split
    · next small =>
      have value := digitValue?_digit (n := n) (by simp only [radix]; omega)
      simp [readNumber?, value, small]
    · next large =>
      generalize ht : threshold bias place = t at *
      have room : 0 < radix - t := by simp only [radix]; omega
      have less := Nat.mod_lt (n - t) room
      have value := digitValue?_digit (n := t + (n - t) % (radix - t)) (by omega)
      have notLast : ¬ t + (n - t) % (radix - t) < t := by omega
      have whole := Nat.mod_add_div (n - t) (radix - t)
      have sums : t + (n - t) % (radix - t) + (radix - t) * ((n - t) / (radix - t)) = n := by omega
      have smaller : (n - t) / (radix - t) < n :=
        Nat.lt_of_le_of_lt (Nat.div_le_self _ _) (by omega)
      simp only [List.cons_append, readNumber?, value, ht, Option.bind_eq_bind, Option.bind_some,
        notLast, if_false]
      rw [ih _ smaller]
      have product : (t + (n - t) % (radix - t)) * weight +
          (n - t) / (radix - t) * (weight * (radix - t)) = n * weight := by
        conv => rhs; rw [← sums]
        rw [Nat.add_mul _ ((radix - t) * _), Nat.mul_comm weight, ← Nat.mul_assoc,
          Nat.mul_comm ((n - t) / (radix - t))]
      rw [Nat.add_assoc, product]

/-! ## Writing -/

/-- A label on its way into ASCII. -/
structure Writing where
  written : List Char
  distance : Nat
  bias : Nat
  /-- The number of characters that are written. -/
  count : Nat
deriving Inhabited

/-- Passes a character of the label while those with `code` are written. -/
def Writing.pass (ascii code : Nat) (s : Writing) (c : Char) : Writing :=
  if c.toNat < code then { s with distance := s.distance + 1 }
  else if c.toNat = code then
    { written := s.written ++ digits s.bias 0 s.distance
      distance := 0
      bias := adapt s.distance (s.count + 1) (s.count == ascii)
      count := s.count + 1 }
  else s

/-- Writes the characters with the given code points, which rise, by their distances. -/
def writeCodes (label : List Char) (ascii : Nat) (s : Writing) (next : Nat) : List Nat → List Char
  | [] => s.written
  | code :: codes =>
    let s := { s with distance := s.distance + (code - next) * (s.count + 1) }
    let s := label.foldl (Writing.pass ascii code) s
    writeCodes label ascii { s with distance := s.distance + 1 } (code + 1) codes

/-- The ASCII form of a label. -/
def encode (label : List Char) : List Char :=
  let ascii := label.filter fun c => c.toNat < firstCode
  let codes := ((label.filter fun c => firstCode ≤ c.toNat).map Char.toNat).mergeSort.eraseDups
  ascii ++ (if ascii.isEmpty then [] else ['-']) ++
    writeCodes label ascii.length ⟨[], 0, firstBias, ascii.length⟩ firstCode codes

/-! ## Reading -/

/-- Puts in the characters whose distances are given. -/
def insertCodes? (bias code place : Nat) (done : List Char) (cs : List Char) :
    Option (List Char) :=
  match cs with
  | [] => some done
  | c :: rest =>
    match h : readNumber? bias 0 1 place (c :: rest) with
    | none => none
    | some (sum, behind) =>
      let length := done.length + 1
      let code := code + sum / length
      let place' := sum % length
      if code.isValidChar then
        insertCodes? (adapt (sum - place) length (place == 0)) code (place' + 1)
          (done.insertIdx place' (Char.ofNat code)) behind
      else none
termination_by cs.length
decreasing_by
  have := readNumber?_length h
  simpa using this

/-- The label that an ASCII form stands for. -/
def decode? (cs : List Char) : Option (List Char) :=
  let behind := (cs.reverse.takeWhile (· != '-')).reverse
  let ascii := cs.take (cs.length - behind.length - 1)
  if ascii.isEmpty then insertCodes? firstBias firstCode 0 [] cs
  else insertCodes? firstBias firstCode 0 ascii behind

end C3Lens.Domain.Punycode
