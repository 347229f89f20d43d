/-!
# Characters of a byte sequence

Bytes are read as UTF-8. Where they are no character, `decodeLossy` puts one replacement
character for every longest beginning of a character, and `decode?` gives up.
-/

namespace C3Lens.Utf8

/-- What the first byte of a character says: the number of bytes that follow, the range
that the first of those has to be in, and the bits that the byte itself carries. -/
def lead? (b : Nat) : Option (Nat × Nat × Nat × Nat) :=
  if 0xC2 ≤ b && b ≤ 0xDF then some (1, 0x80, 0xBF, b - 0xC0)
  else if b = 0xE0 then some (2, 0xA0, 0xBF, 0)
  else if b = 0xED then some (2, 0x80, 0x9F, 0xD)
  else if 0xE1 ≤ b && b ≤ 0xEF then some (2, 0x80, 0xBF, b - 0xE0)
  else if b = 0xF0 then some (3, 0x90, 0xBF, 0)
  else if 0xF1 ≤ b && b ≤ 0xF3 then some (3, 0x80, 0xBF, b - 0xF0)
  else if b = 0xF4 then some (3, 0x80, 0x8F, 4)
  else none

/-- The state between two bytes: at the start of a character, or inside one that needs
`more` bytes, the next from `low` to `high`, with the bits `code` read so far. -/
inductive State where
  | start
  | inside (more low high code : Nat)

/-- Reads a byte at the start of a character: the character it is, if it is one, and the
state behind it. `none` stands for a byte that begins no character. -/
def begin (b : Nat) : Option Char × State :=
  if b < 0x80 then (some (Char.ofNat b), .start)
  else
    match lead? b with
    | some (more, low, high, code) => (none, .inside more low high code)
    | none => (some '\uFFFD', .start)

/-- Characters of bytes, with replacement characters for what is none. -/
def decodeFrom (state : State) : List Nat → List Char
  | [] =>
    match state with
    | .start => []
    | .inside .. => ['\uFFFD']
  | b :: bs =>
    match state with
    | .start =>
      match begin b with
      | (some c, next) => c :: decodeFrom next bs
      | (none, next) => decodeFrom next bs
    | .inside more low high code =>
      if low ≤ b && b ≤ high then
        if more ≤ 1 then Char.ofNat (code * 64 + (b - 0x80)) :: decodeFrom .start bs
        else decodeFrom (.inside (more - 1) 0x80 0xBF (code * 64 + (b - 0x80))) bs
      else
        '\uFFFD' ::
          match begin b with
          | (some c, next) => c :: decodeFrom next bs
          | (none, next) => decodeFrom next bs

/-- Characters of bytes, with replacement characters for what is none. -/
def decodeLossy (bs : List UInt8) : String :=
  String.ofList (decodeFrom .start (bs.map UInt8.toNat))

/-- The bytes of a text. -/
def encode (s : String) : List UInt8 :=
  s.toUTF8.toList

/-- The text that the bytes are the UTF-8 form of. -/
def decode? (bs : List UInt8) : Option String :=
  let text := decodeLossy bs
  if encode text = bs then some text else none

end C3Lens.Utf8
