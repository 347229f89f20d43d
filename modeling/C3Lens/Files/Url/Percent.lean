import C3Lens.Text.Hex
import C3Lens.Text.Utf8

/-!
# Percent codes

What must not stand in a part of a URL is written by percent codes, `%` and two hexadecimal
digits for each byte. Every part has its own set of characters that are replaced.
-/

namespace C3Lens.Url

/-! ## Sets -/

/-- Characters that are replaced everywhere: all but printable ASCII. -/
def isControl (c : Char) : Bool :=
  c.toNat < 0x20 || c.toNat > 0x7E

/-- Characters replaced in a fragment. -/
def inFragmentSet (c : Char) : Bool :=
  isControl c || c == ' ' || c == '\x22' || c == '<' || c == '>' || c == '\x60'

/-- Characters replaced in a query. -/
def inQuerySet (c : Char) : Bool :=
  isControl c || c == ' ' || c == '\x22' || c == '#' || c == '<' || c == '>'

/-- Characters replaced in a query of the web. -/
def inWebQuerySet (c : Char) : Bool :=
  inQuerySet c || c == '\''

/-- Characters replaced in a path. -/
def inPathSet (c : Char) : Bool :=
  inFragmentSet c || c == '#' || c == '?' || c == '\x7b' || c == '\x7d'

/-- Characters replaced in the name and the password of a user. -/
def inUserSet (c : Char) : Bool :=
  inPathSet c || ['/', ':', ';', '=', '@', '[', '\\', ']', '^', '|'].contains c

/-- Characters replaced in a single segment of a file's path. -/
def inSegmentSet (c : Char) : Bool :=
  inPathSet c || c == '/' || c == '%' || c == '\\'

/-! ## Codes -/

/-- The percent code of a byte. -/
def percentCode (b : UInt8) : List Char :=
  ['%', Text.upperHexDigit (b.toNat / 16), Text.upperHexDigit (b.toNat % 16)]

/-- Replaces the bytes of the characters in a set by percent codes. -/
def percentEncodeChars (inSet : Char → Bool) (cs : List Char) : List Char :=
  cs.flatMap fun c =>
    if inSet c then (Utf8.encode (String.singleton c)).flatMap percentCode else [c]

/-- Replaces the bytes of the characters in a set by percent codes. -/
def percentEncode (inSet : Char → Bool) (s : String) : String :=
  String.ofList (percentEncodeChars inSet s.toList)

/-- The bytes of a text whose percent codes are replaced by what they stand for. -/
def percentDecodeBytes : List Char → List UInt8
  | [] => []
  | [c] => Utf8.encode (String.singleton c)
  | [c, d] => Utf8.encode (String.singleton c) ++ Utf8.encode (String.singleton d)
  | c :: d :: e :: s =>
    match if c = '%' then
        (Text.hexValue? d).bind fun x => (Text.hexValue? e).map fun y => x * 16 + y
      else none with
    | some b => b.toUInt8 :: percentDecodeBytes s
    | none => Utf8.encode (String.singleton c) ++ percentDecodeBytes (d :: e :: s)

/-- Replaces percent codes by what they stand for. -/
def percentDecode (s : String) : String :=
  Utf8.decodeLossy (percentDecodeBytes s.toList)

end C3Lens.Url
