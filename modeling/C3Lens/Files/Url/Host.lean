import C3Lens.Domain.Basic
import C3Lens.Files.Url.Percent

/-!
# Hosts

The host of a URL is a name or an address. A name that ends with a number is read as an address
of four bytes, text in brackets as an address of eight pairs of bytes.
-/

namespace C3Lens.Url

/-- The host of a URL. -/
inductive Host where
  /-- A name; the empty one stands for no host. -/
  | name (text : String)
  /-- An address of four bytes. -/
  | v4 (address : Nat)
  /-- An address of eight pairs of bytes. -/
  | v6 (pieces : List Nat)
deriving DecidableEq, Inhabited

namespace Host

/-- No host. -/
def empty : Host := .name ""

/-- The name of the own machine. -/
def own : Host := .name "localhost"

/-! ## Addresses of four bytes -/

/-- The number that digits write in a number system, unless one of them is no digit of it. -/
def numberIn? (radix : Nat) (digits : List Char) : Option Nat :=
  digits.foldl (fun n? c => do
    let d ← Text.hexValue? c
    if d < radix then return (← n?) * radix + d else none) (some 0)

/-- Reads a part of an address of four bytes: hexadecimal behind `0x`, octal behind `0`, else
decimal. -/
def part? : List Char → Option Nat
  | [] => none
  | '0' :: 'x' :: digits => numberIn? 16 digits
  | '0' :: 'X' :: digits => numberIn? 16 digits
  | '0' :: digits => numberIn? 8 digits
  | digits => numberIn? 10 digits

/-- The parts of a name between its dots; a dot at the end does not count. -/
def parts (name : List Char) : List (List Char) :=
  let parts := name.splitOnP (· == '.')
  if parts.getLast? == some [] then parts.dropLast else parts

/-- Whether the last part of a name is a number. -/
def endsWithNumber (name : List Char) : Bool :=
  match (parts name).getLast? with
  | some last => (!last.isEmpty && last.all Char.isDigit) || (part? last).isSome
  | none => false

/-- Reads an address of four bytes. The last part fills all bytes that no part of its own
tells. -/
def v4? (name : List Char) : Option Nat := do
  let numbers ← (parts name).mapM part?
  let last ← numbers.getLast?
  let bytes := numbers.dropLast
  if numbers.length > 4 || bytes.any (· > 255) || last ≥ Nat.pow 256 (4 - bytes.length) then none
  else return (bytes.foldl (fun n byte => n * 256 + byte) 0) * Nat.pow 256 (4 - bytes.length) + last

/-- The written form of an address of four bytes. -/
def v4Text (address : Nat) : String :=
  ".".intercalate ([16777216, 65536, 256, 1].map fun unit => toString (address / unit % 256))

/-! ## Addresses of eight pairs -/

/-- Reads a decimal byte without superfluous zeros. -/
def decimalByte? (digits : List Char) : Option Nat := do
  let n ← numberIn? 10 digits
  if digits.isEmpty || n > 255 || (digits.length > 1 && digits.head? == some '0') then none
  else return n

/-- Reads one group, up to four hexadecimal digits. -/
def group? (digits : List Char) : Option Nat :=
  if digits.isEmpty || digits.length > 4 then none else numberIn? 16 digits

/-- Reads the last groups, which four decimal bytes can stand for. -/
def lastGroups? (cs : List Char) : Option (List Nat) :=
  if cs.contains '.' then do
    match ← (cs.splitOnP (· == '.')).mapM decimalByte? with
    | [a, b, c, d] => return [a * 256 + b, c * 256 + d]
    | _ => none
  else (group? cs).map fun n => [n]

/-- Reads groups with colons between them. Only where the address ends, decimal bytes may
stand. -/
def groups? (atEnd : Bool) (cs : List Char) : Option (List Nat) :=
  if cs.isEmpty then some []
  else do
    let texts := cs.splitOnP (· == ':')
    let first ← texts.dropLast.mapM group?
    let last ← texts.getLast?
    return first ++ (← if atEnd then lastGroups? last else (group? last).map fun n => [n])

/-- The text before the first double colon and the text behind it. -/
def splitDoubleColon : List Char → Option (List Char × List Char)
  | ':' :: ':' :: behind => some ([], behind)
  | c :: rest => (splitDoubleColon rest).map fun (before, behind) => (c :: before, behind)
  | [] => none

/-- Reads an address of eight pairs. A double colon stands for at least one pair of zeros. -/
def v6? (cs : List Char) : Option (List Nat) :=
  match splitDoubleColon cs with
  | some (before, behind) => do
    let before ← groups? false before
    let behind ← groups? true behind
    if before.length + behind.length < 8 then
      return before ++ List.replicate (8 - before.length - behind.length) 0 ++ behind
    else none
  | none => (groups? true cs).filter fun groups => groups.length == 8

/-- The number of zeros that a list begins with. -/
def leadingZeros (pieces : List Nat) : Nat :=
  (pieces.takeWhile (· == 0)).length

/-- The longest run of zeros, the first of equally long ones: where it begins and how long it
is. -/
def longestZeros (pieces : List Nat) : Nat × Nat :=
  (List.range pieces.length).foldl (fun best start =>
    let length := leadingZeros (pieces.drop start)
    if length > best.2 then (start, length) else best) (0, 0)

/-- Groups in hexadecimal digits, with colons between them. -/
def groupsText (pieces : List Nat) : String :=
  ":".intercalate (pieces.map fun n => String.ofList (Nat.toDigits 16 n))

/-- The written form of an address of eight pairs; its longest run of at least two zeros is
left out. -/
def v6Text (pieces : List Nat) : String :=
  let (start, length) := longestZeros pieces
  if length < 2 then groupsText pieces
  else groupsText (pieces.take start) ++ "::" ++ groupsText (pieces.drop (start + length))

/-! ## Reading and writing -/

/-- Reads the address in brackets, if there is one. -/
def bracketed? (cs : List Char) : Option (Option Host) :=
  match cs with
  | '[' :: rest =>
    if rest.getLast? == some ']' then some ((v6? rest.dropLast).map v6) else some none
  | _ => none

/-- Reads the host of a URL whose scheme knows domain names. -/
def ofDomain? (cs : List Char) : Option Host :=
  match bracketed? cs with
  | some host? => host?
  | none => do
    let name ← Domain.asciiForm? (percentDecode (String.ofList cs))
    if name == "" then none
    else if endsWithNumber name.toList then (v4? name.toList).map v4
    else return .name name

/-- Characters that a host of an unknown kind does not hold. -/
def isForbidden (c : Char) : Bool :=
  ['\x00', '\t', '\n', '\r', ' ', '#', '/', ':', '<', '>', '?', '@', '[', '\\', ']', '^',
    '|'].contains c

/-- Reads the host of a URL whose scheme is not known. -/
def ofOpaque? (cs : List Char) : Option Host :=
  match bracketed? cs with
  | some host? => host?
  | none =>
    if cs.any isForbidden then none
    else some (.name (String.ofList (percentEncodeChars isControl cs)))

/-- The written form of a host. -/
def text : Host → String
  | .name text => text
  | .v4 address => v4Text address
  | .v6 pieces => "[" ++ v6Text pieces ++ "]"

end Host

end C3Lens.Url
