/-!
# Lines, byte offsets and columns

A text is cut at its newlines. Each line knows the byte offset of its first character, so
a position can be turned into a byte offset and back. Offsets and columns outside the text
are moved to the nearest place inside it; one that falls inside a character is moved to
the character's start.
-/

namespace C3Lens

/-!
## Positions and ranges

A position is a zero-based line and a zero-based column counted in UTF-16 code units.
Positions are ordered by line, then by column. A range holds both its ends, so that a
cursor placed right after a name still selects it.
-/

/-- A line and a UTF-16 column, both counted from zero. -/
structure Position where
  line : Nat
  character : Nat
deriving DecidableEq, Inhabited, Hashable

namespace Position

/-- Line-major order. -/
def lt (p q : Position) : Prop :=
  p.line < q.line ∨ (p.line = q.line ∧ p.character < q.character)

instance : LT Position := ⟨lt⟩

instance : LE Position := ⟨fun p q => ¬ q < p⟩

instance (p q : Position) : Decidable (p < q) :=
  inferInstanceAs (Decidable (p.line < q.line ∨ (p.line = q.line ∧ p.character < q.character)))

instance (p q : Position) : Decidable (p ≤ q) :=
  inferInstanceAs (Decidable (¬ q < p))

/-- One column to the left; column zero stays. -/
def previous (p : Position) : Position :=
  { p with character := p.character - 1 }

/-- The text `line:column`, counted from zero. -/
def zeroBased (p : Position) : String :=
  toString p.line ++ ":" ++ toString p.character

/-- The text `line:column` as people read it, counted from one. -/
def oneBased (p : Position) : String :=
  zeroBased ⟨p.line + 1, p.character + 1⟩

end Position

/-- The text between two positions. -/
structure Range where
  start : Position
  stop : Position
deriving DecidableEq, Inhabited, Hashable

namespace Range

/-- The range of given line and column numbers. -/
def of (startLine startCharacter stopLine stopCharacter : Nat) : Range :=
  ⟨⟨startLine, startCharacter⟩, ⟨stopLine, stopCharacter⟩⟩

/-- Whether `p` lies in the range, both ends included. -/
def contains (r : Range) (p : Position) : Bool :=
  decide (r.start ≤ p) && decide (p ≤ r.stop)

/-- Whether the range starts after `p`. -/
def startsAfter (r : Range) (p : Position) : Bool :=
  decide (p < r.start)

/-- Whether the range ends before `p`. -/
def endsBefore (r : Range) (p : Position) : Bool :=
  decide (r.stop < p)

/-- Whether `r` ends later than `s`. -/
def endsAfter (r s : Range) : Bool :=
  decide (s.stop < r.stop)

/-- Whether both ends coincide. -/
def isEmpty (r : Range) : Bool :=
  decide (r.start = r.stop)

/-- The two ends, counted from zero. -/
def zeroBased (r : Range) : String :=
  r.start.zeroBased ++ "-" ++ r.stop.zeroBased

end Range

/-- Number of bytes of the UTF-8 form. -/
def utf8Length (cs : List Char) : Nat :=
  cs.foldr (fun c n => c.utf8Size + n) 0

/-- Number of UTF-16 code units of a character. -/
def utf16Size (c : Char) : Nat :=
  if c.toNat < 0x10000 then 1 else 2

/-- Number of UTF-16 code units. -/
def utf16Length (cs : List Char) : Nat :=
  cs.foldr (fun c n => utf16Size c + n) 0

/-- The longest run of leading characters whose sizes, measured by `size`, fit in `room`. -/
def takeWithin (size : Char → Nat) : Nat → List Char → List Char
  | _, [] => []
  | room, c :: cs => if size c ≤ room then c :: takeWithin size (room - size c) cs else []

/-- What follows the characters of `takeWithin`. -/
def dropWithin (size : Char → Nat) : Nat → List Char → List Char
  | _, [] => []
  | room, c :: cs => if size c ≤ room then dropWithin size (room - size c) cs else c :: cs

/-- The byte length of the first `units` UTF-16 units of a line. -/
def utf8LengthOfUnits (line : List Char) (units : Nat) : Nat :=
  utf8Length (takeWithin utf16Size units line)

/-- The UTF-16 length of the first `bytes` bytes of a line. -/
def utf16LengthOfBytes (line : List Char) (bytes : Nat) : Nat :=
  utf16Length (takeWithin Char.utf8Size bytes line)

/-- One line of a text, without its newline. -/
structure Line where
  /-- Byte offset of the line's first character. -/
  start : Nat
  chars : List Char
deriving DecidableEq, Inhabited

namespace Line

/-- Byte offset of the end of the line. -/
def stop (l : Line) : Nat :=
  l.start + utf8Length l.chars

/-- The line as a string. -/
def text (l : Line) : String :=
  String.ofList l.chars

end Line

/-- The lines of a text, first line first. -/
structure LineTable where
  lines : List Line
deriving DecidableEq, Inhabited

namespace LineTable

/-- Cuts `cs` at its newlines; `chars` holds the current line's characters, last first, and
`start` and `here` are the byte offsets of the line and of the next character. -/
def cut (start here : Nat) (chars : List Char) : List Char → List Line
  | [] => [⟨start, chars.reverse⟩]
  | c :: cs =>
    if c = '\n' then ⟨start, chars.reverse⟩ :: cut (here + 1) (here + 1) [] cs
    else cut start (here + c.utf8Size) (c :: chars) cs

/-- The lines of a text given by its characters. -/
def ofChars (cs : List Char) : LineTable :=
  ⟨cut 0 0 [] cs⟩

/-- The lines of a text. -/
def ofString (s : String) : LineTable :=
  ofChars s.toList

/-- Number of lines; an empty text has one. -/
def size (t : LineTable) : Nat :=
  t.lines.length

/-- Number of bytes of the text. -/
def byteSize (t : LineTable) : Nat :=
  (t.lines.getLast?.map Line.stop).getD 0

/-- The byte offset of a position. -/
def offset (t : LineTable) (p : Position) : Nat :=
  match t.lines[p.line]? with
  | none => t.byteSize
  | some line => line.start + utf8LengthOfUnits line.chars p.character

/-- Walks to the last line that starts at or before `offset`; `number` is the number of
`line`, and `rest` holds the lines after it. -/
def positionFrom (offset : Nat) (number : Nat) (line : Line) : List Line → Position
  | [] => ⟨number, utf16LengthOfBytes line.chars (offset - line.start)⟩
  | next :: rest =>
    if next.start ≤ offset then positionFrom offset (number + 1) next rest
    else ⟨number, utf16LengthOfBytes line.chars (offset - line.start)⟩

/-- The position of a byte offset. -/
def position (t : LineTable) (offset : Nat) : Position :=
  match t.lines with
  | [] => ⟨0, 0⟩
  | line :: rest => positionFrom offset 0 line rest

/-- The text of a line, if there is such a line. -/
def lineText? (t : LineTable) (line : Nat) : Option String :=
  t.lines[line]?.map Line.text

/-- The position after the last character. -/
def endPosition (t : LineTable) : Position :=
  t.position t.byteSize

end LineTable

/-!
## Edits of a text

An edit replaces the text of a range, or the whole text. A list of edits is applied in
order, each to the text that the one before it left.
-/

/-- One change of a document's text; without a range it replaces the whole text. -/
structure Edit where
  range? : Option Range
  text : String
deriving DecidableEq, Inhabited

namespace Edit

/-- Applies an edit to the characters of a text. A range that ends before it starts is an
insertion at its start. -/
def applyChars (edit : Edit) (cs : List Char) : List Char :=
  match edit.range? with
  | none => edit.text.toList
  | some range =>
    let table := LineTable.ofChars cs
    let start := table.offset range.start
    let stop := max start (table.offset range.stop)
    takeWithin Char.utf8Size start cs ++ edit.text.toList ++ dropWithin Char.utf8Size stop cs

/-- Applies an edit to a text. -/
def apply (edit : Edit) (text : String) : String :=
  String.ofList (edit.applyChars text.toList)

/-- Applies edits in order. -/
def applyAll (edits : List Edit) (text : String) : String :=
  edits.foldl (fun text edit => edit.apply text) text

end Edit

end C3Lens
