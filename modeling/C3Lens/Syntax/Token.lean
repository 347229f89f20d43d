import C3Lens.Text.Line
import C3Lens.Syntax.Kind

/-!
# Tokens

`Token.ofChars` cuts a text into tokens. Blanks and comments are tokens too, and what
belongs to no kind becomes a `stray` token, so no character is ever lost.

At each place the longest token wins. Of two that are equally long the earlier rule wins,
which is why a reserved word beats an identifier. The patterns below give the number of
leading characters that they match, or zero.
-/

namespace C3Lens

/-- A token: its kind and its source text. -/
structure Token where
  kind : TokenKind
  text : String
deriving DecidableEq, Inhabited

namespace Token

/-- Number of bytes of the token's text. -/
def width (t : Token) : Nat :=
  t.text.utf8ByteSize

/-! ## Character classes -/

/-- Space, tab, line ends and form feed. -/
def isBlank (c : Char) : Bool :=
  c == ' ' || c == '\t' || c == '\r' || c == '\n' || c == '\x0c'

/-- First characters of a name. -/
def isNameStart (c : Char) : Bool :=
  c.isAlpha || c == '_'

/-- Further characters of a name. -/
def isNamePart (c : Char) : Bool :=
  c.isAlphanum || c == '_'

/-- Decimal digits and the underscores between them. -/
def isDecimal (c : Char) : Bool :=
  c.isDigit || c == '_'

/-- Hexadecimal digits and the underscores between them. -/
def isHexadecimal (c : Char) : Bool :=
  c.isDigit || ('a' ≤ c && c ≤ 'f') || ('A' ≤ c && c ≤ 'F') || c == '_'

/-- Octal digits and the underscores between them. -/
def isOctal (c : Char) : Bool :=
  ('0' ≤ c && c ≤ '7') || c == '_'

/-- Binary digits and the underscores between them. -/
def isBinary (c : Char) : Bool :=
  c == '0' || c == '1' || c == '_'

/-! ## Patterns -/

/-- Length of the longest run of leading characters in a class. -/
def run (p : Char → Bool) (s : List Char) : Nat :=
  (s.takeWhile p).length

/-- A name: a letter or underscore, then letters, digits and underscores. -/
def nameLength : List Char → Nat
  | c :: s => if isNameStart c then run isNamePart s + 1 else 0
  | [] => 0

/-- A name behind the mark `mark`. -/
def markedNameLength (mark : Char) : List Char → Nat
  | c :: s => if c = mark && nameLength s > 0 then nameLength s + 1 else 0
  | [] => 0

/-- A name behind one or two dollar signs. -/
def compileTimeNameLength (s : List Char) : Nat :=
  match s with
  | '$' :: '$' :: t => if nameLength t > 0 then nameLength t + 2 else 0
  | _ => markedNameLength '$' s

/-- The optional width mark of an integer, as in `u32`. -/
def integerMarkLength : List Char → Nat
  | c :: s => if c == 'i' || c == 'u' then run Char.isDigit s + 1 else 0
  | [] => 0

/-- An integer of digits in the class `digit` behind `0` and one of the two letters of its
base. -/
def basedIntegerLength (lower upper : Char) (digit : Char → Bool) : List Char → Nat
  | '0' :: x :: s =>
    let n := run digit s
    if (x == lower || x == upper) && n > 0 then 2 + n + integerMarkLength (s.drop n) else 0
  | _ => 0

/-- Decimal digits: a digit, then digits and underscores. -/
def digitsLength : List Char → Nat
  | c :: s => if c.isDigit then run isDecimal s + 1 else 0
  | [] => 0

/-- An integer in any base. -/
def integerLength (s : List Char) : Nat :=
  let decimal :=
    let n := digitsLength s
    if n > 0 then n + integerMarkLength (s.drop n) else 0
  max decimal (max (basedIntegerLength 'x' 'X' isHexadecimal s)
    (max (basedIntegerLength 'b' 'B' isBinary s) (basedIntegerLength 'o' 'O' isOctal s)))

/-- An exponent: `e`, an optional sign, digits. -/
def exponentLength : List Char → Nat
  | e :: s =>
    if e == 'e' || e == 'E' then
      let signLength := match s with
        | c :: _ => if c == '+' || c == '-' then 1 else 0
        | [] => 0
      let n := run Char.isDigit (s.drop signLength)
      if n > 0 then 1 + signLength + n else 0
    else 0
  | [] => 0

/-- The optional width mark of a floating point number, as in `f32`. -/
def floatMarkLength : List Char → Nat
  | c :: s => if c == 'f' then run Char.isDigit s + 1 else 0
  | [] => 0

/-- A floating point number: digits with a fraction, with an exponent, or with both. -/
def floatLength (s : List Char) : Nat :=
  let whole := digitsLength s
  if whole = 0 then 0
  else
    let rest := s.drop whole
    let fraction := match rest with
      | '.' :: t => if digitsLength t > 0 then digitsLength t + 1 else 0
      | _ => 0
    let exponent := exponentLength (rest.drop fraction)
    if fraction = 0 && exponent = 0 then 0
    else
      whole + fraction + exponent + floatMarkLength (rest.drop (fraction + exponent))

/-- Length of the complete units at the start of the inside of a literal in the quotes
`quote`: any character but the quote, a backslash and a newline, or a backslash with any
character but a newline. -/
def quotedLength (quote : Char) : List Char → Nat
  | [] => 0
  | [c] => if c = quote || c = '\\' || c = '\n' then 0 else 1
  | c :: d :: s =>
    if c = '\\' then if d = '\n' then 0 else quotedLength quote s + 2
    else if c = quote || c = '\n' then 0
    else quotedLength quote (d :: s) + 1

/-- Length of the inside of a raw string, which ends only at a backquote. -/
def rawLength (s : List Char) : Nat :=
  run (· != '\x60') s

/-- A closed literal in the quotes `quote`, whose inside is measured by `inside`. -/
def literalLength (quote : Char) (inside : List Char → Nat) : List Char → Nat
  | c :: s =>
    if c = quote && (s.drop (inside s)).head? == some quote then inside s + 2 else 0
  | [] => 0

/-- A comment up to the end of its line. -/
def lineCommentLength : List Char → Nat
  | '/' :: '/' :: s => run (· != '\n') s + 2
  | _ => 0

/-- Number of characters through the first `a` that `b` follows, or of all characters where
there is none. -/
def lengthThrough (a b : Char) : List Char → Nat
  | [] => 0
  | [_] => 1
  | c :: d :: s => if c = a && d = b then 2 else lengthThrough a b (d :: s) + 1

/-- A comment from `a b` through `b c`; one that is not closed goes on to the end. -/
def commentLength (a b c : Char) : List Char → Nat
  | x :: y :: s => if x = a && y = b then lengthThrough b c s + 2 else 0
  | _ => 0

/-- The length of `word` where the text begins with it. -/
def wordLength (word : String) (s : List Char) : Nat :=
  if word.toList.isPrefixOf s then word.length else 0

/-- The longest of the given words that the text begins with. -/
def longestWordLength (words : List String) (s : List Char) : Nat :=
  (words.map (wordLength · s)).foldl max 0

/-! ## Rules -/

/-- A rule gives the kind and the length of the token that it finds at the start of a text;
length zero means that it finds none. -/
abbrev Rule := List Char → TokenKind × Nat

/-- Names and reserved words: a name spelled as a reserved word is that word. -/
def nameRule : Rule := fun s =>
  let n := nameLength s
  ((TokenKind.ofReservedWord? (String.ofList (s.take n))).getD .ident, n)

/-- Punctuation with a kind of its own: the longest that fits. -/
def punctuationRule : Rule := fun s =>
  TokenKind.punctuation.foldl
    (fun best (word, kind) => if wordLength word s > best.2 then (kind, wordLength word s) else best)
    (.stray, 0)

/-- All rules, the stronger first. -/
def rules : List Rule := [
  fun s => (.whitespace, run isBlank s),
  fun s => (.lineComment, lineCommentLength s),
  fun s => (.blockComment, commentLength '/' '*' '/' s),
  fun s => (.docComment, commentLength '<' '*' '>' s),
  nameRule,
  fun s => (.ctIdent, compileTimeNameLength s),
  fun s => (.atIdent, markedNameLength '@' s),
  fun s => (.hashIdent, markedNameLength '#' s),
  fun s => (.intNumber, integerLength s),
  fun s => (.floatNumber, floatLength s),
  fun s => (.stringLit, literalLength '\x22' (quotedLength '\x22') s),
  fun s => (.stringLit, literalLength '\x60' rawLength s),
  fun s => (.charLit, literalLength '\x27' (quotedLength '\x27') s),
  punctuationRule,
  fun s => (.operator, longestWordLength TokenKind.operators s)]

/-- The longest find of the rules; the earliest of equally long ones. -/
def longest (s : List Char) : TokenKind × Nat :=
  rules.foldl (fun best rule => if (rule s).2 > best.2 then rule s else best) (.stray, 0)

/-- Length of the stray token at the start of a text that no rule fits: an unclosed
literal up to its last complete unit, or one character. -/
def strayLength : List Char → Nat
  | c :: s =>
    if c = '\x22' || c = '\x27' then quotedLength c s + 1
    else if c = '\x60' then rawLength s + 1
    else 1
  | [] => 0

/-- Kind and length of the first token. -/
def first (s : List Char) : TokenKind × Nat :=
  let found := longest s
  if found.2 > 0 then found else (.stray, strayLength s)

/-- The tokens of a text given by its characters. -/
def ofChars : List Char → List Token
  | [] => []
  | c :: s =>
    let found := first (c :: s)
    ⟨found.1, String.ofList ((c :: s).take (max 1 found.2))⟩ ::
      ofChars ((c :: s).drop (max 1 found.2))
termination_by s => s.length
decreasing_by
  simp only [List.length_drop, List.length_cons]
  omega

/-- The tokens of a text. -/
def ofString (s : String) : List Token :=
  ofChars s.toList

end Token

end C3Lens
