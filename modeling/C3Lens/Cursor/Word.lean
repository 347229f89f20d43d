import C3Lens.Document.Basic
import C3Lens.Symbol.Module

/-!
# The word at the cursor

A word is a name with its qualifiers: the names that dots join to its front, and before those
the names of a module path. It is read from the cursor to the left. Groups in brackets behind a
name are passed over, so `list.get(0).name` has the qualifiers `list` and `get`.
-/

namespace C3Lens

/-- Whether a character can stand in a name of a word. -/
def isWordPart (c : Char) : Bool :=
  c.isAlphanum || c == '_' || c == '$'

/-- A piece of text and the byte offset at which it starts. -/
structure Piece where
  text : String
  start : Nat
deriving DecidableEq, Inhabited

namespace Piece

/-- The piece made of `chars`, last character first, that ends right before `behind`, the
characters in front of it, last one first. -/
def ofReversed (chars behind : List Char) : Piece :=
  ⟨String.ofList chars.reverse, utf8Length behind⟩

/-- The byte offset of the end. -/
def stop (p : Piece) : Nat :=
  p.start + utf8Length p.text.toList

end Piece

/-! ## Reading to the left

The text in front of the cursor is given last character first. -/

/-- Passes over a group in brackets; `depth` counts the brackets that are still open. The
result is what stands in front of the group. -/
def beforeGroup (depth : Nat) : List Char → Option (List Char)
  | [] => none
  | c :: cs =>
    if c = ')' ∨ c = ']' then beforeGroup (depth + 1) cs
    else if c = '(' ∨ c = '[' then
      if depth ≤ 1 then some cs else beforeGroup (depth - 1) cs
    else beforeGroup depth cs

theorem length_beforeGroup {depth : Nat} {cs rest : List Char}
    (h : beforeGroup depth cs = some rest) : rest.length < cs.length := by
  induction cs generalizing depth with
  | nil => simp [beforeGroup] at h
  | cons c cs ih =>
    rw [beforeGroup] at h
    split at h
    · exact Nat.lt_succ_of_lt (ih h)
    · split at h
      · split at h
        · cases h
          exact Nat.lt_succ_self _
        · exact Nat.lt_succ_of_lt (ih h)
      · exact Nat.lt_succ_of_lt (ih h)

/-- Passes over all groups in brackets that stand behind one another. -/
def beforeGroups (cs : List Char) : List Char :=
  if cs.head? = some ')' ∨ cs.head? = some ']' then
    match _h : beforeGroup 0 cs with
    | some rest => beforeGroups rest
    | none => cs
  else cs
termination_by cs.length
decreasing_by exact length_beforeGroup _h

theorem length_beforeGroups (cs : List Char) : (beforeGroups cs).length ≤ cs.length := by
  fun_induction beforeGroups cs with
  | case1 cs _ rest h ih => exact Nat.le_trans ih (Nat.le_of_lt (length_beforeGroup h))
  | case2 => exact Nat.le_refl _
  | case3 => exact Nat.le_refl _

/-- The qualifiers of a word: names joined by dots, and the names of a module path. -/
structure Qualifiers where
  access : List Piece
  modules : List Piece
deriving DecidableEq, Inhabited

/-- Reads qualifiers. In front of a module path there are no more dots, which `inModules`
tells. -/
def readQualifiers (inModules : Bool) (before : List Char) : Qualifiers :=
  match before with
  | '.' :: cs =>
    let left := beforeGroups cs
    let name := left.takeWhile isWordPart
    let rest := left.dropWhile isWordPart
    if inModules || name.isEmpty then ⟨[], []⟩
    else
      let q := readQualifiers false rest
      { q with access := q.access ++ [.ofReversed name rest] }
  | ':' :: ':' :: cs =>
    let name := cs.takeWhile isWordPart
    let rest := cs.dropWhile isWordPart
    if name.isEmpty then ⟨[], []⟩
    else
      let q := readQualifiers true rest
      { q with modules := q.modules ++ [.ofReversed name rest] }
  | _ => ⟨[], []⟩
termination_by before.length
decreasing_by
  · have h := length_beforeGroups cs
    have h' := (List.dropWhile_sublist isWordPart (l := beforeGroups cs)).length_le
    simp only [List.length_cons]
    omega
  · have h := (List.dropWhile_sublist isWordPart (l := cs)).length_le
    simp only [List.length_cons]
    omega

/-- The head of a word to the left of the cursor: a name, or nothing behind a separator. With
it comes the text in front of the head. -/
def headBefore (before : List Char) : Option (Piece × List Char) :=
  match before with
  | [] => none
  | c :: _ =>
    if isWordPart c then
      let rest := before.dropWhile isWordPart
      some (.ofReversed (before.takeWhile isWordPart) rest, rest)
    else if c == '.' || c == ':' then some (.ofReversed [] before, before)
    else none

/-- The head of a word: the name around the cursor, the separator right of it, or what is to
the left of it. With it comes the text in which the qualifiers stand; a lone colon has none. -/
def headAt (before behind : List Char) : Option (Piece × List Char) :=
  match behind with
  | [] => headBefore before
  | c :: cs =>
    if isWordPart c then
      let rest := before.dropWhile isWordPart
      let name := (behind.takeWhile isWordPart).reverse ++ before.takeWhile isWordPart
      some (.ofReversed name rest, rest)
    else if c == '.' then some (.ofReversed [c] before, c :: before)
    else if c == ':' then
      let text := if before.head? == some ':' then c :: before
        else if cs.head? == some ':' then c :: c :: before
        else []
      some (.ofReversed [c] before, text)
    else headBefore before

/-! ## Words -/

/-- A name of a word and where it stands. -/
structure WordPart where
  text : String
  range : Range
deriving DecidableEq, Inhabited

/-- The word at a cursor. -/
structure Word where
  /-- The name at the cursor, a separator, or the empty text right behind a separator. -/
  head? : Option WordPart
  /-- The names that dots join to the head, first one first. -/
  access : List WordPart
  /-- The names of the module path. -/
  modules : List WordPart
  /-- The import that the module path is the end of. -/
  imported? : Option ModulePath
deriving DecidableEq, Inhabited

namespace Word

/-- The word where there is none. -/
def nothing : Word :=
  ⟨none, [], [], none⟩

/-- A piece of a document's text. -/
def part (d : Document) (p : Piece) : WordPart :=
  ⟨p.text, ⟨d.position p.start, d.position p.stop⟩⟩

/-- The word at a position of a document. -/
def ofPosition (d : Document) (p : Position) : Word :=
  let chars := d.text.toList
  let before := (takeWithin Char.utf8Size (d.offset p) chars).reverse
  let behind := dropWithin Char.utf8Size (d.offset p) chars
  match headAt before behind with
  | none => nothing
  | some (head, rest) =>
    let q := readQualifiers false rest
    ⟨some (part d head), q.access.map (part d), q.modules.map (part d), none⟩

/-- The text of the head. -/
def text (w : Word) : String :=
  (w.head?.map (·.text)).getD ""

/-- The range of the head. -/
def range (w : Word) : Range :=
  (w.head?.map (·.range)).getD (.of 0 0 0 0)

/-- Whether the head is a name. -/
def isName (w : Word) : Bool :=
  w.text.toList.head?.any isWordPart

/-- What completions have to begin with. -/
def start (w : Word) : String :=
  if w.isName then w.text else ""

/-- The module path as written. -/
def writtenModule (w : Word) : ModulePath :=
  ⟨w.modules.map (·.text)⟩

/-- The module path of the import that is meant, or as written. -/
def modulePath (w : Word) : ModulePath :=
  w.imported?.getD w.writtenModule

/-- Looks for the import of a module that the module path is the end of. -/
def withImportsOf (w : Word) (m : Module) : Word :=
  if w.modules.isEmpty then w
  else { w with imported? := m.imports.find? (·.endsWith w.writtenModule) }

/-- The names joined by dots, with the head. -/
def path (w : Word) : List WordPart :=
  w.access ++ w.head?.toList

/-- From the first qualifier to the end of the head. -/
def fullRange (w : Word) : Range :=
  let first := (w.modules.head? <|> w.access.head?).map (·.range.start)
  ⟨first.getD w.range.start, w.range.stop⟩

/-- The word without its head: the last name in front of it becomes the head. -/
def parent? (w : Word) : Option Word :=
  match w.access.getLast? with
  | none => none
  | some last => some { w with head? := some last, access := w.access.dropLast }

end Word

/-!
## The call around the cursor

The call is found by going left from the cursor to the innermost bracket that is still open.
The end of a statement or block ends the search. Literals are not told apart from other text.
-/

/-- An open call. -/
structure CallSite where
  /-- Where the name of the function ends. -/
  callee : Position
  /-- Number of arguments in front of the cursor. -/
  argument : Nat
  /-- Whether the function is named behind a dot. -/
  isAccess : Bool
deriving DecidableEq, Inhabited

namespace CallSite

/-- Goes left to the open bracket. `depth` counts the groups that are entered from behind, and
`commas` the commas outside of them. The result is what stands before the bracket, last
character first, and the number of commas. -/
def beforeBracket (depth commas : Nat) : List Char → Option (List Char × Nat)
  | [] => none
  | c :: cs =>
    if c = ')' ∨ c = ']' then beforeBracket (depth + 1) commas cs
    else if c = '[' then beforeBracket (depth - 1) commas cs
    else if c = '(' then
      if depth = 0 then some (cs, commas) else beforeBracket (depth - 1) commas cs
    else if c = ',' then beforeBracket depth (if depth = 0 then commas + 1 else commas) cs
    else if c = ';' ∨ c = '\x7b' ∨ c = '\x7d' then none
    else beforeBracket depth commas cs

/-- Whether a character can stand between a name and a bracket. -/
def isGap (c : Char) : Bool :=
  c == ' ' || c == '\t' || c == '\n' || c == '\x0c' || c == '\r'

/-- Whether a function's name can end with the character. -/
def endsName (c : Char) : Bool :=
  c.isAlphanum || c == '_'

/-- The call around a position of a document. -/
def ofPosition? (d : Document) (p : Position) : Option CallSite := do
  let before := (takeWithin Char.utf8Size (d.offset p) d.text.toList).reverse
  let (before, commas) ← beforeBracket 0 0 before
  let before := before.dropWhile isGap
  if !(before.head?.any endsName) then none
  let rest := before.dropWhile fun c => endsName c || c == '$'
  return ⟨d.position (utf8Length before), commas, rest.head? == some '.'⟩

end CallSite

end C3Lens
