import C3Lens.Document.Id
import C3Lens.Symbol.Module
import C3Lens.Syntax.Parse
import C3Lens.Table

/-!
# The place of a declaration

What the builders of symbols know: the document with its lines, and the module that the
declarations belong to. Besides a symbol they yield pending work.
-/

namespace C3Lens

/-!
## Pending work

One document alone does not tell which module declares a type it uses, nor which members an
inlined struct has. Such work is recorded here and done when the other documents are known.
-/

/-- A user-defined type whose declaring module is not known. It stands for every type of the
name in the context module of the document whose module still is the written one. -/
structure PendingType where
  doc : DocId
  /-- The module in which the type is written. -/
  context : String
  typeName : String
  /-- The qualifier that the type is written with, or the context module. -/
  written : String
deriving DecidableEq, Inhabited

/-- A struct with an inline member whose members are not there yet. -/
structure PendingInline where
  doc : DocId
  moduleName : String
  structName : String
  inlined : String
deriving DecidableEq, Inhabited

/-- All pending work: types in groups by context module, in the order of each group's first
entry, and inline members. -/
structure Pending where
  groups : Table (List PendingType)
  inlines : List PendingInline
deriving Inhabited

namespace Pending

/-- No pending work. -/
def empty : Pending :=
  ⟨.empty, []⟩

/-- Adds an element at the end of a list that does not hold it. -/
def addNew {α : Type} [DecidableEq α] (as : List α) (a : α) : List α :=
  if a ∈ as then as else as ++ [a]

/-- Adds a type, once. -/
def addType (p : Pending) (t : PendingType) : Pending :=
  { p with groups := p.groups.insert t.context (addNew ((p.groups.get? t.context).getD []) t) }

/-- Adds an inline member, once. -/
def addInline (p : Pending) (i : PendingInline) : Pending :=
  { p with inlines := addNew p.inlines i }

/-- The types of one context module. -/
def typesIn (p : Pending) (context : String) : List PendingType :=
  (p.groups.get? context).getD []

/-- All types, group after group. -/
def types (p : Pending) : List PendingType :=
  p.groups.values.flatten

/-- Number of types. -/
def typeCount (p : Pending) : Nat :=
  p.types.length

/-- Whether nothing is pending. -/
def isEmpty (p : Pending) : Bool :=
  p.types.isEmpty && p.inlines.isEmpty

/-- Adds all work of `q`. -/
def append (p q : Pending) : Pending :=
  q.inlines.foldl addInline (q.types.foldl addType p)

/-- Keeps the types that satisfy `keep`; groups without types go. -/
def filterTypes (p : Pending) (keep : PendingType → Bool) : Pending :=
  { p with groups := (p.groups.map (·.filter keep)).filter fun _ ts => !ts.isEmpty }

/-- Drops the work of a document. -/
def purge (p : Pending) (doc : DocId) : Pending :=
  let kept := p.filterTypes (·.doc != doc)
  { kept with inlines := kept.inlines.filter (·.doc != doc) }

/-- Moves the work of a document to another id. -/
def rename (p : Pending) (old new : DocId) : Pending :=
  let moved := (p.types.filter (·.doc == old)).map ({ · with doc := new })
  let kept := moved.foldl addType (p.filterTypes (·.doc != old))
  { kept with inlines := kept.inlines.map fun i => if i.doc == old then { i with doc := new } else i }

end Pending

/-- The document and module that declarations belong to. -/
structure Scope where
  doc : DocId
  lines : LineTable
  path : ModulePath
  genericParameters : List String
deriving Inhabited

namespace Scope

/-- The name of the module. -/
def moduleName (s : Scope) : String :=
  s.path.text

/-- The range from one byte offset to another. -/
def rangeOf (s : Scope) (start stop : Nat) : Range :=
  ⟨s.lines.position start, s.lines.position stop⟩

/-- The range of a place. -/
def range (s : Scope) (p : Place) : Range :=
  s.rangeOf p.start p.stop

/-- A declaration in the scope. -/
def declaration (s : Scope) (name : String) (nameRange range : Range)
    (comment? : Option DocComment) : Declaration :=
  ⟨name, s.path, s.doc, nameRange, range, comment?⟩

end Scope

/-- A builder of symbols: it reads the scope and adds to the pending work. -/
abbrev Outline := ReaderT Scope (StateM Pending)

/-! ## Reading trees -/

namespace Tree

/-- Joins the texts of tokens; blanks and comments between two of them become one space. -/
def joinCompact (blank : Bool) : List Token → String
  | [] => ""
  | t :: ts =>
    if t.kind.isTrivia then joinCompact true ts
    else (if blank then " " else "") ++ t.text ++ joinCompact false ts

/-- The text without comments, with every run of blanks as one space. -/
def compactText (t : Tree) : String :=
  joinCompact false (t.tokens.dropWhile fun t => t.kind.isTrivia)

/-- The first token. -/
def firstToken? (t : Tree) : Option Token :=
  t.tokens.head?

/-- The last token. -/
def lastToken? (t : Tree) : Option Token :=
  t.tokens.getLast?

end Tree

namespace Place

/-- The first token, with its place. -/
def firstLeaf? (p : Place) : Option Place :=
  p.tree.firstToken?.map fun t => ⟨p.start, .leaf t⟩

/-- The token that the name directly below begins with. -/
def nameLeaf? (p : Place) : Option Place :=
  (p.child? .name).bind firstLeaf?

/-- The first tokens of all names directly below. -/
def nameLeaves (p : Place) : List Place :=
  (p.childrenOf .name).filterMap firstLeaf?

/-- Whether a token of the kind is directly below. -/
def hasLeaf (p : Place) (kind : TokenKind) : Bool :=
  (p.leaf? kind).isSome

end Place

/-- The doc comment that stands in front of a node, given what stands before the node, the
nearest first: only blanks and other comments may be between. -/
def commentBefore? : List Tree → Option DocComment
  | .leaf t :: previous =>
    match t.kind with
    | .whitespace | .lineComment | .blockComment => commentBefore? previous
    | .docComment => some (.parse t.text)
    | _ => none
  | _ => none

/-- Trees side by side from `start` on, each with what stands before it, the nearest first. -/
def placesWithPrevious (start : Nat) (previous : List Tree) : List Tree → List (List Tree × Place)
  | [] => []
  | t :: ts => (previous, ⟨start, t⟩) :: placesWithPrevious (start + t.width) (t :: previous) ts

/-- The value of digits in a base, if all are digits of it. -/
def digitsValue? (base : Nat) (cs : List Char) : Option Nat :=
  if cs.isEmpty then none
  else
    cs.foldl (fun n? c => do
      let n ← n?
      let d ←
        if c.isDigit then some (c.toNat - 48)
        else if 'a' ≤ c && c ≤ 'z' then some (c.toNat - 87)
        else none
      if d < base then some (n * base + d) else none) (some 0)

/-- The value of an integer literal, unless it has a width mark or is 2³² or more. -/
def integerValue? (text : String) : Option Nat := do
  let cs := (text.toList.filter (· != '_')).map Char.toLower
  let n ← match cs with
    | '0' :: 'x' :: ds => digitsValue? 16 ds
    | '0' :: 'b' :: ds => digitsValue? 2 ds
    | '0' :: 'o' :: ds => digitsValue? 8 ds
    | ds => digitsValue? 10 ds
  if n < 4294967296 then some n else none

end C3Lens
