import C3Lens.Syntax.Token

/-!
# Syntax trees

A tree holds every token of its source text, blanks and comments included: its tokens, read
from left to right, give the text back. A `Place` is a tree together with the byte offset at
which it begins; walking goes from places to places.
-/

namespace C3Lens

/-- A syntax tree. -/
inductive Tree where
  | leaf (token : Token)
  | node (kind : NodeKind) (children : List Tree)
deriving Inhabited

namespace Tree

mutual

/-- The tokens of a tree, from left to right. -/
def tokens : Tree → List Token
  | leaf t => [t]
  | node _ children => tokensOfList children

/-- The tokens of trees that stand side by side. -/
def tokensOfList : List Tree → List Token
  | [] => []
  | t :: ts => tokens t ++ tokensOfList ts

end

/-- The text that tokens spell. -/
def spell (ts : List Token) : String :=
  String.join (ts.map Token.text)

/-- The source text of a tree. -/
def text (t : Tree) : String :=
  spell t.tokens

mutual

/-- Number of bytes of the source text of a tree. -/
def width : Tree → Nat
  | leaf t => t.width
  | node _ children => widthOfList children

/-- Number of bytes of the source text of trees that stand side by side. -/
def widthOfList : List Tree → Nat
  | [] => 0
  | t :: ts => width t + widthOfList ts

end

/-- The trees directly below. -/
def children : Tree → List Tree
  | leaf _ => []
  | node _ children => children

/-- The kind of an inner node. -/
def nodeKind? : Tree → Option NodeKind
  | leaf _ => none
  | node kind _ => some kind

/-- The token of a leaf. -/
def token? : Tree → Option Token
  | leaf t => some t
  | node _ _ => none

/-- The kind of the token of a leaf. -/
def tokenKind? : Tree → Option TokenKind
  | leaf t => some t.kind
  | node _ _ => none

/-- One line of the listing of a tree: depth, kind, byte span, and the text of a leaf. -/
structure Row where
  depth : Nat
  label : String
  start : Nat
  stop : Nat
  text? : Option String
deriving DecidableEq, Inhabited

mutual

/-- All nodes and tokens in the order of their starts, a node before what it holds. -/
def listing (depth start : Nat) : Tree → List Row
  | leaf t => [⟨depth, t.kind.label, start, start + t.width, some t.text⟩]
  | node kind children =>
    ⟨depth, kind.label, start, start + widthOfList children, none⟩ ::
      listingOfList (depth + 1) start children

/-- The listing of trees that stand side by side. -/
def listingOfList (depth start : Nat) : List Tree → List Row
  | [] => []
  | t :: ts => listing depth start t ++ listingOfList depth (start + t.width) ts

end

end Tree

/-- A tree at its byte offset. -/
structure Place where
  start : Nat
  tree : Tree
deriving Inhabited

namespace Place

/-- Byte offset of the end. -/
def stop (p : Place) : Nat :=
  p.start + p.tree.width

/-- Trees side by side, the first of them at `start`. -/
def line (start : Nat) : List Tree → List Place
  | [] => []
  | t :: ts => ⟨start, t⟩ :: line (start + t.width) ts

/-- The places directly below. -/
def children (p : Place) : List Place :=
  line p.start p.tree.children

/-- The source text. -/
def text (p : Place) : String :=
  p.tree.text

/-- Whether the place holds a node of the kind. -/
def isNode (p : Place) (kind : NodeKind) : Bool :=
  p.tree.nodeKind? == some kind

/-- Whether the place holds a token of the kind. -/
def isToken (p : Place) (kind : TokenKind) : Bool :=
  p.tree.tokenKind? == some kind

/-- The inner nodes directly below. -/
def nodes (p : Place) : List Place :=
  p.children.filter (·.tree.nodeKind?.isSome)

/-- The tokens directly below. -/
def leaves (p : Place) : List Place :=
  p.children.filter (·.tree.tokenKind?.isSome)

/-- The first node of the kind directly below. -/
def child? (p : Place) (kind : NodeKind) : Option Place :=
  p.children.find? (·.isNode kind)

/-- The nodes of the kind directly below. -/
def childrenOf (p : Place) (kind : NodeKind) : List Place :=
  p.children.filter (·.isNode kind)

/-- The first token of the kind directly below. -/
def leaf? (p : Place) (kind : TokenKind) : Option Place :=
  p.children.find? (·.isToken kind)

end Place

mutual

/-- All places of a tree, a node before what it holds. -/
def Tree.placesFrom (start : Nat) : Tree → List Place
  | .leaf t => [⟨start, .leaf t⟩]
  | .node kind children => ⟨start, .node kind children⟩ :: Tree.placesOfList start children

/-- All places of trees that stand side by side. -/
def Tree.placesOfList (start : Nat) : List Tree → List Place
  | [] => []
  | t :: ts => Tree.placesFrom start t ++ Tree.placesOfList (start + t.width) ts

end

/-- The place itself and all places below it, a node before what it holds. -/
def Place.descendants (p : Place) : List Place :=
  p.tree.placesFrom p.start

end C3Lens
