import C3Lens.Syntax.Tree

/-!
# Reading tokens into trees

The grammar is a set of actions on a `Reader`. The reader looks ahead at the significant
tokens only; blanks and comments wait until the next token is placed or the next node is
opened, and then go into the node that is open at that moment. So a comment in front of a
declaration stands beside the declaration, not inside it.

Only `flush` and `bump` move tokens, always the first one that waits, and nodes only group what
has been placed; so no action can lose, repeat or reorder a token.
-/

namespace C3Lens

/-!
## Building trees

A tree is built from left to right: tokens are added to the node that is open, nodes are started
and finished. A node can also be started at a place that was passed, a checkpoint, and then takes
in what was added since. To finish a node that was not started, or to start one at a checkpoint
that no longer stands, is a mistake and gives nothing.
-/

/-- A tree that is being built. -/
structure TreeBuilder where
  /-- What the open node holds so far, last first. -/
  held : List Tree
  /-- The kinds of the nodes that are started and not finished, the open one first, each with
  what stands in front of it in the node around it, last first. -/
  started : List (NodeKind × List Tree)
deriving Inhabited

/-- A place behind what a node holds. -/
structure Checkpoint where
  /-- Number of nodes that are started around the place. -/
  depth : Nat
  /-- Number of trees that the innermost of them holds in front of the place. -/
  count : Nat
deriving DecidableEq, Inhabited

namespace TreeBuilder

/-- Nothing yet. -/
def empty : TreeBuilder :=
  ⟨[], []⟩

/-- Adds a token to the open node. -/
def token (b : TreeBuilder) (t : Token) : TreeBuilder :=
  { b with held := .leaf t :: b.held }

/-- Starts a node. -/
def start (b : TreeBuilder) (kind : NodeKind) : TreeBuilder :=
  ⟨[], (kind, b.held) :: b.started⟩

/-- The place reached. -/
def checkpoint (b : TreeBuilder) : Checkpoint :=
  ⟨b.started.length, b.held.length⟩

/-- Starts a node at a checkpoint. The checkpoint stands as long as the node in which it was made
is the open one and has not lost anything. -/
def startAt? (b : TreeBuilder) (c : Checkpoint) (kind : NodeKind) : Option TreeBuilder :=
  if c.depth = b.started.length ∧ c.count ≤ b.held.length then
    let since := b.held.length - c.count
    some ⟨b.held.take since, (kind, b.held.drop since) :: b.started⟩
  else none

/-- Finishes the open node. -/
def finish? (b : TreeBuilder) : Option TreeBuilder :=
  match b.started with
  | [] => none
  | (kind, front) :: started => some ⟨.node kind b.held.reverse :: front, started⟩

/-- The tree, once all nodes are finished and nothing stands beside it. -/
def root? (b : TreeBuilder) : Option Tree :=
  match b with
  | ⟨[.node kind children], []⟩ => some (.node kind children)
  | _ => none

end TreeBuilder


/-!
## Syntax errors

What a syntax error says, and where. Reading a source text never fails: an error is noted
and reading goes on.
-/

/-- What can be wrong at a place in a source text. -/
inductive SyntaxError.Cause where
  | noDeclaration | noName | noModulePath | noType | noMemberName
  | noSemicolon | noEqual | noParenthesis | noBrace
  | noEndOfGenericParameters | noEndOfGenericArguments
  | noFunctionBody | noParameterList | noStructBody | noBitstructBody | noEnumBody
  | noFaultBody | noInterfaceBody
  | noEnumerator | noFaultConstant | noMethod
  | strayInParameterList | strayInStructBody | strayInEnumParameters
deriving DecidableEq, Inhabited

/-- The wording of a cause. -/
def SyntaxError.Cause.message : SyntaxError.Cause → String
  | .noDeclaration => "expected a declaration"
  | .noName => "expected a name"
  | .noModulePath => "expected a module path"
  | .noType => "expected a type"
  | .noMemberName => "expected a member name"
  | .noSemicolon => "expected `;`"
  | .noEqual => "expected `=`"
  | .noParenthesis => "expected `)`"
  | .noBrace => "expected `\x7d`"
  | .noEndOfGenericParameters => "expected end of generic parameters"
  | .noEndOfGenericArguments => "expected end of generic arguments"
  | .noFunctionBody => "expected a function body"
  | .noParameterList => "expected a parameter list"
  | .noStructBody => "expected a struct body"
  | .noBitstructBody => "expected a bitstruct body"
  | .noEnumBody => "expected an enum body"
  | .noFaultBody => "expected a fault body"
  | .noInterfaceBody => "expected an interface body"
  | .noEnumerator => "expected an enumerator"
  | .noFaultConstant => "expected a fault constant"
  | .noMethod => "expected a method declaration"
  | .strayInParameterList => "unexpected token in parameter list"
  | .strayInStructBody => "unexpected token in struct body"
  | .strayInEnumParameters => "unexpected token in enum parameters"

/-- A syntax error at the byte offset of the token where it was noticed. -/
structure SyntaxError where
  cause : SyntaxError.Cause
  offset : Nat
deriving DecidableEq, Inhabited

/-- The error with its place, as one line. -/
def SyntaxError.message (e : SyntaxError) : String :=
  e.cause.message ++ " at byte " ++ toString e.offset

/-- A significant token with the blanks and comments that follow it. -/
structure Lexeme where
  token : Token
  blanks : List Token
deriving DecidableEq, Inhabited

namespace Lexeme

/-- The kind of the token. -/
def kind (l : Lexeme) : TokenKind :=
  l.token.kind

/-- The text of the token. -/
def text (l : Lexeme) : String :=
  l.token.text

/-- Splits tokens into the leading blanks and comments and the lexemes after them. -/
def arrange : List Token → List Token × List Lexeme
  | [] => ([], [])
  | t :: ts =>
    let (blanks, ahead) := arrange ts
    if t.kind.isTrivia then (t :: blanks, ahead) else ([], ⟨t, blanks⟩ :: ahead)

end Lexeme

/-- The state of reading: what waits to be placed, and the tree so far. -/
structure Reader where
  /-- Blanks and comments in front of the next significant token. -/
  blanks : List Token
  /-- The significant tokens to come. -/
  ahead : List Lexeme
  /-- Number of bytes placed. -/
  offset : Nat
  /-- Number of significant tokens placed. -/
  cursor : Nat
  /-- The tree so far; none after a mistake in building it. -/
  builder? : Option TreeBuilder
  /-- The errors noted, last first. -/
  errors : List SyntaxError
deriving Inhabited

/-- An action of the grammar. -/
abbrev Grammar := StateM Reader

namespace Reader

/-- A reader in front of all tokens of a text. -/
def ofTokens (ts : List Token) : Reader :=
  let (blanks, ahead) := Lexeme.arrange ts
  ⟨blanks, ahead, 0, 0, some .empty, []⟩

/-- Places one token in the open node. -/
def place (r : Reader) (t : Token) : Reader :=
  { r with builder? := r.builder?.map (·.token t), offset := r.offset + t.width }

/-- Places the blanks and comments that wait. -/
def flush (r : Reader) : Reader :=
  { r.blanks.foldl place r with blanks := [] }

/-- Places the next significant token, if there is one, behind the blanks before it. -/
def bump (r : Reader) : Reader :=
  let r := r.flush
  match r.ahead with
  | [] => r
  | l :: ahead =>
    { r.place l.token with blanks := l.blanks, ahead := ahead, cursor := r.cursor + 1 }

/-- Byte offset of the next significant token, or of the end of the text. -/
def here (r : Reader) : Nat :=
  r.offset + r.blanks.foldr (fun t n => t.width + n) 0

/-- Notes an error at the next significant token. -/
def report (r : Reader) (cause : SyntaxError.Cause) : Reader :=
  { r with errors := ⟨cause, r.here⟩ :: r.errors }

/-- Starts a node. -/
def start (r : Reader) (kind : NodeKind) : Reader :=
  { r with builder? := r.builder?.map (·.start kind) }

/-- The place reached in the tree. -/
def checkpoint (r : Reader) : Checkpoint :=
  (r.builder?.map (·.checkpoint)).getD ⟨0, 0⟩

/-- Starts a node at a checkpoint. -/
def startAt (r : Reader) (c : Checkpoint) (kind : NodeKind) : Reader :=
  { r with builder? := r.builder?.bind (·.startAt? c kind) }

/-- Finishes the open node. -/
def finish (r : Reader) : Reader :=
  { r with builder? := r.builder?.bind (·.finish?) }

/-- The tree that was built, if all nodes are finished. -/
def tree? (r : Reader) : Option Tree :=
  r.builder?.bind (·.root?)

end Reader

namespace Grammar

/-- What an action answers. -/
def answer {α : Type} (m : Grammar α) (r : Reader) : α :=
  (m.run r).1

/-- The reader behind an action. -/
def after {α : Type} (m : Grammar α) (r : Reader) : Reader :=
  (m.run r).2

/-- The significant tokens to come. -/
def ahead : Grammar (List Lexeme) :=
  return (← get).ahead

/-- The kind of the token `n` places ahead; none behind the last token. -/
def kindAt (n : Nat) : Grammar (Option TokenKind) :=
  return (← ahead)[n]?.map Lexeme.kind

/-- The kind of the next token. -/
def current : Grammar (Option TokenKind) :=
  return (← ahead).head?.map Lexeme.kind

/-- The text of the next token; empty behind the last one. -/
def currentText : Grammar String :=
  return ((← ahead).head?.map Lexeme.text).getD ""

/-- Whether the next token has the kind. -/
def looksAt (kind : TokenKind) : Grammar Bool :=
  return (← current) == some kind

/-- Whether the token `n` places ahead has the kind. -/
def looksAtNth (n : Nat) (kind : TokenKind) : Grammar Bool :=
  return (← kindAt n) == some kind

/-- Whether the next token is in the class; nothing is behind the last token. -/
def looksAtAny (p : TokenKind → Bool) : Grammar Bool :=
  return ((← current).map p).getD false

/-- Whether the token `n` places ahead is in the class. -/
def looksAtNthAny (n : Nat) (p : TokenKind → Bool) : Grammar Bool :=
  return ((← kindAt n).map p).getD false

/-- Whether no significant token is left. -/
def atEnd : Grammar Bool :=
  return (← ahead).isEmpty

/-- Number of significant tokens placed so far. -/
def cursor : Grammar Nat :=
  return (← get).cursor

/-- Places the blanks and comments that wait. -/
def flush : Grammar Unit :=
  modify Reader.flush

/-- Places the next significant token. -/
def bump : Grammar Unit :=
  modify Reader.bump

/-- Places the next token if it has the kind, and says whether it did. -/
def eat (kind : TokenKind) : Grammar Bool := do
  if ← looksAt kind then
    bump
    return true
  else
    return false

/-- Places the next token if it has the kind. -/
def skip (kind : TokenKind) : Grammar Unit := do
  if ← looksAt kind then bump

/-- Notes an error at the next significant token. -/
def report (cause : SyntaxError.Cause) : Grammar Unit :=
  modify (·.report cause)

/-- Places the next token if it has the kind, and notes an error otherwise. -/
def expect (kind : TokenKind) (cause : SyntaxError.Cause) : Grammar Unit := do
  if ← looksAt kind then bump else report cause

/-- Runs `body` and makes one node of what it places. -/
def node (kind : NodeKind) (body : Grammar Unit) : Grammar Unit := do
  flush
  modify (·.start kind)
  body
  modify Reader.finish

/-- The place in front of the next significant token. -/
def checkpoint : Grammar Checkpoint := do
  flush
  return (← get).checkpoint

/-- Runs `body` and makes one node of what it places and of what was placed since the checkpoint. -/
def nodeFrom (c : Checkpoint) (kind : NodeKind) (body : Grammar Unit) : Grammar Unit := do
  modify (·.startAt c kind)
  body
  modify Reader.finish

/-- Repeats `step` with the value that it gives, while it gives one, at most `n` times. -/
def loopAtMost {α : Type} (step : α → Grammar (Option α)) : Nat → α → Grammar Unit
  | 0, _ => pure ()
  | n + 1, a => do
    match ← step a with
    | some next => loopAtMost step n next
    | none => pure ()

/-- Repeats `step` with the value that it gives, while it gives one. A step that gives one has to
place a token, so there are never more steps than tokens and one. -/
def loopFrom {α : Type} (step : α → Grammar (Option α)) (a : α) : Grammar Unit := do
  loopAtMost step ((← ahead).length + 1) a

/-- A step without a value, which answers whether to go on. -/
def plain (step : Grammar Bool) : Unit → Grammar (Option Unit) := fun _ =>
  return if ← step then some () else none

/-- Repeats `step` while it answers `true`. -/
def loop (step : Grammar Bool) : Grammar Unit :=
  loopFrom (plain step) ()

/-- Runs `within`, whose first argument reads what nests in it, at most `depth` levels deep. -/
def nestAtMost {α : Type} (within : (α → Grammar Unit) → α → Grammar Unit) : Nat → α → Grammar Unit
  | 0, _ => pure ()
  | depth + 1, a => within (nestAtMost within depth) a

/-- Runs `within`, whose first argument reads what nests in it. What nests has to begin behind a token
of what it nests in, so there are never more levels than tokens and one. -/
def nest {α : Type} (within : (α → Grammar Unit) → α → Grammar Unit) (a : α) : Grammar Unit := do
  nestAtMost within ((← ahead).length + 1) a

/-- One step of placing the words that are in a class. -/
def wordStep (p : TokenKind → Bool) : Grammar Bool := do
  if ← looksAtAny p then
    bump
    return true
  else
    return false

/-- Makes an error node of the next token. -/
def stray (cause : SyntaxError.Cause) : Grammar Unit := do
  report cause
  node .error bump

end Grammar

end C3Lens
