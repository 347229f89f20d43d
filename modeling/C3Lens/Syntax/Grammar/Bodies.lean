import C3Lens.Syntax.Grammar.Types

/-!
# Bodies of functions

Of a body only blocks and declarations of local variables become nodes; all else stays a
run of tokens.
-/

namespace C3Lens.Grammar

/-- The value a variable is declared with. -/
def initializer : Grammar Unit := do
  if ← looksAt .equal then
    node .initializer do
      bump
      bumpUntil [.semicolon, .comma]

/-- One step of reading further names of variables. -/
def furtherVariableStep : Grammar Bool := do
  if (← looksAt .comma) && (← looksAtNthAny 1 TokenKind.isVariableName) then
    bump
    name
    initializer
    return true
  else
    return false

/-- Further names of a declaration of several variables. -/
def furtherVariables : Grammar Unit :=
  loop furtherVariableStep

/-- The words in front of a declaration of a local variable. -/
def localModifiers : Grammar Unit :=
  loop (wordStep Lookahead.isLocalModifier)

/-- A declaration of local variables. -/
def localVariables : Grammar Unit :=
  node .localVarDecl do
    localModifiers
    let untyped := (← looksAt .ident) && (← looksAtNth 1 .equal)
    if ← looksAt .varKw then bump
    else if !untyped then type true
    name
    attributes
    initializer
    furtherVariables
    skip .semicolon

/-- The type of a variable in the header of a `foreach`, unless the next token is its name. -/
def foreachType : Grammar Unit := do
  match ← kindAt 1 with
  | some .comma | some .colon | some .rightParen => pure ()
  | _ => type true

/-- One variable in the header of a `foreach`. -/
def foreachVariable : Grammar Unit :=
  node .localVarDecl do
    skip .ampersand
    foreachType
    name

/-- One step of reading the variables of a `foreach`. -/
def foreachStep : Grammar Bool := do
  match ← current with
  | some .colon | some .rightParen | none => return false
  | some .comma =>
    bump
    return true
  | _ =>
    let before ← cursor
    foreachVariable
    if (← cursor) == before then bump
    return true

/-- The header of a loop: the variables it declares, then the rest unread. -/
def loopHeader : Grammar Unit := do
  let isFor ← looksAt .forKw
  bump
  if ← looksAt .leftParen then
    bump
    if !isFor then loop foreachStep
    else if Lookahead.atLocalVariable (← ahead) then localVariables
    bumpUntil [.rightParen]
    skip .rightParen

/-- A compile-time directive. What stands in its branches is read as if each were taken. -/
def directive : Grammar Unit := do
  let text ← currentText
  bump
  if ["$if", "$elif", "$switch", "$case", "$for", "$foreach"].contains text then
    bumpUntil [.colon]
    skip .colon
  else if ["$assert", "$include", "$exec", "$echo", "$error"].contains text then
    bumpUntil [.semicolon]
    skip .semicolon
  else
    skip .colon

/-- One step of reading a statement that declares nothing; blocks in it are read by
`block`. -/
def expressionStep (block : Grammar Unit) : Grammar Bool := do
  match ← current with
  | none | some .rightBrace => return false
  | some .semicolon =>
    bump
    return false
  | some .leftBrace =>
    block
    return true
  | some kind =>
    bumpWhole kind
    return true

/-- One statement whose blocks are read by `block`. -/
def statementWith (block : Grammar Unit) : Grammar Unit := do
  match ← current with
  | some .leftBrace => block
  | some .semicolon | some .elseKw | some .doKw | some .deferKw => bump
  | some .forKw | some .foreachKw | some .foreachRKw => loopHeader
  | some .ifKw | some .whileKw | some .switchKw =>
    bump
    if ← looksAt .leftParen then bumpGroup
  | some .caseKw | some .defaultKw =>
    bump
    bumpUntil [.colon]
    skip .colon
  | _ =>
    let ls ← ahead
    if Lookahead.atDirective ls then directive
    else if Lookahead.atLocalVariable ls then localVariables
    else loop (expressionStep block)

/-- One step of reading statements. -/
def statementStep (block : Grammar Unit) : Grammar Bool := do
  if (← looksAt .rightBrace) || (← atEnd) then
    return false
  else
    statementWith block
    return true

/-- A block whose inner blocks are read by `block`. -/
def blockWith (block : Grammar Unit) : Grammar Unit :=
  node .block do
    bump
    loop (statementStep block)
    expect .rightBrace .noBrace

/-- Statements in braces. Every inner block lies behind the brace of the block around it. -/
def block : Grammar Unit :=
  nest (fun block _ => blockWith (block ())) ()

end C3Lens.Grammar
