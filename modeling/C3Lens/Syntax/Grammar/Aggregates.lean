import C3Lens.Syntax.Grammar.Types

/-!
# Structs, enums and faults
-/

namespace C3Lens.Grammar

/-- The type of an interface, if there is one. -/
def interfaceType : Grammar Unit := do
  if (← looksAt .ident) || (Lookahead.afterType? (← ahead)).isSome then type false

/-- One step of reading a list of interfaces. -/
def interfaceStep : Grammar Bool := do
  match ← current with
  | some .rightParen | none => return false
  | some .comma =>
    bump
    return true
  | _ =>
    let before ← cursor
    interfaceType
    if (← cursor) == before then
      if ← looksAtAny TokenKind.isCloser then return false
      bump
    return true

/-- The interfaces that a type implements, in parentheses. -/
def interfaces : Grammar Unit :=
  node .interfaceImpl do
    bump
    loop interfaceStep
    expect .rightParen .noParenthesis

/-- The bits that a member of a bitstruct takes. -/
def bitRange : Grammar Unit :=
  node .bitRange do
    bump
    if ← eat .intNumber then
      if ← eat .dotDot then skip .intNumber

/-- One step of reading further names of members. -/
def furtherMemberStep : Grammar Bool := do
  if (← looksAt .comma) && (← looksAtNthAny 1 TokenKind.isVariableName) then
    bump
    name
    return true
  else
    return false

/-- Further names of a declaration of several members. -/
def furtherMembers : Grammar Unit :=
  loop furtherMemberStep

/-- What ends the declaration of a member. -/
def memberEnd : Grammar Unit := do
  attributes
  expect .semicolon .noSemicolon

/-- An inline member, with or without a name. -/
def inlineMember : Grammar Unit := do
  bump
  type true
  if ← looksAtAny TokenKind.isVariableName then name
  memberEnd

/-- A nested aggregate, with or without a name, whose body is read by `body`. -/
def nestedMemberWith (body : Grammar Unit) : Grammar Unit := do
  bump
  if ← looksAt .ident then name
  if ← eat .colon then type false
  attributes
  if ← looksAt .leftBrace then body
  attributes
  skip .semicolon

/-- Members of one type, if there is a type. -/
def typedMembers : Grammar Unit := do
  if (Lookahead.afterType? (← ahead)).isSome then
    type true
    if ← looksAtAny TokenKind.isVariableName then name else report .noMemberName
    if ← looksAt .colon then bitRange
    furtherMembers
    memberEnd

/-- What a member is: inline, a nested aggregate whose body is read by `body`, or members of a
type. -/
def memberPartsWith (body : Grammar Unit) : Grammar Unit := do
  match ← current with
  | some .inlineKw => inlineMember
  | some .structKw | some .unionKw | some .bitstructKw => nestedMemberWith body
  | _ => typedMembers

/-- One member; the body of a nested aggregate is read by `body`. -/
def memberWith (body : Grammar Unit) : Grammar Unit := do
  if ← looksAt .semicolon then bump else node .memberDecl (memberPartsWith body)

/-- One step of reading members: a member or a stray token. -/
def memberStep (body : Grammar Unit) : Grammar Bool := do
  if (← looksAt .rightBrace) || (← atEnd) then
    return false
  else
    let before ← cursor
    memberWith body
    if (← cursor) == before then stray .strayInStructBody
    return true

/-- The members of an aggregate whose nested bodies are read by `body`. -/
def structBodyWith (body : Grammar Unit) : Grammar Unit :=
  node .structBody do
    bump
    loop (memberStep body)
    expect .rightBrace .noBrace

/-- The members of an aggregate in braces. Every nested body lies behind the brace of the
body around it. -/
def structBody : Grammar Unit :=
  nest (fun body _ => structBodyWith (body ())) ()

/-- A struct or union. -/
def structDefinition : Grammar Unit := do
  bump
  name
  if ← looksAt .leftParen then interfaces
  attributes
  if ← looksAt .leftBrace then structBody else expect .semicolon .noStructBody

/-- A bitstruct. -/
def bitstructDefinition : Grammar Unit := do
  bump
  name
  if ← looksAt .leftParen then interfaces
  if ← eat .colon then type false
  attributes
  if ← looksAt .leftBrace then structBody else report .noBitstructBody

/-- One step of reading the associated values of an enum. -/
def enumParameterStep : Grammar Bool := do
  match ← current with
  | some .rightParen | none => return false
  | some .comma =>
    bump
    return true
  | _ =>
    let before ← cursor
    node .param do
      skip .inlineKw
      type true
      if ← looksAtAny TokenKind.isVariableName then name
    if (← cursor) == before then
      if ← looksAtAny TokenKind.isCloser then return false
      stray .strayInEnumParameters
    return true

/-- The associated values of an enum, in parentheses. -/
def enumParameters : Grammar Unit :=
  node .enumParams do
    bump
    loop enumParameterStep
    expect .rightParen .noParenthesis

/-- The value given to an enumerator, if there is one. -/
def enumValue : Grammar Unit := do
  match ← current with
  | some .leftParen | some .leftBrace => node .enumValue bumpGroup
  | some .equal =>
    node .enumValue do
      bump
      bumpUntil [.comma]
  | _ => pure ()

/-- One step of reading the enumerators of an enum. -/
def enumeratorStep : Grammar Bool := do
  match ← current with
  | some .rightBrace | none => return false
  | some .comma =>
    bump
    return true
  | some .ident =>
    node .enumerator do
      name
      enumValue
      attributes
    return true
  | _ =>
    stray .noEnumerator
    return true

/-- The enumerators of an enum in braces. -/
def enumBody : Grammar Unit :=
  node .enumBody do
    bump
    loop enumeratorStep
    expect .rightBrace .noBrace

/-- The type behind an enum and its associated values, if they are given. -/
def enumBacking : Grammar Unit := do
  if ← eat .colon then
    skip .constKw
    if (Lookahead.afterType? (← ahead)).isSome then type false
    if ← looksAt .leftParen then enumParameters

/-- An enum. -/
def enumDefinition : Grammar Unit := do
  bump
  name
  if ← looksAt .leftParen then interfaces
  enumBacking
  attributes
  if ← looksAt .leftBrace then enumBody else report .noEnumBody

/-- One step of reading the constants of a fault. -/
def faultConstantStep : Grammar Bool := do
  match ← current with
  | some .rightBrace | none => return false
  | some .comma =>
    bump
    return true
  | some .ident =>
    name
    attributes
    return true
  | _ =>
    stray .noFaultConstant
    return true

/-- A fault with its constants in braces. -/
def faultDefinition : Grammar Unit := do
  bump
  name
  if ← looksAt .leftParen then interfaces
  attributes
  if ← looksAt .leftBrace then
    node .faultBody do
      bump
      loop faultConstantStep
      expect .rightBrace .noBrace
  else
    report .noFaultBody

/-- One step of reading fault constants without a fault around them. -/
def looseConstantStep : Grammar Bool := do
  if ← looksAt .ident then
    name
    attributes
    eat .comma
  else
    return false

/-- Fault constants without a fault around them. -/
def faultConstants : Grammar Unit := do
  bump
  loop looseConstantStep
  attributes
  expect .semicolon .noSemicolon

end C3Lens.Grammar
