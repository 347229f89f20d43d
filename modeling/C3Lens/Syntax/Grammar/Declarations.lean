import C3Lens.Syntax.Grammar.Aggregates
import C3Lens.Syntax.Grammar.Bodies

/-!
# Top-level declarations

The actions named for a declaration read it from its first reserved word on; `unmodified` makes
a node of its kind of what they place and of the modifiers in front.
-/

namespace C3Lens.Grammar

/-- One step of reading further names of a module's path. -/
def pathStep : Grammar Bool := do
  if (← looksAt .colonColon) && (← looksAtNth 1 .ident) then
    bump
    bump
    return true
  else
    return false

/-- The path of a module. -/
def modulePath : Grammar Unit :=
  node .modulePath do
    if ← looksAt .ident then
      bump
      loop pathStep
    else
      report .noModulePath

/-- One step of reading the generic parameters of a module up to the bracket `close`. -/
def genericParameterStep (close : TokenKind) : Grammar Bool := do
  if (← atEnd) || (← looksAt .semicolon) || (← looksAt close) then
    return false
  else
    if ← looksAtAny TokenKind.isVariableName then name else bump
    return true

/-- The generic parameters of a module. -/
def genericParameters : Grammar Unit :=
  node .genericParams do
    let close := if ← looksAt .leftGeneric then .rightGeneric else .rightBrace
    bump
    loop (genericParameterStep close)
    expect close .noEndOfGenericParameters

/-- The declaration of the module that what follows belongs to. -/
def moduleDeclaration : Grammar Unit := do
  bump
  modulePath
  if (← looksAt .leftGeneric) || (← looksAt .leftBrace) then genericParameters
  attributes
  expect .semicolon .noSemicolon

/-- One step of reading further imports. -/
def importStep : Grammar Bool := do
  if ← eat .comma then
    modulePath
    return true
  else
    return false

/-- An import of modules. -/
def importDeclaration : Grammar Unit := do
  bump
  modulePath
  loop importStep
  attributes
  expect .semicolon .noSemicolon

/-- Whether a definition of a function-like macro omits the type it returns. -/
def omitsReturnType : Grammar Bool := do
  return (← looksAtNth 1 .leftParen) || ((← looksAtNth 1 .dot) && (← looksAtNth 3 .leftParen))

/-- One step of reading the path of a receiver's type. -/
def receiverStep : Grammar Bool := do
  if ← looksAtNth 1 .colonColon then
    bump
    bump
    return true
  else
    return false

/-- The type of a method's receiver and the dot behind it. -/
def receiver : Grammar Unit := do
  if Lookahead.atReceiver (← ahead) then
    node .methodType do
      loop receiverStep
      bump
    bump

/-- What a function or macro is: return type, receiver, name and parameters. -/
def signature (isMacro : Bool) : Grammar Unit := do
  if !(isMacro && (← omitsReturnType)) then type true
  receiver
  name
  if ← looksAt .leftParen then parameterList else report .noParameterList

/-- A function or macro with its body. -/
def functionDefinition (isMacro : Bool) : Grammar Unit := do
  bump
  signature isMacro
  attributes
  if ← looksAt .leftBrace then
    block
  else if (← looksAt .operator) && (← currentText) == "=>" then
    node .block do
      bump
      bumpUntil [.semicolon]
    skip .semicolon
  else
    expect .semicolon .noFunctionBody

/-- One step of reading the methods of an interface. -/
def methodStep : Grammar Bool := do
  if (← looksAt .rightBrace) || (← atEnd) then return false
  if ← looksAt .fnKw then
    nodeFrom (← checkpoint) .fnDef (functionDefinition false)
  else
    stray .noMethod
  return true

/-- One step of reading the interfaces that an interface extends. -/
def extendedStep : Grammar Bool := do
  if (Lookahead.afterType? (← ahead)).isSome then type false
  eat .comma

/-- An interface. -/
def interfaceDefinition : Grammar Unit := do
  bump
  name
  if ← eat .colon then loop extendedStep
  attributes
  if ← looksAt .leftBrace then
    node .interfaceBody do
      bump
      loop methodStep
      expect .rightBrace .noBrace
  else
    report .noInterfaceBody

/-- Whether the right side of an alias that is no type ends at a token of the kind; `previous` is the
kind of the token before, if this is not the first. -/
def endsAliasTarget (previous : Option TokenKind) : TokenKind → Bool
  | .semicolon => true
  | .atIdent => previous.isSome && previous != some .colonColon && previous != some .moduleKw
  | kind => kind.isCloser

/-- One step of reading the right side of an alias that is no type. -/
def aliasTargetStep (previous : Option TokenKind) : Grammar (Option (Option TokenKind)) := do
  match ← current with
  | none => return none
  | some kind =>
    if endsAliasTarget previous kind then
      return none
    else
      bumpWhole kind
      return some (some kind)

/-- The right side of an alias that is no type, such as a function or a module. -/
def aliasTarget : Grammar Unit :=
  node .aliasTarget (loopFrom aliasTargetStep none)

/-- An alias. -/
def aliasDeclaration : Grammar Unit := do
  bump
  name
  attributes
  if ← eat .equal then
    skip .inlineKw
    let behind? := Lookahead.afterType? (← ahead)
    if ← looksAt .fnKw then
      functionType
    else if (behind?.map (Lookahead.headIs fun kind => kind == .semicolon || kind == .atIdent)).getD false then
      type true
    else
      aliasTarget
  else
    report .noEqual
  attributes
  expect .semicolon .noSemicolon

/-- A distinct type. -/
def distinctDeclaration : Grammar Unit := do
  bump
  name
  if ← looksAt .leftParen then interfaces
  attributes
  if ← eat .equal then
    skip .inlineKw
    type true
  else
    report .noEqual
  attributes
  expect .semicolon .noSemicolon

/-- A constant, with or without a type. -/
def constantDeclaration : Grammar Unit := do
  bump
  let untyped := (← looksAtAny TokenKind.isVariableName) &&
    (← looksAtNthAny 1 fun kind => kind == .equal || kind == .semicolon || kind == .atIdent)
  if !untyped then type true
  name
  attributes
  initializer
  expect .semicolon .noSemicolon

/-- Global variables. -/
def globalVariables : Grammar Unit := do
  type true
  name
  attributes
  initializer
  furtherVariables
  expect .semicolon .noSemicolon

/-- One step of skipping what is no declaration; `consumed` tells whether a token has been
skipped. -/
def recoveryStep (start : Nat) : Grammar Bool := do
  match ← current with
  | none => return false
  | some kind =>
    let consumed := (← cursor) != start
    if consumed && (kind.startsDeclaration || Lookahead.atDirective (← ahead)) then
      return false
    match kind with
    | .semicolon =>
      bump
      return false
    | .leftBrace =>
      bumpGroup
      return false
    | kind =>
      bumpWhole kind
      return true

/-- Skips to the next place where a declaration can begin. -/
def recover : Grammar Unit := do
  report .noDeclaration
  let start ← cursor
  loop (recoveryStep start)

/-- The modifiers in front of a declaration. -/
def modifiers : Grammar Unit :=
  loop (wordStep fun kind => kind matches .externKw | .staticKw | .tlocalKw)

/-- One top-level declaration or directive, or what has to be skipped, behind the modifiers in front.
It is a node from the checkpoint on; a directive makes none. -/
def unmodified (c : Checkpoint) : Grammar Unit := do
  let ls ← ahead
  match ← current with
  | some .moduleKw => nodeFrom c .moduleDecl moduleDeclaration
  | some .importKw => nodeFrom c .importDecl importDeclaration
  | some .fnKw => nodeFrom c .fnDef (functionDefinition false)
  | some .macroKw => nodeFrom c .macroDef (functionDefinition true)
  | some .structKw | some .unionKw => nodeFrom c .structDef structDefinition
  | some .bitstructKw => nodeFrom c .bitstructDef bitstructDefinition
  | some .enumKw => nodeFrom c .enumDef enumDefinition
  | some .faultdefKw => nodeFrom c .faultdefDecl faultConstants
  | some .defKw | some .aliasKw => nodeFrom c .defDecl aliasDeclaration
  | some .distinctKw | some .typedefKw => nodeFrom c .distinctDecl distinctDeclaration
  | some .interfaceKw => nodeFrom c .interfaceDef interfaceDefinition
  | some .constKw => nodeFrom c .constDecl constantDeclaration
  | some kind =>
    if kind == .faultKw && (ls[1]?.map Lookahead.isUserType).getD false then
      nodeFrom c .faultDef faultDefinition
    else if Lookahead.atDirective ls then
      directive
    else if Lookahead.atTypedName ls then
      nodeFrom c .globalVarDecl globalVariables
    else
      nodeFrom c .error recover
  | none => nodeFrom c .error recover

/-- One item at top level. -/
def item : Grammar Unit := do
  let c ← checkpoint
  modifiers
  unmodified c

/-- One step of reading a source text. -/
def itemStep : Grammar Bool := do
  if ← atEnd then
    return false
  else
    item
    return true

/-- A whole source text. -/
def sourceFile : Grammar Unit := do
  modify (·.start .sourceFile)
  loop itemStep
  flush
  modify Reader.finish

end C3Lens.Grammar
