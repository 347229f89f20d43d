import C3Lens.Syntax.Grammar.Lookahead

/-!
# Types and parameters

Types nest in three places: generic arguments, function types and their parameters. The
actions below take the reader of nested types as an argument; `type` closes the knot. Each
nested type lies behind at least one token of the type around it.
-/

namespace C3Lens.Grammar

/-- One step of placing a bracket group: a token, and the depth behind it inside the group. -/
def groupStep (depth : Nat) : Grammar (Option Nat) := do
  match ← current with
  | none => return none
  | some kind =>
    bump
    return if Lookahead.deeper depth kind = 0 then none else some (Lookahead.deeper depth kind)

/-- Places a bracket group that the next token opens. -/
def bumpGroup : Grammar Unit :=
  loopFrom groupStep 0

/-- Places the next token, which is of the kind; an opening bracket with its group. -/
def bumpWhole (kind : TokenKind) : Grammar Unit :=
  if kind.isOpener then bumpGroup else bump

/-- One step of placing tokens up to one of `stops` or a closing bracket. -/
def untilStep (stops : List TokenKind) : Grammar Bool := do
  match ← current with
  | none => return false
  | some kind =>
    if stops.contains kind || kind.isCloser then
      return false
    else
      bumpWhole kind
      return true

/-- Places tokens up to one of `stops` or a closing bracket, bracket groups whole. -/
def bumpUntil (stops : List TokenKind) : Grammar Unit :=
  loop (untilStep stops)

/-- One step of reading attributes. -/
def attributeStep : Grammar Bool := do
  if ← looksAt .atIdent then
    node .attribute do
      bump
      if ← looksAt .leftParen then bumpGroup
    return true
  else
    return false

/-- Attributes such as `@inline` or `@export("f")`. -/
def attributes : Grammar Unit :=
  loop attributeStep

/-- A name of any sort. -/
def name : Grammar Unit := do
  if ← looksAtAny TokenKind.isName then node .name bump else report .noName

/-- One step of reading the `path::` in front of a name. -/
def qualifierStep : Grammar Bool := do
  if (← looksAt .ident) && (← looksAtNth 1 .colonColon) then
    bump
    bump
    return true
  else
    return false

/-- The `path::` in front of a name. -/
def qualifier : Grammar Unit :=
  loop qualifierStep

/-- Whether the parameter that begins here has no type. -/
def atUntypedParameter : Grammar Bool := do
  match ← kindAt 1 with
  | some .comma | some .rightParen | some .semicolon | some .equal | some .atIdent => return true
  | some .ellipsis => return !(← looksAtNthAny 2 TokenKind.isVariableName)
  | _ => return false

/-- One parameter. -/
def parameterWith (type : Bool → Grammar Unit) : Grammar Unit :=
  node .param do
    if ← looksAt .ampersand then
      bump
      name
    else if ← looksAt .ellipsis then
      bump
      if ← looksAtAny TokenKind.isVariableName then name
    else if (← looksAt .atIdent) && (← looksAtNth 1 .leftParen) then
      name
      bumpGroup
    else if (← looksAtAny TokenKind.isName) && (← atUntypedParameter) then
      name
      skip .ellipsis
    else
      type true
      skip .ellipsis
      if ← looksAtAny TokenKind.isName then name
    attributes
    if ← looksAt .equal then
      node .defaultValue do
        bump
        bumpUntil [.comma, .semicolon]

/-- One step of reading a parameter list: a separator, a parameter, or a stray token. -/
def parameterStep (type : Bool → Grammar Unit) : Grammar Bool := do
  match ← current with
  | some .rightParen | none => return false
  | some .comma | some .semicolon =>
    bump
    return true
  | _ =>
    let before ← cursor
    parameterWith type
    if (← cursor) == before then
      if ← looksAtAny TokenKind.isCloser then return false
      stray .strayInParameterList
    return true

/-- Parameters in parentheses. -/
def parameterListWith (type : Bool → Grammar Unit) : Grammar Unit :=
  node .paramList do
    bump
    loop (parameterStep type)
    expect .rightParen .noParenthesis

/-- A function type: `fn`, the type returned, the parameters. -/
def functionTypeWith (type : Bool → Grammar Unit) : Grammar Unit :=
  node .fnType do
    bump
    type true
    if ← looksAt .leftParen then parameterListWith type

/-- A separator or a generic argument, which is a type or another expression. -/
def argumentWith (type : Bool → Grammar Unit) (close : TokenKind) : Grammar Unit := do
  if ← looksAt .comma then
    bump
  else
    let behind? := Lookahead.afterType? (← ahead)
    let isType := (behind?.map (Lookahead.headIs fun kind => kind == .comma || kind == close)).getD false
    if isType then type true else bumpUntil [.comma, close]

/-- One step of reading generic arguments. -/
def argumentStep (type : Bool → Grammar Unit) (close : TokenKind) : Grammar Bool := do
  if (← atEnd) || (← looksAt close) then
    return false
  else
    let before ← cursor
    argumentWith type close
    return (← cursor) != before

/-- Generic arguments up to the bracket `close`. -/
def genericArgumentsWith (type : Bool → Grammar Unit) (close : TokenKind) : Grammar Unit :=
  node .genericArgs do
    bump
    loop (argumentStep type close)
    expect close .noEndOfGenericArguments

/-- One step of reading the marks behind a type. -/
def suffixStep : Grammar Bool := do
  match ← current with
  | some .star | some .question | some .bang =>
    bump
    return true
  | some .leftBracket =>
    node .arraySuffix bumpGroup
    return true
  | _ => return false

/-- The pointer, optional and array marks behind a type. -/
def suffixes : Grammar Unit :=
  loop suffixStep

/-- What stands behind the path of a type: a name, a compile-time expression or a function type. -/
def typeNameWith (type : Bool → Grammar Unit) : Grammar Unit := do
  match ← current with
  | some .ident | some .faultKw => bump
  | some .ctIdent =>
    bump
    if ← looksAt .leftParen then bumpGroup
  | some .fnKw => functionTypeWith type
  | _ => report .noType

/-- The generic arguments of a type, if it has any; `inBraces` tells whether it may have them in
braces. -/
def typeArgumentsWith (type : Bool → Grammar Unit) (inBraces : Bool) : Grammar Unit := do
  match ← current with
  | some .leftGeneric => genericArgumentsWith type .rightGeneric
  | some .leftBrace => if inBraces then genericArgumentsWith type .rightBrace
  | _ => pure ()

/-- A type whose nested types are read by `type`. With `braces` a user-defined type may have
its arguments in braces; elsewhere the brace opens a body. -/
def typeWith (type : Bool → Grammar Unit) (braces : Bool) : Grammar Unit :=
  node .type do
    qualifier
    let isUserType := ((← ahead).head?.map Lookahead.isUserType).getD false
    typeNameWith type
    typeArgumentsWith type (braces && isUserType)
    suffixes

/-- A type with its path, generic arguments and suffixes. -/
def type (braces : Bool) : Grammar Unit :=
  nest typeWith braces

/-- Parameters in parentheses. -/
def parameterList : Grammar Unit :=
  parameterListWith type

/-- A function type. -/
def functionType : Grammar Unit :=
  functionTypeWith type

end C3Lens.Grammar
