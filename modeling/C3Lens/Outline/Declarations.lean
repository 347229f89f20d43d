import C3Lens.Outline.Types

/-!
# Symbols of declarations

One builder for each kind of declaration. A declaration without a name is built all the
same, with an empty name and an empty range at its start.
-/

namespace C3Lens.Outline

/-- The range of a place. -/
def rangeOf (p : Place) : Outline Range := do
  return (← read).range p

/-- The name that a node declares, with its range. -/
def nameOf (p : Place) : Outline (String × Range) := do
  let scope ← read
  match p.nameLeaf? with
  | some leaf => return (leaf.text, scope.range leaf)
  | none => return ("", scope.rangeOf p.start p.start)

/-- A declaration with the name and range of a node. -/
def declarationOf (p : Place) (comment? : Option DocComment) : Outline Declaration := do
  let scope ← read
  let (name, nameRange) ← nameOf p
  return scope.declaration name nameRange (scope.range p) comment?

/-! ## Variables and parameters -/

/-- All variables that a declaration of variables declares. -/
def variablesOf (p : Place) (comment? : Option DocComment) : Outline (List Variable) := do
  let scope ← read
  let type ← typeBelow p
  return p.nameLeaves.map fun leaf =>
    { scope.declaration leaf.text (scope.range leaf) (scope.range p) comment? with
      type := type
      parameter? := none
      isConstant := p.hasLeaf .constKw }

/-- Replaces every `a b` by `c`. -/
def replacePairs (a b c : Char) : List Char → List Char
  | x :: y :: s => if x = a ∧ y = b then c :: replacePairs a b c s else x :: replacePairs a b c (y :: s)
  | s => s

/-- The parameters of the block that a macro takes, as they are shown. -/
def blockParameters (p : Place) : String :=
  let tokens := (p.leaves.filterMap fun l => l.tree.token?).filter fun t => !t.kind.isTrivia
  let cs := (" ".intercalate (tokens.map Token.text)).toList
  let cs := replacePairs ' ' ',' ',' (replacePairs ' ' ')' ')' (replacePairs '(' ' ' '(' cs))
  if cs.isEmpty then "()" else String.ofList cs

/-- The type of a parameter that is written without one: a receiver has the type of its
method, and a trailing block a function type. -/
def impliedType (p : Place) (name : String) (receiver? : Option String) : Outline TypeRef := do
  if name == "self" then
    match receiver? with
    | some receiver =>
      let type ← namedType receiver ""
      return if p.hasLeaf .ampersand then { type with pointers := 1 } else type
    | none => return .none
  else if name.startsWith "@" then return .builtin ("fn void" ++ blockParameters p)
  else return .none

/-- The default value of a parameter. -/
def defaultOf? (p : Place) : Option String :=
  (p.child? .defaultValue).map fun value =>
    Text.trim (Text.trimLeft (· == '=') value.tree.compactText)

/-- The parameter number `index` of a function; one without a name is named by its number. -/
def parameterOf (p : Place) (index : Nat) (receiver? : Option String) : Outline Variable := do
  let scope ← read
  let (name, nameRange) := match p.nameLeaf? with
    | some leaf => (leaf.text, scope.range leaf)
    | none => ("$arg" ++ toString index, scope.range p)
  let isVariadic := p.hasLeaf .ellipsis
  let type ←
    match ← typeBelow? p with
    | some type => pure (if isVariadic then { type with isCollection := true, size? := none } else type)
    | none =>
      let implied ← impliedType p name receiver?
      pure (if isVariadic then { TypeRef.builtin "any" with pointers := 1, isCollection := true }
        else implied)
  return { scope.declaration name nameRange (scope.range p) none with
    type := type
    parameter? := some ⟨isVariadic, defaultOf? p⟩
    isConstant := false }

/-- The parameters in order, numbered from `index` on. -/
def parametersOf (receiver? : Option String) (index : Nat) : List Place → Outline (List Variable)
  | [] => return []
  | p :: ps => do
    let v ← parameterOf p index receiver?
    return v :: (← parametersOf receiver? (index + 1) ps)

/-- The local variables declared at places, in order. -/
def localsOf : List Place → Outline (List Variable)
  | [] => return []
  | p :: ps => do
    let vs ← variablesOf p none
    return vs ++ (← localsOf ps)

/-- A function, method or macro. -/
def functionOf (p : Place) (comment? : Option DocComment) : Outline Function := do
  let returns ← typeBelow p
  let receiver? := (p.child? .methodType).bind fun m => m.tree.lastToken?.map Token.text
  let declaration ← declarationOf p comment?
  let name := match receiver? with
    | some receiver => receiver ++ "." ++ declaration.name
    | none => declaration.name
  let kind : FunctionKind :=
    if p.isNode .macroDef then .macroDef else if receiver?.isSome then .method else .free
  let parameters ← match p.child? .paramList with
    | some list => parametersOf receiver? 0 (list.childrenOf .param)
    | none => pure []
  let locals ← match p.child? .block with
    | some body => localsOf (body.descendants.filter (·.isNode .localVarDecl))
    | none => pure []
  return { declaration with
    name := name
    kind := kind
    returns := returns
    parameters := .ofList (parameters.map fun v => (v.name, v))
    receiver? := receiver?
    locals := locals }

/-! ## Structs and bitstructs -/

/-- The interfaces that a declaration implements, as written. -/
def interfacesOf (p : Place) : List String :=
  match p.child? .interfaceImpl with
  | some list => (list.childrenOf .type).map (·.tree.compactText)
  | none => []

/-- The bits that a member takes: the integers of its bit range, the second like the first
if there is only one. -/
def bitsOf? (p : Place) : Option (Nat × Nat) := do
  let bits ← p.child? .bitRange
  let bounds := ((bits.leaves.filterMap fun l => l.tree.token?).filter (·.kind == .intNumber)).filterMap
    (integerValue? ·.text)
  let low ← bounds.head?
  return (low, bounds[1]?.getD low)

/-- A member without body and bits. -/
def plainMember (declaration : Declaration) (type : TypeRef) : Member :=
  { declaration with
    type := type, bits? := none, awaitsExpansion := false, isExpanded := false, body? := none,
    owner := "" }

/-- The inline member that a node declares; in the body of the struct `host?` its expansion
is recorded as pending. -/
def inlineMemberOf (p : Place) (host? : Option String) : Outline (List Member) := do
  let scope ← read
  match p.child? .type with
  | none => return []
  | some typePlace =>
    let type ← typeOf typePlace.tree
    let (name, nameRange) := match p.nameLeaf? with
      | some leaf => (leaf.text, scope.range leaf)
      | none => ("", scope.range typePlace)
    if let some host := host? then
      modify (·.addInline ⟨scope.doc, scope.moduleName, host, type.name⟩)
    let member := plainMember (scope.declaration name nameRange (scope.range p) none) type
    return [{ member with awaitsExpansion := true }]

/-- The reserved word of a struct that is declared in place. -/
def nestedKeyword? (p : Place) : Option Token :=
  ((p.leaf? .structKw) <|> (p.leaf? .unionKw) <|> (p.leaf? .bitstructKw)).bind (·.tree.token?)

/-- The member that a struct declared in place makes, given the members of its body. The
members of one without a name belong to the struct around it. -/
def nestedMemberOf (p : Place) (keyword : Token) (nested : List Member) : Outline (List Member) := do
  let scope ← read
  match p.nameLeaf? with
  | none => return nested
  | some leaf =>
    let declaration := scope.declaration leaf.text (scope.range leaf) (scope.range p) none
    let body : Struct := { declaration with
      members := nested.map ({ · with owner := leaf.text })
      isUnion := keyword.kind == .unionKw
      interfaces := [] }
    let type := (← typeBelow? p).getD (.builtin keyword.text)
    return [{ plainMember declaration type with body? := some body }]

/-- The members that an ordinary declaration of members declares. -/
def fieldsOf (p : Place) : Outline (List Member) := do
  let scope ← read
  match ← typeBelow? p with
  | none => return []
  | some type =>
    let bits? := bitsOf? p
    return p.nameLeaves.map fun leaf =>
      { plainMember (scope.declaration leaf.text (scope.range leaf) (scope.range p) none) type with
        bits? := bits? }

mutual

/-- The members declared by the parts of a body that begins at `start`. `host?` is the struct
whose inline members are recorded as pending. -/
def membersOf (host? : Option String) (start : Nat) : List Tree → Outline (List Member)
  | [] => return []
  | t :: ts => do
    let ms ← membersOfPart host? start t
    return ms ++ (← membersOf host? (start + t.width) ts)

/-- The members declared by one part of a body. -/
def membersOfPart (host? : Option String) (start : Nat) : Tree → Outline (List Member)
  | .node .memberDecl parts => do
    let p : Place := ⟨start, .node .memberDecl parts⟩
    if p.hasLeaf .inlineKw then inlineMemberOf p host?
    else
      match nestedKeyword? p with
      | some keyword => do
        let nested ← membersOfBody start parts
        nestedMemberOf p keyword nested
      | none => fieldsOf p
  | _ => return []

/-- The members of the first body among the parts of a declaration. -/
def membersOfBody (start : Nat) : List Tree → Outline (List Member)
  | [] => return []
  | .node .structBody parts :: _ => membersOf none start parts
  | t :: ts => membersOfBody (start + t.width) ts

end

/-- The members of the body below a place, named as those of the type `owner`. -/
def membersBelow (p : Place) (owner : String) (host? : Option String) : Outline (List Member) := do
  match p.child? .structBody with
  | some body =>
    return (← membersOf host? body.start body.tree.children).map ({ · with owner := owner })
  | none => return []

/-- A struct or union. -/
def structOf (p : Place) (comment? : Option DocComment) : Outline Struct := do
  let declaration ← declarationOf p comment?
  let members ← membersBelow p declaration.name (some declaration.name)
  return { declaration with
    members := members
    isUnion := p.hasLeaf .unionKw
    interfaces := interfacesOf p }

/-- A bitstruct. -/
def bitstructOf (p : Place) (comment? : Option DocComment) : Outline Bitstruct := do
  let declaration ← declarationOf p comment?
  let backing ← typeBelow p
  let members ← membersBelow p declaration.name none
  return { declaration with
    backing := backing, members := members, interfaces := interfacesOf p }

/-! ## Enums and faults -/

/-- The associated values declared at places. -/
def associatedValuesOf : List Place → Outline (List Variable)
  | [] => return []
  | p :: ps => do
    let type ← typeBelow p
    let declaration ← declarationOf p none
    let v : Variable := { declaration with type := type, parameter? := none, isConstant := false }
    return v :: (← associatedValuesOf ps)

/-- The value written for an enumerator. -/
def enumeratorValue (p : Place) : String :=
  match p.child? .enumValue with
  | some value =>
    let text := value.tree.compactText
    match Text.afterStart? "=" text with
    | some rest => Text.trim rest
    | none => text
  | none => ""

/-- An enum. -/
def enumOf (p : Place) (comment? : Option DocComment) : Outline Enum := do
  let scope ← read
  let declaration ← declarationOf p comment?
  let values ← match p.child? .enumParams with
    | some list => associatedValuesOf (list.childrenOf .param)
    | none => pure []
  let places := match p.child? .enumBody with
    | some body => body.childrenOf .enumerator
    | none => []
  let enumerators ← places.mapM fun (q : Place) => do
    let (name, nameRange) ← nameOf q
    return ({ scope.declaration name nameRange nameRange none with
      value := enumeratorValue q, enumName := declaration.name } : Enumerator)
  return { declaration with
    backing := ((p.child? .type).map (·.tree.compactText)).getD ""
    enumerators := enumerators
    values := values
    interfaces := interfacesOf p }

/-- The fault values named directly below a place. -/
def faultConstantsBelow (p : Place) (fault? : Option String) (comment? : Option DocComment) :
    Outline (List FaultConstant) := do
  let scope ← read
  return p.nameLeaves.map fun leaf =>
    { scope.declaration leaf.text (scope.range leaf) (scope.range leaf) comment? with
      fault? := fault? }

/-- A fault. -/
def faultOf (p : Place) (comment? : Option DocComment) : Outline Fault := do
  let declaration ← declarationOf p comment?
  let constants ← match p.child? .faultBody with
    | some body => faultConstantsBelow body (some declaration.name) none
    | none => pure []
  return { declaration with backing := "", constants := constants }

/-! ## Interfaces, aliases and distinct types -/

/-- The methods of an interface, from the places of its body. -/
def methodsOf : List (List Tree × Place) → Outline (List Function)
  | [] => return []
  | (previous, p) :: rest => do
    if p.isNode .fnDef then
      let f ← functionOf p (commentBefore? previous)
      return f :: (← methodsOf rest)
    else
      methodsOf rest

/-- An interface. -/
def interfaceOf (p : Place) (comment? : Option DocComment) : Outline Interface := do
  let declaration ← declarationOf p comment?
  let methods ← match p.child? .interfaceBody with
    | some body => methodsOf (placesWithPrevious body.start [] body.tree.children)
    | none => pure []
  return { declaration with methods := .ofList (methods.map fun f => (f.name, f)) }

/-- A distinct type. -/
def distinctOf (p : Place) (comment? : Option DocComment) : Outline Distinct := do
  let declaration ← declarationOf p comment?
  let base ← typeBelow p
  return { declaration with base := base, isInline := p.hasLeaf .inlineKw }

/-- Whether a type node is nothing but the name of a user-defined type. -/
def isPlainUserType (scope : Scope) (type : Tree) : Bool :=
  match type.children.filter fun t => !((t.tokenKind?.map TokenKind.isTrivia).getD false) with
  | [.leaf t] =>
    t.kind == .ident && isTypeName t.text && !isBuiltinType t.text &&
      !scope.genericParameters.contains t.text
  | _ => false

/-- Whether an alias in the old style declares a distinct type: its target is inline, or just
a user-defined type. -/
def isDistinctAlias (scope : Scope) (p : Place) : Bool :=
  match p.child? .type with
  | some type => p.hasLeaf .defKw && (p.hasLeaf .inlineKw || isPlainUserType scope type.tree)
  | none => false

/-- An alias. -/
def aliasOf (p : Place) (comment? : Option DocComment) : Outline Alias := do
  let declaration ← declarationOf p comment?
  let target : AliasTarget ←
    match ← typeBelow? p with
    | some type => pure (.type type)
    | none =>
      match p.child? .fnType with
      | some signature => pure (.type (.builtin signature.tree.compactText))
      | none => pure (.symbol (((p.child? .aliasTarget).map (·.tree.compactText)).getD ""))
  return { declaration with target := target }

end C3Lens.Outline
