import C3Lens.Answer.Declaration
import C3Lens.Cursor.Word

/-!
# Signatures

Inside the brackets of a call the signature of the function is shown, with the parameter that
the cursor's argument is for.
-/

namespace C3Lens

/-- A parameter as it is shown. -/
structure ParameterHelp where
  label : String
  documentation? : Option String
deriving DecidableEq, Inhabited

/-- A signature as it is shown. -/
structure SignatureHelp where
  label : String
  /-- In Markdown. -/
  documentation? : Option String
  parameters : List ParameterHelp
  /-- The number of the parameter that the cursor's argument is for, counted from zero. -/
  active : Nat
deriving DecidableEq, Inhabited

namespace SignatureHelp

/-- What a contract says about a parameter. -/
def contractText? (name : String) (c : Contract) : Option String := do
  if c.name != "@param" then none
  let rest ← Text.afterStart? name c.body
  if !(rest.toList.head?.all Text.isSpace) then none
  return Text.trimBoth (· == '\x22') (Text.trim rest)

/-- What a doc comment says about a parameter. -/
def parameterText? (comment? : Option DocComment) (name : String) : Option String :=
  comment?.bind fun d => d.contracts.findSome? (contractText? name)

/-- Number of parameters that a call fills in by itself: that of a method behind a dot. -/
def implicitCount (f : Function) (c : CallSite) : Nat :=
  if c.isAccess && f.kind != .free && f.parameters.names.head? == some "self" then 1 else 0

/-- Whether the last parameter takes any number of arguments. -/
def isVariadic (f : Function) : Bool :=
  (f.parameters.values.getLast?.bind (·.parameter?)).any (·.isVariadic)

/-- The parameter that an argument of a call is for. -/
def activeParameter (f : Function) (c : CallSite) : Nat :=
  let active := c.argument + implicitCount f c
  if isVariadic f then min active (f.parameters.size - 1) else active

/-- The signature of a function in a call. -/
def ofCall (f : Function) (c : CallSite) : SignatureHelp :=
  { label := f.signature
    documentation? := (Symbol.function f).documentation?
    parameters := f.parameters.values.map fun v => ⟨v.signature, parameterText? f.comment? v.name⟩
    active := activeParameter f c }

end SignatureHelp

/-- The signature of the function whose arguments stand at a position of a document. -/
def Workspace.signature? (w : Workspace) (doc : DocId) (p : Position) : Option SignatureHelp := do
  let call ← CallSite.ofPosition? (← w.document? doc) p
  match ← w.declaration? doc call.callee with
  | .function f | .interfaceMethod f _ => return .ofCall f call
  | _ => none

end C3Lens
