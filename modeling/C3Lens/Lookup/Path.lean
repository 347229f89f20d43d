import C3Lens.Lookup.Viewpoint

/-!
# Paths of names

The names of a word are resolved one after another: the first by itself, each further one as a
member or method of the declaration that the one before stands for. Declarations that stand for
others are followed for a limited number of steps, since they may form a circle.
-/

namespace C3Lens

/-- A declaration that was reached, and what may be named behind it. -/
structure Reached where
  symbol : Symbol
  access : Access
deriving Inhabited

namespace Viewpoint

/-! ## Following declarations -/

/-- Whether a symbol has members or methods of its own; all others stand for declarations. -/
def hasOwnMembers : Symbol → Bool
  | .variable _ | .function _ | .interfaceMethod _ _ | .member _ | .alias _ | .distinct _ => false
  | _ => true

/-- Whether following stops at a symbol; with `atDistinct` also at distinct types. -/
def stopsAt (atDistinct : Bool) (s : Symbol) : Bool :=
  hasOwnMembers s || (atDistinct && s.kind == .distinct)

/-- Follows a symbol for less than `steps` steps. -/
def followFor (v : Viewpoint) (atDistinct : Bool) : Nat → Reached → Option Reached
  | 0, _ => none
  | steps + 1, r =>
    if stopsAt atDistinct r.symbol then some r
    else
      match v.target? r.symbol with
      | none => none
      | some target => v.followFor atDistinct steps ⟨target, r.access.afterStep r.symbol target⟩

/-- Number of symbols that are looked at before following is given up. -/
def mostSteps : Nat := 100

/-- Follows a symbol to the declaration that it stands for. -/
def follow (v : Viewpoint) (atDistinct : Bool) (r : Reached) : Option Reached :=
  v.followFor atDistinct mostSteps r

/-! ## Members and methods -/

/-- The member of the name that a declaration has itself. -/
def ownMember? (name : String) : Symbol → Option Symbol
  | .enum e => (e.enumerator? name).map (.enumerator · e) <|> (e.value? name).map .variable
  | .enumerator _ e => (e.value? name).map .variable
  | .fault f => (f.constant? name).map .faultConstant
  | .aggregate s => (s.member? name).map .member
  | .bitstruct b => (b.member? name).map .member
  | .interface i => (i.methods.get? name).map (.interfaceMethod · i)
  | _ => none

/-- The associated value of the name, of an enum or one of its enumerators. -/
def associatedValue? (name : String) : Symbol → Option Symbol
  | .enum e | .enumerator _ e => (e.value? name).map .variable
  | _ => none

/-- The type whose methods a declaration has, and its module. -/
def methodHost? : Symbol → Option (String × ModulePath)
  | .aggregate s => some (s.name, s.modulePath)
  | .bitstruct b => some (b.name, b.modulePath)
  | .enum e | .enumerator _ e => some (e.name, e.modulePath)
  | .fault f => some (f.name, f.modulePath)
  | .faultConstant c => c.fault?.map fun name => (name, c.modulePath)
  | .interface i => some (i.name, i.modulePath)
  | .distinct d => some (d.name, d.modulePath)
  | _ => none

/-- The member or method of the name, as far as the access goes. -/
def memberOrMethod? (v : Viewpoint) (r : Reached) (name : String) : Option Symbol :=
  (if r.access.readsMembers then ownMember? name r.symbol else none) <|>
  (if r.access.members then none else associatedValue? name r.symbol) <|>
  if r.access.methods then
    (methodHost? r.symbol).bind fun (host, path) => v.method? host path name
  else none

/-- The method that values of a distinct type have besides what its base has. -/
def distinctMethod? (v : Viewpoint) (r : Reached) (name : String) : Option Symbol :=
  match r.symbol with
  | .distinct d =>
    if r.access.isValue && r.access.methods then
      v.method? d.name d.modulePath name
    else none
  | _ => none

/-- The declaration of the name behind a dot. -/
def step? (v : Viewpoint) (r : Reached) (name : String) : Option Reached := do
  let parent ← v.follow true r
  match v.distinctMethod? parent name with
  | some method => return ⟨method, .ofMember method⟩
  | none =>
    let parent ← v.follow false parent
    let found ← v.memberOrMethod? parent name
    return ⟨found, .ofMember found⟩

/-- Resolves the names behind dots, one after another. -/
def steps? (v : Viewpoint) : Reached → List String → Option Reached
  | r, [] => some r
  | r, name :: names =>
    match v.step? r name with
    | some next => v.steps? next names
    | none => none

/-! ## Words -/

/-- The declaration of the first name of a word. `isLast` tells whether it is the only one, in
which case it may be the last name of a module path. -/
def first? (v : Viewpoint) (w : Word) (name : String) (isLast : Bool) : Option Symbol :=
  if w.modules.isEmpty then v.find? name
  else
    v.findQualified? w.modulePath w.writtenModule name <|>
    if isLast then (v.moduleBelow? w.modulePath w.writtenModule name).map .module else none

/-- The declaration that a word names. -/
def resolve? (v : Viewpoint) (w : Word) : Option Symbol :=
  if !w.isName || isReserved w.text then none
  else
    match w.path.map (·.text) with
    | [] => none
    | name :: names => do
      let first ← v.first? w name names.isEmpty
      return (← v.steps? ⟨first, .start⟩ names).symbol

/-- The declaration in front of the last dot of a word, when `parent` is what stands there. -/
def parent? (v : Viewpoint) (parent : Word) : Option Reached :=
  (v.resolve? parent).map fun s => ⟨s, if parent.access.isEmpty then .start else .ofMember s⟩

end Viewpoint

end C3Lens
