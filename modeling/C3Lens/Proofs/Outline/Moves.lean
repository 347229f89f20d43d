import C3Lens.Proofs.Outline.Declarations
import C3Lens.Proofs.Symbol.Moved

/-!
# Builders under another id

A builder reads the id of a document only to write it down. Run for another document it builds the same
symbol with the other id, and records the same work for the other document (`Outline.Moves`); the rules
follow the way builders are put together.
-/

namespace C3Lens

namespace Outline

/-! ## Builders -/

/-- Where the first builder builds something for a document, the second one builds the same for the
document `doc`, changed by `f`, and records the same work. -/
def Moves {α : Type} (scope : Scope) (doc : DocId) (f : α → α) (b b' : Outline α) : Prop :=
  ∀ p : Pending, p.BelongsTo scope.doc →
    (b.result scope p).2.BelongsTo scope.doc ∧
      b'.result { scope with doc := doc } (p.setDoc doc) =
        (f (b.result scope p).1, (b.result scope p).2.setDoc doc)

section Moves

variable {α β : Type} {scope : Scope} {doc : DocId} {f : α → α} {g : β → β} {b b' : Outline α}

theorem Moves.bind {k k' : α → Outline β} (hb : Moves scope doc f b b')
    (hk : ∀ a, Moves scope doc g (k a) (k' (f a))) : Moves scope doc g (b >>= k) (b' >>= k') := by
  intro p own
  obtain ⟨ownFirst, first⟩ := hb p own
  obtain ⟨ownSecond, second⟩ := hk (b.result scope p).1 _ ownFirst
  refine ⟨ownSecond, Eq.trans ?_ second⟩
  show (k' (b'.result _ _).1).result _ (b'.result _ _).2 = _
  rw [first]

theorem Moves.pure {a a' : α} (h : a' = f a) : Moves scope doc f (pure a) (pure a') := by
  subst h
  exact fun p own => ⟨own, rfl⟩

theorem Moves.read {k k' : Scope → Outline β}
    (hk : Moves scope doc g (k scope) (k' { scope with doc := doc })) :
    Moves scope doc g (read >>= k) (read >>= k') :=
  fun p own => hk p own

end Moves

variable (scope : Scope) (doc : DocId)

theorem moves_addType (context name written : String) :
    Moves scope doc id (modify (·.addType ⟨scope.doc, context, name, written⟩))
      (modify (·.addType ⟨doc, context, name, written⟩)) := by
  intro p own
  have grows : Pending.Grows scope.doc context p (p.addType ⟨scope.doc, context, name, written⟩) :=
    .addType name written .refl
  have moved := Pending.setDoc_addType (t := ⟨scope.doc, context, name, written⟩) own doc
  exact ⟨grows.belongsTo own, congrArg (Prod.mk ()) moved.symm⟩

theorem moves_addInline (context structName inlined : String) :
    Moves scope doc id (modify (·.addInline ⟨scope.doc, context, structName, inlined⟩))
      (modify (·.addInline ⟨doc, context, structName, inlined⟩)) := by
  intro p own
  have grows : Pending.Grows scope.doc context p (p.addInline ⟨scope.doc, context, structName, inlined⟩) :=
    .addInline structName inlined .refl
  have moved := Pending.setDoc_addInline (i := ⟨scope.doc, context, structName, inlined⟩) own doc
  exact ⟨grows.belongsTo own, congrArg (Prod.mk ()) moved.symm⟩

/-! ## Types -/

theorem moves_namedType (name qualifier : String) :
    Moves scope doc id (namedType name qualifier) (namedType name qualifier) := by
  refine Moves.read ?_
  dsimp only
  split
  · exact Moves.pure rfl
  split
  · exact Moves.pure rfl
  split
  · exact Moves.pure rfl
  · exact Moves.bind (moves_addType scope doc _ _ _) fun _ => Moves.pure rfl

theorem moves_build (parts : TypeParts) : Moves scope doc id parts.build parts.build := by
  have finish : ∀ {b : Outline TypeRef}, Moves scope doc id b b →
      Moves scope doc id (b >>= fun type => pure { type with
        arguments := parts.arguments
        pointers := parts.pointers
        isOptional := parts.isOptional
        isCollection := parts.collection?.isSome
        size? := parts.collection?.join }) (b >>= fun type => pure { type with
        arguments := parts.arguments
        pointers := parts.pointers
        isOptional := parts.isOptional
        isCollection := parts.collection?.isSome
        size? := parts.collection?.join }) := fun hb => Moves.bind hb fun _ => Moves.pure rfl
  rw [TypeParts.build]
  split
  · exact finish (Moves.pure rfl)
  split
  · exact finish (Moves.pure rfl)
  · exact finish (moves_namedType scope doc _ _)

mutual

theorem moves_typePartsOf (done : TypeParts) (ts : List Tree) :
    Moves scope doc id (typePartsOf done ts) (typePartsOf done ts) := by
  unfold typePartsOf
  split
  · exact Moves.pure rfl
  · exact moves_typePartsOf _ _
  · exact moves_typePartsOf _ _
  · exact Moves.bind (moves_argumentTypesOf _) fun _ => moves_typePartsOf _ _
  · exact moves_typePartsOf _ _
  · exact moves_typePartsOf _ _

theorem moves_argumentTypesOf (ts : List Tree) :
    Moves scope doc id (argumentTypesOf ts) (argumentTypesOf ts) := by
  unfold argumentTypesOf
  split
  · exact Moves.pure rfl
  · refine Moves.bind (moves_typePartsOf {} _) fun parts => ?_
    refine Moves.bind (moves_build scope doc parts) fun type => ?_
    exact Moves.bind (moves_argumentTypesOf _) fun types => Moves.pure rfl
  · exact moves_argumentTypesOf _

end

theorem moves_typeOf (t : Tree) : Moves scope doc id (typeOf t) (typeOf t) := by
  unfold typeOf
  split
  · exact Moves.pure rfl
  · exact Moves.bind (moves_typePartsOf scope doc {} _) fun parts => moves_build scope doc parts

theorem moves_typeBelow? (p : Place) : Moves scope doc id (typeBelow? p) (typeBelow? p) := by
  unfold typeBelow?
  split
  · exact Moves.bind (moves_typeOf scope doc _) fun _ => Moves.pure rfl
  · exact Moves.pure rfl

theorem moves_typeBelow (p : Place) : Moves scope doc id (typeBelow p) (typeBelow p) :=
  Moves.bind (moves_typeBelow? scope doc p) fun _ => Moves.pure rfl

/-! ## Variables and functions -/

theorem moves_nameOf (p : Place) : Moves scope doc id (nameOf p) (nameOf p) := by
  refine Moves.read ?_
  split
  · exact Moves.pure rfl
  · exact Moves.pure rfl

theorem moves_declarationOf (p : Place) (comment? : Option DocComment) :
    Moves scope doc ({ · with doc := doc }) (declarationOf p comment?) (declarationOf p comment?) :=
  Moves.read (Moves.bind (moves_nameOf scope doc p) fun _ => Moves.pure rfl)

theorem moves_variablesOf (p : Place) (comment? : Option DocComment) :
    Moves scope doc (List.map (Variable.setDoc doc)) (variablesOf p comment?) (variablesOf p comment?) := by
  refine Moves.read (Moves.bind (moves_typeBelow scope doc p) fun type => Moves.pure ?_)
  rw [List.map_map]
  rfl

theorem moves_impliedType (p : Place) (name : String) (receiver? : Option String) :
    Moves scope doc id (impliedType p name receiver?) (impliedType p name receiver?) := by
  unfold impliedType
  split
  · split
    · exact Moves.bind (moves_namedType scope doc _ _) fun _ => Moves.pure rfl
    · exact Moves.pure rfl
  split
  · exact Moves.pure rfl
  · exact Moves.pure rfl

theorem moves_parameterOf (p : Place) (index : Nat) (receiver? : Option String) :
    Moves scope doc (Variable.setDoc doc) (parameterOf p index receiver?) (parameterOf p index receiver?) := by
  refine Moves.read (Moves.bind (moves_typeBelow? scope doc p) fun type? => ?_)
  cases type? with
  | some type => exact Moves.pure rfl
  | none =>
    exact Moves.bind (moves_impliedType scope doc p _ receiver?) fun _ => Moves.pure rfl

theorem moves_parametersOf (receiver? : Option String) (index : Nat) (ps : List Place) :
    Moves scope doc (List.map (Variable.setDoc doc)) (parametersOf receiver? index ps)
      (parametersOf receiver? index ps) := by
  induction ps generalizing index with
  | nil => exact Moves.pure rfl
  | cons p ps ih =>
    refine Moves.bind (moves_parameterOf scope doc p index receiver?) fun v => ?_
    exact Moves.bind (ih (index + 1)) fun vs => Moves.pure rfl

theorem moves_localsOf (ps : List Place) :
    Moves scope doc (List.map (Variable.setDoc doc)) (localsOf ps) (localsOf ps) := by
  induction ps with
  | nil => exact Moves.pure rfl
  | cons p ps ih =>
    refine Moves.bind (moves_variablesOf scope doc p none) fun vs => ?_
    exact Moves.bind ih fun ws => Moves.pure List.map_append.symm

theorem moves_functionOf (p : Place) (comment? : Option DocComment) :
    Moves scope doc (Function.setDoc doc) (functionOf p comment?) (functionOf p comment?) := by
  unfold functionOf
  refine Moves.bind (moves_typeBelow scope doc p) fun returns => ?_
  refine Moves.bind (moves_declarationOf scope doc p comment?) fun declaration => ?_
  have keyed : ∀ vs : List Variable, (Table.ofList (vs.map fun v => (v.name, v))).map (Variable.setDoc doc) =
      .ofList ((vs.map (Variable.setDoc doc)).map fun v => (v.name, v)) := Table.map_ofList fun _ => rfl
  have parameters : ∀ list : Place, Moves scope doc (List.map (Variable.setDoc doc))
      (parametersOf _ 0 (list.childrenOf .param)) (parametersOf _ 0 (list.childrenOf .param)) :=
    fun list => moves_parametersOf scope doc
      ((p.child? .methodType).bind fun m => m.tree.lastToken?.map Token.text) 0 _
  have locals : ∀ body : Place, Moves scope doc (List.map (Variable.setDoc doc))
      (localsOf (body.descendants.filter (·.isNode .localVarDecl)))
      (localsOf (body.descendants.filter (·.isNode .localVarDecl))) := fun body => moves_localsOf scope doc _
  have none : Moves scope doc (List.map (Variable.setDoc doc)) (pure []) (pure []) := Moves.pure rfl
  dsimp only
  cases p.child? .paramList <;> cases p.child? .block
  · refine Moves.bind none fun vs => Moves.bind none fun ws => Moves.pure ?_
    rw [Function.setDoc, ← keyed]
    rfl
  · refine Moves.bind none fun vs => Moves.bind (locals _) fun ws => Moves.pure ?_
    rw [Function.setDoc, ← keyed]
    rfl
  · refine Moves.bind (parameters _) fun vs => Moves.bind none fun ws => Moves.pure ?_
    rw [Function.setDoc, ← keyed]
    rfl
  · refine Moves.bind (parameters _) fun vs => Moves.bind (locals _) fun ws => Moves.pure ?_
    rw [Function.setDoc, ← keyed]
    rfl

/-! ## Structs and bitstructs -/

theorem setDoc_plainMember (d : Declaration) (type : TypeRef) (bits? : Option (Nat × Nat)) (awaits : Bool) :
    Member.setDoc doc { plainMember d type with bits? := bits?, awaitsExpansion := awaits } =
      { plainMember { d with doc := doc } type with bits? := bits?, awaitsExpansion := awaits } := by
  simp only [plainMember, Member.setDoc, Member.setDocOfBody]

theorem moves_inlineMemberOf (p : Place) (host? : Option String) :
    Moves scope doc (List.map (Member.setDoc doc)) (inlineMemberOf p host?) (inlineMemberOf p host?) := by
  refine Moves.read ?_
  split
  next => exact Moves.pure rfl
  next typePlace _ =>
    refine Moves.bind (moves_typeOf scope doc _) fun type => ?_
    have finish : ∀ d : Declaration, Moves scope doc (List.map (Member.setDoc doc))
        (pure [{ plainMember d type with awaitsExpansion := true }])
        (pure [{ plainMember { d with doc := doc } type with awaitsExpansion := true }]) :=
      fun d => Moves.pure (congrArg (· :: []) (setDoc_plainMember doc d type none true).symm)
    cases p.nameLeaf? <;> cases host?
    · exact finish _
    · exact Moves.bind (moves_addInline scope doc _ _ _) fun _ => finish _
    · exact finish _
    · exact Moves.bind (moves_addInline scope doc _ _ _) fun _ => finish _

theorem moves_nestedMemberOf (p : Place) (keyword : Token) (nested : List Member) :
    Moves scope doc (List.map (Member.setDoc doc)) (nestedMemberOf p keyword nested)
      (nestedMemberOf p keyword (nested.map (Member.setDoc doc))) := by
  refine Moves.read ?_
  split
  next => exact Moves.pure rfl
  next leaf _ =>
    refine Moves.bind (moves_typeBelow? scope doc p) fun type? => Moves.pure ?_
    rw [List.map_singleton, plainMember, Member.setDoc, Member.setDocOfBody, Member.setDocOfList_eq,
      Member.map_setDoc_owner]
    rfl

theorem moves_fieldsOf (p : Place) :
    Moves scope doc (List.map (Member.setDoc doc)) (fieldsOf p) (fieldsOf p) := by
  refine Moves.read (Moves.bind (moves_typeBelow? scope doc p) fun type? => ?_)
  cases type? with
  | none => exact Moves.pure rfl
  | some type =>
    refine Moves.pure ?_
    rw [List.map_map]
    refine List.map_congr_left fun leaf _ => ?_
    let d := scope.declaration leaf.text (scope.range leaf) (scope.range p) none
    exact (setDoc_plainMember doc d type (bitsOf? p) false).symm

mutual

theorem moves_membersOf (host? : Option String) (start : Nat) (ts : List Tree) :
    Moves scope doc (List.map (Member.setDoc doc)) (membersOf host? start ts) (membersOf host? start ts) := by
  match ts with
  | [] => exact Moves.pure rfl
  | t :: ts =>
    rw [membersOf]
    refine Moves.bind (moves_membersOfPart host? start t) fun ms => ?_
    exact Moves.bind (moves_membersOf host? _ ts) fun ns => Moves.pure List.map_append.symm

theorem moves_membersOfPart (host? : Option String) (start : Nat) (t : Tree) :
    Moves scope doc (List.map (Member.setDoc doc)) (membersOfPart host? start t)
      (membersOfPart host? start t) := by
  match t with
  | .leaf _ => exact Moves.pure rfl
  | .node kind parts =>
    by_cases declares : kind = .memberDecl
    · subst declares
      rw [membersOfPart]
      split
      · exact moves_inlineMemberOf scope doc _ host?
      split
      · refine Moves.bind (moves_membersOfBody start parts) fun nested => ?_
        exact moves_nestedMemberOf scope doc _ _ nested
      · exact moves_fieldsOf scope doc _
    · rw [membersOfPart]
      · exact Moves.pure rfl
      · exact fun parts same => declares (Tree.node.inj same).1

theorem moves_membersOfBody (start : Nat) (ts : List Tree) :
    Moves scope doc (List.map (Member.setDoc doc)) (membersOfBody start ts) (membersOfBody start ts) := by
  match ts with
  | [] => exact Moves.pure rfl
  | .leaf t :: ts =>
    rw [membersOfBody]
    · exact moves_membersOfBody _ ts
    · simp
  | .node kind parts :: ts =>
    by_cases body : kind = .structBody
    · subst body
      rw [membersOfBody]
      exact moves_membersOf none start parts
    · rw [membersOfBody]
      · exact moves_membersOfBody _ ts
      · exact fun parts same => body (Tree.node.inj same).1

end

theorem moves_membersBelow (p : Place) (owner : String) (host? : Option String) :
    Moves scope doc (List.map (Member.setDoc doc)) (membersBelow p owner host?)
      (membersBelow p owner host?) := by
  unfold membersBelow
  split
  · refine Moves.bind (moves_membersOf scope doc host? _ _) fun ms => Moves.pure ?_
    rw [Member.map_setDoc_owner]
  · exact Moves.pure rfl

theorem moves_structOf (p : Place) (comment? : Option DocComment) :
    Moves scope doc (Aggregate.setDoc doc) (structOf p comment?) (structOf p comment?) := by
  refine Moves.bind (moves_declarationOf scope doc p comment?) fun d => ?_
  exact Moves.bind (moves_membersBelow scope doc p _ _) fun ms => Moves.pure rfl

theorem moves_bitstructOf (p : Place) (comment? : Option DocComment) :
    Moves scope doc (Bitstruct.setDoc doc) (bitstructOf p comment?) (bitstructOf p comment?) := by
  refine Moves.bind (moves_declarationOf scope doc p comment?) fun d => ?_
  refine Moves.bind (moves_typeBelow scope doc p) fun backing => ?_
  exact Moves.bind (moves_membersBelow scope doc p _ _) fun ms => Moves.pure rfl

/-! ## Enums and faults -/

theorem moves_associatedValuesOf (ps : List Place) :
    Moves scope doc (List.map (Variable.setDoc doc)) (associatedValuesOf ps) (associatedValuesOf ps) := by
  induction ps with
  | nil => exact Moves.pure rfl
  | cons p ps ih =>
    refine Moves.bind (moves_typeBelow scope doc p) fun type => ?_
    refine Moves.bind (moves_declarationOf scope doc p none) fun d => ?_
    exact Moves.bind ih fun vs => Moves.pure rfl

theorem moves_faultConstantsBelow (p : Place) (fault? : Option String) (comment? : Option DocComment) :
    Moves scope doc (List.map (FaultConstant.setDoc doc)) (faultConstantsBelow p fault? comment?)
      (faultConstantsBelow p fault? comment?) := by
  refine Moves.read (Moves.pure ?_)
  rw [List.map_map]
  rfl

theorem moves_mapM {α β : Type} {scope : Scope} {doc : DocId} (as : List α) {b b' : α → Outline β}
    {f : β → β} (h : ∀ a, Moves scope doc f (b a) (b' a)) :
    Moves scope doc (List.map f) (as.mapM b) (as.mapM b') := by
  induction as with
  | nil => exact Moves.pure rfl
  | cons a as ih =>
    rw [List.mapM_cons, List.mapM_cons]
    refine Moves.bind (h a) fun _ => ?_
    exact Moves.bind ih fun _ => Moves.pure rfl

theorem moves_enumOf (p : Place) (comment? : Option DocComment) :
    Moves scope doc (Enum.setDoc doc) (enumOf p comment?) (enumOf p comment?) := by
  refine Moves.read (Moves.bind (moves_declarationOf scope doc p comment?) fun d => ?_)
  have enumerators : ∀ qs : List Place, Moves scope doc (List.map ({ · with doc := doc }))
      (qs.mapM fun q => do
        let n ← nameOf q
        return ({ scope.declaration n.1 n.2 n.2 none with
          value := enumeratorValue q, enumName := d.name } : Enumerator))
      (qs.mapM fun q => do
        let n ← nameOf q
        return ({ scope.declaration n.1 n.2 n.2 none with
          doc := doc, value := enumeratorValue q, enumName := d.name } : Enumerator)) :=
    fun qs => moves_mapM qs fun q => Moves.bind (moves_nameOf scope doc q) fun _ => Moves.pure rfl
  dsimp only
  split
  next list =>
    refine Moves.bind (moves_associatedValuesOf scope doc _) fun values => ?_
    exact Moves.bind (enumerators _) fun _ => Moves.pure rfl
  next =>
    refine Moves.bind (f := List.map (Variable.setDoc doc)) (Moves.pure rfl) fun values => ?_
    exact Moves.bind (enumerators _) fun _ => Moves.pure rfl

theorem moves_faultOf (p : Place) (comment? : Option DocComment) :
    Moves scope doc (Fault.setDoc doc) (faultOf p comment?) (faultOf p comment?) := by
  refine Moves.bind (moves_declarationOf scope doc p comment?) fun d => ?_
  dsimp only
  split
  · exact Moves.bind (moves_faultConstantsBelow scope doc _ _ _) fun cs => Moves.pure rfl
  · exact Moves.bind (f := List.map (FaultConstant.setDoc doc)) (Moves.pure rfl) fun cs => Moves.pure rfl

/-! ## Interfaces, aliases and distinct types -/

theorem moves_methodsOf (ps : List (List Tree × Place)) :
    Moves scope doc (List.map (Function.setDoc doc)) (methodsOf ps) (methodsOf ps) := by
  induction ps with
  | nil => exact Moves.pure rfl
  | cons p ps ih =>
    unfold methodsOf
    split
    · refine Moves.bind (moves_functionOf scope doc _ _) fun f => ?_
      exact Moves.bind ih fun fs => Moves.pure rfl
    · exact ih

theorem moves_interfaceOf (p : Place) (comment? : Option DocComment) :
    Moves scope doc (Interface.setDoc doc) (interfaceOf p comment?) (interfaceOf p comment?) := by
  refine Moves.bind (moves_declarationOf scope doc p comment?) fun d => ?_
  have keyed : ∀ fs : List Function, (Table.ofList (fs.map fun f => (f.name, f))).map (Function.setDoc doc) =
      .ofList ((fs.map (Function.setDoc doc)).map fun f => (f.name, f)) := Table.map_ofList fun _ => rfl
  dsimp only
  split
  · refine Moves.bind (moves_methodsOf scope doc _) fun fs => Moves.pure ?_
    rw [Interface.setDoc, keyed]
  · refine Moves.bind (f := List.map (Function.setDoc doc)) (Moves.pure rfl) fun fs => Moves.pure ?_
    rw [Interface.setDoc, keyed]

theorem moves_distinctOf (p : Place) (comment? : Option DocComment) :
    Moves scope doc (Distinct.setDoc doc) (distinctOf p comment?) (distinctOf p comment?) := by
  refine Moves.bind (moves_declarationOf scope doc p comment?) fun d => ?_
  exact Moves.bind (moves_typeBelow scope doc p) fun base => Moves.pure rfl

theorem moves_aliasOf (p : Place) (comment? : Option DocComment) :
    Moves scope doc (Alias.setDoc doc) (aliasOf p comment?) (aliasOf p comment?) := by
  refine Moves.bind (moves_declarationOf scope doc p comment?) fun d => ?_
  refine Moves.bind (moves_typeBelow? scope doc p) fun type? => ?_
  cases type? with
  | some type => exact Moves.pure rfl
  | none =>
    dsimp only
    split
    · exact Moves.pure rfl
    · exact Moves.pure rfl

end Outline

end C3Lens
