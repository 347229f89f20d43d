import C3Lens.Outline.Declarations
import C3Lens.Proofs.Outline.Types

/-!
# What the builders of declarations record

One statement for each builder that reads types: it only adds to the pending work, and the types
written in its symbol are recorded.
-/

namespace C3Lens

namespace TypeRef

theorem usesOf_flatMap_subset {α : Type} {f : α → List TypeRef} {as : List α}
    {us : List (String × String)} (h : ∀ a ∈ as, usesOf (f a) ⊆ us) : usesOf (as.flatMap f) ⊆ us := by
  rw [usesOf_flatMap]
  intro u hu
  obtain ⟨a, ha, hu⟩ := List.mem_flatMap.1 hu
  exact h a ha hu

end TypeRef

namespace Member

theorem typesOfList_eq (ms : List Member) : typesOfList ms = ms.flatMap types := by
  induction ms with
  | nil => rfl
  | cons m ms ih => rw [typesOfList, ih, List.flatMap_cons]

theorem types_owner (m : Member) (owner : String) : types { m with owner := owner } = m.types := by
  obtain ⟨_, _, _, _, _, _, _⟩ := m
  rfl

theorem flatMap_types_owner (ms : List Member) (owner : String) :
    (ms.map ({ · with owner := owner })).flatMap types = ms.flatMap types := by
  rw [List.flatMap_map]
  exact List.flatMap_congr fun m _ => types_owner m owner

end Member

namespace Outline

open TypeRef (usesOf usesOf_append usesOf_flatMap usesOf_flatMap_subset)

variable (scope : Scope) (given : List (String × String))

/-! ## Variables and parameters -/

theorem yields_nameOf (p : Place) : Yields scope given (nameOf p) fun _ => [] := by
  refine Yields.read ?_
  split
  · exact Yields.pure (List.nil_subset _)
  · exact Yields.pure (List.nil_subset _)

theorem yields_declarationOf (p : Place) (comment? : Option DocComment) :
    Yields scope given (declarationOf p comment?) fun _ => [] :=
  Yields.read (Yields.bind (yields_nameOf scope given p) fun _ => Yields.pure (List.nil_subset _))

theorem yields_variablesOf (p : Place) (comment? : Option DocComment) :
    Yields scope given (variablesOf p comment?) fun vs => usesOf (vs.flatMap Variable.types) := by
  refine Yields.read (Yields.bind (yields_typeBelow scope given p) fun type => Yields.pure ?_)
  refine usesOf_flatMap_subset fun v hv => ?_
  obtain ⟨leaf, -, rfl⟩ := List.mem_map.1 hv
  exact List.subset_append_right _ _

theorem yields_impliedType (p : Place) (name : String) (receiver? : Option String) :
    Yields scope given (impliedType p name receiver?) TypeRef.uses := by
  unfold impliedType
  split
  · split
    · refine Yields.bind (yields_namedType scope given _ _) fun type => Yields.pure ?_
      split
      · rw [TypeRef.uses_marked]
        exact List.subset_append_right _ _
      · exact List.subset_append_right _ _
    · exact Yields.pure (List.nil_subset _)
  split
  · exact Yields.pure (List.nil_subset _)
  · exact Yields.pure (List.nil_subset _)

theorem yields_parameterOf (p : Place) (index : Nat) (receiver? : Option String) :
    Yields scope given (parameterOf p index receiver?) fun v => usesOf v.types := by
  have finish : ∀ (d : Declaration) (type : TypeRef) (parameter? : Option ParameterInfo)
      (us : List (String × String)), type.uses ⊆ us → Yields scope us
        (pure ({ d with type := type, parameter? := parameter?, isConstant := false } : Variable))
        fun v => usesOf v.types := fun _ _ _ _ h => Yields.pure h
  refine Yields.read (Yields.bind (yields_typeBelow? scope given p) fun type? => ?_)
  dsimp only
  split
  next type =>
    refine finish _ _ _ _ ?_
    split
    · rw [TypeRef.uses_marked]
      exact List.subset_append_right _ _
    · exact List.subset_append_right _ _
  next =>
    refine Yields.bind (yields_impliedType scope _ p _ receiver?) fun implied => ?_
    refine finish _ _ _ _ ?_
    split
    · exact List.nil_subset _
    · exact List.subset_append_right _ _

theorem yields_parametersOf (receiver? : Option String) (index : Nat) (ps : List Place) :
    Yields scope given (parametersOf receiver? index ps) fun vs => usesOf (vs.flatMap Variable.types) := by
  induction ps generalizing given index with
  | nil => exact Yields.pure (List.nil_subset _)
  | cons p ps ih =>
    refine Yields.bind (yields_parameterOf scope given p index receiver?) fun v => ?_
    refine Yields.bind (ih _ (index + 1)) fun vs => Yields.pure ?_
    rw [List.flatMap_cons, usesOf_append, List.append_assoc]
    exact List.subset_append_right _ _

theorem yields_localsOf (ps : List Place) :
    Yields scope given (localsOf ps) fun vs => usesOf (vs.flatMap Variable.types) := by
  induction ps generalizing given with
  | nil => exact Yields.pure (List.nil_subset _)
  | cons p ps ih =>
    refine Yields.bind (yields_variablesOf scope given p none) fun vs => ?_
    refine Yields.bind (ih _) fun ws => Yields.pure ?_
    rw [List.flatMap_append, usesOf_append, List.append_assoc]
    exact List.subset_append_right _ _

theorem yields_functionOf (p : Place) (comment? : Option DocComment) :
    Yields scope given (functionOf p comment?) fun f => usesOf f.types := by
  unfold functionOf
  refine Yields.bind (yields_typeBelow scope given p) fun returns => ?_
  refine Yields.bind (yields_declarationOf scope _ p comment?) fun declaration => ?_
  extract_lets name kind withParameters
  have function : ∀ (us : List (String × String)) (parameters : List Variable),
      returns.uses ⊆ us → usesOf (parameters.flatMap Variable.types) ⊆ us →
      Yields scope us (withParameters parameters) fun f => usesOf f.types := by
    intro us parameters hr hp
    have finish : ∀ (vs : List (String × String)) (locals : List Variable),
        us ⊆ vs → usesOf (locals.flatMap Variable.types) ⊆ vs →
        Yields scope vs (pure ({ declaration with
          name := name, kind := kind, returns := returns,
          parameters := .ofList (parameters.map fun v => (v.name, v)),
          receiver? := (p.child? .methodType).bind fun m => m.tree.lastToken?.map Token.text,
          locals := locals } : Function)) fun f => usesOf f.types := by
      intro vs locals hus hl
      refine Yields.pure ?_
      rw [Function.types, usesOf_append, usesOf_append, List.append_subset, List.append_subset]
      refine ⟨⟨List.Subset.trans hr hus, usesOf_flatMap_subset fun v hv => ?_⟩, hl⟩
      have listed : v ∈ parameters := by simpa using Table.values_ofList_subset _ hv
      refine List.Subset.trans ?_ (List.Subset.trans hp hus)
      rw [usesOf_flatMap]
      exact fun u hu => List.mem_flatMap.2 ⟨v, listed, hu⟩
    dsimp only [withParameters]
    split
    next body =>
      refine Yields.bind (yields_localsOf scope us _) fun locals => ?_
      exact finish _ locals (List.subset_append_left _ _) (List.subset_append_right _ _)
    next =>
      exact finish us [] (List.Subset.refl _) (List.nil_subset _)
  split
  next list =>
    refine Yields.bind (yields_parametersOf scope _ _ 0 _) fun parameters => ?_
    refine function _ parameters ?_ (List.subset_append_right _ _)
    rw [List.append_nil]
    exact List.subset_append_of_subset_left _ (List.subset_append_right _ _)
  next =>
    refine function _ [] ?_ (List.nil_subset _)
    rw [List.append_nil]
    exact List.subset_append_right _ _

/-! ## Structs and bitstructs -/

theorem types_plainMember (d : Declaration) (type : TypeRef) :
    (plainMember d type).types = type.parts := by
  rw [plainMember, Member.types, Member.typesOfBody, List.append_nil]

theorem yields_inlineMemberOf (p : Place) (host? : Option String) :
    Yields scope given (inlineMemberOf p host?) fun ms => usesOf (ms.flatMap Member.types) := by
  refine Yields.read ?_
  split
  next => exact Yields.pure (List.nil_subset _)
  next typePlace _ =>
    refine Yields.bind (yields_typeOf scope given _) fun type => ?_
    have finish : ∀ (d : Declaration) (us : List (String × String)), type.uses ⊆ us →
        Yields scope us (pure [{ plainMember d type with awaitsExpansion := true }])
        fun ms => usesOf (ms.flatMap Member.types) := by
      intro d us hus
      have types : Member.types { plainMember d type with awaitsExpansion := true } = type.parts :=
        types_plainMember d type
      refine Yields.pure ?_
      rw [List.flatMap_singleton, types]
      exact hus
    dsimp only
    split
    · refine Yields.bind (yields_addInline _ _) fun _ => finish _ _ ?_
      rw [List.append_nil]
      exact List.subset_append_right _ _
    · exact finish _ _ (List.subset_append_right _ _)

variable {given} in
theorem yields_nestedMemberOf (p : Place) (keyword : Token) {nested : List Member}
    (h : usesOf (nested.flatMap Member.types) ⊆ given) :
    Yields scope given (nestedMemberOf p keyword nested) fun ms => usesOf (ms.flatMap Member.types) := by
  refine Yields.read ?_
  split
  next => exact Yields.pure h
  next leaf _ =>
    refine Yields.bind (yields_typeBelow? scope given p) fun type? => Yields.pure ?_
    rw [List.flatMap_singleton, plainMember, Member.types, Member.typesOfBody, Member.typesOfList_eq,
      Member.flatMap_types_owner, usesOf_append, List.append_subset]
    refine ⟨?_, List.subset_append_of_subset_left _ h⟩
    cases type? with
    | none => exact List.nil_subset _
    | some type => exact List.subset_append_right _ _

theorem yields_fieldsOf (p : Place) :
    Yields scope given (fieldsOf p) fun ms => usesOf (ms.flatMap Member.types) := by
  refine Yields.read (Yields.bind (yields_typeBelow? scope given p) fun type? => ?_)
  cases type? with
  | none => exact Yields.pure (List.nil_subset _)
  | some type =>
    refine Yields.pure (usesOf_flatMap_subset fun m hm => ?_)
    obtain ⟨leaf, -, rfl⟩ := List.mem_map.1 hm
    have types : ∀ (d : Declaration) bits?,
        Member.types { plainMember d type with bits? := bits? } = type.parts :=
      fun d _ => types_plainMember d type
    rw [types]
    exact List.subset_append_right _ _

mutual

theorem yields_membersOf (given : List (String × String)) (host? : Option String) (start : Nat)
    (ts : List Tree) :
    Yields scope given (membersOf host? start ts) fun ms => usesOf (ms.flatMap Member.types) := by
  match ts with
  | [] => exact Yields.pure (List.nil_subset _)
  | t :: ts =>
    rw [membersOf]
    refine Yields.bind (yields_membersOfPart given host? start t) fun ms => ?_
    refine Yields.bind (yields_membersOf _ host? _ ts) fun ns => Yields.pure ?_
    rw [List.flatMap_append, usesOf_append, List.append_assoc]
    exact List.subset_append_right _ _

theorem yields_membersOfPart (given : List (String × String)) (host? : Option String) (start : Nat)
    (t : Tree) :
    Yields scope given (membersOfPart host? start t) fun ms => usesOf (ms.flatMap Member.types) := by
  match t with
  | .leaf _ => exact Yields.pure (List.nil_subset _)
  | .node kind parts =>
    by_cases declares : kind = .memberDecl
    · subst declares
      rw [membersOfPart]
      split
      · exact yields_inlineMemberOf scope given _ host?
      split
      · refine Yields.bind (yields_membersOfBody given start parts) fun nested => ?_
        exact yields_nestedMemberOf scope _ _ (List.subset_append_right _ _)
      · exact yields_fieldsOf scope given _
    · rw [membersOfPart]
      · exact Yields.pure (List.nil_subset _)
      · exact fun parts same => declares (Tree.node.inj same).1

theorem yields_membersOfBody (given : List (String × String)) (start : Nat) (ts : List Tree) :
    Yields scope given (membersOfBody start ts) fun ms => usesOf (ms.flatMap Member.types) := by
  match ts with
  | [] => exact Yields.pure (List.nil_subset _)
  | .leaf t :: ts =>
    rw [membersOfBody]
    · exact yields_membersOfBody given _ ts
    · simp
  | .node kind parts :: ts =>
    by_cases body : kind = .structBody
    · subst body
      rw [membersOfBody]
      exact yields_membersOf given none start parts
    · rw [membersOfBody]
      · exact yields_membersOfBody given _ ts
      · exact fun parts same => body (Tree.node.inj same).1

end

theorem yields_membersBelow (p : Place) (owner : String) (host? : Option String) :
    Yields scope given (membersBelow p owner host?) fun ms => usesOf (ms.flatMap Member.types) := by
  unfold membersBelow
  split
  · refine Yields.bind (yields_membersOf scope given host? _ _) fun ms => Yields.pure ?_
    rw [Member.flatMap_types_owner]
    exact List.subset_append_right _ _
  · exact Yields.pure (List.nil_subset _)

theorem yields_structOf (p : Place) (comment? : Option DocComment) :
    Yields scope given (structOf p comment?) fun a => usesOf a.types := by
  refine Yields.bind (yields_declarationOf scope given p comment?) fun d => ?_
  exact Yields.bind (yields_membersBelow scope _ p _ _) fun ms => Yields.pure (List.subset_append_right _ _)

theorem yields_bitstructOf (p : Place) (comment? : Option DocComment) :
    Yields scope given (bitstructOf p comment?) fun b => usesOf b.types := by
  refine Yields.bind (yields_declarationOf scope given p comment?) fun d => ?_
  refine Yields.bind (yields_typeBelow scope _ p) fun backing => ?_
  refine Yields.bind (yields_membersBelow scope _ p _ _) fun ms => Yields.pure ?_
  rw [Bitstruct.types, usesOf_append, List.append_assoc]
  exact List.subset_append_right _ _

/-! ## Enums and faults -/

theorem yields_associatedValuesOf (ps : List Place) :
    Yields scope given (associatedValuesOf ps) fun vs => usesOf (vs.flatMap Variable.types) := by
  induction ps generalizing given with
  | nil => exact Yields.pure (List.nil_subset _)
  | cons p ps ih =>
    refine Yields.bind (yields_typeBelow scope given p) fun type => ?_
    refine Yields.bind (yields_declarationOf scope _ p none) fun d => ?_
    refine Yields.bind (ih _) fun vs => Yields.pure ?_
    rw [List.flatMap_cons, usesOf_append, List.append_nil, List.append_assoc]
    exact List.subset_append_right _ _

theorem yields_faultConstantsBelow (p : Place) (fault? : Option String) (comment? : Option DocComment) :
    Yields scope given (faultConstantsBelow p fault? comment?) fun _ => [] :=
  Yields.read (Yields.pure (List.nil_subset _))

theorem yields_mapM {α β : Type} (as : List α) {b : α → Outline β}
    (h : ∀ a us, Yields scope us (b a) fun _ => []) : Yields scope given (as.mapM b) fun _ => [] := by
  induction as generalizing given with
  | nil => exact Yields.pure (List.nil_subset _)
  | cons a as ih =>
    rw [List.mapM_cons]
    refine Yields.bind (h a given) fun _ => ?_
    exact Yields.bind (ih _) fun _ => Yields.pure (List.nil_subset _)

theorem yields_enumOf (p : Place) (comment? : Option DocComment) :
    Yields scope given (enumOf p comment?) fun e => usesOf e.types := by
  refine Yields.read (Yields.bind (yields_declarationOf scope given p comment?) fun d => ?_)
  extract_lets places withValues
  have enum : ∀ (us : List (String × String)) (values : List Variable),
      usesOf (values.flatMap Variable.types) ⊆ us →
      Yields scope us (withValues values) fun e => usesOf e.types := by
    intro us values hv
    refine Yields.bind (yields_mapM scope us _ fun q vs => ?_) fun enumerators => Yields.pure ?_
    · exact Yields.bind (yields_nameOf scope vs q) fun _ => Yields.pure (List.nil_subset _)
    · exact List.subset_append_of_subset_left _ hv
  split
  next list =>
    refine Yields.bind (yields_associatedValuesOf scope _ _) fun values => ?_
    exact enum _ values (List.subset_append_right _ _)
  next => exact enum _ [] (List.nil_subset _)

theorem yields_faultOf (p : Place) (comment? : Option DocComment) :
    Yields scope given (faultOf p comment?) fun _ => [] := by
  refine Yields.bind (yields_declarationOf scope given p comment?) fun d => ?_
  dsimp only
  split
  · refine Yields.bind (yields_faultConstantsBelow scope _ _ _ _) fun cs => ?_
    exact Yields.pure (List.nil_subset _)
  · exact Yields.pure (List.nil_subset _)

/-! ## Interfaces, aliases and distinct types -/

theorem yields_methodsOf (ps : List (List Tree × Place)) :
    Yields scope given (methodsOf ps) fun fs => usesOf (fs.flatMap Function.types) := by
  induction ps generalizing given with
  | nil => exact Yields.pure (List.nil_subset _)
  | cons p ps ih =>
    unfold methodsOf
    split
    · refine Yields.bind (yields_functionOf scope given _ _) fun f => ?_
      refine Yields.bind (ih _) fun fs => Yields.pure ?_
      rw [List.flatMap_cons, usesOf_append, List.append_assoc]
      exact List.subset_append_right _ _
    · exact ih given

theorem yields_interfaceOf (p : Place) (comment? : Option DocComment) :
    Yields scope given (interfaceOf p comment?) fun i => usesOf i.types := by
  refine Yields.bind (yields_declarationOf scope given p comment?) fun d => ?_
  have finish : ∀ (us : List (String × String)) (methods : List Function),
      usesOf (methods.flatMap Function.types) ⊆ us →
      Yields scope us (pure ({ d with methods := .ofList (methods.map fun f => (f.name, f)) } : Interface))
        fun i => usesOf i.types := by
    intro us methods hm
    refine Yields.pure (usesOf_flatMap_subset fun f hf => ?_)
    have listed : f ∈ methods := by simpa using Table.values_ofList_subset _ hf
    refine List.Subset.trans ?_ hm
    rw [usesOf_flatMap]
    exact fun u hu => List.mem_flatMap.2 ⟨f, listed, hu⟩
  dsimp only
  split
  · refine Yields.bind (yields_methodsOf scope _ _) fun methods => ?_
    exact finish _ methods (List.subset_append_right _ _)
  · exact finish _ [] (List.nil_subset _)

theorem yields_distinctOf (p : Place) (comment? : Option DocComment) :
    Yields scope given (distinctOf p comment?) fun d => usesOf d.types := by
  refine Yields.bind (yields_declarationOf scope given p comment?) fun d => ?_
  exact Yields.bind (yields_typeBelow scope _ p) fun base => Yields.pure (List.subset_append_right _ _)

theorem yields_aliasOf (p : Place) (comment? : Option DocComment) :
    Yields scope given (aliasOf p comment?) fun a => usesOf a.types := by
  refine Yields.bind (yields_declarationOf scope given p comment?) fun d => ?_
  refine Yields.bind (yields_typeBelow? scope _ p) fun type? => ?_
  cases type? with
  | some type => exact Yields.pure (List.subset_append_right _ _)
  | none =>
    dsimp only
    split
    · exact Yields.pure (List.nil_subset _)
    · exact Yields.pure (List.nil_subset _)

end Outline

end C3Lens
