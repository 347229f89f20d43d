import C3Lens.Proofs.Outline.Moved
import C3Lens.Proofs.Outline.Twins
import C3Lens.Proofs.Symbol.Ranges

/-!
# Builders of twins

A builder looks at a tree by its tokens, its nodes and the texts that are kept. So from places that hold
twins, in texts with other lines, it builds the same symbol but for the ranges, and records the same work
(`Outline.Same`). The rules follow the way builders are put together; where a builder goes through the parts
of a tree, the induction is on how the trees are twins, and a blank on either side is a step of its own.
-/

namespace C3Lens

namespace Outline

open Place (Twin)

/-! ## Builders -/

/-- The second builder, in a text with other lines, builds the same as the first one, as far as `e` sees,
and records the same work. -/
def Same {α β : Type} (scope : Scope) (lines : LineTable) (e : α → β) (b b' : Outline α) : Prop :=
  ∀ p : Pending,
    e (b.result scope p).1 = e (b'.result { scope with lines := lines } p).1 ∧
      (b.result scope p).2 = (b'.result { scope with lines := lines } p).2

section Same

variable {α β γ δ : Type} {scope : Scope} {lines : LineTable} {e : α → γ} {g : β → δ} {b b' : Outline α}

theorem Same.bind {k k' : α → Outline β} (hb : Same scope lines e b b')
    (hk : ∀ a a', e a = e a' → Same scope lines g (k a) (k' a')) :
    Same scope lines g (b >>= k) (b' >>= k') := by
  intro p
  obtain ⟨first, work⟩ := hb p
  have second := hk _ _ first (b.result scope p).2
  rw [work] at second
  have run : (b >>= k).result scope p = (k (b.result scope p).1).result scope (b.result scope p).2 := rfl
  rw [run, work]
  exact second

theorem Same.pure {a a' : α} (h : e a = e a') : Same scope lines e (pure a) (pure a') :=
  fun _ => ⟨h, rfl⟩

theorem Same.read {k k' : Scope → Outline β} (hk : Same scope lines g (k scope) (k' { scope with lines := lines })) :
    Same scope lines g (read >>= k) (read >>= k') :=
  hk

theorem Same.modify (f : Pending → Pending) : Same scope lines id (modify f) (modify f) :=
  fun _ => ⟨rfl, rfl⟩

/-- A builder after one that builds the very same. -/
theorem Same.then {k k' : α → Outline β} (hb : Same scope lines id b b')
    (hk : ∀ a, Same scope lines g (k a) (k' a)) : Same scope lines g (b >>= k) (b' >>= k') := by
  refine Same.bind hb fun a a' same => ?_
  cases (same : a = a')
  exact hk a

end Same

theorem map_congr_forall₂ {α β γ : Type} {R : α → β → Prop} {as : List α} {bs : List β} {f : α → γ} {g : β → γ}
    (h : List.Forall₂ R as bs) (same : ∀ a b, R a b → f a = g b) : as.map f = bs.map g := by
  induction h with
  | nil => rfl
  | cons first _ ih => rw [List.map_cons, List.map_cons, same _ _ first, ih]

variable (scope : Scope) (lines : LineTable)

/-! ## Types -/

theorem same_namedType (name qualifier : String) :
    Same scope lines id (namedType name qualifier) (namedType name qualifier) := by
  refine Same.read ?_
  dsimp only
  split
  · exact Same.pure rfl
  split
  · exact Same.pure rfl
  split
  · exact Same.pure rfl
  · exact Same.then (Same.modify _) fun _ => Same.pure rfl

theorem same_build (parts : TypeParts) : Same scope lines id parts.build parts.build := by
  rw [TypeParts.build]
  split
  · exact Same.then (Same.pure rfl) fun _ => Same.pure rfl
  split
  · exact Same.then (Same.pure rfl) fun _ => Same.pure rfl
  · exact Same.then (same_namedType scope lines _ _) fun _ => Same.pure rfl

theorem addToken_trivia (parts : TypeParts) {t : Token} (blank : t.kind.isTrivia = true) :
    parts.addToken t = parts := by
  obtain ⟨kind, text⟩ := t
  cases kind <;> first | rfl | cases blank

theorem typePartsOf_blank (done : TypeParts) {t : Tree} (blank : t.isBlank = true) (ts : List Tree) :
    typePartsOf done (t :: ts) = typePartsOf done ts := by
  cases t with
  | leaf t => rw [typePartsOf, addToken_trivia done blank]
  | node => cases blank

theorem argumentTypesOf_blank {t : Tree} (blank : t.isBlank = true) (ts : List Tree) :
    argumentTypesOf (t :: ts) = argumentTypesOf ts := by
  cases t with
  | leaf t =>
    rw [argumentTypesOf]
    exact fun _ other => by cases other
  | node => cases blank

/-- The parts of a type, and the types among arguments. -/
theorem same_typeParts {parent : NodeKind} {previous previous' ts us : List Tree}
    (h : Tree.Twins true parent previous previous' ts us) :
    (parent = .type → ∀ done, Same scope lines id (typePartsOf done ts) (typePartsOf done us)) ∧
      Same scope lines id (argumentTypesOf ts) (argumentTypesOf us) := by
  induction h with
  | nil =>
    refine ⟨fun _ done => ?_, ?_⟩
    · rw [typePartsOf]
      exact Same.pure rfl
    · rw [argumentTypesOf]
      exact Same.pure rfl
  | left blank _ ih =>
    refine ⟨fun type done => ?_, ?_⟩
    · rw [typePartsOf_blank done blank]
      exact ih.1 type done
    · rw [argumentTypesOf_blank blank]
      exact ih.2
  | right blank _ ih =>
    refine ⟨fun type done => ?_, ?_⟩
    · rw [typePartsOf_blank done blank]
      exact ih.1 type done
    · rw [argumentTypesOf_blank blank]
      exact ih.2
  | leaf t _ _ ih =>
    refine ⟨fun type done => ?_, ?_⟩
    · rw [typePartsOf, typePartsOf]
      exact ih.1 type _
    · have skipped : ∀ ts, argumentTypesOf (.leaf t :: ts) = argumentTypesOf ts := fun ts => by
        rw [argumentTypesOf]
        exact fun _ other => by cases other
      rw [skipped, skipped]
      exact ih.2
  | @node parent _ _ kind _ _ cs ds twins agree _ _ inside behind =>
    refine ⟨fun type done => ?_, ?_⟩
    · subst type
      by_cases signature : kind = .fnType
      · subst signature
        rw [typePartsOf, typePartsOf, agree.text rfl rfl (by decide) (by decide)]
        exact behind.1 rfl _
      by_cases arguments : kind = .genericArgs
      · subst arguments
        rw [typePartsOf, typePartsOf]
        exact Same.then inside.2 fun _ => behind.1 rfl _
      by_cases size : kind = .arraySuffix
      · subst size
        have same : TypeParts.arraySize? cs = TypeParts.arraySize? ds := by
          have found : ∀ ts : List Token, ts.find? (·.kind == .intNumber) =
              (ts.filter (·.kind == .intNumber)).head? := fun ts => by rw [List.head?_filter]
          rw [TypeParts.arraySize?, TypeParts.arraySize?, found, found,
            twins.filter_token fun t is => by rw [beq_iff_eq.1 is]; rfl]
        rw [typePartsOf, typePartsOf, same]
        exact behind.1 rfl _
      · rw [typePartsOf, typePartsOf]
        · exact behind.1 rfl _
        all_goals assumption
    · by_cases type : kind = .type
      · subst type
        rw [argumentTypesOf, argumentTypesOf]
        refine Same.then (inside.1 rfl {}) fun parts => ?_
        refine Same.then (same_build scope lines parts) fun type => ?_
        exact Same.then behind.2 fun types => Same.pure rfl
      · have skipped : ∀ cs ts, argumentTypesOf (.node kind cs :: ts) = argumentTypesOf ts := fun cs ts => by
          rw [argumentTypesOf]
          exact fun _ other => type (Tree.node.inj other).1
        rw [skipped, skipped]
        exact behind.2

theorem arraySize?_bareList (ts : List Tree) : TypeParts.arraySize? (Tree.bareList ts) = TypeParts.arraySize? ts := by
  have cons (t : Token) (us : List Tree) : (Tree.leaf t :: us).filterMap Tree.token? = t :: us.filterMap Tree.token? :=
    rfl
  rw [TypeParts.arraySize?, TypeParts.arraySize?]
  congr 1
  induction ts with
  | nil => rfl
  | cons t ts ih =>
    cases t with
    | leaf t =>
      rw [Tree.bareList_leaf]
      split
      next blank =>
        have other : (t.kind == .intNumber) = false := Bool.eq_false_iff.2 fun number => by
          rw [beq_iff_eq.1 number] at blank
          cases blank
        rw [ih, cons, List.find?_cons, other]
      next => rw [cons, cons, List.find?_cons, List.find?_cons, ih]
    | node kind cs => exact ih

/-- A type in which no text is kept is the same without its blanks. -/
theorem typeParts_bareList {parent : NodeKind} {ts : List Tree} (dropped : Tree.keptGapsBelow parent ts = []) :
    (parent = .type → ∀ done, typePartsOf done ts = typePartsOf done (Tree.bareList ts)) ∧
      argumentTypesOf ts = argumentTypesOf (Tree.bareList ts) := by
  cases ts with
  | nil => exact ⟨fun _ _ => rfl, rfl⟩
  | cons t ts =>
    cases t with
    | leaf t =>
      have behind : Tree.keptGapsBelow parent ts = [] := dropped
      have rest := typeParts_bareList behind
      have skipped : ∀ ts, argumentTypesOf (.leaf t :: ts) = argumentTypesOf ts := fun ts => by
        rw [argumentTypesOf]
        exact fun _ other => by cases other
      rw [Tree.bareList_leaf, skipped]
      split
      next blank => exact ⟨fun type done => (typePartsOf_blank done (t := .leaf t) blank ts).trans (rest.1 type done), rest.2⟩
      next =>
        refine ⟨fun type done => ?_, ?_⟩
        · rw [typePartsOf, typePartsOf]
          exact rest.1 type _
        · rw [skipped]
          exact rest.2
    | node kind cs =>
      rw [Tree.keptGapsBelow_node, List.append_eq_nil_iff, List.append_eq_nil_iff] at dropped
      obtain ⟨own, below, behind⟩ := dropped
      have inside := typeParts_bareList below
      have rest := typeParts_bareList behind
      rw [Tree.bareList_node]
      refine ⟨fun type done => ?_, ?_⟩
      · subst type
        by_cases signature : kind = .fnType
        · subst signature
          cases own
        by_cases arguments : kind = .genericArgs
        · subst arguments
          rw [typePartsOf, typePartsOf, inside.2]
          exact congrArg _ (funext fun types => rest.1 rfl _)
        by_cases size : kind = .arraySuffix
        · subst size
          rw [typePartsOf, typePartsOf, arraySize?_bareList]
          exact rest.1 rfl _
        · rw [typePartsOf, typePartsOf]
          · exact rest.1 rfl _
          all_goals assumption
      · by_cases type : kind = .type
        · subst type
          rw [argumentTypesOf, argumentTypesOf, inside.1 rfl, rest.2]
        · have skipped : ∀ cs ts, argumentTypesOf (.node kind cs :: ts) = argumentTypesOf ts := fun cs ts => by
            rw [argumentTypesOf]
            exact fun _ other => type (Tree.node.inj other).1
          rw [skipped, skipped, rest.2]
termination_by sizeOf ts

theorem typeOf_bareList {ts : List Tree} (dropped : Tree.keptGapsBelow .type ts = []) :
    typeOf (.node .type ts) = typeOf (.node .type (Tree.bareList ts)) := by
  rw [typeOf, typeOf, (typeParts_bareList dropped).1 rfl]

variable {scope lines} {parent kind : NodeKind} {p q : Place}

theorem same_typeOf (h : Twin true parent .type p q) : Same scope lines id (typeOf p.tree) (typeOf q.tree) := by
  obtain ⟨cs, ds, left, right, below, -⟩ := h
  rw [left, right, typeOf, typeOf]
  exact Same.then ((same_typeParts scope lines below).1 rfl {}) fun parts => same_build scope lines parts

theorem same_typeBelow? (h : Twin true parent kind p q) : Same scope lines id (typeBelow? p) (typeBelow? q) := by
  have types := h.child? .type
  rw [typeBelow?, typeBelow?]
  generalize p.child? .type = a at types ⊢
  generalize q.child? .type = b at types ⊢
  cases types with
  | none => exact Same.pure rfl
  | some type => exact Same.then (same_typeOf type) fun _ => Same.pure rfl

theorem same_typeBelow (h : Twin true parent kind p q) : Same scope lines id (typeBelow p) (typeBelow q) :=
  Same.then (same_typeBelow? h) fun _ => Same.pure rfl

/-! ## Variables and functions -/

theorem same_nameOf (h : Twin true parent kind p q) : Same scope lines Prod.fst (nameOf p) (nameOf q) := by
  refine Same.read ?_
  have names := h.nameLeaf?
  generalize p.nameLeaf? = a at names ⊢
  generalize q.nameLeaf? = b at names ⊢
  cases names with
  | none => exact Same.pure rfl
  | some same => exact Same.pure same

theorem same_declarationOf (h : Twin true parent kind p q) (comment? : Option DocComment) :
    Same scope lines Declaration.eraseRanges (declarationOf p comment?) (declarationOf q comment?) := by
  refine Same.read (Same.bind (same_nameOf h) fun n m same => Same.pure ?_)
  exact congrArg (fun name => Declaration.mk name scope.path scope.doc default default comment?) same

theorem same_variablesOf (h : Twin true parent kind p q) (comment? : Option DocComment) :
    Same scope lines (List.map Variable.eraseRanges) (variablesOf p comment?) (variablesOf q comment?) := by
  refine Same.read (Same.then (same_typeBelow h) fun type => Same.pure ?_)
  rw [List.map_map, List.map_map]
  refine map_congr_forall₂ h.nameLeaves fun a b same => ?_
  rw [h.hasLeaf rfl]
  exact congrArg (fun name => Variable.mk (.mk name scope.path scope.doc default default comment?) type none
    (q.hasLeaf .constKw)) same

theorem blockParameters_eq (h : Twin true parent kind p q) : blockParameters p = blockParameters q := by
  rw [blockParameters, blockParameters, h.tokens fun t plain => by simpa using plain]

theorem same_impliedType (h : Twin true parent kind p q) (name : String) (receiver? : Option String) :
    Same scope lines id (impliedType p name receiver?) (impliedType q name receiver?) := by
  unfold impliedType
  rw [h.hasLeaf rfl, blockParameters_eq h]
  split
  · cases receiver? with
    | some receiver => exact Same.then (same_namedType scope lines _ _) fun _ => Same.pure rfl
    | none => exact Same.pure rfl
  split
  · exact Same.pure rfl
  · exact Same.pure rfl

theorem defaultOf?_eq (h : Twin true parent .param p q) : defaultOf? p = defaultOf? q := by
  have values := h.child? .defaultValue
  rw [defaultOf?, defaultOf?]
  generalize p.child? .defaultValue = a at values ⊢
  generalize q.child? .defaultValue = b at values ⊢
  cases values with
  | none => rfl
  | some value => rw [Option.map_some, Option.map_some, (value.value rfl (.inl rfl)).default]

theorem same_parameterOf (h : Twin true parent .param p q) (index : Nat) (receiver? : Option String) :
    Same scope lines Variable.eraseRanges (parameterOf p index receiver?) (parameterOf q index receiver?) := by
  have names := h.nameLeaf?
  refine Same.read ?_
  rw [h.hasLeaf rfl, defaultOf?_eq h]
  generalize p.nameLeaf? = a at names ⊢
  generalize q.nameLeaf? = b at names ⊢
  cases names with
  | none =>
    refine Same.then (same_typeBelow? h) fun type? => ?_
    cases type? with
    | some type => exact Same.then (Same.pure rfl) fun _ => Same.pure rfl
    | none => exact Same.then (same_impliedType h _ receiver?) fun _ => Same.pure rfl
  | some same =>
    dsimp only
    rw [same]
    refine Same.then (same_typeBelow? h) fun type? => ?_
    cases type? with
    | some type => exact Same.then (Same.pure rfl) fun _ => Same.pure rfl
    | none => exact Same.then (same_impliedType h _ receiver?) fun _ => Same.pure rfl

theorem same_parametersOf (receiver? : Option String) (index : Nat) {ps qs : List Place}
    (h : List.Forall₂ (Twin true parent .param) ps qs) :
    Same scope lines (List.map Variable.eraseRanges) (parametersOf receiver? index ps)
      (parametersOf receiver? index qs) := by
  induction h generalizing index with
  | nil => exact Same.pure rfl
  | cons first _ ih =>
    refine Same.bind (same_parameterOf first index receiver?) fun v w same => ?_
    refine Same.bind (ih (index + 1)) fun vs ws rest => Same.pure ?_
    rw [List.map_cons, List.map_cons, same, rest]

theorem same_localsOf {ps qs : List Place}
    (h : List.Forall₂ (fun p q => ∃ parent, Twin true parent .localVarDecl p q) ps qs) :
    Same scope lines (List.map Variable.eraseRanges) (localsOf ps) (localsOf qs) := by
  induction h with
  | nil => exact Same.pure rfl
  | cons first _ ih =>
    obtain ⟨parent, first⟩ := first
    refine Same.bind (same_variablesOf first none) fun vs ws same => ?_
    refine Same.bind ih fun vs' ws' rest => Same.pure ?_
    rw [List.map_append, List.map_append, same, rest]

/-- Declarations are the same but for their ranges in what is built of them. -/
theorem Same.declared {β γ : Type} {g : β → γ} {k k' : Declaration → Outline β} (h : Twin true parent kind p q)
    (comment? : Option DocComment)
    (hk : ∀ (d : Declaration) (nameRange range : Range),
      Same scope lines g (k d) (k' { d with nameRange := nameRange, range := range })) :
    Same scope lines g (declarationOf p comment? >>= k) (declarationOf q comment? >>= k') := by
  refine Same.bind (same_declarationOf h comment?) fun d d' same => ?_
  obtain ⟨nameRange, range, rfl⟩ := Declaration.exists_of_eraseRanges_eq same
  exact hk d nameRange range

theorem same_functionOf (h : Twin true parent kind p q) (comment? : Option DocComment) :
    Same scope lines Function.eraseRanges (functionOf p comment?) (functionOf q comment?) := by
  have keyed : ∀ vs : List Variable, (Table.ofList (vs.map fun v => (v.name, v))).map Variable.eraseRanges =
      .ofList ((vs.map Variable.eraseRanges).map fun v => (v.name, v)) := Table.map_ofList fun _ => rfl
  have receiver : ((p.child? .methodType).bind fun m => m.tree.lastToken?.map Token.text) =
      ((q.child? .methodType).bind fun m => m.tree.lastToken?.map Token.text) := by
    have types := h.child? .methodType
    generalize p.child? .methodType = a at types ⊢
    generalize q.child? .methodType = b at types ⊢
    cases types with
    | none => rfl
    | some type => rw [Option.bind_some, Option.bind_some, type.lastToken?]
  have lists := h.child? .paramList
  have bodies := h.child? .block
  unfold functionOf
  rw [receiver, h.isNode]
  refine Same.then (same_typeBelow h) fun returns => ?_
  refine Same.declared h comment? fun d nameRange range => ?_
  have parameters : ∀ {l l' : Place} (receiver? : Option String), Twin true kind .paramList l l' →
      Same scope lines (List.map Variable.eraseRanges) (parametersOf receiver? 0 (l.childrenOf .param))
        (parametersOf receiver? 0 (l'.childrenOf .param)) :=
    fun receiver? list => same_parametersOf receiver? 0 (list.childrenOf .param)
  have locals : ∀ {b b' : Place}, Twin true kind .block b b' → Same scope lines (List.map Variable.eraseRanges)
      (localsOf (b.descendants.filter (·.isNode .localVarDecl)))
      (localsOf (b'.descendants.filter (·.isNode .localVarDecl))) := 
    fun body => same_localsOf (body.descendants .localVarDecl)
  have none : Same scope lines (List.map Variable.eraseRanges) (pure []) (pure []) := Same.pure rfl
  dsimp only
  generalize p.child? .paramList = a at lists ⊢
  generalize q.child? .paramList = b at lists ⊢
  generalize p.child? .block = a at bodies ⊢
  generalize q.child? .block = b at bodies ⊢
  cases lists with
  | none =>
    cases bodies with
    | none =>
      refine Same.bind none fun vs vs' same => Same.bind none fun ws ws' same' => Same.pure ?_
      rw [Function.eraseRanges, Function.eraseRanges, keyed, keyed, same, same']
    | some body =>
      refine Same.bind none fun vs vs' same => Same.bind (locals body) fun ws ws' same' => Same.pure ?_
      rw [Function.eraseRanges, Function.eraseRanges, keyed, keyed, same, same']
  | some list =>
    cases bodies with
    | none =>
      refine Same.bind (parameters _ list) fun vs vs' same => Same.bind none fun ws ws' same' => Same.pure ?_
      rw [Function.eraseRanges, Function.eraseRanges, keyed, keyed, same, same']
    | some body =>
      refine Same.bind (parameters _ list) fun vs vs' same => ?_
      refine Same.bind (locals body) fun ws ws' same' => Same.pure ?_
      rw [Function.eraseRanges, Function.eraseRanges, keyed, keyed, same, same']

/-! ## Structs and bitstructs -/

theorem interfacesOf_eq (h : Twin true parent kind p q) : interfacesOf p = interfacesOf q := by
  have lists := h.child? .interfaceImpl
  rw [interfacesOf, interfacesOf]
  generalize p.child? .interfaceImpl = a at lists ⊢
  generalize q.child? .interfaceImpl = b at lists ⊢
  cases lists with
  | none => rfl
  | some list => exact map_congr_forall₂ (list.childrenOf .type) fun a b type => type.text rfl (by decide) (by decide)

theorem bitsOf?_eq (h : Twin true parent kind p q) : bitsOf? p = bitsOf? q := by
  have ranges := h.child? .bitRange
  rw [bitsOf?, bitsOf?]
  generalize p.child? .bitRange = a at ranges ⊢
  generalize q.child? .bitRange = b at ranges ⊢
  cases ranges with
  | none => rfl
  | some bits => rw [Option.bind_eq_bind, Option.bind_some, Option.bind_eq_bind, Option.bind_some,
      bits.tokens fun t is => by rw [beq_iff_eq.1 is]; rfl]

theorem eraseRanges_plainMember (d : Declaration) (type : TypeRef) (bits? : Option (Nat × Nat)) (awaits : Bool) :
    Member.eraseRanges { plainMember d type with bits? := bits?, awaitsExpansion := awaits } =
      { plainMember d.eraseRanges type with bits? := bits?, awaitsExpansion := awaits } := by
  simp only [plainMember, Member.eraseRanges, Member.eraseRangesOfBody, Declaration.eraseRanges]

theorem same_inlineMemberOf (h : Twin true parent kind p q) (host? : Option String) :
    Same scope lines (List.map Member.eraseRanges) (inlineMemberOf p host?) (inlineMemberOf q host?) := by
  have types := h.child? .type
  have names := h.nameLeaf?
  refine Same.read ?_
  generalize p.child? .type = a at types ⊢
  generalize q.child? .type = b at types ⊢
  generalize p.nameLeaf? = a at names ⊢
  generalize q.nameLeaf? = b at names ⊢
  cases types with
  | none => exact Same.pure rfl
  | some type =>
    refine Same.then (same_typeOf type) fun type => ?_
    have finish : ∀ {d d' : Declaration}, d.eraseRanges = d'.eraseRanges →
        Same scope lines (List.map Member.eraseRanges) (pure [{ plainMember d type with awaitsExpansion := true }])
          (pure [{ plainMember d' type with awaitsExpansion := true }]) := by
      intro d d' same
      have erased := fun d => eraseRanges_plainMember d type none true
      refine Same.pure (congrArg (· :: []) ((erased d).trans (Eq.trans ?_ (erased d').symm)))
      rw [same]
    cases names with
    | none =>
      cases host? with
      | none => exact finish rfl
      | some => exact Same.then (Same.modify _) fun _ => finish rfl
    | some same =>
      have named := congrArg (fun name => Declaration.mk name scope.path scope.doc default default none) same
      cases host? with
      | none => exact finish named
      | some => exact Same.then (Same.modify _) fun _ => finish named

theorem same_nestedMemberOf (h : Twin true parent kind p q) (keyword : Token) {nested nested' : List Member}
    (same : nested.map Member.eraseRanges = nested'.map Member.eraseRanges) :
    Same scope lines (List.map Member.eraseRanges) (nestedMemberOf p keyword nested)
      (nestedMemberOf q keyword nested') := by
  have names := h.nameLeaf?
  refine Same.read ?_
  generalize p.nameLeaf? = a at names ⊢
  generalize q.nameLeaf? = b at names ⊢
  cases names with
  | none => exact Same.pure same
  | some text =>
    refine Same.then (same_typeBelow? h) fun type? => Same.pure ?_
    rw [List.map_singleton, List.map_singleton, plainMember, plainMember, Member.eraseRanges, Member.eraseRanges,
      Member.eraseRangesOfBody, Member.eraseRangesOfBody, Member.eraseRangesOfList_eq,
      Member.eraseRangesOfList_eq, Member.map_eraseRanges_owner, Member.map_eraseRanges_owner, same, text]
    rfl

theorem same_fieldsOf (h : Twin true parent kind p q) :
    Same scope lines (List.map Member.eraseRanges) (fieldsOf p) (fieldsOf q) := by
  refine Same.read (Same.then (same_typeBelow? h) fun type? => ?_)
  cases type? with
  | none => exact Same.pure rfl
  | some type =>
    refine Same.pure ?_
    rw [List.map_map, List.map_map]
    refine map_congr_forall₂ h.nameLeaves fun a b same => ?_
    have named := congrArg (fun name => Declaration.mk name scope.path scope.doc default default none) same
    have erased := fun d => eraseRanges_plainMember d type (bitsOf? q) false
    rw [bitsOf?_eq h]
    refine (erased _).trans (Eq.trans ?_ (erased _).symm)
    exact congrArg (fun d : Declaration => { plainMember d type with bits? := bitsOf? q }) named

/-- The reserved word is the first one of its kind among the tokens directly below. -/
theorem nestedKeyword?_eq_find? (p : Place) :
    nestedKeyword? p =
      (((p.tree.children.filterMap Tree.token?).find? (·.kind == .structKw)) <|>
        (((p.tree.children.filterMap Tree.token?).find? (·.kind == .unionKw)) <|>
          ((p.tree.children.filterMap Tree.token?).find? (·.kind == .bitstructKw)))) := by
  have orElse : ∀ (word : TokenKind) (o : Option Place), ((p.leaf? word) <|> o).bind (·.tree.token?) =
      (((p.tree.children.filterMap Tree.token?).find? (·.kind == word)) <|> o.bind (·.tree.token?)) := by
    intro word o
    have found := p.hasLeaf_eq word
    have token := p.leaf?_token word
    rw [Place.hasLeaf] at found
    cases leaf : p.leaf? word with
    | none =>
      rw [leaf, Option.bind_none] at token
      rw [← token]
      rfl
    | some leaf' =>
      rw [leaf] at found token
      obtain ⟨t, is⟩ := Option.isSome_iff_exists.1 found.symm
      rw [is] at token ⊢
      exact token
  rw [nestedKeyword?, ← p.leaf?_token .bitstructKw, ← orElse, ← orElse]

theorem nestedKeyword?_eq (h : Twin true parent kind p q) : nestedKeyword? p = nestedKeyword? q := by
  rw [nestedKeyword?_eq_find?, nestedKeyword?_eq_find?, h.find?_token rfl, h.find?_token rfl, h.find?_token rfl]

theorem membersOf_leaf (host? : Option String) (start : Nat) (t : Token) (ts : List Tree) :
    membersOf host? start (.leaf t :: ts) = membersOf host? (start + (Tree.leaf t).width) ts := by
  rw [membersOf, membersOfPart, pure_bind]
  · simp only [List.nil_append, bind_pure]
  · exact fun _ other => by cases other

theorem membersOfBody_leaf (start : Nat) (t : Token) (ts : List Tree) :
    membersOfBody start (.leaf t :: ts) = membersOfBody (start + (Tree.leaf t).width) ts := by
  rw [membersOfBody]
  exact fun _ other => by cases other

/-- The members that a part of a body declares, given those of its own body. -/
theorem same_membersOfPart {cs ds : List Tree} {start start' : Nat} (host? : Option String)
    (h : Twin true parent kind ⟨start, .node kind cs⟩ ⟨start', .node kind ds⟩)
    (below : Same scope lines (List.map Member.eraseRanges) (membersOfBody start cs) (membersOfBody start' ds)) :
    Same scope lines (List.map Member.eraseRanges) (membersOfPart host? start (.node kind cs))
      (membersOfPart host? start' (.node kind ds)) := by
  by_cases member : kind = .memberDecl
  · subst member
    rw [membersOfPart, membersOfPart, h.hasLeaf rfl, nestedKeyword?_eq h]
    split
    · exact same_inlineMemberOf h host?
    split
    · exact Same.bind below fun nested nested' same => same_nestedMemberOf h _ same
    · exact same_fieldsOf h
  · have nothing : ∀ start cs, membersOfPart host? start (.node kind cs) = pure [] := fun start cs => by
      rw [membersOfPart]
      exact fun _ other => member (Tree.node.inj other).1
    rw [nothing, nothing]
    exact Same.pure rfl

/-- The members of a body, and of the first body among the parts of a declaration. -/
theorem same_members {previous previous' ts us : List Tree} (h : Tree.Twins true parent previous previous' ts us) :
    (∀ (host? : Option String) (start start' : Nat), Same scope lines (List.map Member.eraseRanges)
      (membersOf host? start ts) (membersOf host? start' us)) ∧
    ∀ start start' : Nat, Same scope lines (List.map Member.eraseRanges) (membersOfBody start ts)
      (membersOfBody start' us) := by
  induction h with
  | nil =>
    refine ⟨fun host? start start' => ?_, fun start start' => ?_⟩
    · rw [membersOf, membersOf]
      exact Same.pure rfl
    · rw [membersOfBody, membersOfBody]
      exact Same.pure rfl
  | @left _ _ _ t _ _ blank _ ih =>
    cases t with
    | leaf t =>
      simp only [membersOf_leaf, membersOfBody_leaf]
      exact ⟨fun host? _ _ => ih.1 host? _ _, fun _ _ => ih.2 _ _⟩
    | node => cases blank
  | @right _ _ _ u _ _ blank _ ih =>
    cases u with
    | leaf u =>
      simp only [membersOf_leaf, membersOfBody_leaf]
      exact ⟨fun host? _ _ => ih.1 host? _ _, fun _ _ => ih.2 _ _⟩
    | node => cases blank
  | leaf t _ _ ih =>
    simp only [membersOf_leaf, membersOfBody_leaf]
    exact ⟨fun host? _ _ => ih.1 host? _ _, fun _ _ => ih.2 _ _⟩
  | @node parent _ _ kind _ _ cs ds twins agree _ _ inside behind =>
    refine ⟨fun host? start start' => ?_, fun start start' => ?_⟩
    · rw [membersOf, membersOf]
      refine Same.bind (same_membersOfPart host? ⟨cs, ds, rfl, rfl, twins, agree⟩ (inside.2 start start'))
        fun ms ms' first => ?_
      refine Same.bind (behind.1 host? _ _) fun ns ns' rest => Same.pure ?_
      rw [List.map_append, List.map_append, first, rest]
    · by_cases body : kind = .structBody
      · subst body
        rw [membersOfBody, membersOfBody]
        exact inside.1 none start start'
      · have skipped : ∀ start cs ts, membersOfBody start (.node kind cs :: ts) =
            membersOfBody (start + (Tree.node kind cs).width) ts := fun start cs ts => by
          rw [membersOfBody]
          exact fun _ other => body (Tree.node.inj other).1
        rw [skipped, skipped]
        exact behind.2 _ _

theorem same_membersBelow (h : Twin true parent kind p q) (owner : String) (host? : Option String) :
    Same scope lines (List.map Member.eraseRanges) (membersBelow p owner host?) (membersBelow q owner host?) := by
  have bodies := h.child? .structBody
  rw [membersBelow, membersBelow]
  generalize p.child? .structBody = a at bodies ⊢
  generalize q.child? .structBody = b at bodies ⊢
  cases bodies with
  | none => exact Same.pure rfl
  | some body =>
    refine Same.bind ((same_members body.below).1 host? _ _) fun ms ms' same => Same.pure ?_
    rw [Member.map_eraseRanges_owner, Member.map_eraseRanges_owner, same]

theorem same_structOf (h : Twin true parent kind p q) (comment? : Option DocComment) :
    Same scope lines Aggregate.eraseRanges (structOf p comment?) (structOf q comment?) := by
  refine Same.declared h comment? fun d nameRange range => ?_
  refine Same.bind (same_membersBelow h _ _) fun ms ms' same => Same.pure ?_
  rw [Aggregate.eraseRanges, Aggregate.eraseRanges, same, h.hasLeaf rfl, interfacesOf_eq h]

theorem same_bitstructOf (h : Twin true parent kind p q) (comment? : Option DocComment) :
    Same scope lines Bitstruct.eraseRanges (bitstructOf p comment?) (bitstructOf q comment?) := by
  refine Same.declared h comment? fun d nameRange range => ?_
  refine Same.then (same_typeBelow h) fun backing => ?_
  refine Same.bind (same_membersBelow h _ _) fun ms ms' same => Same.pure ?_
  rw [Bitstruct.eraseRanges, Bitstruct.eraseRanges, same, interfacesOf_eq h]

/-! ## Enums and faults -/

theorem same_associatedValuesOf {ps qs : List Place} (h : List.Forall₂ (Twin true parent kind) ps qs) :
    Same scope lines (List.map Variable.eraseRanges) (associatedValuesOf ps) (associatedValuesOf qs) := by
  induction h with
  | nil => exact Same.pure rfl
  | cons first _ ih =>
    refine Same.then (same_typeBelow first) fun type => ?_
    refine Same.declared first none fun d nameRange range => ?_
    refine Same.bind ih fun vs vs' same => Same.pure ?_
    rw [List.map_cons, List.map_cons, same]
    rfl

theorem enumeratorValue_eq (h : Twin true parent .enumerator p q) : enumeratorValue p = enumeratorValue q := by
  have values := h.child? .enumValue
  rw [enumeratorValue, enumeratorValue]
  generalize p.child? .enumValue = a at values ⊢
  generalize q.child? .enumValue = b at values ⊢
  cases values with
  | none => rfl
  | some value =>
    dsimp only
    obtain same | ⟨rest, rest', left, right, same⟩ := (value.value rfl (.inr rfl)).afterStart?
    · rw [same]
    · rw [left, right]
      exact same

theorem same_mapM {α β : Type} {e : α → β} {b b' : Place → Outline α} {R : Place → Place → Prop} {ps qs : List Place}
    (h : List.Forall₂ R ps qs) (same : ∀ p q, R p q → Same scope lines e (b p) (b' q)) :
    Same scope lines (List.map e) (ps.mapM b) (qs.mapM b') := by
  induction h with
  | nil => exact Same.pure rfl
  | cons first _ ih =>
    rw [List.mapM_cons, List.mapM_cons]
    refine Same.bind (same _ _ first) fun _ _ first => ?_
    refine Same.bind ih fun _ _ rest => Same.pure ?_
    rw [List.map_cons, List.map_cons, first, rest]

theorem same_enumOf (h : Twin true parent .enumDef p q) (comment? : Option DocComment) :
    Same scope lines Enum.eraseRanges (enumOf p comment?) (enumOf q comment?) := by
  have lists := h.child? .enumParams
  have bodies := h.child? .enumBody
  have backing : ((p.child? .type).map (·.tree.compactText)) = ((q.child? .type).map (·.tree.compactText)) := by
    have types := h.child? .type
    generalize p.child? .type = a at types ⊢
    generalize q.child? .type = b at types ⊢
    cases types with
    | none => rfl
    | some type => rw [Option.map_some, Option.map_some, type.text rfl (by decide) (by decide)]
  refine Same.read (Same.declared h comment? fun d nameRange range => ?_)
  have enumerators : ∀ {ps qs : List Place}, List.Forall₂ (Twin true .enumBody .enumerator) ps qs →
      Same scope lines (List.map Enumerator.eraseRanges)
        (ps.mapM fun p => do
          let n ← nameOf p
          return ({ scope.declaration n.1 n.2 n.2 none with
            value := enumeratorValue p, enumName := d.name } : Enumerator))
        (qs.mapM fun q => do
          let n ← nameOf q
          return ({ scope.declaration n.1 n.2 n.2 none with
            value := enumeratorValue q, enumName := d.name } : Enumerator)) := by
    refine fun places => same_mapM places fun p q twin => Same.bind (same_nameOf twin) fun n m same => Same.pure ?_
    rw [Enumerator.eraseRanges, Enumerator.eraseRanges, enumeratorValue_eq twin]
    exact congrArg (fun name => ({ scope.declaration name default default none with
      value := enumeratorValue q, enumName := d.name } : Enumerator)) same
  have none : Same scope lines (List.map Variable.eraseRanges) (pure []) (pure []) := Same.pure rfl
  rw [backing, interfacesOf_eq h]
  generalize p.child? .enumBody = a at bodies ⊢
  generalize q.child? .enumBody = b at bodies ⊢
  generalize p.child? .enumParams = a at lists ⊢
  generalize q.child? .enumParams = b at lists ⊢
  cases lists with
  | none =>
    cases bodies with
    | none =>
      refine Same.bind none fun vs vs' values => Same.bind (enumerators .nil) fun es es' same => Same.pure ?_
      rw [Enum.eraseRanges, Enum.eraseRanges, values, same]
    | some body =>
      refine Same.bind none fun vs vs' values => ?_
      refine Same.bind (enumerators (body.childrenOf .enumerator)) fun es es' same => Same.pure ?_
      rw [Enum.eraseRanges, Enum.eraseRanges, values, same]
  | some list =>
    refine Same.bind (same_associatedValuesOf (list.childrenOf .param)) fun vs vs' values => ?_
    cases bodies with
    | none =>
      refine Same.bind (enumerators .nil) fun es es' same => Same.pure ?_
      rw [Enum.eraseRanges, Enum.eraseRanges, values, same]
    | some body =>
      refine Same.bind (enumerators (body.childrenOf .enumerator)) fun es es' same => Same.pure ?_
      rw [Enum.eraseRanges, Enum.eraseRanges, values, same]

theorem same_faultConstantsBelow (h : Twin true parent kind p q) (fault? : Option String)
    (comment? : Option DocComment) :
    Same scope lines (List.map FaultConstant.eraseRanges) (faultConstantsBelow p fault? comment?)
      (faultConstantsBelow q fault? comment?) := by
  refine Same.read (Same.pure ?_)
  rw [List.map_map, List.map_map]
  refine map_congr_forall₂ h.nameLeaves fun a b same => ?_
  exact congrArg (fun name => FaultConstant.mk ⟨name, scope.path, scope.doc, default, default, comment?⟩ fault?) same

theorem same_faultOf (h : Twin true parent kind p q) (comment? : Option DocComment) :
    Same scope lines Fault.eraseRanges (faultOf p comment?) (faultOf q comment?) := by
  have bodies := h.child? .faultBody
  refine Same.declared h comment? fun d nameRange range => ?_
  dsimp only
  generalize p.child? .faultBody = a at bodies ⊢
  generalize q.child? .faultBody = b at bodies ⊢
  cases bodies with
  | none => exact Same.pure rfl
  | some body =>
    refine Same.bind (same_faultConstantsBelow body _ _) fun cs cs' same => Same.pure ?_
    rw [Fault.eraseRanges, Fault.eraseRanges, same]

/-! ## Interfaces, aliases and distinct types -/

theorem same_methodsOf {previous previous' ts us : List Tree}
    (h : Tree.Twins true .interfaceBody previous previous' ts us) (start start' : Nat) :
    Same scope lines (List.map Function.eraseRanges) (methodsOf (placesWithPrevious start previous ts))
      (methodsOf (placesWithPrevious start' previous' us)) := by
  generalize body : NodeKind.interfaceBody = parent at h
  induction h generalizing start start' with
  | nil => exact Same.pure rfl
  | @left _ _ _ t _ _ blank _ ih =>
    cases t with
    | leaf => exact ih _ _ body
    | node => cases blank
  | @right _ _ _ u _ _ blank _ ih =>
    cases u with
    | leaf => exact ih _ _ body
    | node => cases blank
  | leaf _ _ _ ih => exact ih _ _ body
  | @node _ previous previous' kind _ _ cs ds twins agree comment _ _ ih =>
    subst body
    by_cases method : kind = .fnDef
    · subst method
      have twin : Twin true .interfaceBody .fnDef ⟨start, .node .fnDef cs⟩ ⟨start', .node .fnDef ds⟩ :=
        ⟨cs, ds, rfl, rfl, twins, agree⟩
      rw [placesWithPrevious, placesWithPrevious, methodsOf, methodsOf, ← comment rfl rfl]
      have same : Same scope lines Function.eraseRanges (functionOf ⟨start, .node .fnDef cs⟩ _)
          (functionOf ⟨start', .node .fnDef ds⟩ _) := same_functionOf twin (commentBefore? previous)
      refine Same.bind same fun f f' first => Same.bind (ih _ _ rfl) fun fs fs' rest => Same.pure ?_
      rw [List.map_cons, List.map_cons, first, rest]
    · have skipped : ∀ previous start cs rest, methodsOf ((previous, ⟨start, .node kind cs⟩) :: rest) =
          methodsOf rest := fun previous start cs rest => by
        rw [methodsOf]
        exact if_neg fun is => method (Option.some.inj (beq_iff_eq.1 is))
      rw [placesWithPrevious, placesWithPrevious, skipped, skipped]
      exact ih _ _ rfl

theorem same_interfaceOf (h : Twin true parent kind p q) (comment? : Option DocComment) :
    Same scope lines Interface.eraseRanges (interfaceOf p comment?) (interfaceOf q comment?) := by
  have bodies := h.child? .interfaceBody
  have keyed : ∀ fs : List Function, (Table.ofList (fs.map fun f => (f.name, f))).map Function.eraseRanges =
      .ofList ((fs.map Function.eraseRanges).map fun f => (f.name, f)) := Table.map_ofList fun _ => rfl
  refine Same.declared h comment? fun d nameRange range => ?_
  dsimp only
  generalize p.child? .interfaceBody = a at bodies ⊢
  generalize q.child? .interfaceBody = b at bodies ⊢
  cases bodies with
  | none => exact Same.pure rfl
  | some body =>
    refine Same.bind (same_methodsOf body.below _ _) fun fs fs' same => Same.pure ?_
    rw [Interface.eraseRanges, Interface.eraseRanges, keyed, keyed, same]

theorem same_distinctOf (h : Twin true parent kind p q) (comment? : Option DocComment) :
    Same scope lines Distinct.eraseRanges (distinctOf p comment?) (distinctOf q comment?) := by
  refine Same.declared h comment? fun d nameRange range => ?_
  refine Same.then (same_typeBelow h) fun base => Same.pure ?_
  rw [Distinct.eraseRanges, Distinct.eraseRanges, h.hasLeaf rfl]

theorem same_aliasOf (h : Twin true parent .defDecl p q) (comment? : Option DocComment) :
    Same scope lines Alias.eraseRanges (aliasOf p comment?) (aliasOf q comment?) := by
  have signatures := h.child? .fnType
  have targets := h.child? .aliasTarget
  refine Same.declared h comment? fun d nameRange range => ?_
  refine Same.then (same_typeBelow? h) fun type? => ?_
  cases type? with
  | some type => exact Same.pure rfl
  | none =>
    dsimp only
    generalize p.child? .fnType = a at signatures ⊢
    generalize q.child? .fnType = b at signatures ⊢
    generalize p.child? .aliasTarget = a at targets ⊢
    generalize q.child? .aliasTarget = b at targets ⊢
    cases signatures with
    | some signature =>
      dsimp only
      rw [signature.text rfl (by decide) (by decide)]
      exact Same.pure rfl
    | none =>
      cases targets with
      | none => exact Same.pure rfl
      | some target =>
        rw [Option.map_some, Option.map_some, target.text rfl (by decide) (by decide)]
        exact Same.pure rfl

/-- What stands between the blanks: the same token on both sides, or two nodes. -/
theorem forall₂_filter_twins {full : Bool} {previous previous' ts us : List Tree}
    (h : Tree.Twins full parent previous previous' ts us) :
    List.Forall₂ (fun t u => t = u ∨ t.token? = none ∧ u.token? = none)
      (ts.filter fun t => !((t.tokenKind?.map TokenKind.isTrivia).getD false))
      (us.filter fun t => !((t.tokenKind?.map TokenKind.isTrivia).getD false)) := by
  have skipped : ∀ {t : Tree} {ts : List Tree}, t.isBlank = true →
      (t :: ts).filter (fun t => !((t.tokenKind?.map TokenKind.isTrivia).getD false)) =
        ts.filter fun t => !((t.tokenKind?.map TokenKind.isTrivia).getD false) := by
    intro t ts blank
    refine List.filter_cons_of_neg ?_
    cases t with
    | leaf t => exact Bool.eq_false_iff.1 (congrArg Bool.not blank)
    | node => cases blank
  induction h with
  | nil => exact .nil
  | left blank _ ih =>
    rw [skipped blank]
    exact ih
  | right blank _ ih =>
    rw [skipped blank]
    exact ih
  | leaf t significant _ ih =>
    have kept : ∀ ts : List Tree,
        (Tree.leaf t :: ts).filter (fun t => !((t.tokenKind?.map TokenKind.isTrivia).getD false)) =
          .leaf t :: ts.filter fun t => !((t.tokenKind?.map TokenKind.isTrivia).getD false) :=
      fun ts => List.filter_cons_of_pos (congrArg Bool.not significant)
    rw [kept, kept]
    exact .cons (.inl rfl) ih
  | node _ _ _ _ _ ih => exact .cons (.inr ⟨rfl, rfl⟩) ih

theorem isPlainUserType_eq {full : Bool} (h : Twin full parent .type p q) :
    isPlainUserType scope p.tree = isPlainUserType { scope with lines := lines } q.tree := by
  have parts := forall₂_filter_twins h.below
  rw [isPlainUserType, isPlainUserType]
  generalize (p.tree.children.filter fun t => !((t.tokenKind?.map TokenKind.isTrivia).getD false)) = ts at parts ⊢
  generalize (q.tree.children.filter fun t => !((t.tokenKind?.map TokenKind.isTrivia).getD false)) = us at parts ⊢
  cases parts with
  | nil => rfl
  | @cons t u _ _ first rest =>
    cases rest with
    | nil =>
      obtain rfl | ⟨left, right⟩ := first
      · cases t <;> rfl
      · cases t with
        | leaf => cases left
        | node =>
          cases u with
          | leaf => cases right
          | node => rfl
    | cons => cases t <;> cases u <;> rfl

theorem isDistinctAlias_eq {full : Bool}
    (types : Option.Rel (Twin full parent .type) (p.child? .type) (q.child? .type))
    (word : p.hasLeaf .defKw = q.hasLeaf .defKw) (inline : p.hasLeaf .inlineKw = q.hasLeaf .inlineKw) :
    isDistinctAlias scope p = isDistinctAlias { scope with lines := lines } q := by
  rw [isDistinctAlias, isDistinctAlias, word, inline]
  generalize p.child? .type = a at types ⊢
  generalize q.child? .type = b at types ⊢
  cases types with
  | none => rfl
  | some type =>
    dsimp only
    rw [isPlainUserType_eq type]

end Outline

end C3Lens
