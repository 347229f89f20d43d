import C3Lens.Outline.Declarations
import C3Lens.Proofs.Outline.Types
import C3Lens.Proofs.Syntax.Place
import C3Lens.Symbol.View

/-!
# Where builders find names

The name of a declaration is a token below its node, and the range of the name is that of the token;
a declaration without a name has the empty one (`Declaration.SpelledIn`). The name of a method has
the type in front. One statement for each builder of declarations that stand inside of others, and one
for each builder of declarations of a module, whose own names are those of name nodes
(`Declaration.NamedIn`); a parameter without a name is called by its number (`Variable.NamedIn`).
-/

namespace C3Lens

/-! ## Spelled names -/

/-- The name is empty, or the place spells it at its range. -/
def Declaration.SpelledIn (d : Declaration) (p : Place) (lines : LineTable) : Prop :=
  d.name = "" ∨ p.Spells lines d.name d.nameRange

/-- The names of the members are spelled. -/
def SpelledMembers (ms : List Member) (p : Place) (lines : LineTable) : Prop :=
  ∀ m ∈ ms, m.toDeclaration.SpelledIn p lines

/-- What is behind the type in the name is empty, or the place spells it at the range of the name. -/
def Function.SpelledIn (f : Function) (p : Place) (lines : LineTable) : Prop :=
  ∃ written, (f.name = written ∨ ∃ type, f.name = type ++ "." ++ written) ∧
    (written = "" ∨ p.Spells lines written f.nameRange)

/-- The name is empty, or the place names it at its range. -/
def Declaration.NamedIn (d : Declaration) (p : Place) (lines : LineTable) : Prop :=
  d.name = "" ∨ p.Names lines d.name d.nameRange

/-- The name is that of a parameter without a name, or the place names it at its range. -/
def Variable.NamedIn (v : Variable) (p : Place) (lines : LineTable) : Prop :=
  (∃ index : Nat, v.name = "$arg" ++ toString index) ∨ p.Names lines v.name v.nameRange

/-- What is behind the type in the name is empty, or the place names it at the range of the name; the
parameters are named, and the place names the local variables. -/
structure Function.NamedIn (f : Function) (p : Place) (lines : LineTable) : Prop where
  own : ∃ written, (f.name = written ∨ ∃ type, f.name = type ++ "." ++ written) ∧
    (written = "" ∨ p.Names lines written f.nameRange)
  parameters : ∀ v ∈ f.parameters.values, v.NamedIn p lines
  locals : ∀ v ∈ f.locals, p.Names lines v.name v.nameRange

theorem Function.NamedIn.spelled {f : Function} {p : Place} {lines : LineTable} (h : f.NamedIn p lines) :
    f.SpelledIn p lines := by
  obtain ⟨written, called, named⟩ := h.own
  exact ⟨written, called, named.imp_right Place.Names.spells⟩

namespace Outline

/-! ## Results of builders -/

/-- What the builder yields has the property, whatever work is pending. -/
def Gives {α : Type} (scope : Scope) (b : Outline α) (P : α → Prop) : Prop :=
  ∀ q : Pending, P (b.result scope q).1

section Gives

variable {α β : Type} {scope : Scope} {b : Outline α} {k : α → Outline β} {P : α → Prop} {Q : β → Prop}

theorem Gives.bind (hb : Gives scope b P) (hk : ∀ a, P a → Gives scope (k a) Q) :
    Gives scope (b >>= k) Q :=
  fun q => hk _ (hb q) _

theorem Gives.skip (hk : ∀ a, Gives scope (k a) Q) : Gives scope (b >>= k) Q :=
  fun _ => hk _ _

theorem Gives.pure {a : α} (h : P a) : Gives scope (pure a) P :=
  fun _ => h

theorem Gives.read {k : Scope → Outline β} (hk : Gives scope (k scope) Q) :
    Gives scope (read >>= k) Q :=
  fun q => hk q

theorem gives_mapM {as : List α} {c : α → Outline β} (h : ∀ a ∈ as, Gives scope (c a) Q) :
    Gives scope (as.mapM c) fun bs => ∀ b ∈ bs, Q b := by
  induction as with
  | nil => exact Gives.pure fun b hb => absurd hb List.not_mem_nil
  | cons a as ih =>
    rw [List.mapM_cons]
    refine Gives.bind (h a List.mem_cons_self) fun b hb => ?_
    refine Gives.bind (ih fun c hc => h c (List.mem_cons_of_mem _ hc)) fun bs hbs => Gives.pure ?_
    exact List.forall_mem_cons.2 ⟨hb, hbs⟩

end Gives

variable (scope : Scope)

theorem gives_nameOf (p : Place) :
    Gives scope (nameOf p) fun n => n.1 = "" ∨ p.Spells scope.lines n.1 n.2 := by
  refine Gives.read ?_
  split
  next leaf found => exact Gives.pure (.inr (Place.spells_of_nameLeaf? found scope))
  next => exact Gives.pure (.inl rfl)

/-! ## Members -/

variable {root p : Place}

theorem gives_inlineMemberOf (below : p.descendants ⊆ root.descendants) (host? : Option String) :
    Gives scope (inlineMemberOf p host?) fun ms => SpelledMembers ms root scope.lines := by
  refine Gives.read ?_
  split
  next => exact Gives.pure fun m hm => absurd hm List.not_mem_nil
  next typePlace _ =>
    refine Gives.skip fun type => ?_
    have finish : ∀ d : Declaration, d.SpelledIn root scope.lines →
        Gives scope (pure [{ plainMember d type with awaitsExpansion := true }])
          fun ms => SpelledMembers ms root scope.lines :=
      fun d hd => Gives.pure fun m hm => List.mem_singleton.1 hm ▸ hd
    cases found : p.nameLeaf? with
    | none =>
      dsimp only
      split
      · exact Gives.skip fun _ => finish _ (.inl rfl)
      · exact finish _ (.inl rfl)
    | some leaf =>
      have spelled := (Place.spells_of_nameLeaf? found scope).mono below
      dsimp only
      split
      · exact Gives.skip fun _ => finish _ (.inr spelled)
      · exact finish _ (.inr spelled)

theorem gives_nestedMemberOf (below : p.descendants ⊆ root.descendants) (keyword : Token)
    {nested : List Member} (h : SpelledMembers nested root scope.lines) :
    Gives scope (nestedMemberOf p keyword nested) fun ms => SpelledMembers ms root scope.lines := by
  refine Gives.read ?_
  split
  next => exact Gives.pure h
  next leaf found =>
    refine Gives.skip fun type? => Gives.pure fun m hm => ?_
    rw [List.mem_singleton.1 hm]
    exact .inr ((Place.spells_of_nameLeaf? found scope).mono below)

theorem gives_fieldsOf (below : p.descendants ⊆ root.descendants) :
    Gives scope (fieldsOf p) fun ms => SpelledMembers ms root scope.lines := by
  refine Gives.read (Gives.skip fun type? => ?_)
  cases type? with
  | none => exact Gives.pure fun m hm => absurd hm List.not_mem_nil
  | some type =>
    refine Gives.pure fun m hm => ?_
    obtain ⟨leaf, mem, rfl⟩ := List.mem_map.1 hm
    exact .inr ((Place.spells_of_mem_nameLeaves mem scope).mono below)

mutual

theorem gives_membersOf (host? : Option String) (start : Nat) (ts : List Tree)
    (below : Tree.placesOfList start ts ⊆ root.descendants) :
    Gives scope (membersOf host? start ts) fun ms => SpelledMembers ms root scope.lines := by
  match ts with
  | [] => exact Gives.pure fun m hm => absurd hm List.not_mem_nil
  | t :: ts =>
    rw [membersOf]
    rw [Tree.placesOfList, List.append_subset] at below
    refine Gives.bind (gives_membersOfPart host? start t below.1) fun ms hms => ?_
    refine Gives.bind (gives_membersOf host? _ ts below.2) fun ns hns => Gives.pure ?_
    exact List.forall_mem_append.2 ⟨hms, hns⟩

theorem gives_membersOfPart (host? : Option String) (start : Nat) (t : Tree)
    (below : t.placesFrom start ⊆ root.descendants) :
    Gives scope (membersOfPart host? start t) fun ms => SpelledMembers ms root scope.lines := by
  match t with
  | .leaf _ => exact Gives.pure fun m hm => absurd hm List.not_mem_nil
  | .node kind parts =>
    by_cases declares : kind = .memberDecl
    · subst declares
      have here : Place.descendants ⟨start, .node .memberDecl parts⟩ ⊆ root.descendants := below
      rw [membersOfPart]
      split
      · exact gives_inlineMemberOf scope here host?
      split
      · have inner : Tree.placesOfList start parts ⊆ root.descendants :=
          List.Subset.trans (Place.descendants_of_children ⟨start, .node .memberDecl parts⟩) here
        refine Gives.bind (gives_membersOfBody start parts inner) fun nested hn => ?_
        exact gives_nestedMemberOf scope here _ hn
      · exact gives_fieldsOf scope here
    · rw [membersOfPart]
      · exact Gives.pure fun m hm => absurd hm List.not_mem_nil
      · exact fun parts same => declares (Tree.node.inj same).1

theorem gives_membersOfBody (start : Nat) (ts : List Tree)
    (below : Tree.placesOfList start ts ⊆ root.descendants) :
    Gives scope (membersOfBody start ts) fun ms => SpelledMembers ms root scope.lines := by
  match ts with
  | [] => exact Gives.pure fun m hm => absurd hm List.not_mem_nil
  | .leaf t :: ts =>
    rw [Tree.placesOfList, List.append_subset] at below
    rw [membersOfBody]
    · exact gives_membersOfBody _ ts below.2
    · simp
  | .node kind parts :: ts =>
    rw [Tree.placesOfList, List.append_subset] at below
    by_cases body : kind = .structBody
    · subst body
      rw [membersOfBody]
      refine gives_membersOf none start parts ?_
      exact List.Subset.trans (Place.descendants_of_children ⟨start, .node .structBody parts⟩) below.1
    · rw [membersOfBody]
      · exact gives_membersOfBody _ ts below.2
      · exact fun parts same => body (Tree.node.inj same).1

end

theorem gives_membersBelow (below : p.descendants ⊆ root.descendants) (owner : String)
    (host? : Option String) :
    Gives scope (membersBelow p owner host?) fun ms => SpelledMembers ms root scope.lines := by
  unfold membersBelow
  split
  next body found =>
    have inner := Place.descendants_subset_of_find? found below
    have parts := List.Subset.trans body.descendants_of_children inner
    refine Gives.bind (gives_membersOf scope host? _ _ parts) fun ms hms => Gives.pure fun m hm => ?_
    obtain ⟨n, hn, rfl⟩ := List.mem_map.1 hm
    exact hms n hn
  next => exact Gives.pure fun m hm => absurd hm List.not_mem_nil

theorem gives_structOf (below : p.descendants ⊆ root.descendants) (comment? : Option DocComment) :
    Gives scope (structOf p comment?) fun a => SpelledMembers a.members root scope.lines :=
  Gives.skip fun _ => Gives.bind (gives_membersBelow scope below _ _) fun _ hms => Gives.pure hms

theorem gives_bitstructOf (below : p.descendants ⊆ root.descendants) (comment? : Option DocComment) :
    Gives scope (bitstructOf p comment?) fun b => SpelledMembers b.members root scope.lines :=
  Gives.skip fun _ => Gives.skip fun _ => Gives.bind (gives_membersBelow scope below _ _) fun _ hms =>
    Gives.pure hms

/-! ## Enumerators and fault values -/

theorem gives_enumOf (below : p.descendants ⊆ root.descendants) (comment? : Option DocComment) :
    Gives scope (enumOf p comment?) fun e =>
      ∀ v ∈ e.enumerators, v.toDeclaration.SpelledIn root scope.lines := by
  refine Gives.read (Gives.skip fun d => ?_)
  extract_lets places withValues
  have inside : ∀ q ∈ places, q.descendants ⊆ root.descendants := by
    intro q hq
    unfold places at hq
    split at hq
    next body found =>
      have inner := Place.descendants_subset_of_find? found below
      exact List.Subset.trans (Place.descendants_subset (List.mem_filter.1 hq).1) inner
    next => cases hq
  have enum : ∀ values : List Variable, Gives scope (withValues values) fun e =>
      ∀ v ∈ e.enumerators, v.toDeclaration.SpelledIn root scope.lines := by
    intro values
    refine Gives.bind (gives_mapM (Q := fun v => v.toDeclaration.SpelledIn root scope.lines)
      fun q hq => ?_) fun enumerators hes => Gives.pure hes
    refine Gives.bind (gives_nameOf scope q) fun n hn => Gives.pure ?_
    exact hn.imp_right fun spelled => spelled.mono (inside q hq)
  split
  · exact Gives.skip fun values => enum values
  · exact enum []

theorem gives_faultConstantsBelow (below : p.descendants ⊆ root.descendants) (fault? : Option String)
    (comment? : Option DocComment) :
    Gives scope (faultConstantsBelow p fault? comment?) fun cs =>
      ∀ c ∈ cs, c.toDeclaration.SpelledIn root scope.lines := by
  refine Gives.read (Gives.pure fun c hc => ?_)
  obtain ⟨leaf, mem, rfl⟩ := List.mem_map.1 hc
  exact .inr ((Place.spells_of_mem_nameLeaves mem scope).mono below)

theorem gives_faultOf (below : p.descendants ⊆ root.descendants) (comment? : Option DocComment) :
    Gives scope (faultOf p comment?) fun f =>
      ∀ c ∈ f.constants, c.toDeclaration.SpelledIn root scope.lines := by
  refine Gives.skip fun d => ?_
  dsimp only
  split
  next body found =>
    have inner := Place.descendants_subset_of_find? found below
    exact Gives.bind (gives_faultConstantsBelow scope inner _ _) fun cs hcs => Gives.pure hcs
  next => exact Gives.pure fun c hc => absurd hc List.not_mem_nil

/-! ## Declarations of a module -/

theorem gives_names (p : Place) :
    Gives scope (nameOf p) fun n => n.1 = "" ∨ p.Names scope.lines n.1 n.2 := by
  refine Gives.read ?_
  split
  next leaf found => exact Gives.pure (.inr (Place.names_of_nameLeaf? found scope))
  next => exact Gives.pure (.inl rfl)

theorem gives_named (below : p.descendants ⊆ root.descendants) (comment? : Option DocComment) :
    Gives scope (declarationOf p comment?) fun d => d.NamedIn root scope.lines :=
  Gives.read (Gives.bind (gives_names scope p) fun _ hn =>
    Gives.pure (hn.imp_right fun names => names.mono below))

theorem named_structOf (below : p.descendants ⊆ root.descendants) (comment? : Option DocComment) :
    Gives scope (structOf p comment?) fun a => a.toDeclaration.NamedIn root scope.lines :=
  Gives.bind (gives_named scope below comment?) fun _ hd => Gives.skip fun _ => Gives.pure hd

theorem named_bitstructOf (below : p.descendants ⊆ root.descendants) (comment? : Option DocComment) :
    Gives scope (bitstructOf p comment?) fun b => b.toDeclaration.NamedIn root scope.lines :=
  Gives.bind (gives_named scope below comment?) fun _ hd => Gives.skip fun _ => Gives.skip fun _ =>
    Gives.pure hd

theorem named_enumOf (below : p.descendants ⊆ root.descendants) (comment? : Option DocComment) :
    Gives scope (enumOf p comment?) fun e => e.toDeclaration.NamedIn root scope.lines := by
  refine Gives.read (Gives.bind (gives_named scope below comment?) fun d hd => ?_)
  extract_lets places withValues
  have enum : ∀ values : List Variable, Gives scope (withValues values) fun e =>
      e.toDeclaration.NamedIn root scope.lines := fun values => Gives.skip fun _ => Gives.pure hd
  split
  · exact Gives.skip fun values => enum values
  · exact enum []

theorem named_faultOf (below : p.descendants ⊆ root.descendants) (comment? : Option DocComment) :
    Gives scope (faultOf p comment?) fun f => f.toDeclaration.NamedIn root scope.lines := by
  refine Gives.bind (gives_named scope below comment?) fun d hd => ?_
  dsimp only
  split
  · exact Gives.skip fun _ => Gives.pure hd
  · exact Gives.pure hd

theorem named_faultConstantsBelow (below : p.descendants ⊆ root.descendants) (fault? : Option String)
    (comment? : Option DocComment) :
    Gives scope (faultConstantsBelow p fault? comment?) fun cs =>
      ∀ c ∈ cs, c.toDeclaration.NamedIn root scope.lines := by
  refine Gives.read (Gives.pure fun c hc => ?_)
  obtain ⟨leaf, mem, rfl⟩ := List.mem_map.1 hc
  exact .inr ((Place.names_of_mem_nameLeaves mem scope).mono below)

theorem named_interfaceOf (below : p.descendants ⊆ root.descendants) (comment? : Option DocComment) :
    Gives scope (interfaceOf p comment?) fun i => i.toDeclaration.NamedIn root scope.lines := by
  refine Gives.bind (gives_named scope below comment?) fun d hd => ?_
  dsimp only
  split
  · exact Gives.skip fun _ => Gives.pure hd
  · exact Gives.pure hd

theorem named_distinctOf (below : p.descendants ⊆ root.descendants) (comment? : Option DocComment) :
    Gives scope (distinctOf p comment?) fun d => d.toDeclaration.NamedIn root scope.lines :=
  Gives.bind (gives_named scope below comment?) fun _ hd => Gives.skip fun _ => Gives.pure hd

theorem named_aliasOf (below : p.descendants ⊆ root.descendants) (comment? : Option DocComment) :
    Gives scope (aliasOf p comment?) fun a => a.toDeclaration.NamedIn root scope.lines := by
  refine Gives.bind (gives_named scope below comment?) fun d hd => Gives.skip fun type? => ?_
  split
  · exact Gives.pure hd
  · split
    · exact Gives.pure hd
    · exact Gives.pure hd

theorem named_variablesOf (below : p.descendants ⊆ root.descendants) (comment? : Option DocComment) :
    Gives scope (variablesOf p comment?) fun vs =>
      ∀ v ∈ vs, root.Names scope.lines v.name v.nameRange := by
  refine Gives.read (Gives.skip fun type => Gives.pure fun v hv => ?_)
  obtain ⟨leaf, mem, rfl⟩ := List.mem_map.1 hv
  exact (Place.names_of_mem_nameLeaves mem scope).mono below

theorem named_parameterOf (below : p.descendants ⊆ root.descendants) (index : Nat)
    (receiver? : Option String) :
    Gives scope (parameterOf p index receiver?) fun v => v.NamedIn root scope.lines := by
  refine Gives.read ?_
  cases found : p.nameLeaf? with
  | none =>
    refine Gives.skip fun type? => ?_
    split
    · exact Gives.skip fun _ => Gives.pure (.inl ⟨index, rfl⟩)
    · exact Gives.skip fun _ => Gives.skip fun _ => Gives.pure (.inl ⟨index, rfl⟩)
  | some leaf =>
    have names := (Place.names_of_nameLeaf? found scope).mono below
    refine Gives.skip fun type? => ?_
    split
    · exact Gives.skip fun _ => Gives.pure (.inr names)
    · exact Gives.skip fun _ => Gives.skip fun _ => Gives.pure (.inr names)

theorem named_parametersOf {ps : List Place} (below : ∀ q ∈ ps, q.descendants ⊆ root.descendants)
    (receiver? : Option String) (index : Nat) :
    Gives scope (parametersOf receiver? index ps) fun vs => ∀ v ∈ vs, v.NamedIn root scope.lines := by
  induction ps generalizing index with
  | nil => exact Gives.pure fun v hv => absurd hv List.not_mem_nil
  | cons q ps ih =>
    refine Gives.bind (named_parameterOf scope (below q List.mem_cons_self) index receiver?) fun v hv => ?_
    refine Gives.bind (ih (fun r hr => below r (List.mem_cons_of_mem _ hr)) _) fun vs hvs => ?_
    exact Gives.pure (List.forall_mem_cons.2 ⟨hv, hvs⟩)

theorem named_localsOf {ps : List Place} (below : ∀ q ∈ ps, q.descendants ⊆ root.descendants) :
    Gives scope (localsOf ps) fun vs => ∀ v ∈ vs, root.Names scope.lines v.name v.nameRange := by
  induction ps with
  | nil => exact Gives.pure fun v hv => absurd hv List.not_mem_nil
  | cons q ps ih =>
    refine Gives.bind (named_variablesOf scope (below q List.mem_cons_self) none) fun vs hvs => ?_
    refine Gives.bind (ih fun r hr => below r (List.mem_cons_of_mem _ hr)) fun ws hws => Gives.pure ?_
    exact List.forall_mem_append.2 ⟨hvs, hws⟩

theorem named_functionOf (below : p.descendants ⊆ root.descendants) (comment? : Option DocComment) :
    Gives scope (functionOf p comment?) fun f => f.NamedIn root scope.lines := by
  refine Gives.skip fun returns => Gives.bind (gives_named scope below comment?) fun d hd => ?_
  extract_lets name kind withParameters
  have called : name = d.name ∨ ∃ type, name = type ++ "." ++ d.name := by
    unfold name
    split
    · exact .inr ⟨_, rfl⟩
    · exact .inl rfl
  have values : ∀ vs : List Variable, (∀ v ∈ vs, v.NamedIn root scope.lines) →
      ∀ v ∈ (Table.ofList (vs.map fun v => (v.name, v))).values, v.NamedIn root scope.lines := by
    intro vs hvs v hv
    obtain ⟨e, he, rfl⟩ := List.mem_map.1 (Table.values_ofList_subset _ hv)
    obtain ⟨w, hw, rfl⟩ := List.mem_map.1 he
    exact hvs w hw
  have function : ∀ vs : List Variable, (∀ v ∈ vs, v.NamedIn root scope.lines) →
      Gives scope (withParameters vs) fun f => f.NamedIn root scope.lines := by
    intro vs hvs
    dsimp only [withParameters]
    split
    next body found =>
      have inner := Place.descendants_subset_of_find? found below
      refine Gives.bind (named_localsOf scope fun q hq => ?_) fun locals hls =>
        Gives.pure ⟨⟨d.name, called, hd⟩, values vs hvs, hls⟩
      exact List.Subset.trans (Tree.placesFrom_subset_of_mem _ (List.mem_filter.1 hq).1) inner
    next =>
      exact Gives.pure ⟨⟨d.name, called, hd⟩, values vs hvs, fun v hv => absurd hv List.not_mem_nil⟩
  split
  next list found =>
    have inner := Place.descendants_subset_of_find? found below
    refine Gives.bind (named_parametersOf scope (fun q hq => ?_) _ _) fun vs hvs => function vs hvs
    exact List.Subset.trans (Place.descendants_subset (List.mem_filter.1 hq).1) inner
  next => exact function [] fun v hv => absurd hv List.not_mem_nil

/-! ## Methods of interfaces -/

theorem gives_methodsOf {ps : List (List Tree × Place)}
    (below : ∀ q ∈ ps, q.2.descendants ⊆ root.descendants) :
    Gives scope (methodsOf ps) fun fs => ∀ f ∈ fs, f.NamedIn root scope.lines := by
  induction ps with
  | nil => exact Gives.pure fun f hf => absurd hf List.not_mem_nil
  | cons q ps ih =>
    have rest := ih fun r hr => below r (List.mem_cons_of_mem _ hr)
    unfold methodsOf
    split
    · refine Gives.bind (named_functionOf scope (below q List.mem_cons_self) _) fun f hf => ?_
      exact Gives.bind rest fun fs hfs => Gives.pure (List.forall_mem_cons.2 ⟨hf, hfs⟩)
    · exact rest

theorem placesWithPrevious_subset {start : Nat} {previous ts : List Tree} {q : List Tree × Place}
    (h : q ∈ placesWithPrevious start previous ts) : q.2.descendants ⊆ Tree.placesOfList start ts := by
  induction ts generalizing start previous with
  | nil => cases h
  | cons t ts ih =>
    rw [Tree.placesOfList]
    rcases List.mem_cons.1 h with rfl | later
    · exact List.subset_append_left _ _
    · exact List.subset_append_of_subset_right _ (ih later)

theorem gives_interfaceOf (below : p.descendants ⊆ root.descendants) (comment? : Option DocComment) :
    Gives scope (interfaceOf p comment?) fun i =>
      ∃ fs : List Function, i.methods = .ofList (fs.map fun f => (f.name, f)) ∧
        ∀ f ∈ fs, f.NamedIn root scope.lines := by
  refine Gives.skip fun d => ?_
  dsimp only
  split
  next body found =>
    have inner := Place.descendants_subset_of_find? found below
    have parts := List.Subset.trans body.descendants_of_children inner
    refine Gives.bind (gives_methodsOf scope fun q hq => ?_) fun fs hfs => Gives.pure ⟨fs, rfl, hfs⟩
    exact List.Subset.trans (placesWithPrevious_subset hq) parts
  next => exact Gives.pure ⟨[], rfl, fun f hf => absurd hf List.not_mem_nil⟩

end Outline

end C3Lens
