import C3Lens.Outline.Types
import C3Lens.Proofs.Pending
import C3Lens.Proofs.Symbol.Types

/-!
# What a builder records for its types

A builder of symbols only adds to the pending work (`Pending.Grows`), and each type of its result
whose module has to be found is recorded (`Pending.Covers`). `Outline.Yields` says both of a
builder; its rules follow the way builders are put together.
-/

namespace C3Lens

namespace TypeRef

/-- Whether the module of the type is found by resolution: it names a user-defined type. -/
def isUser (t : TypeRef) : Bool :=
  !t.isBuiltin && !t.isGenericParameter && t.name != ""

/-- The names and modules of the types whose module is found by resolution. -/
def usesOf (ts : List TypeRef) : List (String × String) :=
  (ts.filter isUser).map fun t => (t.name, t.moduleName)

@[simp] theorem usesOf_nil : usesOf [] = [] := rfl

@[simp] theorem usesOf_append (ts us : List TypeRef) : usesOf (ts ++ us) = usesOf ts ++ usesOf us := by
  rw [usesOf, List.filter_append, List.map_append, usesOf, usesOf]

theorem usesOf_cons (t : TypeRef) (ts : List TypeRef) : usesOf (t :: ts) = usesOf [t] ++ usesOf ts :=
  usesOf_append [t] ts

@[simp] theorem usesOf_flatMap {α : Type} (f : α → List TypeRef) (as : List α) :
    usesOf (as.flatMap f) = as.flatMap fun a => usesOf (f a) := by
  induction as with
  | nil => rfl
  | cons a as ih => rw [List.flatMap_cons, usesOf_append, ih, List.flatMap_cons]

theorem mem_usesOf {ts : List TypeRef} {t : TypeRef} (h : t ∈ ts) (user : t.isUser = true) :
    (t.name, t.moduleName) ∈ usesOf ts :=
  List.mem_map.2 ⟨t, List.mem_filter.2 ⟨h, user⟩, rfl⟩

/-- The uses of the type and of its arguments. -/
def uses (t : TypeRef) : List (String × String) :=
  usesOf t.parts

theorem uses_eq (t : TypeRef) : t.uses = usesOf [t] ++ usesOf (partsOfList t.arguments) := by
  rw [uses, parts_eq, usesOf_cons]

/-- Marks and arguments of a type do not change its own use. -/
theorem usesOf_marked (t : TypeRef) (pointers : Nat) (isOptional : Bool) (arguments : List TypeRef)
    (isCollection : Bool) (size? : Option Nat) :
    usesOf [{ t with
      pointers := pointers
      isOptional := isOptional
      arguments := arguments
      isCollection := isCollection
      size? := size? }] = usesOf [t] := by
  rw [usesOf, usesOf, List.filter_cons, List.filter_cons]
  show List.map _ (if t.isUser then _ else _) = _
  split
  · rfl
  · rfl

/-- Marks of a type do not change its uses. -/
theorem uses_marked (t : TypeRef) (pointers : Nat) (isOptional isCollection : Bool)
    (size? : Option Nat) :
    uses { t with
      pointers := pointers
      isOptional := isOptional
      isCollection := isCollection
      size? := size? } = t.uses := by
  rw [uses_eq, usesOf_marked, uses_eq]

@[simp] theorem uses_builtin (name : String) : (builtin name).uses = [] := rfl

@[simp] theorem uses_none : none.uses = [] := rfl

end TypeRef

namespace Pending

/-! ## Growth of the pending work -/

/-- `q` is `p` with more work of one module of one document. -/
inductive Grows (doc : DocId) (context : String) (p : Pending) : Pending → Prop where
  | refl : Grows doc context p p
  | addType {q : Pending} (name written : String) :
      Grows doc context p q → Grows doc context p (q.addType ⟨doc, context, name, written⟩)
  | addInline {q : Pending} (structName inlined : String) :
      Grows doc context p q → Grows doc context p (q.addInline ⟨doc, context, structName, inlined⟩)

section Grows

variable {doc : DocId} {context : String} {p q r : Pending}

theorem Grows.trans (h : Grows doc context p q) (k : Grows doc context q r) : Grows doc context p r := by
  induction k with
  | refl => exact h
  | addType name written _ ih => exact ih.addType name written
  | addInline structName inlined _ ih => exact ih.addInline structName inlined

theorem Grows.types_subset (h : Grows doc context p q) : p.types ⊆ q.types := by
  induction h with
  | refl => exact List.Subset.refl _
  | addType _ _ _ ih => exact fun t ht => mem_types_addType.2 (.inl (ih ht))
  | addInline _ _ _ ih => exact ih

theorem Grows.tidy (h : Grows doc context p q) (hp : p.Tidy) : q.Tidy := by
  induction h with
  | refl => exact hp
  | addType _ _ _ ih => exact ih.addType _
  | addInline _ _ _ ih => exact ih.of_groups rfl

theorem Grows.belongsTo (h : Grows doc context p q) (hp : p.BelongsTo doc) : q.BelongsTo doc := by
  induction h with
  | refl => exact hp
  | addType _ _ _ ih =>
    refine ⟨fun t ht => ?_, ih.inlines⟩
    rcases mem_types_addType.1 ht with ht | rfl
    · exact ih.types t ht
    · rfl
  | addInline _ _ _ ih =>
    refine ⟨ih.types, fun i hi => ?_⟩
    rcases mem_addNew.1 hi with hi | rfl
    · exact ih.inlines i hi
    · rfl

end Grows

/-! ## Covered uses -/

/-- Each of the uses is recorded, as one in the module of the document. -/
def Covers (p : Pending) (doc : DocId) (context : String) (uses : List (String × String)) : Prop :=
  ∀ u ∈ uses, ⟨doc, context, u.1, u.2⟩ ∈ p.types

section Covers

variable {p q : Pending} {doc : DocId} {context : String} {us vs : List (String × String)}

theorem covers_nil : p.Covers doc context [] := by
  intro u hu
  cases hu

theorem Covers.subset (h : p.Covers doc context vs) (sub : us ⊆ vs) : p.Covers doc context us :=
  fun u hu => h u (sub hu)

theorem Covers.grow (h : p.Covers doc context us) (sub : p.types ⊆ q.types) :
    q.Covers doc context us :=
  fun u hu => sub (h u hu)

theorem covers_append :
    p.Covers doc context (us ++ vs) ↔ p.Covers doc context us ∧ p.Covers doc context vs := by
  constructor
  · exact fun h => ⟨h.subset (List.subset_append_left _ _), h.subset (List.subset_append_right _ _)⟩
  · rintro ⟨hus, hvs⟩ u hu
    rcases List.mem_append.1 hu with hu | hu
    · exact hus u hu
    · exact hvs u hu

end Covers

end Pending

namespace Outline

/-! ## Builders -/

/-- Runs a builder. -/
def result {α : Type} (b : Outline α) (scope : Scope) (p : Pending) : α × Pending :=
  (b.run scope).run p

/-- Where the uses `given` are covered, the builder only adds to the pending work, and the uses
of its result are covered as well. -/
def Yields {α : Type} (scope : Scope) (given : List (String × String)) (b : Outline α)
    (uses : α → List (String × String)) : Prop :=
  ∀ p : Pending, p.Covers scope.doc scope.moduleName given →
    p.Grows scope.doc scope.moduleName (b.result scope p).2 ∧
      (b.result scope p).2.Covers scope.doc scope.moduleName (uses (b.result scope p).1)

section Yields

variable {α β : Type} {scope : Scope} {given : List (String × String)} {b : Outline α}
  {k : α → Outline β} {f : α → List (String × String)} {g : β → List (String × String)}

theorem Yields.bind (hb : Yields scope given b f) (hk : ∀ a, Yields scope (given ++ f a) (k a) g) :
    Yields scope given (b >>= k) g := by
  intro p hp
  obtain ⟨grows, covers⟩ := hb p hp
  have both := Pending.covers_append.2 ⟨hp.grow grows.types_subset, covers⟩
  obtain ⟨grows', covers'⟩ := hk _ _ both
  exact ⟨grows.trans grows', covers'⟩

theorem Yields.pure {a : α} (h : f a ⊆ given) : Yields scope given (pure a) f :=
  fun _ hp => ⟨.refl, hp.subset h⟩

theorem Yields.read {k : Scope → Outline β} (hk : Yields scope given (k scope) g) :
    Yields scope given (read >>= k) g :=
  fun p hp => hk p hp

theorem yields_addType (name written : String) :
    Yields scope given (modify (·.addType ⟨scope.doc, scope.moduleName, name, written⟩))
      fun _ => [(name, written)] := by
  refine fun p _ => ⟨.addType name written .refl, fun u hu => ?_⟩
  rw [List.mem_singleton.1 hu]
  exact Pending.mem_types_addType.2 (.inr rfl)

theorem yields_addInline (structName inlined : String) :
    Yields scope given (modify (·.addInline ⟨scope.doc, scope.moduleName, structName, inlined⟩))
      fun _ => [] :=
  fun _ _ => ⟨.addInline structName inlined .refl, Pending.covers_nil⟩

end Yields

/-! ## Types -/

variable (scope : Scope) (given : List (String × String))

theorem yields_namedType (name qualifier : String) :
    Yields scope given (namedType name qualifier) TypeRef.uses := by
  refine Yields.read ?_
  dsimp only
  split
  · exact Yields.pure (List.nil_subset _)
  split
  · exact Yields.pure (List.nil_subset _)
  split
  · exact Yields.pure (List.nil_subset _)
  · refine Yields.bind (yields_addType name _) fun _ => Yields.pure ?_
    have own : ∀ written, (TypeRef.user name written).uses ⊆ [(name, written)] := by
      intro written u hu
      obtain ⟨t, ht, rfl⟩ := List.mem_map.1 hu
      rw [List.mem_singleton.1 (List.mem_of_mem_filter ht)]
      exact List.mem_singleton_self _
    exact List.subset_append_of_subset_right _ (own _)

variable {given} in
theorem yields_build {parts : TypeParts}
    (h : TypeRef.usesOf (TypeRef.partsOfList parts.arguments) ⊆ given) :
    Yields scope given parts.build TypeRef.uses := by
  -- The head is the named type, the arguments were covered before.
  have finish : ∀ (type : TypeRef) (us : List (String × String)), TypeRef.usesOf [type] ⊆ us →
      Yields scope (given ++ us) (pure { type with
        arguments := parts.arguments
        pointers := parts.pointers
        isOptional := parts.isOptional
        isCollection := parts.collection?.isSome
        size? := parts.collection?.join }) TypeRef.uses := by
    intro type us hus
    refine Yields.pure ?_
    rw [TypeRef.uses_eq, TypeRef.usesOf_marked, List.append_subset]
    exact ⟨List.subset_append_of_subset_right _ hus, List.subset_append_of_subset_left _ h⟩
  have known : ∀ name, Yields scope given (pure (TypeRef.builtin name) : Outline TypeRef) fun t =>
      TypeRef.usesOf [t] := fun _ => Yields.pure (List.nil_subset _)
  rw [TypeParts.build]
  split
  · exact Yields.bind (known _) fun type => finish type _ (List.Subset.refl _)
  split
  · exact Yields.bind (known _) fun type => finish type _ (List.Subset.refl _)
  · refine Yields.bind (yields_namedType scope given _ _) fun type => finish type _ ?_
    rw [TypeRef.uses_eq]
    exact List.subset_append_left _ _

theorem addToken_arguments (parts : TypeParts) (t : Token) :
    (parts.addToken t).arguments = parts.arguments := by
  rw [TypeParts.addToken]
  split
  · rfl
  · split
    case h_11 => split <;> rfl
    all_goals rfl

mutual

theorem yields_typePartsOf (given : List (String × String)) (done : TypeParts)
    (h : TypeRef.usesOf (TypeRef.partsOfList done.arguments) ⊆ given) (ts : List Tree) :
    Yields scope given (typePartsOf done ts) fun parts =>
      TypeRef.usesOf (TypeRef.partsOfList parts.arguments) := by
  unfold typePartsOf
  split
  · exact Yields.pure h
  · refine yields_typePartsOf _ _ ?_ _
    rwa [addToken_arguments]
  · refine yields_typePartsOf _ _ ?_ _
    exact h
  · refine Yields.bind (yields_argumentTypesOf given _) fun arguments => ?_
    refine yields_typePartsOf _ _ ?_ _
    rw [TypeRef.partsOfList_append, TypeRef.usesOf_append, List.append_subset]
    exact ⟨List.subset_append_of_subset_left _ h, List.subset_append_right _ _⟩
  · refine yields_typePartsOf _ _ ?_ _
    exact h
  · exact yields_typePartsOf given done h _

theorem yields_argumentTypesOf (given : List (String × String)) (ts : List Tree) :
    Yields scope given (argumentTypesOf ts) fun types => TypeRef.usesOf (TypeRef.partsOfList types) := by
  unfold argumentTypesOf
  split
  · exact Yields.pure (List.nil_subset _)
  · refine Yields.bind (yields_typePartsOf _ {} (List.nil_subset _) _) fun parts => ?_
    refine Yields.bind (yields_build scope (List.subset_append_right _ _)) fun type => ?_
    refine Yields.bind (yields_argumentTypesOf _ _) fun types => ?_
    refine Yields.pure ?_
    rw [TypeRef.partsOfList, TypeRef.usesOf_append, List.append_subset]
    refine ⟨?_, List.subset_append_right _ _⟩
    exact List.subset_append_of_subset_left _ (List.subset_append_right _ _)
  · exact yields_argumentTypesOf given _

end

theorem yields_typeOf (t : Tree) :
    Yields scope given (typeOf t) TypeRef.uses := by
  unfold typeOf
  split
  · exact Yields.pure (List.nil_subset _)
  · refine Yields.bind (yields_typePartsOf scope _ {} (List.nil_subset _) _) fun parts => ?_
    exact yields_build scope (List.subset_append_right _ _)

theorem yields_typeBelow? (p : Place) :
    Yields scope given (typeBelow? p) fun type? => (type?.map TypeRef.uses).getD [] := by
  unfold typeBelow?
  split
  · refine Yields.bind (yields_typeOf scope given _) fun type => Yields.pure ?_
    exact List.subset_append_right _ _
  · exact Yields.pure (List.nil_subset _)

theorem yields_typeBelow (p : Place) :
    Yields scope given (typeBelow p) TypeRef.uses := by
  refine Yields.bind (yields_typeBelow? scope given p) fun type? => Yields.pure ?_
  cases type? with
  | none => exact List.nil_subset _
  | some type => exact List.subset_append_right _ _

end Outline

end C3Lens
