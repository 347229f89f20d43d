import C3Lens.Proofs.Outline.Moved
import C3Lens.Proofs.Outline.Names
import C3Lens.Proofs.SymbolStore.Modules
import C3Lens.Proofs.Syntax.ModulePath

/-!
# What is read can be stored

The builders of symbols make what can be stored, where the path of the module and all positions in the
text can be (`Scope.Storable`). So the modules of a text of less than four gigabytes can be stored
(`storable_outlineOfText`), and what happens to modules later keeps this: they are merged, moved and
bound, and structs are given the members of others (`stable_storable`).
-/

namespace C3Lens

/-! ## Types -/

namespace TypeRef

theorem storable_iff {t : TypeRef} : t.Storable ↔
    (t.pointers ≤ mostPointers ∧ ∀ n ∈ t.size?, n ≤ mostCoordinate) ∧
      ∀ u ∈ partsOfList t.arguments, u.pointers ≤ mostPointers ∧ ∀ n ∈ u.size?, n ≤ mostCoordinate := by
  rw [Storable, parts_eq, List.forall_mem_cons]

theorem storable_none : none.Storable :=
  storable_iff.2 ⟨⟨Nat.zero_le _, nofun⟩, fun _ hu => absurd hu List.not_mem_nil⟩

theorem storable_builtin (name : String) : (builtin name).Storable :=
  storable_iff.2 ⟨⟨Nat.zero_le _, nofun⟩, fun _ hu => absurd hu List.not_mem_nil⟩

theorem Storable.mapModule {t : TypeRef} (h : t.Storable) (f : TypeRef → String) :
    (t.mapModule f).Storable := by
  intro u hu
  rw [parts_mapModule] at hu
  obtain ⟨v, hv, rfl⟩ := List.mem_map.1 hu
  have marks := h v hv
  cases v
  exact marks

end TypeRef

theorem mem_partsOfList {ts : List TypeRef} {u : TypeRef} :
    u ∈ TypeRef.partsOfList ts ↔ ∃ t ∈ ts, u ∈ t.parts := by
  induction ts with
  | nil => simp [TypeRef.partsOfList]
  | cons t ts ih => simp [TypeRef.partsOfList, ih]

/-! ## Changes of declarations -/

theorem Declaration.Storable.setDoc {d : Declaration} (h : d.Storable) (doc : DocId) :
    Storable { d with doc := doc } :=
  ⟨h.path, h.nameRange, h.range⟩

namespace Variable.Storable

variable {v : Variable}

theorem mapModule (h : v.Storable) (f : TypeRef → String) : (v.mapModule f).Storable :=
  ⟨h.declaration, h.type.mapModule f⟩

theorem setDoc (h : v.Storable) (doc : DocId) : (v.setDoc doc).Storable :=
  ⟨h.declaration.setDoc doc, h.type⟩

end Variable.Storable

theorem Table.forall_values_map {α β : Type} {f : α → β} {P : β → Prop} {t : Table α}
    (h : ∀ a ∈ t.values, P (f a)) : ∀ b ∈ (t.map f).values, P b := by
  rw [Table.values_map]
  exact List.forall_mem_map.2 h

namespace Function.Storable

variable {f : Function}

theorem mapModule (h : f.Storable) (g : TypeRef → String) : (f.mapModule g).Storable :=
  ⟨h.declaration, h.returns.mapModule g, Table.forall_values_map fun v hv => (h.parameters v hv).mapModule g,
    List.forall_mem_map.2 fun v hv => (h.locals v hv).mapModule g⟩

theorem setDoc (h : f.Storable) (doc : DocId) : (f.setDoc doc).Storable :=
  ⟨h.declaration.setDoc doc, h.returns, Table.forall_values_map fun v hv => (h.parameters v hv).setDoc doc,
    List.forall_mem_map.2 fun v hv => (h.locals v hv).setDoc doc⟩

end Function.Storable

namespace Member

mutual

theorem storable_mapModule (f : TypeRef → String) : (m : Member) → m.Storable → (m.mapModule f).Storable
  | ⟨_, _, _, _, _, body?, _⟩, h =>
    ⟨h.1, h.2.1.mapModule f, h.2.2.1, storableBody_mapModule f body? h.2.2.2⟩

theorem storableBody_mapModule (f : TypeRef → String) : (body? : Option (Aggregate Member)) →
    StorableBody body? → StorableBody (mapModuleOfBody f body?)
  | none, _ => trivial
  | some ⟨_, members, _, _⟩, h => ⟨h.1, storableList_mapModule f members h.2⟩

theorem storableList_mapModule (f : TypeRef → String) : (ms : List Member) → StorableList ms →
    StorableList (mapModuleOfList f ms)
  | [], _ => trivial
  | m :: ms, h => ⟨storable_mapModule f m h.1, storableList_mapModule f ms h.2⟩

end

mutual

theorem storable_setDoc (doc : DocId) : (m : Member) → m.Storable → (m.setDoc doc).Storable
  | ⟨_, _, _, _, _, body?, _⟩, h =>
    ⟨h.1.setDoc doc, h.2.1, h.2.2.1, storableBody_setDoc doc body? h.2.2.2⟩

theorem storableBody_setDoc (doc : DocId) : (body? : Option (Aggregate Member)) →
    StorableBody body? → StorableBody (setDocOfBody doc body?)
  | none, _ => trivial
  | some ⟨_, members, _, _⟩, h => ⟨h.1.setDoc doc, storableList_setDoc doc members h.2⟩

theorem storableList_setDoc (doc : DocId) : (ms : List Member) → StorableList ms →
    StorableList (setDocOfList doc ms)
  | [], _ => trivial
  | m :: ms, h => ⟨storable_setDoc doc m h.1, storableList_setDoc doc ms h.2⟩

end

/-- The state of its expansion and its owner do not matter. -/
theorem Storable.congr {m n : Member} (h : m.Storable) (declaration : n.toDeclaration = m.toDeclaration)
    (type : n.type = m.type) (bits : n.bits? = m.bits?) (body : n.body? = m.body?) : n.Storable := by
  obtain ⟨d, t, bits?, _, _, body?, _⟩ := m
  obtain ⟨d', t', bits?', _, _, body?', _⟩ := n
  dsimp only at declaration type bits body
  subst declaration type bits body
  exact h

end Member

namespace Aggregate.Storable

variable {s : Struct}

theorem mapModule (h : Storable s) (f : TypeRef → String) : Storable (s.mapModule f) :=
  ⟨h.declaration, Member.storableList_iff.2 <| List.forall_mem_map.2 fun m hm =>
    m.storable_mapModule f (Member.storableList_iff.1 h.members m hm)⟩

theorem setDoc (h : Storable s) (doc : DocId) : Storable (s.setDoc doc) :=
  ⟨h.declaration.setDoc doc, Member.storableList_iff.2 <| List.forall_mem_map.2 fun m hm =>
    m.storable_setDoc doc (Member.storableList_iff.1 h.members m hm)⟩

/-- The inherited members are stored like the own ones. -/
theorem inherit (h : Storable s) {inherited : List Member} (others : Member.StorableList inherited)
    (typeName : String) : Storable (s.inherit typeName inherited) := by
  rw [Member.storableList_iff] at others
  have into : ∀ ms members, inheritInto s.name typeName inherited ms = some members →
      (∀ m ∈ ms, m.Storable) → ∀ m ∈ members, m.Storable := by
    intro ms
    induction ms with
    | nil => exact fun _ none => nomatch none
    | cons m ms ih =>
      intro members found own
      rw [List.forall_mem_cons] at own
      rw [inheritInto] at found
      split at found
      · cases found
        refine List.forall_mem_cons.2 ⟨own.1.congr rfl rfl rfl rfl, List.forall_mem_append.2 ⟨?_, own.2⟩⟩
        exact List.forall_mem_map.2 fun n hn => (others n hn).congr rfl rfl rfl rfl
      · obtain ⟨behind, known, rfl⟩ := Option.map_eq_some_iff.1 found
        exact List.forall_mem_cons.2 ⟨own.1, ih behind known own.2⟩
  rw [Aggregate.inherit]
  split
  next members found =>
    exact ⟨h.declaration, Member.storableList_iff.2
      (into _ _ found (Member.storableList_iff.1 h.members))⟩
  next => exact h

end Aggregate.Storable

theorem Bitstruct.Storable.mapModule {b : Bitstruct} (h : b.Storable) (f : TypeRef → String) :
    (b.mapModule f).Storable :=
  ⟨h.declaration, h.backing.mapModule f, Member.storableList_iff.2 <| List.forall_mem_map.2 fun m hm =>
    m.storable_mapModule f (Member.storableList_iff.1 h.members m hm)⟩

theorem Bitstruct.Storable.setDoc {b : Bitstruct} (h : b.Storable) (doc : DocId) :
    (b.setDoc doc).Storable :=
  ⟨h.declaration.setDoc doc, h.backing, Member.storableList_iff.2 <| List.forall_mem_map.2 fun m hm =>
    m.storable_setDoc doc (Member.storableList_iff.1 h.members m hm)⟩

theorem Enum.Storable.mapModule {e : Enum} (h : e.Storable) (f : TypeRef → String) :
    (e.mapModule f).Storable :=
  ⟨h.declaration, h.enumerators, List.forall_mem_map.2 fun v hv => (h.values v hv).mapModule f⟩

theorem Enum.Storable.setDoc {e : Enum} (h : e.Storable) (doc : DocId) : (e.setDoc doc).Storable :=
  ⟨h.declaration.setDoc doc, List.forall_mem_map.2 fun v hv => (h.enumerators v hv).setDoc doc,
    List.forall_mem_map.2 fun v hv => (h.values v hv).setDoc doc⟩

theorem Fault.Storable.setDoc {f : Fault} (h : f.Storable) (doc : DocId) : (f.setDoc doc).Storable :=
  ⟨h.declaration.setDoc doc, List.forall_mem_map.2 fun c hc => (h.constants c hc).setDoc doc⟩

theorem Alias.Storable.mapModule {a : Alias} (h : a.Storable) (f : TypeRef → String) :
    (a.mapModule f).Storable := by
  rw [Alias.mapModule]
  split
  next t known =>
    refine ⟨h.declaration, fun u hu => ?_⟩
    cases hu
    exact (h.type t (by rw [Alias.type?, known]; rfl)).mapModule f
  next => exact h

theorem Alias.Storable.setDoc {a : Alias} (h : a.Storable) (doc : DocId) : (a.setDoc doc).Storable :=
  ⟨h.declaration.setDoc doc, h.type⟩

theorem Distinct.Storable.mapModule {d : Distinct} (h : d.Storable) (f : TypeRef → String) :
    (d.mapModule f).Storable :=
  ⟨h.declaration, h.base.mapModule f⟩

theorem Distinct.Storable.setDoc {d : Distinct} (h : d.Storable) (doc : DocId) :
    (d.setDoc doc).Storable :=
  ⟨h.declaration.setDoc doc, h.base⟩

theorem Interface.Storable.mapModule {i : Interface} (h : i.Storable) (f : TypeRef → String) :
    (i.mapModule f).Storable :=
  ⟨h.declaration, Table.forall_values_map fun g hg => (h.methods g hg).mapModule f⟩

theorem Interface.Storable.setDoc {i : Interface} (h : i.Storable) (doc : DocId) :
    (i.setDoc doc).Storable :=
  ⟨h.declaration.setDoc doc, Table.forall_values_map fun g hg => (h.methods g hg).setDoc doc⟩

namespace Module

variable {m n : Module}

theorem Storable.mapModule (h : m.Storable) (f : TypeRef → String) : (m.mapModule f).Storable :=
  { h with
    globals := Table.forall_values_map fun v hv => (h.globals v hv).mapModule f
    enums := Table.forall_values_map fun e he => (h.enums e he).mapModule f
    structs := Table.forall_values_map fun s hs => (h.structs s hs).mapModule f
    bitstructs := Table.forall_values_map fun b hb => (h.bitstructs b hb).mapModule f
    aliases := Table.forall_values_map fun a ha => (h.aliases a ha).mapModule f
    distincts := Table.forall_values_map fun d hd => (h.distincts d hd).mapModule f
    interfaces := Table.forall_values_map fun i hi => (h.interfaces i hi).mapModule f
    functions := List.forall_mem_map.2 fun g hg => (h.functions g hg).mapModule f }

theorem Storable.setDoc (h : m.Storable) (doc : DocId) : (m.setDoc doc).Storable where
  declaration := h.declaration.setDoc doc
  imports := h.imports
  globals := Table.forall_values_map fun v hv => (h.globals v hv).setDoc doc
  enums := Table.forall_values_map fun e he => (h.enums e he).setDoc doc
  faults := Table.forall_values_map fun f hf => (h.faults f hf).setDoc doc
  faultConstants := Table.forall_values_map fun c hc => (h.faultConstants c hc).setDoc doc
  structs := Table.forall_values_map fun s hs => (h.structs s hs).setDoc doc
  bitstructs := Table.forall_values_map fun b hb => (h.bitstructs b hb).setDoc doc
  aliases := Table.forall_values_map fun a ha => (h.aliases a ha).setDoc doc
  distincts := Table.forall_values_map fun d hd => (h.distincts d hd).setDoc doc
  interfaces := Table.forall_values_map fun i hi => (h.interfaces i hi).setDoc doc
  functions := List.forall_mem_map.2 fun g hg => (h.functions g hg).setDoc doc

theorem Storable.inherit {b : Struct} (h : m.Storable) (inherited : Aggregate.Storable b)
    (structName typeName : String) :
    Storable { m with structs := m.structs.modify structName (·.inherit typeName b.members) } := by
  refine { h with structs := fun s hs => ?_ }
  obtain ⟨name, found⟩ := Table.mem_values_iff.1 hs
  rw [Table.get?_modify] at found
  split at found
  · obtain ⟨a, ha, rfl⟩ := Option.map_eq_some_iff.1 found
    exact (h.structs a (Table.mem_values_iff.2 ⟨name, ha⟩)).inherit inherited.members typeName
  · exact h.structs s (Table.mem_values_iff.2 ⟨name, found⟩)

theorem stable_storable : Stable Storable where
  mapModule _ f h := h.mapModule f
  inherit _ _ structName typeName b home h found :=
    h.inherit (home.structs b (Table.mem_values_iff.2 ⟨typeName, found⟩)) structName typeName

theorem forall_imports_addImports {P : ModulePath → Prop} {paths : List ModulePath}
    (h : ∀ p ∈ m.imports, P p) (new : ∀ p ∈ paths, P p) : ∀ p ∈ (m.addImports paths).imports, P p := by
  induction paths generalizing m with
  | nil => exact h
  | cons path paths ih =>
    rw [List.forall_mem_cons] at new
    refine ih (m := m.addImport path) (fun p hp => ?_) new.2
    rw [addImport] at hp
    split at hp
    · exact h p hp
    · rcases List.mem_append.1 hp with old | same
      · exact h p old
      · exact List.mem_singleton.1 same ▸ new.1

theorem forall_values_insertAll {α : Type} {P : α → Prop} {t s : Table α} (h : ∀ a ∈ t.values, P a)
    (k : ∀ a ∈ s.values, P a) : ∀ a ∈ (t.insertAll s).values, P a := fun a ha =>
  (List.mem_append.1 (Table.values_insertAll_subset t s ha)).elim (h a) (k a)

theorem Storable.merge (h : m.Storable) (k : n.Storable) : (m.merge n).Storable where
  declaration := by
    obtain ⟨imports, same⟩ := addImports_eq m n.imports
    rw [Module.merge, same]
    exact h.declaration
  imports := forall_imports_addImports h.imports k.imports
  globals := forall_values_insertAll h.globals k.globals
  enums := forall_values_insertAll h.enums k.enums
  faults := forall_values_insertAll h.faults k.faults
  faultConstants := forall_values_insertAll h.faultConstants k.faultConstants
  structs := forall_values_insertAll h.structs k.structs
  bitstructs := forall_values_insertAll h.bitstructs k.bitstructs
  aliases := forall_values_insertAll h.aliases k.aliases
  distincts := forall_values_insertAll h.distincts k.distincts
  interfaces := forall_values_insertAll h.interfaces k.interfaces
  functions := List.forall_mem_append.2 ⟨h.functions, k.functions⟩

end Module

/-! ## Builders -/

/-- Whether the path of the module and all positions in the text can be stored. -/
structure Scope.Storable (s : Scope) : Prop where
  path : s.path.Storable
  position : ∀ offset, (s.lines.position offset).Storable

namespace Scope.Storable

variable {s : Scope}

theorem rangeOf (h : s.Storable) (start stop : Nat) : (s.rangeOf start stop).Storable :=
  ⟨h.position start, h.position stop⟩

theorem range (h : s.Storable) (p : Place) : (s.range p).Storable :=
  h.rangeOf p.start p.stop

theorem declaration (h : s.Storable) (name : String) {nameRange range : Range}
    (nameStored : nameRange.Storable) (stored : range.Storable) (comment? : Option DocComment) :
    (s.declaration name nameRange range comment?).Storable :=
  ⟨h.path, nameStored, stored⟩

end Scope.Storable

/-- An integer that is read is of 32 bits. -/
theorem le_of_integerValue? {text : String} {n : Nat} (h : integerValue? text = some n) :
    n ≤ mostCoordinate := by
  have bounded : ∀ {k? : Option Nat},
      (k?.bind fun k => if k < 4294967296 then some k else none) = some n → n ≤ mostCoordinate := by
    intro k? h
    obtain ⟨k, -, h⟩ := Option.bind_eq_some_iff.1 h
    split at h
    next small =>
      cases h
      exact Nat.le_of_lt_succ small
    next => cases h
  unfold integerValue? at h
  dsimp only at h
  split at h
  · exact bounded h
  · exact bounded h
  · exact bounded h
  · exact bounded h

namespace Outline

/-! ### Types -/

/-- Whether the marks and arguments that were read so far can be stored. -/
structure TypeParts.Storable (parts : TypeParts) : Prop where
  pointers : parts.pointers ≤ TypeRef.mostPointers
  arguments : ∀ t ∈ parts.arguments, t.Storable
  size : ∀ n ∈ parts.collection?.join, n ≤ mostCoordinate

theorem TypeParts.storable_empty : TypeParts.Storable {} :=
  ⟨Nat.zero_le _, fun _ ht => absurd ht List.not_mem_nil, nofun⟩

theorem TypeParts.Storable.addToken {parts : TypeParts} (h : parts.Storable) (t : Token) :
    (parts.addToken t).Storable := by
  unfold TypeParts.addToken
  split
  · exact { h with }
  split
  · exact { h with }
  · exact { h with }
  · exact { h with pointers := Nat.min_le_right _ _ }
  · exact { h with }
  · exact { h with }
  · exact h
  · exact h
  · exact h
  · exact h
  · exact h
  · split
    · exact { h with }
    · exact h

theorem le_of_arraySize? {ts : List Tree} {n : Nat} (h : TypeParts.arraySize? ts = some n) :
    n ≤ mostCoordinate := by
  obtain ⟨t, -, h⟩ := Option.bind_eq_some_iff.1 h
  exact le_of_integerValue? h

variable (scope : Scope)

theorem storable_namedType (name qualifier : String) :
    Gives scope (namedType name qualifier) TypeRef.Storable := by
  have plain : ∀ t : TypeRef, t.pointers = 0 → t.size? = none → t.arguments = [] → t.Storable :=
    fun t pointers size arguments => by
      rw [TypeRef.storable_iff, pointers, size, arguments]
      exact ⟨⟨Nat.zero_le _, nofun⟩, fun _ hu => absurd hu List.not_mem_nil⟩
  refine Gives.read ?_
  split
  · exact Gives.pure TypeRef.storable_none
  split
  · exact Gives.pure (TypeRef.storable_builtin name)
  split
  · exact Gives.pure (plain _ rfl rfl rfl)
  · exact Gives.skip fun _ => Gives.pure (plain _ rfl rfl rfl)

/-- The marks and arguments of the parts are those of the type. -/
theorem storable_build {parts : TypeParts} (h : parts.Storable) :
    Gives scope parts.build TypeRef.Storable := by
  have finish : ∀ type : TypeRef, Gives scope (pure { type with
      arguments := parts.arguments
      pointers := parts.pointers
      isOptional := parts.isOptional
      isCollection := parts.collection?.isSome
      size? := parts.collection?.join }) TypeRef.Storable := by
    refine fun type => Gives.pure (TypeRef.storable_iff.2 ⟨⟨h.pointers, h.size⟩, fun u hu => ?_⟩)
    obtain ⟨a, ha, hu⟩ := mem_partsOfList.1 hu
    exact h.arguments a ha u hu
  rw [TypeParts.build]
  split
  · exact Gives.skip finish
  split
  · exact Gives.skip finish
  · exact Gives.skip finish

mutual

theorem storable_typePartsOf (done : TypeParts) (h : done.Storable) (ts : List Tree) :
    Gives scope (typePartsOf done ts) TypeParts.Storable := by
  unfold typePartsOf
  split
  · exact Gives.pure h
  · exact storable_typePartsOf _ (h.addToken _) _
  · refine storable_typePartsOf _ ?_ _
    exact ⟨h.pointers, h.arguments, h.size⟩
  · refine Gives.bind (storable_argumentTypesOf _) fun arguments stored => ?_
    refine storable_typePartsOf _ ?_ _
    exact ⟨h.pointers, List.forall_mem_append.2 ⟨h.arguments, stored⟩, h.size⟩
  · refine storable_typePartsOf _ ?_ _
    exact ⟨h.pointers, h.arguments, fun _ hn => le_of_arraySize? hn⟩
  · exact storable_typePartsOf _ h _

theorem storable_argumentTypesOf (ts : List Tree) :
    Gives scope (argumentTypesOf ts) fun us => ∀ u ∈ us, u.Storable := by
  unfold argumentTypesOf
  split
  · exact Gives.pure fun _ hu => absurd hu List.not_mem_nil
  · refine Gives.bind (storable_typePartsOf _ TypeParts.storable_empty _) fun parts stored => ?_
    refine Gives.bind (storable_build scope stored) fun t ht => ?_
    refine Gives.bind (storable_argumentTypesOf _) fun us hus => Gives.pure ?_
    exact List.forall_mem_cons.2 ⟨ht, hus⟩
  · exact storable_argumentTypesOf _

end

theorem storable_typeOf (t : Tree) : Gives scope (typeOf t) TypeRef.Storable := by
  unfold typeOf
  split
  · exact Gives.pure TypeRef.storable_none
  · exact Gives.bind (storable_typePartsOf scope _ TypeParts.storable_empty _)
      fun _ h => storable_build scope h

theorem storable_typeBelow? (p : Place) :
    Gives scope (typeBelow? p) fun type? => ∀ t ∈ type?, t.Storable := by
  unfold typeBelow?
  split
  · exact Gives.bind (storable_typeOf scope _) fun t ht => Gives.pure fun u hu => Option.some.inj hu ▸ ht
  · exact Gives.pure nofun

theorem storable_typeBelow (p : Place) : Gives scope (typeBelow p) TypeRef.Storable := by
  refine Gives.bind (storable_typeBelow? scope p) fun type? h => Gives.pure ?_
  cases type? with
  | none => exact TypeRef.storable_none
  | some t => exact h t rfl

theorem storable_impliedType (p : Place) (name : String) (receiver? : Option String) :
    Gives scope (impliedType p name receiver?) TypeRef.Storable := by
  unfold impliedType
  split
  · split
    · refine Gives.bind (storable_namedType scope _ _) fun t ht => Gives.pure ?_
      rw [TypeRef.storable_iff] at ht
      split
      · exact TypeRef.storable_iff.2 ⟨⟨Nat.le_of_ble_eq_true rfl, ht.1.2⟩, ht.2⟩
      · exact TypeRef.storable_iff.2 ht
    · exact Gives.pure TypeRef.storable_none
  · split
    · exact Gives.pure (TypeRef.storable_builtin _)
    · exact Gives.pure TypeRef.storable_none

/-! ### Declarations -/

theorem storable_plainMember {d : Declaration} {t : TypeRef} (hd : d.Storable) (ht : t.Storable) :
    (plainMember d t).Storable :=
  ⟨hd, ht, nofun, trivial⟩

theorem le_of_bitsOf? {p : Place} {bits : Nat × Nat} (h : bitsOf? p = some bits) :
    bits.1 ≤ mostCoordinate ∧ bits.2 ≤ mostCoordinate := by
  obtain ⟨q, -, h⟩ := Option.bind_eq_some_iff.1 h
  obtain ⟨low, first, h⟩ := Option.bind_eq_some_iff.1 h
  cases h
  have bounded : ∀ n ∈ ((q.leaves.filterMap fun l => l.tree.token?).filter (·.kind == .intNumber)).filterMap
      (integerValue? ·.text), n ≤ mostCoordinate := by
    intro n hn
    obtain ⟨t, -, ht⟩ := List.mem_filterMap.1 hn
    exact le_of_integerValue? ht
  have low := bounded low (List.mem_of_head? first)
  refine ⟨low, ?_⟩
  dsimp only
  cases second : (((q.leaves.filterMap fun l => l.tree.token?).filter (·.kind == .intNumber)).filterMap
      (integerValue? ·.text))[1]? with
  | none => exact low
  | some high => exact bounded high (List.mem_of_getElem? second)

variable {scope} (hs : scope.Storable) (p : Place) (comment? : Option DocComment)

include hs

theorem storable_nameOf : Gives scope (nameOf p) fun n => n.2.Storable := by
  refine Gives.read ?_
  split
  · exact Gives.pure (hs.range _)
  · exact Gives.pure (hs.rangeOf _ _)

theorem storable_declarationOf : Gives scope (declarationOf p comment?) Declaration.Storable :=
  Gives.read (Gives.bind (storable_nameOf hs p) fun n hn =>
    Gives.pure (hs.declaration n.1 hn (hs.range p) comment?))

theorem storable_variablesOf : Gives scope (variablesOf p comment?) fun vs => ∀ v ∈ vs, v.Storable := by
  refine Gives.read (Gives.bind (storable_typeBelow scope p) fun t ht => Gives.pure ?_)
  exact List.forall_mem_map.2 fun leaf _ =>
    ⟨hs.declaration _ (hs.range leaf) (hs.range p) comment?, ht⟩

/-- The type of a parameter is the one that is written, or else the one that is implied. -/
theorem storable_parameterOf (index : Nat) (receiver? : Option String) :
    Gives scope (parameterOf p index receiver?) Variable.Storable := by
  refine Gives.read ?_
  split
  next name nameRange found =>
  have named : nameRange.Storable := by
    split at found
    next leaf _ =>
      cases found
      exact hs.range leaf
    next =>
      cases found
      exact hs.range p
  have finish : ∀ t : TypeRef, t.Storable →
      Gives scope (pure { scope.declaration name nameRange (scope.range p) none with
          type := t, parameter? := some ⟨p.hasLeaf .ellipsis, defaultOf? p⟩, isConstant := false })
        Variable.Storable :=
    fun _ stored => Gives.pure ⟨hs.declaration name named (hs.range p) none, stored⟩
  refine Gives.bind (storable_typeBelow? scope p) fun type? ht => ?_
  cases type? with
  | some t =>
    have written := TypeRef.storable_iff.1 (ht t rfl)
    refine Gives.bind (Gives.pure ?_) finish
    split
    · exact TypeRef.storable_iff.2 ⟨⟨written.1.1, nofun⟩, written.2⟩
    · exact ht t rfl
  | none =>
    refine Gives.bind (storable_impliedType scope p _ _) fun implied hi => Gives.bind (Gives.pure ?_) finish
    split
    · exact TypeRef.storable_iff.2 ⟨⟨Nat.le_of_ble_eq_true rfl, nofun⟩,
        fun _ hu => absurd hu List.not_mem_nil⟩
    · exact hi

theorem storable_parametersOf (receiver? : Option String) (ps : List Place) (index : Nat) :
    Gives scope (parametersOf receiver? index ps) fun vs => ∀ v ∈ vs, v.Storable := by
  induction ps generalizing index with
  | nil => exact Gives.pure fun v hv => absurd hv List.not_mem_nil
  | cons q ps ih =>
    refine Gives.bind (storable_parameterOf hs q index receiver?) fun v hv => ?_
    exact Gives.bind (ih (index + 1)) fun vs hvs => Gives.pure (List.forall_mem_cons.2 ⟨hv, hvs⟩)

theorem storable_localsOf (ps : List Place) :
    Gives scope (localsOf ps) fun vs => ∀ v ∈ vs, v.Storable := by
  induction ps with
  | nil => exact Gives.pure fun v hv => absurd hv List.not_mem_nil
  | cons q ps ih =>
    refine Gives.bind (storable_variablesOf hs q none) fun vs hvs => ?_
    exact Gives.bind ih fun ws hws => Gives.pure (List.forall_mem_append.2 ⟨hvs, hws⟩)

theorem storable_functionOf : Gives scope (functionOf p comment?) Function.Storable := by
  refine Gives.bind (storable_typeBelow scope p) fun returns hr => ?_
  refine Gives.bind (storable_declarationOf hs p comment?) fun d hd => ?_
  extract_lets name kind withParameters
  have function : ∀ vs : List Variable, (∀ v ∈ vs, v.Storable) →
      Gives scope (withParameters vs) Function.Storable := by
    intro vs hvs
    dsimp only [withParameters]
    split
    · exact Gives.bind (storable_localsOf hs _) fun locals hl => Gives.pure
        ⟨⟨hd.path, hd.nameRange, hd.range⟩, hr, Table.forall_values_ofList hvs, hl⟩
    · exact Gives.pure ⟨⟨hd.path, hd.nameRange, hd.range⟩, hr, Table.forall_values_ofList hvs,
        fun v hv => absurd hv List.not_mem_nil⟩
  split
  · exact Gives.bind (storable_parametersOf hs _ _ _) function
  · exact function [] fun v hv => absurd hv List.not_mem_nil

/-! ### Members -/

theorem storable_inlineMemberOf (host? : Option String) :
    Gives scope (inlineMemberOf p host?) Member.StorableList := by
  refine Gives.read ?_
  split
  next => exact Gives.pure trivial
  next typePlace _ =>
    refine Gives.bind (storable_typeOf scope _) fun t ht => ?_
    have finish : ∀ name nameRange, nameRange.Storable →
        Gives scope (pure [{ plainMember (scope.declaration name nameRange (scope.range p) none) t with
          awaitsExpansion := true }]) Member.StorableList := fun name nameRange named =>
      Gives.pure ⟨storable_plainMember (hs.declaration name named (hs.range p) none) ht, trivial⟩
    cases p.nameLeaf? with
    | none =>
      dsimp only
      split
      · exact Gives.skip fun _ => finish _ _ (hs.range typePlace)
      · exact finish _ _ (hs.range typePlace)
    | some leaf =>
      dsimp only
      split
      · exact Gives.skip fun _ => finish _ _ (hs.range leaf)
      · exact finish _ _ (hs.range leaf)

theorem storable_nestedMemberOf (keyword : Token) {nested : List Member} (h : Member.StorableList nested) :
    Gives scope (nestedMemberOf p keyword nested) Member.StorableList := by
  refine Gives.read ?_
  split
  next => exact Gives.pure h
  next leaf _ =>
    refine Gives.bind (storable_typeBelow? scope p) fun type? ht => Gives.pure ?_
    have own := hs.declaration leaf.text (hs.range leaf) (hs.range p) none
    refine ⟨⟨own, ?_, nofun, own, ?_⟩, trivial⟩
    · cases type? with
      | none => exact TypeRef.storable_builtin _
      | some t => exact ht t rfl
    · rw [Member.storableList_iff] at h ⊢
      exact List.forall_mem_map.2 fun m hm => (h m hm).congr rfl rfl rfl rfl

theorem storable_fieldsOf : Gives scope (fieldsOf p) Member.StorableList := by
  refine Gives.read (Gives.bind (storable_typeBelow? scope p) fun type? ht => ?_)
  cases type? with
  | none => exact Gives.pure trivial
  | some t =>
    refine Gives.pure (Member.storableList_iff.2 (List.forall_mem_map.2 fun leaf _ => ?_))
    exact ⟨hs.declaration leaf.text (hs.range leaf) (hs.range p) none, ht t rfl,
      fun b hb => le_of_bitsOf? hb, trivial⟩


omit hs

mutual

theorem storable_membersOf {scope : Scope} (hs : scope.Storable) (host? : Option String) (start : Nat) (ts : List Tree) :
    Gives scope (membersOf host? start ts) Member.StorableList := by
  match ts with
  | [] => exact Gives.pure trivial
  | t :: ts =>
    rw [membersOf]
    refine Gives.bind (storable_membersOfPart hs host? start t) fun ms hms => ?_
    refine Gives.bind (storable_membersOf hs host? _ ts) fun ns hns => Gives.pure ?_
    rw [Member.storableList_iff] at hms hns ⊢
    exact List.forall_mem_append.2 ⟨hms, hns⟩

theorem storable_membersOfPart {scope : Scope} (hs : scope.Storable) (host? : Option String) (start : Nat) (t : Tree) :
    Gives scope (membersOfPart host? start t) Member.StorableList := by
  match t with
  | .leaf _ => exact Gives.pure trivial
  | .node kind parts =>
    by_cases declares : kind = .memberDecl
    · subst declares
      rw [membersOfPart]
      split
      · exact storable_inlineMemberOf hs _ host?
      split
      · exact Gives.bind (storable_membersOfBody hs start parts) fun nested hn =>
          storable_nestedMemberOf hs _ _ hn
      · exact storable_fieldsOf hs _
    · rw [membersOfPart]
      · exact Gives.pure trivial
      · exact fun parts same => declares (Tree.node.inj same).1

theorem storable_membersOfBody {scope : Scope} (hs : scope.Storable) (start : Nat) (ts : List Tree) :
    Gives scope (membersOfBody start ts) Member.StorableList := by
  match ts with
  | [] => exact Gives.pure trivial
  | .leaf t :: ts =>
    rw [membersOfBody]
    · exact storable_membersOfBody hs _ ts
    · simp
  | .node kind parts :: ts =>
    by_cases body : kind = .structBody
    · subst body
      rw [membersOfBody]
      exact storable_membersOf hs none start parts
    · rw [membersOfBody]
      · exact storable_membersOfBody hs _ ts
      · exact fun parts same => body (Tree.node.inj same).1

end

include hs

theorem storable_membersBelow (owner : String) (host? : Option String) :
    Gives scope (membersBelow p owner host?) Member.StorableList := by
  unfold membersBelow
  split
  · refine Gives.bind (storable_membersOf hs _ _ _) fun ms hms => Gives.pure ?_
    rw [Member.storableList_iff] at hms ⊢
    exact List.forall_mem_map.2 fun m hm => (hms m hm).congr rfl rfl rfl rfl
  · exact Gives.pure trivial

theorem storable_structOf : Gives scope (structOf p comment?) Aggregate.Storable :=
  Gives.bind (storable_declarationOf hs p comment?) fun _ hd =>
    Gives.bind (storable_membersBelow hs p _ _) fun _ hm => Gives.pure ⟨hd, hm⟩

theorem storable_bitstructOf : Gives scope (bitstructOf p comment?) Bitstruct.Storable :=
  Gives.bind (storable_declarationOf hs p comment?) fun _ hd =>
    Gives.bind (storable_typeBelow scope p) fun _ ht =>
      Gives.bind (storable_membersBelow hs p _ _) fun _ hm => Gives.pure ⟨hd, ht, hm⟩

/-! ### Other declarations -/

theorem storable_associatedValuesOf (ps : List Place) :
    Gives scope (associatedValuesOf ps) fun vs => ∀ v ∈ vs, v.Storable := by
  induction ps with
  | nil => exact Gives.pure fun v hv => absurd hv List.not_mem_nil
  | cons q ps ih =>
    refine Gives.bind (storable_typeBelow scope q) fun t ht => ?_
    refine Gives.bind (storable_declarationOf hs q none) fun d hd => ?_
    exact Gives.bind ih fun vs hvs => Gives.pure (List.forall_mem_cons.2 ⟨⟨hd, ht⟩, hvs⟩)

theorem storable_enumOf : Gives scope (enumOf p comment?) Enum.Storable := by
  refine Gives.read (Gives.bind (storable_declarationOf hs p comment?) fun d hd => ?_)
  extract_lets places withValues
  have enum : ∀ values : List Variable, (∀ v ∈ values, v.Storable) →
      Gives scope (withValues values) Enum.Storable := by
    intro values hv
    refine Gives.bind (gives_mapM fun q _ => ?_) fun enumerators he => Gives.pure ⟨hd, he, hv⟩
    exact Gives.bind (storable_nameOf hs q) fun n hn => Gives.pure (hs.declaration _ hn hn none)
  split
  · exact Gives.bind (storable_associatedValuesOf hs _) enum
  · exact enum [] fun v hv => absurd hv List.not_mem_nil

theorem storable_faultConstantsBelow (fault? : Option String) :
    Gives scope (faultConstantsBelow p fault? comment?) fun cs =>
      ∀ c ∈ cs, c.toDeclaration.Storable :=
  Gives.read (Gives.pure (List.forall_mem_map.2 fun leaf _ =>
    hs.declaration _ (hs.range leaf) (hs.range leaf) comment?))

theorem storable_faultOf : Gives scope (faultOf p comment?) Fault.Storable := by
  refine Gives.bind (storable_declarationOf hs p comment?) fun d hd => ?_
  dsimp only
  split
  · exact Gives.bind (storable_faultConstantsBelow hs _ _ _) fun cs hcs => Gives.pure ⟨hd, hcs⟩
  · exact Gives.pure ⟨hd, fun c hc => absurd hc List.not_mem_nil⟩

theorem storable_methodsOf (ps : List (List Tree × Place)) :
    Gives scope (methodsOf ps) fun fs => ∀ f ∈ fs, f.Storable := by
  induction ps with
  | nil => exact Gives.pure fun f hf => absurd hf List.not_mem_nil
  | cons q ps ih =>
    unfold methodsOf
    split
    · refine Gives.bind (storable_functionOf hs _ _) fun f hf => ?_
      exact Gives.bind ih fun fs hfs => Gives.pure (List.forall_mem_cons.2 ⟨hf, hfs⟩)
    · exact ih

theorem storable_interfaceOf : Gives scope (interfaceOf p comment?) Interface.Storable := by
  refine Gives.bind (storable_declarationOf hs p comment?) fun d hd => ?_
  dsimp only
  split
  · exact Gives.bind (storable_methodsOf hs _) fun fs hfs => Gives.pure ⟨hd, Table.forall_values_ofList hfs⟩
  · exact Gives.pure ⟨hd, fun f hf => absurd hf List.not_mem_nil⟩

theorem storable_distinctOf : Gives scope (distinctOf p comment?) Distinct.Storable :=
  Gives.bind (storable_declarationOf hs p comment?) fun _ hd =>
    Gives.bind (storable_typeBelow scope p) fun _ ht => Gives.pure ⟨hd, ht⟩

theorem storable_aliasOf : Gives scope (aliasOf p comment?) Alias.Storable := by
  refine Gives.bind (storable_declarationOf hs p comment?) fun d hd => ?_
  refine Gives.bind (storable_typeBelow? scope p) fun type? ht => ?_
  split
  next t => exact Gives.pure ⟨hd, fun u hu => Option.some.inj hu ▸ ht t rfl⟩
  · split
    · exact Gives.pure ⟨hd, fun u hu => Option.some.inj hu ▸ TypeRef.storable_builtin _⟩
    · exact Gives.pure ⟨hd, nofun⟩

end Outline

/-! ## Modules of an outline -/

/-- All modules of the unit can be stored. -/
def SourceUnit.HoldsStorable (u : SourceUnit) : Prop :=
  ∀ m ∈ u.modules.values, m.Storable

theorem SourceUnit.HoldsStorable.register {u : SourceUnit} (h : u.HoldsStorable) {m : Module}
    (hm : m.Storable) : (u.register m).HoldsStorable :=
  SourceUnit.forall_register h hm fun _ _ hk => hk.merge hm

theorem Module.storable_ofPath {path : ModulePath} {nameRange range : Range} (hp : path.Storable)
    (named : nameRange.Storable) (stored : range.Storable) (doc : DocId) (comment? : Option DocComment)
    (generics : List String) (isPrivate : Bool) (attributes : List String) :
    Module.Storable { Module.ofPath path doc nameRange range with
      comment? := comment?, genericParameters := generics, isPrivate := isPrivate,
      attributes := attributes } where
  declaration := ⟨hp, named, stored⟩
  imports _ h := absurd h List.not_mem_nil
  globals _ h := absurd h List.not_mem_nil
  enums _ h := absurd h List.not_mem_nil
  faults _ h := absurd h List.not_mem_nil
  faultConstants _ h := absurd h List.not_mem_nil
  structs _ h := absurd h List.not_mem_nil
  bitstructs _ h := absurd h List.not_mem_nil
  aliases _ h := absurd h List.not_mem_nil
  distincts _ h := absurd h List.not_mem_nil
  interfaces _ h := absurd h List.not_mem_nil
  functions _ h := absurd h List.not_mem_nil

namespace OutlineState

/-- What was read can be stored, and the region of the open module starts at a position that can be. -/
structure Storable (s : OutlineState) : Prop where
  scope : s.scope.Storable
  unit : s.unit.HoldsStorable
  start : s.regionStart.Storable

section Steps

variable {s : OutlineState}

theorem Storable.modifyModule (h : s.Storable) {f : Module → Module}
    (hf : ∀ m, m.Storable → (f m).Storable) : (s.modifyModule f).Storable := by
  refine ⟨h.scope, fun m hm => ?_, h.start⟩
  obtain ⟨name, found⟩ := Table.mem_values_iff.1 hm
  have found : (s.unit.modules.modify s.scope.moduleName f).get? name = some m := found
  rw [Table.get?_modify] at found
  split at found
  · obtain ⟨n, hn, rfl⟩ := Option.map_eq_some_iff.1 found
    exact hf n (h.unit n (Table.mem_values_iff.2 ⟨name, hn⟩))
  · exact h.unit m (Table.mem_values_iff.2 ⟨name, found⟩)

theorem Storable.extendRegion (h : s.Storable) (stop : Nat) : (s.extendRegion stop).Storable :=
  h.modifyModule fun _ hm =>
    { hm with declaration := ⟨hm.declaration.path, hm.declaration.nameRange, h.start, h.scope.position stop⟩ }

/-- What a builder yields is put into the module. -/
theorem Storable.build {α : Type} {builder : Outline α} {add : α → Module → Module} {P : α → Prop}
    (h : s.Storable) (gives : Outline.Gives s.scope builder P)
    (hadd : ∀ a m, P a → m.Storable → (add a m).Storable) : (s.build builder add).Storable := by
  have built : Storable { s with pending := (builder.result s.scope s.pending).2 } :=
    ⟨h.scope, h.unit, h.start⟩
  exact built.modifyModule fun m hm => hadd _ m (gives s.pending) hm

theorem Storable.openModule (h : s.Storable) : s.openModule.Storable := by
  rw [OutlineState.openModule]
  split
  · exact h
  · have zero : Position.Storable default := ⟨Nat.zero_le _, Nat.zero_le _⟩
    exact ⟨h.scope, h.unit.register
      (Module.storable_ofPath h.scope.path ⟨zero, zero⟩ ⟨zero, zero⟩ _ none [] false []), zero⟩

theorem Storable.declareModule (h : s.Storable) {p : Place}
    (path : ∀ q ∈ p.child? .modulePath, (ModulePath.parse q.tree.compactText).Storable)
    (comment? : Option DocComment) : (s.declareModule p comment?).Storable := by
  unfold OutlineState.declareModule
  split
  · exact h
  next q found =>
    dsimp only
    split
    · exact h
    · have parsed := path q found
      exact ⟨⟨parsed, h.scope.position⟩, h.unit.register
        (Module.storable_ofPath parsed (h.scope.range q) (h.scope.range p) _ _ _ _ _), h.scope.position _⟩

theorem Storable.declare (h : s.Storable) (kind : NodeKind) (p : Place) (comment? : Option DocComment) :
    (s.declare kind p comment?).Storable := by
  refine declare_induct (P := Storable) h fun declares => Storable.extendRegion ?_ p.stop
  cases declares with
  | function =>
    exact h.build (Outline.storable_functionOf h.scope p comment?) fun f m hf hm =>
      { hm with functions := List.forall_mem_append.2 ⟨hm.functions, List.forall_mem_singleton.2 hf⟩ }
  | struct =>
    exact h.build (Outline.storable_structOf h.scope p comment?) fun a m ha hm =>
      { hm with structs := Table.forall_values_insert hm.structs ha }
  | bitstruct =>
    exact h.build (Outline.storable_bitstructOf h.scope p comment?) fun b m hb hm =>
      { hm with bitstructs := Table.forall_values_insert hm.bitstructs hb }
  | enum =>
    exact h.build (Outline.storable_enumOf h.scope p comment?) fun e m he hm =>
      { hm with enums := Table.forall_values_insert hm.enums he }
  | fault =>
    exact h.build (Outline.storable_faultOf h.scope p comment?) fun f m hf hm =>
      { hm with faults := Table.forall_values_insert hm.faults hf }
  | faultConstants =>
    exact h.build (Outline.storable_faultConstantsBelow h.scope p comment? none) fun cs m hcs hm =>
      { hm with faultConstants := Table.forall_values_foldl_insert hm.faultConstants hcs }
  | distinct =>
    exact h.build (Outline.storable_distinctOf h.scope p comment?) fun d m hd hm =>
      { hm with distincts := Table.forall_values_insert hm.distincts hd }
  | aliased =>
    exact h.build (Outline.storable_aliasOf h.scope p comment?) fun a m ha hm =>
      { hm with aliases := Table.forall_values_insert hm.aliases ha }
  | interface =>
    exact h.build (Outline.storable_interfaceOf h.scope p comment?) fun i m hi hm =>
      { hm with interfaces := Table.forall_values_insert hm.interfaces hi }
  | globals =>
    exact h.build (Outline.storable_variablesOf h.scope p comment?) fun vs m hvs hm =>
      { hm with globals := Table.forall_values_foldl_insert hm.globals hvs }

theorem Storable.step (h : s.Storable) (previous : List Tree) {p : Place}
    (paths : ∀ q ∈ p.childrenOf .modulePath, (ModulePath.parse q.tree.compactText).Storable) :
    (s.step previous p).Storable := by
  have imports : (s.openModule.modifyModule (·.addImports (importsOf p))).Storable := by
    refine h.openModule.modifyModule fun m hm => ?_
    have new : ∀ path ∈ importsOf p, path.Storable := fun path hp => by
      obtain ⟨q, hq, rfl⟩ := List.mem_map.1 (List.mem_filter.1 hp).1
      exact paths q hq
    have all := Module.forall_imports_addImports hm.imports new
    obtain ⟨imports, same⟩ := m.addImports_eq (importsOf p)
    rw [same] at all ⊢
    exact { hm with imports := all }
  unfold OutlineState.step
  split
  · exact h
  · exact h
  · refine h.declareModule (fun q found => ?_) _
    have found : p.children.find? (·.isNode .modulePath) = some q := found
    have node := List.find?_some found
    exact paths q (List.mem_filter.2 ⟨List.mem_of_find?_eq_some found, node⟩)
  · exact imports.extendRegion p.stop
  · exact h.openModule.declare _ p _

end Steps

end OutlineState

/-- What is read can be stored, if positions and the written paths can be. -/
theorem storable_outline {doc : DocId} {lines : LineTable} {tree : Tree}
    (file : (ModulePath.parse (ModulePath.nameOfFile doc.fileName)).Storable)
    (position : ∀ offset, (lines.position offset).Storable)
    (paths : ∀ p ∈ Place.descendants ⟨0, tree⟩, p.isNode .modulePath = true →
      (ModulePath.parse p.tree.compactText).Storable) : (outline doc lines tree).1.HoldsStorable := by
  have read : ∀ (parts : List (List Tree × Place)) (s : OutlineState), s.Storable →
      (∀ part ∈ parts, part.2.descendants ⊆ Place.descendants ⟨0, tree⟩) →
      (parts.foldl (fun s part => s.step part.1 part.2) s).Storable := by
    intro parts
    induction parts with
    | nil => exact fun s hs _ => hs
    | cons part parts ih =>
      intro s hs below
      refine ih _ (hs.step part.1 fun q hq => ?_) fun q hq => below q (List.mem_cons_of_mem _ hq)
      obtain ⟨child, path⟩ := List.mem_filter.1 hq
      exact paths q (below part List.mem_cons_self
        (Place.descendants_subset child (Place.mem_descendants_self q))) path
  have zero : Position.Storable ⟨0, 0⟩ := ⟨Nat.zero_le _, Nat.zero_le _⟩
  have scope : (OutlineState.start doc lines).scope.Storable := by
    refine ⟨?_, position⟩
    dsimp only [OutlineState.start]
    exact file
  have start : (OutlineState.start doc lines).Storable :=
    ⟨scope, fun _ hm => absurd hm List.not_mem_nil, zero⟩
  have parts := read (placesWithPrevious 0 [] tree.children) _ start fun part hp =>
    List.Subset.trans (Outline.placesWithPrevious_subset hp) (Place.descendants_of_children ⟨0, tree⟩)
  have done := parts.openModule.extendRegion lines.byteSize
  exact done.unit

/-- What is read from a text can be stored, if the positions in it are numbers of 32 bits. -/
theorem storable_outlineOfText (doc : DocId) {text : String} (bytes : text.utf8ByteSize ≤ mostCoordinate) :
    (outlineOfText doc text).1.HoldsStorable := by
  refine storable_outline ?_ (fun offset => ?_) fun p hp path => Parse.storable_path text hp path
  · rw [ModulePath.Storable, ModulePath.text_parse_nameOfFile]
  · have within : ((LineTable.ofString text).position offset).line +
        ((LineTable.ofString text).position offset).character ≤ utf8Length text.toList :=
      LineTable.position_le 0 offset text.toList
    rw [utf8Length_toList] at within
    exact ⟨by omega, by omega⟩

end C3Lens
