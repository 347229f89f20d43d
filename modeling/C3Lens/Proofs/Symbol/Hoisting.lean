import Mathlib.Data.List.Count
import C3Lens.Proofs.Symbol.Types
import C3Lens.Workspace.SymbolStore

/-!
# Hoisting members

To expand an inline member is to hoist the members of another struct into its own
(`SourceUnit.hoist`). As long as the hoisted members do not wait for members themselves, what one
expansion does is independent of all others: they may come in any order (`SourceUnit.hoist_comm`),
each one is asked for until it is made (`SourceUnit.asks_hoist`), and an expansion that is not asked
for changes nothing (`SourceUnit.hoist_of_not_asks`).

An expansion looks for a member that waits, and what it leaves may again hold one: a second member of the same
type, or one that came with the members that were hoisted. Each expansion takes one waiting member away and
brings those that wait among the hoisted members (`Aggregate.waiting_hoistInto`). So a second expansion changes
nothing, and says so, exactly if the struct waited for the type at most once, and if it did none of the hoisted
members waits for the type (`Aggregate.members_inherit_inherit_iff`). A struct with two inline members of one
type is changed again (`Aggregate.inherit_inherit_twoInlines`).
-/

namespace C3Lens

/-! ## Members of one struct -/

namespace Aggregate

/-- The members with those of the type behind the first one that waits for them. -/
def hoistInto (owner typeName : String) (inherited members : List Member) : List Member :=
  (inheritInto owner typeName inherited members).getD members

theorem inherit_eq (a : Struct) (typeName : String) (inherited : List Member) :
    a.inherit typeName inherited = { a with members := hoistInto a.name typeName inherited a.members } := by
  rw [inherit, hoistInto]
  cases inheritInto a.name typeName inherited a.members <;> rfl

/-- Whether the member waits for the type. -/
def waitsFor (m : Member) (typeName : String) : Bool :=
  m.awaitsExpansion && m.type.name == typeName

/-- None of the members waits for members. -/
def Inert (members : List Member) : Prop :=
  ∀ m ∈ members, m.awaitsExpansion = false

section Members

variable {owner typeName other : String} {inherited more members : List Member}

@[simp] theorem hoistInto_nil : hoistInto owner typeName inherited [] = [] := rfl

theorem hoistInto_cons (m : Member) (members : List Member) :
    hoistInto owner typeName inherited (m :: members) =
      if waitsFor m typeName then
        { m with awaitsExpansion := false, isExpanded := true } ::
          (inherited.map ({ · with owner := owner }) ++ members)
      else m :: hoistInto owner typeName inherited members := by
  rw [hoistInto, inheritInto, waitsFor, hoistInto]
  split
  · rfl
  · cases inheritInto owner typeName inherited members <;> rfl

theorem mem_awaitedTypes {a : Struct} {name : String} :
    name ∈ a.awaitedTypes ↔ ∃ m ∈ a.members, waitsFor m name = true := by
  simp only [awaitedTypes, List.mem_map, List.mem_filter, waitsFor, Bool.and_eq_true, beq_iff_eq,
    and_assoc]

/-- Where no member waits for the type nothing changes. -/
theorem hoistInto_of_not_waitsFor (h : ∀ m ∈ members, waitsFor m typeName = false) :
    hoistInto owner typeName inherited members = members := by
  induction members with
  | nil => rfl
  | cons m members ih =>
    rw [hoistInto_cons, h m List.mem_cons_self, if_neg Bool.false_ne_true,
      ih fun n hn => h n (List.mem_cons_of_mem _ hn)]

/-- Members that do not wait are passed over. -/
theorem hoistInto_append_of_inert (h : Inert inherited) :
    hoistInto owner typeName more (inherited.map ({ · with owner := other }) ++ members) =
      inherited.map ({ · with owner := other }) ++ hoistInto owner typeName more members := by
  induction inherited with
  | nil => rfl
  | cons m inherited ih =>
    have rest := ih fun n hn => h n (List.mem_cons_of_mem _ hn)
    rw [List.map_cons, List.cons_append, hoistInto_cons, if_neg, rest, List.cons_append]
    rw [waitsFor, h m List.mem_cons_self]
    exact Bool.false_ne_true

theorem waitsFor_ne {m : Member} (ne : typeName ≠ other) (h : waitsFor m typeName = true) :
    waitsFor m other = false := by
  rw [waitsFor, Bool.and_eq_true, beq_iff_eq] at h
  rw [waitsFor, beq_eq_false_iff_ne.2 fun same => ne (h.2.symm.trans same), Bool.and_false]

theorem hoistInto_comm (ne : typeName ≠ other) (hi : Inert inherited) (hm : Inert more) :
    hoistInto owner other more (hoistInto owner typeName inherited members) =
      hoistInto owner typeName inherited (hoistInto owner other more members) := by
  have done : ∀ (m : Member) name,
      waitsFor { m with awaitsExpansion := false, isExpanded := true } name = false :=
    fun _ _ => rfl
  induction members with
  | nil => rfl
  | cons m members ih =>
    by_cases first : waitsFor m typeName = true
    · have second := waitsFor_ne ne first
      simp only [hoistInto_cons, first, second, if_true, Bool.false_eq_true, if_false, done,
        hoistInto_append_of_inert hi]
    · by_cases second : waitsFor m other = true
      · simp only [hoistInto_cons, first, second, if_true, Bool.false_eq_true, if_false, done,
          hoistInto_append_of_inert hm]
      · simp only [hoistInto_cons, first, second, Bool.false_eq_true, if_false, ih]

/-- All other types are waited for as before. -/
theorem exists_waitsFor_hoistInto (ne : other ≠ typeName) (h : ∃ m ∈ members, waitsFor m other = true) :
    ∃ m ∈ hoistInto owner typeName inherited members, waitsFor m other = true := by
  induction members with
  | nil => exact h
  | cons m members ih =>
    rw [hoistInto_cons]
    rw [List.exists_mem_cons_iff] at h
    split
    next first =>
      rw [waitsFor_ne ne.symm first] at h
      obtain ⟨n, hn, waiting⟩ := h.resolve_left Bool.false_ne_true
      exact ⟨n, List.mem_cons_of_mem _ (List.mem_append_right _ hn), waiting⟩
    next =>
      rw [List.exists_mem_cons_iff]
      exact h.imp_right ih

/-- Members that do not wait bring no type that was not waited for. -/
theorem exists_waitsFor_of_hoistInto (hi : Inert inherited)
    (h : ∃ m ∈ hoistInto owner typeName inherited members, waitsFor m other = true) :
    ∃ m ∈ members, waitsFor m other = true := by
  induction members with
  | nil => exact h
  | cons m members ih =>
    obtain ⟨n, hn, waiting⟩ := h
    rw [hoistInto_cons] at hn
    split at hn
    · rcases List.mem_cons.1 hn with rfl | hn
      · cases waiting
      · rcases List.mem_append.1 hn with hn | hn
        · obtain ⟨k, hk, rfl⟩ := List.mem_map.1 hn
          rw [waitsFor, hi k hk] at waiting
          cases waiting
        · exact ⟨n, List.mem_cons_of_mem _ hn, waiting⟩
    · rw [List.exists_mem_cons_iff]
      rcases List.mem_cons.1 hn with rfl | hn
      · exact .inl waiting
      · exact .inr (ih ⟨n, hn, waiting⟩)

theorem map_mapModule_hoistInto (f : TypeRef → String) :
    (hoistInto owner typeName inherited members).map (Member.mapModule f) =
      hoistInto owner typeName (inherited.map (Member.mapModule f)) (members.map (Member.mapModule f)) := by
  have waits : ∀ m : Member, waitsFor (m.mapModule f) typeName = waitsFor m typeName := by
    rintro ⟨_, _, _, _, _, _, _⟩
    simp only [waitsFor, Member.mapModule, TypeRef.mapModule_name]
  have owned : ∀ m : Member, ({ m with owner := owner } : Member).mapModule f =
      { m.mapModule f with owner := owner } := by
    rintro ⟨_, _, _, _, _, _, _⟩
    simp only [Member.mapModule]
  have expanded : ∀ m : Member,
      ({ m with awaitsExpansion := false, isExpanded := true } : Member).mapModule f =
        { m.mapModule f with awaitsExpansion := false, isExpanded := true } := by
    rintro ⟨_, _, _, _, _, _, _⟩
    simp only [Member.mapModule]
  induction members with
  | nil => rfl
  | cons m members ih =>
    rw [List.map_cons, hoistInto_cons, hoistInto_cons, waits]
    split
    · rw [List.map_cons, expanded, List.map_append, List.map_map, List.map_map]
      simp only [Function.comp_def, owned]
    · rw [List.map_cons, ih]

/-- The first member that waited for the type is expanded. -/
theorem exists_expanded_hoistInto (h : ∃ m ∈ members, waitsFor m typeName = true) :
    ∃ m ∈ hoistInto owner typeName inherited members, m.isExpanded = true ∧ m.type.name = typeName := by
  induction members with
  | nil =>
    obtain ⟨m, hm, -⟩ := h
    cases hm
  | cons m members ih =>
    rw [hoistInto_cons]
    split
    next first =>
      rw [waitsFor, Bool.and_eq_true, beq_iff_eq] at first
      exact ⟨_, List.mem_cons_self, rfl, first.2⟩
    next other =>
      rw [List.exists_mem_cons_iff] at h
      rw [List.exists_mem_cons_iff]
      exact .inr (ih (h.resolve_left other))

/-- What is expanded stays expanded. -/
theorem exists_expanded_of_mem_hoistInto (h : ∃ m ∈ members, m.isExpanded = true ∧ m.type.name = other) :
    ∃ m ∈ hoistInto owner typeName inherited members, m.isExpanded = true ∧ m.type.name = other := by
  induction members with
  | nil => exact h
  | cons m members ih =>
    rw [List.exists_mem_cons_iff] at h
    rw [hoistInto_cons]
    split
    · rw [List.exists_mem_cons_iff]
      refine h.imp (fun expanded => ⟨rfl, expanded.2⟩) fun ⟨n, hn, expanded⟩ => ?_
      exact ⟨n, List.mem_append_right _ hn, expanded⟩
    · rw [List.exists_mem_cons_iff]
      exact h.imp_right ih

end Members

end Aggregate

/-! ## Members of a unit -/

/-- Inline members of one document that are the same. -/
def PendingInline.SameIn (i j : PendingInline) : Prop :=
  i.moduleName = j.moduleName ∧ i.structName = j.structName ∧ i.inlined = j.inlined

theorem PendingInline.SameIn.eq {i j : PendingInline} (same : i.SameIn j) (doc : i.doc = j.doc) : i = j := by
  obtain ⟨_, _, _, _⟩ := i
  obtain ⟨_, _, _, _⟩ := j
  obtain ⟨rfl, rfl, rfl⟩ := same
  cases doc
  rfl

namespace SourceUnit

/-- Puts members behind an inline member. -/
def hoist (u : SourceUnit) (i : PendingInline) (members : List Member) : SourceUnit :=
  u.modify i.moduleName fun m =>
    { m with structs := m.structs.modify i.structName (·.inherit i.inlined members) }

/-- The struct with the inline member. -/
def host? (u : SourceUnit) (i : PendingInline) : Option Struct :=
  (u.modules.get? i.moduleName).bind fun m => m.structs.get? i.structName

/-- The struct waits for the inlined members. -/
def Asks (u : SourceUnit) (i : PendingInline) : Prop :=
  ∃ a, u.host? i = some a ∧ i.inlined ∈ a.awaitedTypes

/-- Members came for the inlined type: one of the struct's members of that type is expanded. -/
def HasExpanded (u : SourceUnit) (i : PendingInline) : Prop :=
  ∃ a, u.host? i = some a ∧ ∃ m ∈ a.members, m.isExpanded = true ∧ m.type.name = i.inlined

/-- Changes the modules of all types. -/
def mapModules (f : String → TypeRef → String) (u : SourceUnit) : SourceUnit :=
  { u with modules := u.modules.mapEntries fun name m => m.mapModule (f name) }

section Hoisting

variable {u : SourceUnit} {i j : PendingInline} {inherited more : List Member}

/-- A change of one struct is seen by the inline members of that struct only. -/
theorem host?_hoist (u : SourceUnit) (i j : PendingInline) (inherited : List Member) :
    (u.hoist j inherited).host? i =
      if i.moduleName = j.moduleName ∧ i.structName = j.structName then
        (u.host? i).map (·.inherit j.inlined inherited) else u.host? i := by
  rw [host?, hoist, modify, Table.get?_modify, host?]
  cases u.modules.get? i.moduleName with
  | none => split <;> split <;> rfl
  | some m =>
    by_cases module : i.moduleName = j.moduleName
    · simp only [module, if_true, true_and, Option.map_some, Option.bind_some, Table.get?_modify]
    · simp only [module, if_false, false_and, Option.bind_some]

/-- What is asked for is asked for until it comes. -/
theorem Asks.hoist (h : u.Asks i) (ne : ¬ i.SameIn j) (inherited : List Member) :
    (u.hoist j inherited).Asks i := by
  obtain ⟨a, host, asked⟩ := h
  rw [Asks, host?_hoist, host]
  split
  next same =>
    refine ⟨_, rfl, ?_⟩
    have other : i.inlined ≠ j.inlined := fun eq => ne ⟨same.1, same.2, eq⟩
    show i.inlined ∈ (a.inherit j.inlined inherited).awaitedTypes
    rw [Aggregate.inherit_eq, Aggregate.mem_awaitedTypes]
    exact Aggregate.exists_waitsFor_hoistInto other (Aggregate.mem_awaitedTypes.1 asked)
  next => exact ⟨a, rfl, asked⟩

/-- Members that do not wait ask for nothing. -/
theorem Asks.of_hoist (hi : Aggregate.Inert inherited) (h : (u.hoist j inherited).Asks i) : u.Asks i := by
  obtain ⟨a, host, asked⟩ := h
  rw [host?_hoist] at host
  split at host
  next =>
    obtain ⟨b, hb, rfl⟩ := Option.map_eq_some_iff.1 host
    rw [Aggregate.inherit_eq, Aggregate.mem_awaitedTypes] at asked
    exact ⟨b, hb, Aggregate.mem_awaitedTypes.2 (Aggregate.exists_waitsFor_of_hoistInto hi asked)⟩
  next => exact ⟨a, host, asked⟩

theorem hoist_of_not_asks (h : ¬ u.Asks i) (inherited : List Member) : u.hoist i inherited = u := by
  have modules : u.modules.modify i.moduleName (fun m =>
      { m with structs := m.structs.modify i.structName (·.inherit i.inlined inherited) }) = u.modules := by
    refine Table.modify_of_fixed fun m hm => ?_
    have structs : m.structs.modify i.structName (·.inherit i.inlined inherited) = m.structs := by
      refine Table.modify_of_fixed fun a ha => ?_
      rw [Aggregate.inherit_eq, Aggregate.hoistInto_of_not_waitsFor]
      intro n hn
      rw [← Bool.not_eq_true]
      intro waiting
      have host : u.host? i = some a := by rw [host?, hm, Option.bind_some, ha]
      exact h ⟨a, host, Aggregate.mem_awaitedTypes.2 ⟨n, hn, waiting⟩⟩
    rw [structs]
  rw [hoist, modify, modules]

theorem hoist_comm (ne : ¬ i.SameIn j) (hi : Aggregate.Inert inherited) (hm : Aggregate.Inert more) :
    (u.hoist i inherited).hoist j more = (u.hoist j more).hoist i inherited := by
  have modules := @Table.modify_comm _ u.modules i.moduleName j.moduleName
    (fun m => { m with structs := m.structs.modify i.structName (·.inherit i.inlined inherited) })
    (fun m => { m with structs := m.structs.modify j.structName (·.inherit j.inlined more) })
  rw [hoist, hoist, modify, modify, hoist, hoist, modify, modify, modules]
  intro sameModule m
  have structs := @Table.modify_comm _ m.structs i.structName j.structName
    (·.inherit i.inlined inherited) (·.inherit j.inlined more)
  dsimp only
  rw [structs]
  intro sameStruct a
  have other : i.inlined ≠ j.inlined := fun eq => ne ⟨sameModule, sameStruct, eq⟩
  rw [Aggregate.inherit_eq, Aggregate.inherit_eq, Aggregate.inherit_eq, Aggregate.inherit_eq]
  dsimp only
  rw [Aggregate.hoistInto_comm other.symm hm hi]

/-- What was asked for is there when it came. -/
theorem Asks.hasExpanded_hoist (h : u.Asks i) (same : i.SameIn j) (inherited : List Member) :
    (u.hoist j inherited).HasExpanded i := by
  obtain ⟨a, host, asked⟩ := h
  rw [HasExpanded, host?_hoist, if_pos ⟨same.1, same.2.1⟩, host]
  refine ⟨_, rfl, ?_⟩
  show ∃ m ∈ (a.inherit j.inlined inherited).members, _
  rw [Aggregate.inherit_eq, ← same.2.2]
  exact Aggregate.exists_expanded_hoistInto (Aggregate.mem_awaitedTypes.1 asked)

theorem HasExpanded.hoist (h : u.HasExpanded i) (j : PendingInline) (inherited : List Member) :
    (u.hoist j inherited).HasExpanded i := by
  obtain ⟨a, host, expanded⟩ := h
  rw [HasExpanded, host?_hoist, host]
  split
  · refine ⟨_, rfl, ?_⟩
    show ∃ m ∈ (a.inherit j.inlined inherited).members, _
    rw [Aggregate.inherit_eq]
    exact Aggregate.exists_expanded_of_mem_hoistInto expanded
  · exact ⟨a, rfl, expanded⟩

/-! ## Modules of types -/

theorem host?_mapModules (f : String → TypeRef → String) (u : SourceUnit) (i : PendingInline) :
    (u.mapModules f).host? i = (u.host? i).map (Aggregate.mapModule (f i.moduleName)) := by
  rw [host?, mapModules, Table.get?_mapEntries, host?]
  cases u.modules.get? i.moduleName with
  | none => rfl
  | some m => exact Table.get?_map _ _ _

theorem asks_mapModules (f : String → TypeRef → String) : (u.mapModules f).Asks i ↔ u.Asks i := by
  have awaited : ∀ a : Struct, (a.mapModule (f i.moduleName)).awaitedTypes = a.awaitedTypes := by
    intro a
    have flags : ∀ m : Member, (m.mapModule (f i.moduleName)).awaitsExpansion = m.awaitsExpansion ∧
        (m.mapModule (f i.moduleName)).type.name = m.type.name := by
      rintro ⟨_, _, _, _, _, _, _⟩
      simp only [Member.mapModule, TypeRef.mapModule_name, and_self]
    simp only [Aggregate.awaitedTypes, Aggregate.mapModule, List.filter_map, List.map_map,
      Function.comp_def, flags]
  rw [Asks, host?_mapModules, Asks]
  cases u.host? i with
  | none => simp
  | some a => simp [awaited]

theorem HasExpanded.mapModules (h : u.HasExpanded i) (f : String → TypeRef → String) :
    (u.mapModules f).HasExpanded i := by
  obtain ⟨a, host, m, hm, expanded, type⟩ := h
  rw [HasExpanded, host?_mapModules, host]
  refine ⟨_, rfl, m.mapModule (f i.moduleName), List.mem_map_of_mem hm, ?_⟩
  obtain ⟨_, _, _, _, _, _, _⟩ := m
  rw [Member.mapModule]
  exact ⟨expanded, (TypeRef.mapModule_name _ _).trans type⟩

/-! ## Documents -/

theorem host?_setDoc (doc : DocId) (u : SourceUnit) (same : i.SameIn j) :
    (u.setDoc doc).host? i = (u.host? j).map (Aggregate.setDoc doc) := by
  rw [host?, setDoc, Table.get?_map, host?, same.1, same.2.1]
  cases u.modules.get? j.moduleName with
  | none => rfl
  | some m => exact Table.get?_map _ _ _

theorem asks_setDoc (doc : DocId) (same : i.SameIn j) : (u.setDoc doc).Asks i ↔ u.Asks j := by
  have awaited : ∀ a : Struct, (a.setDoc doc).awaitedTypes = a.awaitedTypes := by
    intro a
    have flags : ∀ m : Member, (m.setDoc doc).awaitsExpansion = m.awaitsExpansion ∧
        (m.setDoc doc).type.name = m.type.name := by
      rintro ⟨_, _, _, _, _, _, _⟩
      simp only [Member.setDoc, and_self]
    simp only [Aggregate.awaitedTypes, Aggregate.setDoc, List.filter_map, List.map_map,
      Function.comp_def, flags]
  rw [Asks, host?_setDoc doc u same, Asks, same.2.2]
  cases u.host? j with
  | none => simp
  | some a => simp [awaited]

theorem HasExpanded.setDoc (h : u.HasExpanded j) (doc : DocId) (same : i.SameIn j) :
    (u.setDoc doc).HasExpanded i := by
  obtain ⟨a, host, m, hm, expanded, type⟩ := h
  rw [HasExpanded, host?_setDoc doc u same, host]
  refine ⟨_, rfl, m.setDoc doc, List.mem_map_of_mem hm, ?_⟩
  obtain ⟨_, _, _, _, _, _, _⟩ := m
  rw [Member.setDoc]
  exact ⟨expanded, type.trans same.2.2.symm⟩

theorem mapModules_hoist (f : String → TypeRef → String) (u : SourceUnit) (i : PendingInline)
    (inherited : List Member) :
    (u.hoist i inherited).mapModules f =
      (u.mapModules f).hoist i (inherited.map (Member.mapModule (f i.moduleName))) := by
  have structs : ∀ (a : Struct) (g : TypeRef → String), (a.inherit i.inlined inherited).mapModule g =
      (a.mapModule g).inherit i.inlined (inherited.map (Member.mapModule g)) := by
    intro a g
    rw [Aggregate.inherit_eq, Aggregate.inherit_eq, Aggregate.mapModule,
      Aggregate.map_mapModule_hoistInto, Aggregate.mapModule]
  rw [hoist, modify, mapModules, hoist, modify, mapModules]
  simp only [Table.modify, Table.mapEntries_mapEntries, SourceUnit.mk.injEq, true_and]
  refine Table.mapEntries_congr fun name m _ => ?_
  split
  next here =>
    subst here
    simp only [Module.mapModule, Table.map, Table.mapEntries_mapEntries]
    congr 1
    refine Table.mapEntries_congr fun key a _ => ?_
    split
    · exact structs a _
    · rfl
  next => rfl

end Hoisting

theorem mapModules_mapModules (f g : String → TypeRef → String) (u : SourceUnit) :
    (u.mapModules f).mapModules g = u.mapModules fun name t => g name (t.mapModule (f name)) := by
  rw [mapModules, mapModules, mapModules]
  simp only [Table.mapEntries_mapEntries, Module.mapModule_mapModule]

/-! ## Several expansions -/

/-- The expansions one after the other. -/
def hoistAll (u : SourceUnit) (hoists : List (PendingInline × List Member)) : SourceUnit :=
  hoists.foldl (fun u h => u.hoist h.1 h.2) u

/-- The second unit is the first one with other modules for its types and with expansions. -/
def ResolvesTo (u v : SourceUnit) : Prop :=
  ∃ modules hoists, v = (u.mapModules modules).hoistAll hoists

/-- The expansions with other modules for the types of their members. -/
def rebind (f : String → TypeRef → String) (hoists : List (PendingInline × List Member)) :
    List (PendingInline × List Member) :=
  hoists.map fun h => (h.1, h.2.map (Member.mapModule (f h.1.moduleName)))

section HoistAll

variable {u : SourceUnit} {hoists : List (PendingInline × List Member)}

theorem fst_rebind (f : String → TypeRef → String) (hoists : List (PendingInline × List Member)) :
    (rebind f hoists).map Prod.fst = hoists.map Prod.fst := by
  rw [rebind, List.map_map]
  rfl

theorem hoistAll_append (u : SourceUnit) (hoists more : List (PendingInline × List Member)) :
    u.hoistAll (hoists ++ more) = (u.hoistAll hoists).hoistAll more :=
  List.foldl_append

theorem mapModules_hoistAll (f : String → TypeRef → String) (u : SourceUnit)
    (hoists : List (PendingInline × List Member)) :
    (u.hoistAll hoists).mapModules f = (u.mapModules f).hoistAll (rebind f hoists) := by
  induction hoists generalizing u with
  | nil => rfl
  | cons h hoists ih =>
    show ((u.hoist h.1 h.2).hoistAll hoists).mapModules f = _
    rw [ih, mapModules_hoist]
    rfl

theorem Asks.hoistAll {i : PendingInline} (asks : u.Asks i) (new : ∀ h ∈ hoists, ¬ i.SameIn h.1) :
    (u.hoistAll hoists).Asks i := by
  induction hoists generalizing u with
  | nil => exact asks
  | cons h hoists ih =>
    exact ih (asks.hoist (new h List.mem_cons_self) h.2) fun g hg => new g (List.mem_cons_of_mem _ hg)

theorem HasExpanded.hoistAll {i : PendingInline} (h : u.HasExpanded i)
    (hoists : List (PendingInline × List Member)) : (u.hoistAll hoists).HasExpanded i := by
  induction hoists generalizing u with
  | nil => exact h
  | cons g hoists ih => exact ih (h.hoist g.1 g.2)

/-- What is asked for is there after expansions that it is among. -/
theorem Asks.hasExpanded_hoistAll {i : PendingInline} (asks : u.Asks i)
    (made : ∃ h ∈ hoists, i.SameIn h.1) : (u.hoistAll hoists).HasExpanded i := by
  induction hoists generalizing u with
  | nil =>
    obtain ⟨h, hh, -⟩ := made
    cases hh
  | cons h hoists ih =>
    by_cases first : i.SameIn h.1
    · exact (asks.hasExpanded_hoist first h.2).hoistAll hoists
    · rw [List.exists_mem_cons_iff] at made
      exact ih (asks.hoist first h.2) (made.resolve_left first)

theorem Asks.of_hoistAll {i : PendingInline} (inert : ∀ h ∈ hoists, Aggregate.Inert h.2)
    (asks : (u.hoistAll hoists).Asks i) : u.Asks i := by
  induction hoists generalizing u with
  | nil => exact asks
  | cons h hoists ih =>
    exact (ih (fun g hg => inert g (List.mem_cons_of_mem _ hg)) asks).of_hoist (inert h List.mem_cons_self)

/-- Expansions that are not asked for change nothing. -/
theorem hoistAll_of_not_asks (none : ∀ h ∈ hoists, ¬ u.Asks h.1) : u.hoistAll hoists = u := by
  induction hoists with
  | nil => rfl
  | cons h hoists ih =>
    show (u.hoist h.1 h.2).hoistAll hoists = u
    rw [hoist_of_not_asks (none h List.mem_cons_self), ih fun g hg => none g (List.mem_cons_of_mem _ hg)]

/-- The order of the expansions does not count. -/
theorem hoistAll_perm {more : List (PendingInline × List Member)} (perm : hoists.Perm more)
    (inert : ∀ h ∈ hoists, Aggregate.Inert h.2)
    (apart : ∀ h ∈ hoists, ∀ g ∈ hoists, h.1.SameIn g.1 → h = g) : u.hoistAll hoists = u.hoistAll more := by
  refine perm.foldl_eq' (fun h hh g hg v => ?_) u
  by_cases same : h.1.SameIn g.1
  · rw [apart h hh g hg same]
  · exact hoist_comm same (inert h hh) (inert g hg)

end HoistAll

end SourceUnit

/-! ## The same expansion again -/

namespace Aggregate

/-- Number of members that wait for the type. -/
def waiting (typeName : String) (members : List Member) : Nat :=
  members.countP (waitsFor · typeName)

section Members

variable {owner typeName : String} {inherited members : List Member}

theorem waiting_cons (m : Member) (members : List Member) :
    waiting typeName (m :: members) = waiting typeName members + if waitsFor m typeName then 1 else 0 :=
  List.countP_cons

theorem waiting_eq_zero_iff : waiting typeName members = 0 ↔ ∀ m ∈ members, waitsFor m typeName = false := by
  rw [waiting, List.countP_eq_zero]
  simp only [Bool.not_eq_true]

theorem inheritInto_eq_none_iff :
    inheritInto owner typeName inherited members = none ↔ waiting typeName members = 0 := by
  induction members with
  | nil => exact iff_of_true rfl rfl
  | cons m members ih =>
    rw [inheritInto, ← waitsFor, waiting_cons]
    split
    · exact iff_of_false (Option.some_ne_none _) (Nat.succ_ne_zero _)
    · rw [Option.map_eq_none_iff, ih, Nat.add_zero]

/-- An expansion that is made is seen at the member it is made for. -/
theorem hoistInto_eq_self_iff :
    hoistInto owner typeName inherited members = members ↔ waiting typeName members = 0 := by
  induction members with
  | nil => exact iff_of_true rfl rfl
  | cons m members ih =>
    rw [hoistInto_cons, waiting_cons]
    split
    next waits =>
      refine iff_of_false (fun same => ?_) (Nat.succ_ne_zero _)
      rw [← (List.cons.inj same).1] at waits
      exact Bool.false_ne_true waits
    next => rw [List.cons.injEq, ih, eq_self_iff_true, true_and, Nat.add_zero]

/-- An expansion takes away one member that waits, and brings those that wait among the hoisted ones. -/
theorem waiting_hoistInto (some : waiting typeName members ≠ 0) :
    waiting typeName (hoistInto owner typeName inherited members) + 1 =
      waiting typeName members + waiting typeName inherited := by
  induction members with
  | nil => exact absurd rfl some
  | cons m members ih =>
    rw [waiting_cons] at some
    rw [hoistInto_cons, waiting_cons]
    split
    next =>
      have done : waitsFor { m with awaitsExpansion := false, isExpanded := true } typeName = false := rfl
      have owned : waiting typeName (inherited.map ({ · with owner := owner })) = waiting typeName inherited :=
        List.countP_map
      have both : waiting typeName (inherited.map ({ · with owner := owner }) ++ members) =
          waiting typeName inherited + waiting typeName members := by
        rw [← owned]
        exact List.countP_append
      rw [waiting_cons, done, both, if_neg Bool.false_ne_true]
      omega
    next other =>
      rw [if_neg other, Nat.add_zero] at some
      rw [waiting_cons, if_neg other, Nat.add_zero, ih some, Nat.add_zero]

end Members

theorem count_awaitedTypes (a : Struct) (typeName : String) :
    a.awaitedTypes.count typeName = waiting typeName a.members := by
  rw [awaitedTypes, List.count, List.countP_map, List.countP_filter]
  refine List.countP_congr fun m _ => ?_
  rw [waitsFor, Bool.and_comm]
  rfl

/-- The type comes into the struct at most once: where a member waits for it, no other one does, and none of
the members that come. -/
def ComesOnce (a : Struct) (typeName : String) (inherited : List Member) : Prop :=
  a.awaitedTypes.count typeName = 0 ∨
    a.awaitedTypes.count typeName = 1 ∧ ∀ m ∈ inherited, waitsFor m typeName = false

/-- No member waits for the type after an expansion exactly if the type comes at most once. -/
theorem waiting_inherit_eq_zero_iff {a : Struct} {typeName : String} {inherited : List Member} :
    waiting typeName (a.inherit typeName inherited).members = 0 ↔ a.ComesOnce typeName inherited := by
  rw [ComesOnce, count_awaitedTypes, ← waiting_eq_zero_iff, inherit_eq]
  dsimp only
  by_cases none : waiting typeName a.members = 0
  · rw [hoistInto_eq_self_iff.2 none]
    exact iff_of_true none (.inl none)
  · have after : waiting typeName (hoistInto a.name typeName inherited a.members) + 1 = _ := waiting_hoistInto none
    omega

/-- Expanding twice leaves the members that expanding once leaves, and the second time no member is found
that waits, exactly if the type comes into the struct at most once. -/
theorem members_inherit_inherit_iff (a : Struct) (typeName : String) (inherited : List Member) :
    let once := a.inherit typeName inherited
    ((once.inherit typeName inherited).members = once.members ↔ a.ComesOnce typeName inherited) ∧
      (inheritInto once.name typeName inherited once.members = none ↔ a.ComesOnce typeName inherited) := by
  intro once
  rw [inherit_eq once, inheritInto_eq_none_iff]
  exact ⟨hoistInto_eq_self_iff.trans waiting_inherit_eq_zero_iff, waiting_inherit_eq_zero_iff⟩

/-- An inline member without a name. -/
def inlineMember (typeName : String) : Member :=
  { (default : Member) with type := .user typeName "m", awaitsExpansion := true }

/-- `struct T { inline S; inline S; }`. -/
def twoInlines : Struct :=
  { (default : Struct) with name := "T", members := [inlineMember "S", inlineMember "S"] }

/-- The second inline member of the type is expanded by the second expansion. -/
theorem inherit_inherit_twoInlines :
    let x : Member := { (default : Member) with name := "x", type := .builtin "int" }
    let once := twoInlines.inherit "S" [x]
    once.members.map (·.name) = ["", "x", ""] ∧ inheritInto once.name "S" [x] once.members ≠ none ∧
      (once.inherit "S" [x]).members.map (·.name) = ["", "x", "", "x"] := by
  decide

end Aggregate

end C3Lens
