import C3Lens.Proofs.NameIndex
import C3Lens.Proofs.Symbol.Types
import C3Lens.Workspace.SymbolStore

/-!
# What resolution does to a module

Resolution of pending work changes a module in two ways: it sets the modules of types
(`Module.mapModule`), and it puts the members of other structs behind inline members
(`Module.HoistsTo`). Neither changes the `skeleton` of the module, and all that decides where a
name is found is read off the skeleton: the entries of the index, the declared types, and which
structs there are.
-/

namespace C3Lens

theorem map_orElse {α β : Type} (f : α → β) (a b : Option α) :
    (a <|> b).map f = (a.map f <|> b.map f) := by
  cases a <;> rfl

/-! ## Hoisted members -/

/-- The member apart from the state of its expansion. -/
def Member.plain (m : Member) : Member :=
  { m with awaitsExpansion := false, isExpanded := false }

/-- The struct without its members. -/
def Aggregate.bare (a : Struct) : Struct :=
  { a with members := [] }

/-- `b` is the struct `a` with further members between its own, which is seen at the members that
are expanded. -/
structure Aggregate.HoistsTo (a b : Struct) : Prop where
  rest : b = { a with members := b.members }
  members : (a.members.map Member.plain).Sublist (b.members.map Member.plain)
  expanded : b.members = a.members ∨ ∃ m ∈ b.members, m.isExpanded = true

namespace Aggregate

theorem HoistsTo.refl (a : Struct) : a.HoistsTo a :=
  ⟨rfl, List.Sublist.refl _, .inl rfl⟩

theorem HoistsTo.trans {a b c : Struct} (h : a.HoistsTo b) (k : b.HoistsTo c) : a.HoistsTo c := by
  refine ⟨?_, h.members.trans k.members, ?_⟩
  · rw [k.rest, h.rest]
  · rcases k.expanded with same | some
    · rw [same]
      exact h.expanded
    · exact .inr some

theorem sublist_inheritInto {owner typeName : String} {inherited ms ns : List Member}
    (h : inheritInto owner typeName inherited ms = some ns) :
    (ms.map Member.plain).Sublist (ns.map Member.plain) := by
  induction ms generalizing ns with
  | nil => cases h
  | cons m ms ih =>
    rw [inheritInto] at h
    split at h
    · cases h
      rw [List.map_cons, List.map_cons, List.map_append]
      exact List.Sublist.cons_cons _ (List.sublist_append_right _ _)
    · obtain ⟨ns, hn, rfl⟩ := Option.map_eq_some_iff.1 h
      exact (ih hn).cons_cons _

theorem exists_expanded_inheritInto {owner typeName : String} {inherited ms ns : List Member}
    (h : inheritInto owner typeName inherited ms = some ns) : ∃ m ∈ ns, m.isExpanded = true := by
  induction ms generalizing ns with
  | nil => cases h
  | cons m ms ih =>
    rw [inheritInto] at h
    split at h
    · cases h
      exact ⟨_, List.mem_cons_self, rfl⟩
    · obtain ⟨ns, hn, rfl⟩ := Option.map_eq_some_iff.1 h
      obtain ⟨k, hk, expanded⟩ := ih hn
      exact ⟨k, List.mem_cons_of_mem _ hk, expanded⟩

theorem hoistsTo_inherit (a : Struct) (typeName : String) (inherited : List Member) :
    a.HoistsTo (a.inherit typeName inherited) := by
  rw [inherit]
  split
  next ms h => exact ⟨rfl, sublist_inheritInto h, .inr (exists_expanded_inheritInto h)⟩
  next => exact HoistsTo.refl a

end Aggregate

namespace Module

/-- `n` is the module `m` with further members in its structs. -/
structure HoistsTo (m n : Module) : Prop where
  rest : n = { m with structs := n.structs }
  names : n.structs.names = m.structs.names
  structs : ∀ name a b, m.structs.get? name = some a → n.structs.get? name = some b → a.HoistsTo b

theorem HoistsTo.refl (m : Module) : m.HoistsTo m := by
  refine ⟨rfl, rfl, fun name a b ha hb => ?_⟩
  rw [ha] at hb
  cases hb
  exact Aggregate.HoistsTo.refl a

/-- A struct of the one module is a struct of the other. -/
theorem HoistsTo.struct_of_get? {m n : Module} (h : m.HoistsTo n) {name : String} {a : Struct}
    (ha : m.structs.get? name = some a) : ∃ b, n.structs.get? name = some b ∧ a.HoistsTo b := by
  obtain ⟨b, hb⟩ := Table.mem_names_iff.1 (h.names ▸ Table.mem_names_iff.2 ⟨a, ha⟩)
  exact ⟨b, hb, h.structs name a b ha hb⟩

theorem HoistsTo.trans {l m n : Module} (h : l.HoistsTo m) (k : m.HoistsTo n) : l.HoistsTo n := by
  refine ⟨?_, k.names.trans h.names, fun name a c ha hc => ?_⟩
  · rw [k.rest, h.rest]
  · obtain ⟨b, hb, hab⟩ := h.struct_of_get? ha
    exact hab.trans (k.structs name b c hb hc)

theorem hoistsTo_inherit (m : Module) (structName typeName : String) (inherited : List Member) :
    m.HoistsTo { m with structs := m.structs.modify structName (·.inherit typeName inherited) } := by
  refine ⟨rfl, Table.names_modify _ _ _, fun name a b ha hb => ?_⟩
  rw [Table.get?_modify, ha] at hb
  split at hb <;> cases hb
  · exact Aggregate.hoistsTo_inherit a typeName inherited
  · exact Aggregate.HoistsTo.refl a

/-! ## The skeleton -/

/-- The module without what resolution changes: the modules of types and the members of
structs. -/
def skeleton (m : Module) : Module :=
  { m.mapModule fun _ => "" with structs := m.structs.map Aggregate.bare }

@[simp] theorem skeleton_name (m : Module) : m.skeleton.name = m.name := rfl

@[simp] theorem skeleton_modulePath (m : Module) : m.skeleton.modulePath = m.modulePath := rfl

@[simp] theorem skeleton_imports (m : Module) : m.skeleton.imports = m.imports := rfl

theorem skeleton_mapModule (m : Module) (f : TypeRef → String) :
    (m.mapModule f).skeleton = m.skeleton := by
  have structs : (m.mapModule f).structs.map Aggregate.bare = m.structs.map Aggregate.bare := by
    rw [mapModule, Table.map_map]
    rfl
  rw [skeleton, structs, mapModule_mapModule]
  rfl

theorem HoistsTo.skeleton_eq {m n : Module} (h : m.HoistsTo n) : n.skeleton = m.skeleton := by
  have structs : n.structs.map Aggregate.bare = m.structs.map Aggregate.bare := by
    refine Table.ext_get? (by simp only [Table.names_map, h.names]) fun name => ?_
    rw [Table.get?_map, Table.get?_map]
    cases ha : m.structs.get? name with
    | none =>
      rw [Table.get?_eq_none_iff, ← h.names, ← Table.get?_eq_none_iff] at ha
      rw [ha]
    | some a =>
      obtain ⟨b, hb, hab⟩ := h.struct_of_get? ha
      rw [hb, Option.map_some, Option.map_some, hab.rest, Aggregate.bare, Aggregate.bare]
  rw [skeleton, structs, h.rest]
  rfl

/-! ## What the skeleton decides -/

/-- Whether a name is that of a type or an alias is seen at the tables. -/
theorem map_isType_child? (m : Module) (name : String) :
    ((m.child? name).map fun s => s.isType || s.isAlias) =
      (((m.globals.get? name).map fun _ => false) <|> ((m.enums.get? name).map fun _ => true) <|>
      ((m.faults.get? name).map fun _ => true) <|> ((m.structs.get? name).map fun _ => true) <|>
      ((m.bitstructs.get? name).map fun _ => true) <|> ((m.aliases.get? name).map fun _ => true) <|>
      ((m.distincts.get? name).map fun _ => true) <|> ((m.interfaces.get? name).map fun _ => true) <|>
      ((m.faultConstants.get? name).map fun _ => false) <|> ((m.function? name).map fun _ => false)) := by
  have either : ∀ a : Alias, ((Symbol.alias a).isType || (Symbol.alias a).isAlias) = true := fun a =>
    Bool.or_true _
  simp only [child?, map_orElse, Option.map_map, Function.comp_def, either]
  rfl

theorem child?_skeleton_isType (m : Module) (name : String) :
    ((m.skeleton.child? name).map fun s => s.isType || s.isAlias) =
      (m.child? name).map fun s => s.isType || s.isAlias := by
  have functions : ∀ f : Function, ((f.mapModule fun _ => "").name == name) = (f.name == name) :=
    fun _ => rfl
  simp only [map_isType_child?, skeleton, mapModule, Table.get?_map, Option.map_map, Function.comp_def,
    function?, List.find?_map, functions]

theorem declaresType_skeleton (name : String) (m : Module) :
    SymbolStore.declaresType name m.skeleton = SymbolStore.declaresType name m := by
  rw [SymbolStore.declaresType, child?_skeleton_isType, SymbolStore.declaresType]

theorem entriesOf_skeleton (unit : DocId) (m : Module) :
    NameIndex.entriesOf unit m.skeleton = NameIndex.entriesOf unit m := by
  have aliases : ∀ a : Alias, SymbolLocation.ofSymbol unit (.alias (a.mapModule fun _ => "")) =
      .ofSymbol unit (.alias a) := by
    rintro ⟨_, target⟩
    cases target <;> rfl
  have children : m.skeleton.children.map (SymbolLocation.ofSymbol unit) =
      m.children.map (SymbolLocation.ofSymbol unit) := by
    simp only [Module.children, skeleton, mapModule, Table.values_map, List.map_append, List.map_map]
    simp only [Function.comp_def, aliases]
    rfl
  rw [NameIndex.entriesOf, NameIndex.entriesOf, List.map_cons, List.map_cons, children]
  rfl

theorem bare_struct_of_skeleton {m n : Module} (same : n.skeleton = m.skeleton) (key : String) :
    (n.structs.get? key).map Aggregate.bare = (m.structs.get? key).map Aggregate.bare := by
  have structs := congrArg (fun o : Module => o.structs.get? key) same
  simpa only [skeleton, Table.get?_map] using structs

end Module

/-! ## Units -/

namespace SourceUnit

/-- The unit without what resolution changes. -/
def skeleton (u : SourceUnit) : SourceUnit :=
  { u with modules := u.modules.map Module.skeleton }

@[simp] theorem skeleton_doc (u : SourceUnit) : u.skeleton.doc = u.doc := rfl

@[simp] theorem module?_skeleton (u : SourceUnit) (name : String) :
    u.skeleton.module? name = (u.module? name).map Module.skeleton :=
  Table.get?_map _ _ _

theorem exists_module_of_skeleton {u v : SourceUnit} (same : v.skeleton = u.skeleton) {m : Module}
    (hm : m ∈ v.modules.values) : ∃ n ∈ u.modules.values, n.skeleton = m.skeleton := by
  have modules := congrArg (fun w : SourceUnit => w.modules.values) same
  simp only [skeleton, Table.values_map] at modules
  exact List.mem_map.1 (modules ▸ List.mem_map_of_mem hm)

/-- The structs of a unit are of the document, if those of another unit with its skeleton are. -/
theorem doc_of_skeleton {u v : SourceUnit} (same : v.skeleton = u.skeleton) {doc : DocId}
    (h : ∀ m ∈ u.modules.values, ∀ key a, m.structs.get? key = some a → a.doc = doc) :
    ∀ m ∈ v.modules.values, ∀ key a, m.structs.get? key = some a → a.doc = doc := by
  intro m hm key a ha
  obtain ⟨n, hn, modules⟩ := exists_module_of_skeleton same hm
  have structs := Module.bare_struct_of_skeleton modules key
  rw [ha, Option.map_some] at structs
  obtain ⟨b, hb, bare⟩ := Option.map_eq_some_iff.1 structs
  exact (congrArg (fun c : Struct => c.doc) bare).symm.trans (h n hn key b hb)

theorem locations_skeleton (u : SourceUnit) : u.skeleton.locations = u.locations := by
  rw [locations_eq, locations_eq, skeleton, Table.values_map, List.flatMap_map]
  exact List.flatMap_congr fun m _ => Module.entriesOf_skeleton u.doc m

end SourceUnit

end C3Lens
