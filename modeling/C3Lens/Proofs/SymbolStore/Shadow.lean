import Mathlib.Data.List.Forall2
import C3Lens.Proofs.SymbolStore.Private

/-!
# The store without the contents of a module

`Shadows k s v` says that the store `v` is the store `s` with nothing in the module of the key `k`. If
nothing outside of the module leads into it (`Guarded`, `SourceUnit.StaysOut`), a registration does the
same to both: `Shadows.register`. So what the module contains does not change what becomes of all others.

The argument goes through the registration in its order. Types find the same homes (`home?_veil`), so
they are bound alike (`bindAll_veil`); then inline members inherit the same members, and those of the
module itself have no effect outside (`veil_foldl_settleInline`). What waits afterwards waits on both
sides, which is why the queues are compared as well: a later registration settles them.
-/

namespace C3Lens

/-- A module of one document. -/
structure ModuleKey where
  doc : DocId
  name : String
deriving DecidableEq

/-- The module that the type is written in. -/
def PendingType.key (t : PendingType) : ModuleKey :=
  ⟨t.doc, t.context⟩

/-- The module of the struct that waits for members. -/
def PendingInline.key (i : PendingInline) : ModuleKey :=
  ⟨i.doc, i.moduleName⟩

/-! ## Modules without contents -/

namespace Module

/-- What is written of a module where it is declared, apart from its contents. -/
def heading (m : Module) : Declaration × Bool :=
  ({ m.toDeclaration with range := m.nameRange }, m.isPrivate)

/-- The module as it is named, without imports and declarations. -/
def veil (m : Module) : Module :=
  { toDeclaration := m.heading.1, isPrivate := m.heading.2 }

@[simp] theorem veil_isPrivate (m : Module) : m.veil.isPrivate = m.isPrivate := rfl

variable {hidden m n : Module}

/-- `n` is `m`, or it is `m` without its contents and `m` is the module `hidden` up to resolution. -/
def Shades (hidden m n : Module) : Prop :=
  n = m ∨ m.skeleton = hidden.skeleton ∧ n = m.veil

theorem modulePath_of_skeleton (same : m.skeleton = hidden.skeleton) :
    m.modulePath = hidden.modulePath := by
  rw [← skeleton_modulePath, same, skeleton_modulePath]

theorem modulePath_of_shades (h : Shades hidden m n) : m.modulePath = n.modulePath := by
  rcases h with rfl | ⟨-, rfl⟩
  · rfl
  · rfl

theorem isPrivate_of_skeleton (same : m.skeleton = hidden.skeleton) :
    m.isPrivate = hidden.isPrivate := by
  show m.skeleton.isPrivate = hidden.skeleton.isPrivate
  rw [same]

theorem declaresType_of_skeleton (same : m.skeleton = hidden.skeleton) (name : String) :
    SymbolStore.declaresType name m = SymbolStore.declaresType name hidden := by
  rw [← declaresType_skeleton, same, declaresType_skeleton]

theorem declares_of_skeleton (same : m.skeleton = hidden.skeleton) (name : String) :
    m.declares name = hidden.declares name := by
  have kinds : ∀ o : Module, o.declares name = ((o.child? name).map fun s => s.isType || s.isAlias).isSome :=
    fun _ => (Option.isSome_map).symm
  rw [kinds, kinds, ← child?_skeleton_isType, same, child?_skeleton_isType]

theorem struct_of_skeleton (same : m.skeleton = hidden.skeleton) {name : String}
    (absent : hidden.structs.get? name = none) : m.structs.get? name = none := by
  have bare := bare_struct_of_skeleton same name
  rw [absent, Option.map_none, Option.map_eq_none_iff] at bare
  exact bare

/-- The methods of a type are read off the skeleton. -/
theorem function?_of_skeleton (same : m.skeleton = hidden.skeleton) {name : String}
    (absent : hidden.function? name = none) : m.function? name = none := by
  have skeleton : ∀ o : Module, o.skeleton.function? name = (o.function? name).map (·.mapModule fun _ => "") :=
    fun o => List.find?_map
  have found := skeleton m
  rw [same, skeleton, absent, Option.map_none, eq_comm, Option.map_eq_none_iff] at found
  exact found

end Module

section Lists

variable {hidden : Module} {ms ns : List Module}

/-- A choice that leaves out the hidden module. -/
theorem filter_shades (h : List.Forall₂ (Module.Shades hidden) ms ns) {q : Module → Bool}
    (out : ∀ m : Module, m.skeleton = hidden.skeleton → q m = false)
    (veiled : ∀ m : Module, m.skeleton = hidden.skeleton → q m.veil = false) : ns.filter q = ms.filter q := by
  induction h with
  | nil => rfl
  | @cons m n ms ns shades _ ih =>
    rw [List.filter_cons, List.filter_cons, ih]
    rcases shades with rfl | ⟨same, rfl⟩
    · rfl
    · rw [out m same, veiled m same, if_neg Bool.false_ne_true, if_neg Bool.false_ne_true]

/-- A choice by paths leaves a module on both sides, or on neither. -/
theorem filter_shades_path (h : List.Forall₂ (Module.Shades hidden) ms ns) {q : Module → Bool}
    (ofPath : ∀ m n : Module, m.modulePath = n.modulePath → q m = q n) :
    List.Forall₂ (Module.Shades hidden) (ms.filter q) (ns.filter q) := by
  induction h with
  | nil => exact .nil
  | @cons m n ms ns shades _ ih =>
    rw [List.filter_cons, List.filter_cons, ofPath m n (Module.modulePath_of_shades shades)]
    split
    · exact .cons shades ih
    · exact ih

theorem find?_shades (h : List.Forall₂ (Module.Shades hidden) ms ns) {q : Module → Bool}
    (out : ∀ m : Module, m.skeleton = hidden.skeleton → q m = false)
    (veiled : ∀ m : Module, m.skeleton = hidden.skeleton → q m.veil = false) : ns.find? q = ms.find? q := by
  rw [← List.head?_filter, ← List.head?_filter, filter_shades h out veiled]

/-- The hidden module has nothing to be found. -/
theorem findSome?_shades (h : List.Forall₂ (Module.Shades hidden) ms ns) {β : Type} {f : Module → Option β}
    (out : ∀ m : Module, m.skeleton = hidden.skeleton → f m = none)
    (veiled : ∀ m : Module, f m.veil = none) : ns.findSome? f = ms.findSome? f := by
  induction h with
  | nil => rfl
  | @cons m n ms ns shades _ ih =>
    rw [List.findSome?_cons, List.findSome?_cons, ih]
    rcases shades with rfl | ⟨same, rfl⟩
    · rfl
    · rw [out m same, veiled m]

end Lists

namespace SymbolStore

variable {k : ModuleKey} {hidden : Module} {s v : SymbolStore}

/-! ## Modules by their keys -/

/-- The module of a key. -/
def moduleOf? (s : SymbolStore) (k : ModuleKey) : Option Module :=
  (s.unit? k.doc).bind (·.module? k.name)

theorem moduleOf?_congr (units : v.units = s.units) (k : ModuleKey) : v.moduleOf? k = s.moduleOf? k := by
  rw [moduleOf?, unit?, units, moduleOf?, unit?]

theorem modules_congr (units : v.units = s.units) : v.modules = s.modules := by
  rw [modules, units, modules]

theorem moduleOf?_mapModules (f : String → String → Module → Module) (s : SymbolStore) (k : ModuleKey) :
    (s.mapModules f).moduleOf? k = (s.moduleOf? k).map (f k.doc.text k.name) := by
  rw [moduleOf?, unit?_mapModules, moduleOf?]
  cases s.unit? k.doc with
  | none => rfl
  | some u => exact Table.get?_mapEntries _ _ _

theorem moduleOf?_skeleton (s : SymbolStore) (k : ModuleKey) :
    s.skeleton.moduleOf? k = (s.moduleOf? k).map Module.skeleton := by
  rw [moduleOf?, unit?_skeleton, moduleOf?]
  cases s.unit? k.doc with
  | none => rfl
  | some u => exact SourceUnit.module?_skeleton u k.name

/-- A relation between the modules of a store and what they are changed to. -/
theorem forall₂_mapModules {R : Module → Module → Prop} {f : String → String → Module → Module}
    (h : ∀ j m, s.moduleOf? j = some m → R m (f j.doc.text j.name m)) :
    List.Forall₂ R s.modules (s.mapModules f).modules := by
  have values : ∀ e ∈ s.units.entries, List.Forall₂ R (e.2.modules.entries.map Prod.snd)
      ((e.2.modules.entries.map fun x => (x.1, f e.1 x.1 x.2)).map Prod.snd) := by
    intro e he
    rw [List.map_map, List.forall₂_map_left_iff, List.forall₂_map_right_iff, List.forall₂_same]
    intro x hx
    refine h ⟨⟨e.1⟩, x.1⟩ x.2 ?_
    have unit : s.unit? ⟨e.1⟩ = some e.2 := Table.mem_entries_iff.1 he
    rw [moduleOf?, unit]
    exact Table.mem_entries_iff.1 hx
  rw [modules, modules]
  show List.Forall₂ _ ((s.units.entries.map Prod.snd).flatMap _)
    (((s.units.entries.map _).map Prod.snd).flatMap _)
  generalize s.units.entries = es at values
  induction es with
  | nil => exact .nil
  | cons e es ih =>
    rw [List.forall_mem_cons] at values
    exact List.rel_append values.1 (ih values.2)

/-! ## The veiled store -/

/-- The store with nothing in the module of the key. -/
def veil (k : ModuleKey) (s : SymbolStore) : SymbolStore :=
  s.modifyModule k.doc k.name Module.veil

/-- Takes the contents of a module away, where it has the key. -/
def veilAt (k : ModuleKey) (doc name : String) (m : Module) : Module :=
  if doc = k.doc.text ∧ name = k.name then m.veil else m

theorem veil_eq (k : ModuleKey) (s : SymbolStore) : s.veil k = s.mapModules (veilAt k) :=
  modifyModule_eq s k.doc k.name Module.veil

theorem veilAt_self (k : ModuleKey) (m : Module) : veilAt k k.doc.text k.name m = m.veil :=
  if_pos ⟨rfl, rfl⟩

theorem veilAt_of_ne {j : ModuleKey} (ne : j ≠ k) (m : Module) : veilAt k j.doc.text j.name m = m := by
  refine if_neg fun same => ne ?_
  obtain ⟨⟨_⟩, _⟩ := j
  obtain ⟨⟨_⟩, _⟩ := k
  obtain ⟨rfl, rfl⟩ := same
  rfl

theorem moduleOf?_veil_of_ne {j : ModuleKey} (ne : j ≠ k) : (s.veil k).moduleOf? j = s.moduleOf? j := by
  rw [veil_eq, moduleOf?_mapModules, funext (veilAt_of_ne ne), Option.map_id']

/-- The module of the key, where it is registered, is `hidden` up to resolution. -/
def Hides (s : SymbolStore) (k : ModuleKey) (hidden : Module) : Prop :=
  ∀ m, s.moduleOf? k = some m → m.skeleton = hidden.skeleton

theorem Hides.of_skeleton (h : s.Hides k hidden) (same : v.skeleton = s.skeleton) : v.Hides k hidden := by
  intro m found
  have modules := moduleOf?_skeleton v k
  rw [same, moduleOf?_skeleton, found, Option.map_some, Option.map_eq_some_iff] at modules
  obtain ⟨n, hn, eq⟩ := modules
  exact eq.symm.trans (h n hn)

theorem Hides.modules (h : s.Hides k hidden) (units : v.units = (s.veil k).units) :
    List.Forall₂ (Module.Shades hidden) s.modules v.modules := by
  rw [modules_congr units, veil_eq]
  refine forall₂_mapModules fun j m found => ?_
  by_cases here : j = k
  · subst here
    exact .inr ⟨h m found, veilAt_self j m⟩
  · exact .inl (veilAt_of_ne here m)

theorem contains_veil (units : v.units = (s.veil k).units) (doc : DocId) : v.contains doc = s.contains doc := by
  rw [contains, units, veil_eq, contains, Bool.eq_iff_iff, Table.contains_iff, Table.contains_iff, mapModules,
    Table.names_mapEntries]

/-! ## Homes of types -/

theorem home?_eq (s : SymbolStore) (t : PendingType) :
    s.home? t = (s.moduleOf? t.key).bind fun context =>
      (if t.written != t.context then s.qualifiedHome? context t else s.plainHome? context t).map (·.name) := by
  rw [home?, moduleOf?]
  show _ = ((s.unit? t.doc).bind _).bind _
  cases s.unit? t.doc with
  | none => rfl
  | some u =>
    show (u.module? t.context).bind _ = (u.module? t.context).bind _
    cases u.module? t.context with
    | none => rfl
    | some context =>
      show (if _ then Option.bind _ _ else Option.bind _ _) = Option.map _ _
      split
      · cases s.qualifiedHome? context t <;> rfl
      · cases s.plainHome? context t <;> rfl

section Homes

variable {context : Module} {t : PendingType} (shades : List.Forall₂ (Module.Shades hidden) s.modules v.modules)
  (apart : hidden.mayHouse context t = false)

include shades apart

theorem qualifiedHome?_of_shades (qualified : (t.written != t.context) = true) :
    v.qualifiedHome? context t = s.qualifiedHome? context t := by
  rw [Module.mayHouse, if_pos qualified, Bool.and_comm] at apart
  have candidates := filter_shades shades
    (q := fun m => m.modulePath.endsWith (.parse t.written) && declaresType t.typeName m)
    (fun m same => by
      rw [Module.modulePath_of_skeleton same, Module.declaresType_of_skeleton same, apart])
    fun m _ => Bool.and_false _
  rw [qualifiedHome?, candidates, qualifiedHome?]

theorem plainHome?_of_shades (plain : ¬ (t.written != t.context) = true) :
    v.plainHome? context t = s.plainHome? context t := by
  have out : ∀ m : Module, m.skeleton = hidden.skeleton → ∀ q : Module → Bool, q m = q hidden →
      (declaresType t.typeName hidden && q hidden) = false → (declaresType t.typeName m && q m) = false := by
    intro m same q kept none
    rw [kept, Module.declaresType_of_skeleton same, none]
  have chosen : ∀ q : Module → Bool,
      (∀ m : Module, m.skeleton = hidden.skeleton → q m = q hidden) →
      (declaresType t.typeName hidden && q hidden) = false →
      (v.modules.filter (declaresType t.typeName)).find? q = (s.modules.filter (declaresType t.typeName)).find? q := by
    intro q kept none
    rw [List.find?_filter, List.find?_filter]
    exact find?_shades shades (fun m same => by simpa using out m same q (kept m same) none) fun m _ => rfl
  rw [Module.mayHouse, if_neg plain] at apart
  have relative := chosen (·.modulePath.isRelative context.modulePath)
    (fun m same => by rw [Module.modulePath_of_skeleton same]) (by
      cases declared : declaresType t.typeName hidden <;> simp_all)
  have imported := chosen (isImportedBy context)
    (fun m same => by rw [isImportedBy, Module.modulePath_of_skeleton same, isImportedBy]) (by
      cases declared : declaresType t.typeName hidden <;> simp_all)
  have any : context.imports.isEmpty = true → (v.modules.filter (declaresType t.typeName)).head? =
      (s.modules.filter (declaresType t.typeName)).head? := by
    intro none
    rw [none, Bool.or_true, Bool.and_true] at apart
    rw [filter_shades shades (fun m same => (Module.declaresType_of_skeleton same _).trans apart) fun m _ => rfl]
  rw [plainHome?, plainHome?, relative, imported]
  split
  next none => rw [any none]
  next => rfl

end Homes

/-- A type that is written elsewhere and cannot be bound to the module finds the same home. -/
theorem home?_veil (h : s.Hides k hidden) (units : v.units = (s.veil k).units) {t : PendingType} (ne : t.key ≠ k)
    (apart : ∀ context, s.moduleOf? t.key = some context → hidden.mayHouse context t = false) :
    v.home? t = s.home? t := by
  rw [home?_eq, home?_eq, moduleOf?_congr units, moduleOf?_veil_of_ne ne]
  cases found : s.moduleOf? t.key with
  | none => rfl
  | some context =>
    have shades := h.modules units
    show Option.map _ _ = Option.map _ _
    split
    next qualified => rw [qualifiedHome?_of_shades shades (apart context found) qualified]
    next plain => rw [plainHome?_of_shades shades (apart context found) plain]

/-! ## Binding types -/

theorem moduleAfter_congr_home {ts : List PendingType} (h : ∀ t ∈ ts, v.home? t = s.home? t) (type : TypeRef) :
    v.moduleAfter ts type = s.moduleAfter ts type := by
  induction ts generalizing type with
  | nil => rfl
  | cons t ts ih =>
    rw [List.forall_mem_cons] at h
    rw [moduleAfter, ih h.2, moduleUnder, h.1, moduleAfter, moduleUnder]

theorem PendingType.key_of_isIn {t : PendingType} {j : ModuleKey} (h : t.isIn j.doc.text j.name = true) :
    t.key = j := by
  obtain ⟨doc, name⟩ := PendingType.isIn_iff.1 h
  obtain ⟨⟨_⟩, _⟩ := j
  cases doc
  cases name
  rfl

/-- Modules outside are bound alike, and what is bound inside is veiled. -/
theorem bindAll_veil {ts us : List PendingType}
    (same : ∀ j : ModuleKey, j ≠ k → us.filter (·.isIn j.doc.text j.name) = ts.filter (·.isIn j.doc.text j.name))
    (homes : ∀ t ∈ ts, t.key ≠ k → (s.veil k).home? t = s.home? t) :
    (s.veil k).bindAll us = (s.bindAll ts).veil k := by
  have bound : (s.veil k).bindAll us = (s.mapModules (veilAt k)).mapModules fun doc name m =>
      m.mapModule ((s.veil k).moduleAfter (us.filter (·.isIn doc name))) := by
    rw [← veil_eq]
    rfl
  rw [bound, mapModules_mapModules, veil_eq k (s.bindAll ts), bindAll, mapModules_mapModules]
  congr
  funext doc name m
  by_cases here : (⟨⟨doc⟩, name⟩ : ModuleKey) = k
  -- The veil takes away whatever was bound inside, so the work of the module itself does not matter.
  · subst here
    rw [veilAt_self ⟨⟨doc⟩, name⟩, veilAt_self ⟨⟨doc⟩, name⟩]
    rfl
  · have there : us.filter (·.isIn doc name) = ts.filter (·.isIn doc name) := same ⟨⟨doc⟩, name⟩ here
    have homes' : ∀ t ∈ ts.filter (·.isIn doc name), (s.veil k).home? t = s.home? t := by
      intro t ht
      obtain ⟨mem, isIn⟩ := List.mem_filter.1 ht
      refine homes t mem fun at' => here ?_
      rw [← at', PendingType.key_of_isIn (j := ⟨⟨doc⟩, name⟩) isIn]
    rw [veilAt_of_ne here, veilAt_of_ne here, there, funext (moduleAfter_congr_home homes')]

/-! ## Expanding inline members -/

theorem inlinedMembers?_of_shades (shades : List.Forall₂ (Module.Shades hidden) s.modules v.modules)
    {i : PendingInline} (absent : hidden.structs.get? i.inlined = none) :
    v.inlinedMembers? i = s.inlinedMembers? i := by
  have named : List.Forall₂ (Module.Shades hidden) (s.modulesNamed i.moduleName) (v.modulesNamed i.moduleName) := by
    refine List.rel_filter (fun m n shade => ?_) shades
    rcases shade with rfl | ⟨-, rfl⟩
    · rfl
    · rfl
  have found : ∀ {ms ns : List Module}, List.Forall₂ (Module.Shades hidden) ms ns →
      ns.findSome? (·.structs.get? i.inlined) = ms.findSome? (·.structs.get? i.inlined) :=
    fun h => findSome?_shades h (fun m same => Module.struct_of_skeleton same absent) fun m => rfl
  rw [inlinedMembers?, inlinedStruct?, found named, found shades, inlinedMembers?, inlinedStruct?]

theorem awaits_eq (s : SymbolStore) (i : PendingInline) :
    s.awaits i = (((s.moduleOf? i.key).bind (·.structs.get? i.structName)).map fun host =>
      host.awaitedTypes.contains i.inlined).getD false := by
  rw [awaits, moduleOf?]
  show _ = ((((s.unit? i.doc).bind _).bind _).map _).getD false
  cases s.unit? i.doc with
  | none => rfl
  | some u =>
    show ((u.module? i.moduleName).bind _).getD false = (((u.module? i.moduleName).bind _).map _).getD false
    cases u.module? i.moduleName with
    | none => rfl
    | some m =>
      show ((m.structs.get? i.structName).bind _).getD false = ((m.structs.get? i.structName).map _).getD false
      cases m.structs.get? i.structName <;> rfl

/-- Changes of two modules do not depend on each other. -/
theorem veil_modifyModule_of_ne {j : ModuleKey} (ne : j ≠ k) (f : Module → Module) (s : SymbolStore) :
    (s.veil k).modifyModule j.doc j.name f = (s.modifyModule j.doc j.name f).veil k := by
  rw [veil_eq, veil_eq, modifyModule_eq, modifyModule_eq, mapModules_mapModules, mapModules_mapModules]
  congr
  funext doc name m
  by_cases here : doc = j.doc.text ∧ name = j.name
  · obtain ⟨rfl, rfl⟩ := here
    rw [if_pos ⟨rfl, rfl⟩, veilAt_of_ne ne, if_pos ⟨rfl, rfl⟩, veilAt_of_ne ne]
  · rw [if_neg here, if_neg here]

/-- What is changed in the module itself is not seen. -/
theorem veil_modifyModule_self {f : Module → Module} (kept : ∀ m, (f m).veil = m.veil) (s : SymbolStore) :
    (s.modifyModule k.doc k.name f).veil k = s.veil k := by
  rw [veil_eq, veil_eq, modifyModule_eq, mapModules_mapModules]
  congr
  funext doc name m
  by_cases here : doc = k.doc.text ∧ name = k.name
  · rw [if_pos here, veilAt, if_pos here, kept, veilAt, if_pos here]
  · rw [if_neg here]

theorem veil_congr_units {s' : SymbolStore} (h : s'.units = s.units) : (s'.veil k).units = (s.veil k).units := by
  rw [veil, modifyModule, h]
  rfl

/-- Puts members behind an inline member of a module. -/
def inheritFor (i : PendingInline) (members : List Member) (m : Module) : Module :=
  { m with structs := m.structs.modify i.structName (·.inherit i.inlined members) }

theorem units_settleInline_of_some {i : PendingInline} {members : List Member}
    (found : s.inlinedMembers? i = some members) :
    (s.settleInline i).units = (s.modifyModule i.doc i.moduleName (inheritFor i members)).units := by
  rw [settleInline, found]
  rfl

theorem units_settleInline_of_none {i : PendingInline} (absent : s.inlinedMembers? i = none) :
    (s.settleInline i).units = s.units := by
  rw [settleInline, absent]
  show (if s.awaits i then { s with pending := s.pending.addInline i } else s).units = s.units
  split <;> rfl

section Inlines

variable {i : PendingInline} (units : v.units = (s.veil k).units)
  (inlines : v.pending.inlines = s.pending.inlines.filter (·.key != k))

include units inlines

/-- An inline member outside inherits the same members, or waits on both sides. -/
theorem veil_settleInline (hides : s.Hides k hidden) (ne : i.key ≠ k)
    (absent : hidden.structs.get? i.inlined = none) :
    (v.settleInline i).units = ((s.settleInline i).veil k).units ∧
      (v.settleInline i).pending.inlines = (s.settleInline i).pending.inlines.filter (·.key != k) := by
  have members := inlinedMembers?_of_shades (hides.modules units) absent
  have awaited : v.awaits i = s.awaits i := by
    rw [awaits_eq, awaits_eq, moduleOf?_congr units, moduleOf?_veil_of_ne ne]
  constructor
  · cases found : s.inlinedMembers? i with
    | some ms =>
      rw [veil_congr_units (units_settleInline_of_some found), units_settleInline_of_some (members.trans found)]
      refine Eq.trans ?_ (congrArg SymbolStore.units (veil_modifyModule_of_ne (j := i.key) ne (inheritFor i ms) s))
      show v.units.modify i.doc.text (·.modify i.moduleName (inheritFor i ms)) =
        (s.veil k).units.modify i.doc.text (·.modify i.moduleName (inheritFor i ms))
      rw [units]
    | none =>
      rw [veil_congr_units (units_settleInline_of_none found), units_settleInline_of_none (members.trans found),
        units]
  · rw [inlines_settleInline, inlines_settleInline, members, awaited, inlines]
    split
    · have other : (i.key != k) = true := bne_iff_ne.2 ne
      exact (Pending.filter_addNew (p := fun j : PendingInline => j.key != k) other).symm
    · rfl

/-- An inline member of the module itself is not seen. -/
theorem veil_settleInline_self (own : i.key = k) :
    v.units = ((s.settleInline i).veil k).units ∧
      v.pending.inlines = (s.settleInline i).pending.inlines.filter (·.key != k) := by
  subst own
  constructor
  · cases found : s.inlinedMembers? i with
    | some ms =>
      rw [veil_congr_units (units_settleInline_of_some found), units]
      exact congrArg SymbolStore.units
        (veil_modifyModule_self (k := i.key) (f := inheritFor i ms) (fun _ => rfl) s).symm
    | none => rw [veil_congr_units (units_settleInline_of_none found), units]
  · rw [inlines]
    have kept : ([i].foldl SymbolStore.settleInline s).pending.inlines.filter (·.key != i.key) =
        s.pending.inlines.filter (·.key != i.key) := by
      refine filter_inlines_foldl_settleInline (fun j hj => ?_) s
      rw [List.mem_singleton.1 hj, bne_self_eq_false]
    exact kept.symm

end Inlines

/-- A queue of inline members does outside what it does without those of the module itself. -/
theorem veil_foldl_settleInline {is : List PendingInline} (units : v.units = (s.veil k).units)
    (inlines : v.pending.inlines = s.pending.inlines.filter (·.key != k)) (hides : s.Hides k hidden)
    (absent : ∀ i ∈ is, i.key ≠ k → hidden.structs.get? i.inlined = none) :
    ((is.filter (·.key != k)).foldl settleInline v).units = ((is.foldl settleInline s).veil k).units ∧
      ((is.filter (·.key != k)).foldl settleInline v).pending.inlines =
        (is.foldl settleInline s).pending.inlines.filter (·.key != k) := by
  induction is generalizing s v with
  | nil => exact ⟨units, inlines⟩
  | cons i is ih =>
    rw [List.forall_mem_cons] at absent
    have hides' := hides.of_skeleton (hoistsTo_settleInline s i).skeleton_eq
    rw [List.foldl_cons, List.filter_cons]
    by_cases own : i.key = k
    -- The shadow has no such work: only the full store takes the step.
    · rw [own, bne_self_eq_false, if_neg Bool.false_ne_true]
      obtain ⟨units', inlines'⟩ := veil_settleInline_self units inlines own
      exact ih units' inlines' hides' absent.2
    · rw [if_pos (bne_iff_ne.2 own), List.foldl_cons]
      obtain ⟨units', inlines'⟩ := veil_settleInline units inlines hides own (absent.1 own)
      exact ih units' inlines' hides' absent.2

/-! ## Shadows -/

/-- The store `v` has the units of `s` with nothing in the module of the key, and what waits in it is what
waits in `s` outside of this module. -/
structure Shadows (k : ModuleKey) (s v : SymbolStore) : Prop where
  units : v.units = (s.veil k).units
  types : ∀ context, v.pending.typesIn context = (s.pending.typesIn context).filter (·.key != k)
  inlines : v.pending.inlines = s.pending.inlines.filter (·.key != k)

/-- What is registered under the key is the module `hidden`, and nothing that waits outside leads into it. -/
structure Guarded (k : ModuleKey) (hidden : Module) (s : SymbolStore) : Prop where
  hides : s.Hides k hidden
  types : ∀ name, ∀ t ∈ s.pending.typesIn name, t.key ≠ k →
    ∀ context, s.moduleOf? t.key = some context → hidden.mayHouse context t = false
  inlines : ∀ i ∈ s.pending.inlines, i.key ≠ k → hidden.structs.get? i.inlined = none

/-- Only imports and path of the context count. -/
theorem mayHouse_of_skeleton {context context' : Module} (same : context'.skeleton = context.skeleton)
    (t : PendingType) : hidden.mayHouse context' t = hidden.mayHouse context t := by
  have imports : context'.imports = context.imports := by
    rw [← Module.skeleton_imports, same, Module.skeleton_imports]
  rw [Module.mayHouse, Module.mayHouse, isImportedBy, isImportedBy, imports, Module.modulePath_of_skeleton same]

section Settle

variable (h : Shadows k s v) (guarded : Guarded k hidden s) (hs : s.pending.Tidy) (hv : v.pending.Tidy)

include h guarded

theorem Shadows.waits {name : String} {t : PendingType} (ht : t ∈ s.pending.typesIn name) (ne : t.key ≠ k) :
    v.waits t = s.waits t := by
  rw [SymbolStore.waits, home?_veil guarded.hides h.units ne (guarded.types name t ht ne), contains_veil h.units,
    SymbolStore.waits]

include hs hv

/-- Settling does the same to a store and to its shadow. -/
theorem Shadows.settle : Shadows k s.settle v.settle := by
  have bound : (v.bindAll v.pending.types).units = ((s.bindAll s.pending.types).veil k).units := by
    rw [bindAll_congr_units h.units]
    refine congrArg SymbolStore.units (bindAll_veil (fun j ne => ?_) fun t ht ne => ?_)
    -- What waits in another module waits on both sides: the queues are grouped by contexts.
    · rw [hv.filter_isIn, hs.filter_isIn, h.types, List.filter_filter]
      refine List.filter_congr fun t ht => ?_
      by_cases doc : t.doc = j.doc
      · have key : t.key = j := by
          rw [PendingType.key, doc, hs.context_eq j.name t ht]
        rw [key, bne_iff_ne.2 ne, Bool.and_true]
      · rw [beq_eq_false_iff_ne.2 doc, Bool.false_and]
    · obtain ⟨name, ht⟩ := Pending.mem_types_iff.1 ht
      exact home?_veil guarded.hides rfl ne (guarded.types name t ht ne)
  have expanded := veil_foldl_settleInline
    (s := { s.bindAll s.pending.types with pending := { s.pending with inlines := [] } })
    (v := { v.bindAll v.pending.types with pending := { v.pending with inlines := [] } })
    (bound.trans (veil_congr_units rfl)) rfl
    (guarded.hides.of_skeleton ((skeleton_eq_of_units rfl).trans (skeleton_bindAll s _))) guarded.inlines
  refine ⟨?_, fun context => ?_, ?_⟩
  · rw [(units_settle v).1, veil_congr_units (units_settle s).1, expandAll, expandAll, h.inlines]
    exact expanded.1
  · rw [typesIn_settle hv, typesIn_settle hs, h.types, List.filter_filter, List.filter_filter]
    refine List.filter_congr fun t ht => ?_
    by_cases own : t.key = k
    · rw [own, bne_self_eq_false, Bool.and_false, Bool.false_and]
    · rw [h.waits guarded ht own, Bool.and_comm]
  · rw [(units_settle v).2, (units_settle s).2, expandAll, expandAll, h.inlines]
    exact expanded.2

end Settle

theorem Guarded.settle (h : Guarded k hidden s) (hs : s.pending.Tidy) : Guarded k hidden s.settle := by
  have skeleton := skeleton_settle s
  refine ⟨h.hides.of_skeleton skeleton, fun name t ht ne context found => ?_, fun i hi => ?_⟩
  · rw [typesIn_settle hs] at ht
    have contexts := moduleOf?_skeleton s.settle t.key
    rw [skeleton, moduleOf?_skeleton, found, Option.map_some, Option.map_eq_some_iff] at contexts
    obtain ⟨before, known, same⟩ := contexts
    rw [← mayHouse_of_skeleton same]
    exact h.types name t (List.mem_of_mem_filter ht) ne before known
  · rw [(units_settle s).2, expandAll] at hi
    rcases mem_inlines_foldl_settleInline hi with none | waits
    · exact absurd none List.not_mem_nil
    · exact h.inlines i waits

end SymbolStore

/-! ## Registering -/

/-- The unit with nothing in the module of the key. -/
def SourceUnit.veil (k : ModuleKey) (u : SourceUnit) : SourceUnit :=
  if u.doc = k.doc then u.modify k.name Module.veil else u

/-- The queue `q` is the queue `p` without the work of the module. -/
structure Pending.Omits (k : ModuleKey) (p q : Pending) : Prop where
  tidy : q.Tidy
  types : ∀ context, q.typesIn context = (p.typesIn context).filter (·.key != k)
  inlines : q.inlines = p.inlines.filter (·.key != k)

/-- A unit with its pending work leads nowhere into the module `hidden`, apart from what stands in the module
of the key. -/
structure SourceUnit.StaysOut (k : ModuleKey) (hidden : Module) (u : SourceUnit) (p : Pending) : Prop where
  types : ∀ t ∈ p.types, t.key ≠ k → ∀ context ∈ u.module? t.context, hidden.mayHouse context t = false
  inlines : ∀ i ∈ p.inlines, i.key ≠ k → hidden.structs.get? i.inlined = none
  declarations : ∀ m ∈ (u.veil k).modules.values, hidden.avoids m = true

instance (k : ModuleKey) (hidden : Module) (u : SourceUnit) (p : Pending) : Decidable (u.StaysOut k hidden p) :=
  decidable_of_iff
    ((∀ t ∈ p.types, t.key ≠ k → ∀ context ∈ u.module? t.context, hidden.mayHouse context t = false) ∧
      (∀ i ∈ p.inlines, i.key ≠ k → hidden.structs.get? i.inlined = none) ∧
      ∀ m ∈ (u.veil k).modules.values, hidden.avoids m = true)
    ⟨fun h => ⟨h.1, h.2.1, h.2.2⟩, fun h => ⟨h.types, h.inlines, h.declarations⟩⟩

theorem SourceUnit.doc_veil (k : ModuleKey) (u : SourceUnit) : (u.veil k).doc = u.doc := by
  rw [veil]
  split
  · rfl
  · rfl

/-- The queue without the work of the module. -/
def Pending.without (k : ModuleKey) (p : Pending) : Pending :=
  { p.filterTypes (·.key != k) with inlines := p.inlines.filter (·.key != k) }

theorem Pending.omits_without {k : ModuleKey} {p q : Pending} (hp : p.Tidy) (hq : q.Tidy)
    (types : p.types.filter (·.key != k) = q.types.filter (·.key != k))
    (inlines : p.inlines.filter (·.key != k) = q.inlines.filter (·.key != k)) : q.Omits k (p.without k) where
  tidy := (hp.filterTypes _).of_groups rfl
  types context := by
    show (p.filterTypes (·.key != k)).typesIn context = _
    rw [typesIn_filterTypes, ← hp.filter_types, List.filter_comm, types, List.filter_comm, hq.filter_types]
  inlines := inlines

/-- Another document has no work in the module. -/
theorem Pending.Omits.of_belongsTo {k : ModuleKey} {p : Pending} {doc : DocId} (tidy : p.Tidy)
    (own : p.BelongsTo doc) (other : doc ≠ k.doc) : p.Omits k p where
  tidy := tidy
  types context := by
    refine (List.filter_eq_self.2 fun t ht => bne_iff_ne.2 fun same => other ?_).symm
    rw [← own.types t (mem_types_iff.2 ⟨context, ht⟩), ← same, PendingType.key]
  inlines := by
    refine (List.filter_eq_self.2 fun i hi => bne_iff_ne.2 fun same => other ?_).symm
    rw [← own.inlines i hi, ← same, PendingInline.key]

theorem Pending.Omits.belongsTo {k : ModuleKey} {p q : Pending} {doc : DocId} (h : p.Omits k q)
    (own : p.BelongsTo doc) : q.BelongsTo doc := by
  refine ⟨fun t ht => ?_, fun i hi => ?_⟩
  · obtain ⟨context, ht⟩ := mem_types_iff.1 ht
    rw [h.types] at ht
    exact own.types t (mem_types_iff.2 ⟨context, List.mem_of_mem_filter ht⟩)
  · rw [h.inlines] at hi
    exact own.inlines i (List.mem_of_mem_filter hi)

namespace SymbolStore

section Register

variable {k : ModuleKey} {hidden : Module} {s v : SymbolStore} {u : SourceUnit} {p q : Pending}

theorem moduleOf?_placed (s : SymbolStore) (u : SourceUnit) (p : Pending) (j : ModuleKey) :
    (s.placed u p).moduleOf? j = if j.doc = u.doc then u.module? j.name else s.moduleOf? j := by
  rw [moduleOf?, unit?_placed, moduleOf?]
  split
  · rfl
  · rfl

theorem units_placed_veil (s : SymbolStore) (u : SourceUnit) (p : Pending) :
    ((s.placed u p).veil k).units = (s.veil k).units.insert u.doc.text (u.veil k) := by
  show (s.units.insert u.doc.text u).modify k.doc.text (·.modify k.name Module.veil) =
    (s.units.modify k.doc.text (·.modify k.name Module.veil)).insert u.doc.text (u.veil k)
  rw [Table.modify, Table.mapEntries_insert, ← Table.modify, SourceUnit.veil]
  simp only [DocId.text_inj]

theorem Shadows.placed (h : Shadows k s v) (hp : p.Tidy) (own : p.BelongsTo u.doc) (omits : p.Omits k q) :
    Shadows k (s.placed u p) (v.placed (u.veil k) q) := by
  have doc := u.doc_veil k
  have own' : q.BelongsTo (u.veil k).doc := doc ▸ omits.belongsTo own
  refine ⟨?_, fun context => ?_, ?_⟩
  · rw [units_placed_veil, ← h.units, ← doc]
    rfl
  · rw [typesIn_placed omits.tidy own', typesIn_placed hp own, h.types, omits.types, doc, List.filter_append,
      List.filter_filter, List.filter_filter]
    simp only [Bool.and_comm]
  · show ((v.pending.purge _).append q).inlines = ((s.pending.purge _).append p).inlines.filter _
    rw [Pending.inlines_purge_append own', Pending.inlines_purge_append own, h.inlines, omits.inlines, doc,
      List.filter_append, List.filter_filter, List.filter_filter, Pending.filter_foldl_addNew]
    simp only [Bool.and_comm]
    rfl

theorem Guarded.placed (h : Guarded k hidden s) (hp : p.Tidy) (own : p.BelongsTo u.doc)
    (out : u.StaysOut k hidden p)
    (declared : u.doc = k.doc → ∀ m, u.module? k.name = some m → m.skeleton = hidden.skeleton) :
    Guarded k hidden (s.placed u p) := by
  refine ⟨fun m found => ?_, fun name t ht ne context found => ?_, fun i hi ne => ?_⟩
  · rw [moduleOf?_placed] at found
    split at found
    next same => exact declared same.symm m found
    next => exact h.hides m found
  · rw [typesIn_placed hp own, List.mem_append, List.mem_filter, bne_iff_ne] at ht
    rw [moduleOf?_placed] at found
    rcases ht with ⟨old, other⟩ | new
    · have there : t.key.doc ≠ u.doc := other
      rw [if_neg there] at found
      exact h.types name t old ne context found
    · have here : t.key.doc = u.doc := doc_of_mem_typesIn own new
      rw [if_pos here] at found
      exact out.types t (Pending.mem_types_iff.2 ⟨name, new⟩) ne context found
  · have queue : (s.placed u p).pending.inlines = _ := Pending.inlines_purge_append own
    rw [queue, List.mem_append] at hi
    rcases hi with old | new
    · exact h.inlines i (List.mem_of_mem_filter old) ne
    · rw [Pending.mem_foldl_addNew, or_iff_right List.not_mem_nil] at new
      exact out.inlines i new ne

/-- **A registration does outside of a module what it would do if the module were empty.** -/
theorem Shadows.register (h : Shadows k s v) (guarded : Guarded k hidden s) (hs : s.pending.Tidy)
    (hv : v.pending.Tidy) (hp : p.Tidy) (own : p.BelongsTo u.doc) (omits : p.Omits k q)
    (out : u.StaysOut k hidden p)
    (declared : u.doc = k.doc → ∀ m, u.module? k.name = some m → m.skeleton = hidden.skeleton) :
    Shadows k (s.register u p) (v.register (u.veil k) q) :=
  (h.placed hp own omits).settle (guarded.placed hp own out declared) (tidy_placed hs u p)
    (tidy_placed hv (u.veil k) q)

end Register

end SymbolStore

end C3Lens
