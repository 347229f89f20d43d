import Mathlib.Data.Option.Basic
import C3Lens.Proofs.Symbol.Moved
import C3Lens.Proofs.Symbol.Resolution

/-!
# Forgetting and moving a unit

What resolution reads to find the home of a type, and to see whether an inline member can be
expanded, is already in the skeleton of the store, which resolution does not change:
`home?_skeleton`, `isSome_inlinedMembers?_skeleton`.

When a unit is forgotten nothing is found that was not found before: a pending type without a home
gets none (`home?_delete`), and an inline member without members gets none either
(`inlinedMembers?_delete`). The same is true of the other documents when a unit is moved to a free id
(`home?_rename`, `inlinedMembers?_rename`).
-/

namespace C3Lens.SymbolStore

/-- The units without what resolution changes, and no pending work. -/
def skeleton (s : SymbolStore) : SymbolStore :=
  ⟨s.units.map SourceUnit.skeleton, .empty⟩

@[simp] theorem names_skeleton (s : SymbolStore) : s.skeleton.units.names = s.units.names :=
  Table.names_map _ _

@[simp] theorem unit?_skeleton (s : SymbolStore) (doc : DocId) :
    s.skeleton.unit? doc = (s.unit? doc).map SourceUnit.skeleton :=
  Table.get?_map _ _ _

@[simp] theorem contains_skeleton (s : SymbolStore) (doc : DocId) :
    s.skeleton.contains doc = s.contains doc := by
  show (s.skeleton.unit? doc).isSome = (s.unit? doc).isSome
  rw [unit?_skeleton, Option.isSome_map]

@[simp] theorem modules_skeleton (s : SymbolStore) :
    s.skeleton.modules = s.modules.map Module.skeleton := by
  rw [modules, modules, skeleton, Table.values_map, List.flatMap_map, List.map_flatMap]
  exact List.flatMap_congr fun u _ => Table.values_map _ _

theorem unit?_of_skeleton {s s' : SymbolStore} {doc : DocId} {v : SourceUnit}
    (same : s'.skeleton = s.skeleton) (unit : s'.unit? doc = some v) :
    ∃ u, s.unit? doc = some u ∧ v.skeleton = u.skeleton := by
  have units := congrArg (SymbolStore.unit? · doc) same
  simp only [unit?_skeleton, unit, Option.map_some] at units
  obtain ⟨u, hu, eq⟩ := Option.map_eq_some_iff.1 units.symm
  exact ⟨u, hu, eq.symm⟩

theorem skeleton_eq_of_units {s s' : SymbolStore} (h : s'.units = s.units) : s'.skeleton = s.skeleton := by
  rw [skeleton, skeleton, h]

/-! ## Homes of types -/

/-- A choice among modules that reads the skeletons only. -/
theorem find?_modules_skeleton (s : SymbolStore) {p q : Module → Bool}
    (hp : ∀ m, p m.skeleton = p m) (hq : ∀ m, q m.skeleton = q m) :
    (s.skeleton.modules.filter p).find? q = ((s.modules.filter p).find? q).map Module.skeleton := by
  have hp' : p ∘ Module.skeleton = p := funext hp
  have hq' : q ∘ Module.skeleton = q := funext hq
  rw [modules_skeleton, List.filter_map, hp', List.find?_map, hq']

theorem head?_modules_skeleton (s : SymbolStore) {p : Module → Bool} (hp : ∀ m, p m.skeleton = p m) :
    (s.skeleton.modules.filter p).head? = ((s.modules.filter p).head?).map Module.skeleton := by
  have hp' : p ∘ Module.skeleton = p := funext hp
  rw [modules_skeleton, List.filter_map, hp', List.head?_map]

theorem qualifiedHome?_skeleton (s : SymbolStore) (context : Module) (t : PendingType) :
    s.skeleton.qualifiedHome? context.skeleton t = (s.qualifiedHome? context t).map Module.skeleton := by
  have candidate : ∀ m : Module,
      (m.skeleton.modulePath.endsWith (.parse t.written) && declaresType t.typeName m.skeleton) =
        (m.modulePath.endsWith (.parse t.written) && declaresType t.typeName m) := fun m => by
    rw [Module.declaresType_skeleton, Module.skeleton_modulePath]
  have imported : ∀ m : Module,
      isImportedBy context.skeleton m.skeleton = isImportedBy context.skeleton m := fun _ => rfl
  rw [qualifiedHome?, find?_modules_skeleton s candidate imported, head?_modules_skeleton s candidate,
    qualifiedHome?, map_orElse]
  rfl

theorem plainHome?_skeleton (s : SymbolStore) (context : Module) (t : PendingType) :
    s.skeleton.plainHome? context.skeleton t = (s.plainHome? context t).map Module.skeleton := by
  have candidate := Module.declaresType_skeleton t.typeName
  have relative : ∀ m : Module, m.skeleton.modulePath.isRelative context.skeleton.modulePath =
      m.modulePath.isRelative context.skeleton.modulePath := fun _ => rfl
  have imported : ∀ m : Module,
      isImportedBy context.skeleton m.skeleton = isImportedBy context.skeleton m := fun _ => rfl
  have any : (if context.imports.isEmpty then
        ((s.modules.filter (declaresType t.typeName)).head?).map Module.skeleton else none) =
      (if context.imports.isEmpty then (s.modules.filter (declaresType t.typeName)).head?
        else none).map Module.skeleton := by
    split <;> rfl
  rw [plainHome?, find?_modules_skeleton s candidate relative,
    find?_modules_skeleton s candidate imported, head?_modules_skeleton s candidate,
    Module.skeleton_imports, any, plainHome?, map_orElse, map_orElse]
  rfl

/-- The home of a type is read off the skeleton. -/
theorem home?_skeleton (s : SymbolStore) (t : PendingType) : s.skeleton.home? t = s.home? t := by
  simp only [home?, unit?_skeleton]
  cases s.unit? t.doc with
  | none => rfl
  | some u =>
    simp only [Option.map_some, Option.bind_eq_bind, Option.bind_some, SourceUnit.module?_skeleton]
    cases u.module? t.context with
    | none => rfl
    | some context =>
      simp only [Option.map_some, Option.bind_some, qualifiedHome?_skeleton, plainHome?_skeleton]
      split
      · cases s.qualifiedHome? context t <;> rfl
      · cases s.plainHome? context t <;> rfl

theorem home?_congr {s s' : SymbolStore} (h : s'.skeleton = s.skeleton) (t : PendingType) :
    s'.home? t = s.home? t := by
  rw [← home?_skeleton s', h, home?_skeleton]

theorem contains_congr {s s' : SymbolStore} (h : s'.skeleton = s.skeleton) (doc : DocId) :
    s'.contains doc = s.contains doc := by
  rw [← contains_skeleton s', h, contains_skeleton]

theorem names_congr {s s' : SymbolStore} (h : s'.skeleton = s.skeleton) :
    s'.units.names = s.units.names := by
  rw [← names_skeleton s', h, names_skeleton]

/-! ## Structs to inline -/

theorem findSome?_struct_skeleton (ms : List Module) (name : String) :
    (ms.map Module.skeleton).findSome? (·.structs.get? name) =
      (ms.findSome? (·.structs.get? name)).map Aggregate.bare := by
  induction ms with
  | nil => rfl
  | cons m ms ih =>
    have one : m.skeleton.structs.get? name = (m.structs.get? name).map Aggregate.bare :=
      Table.get?_map _ _ _
    rw [List.map_cons, List.findSome?_cons, List.findSome?_cons, one, ih]
    cases m.structs.get? name <;> rfl

theorem inlinedStruct?_skeleton (s : SymbolStore) (i : PendingInline) :
    s.skeleton.inlinedStruct? i = (s.inlinedStruct? i).map Aggregate.bare := by
  have named : s.skeleton.modulesNamed i.moduleName =
      (s.modulesNamed i.moduleName).map Module.skeleton := by
    rw [modulesNamed, modules_skeleton, List.filter_map]
    rfl
  rw [inlinedStruct?, named, modules_skeleton, findSome?_struct_skeleton, findSome?_struct_skeleton,
    inlinedStruct?, map_orElse]

/-- Whether there are members to inline is read off the skeleton. -/
theorem isSome_inlinedMembers?_skeleton (s : SymbolStore) (i : PendingInline) :
    (s.skeleton.inlinedMembers? i).isSome = (s.inlinedMembers? i).isSome := by
  simp only [inlinedMembers?, inlinedStruct?_skeleton]
  cases s.inlinedStruct? i with
  | none => rfl
  | some a =>
    simp only [Option.map_some, Option.bind_eq_bind, Option.bind_some, Aggregate.bare]
    split <;> rfl

theorem isSome_inlinedMembers?_congr {s s' : SymbolStore} (h : s'.skeleton = s.skeleton)
    (i : PendingInline) : (s'.inlinedMembers? i).isSome = (s.inlinedMembers? i).isSome := by
  rw [← isSome_inlinedMembers?_skeleton s', h, isSome_inlinedMembers?_skeleton]


section Delete

variable {s : SymbolStore} {doc : DocId}

theorem unit?_delete (s : SymbolStore) (doc other : DocId) :
    (s.delete doc).unit? other = if other = doc then none else s.unit? other := by
  show (s.units.erase doc.text).get? other.text = _
  rw [Table.get?_erase]
  simp only [DocId.text_inj]
  rfl

theorem modules_delete_subset (s : SymbolStore) (doc : DocId) : (s.delete doc).modules ⊆ s.modules := by
  intro m hm
  obtain ⟨u, hu, hm⟩ := List.mem_flatMap.1 hm
  obtain ⟨name, found⟩ := Table.mem_values_iff.1 hu
  have kept : (s.units.erase doc.text).get? name = some u := found
  rw [Table.get?_erase] at kept
  split at kept
  · cases kept
  · exact List.mem_flatMap.2 ⟨u, Table.mem_values_iff.2 ⟨name, kept⟩, hm⟩

/-! ## Homes -/

/-- Two modules that are the home of the same types. -/
structure Resembles (m n : Module) : Prop where
  path : n.modulePath = m.modulePath
  declares : ∀ name, declaresType name n = declaresType name m

theorem Resembles.refl (m : Module) : Resembles m m :=
  ⟨rfl, fun _ => rfl⟩

theorem find?_filter_eq_none {ms ns : List Module} {p q : Module → Bool}
    (sub : ∀ m ∈ ns, ∃ n ∈ ms, p n = p m ∧ q n = q m) (h : (ms.filter p).find? q = none) :
    (ns.filter p).find? q = none := by
  rw [List.find?_eq_none] at h ⊢
  intro m hm
  have mem := List.mem_filter.1 hm
  obtain ⟨n, hn, chosen, taken⟩ := sub m mem.1
  rw [← taken]
  exact h n (List.mem_filter.2 ⟨hn, chosen.trans mem.2⟩)

theorem head?_filter_eq_none {ms ns : List Module} {p : Module → Bool}
    (sub : ∀ m ∈ ns, ∃ n ∈ ms, p n = p m) (h : (ms.filter p).head? = none) :
    (ns.filter p).head? = none := by
  rw [List.head?_eq_none_iff, List.filter_eq_nil_iff] at h ⊢
  intro m hm
  obtain ⟨n, hn, chosen⟩ := sub m hm
  rw [← chosen]
  exact h n hn

/-- A type without a home has none among modules that are not new either. -/
theorem home?_eq_none_of_resembles {s s' : SymbolStore} {t : PendingType} (h : s.home? t = none)
    (unit : s'.unit? t.doc = s.unit? t.doc) (sub : ∀ m ∈ s'.modules, ∃ n ∈ s.modules, Resembles m n) :
    s'.home? t = none := by
  rw [home?] at h ⊢
  rw [unit]
  cases hu : s.unit? t.doc with
  | none => rfl
  | some u =>
    rw [hu] at h
    simp only [Option.bind_eq_bind, Option.bind_some] at h ⊢
    cases hm : u.module? t.context with
    | none => rfl
    | some context =>
      have named : ∀ home : Option Module,
          (home.bind fun m => (some m.name : Option String)) = none ↔ home = none := by
        intro home
        cases home <;> simp
      have found : ∀ {p q : Module → Bool}, (∀ m n, Resembles m n → p n = p m ∧ q n = q m) →
          (s.modules.filter p).find? q = none → (s'.modules.filter p).find? q = none := by
        intro p q hpq
        refine find?_filter_eq_none fun m hm => ?_
        obtain ⟨n, hn, like⟩ := sub m hm
        exact ⟨n, hn, hpq m n like⟩
      have first : ∀ {p : Module → Bool}, (∀ m n, Resembles m n → p n = p m) →
          (s.modules.filter p).head? = none → (s'.modules.filter p).head? = none := by
        intro p hp
        refine head?_filter_eq_none fun m hm => ?_
        obtain ⟨n, hn, like⟩ := sub m hm
        exact ⟨n, hn, hp m n like⟩
      have imported : ∀ m n, Resembles m n → isImportedBy context n = isImportedBy context m := by
        intro m n like
        rw [isImportedBy, isImportedBy, like.path]
      rw [hm] at h
      simp only [Option.bind_some] at h ⊢
      split
      next qualified =>
        rw [if_pos qualified] at h
        have nowhere := (named _).1 h
        refine (named _).2 ?_
        rw [qualifiedHome?, Option.orElse_eq_none] at nowhere ⊢
        have candidate : ∀ m n, Resembles m n →
            (n.modulePath.endsWith (.parse t.written) && declaresType t.typeName n) =
              (m.modulePath.endsWith (.parse t.written) && declaresType t.typeName m) := by
          intro m n like
          rw [like.path, like.declares]
        exact ⟨found (fun m n like => ⟨candidate m n like, imported m n like⟩) nowhere.1,
          first candidate nowhere.2⟩
      next plain =>
        rw [if_neg plain] at h
        have nowhere := (named _).1 h
        refine (named _).2 ?_
        rw [plainHome?, Option.orElse_eq_none, Option.orElse_eq_none] at nowhere ⊢
        obtain ⟨relative, outside, any⟩ := nowhere
        have candidate : ∀ m n, Resembles m n →
            declaresType t.typeName n = declaresType t.typeName m := fun m n like => like.declares _
        refine ⟨found (fun m n like => ⟨candidate m n like, ?_⟩) relative,
          found (fun m n like => ⟨candidate m n like, imported m n like⟩) outside, ?_⟩
        · rw [like.path]
        · split
          next alone =>
            rw [if_pos alone] at any
            exact first candidate any
          next => rfl

/-- A type without a home finds none after another document is forgotten. -/
theorem home?_delete {t : PendingType} (h : s.home? t = none) (ne : t.doc ≠ doc) :
    (s.delete doc).home? t = none := by
  refine home?_eq_none_of_resembles h ?_ fun m hm => ?_
  · rw [unit?_delete, if_neg ne]
  · exact ⟨m, modules_delete_subset s doc hm, Resembles.refl m⟩

/-! ## Members -/

/-- Every struct is one of the document whose unit declares it. -/
def OwnsStructs (s : SymbolStore) : Prop :=
  ∀ name u, s.units.get? name = some u → ∀ m ∈ u.modules.values, ∀ key a,
    m.structs.get? key = some a → a.doc.text = name

/-- The structs of the document's own unit are its own. -/
def OwnsStructsOf (s : SymbolStore) (doc : DocId) : Prop :=
  ∀ u, s.unit? doc = some u → ∀ m ∈ u.modules.values, ∀ key a, m.structs.get? key = some a → a.doc = doc

theorem OwnsStructs.of (own : s.OwnsStructs) (doc : DocId) : s.OwnsStructsOf doc :=
  fun u hu m hm key a ha => DocId.text_inj.1 (own doc.text u hu m hm key a ha)

/-- The first struct that is found stays the first one, if it is not one of the forgotten unit. -/
theorem findSome?_delete (own : s.OwnsStructsOf doc) (p : Module → Bool) (name : String) {i : DocId}
    (ne : i ≠ doc) :
    ((s.modules.filter p).findSome? (·.structs.get? name) = none →
      ((s.delete doc).modules.filter p).findSome? (·.structs.get? name) = none) ∧
    ∀ a, a.doc = i → (s.modules.filter p).findSome? (·.structs.get? name) = some a →
      ((s.delete doc).modules.filter p).findSome? (·.structs.get? name) = some a := by
  have owners : ∀ e ∈ s.units.entries, e.1 = doc.text → ∀ m ∈ e.2.modules.values, ∀ a,
      m.structs.get? name = some a → a.doc = doc := by
    intro e he here m hm a ha
    have unit : s.unit? doc = some e.2 := Table.mem_entries_iff.1 (here ▸ he)
    exact own e.2 unit m hm name a ha
  have units : (s.delete doc).modules.filter p =
      (s.units.entries.filter fun e => e.1 != doc.text).flatMap fun e => e.2.modules.values.filter p := by
    rw [modules, List.filter_flatMap]
    show ((s.units.erase doc.text).values).flatMap _ = _
    rw [Table.values, Table.entries_erase, List.flatMap_map]
  have before : s.modules.filter p = s.units.entries.flatMap fun e => e.2.modules.values.filter p := by
    rw [modules, List.filter_flatMap, Table.values, List.flatMap_map]
  rw [units, before]
  revert owners
  generalize s.units.entries = es
  intro owners
  induction es with
  | nil => exact ⟨fun _ => rfl, fun a _ h => by cases h⟩
  | cons e es ih =>
    have rest := ih fun e he => owners e (List.mem_cons_of_mem _ he)
    rw [List.flatMap_cons, List.findSome?_append, List.filter_cons]
    split
    next kept =>
      rw [List.flatMap_cons, List.findSome?_append]
      cases (e.2.modules.values.filter p).findSome? (·.structs.get? name) with
      | none => exact rest
      | some b => exact ⟨id, fun a _ h => h⟩
    next gone =>
      rw [bne_iff_ne, not_not] at gone
      cases found : (e.2.modules.values.filter p).findSome? (·.structs.get? name) with
      | none => exact rest
      | some b =>
        refine ⟨fun h => (by cases h), fun a hi h => absurd ?_ ne⟩
        cases h
        obtain ⟨m, hm, hb⟩ := List.exists_of_findSome?_eq_some found
        rw [← hi]
        exact owners e List.mem_cons_self gone m (List.mem_of_mem_filter hm) _ hb

/-- An inline member without members has none among modules where the same structs come first. -/
theorem inlinedMembers?_eq_none_of_first {s s' : SymbolStore} {i : PendingInline}
    (first : ∀ p : Module → Bool, ((∀ m : Module, p m = (m.name == i.moduleName)) ∨ ∀ m, p m = true) →
      ((s.modules.filter p).findSome? (·.structs.get? i.inlined) = none →
        (s'.modules.filter p).findSome? (·.structs.get? i.inlined) = none) ∧
      ∀ a, a.doc = i.doc → (s.modules.filter p).findSome? (·.structs.get? i.inlined) = some a →
        (s'.modules.filter p).findSome? (·.structs.get? i.inlined) = some a)
    (h : s.inlinedMembers? i = none) : s'.inlinedMembers? i = none := by
  have named := first (·.name == i.moduleName) (.inl fun _ => rfl)
  have any := first (fun _ => true) (.inr fun _ => rfl)
  have shown : ∀ t : SymbolStore, t.inlinedMembers? i = none ↔
      ∀ a, t.inlinedStruct? i = some a → a.name = i.structName ∧ a.doc = i.doc := by
    intro t
    rw [inlinedMembers?]
    cases t.inlinedStruct? i with
    | none => simp
    | some a =>
      show (if a.name == i.structName && a.doc == i.doc then none else some a.members) = none ↔ _
      simp
  rw [List.filter_true, List.filter_true] at any
  rw [shown, inlinedStruct?, modulesNamed] at h ⊢
  cases first : (s.modules.filter (·.name == i.moduleName)).findSome? (·.structs.get? i.inlined) with
  | some a =>
    rw [first] at h
    have self := h a rfl
    rw [named.2 a self.2 first]
    exact h
  | none =>
    rw [first] at h
    rw [named.1 first]
    cases second : s.modules.findSome? (·.structs.get? i.inlined) with
    | some a =>
      rw [second] at h
      have self := h a rfl
      rw [any.2 a self.2 second]
      exact h
    | none =>
      rw [any.1 second]
      intro a ha
      cases ha

/-- An inline member without members finds none after another document is forgotten. -/
theorem inlinedMembers?_delete (own : s.OwnsStructsOf doc) {i : PendingInline}
    (h : s.inlinedMembers? i = none) (ne : i.doc ≠ doc) : (s.delete doc).inlinedMembers? i = none :=
  inlinedMembers?_eq_none_of_first (fun p _ => findSome?_delete own p i.inlined ne) h

end Delete

/-! ## Moves -/

section Rename

variable {s : SymbolStore} {old new : DocId} {u : SourceUnit}

theorem rename_of_unit? (unit : s.unit? old = some u) :
    s.rename old new =
      ⟨(s.units.erase old.text).insert new.text (u.setDoc new), s.pending.rename old new⟩ := by
  rw [rename, unit]

theorem unit?_rename (unit : s.unit? old = some u) (doc : DocId) :
    (s.rename old new).unit? doc =
      if doc = new then some (u.setDoc new) else if doc = old then none else s.unit? doc := by
  rw [rename_of_unit? unit]
  show ((s.units.erase old.text).insert new.text (u.setDoc new)).get? doc.text = _
  rw [Table.get?_insert, Table.get?_erase]
  simp only [DocId.text_inj]
  rfl

/-- The modules of the moved unit come last. -/
theorem modules_rename (unit : s.unit? old = some u) (free : s.unit? new = none) :
    (s.rename old new).modules = (s.delete old).modules ++ (u.setDoc new).modules.values := by
  have last : new.text ∉ (s.units.erase old.text).names := fun known =>
    Table.get?_eq_none_iff.1 free (Table.mem_names_erase.1 known).1
  rw [rename_of_unit? unit, modules, modules, Table.values, Table.entries_insert_of_notMem last,
    List.map_append, List.flatMap_append]
  exact congrArg (_ ++ ·) (List.append_nil _)

theorem resembles_setDoc (doc : DocId) (m : Module) : Resembles (m.setDoc doc) m :=
  ⟨rfl, fun name => (Module.declaresType_setDoc doc name m).symm⟩

/-- A type without a home finds none after another document is moved. -/
theorem home?_rename (unit : s.unit? old = some u) (free : s.unit? new = none) {t : PendingType}
    (h : s.home? t = none) (notOld : t.doc ≠ old) (notNew : t.doc ≠ new) :
    (s.rename old new).home? t = none := by
  refine home?_eq_none_of_resembles h ?_ fun m hm => ?_
  · rw [unit?_rename unit, if_neg notNew, if_neg notOld]
  · rw [modules_rename unit free, List.mem_append] at hm
    rcases hm with kept | moved
    · exact ⟨m, modules_delete_subset s old kept, Resembles.refl m⟩
    · rw [SourceUnit.setDoc, Table.values_map] at moved
      obtain ⟨n, hn, rfl⟩ := List.mem_map.1 moved
      refine ⟨n, List.mem_flatMap.2 ⟨u, Table.mem_values_iff.2 ⟨old.text, unit⟩, hn⟩, ?_⟩
      exact resembles_setDoc new n

/-- An inline member without members finds none after another document is moved. -/
theorem inlinedMembers?_rename (unit : s.unit? old = some u) (free : s.unit? new = none)
    (own : s.OwnsStructsOf old) {i : PendingInline} (h : s.inlinedMembers? i = none) (ne : i.doc ≠ old) :
    (s.rename old new).inlinedMembers? i = none := by
  refine inlinedMembers?_eq_none_of_first (fun p hp => ?_) h
  have kept : ∀ m : Module, p (m.setDoc new) = p m := by
    intro m
    rcases hp with named | any
    · rw [named, named]
      rfl
    · rw [any, any]
  obtain ⟨nothing, first⟩ := findSome?_delete own p i.inlined ne
  rw [modules_rename unit free, List.filter_append, List.findSome?_append]
  refine ⟨fun nowhere => ?_, fun a doc found => ?_⟩
  · rw [nothing nowhere, Option.none_or, List.findSome?_eq_none_iff]
    intro m hm
    obtain ⟨moved, chosen⟩ := List.mem_filter.1 hm
    rw [SourceUnit.setDoc, Table.values_map] at moved
    obtain ⟨n, hn, rfl⟩ := List.mem_map.1 moved
    have absent := List.findSome?_eq_none_iff.1 nowhere n (List.mem_filter.2
      ⟨List.mem_flatMap.2 ⟨u, Table.mem_values_iff.2 ⟨old.text, unit⟩, hn⟩, (kept n).symm.trans chosen⟩)
    rw [Module.setDoc, Table.get?_map, absent, Option.map_none]
  · rw [first a doc found]
    rfl

end Rename

end C3Lens.SymbolStore
