import C3Lens.Proofs.SymbolStore.Modules
import C3Lens.Proofs.SymbolStore.Occurrences
import C3Lens.Proofs.SymbolStore.Outcome

/-!
# Types and the order of registration

Where modules of one name at most declare a type name, the types of documents are bound to the same
modules in whatever order the documents are registered, and the same contexts wait at the end
(`types_in_any_order`).

A context is tried at every registration and bound for good as soon as it has a home. That this is
not too early is what the condition is for: a home among some of the documents is the home among
all of them (`Within.home?`), and no context is bound to what another one of its name was written
with (`separate_of_oneHome`). Inline members play no part. They may come out differently, but only
where there are some.
-/

namespace C3Lens

/-! ## One home -/

/-- The names of the types and aliases of a module. -/
def Module.typeNames (m : Module) : List String :=
  m.enums.names ++ m.faults.names ++ m.structs.names ++ m.bitstructs.names ++ m.aliases.names ++
    m.distincts.names ++ m.interfaces.names

/-- No struct of the unit has a member that waits for another struct. -/
def SourceUnit.InlinesNothing (u : SourceUnit) : Prop :=
  ∀ m ∈ u.modules.values, ∀ a ∈ m.structs.values, a.awaitedTypes = []

theorem SourceUnit.InlinesNothing.not_asks {u : SourceUnit} (h : u.InlinesNothing) (i : PendingInline) :
    ¬ u.Asks i := by
  rintro ⟨a, host, waits⟩
  obtain ⟨m, module, struct⟩ := Option.bind_eq_some_iff.1 host
  rw [h m (Table.mem_values_iff.2 ⟨_, module⟩) a (Table.mem_values_iff.2 ⟨_, struct⟩)] at waits
  cases waits

/-- The work of the unit is a tidy queue of its own. -/
def ReadUnit.Sound (r : ReadUnit) : Prop :=
  r.work.Tidy ∧ r.work.BelongsTo r.unit.doc

theorem ReadUnit.sound_ofText (doc : DocId) (text : String) : (ReadUnit.ofText doc text).Sound := by
  rw [Sound, doc_ofText]
  exact work_ofText doc text

namespace SymbolStore

theorem mem_typeNames_of_declaresType {m : Module} {name : String} (h : declaresType name m = true) :
    name ∈ m.typeNames := by
  rw [declaresType] at h
  obtain ⟨s, found, isType⟩ : ∃ s, m.child? name = some s ∧ (s.isType || s.isAlias) = true := by
    cases found : m.child? name with
    | none =>
      rw [found] at h
      cases h
    | some s =>
      rw [found] at h
      exact ⟨s, rfl, h⟩
  simp only [Module.typeNames, List.mem_append, Table.mem_names_iff]
  simp only [Module.child?, Option.orElse_eq_some, Option.map_eq_some_iff] at found
  grind [Symbol.isType, Symbol.isAlias]

/-- A type name is declared by modules of one name at most. -/
def OneHome (ms : List Module) : Prop :=
  ∀ name, ∀ m ∈ ms, ∀ n ∈ ms, declaresType name m = true → declaresType name n = true → m.name = n.name

theorem oneHome_of_typeNames {ms : List Module}
    (h : ∀ m ∈ ms, ∀ n ∈ ms, m.name ≠ n.name → ∀ name ∈ m.typeNames, name ∉ n.typeNames) :
    OneHome ms := by
  intro name m hm n hn declares declares'
  by_contra other
  exact h m hm n hn other name (mem_typeNames_of_declaresType declares)
    (mem_typeNames_of_declaresType declares')

/-- Two homes of a type name are the same. -/
theorem OneHome.unique {s e : SymbolStore} (one : OneHome e.modules) (sub : s.modules ⊆ e.modules)
    {c d : PendingType} {home other : String} (hc : s.home? c = some home) (hd : e.home? d = some other)
    (typeName : d.typeName = c.typeName) : home = other := by
  obtain ⟨m, hm, rfl, declares⟩ := declaresType_of_home? hc
  obtain ⟨n, hn, rfl, declares'⟩ := declaresType_of_home? hd
  exact one c.typeName m (sub hm) n hn declares (typeName ▸ declares')

theorem separate_of_oneHome {e : SymbolStore} (one : OneHome e.modules) {queue : List PendingType}
    {doc : DocId} {name : String} (h : OfModule queue doc name) : e.Separate queue := by
  intro c hc d hd typeName found
  rw [homeOf] at found
  cases home : e.home? c with
  | none =>
    -- Both are written alike, so they are the same context.
    rw [home, Option.getD_none] at found
    have same : c = d := by
      obtain ⟨doc, context⟩ := h c hc
      obtain ⟨doc', context'⟩ := h d hd
      obtain ⟨_, _, _, _⟩ := c
      obtain ⟨_, _, _, _⟩ := d
      simp only [PendingType.mk.injEq]
      exact ⟨doc.trans doc'.symm, context.trans context'.symm, typeName.symm, found⟩
    rw [← same, homeOf, home, Option.getD_none]
  | some first =>
    rw [home, Option.getD_some] at found
    cases other : e.home? d with
    | none => rw [homeOf, other, Option.getD_none]
    | some second =>
      rw [homeOf, other, Option.getD_some, ← found]
      exact (one.unique (List.Subset.refl _) home other typeName).symm

/-! ## Stores within stores -/

/-- What is registered in `s` is registered in `e`, apart from what resolution changes. -/
def Within (s e : SymbolStore) : Prop :=
  ∀ doc u, s.skeleton.unit? doc = some u → e.skeleton.unit? doc = some u

section Within

variable {s e : SymbolStore} {c : PendingType}

theorem Within.modules_subset (h : s.Within e) : s.skeleton.modules ⊆ e.skeleton.modules := by
  intro m hm
  obtain ⟨text, u, name, hu, found⟩ := mem_modules_iff.1 hm
  exact mem_modules_iff.2 ⟨text, u, name, h ⟨text⟩ u hu, found⟩

theorem Within.homeless (h : s.Within e) (unknown : e.home? c = none) : s.home? c = none := by
  rw [← home?_skeleton] at unknown ⊢
  cases unit : s.skeleton.unit? c.doc with
  | none =>
    rw [SymbolStore.home?, unit]
    rfl
  | some u =>
    refine home?_eq_none_of_resembles unknown (unit.trans (h _ _ unit).symm) fun m hm => ?_
    exact ⟨m, h.modules_subset hm, Resembles.refl m⟩

/-- A home among some of the documents is the home among all of them. -/
theorem Within.home? (h : s.Within e) (one : OneHome e.skeleton.modules) {home : String}
    (found : s.home? c = some home) : e.home? c = some home := by
  cases other : e.home? c with
  | none =>
    rw [h.homeless other] at found
    cases found
  | some last =>
    rw [← home?_skeleton] at found other
    rw [one.unique h.modules_subset found other rfl]

theorem Within.homeOf_eq (h : s.Within e) (k : e.Within s) (one : OneHome e.skeleton.modules)
    (c : PendingType) : s.homeOf c = e.homeOf c := by
  cases found : s.home? c with
  | none => rw [homeOf, homeOf, found, k.homeless found]
  | some home => rw [homeOf, homeOf, found, h.home? one found]

end Within

/-! ## Documents one after the other -/

theorem unit?_skeleton_register (s : SymbolStore) (u : SourceUnit) (p : Pending) (doc : DocId) :
    (s.register u p).skeleton.unit? doc =
      if doc = u.doc then some u.skeleton else s.skeleton.unit? doc := by
  rw [register_eq, skeleton_settle, unit?_skeleton, unit?_placed, unit?_skeleton]
  split <;> rfl

theorem ofChanges_concat_register (rs : List ReadUnit) (r : ReadUnit) :
    ofChanges ((rs ++ [r]).map .register) = (ofChanges (rs.map .register)).register r.unit r.work := by
  rw [List.map_append, List.map_singleton, ofChanges, List.foldl_concat]
  rfl

/-- The last document is none of those before. -/
theorem nodup_docs_concat {rs : List ReadUnit} {k : ReadUnit} (ids : ((rs ++ [k]).map (·.unit.doc)).Nodup) :
    (rs.map (·.unit.doc)).Nodup ∧ ∀ r ∈ rs, r.unit.doc ≠ k.unit.doc := by
  rw [List.map_append, List.nodup_append] at ids
  obtain ⟨before, -, apart⟩ := ids
  exact ⟨before, fun r hr => apart _ (List.mem_map_of_mem hr) _ (List.mem_singleton_self k.unit.doc)⟩

theorem nodup_inlines_ofChanges (rs : List ReadUnit) :
    (ofChanges (rs.map .register)).pending.inlines.Nodup := by
  cases rs using List.reverseRecOn with
  | nil => exact List.nodup_nil
  | append_singleton rs r =>
    rw [ofChanges_concat_register]
    exact nodup_inlines_register _ _ _

theorem unit?_skeleton_ofChanges {rs : List ReadUnit} (ids : (rs.map (·.unit.doc)).Nodup) (doc : DocId)
    {u : SourceUnit} : (ofChanges (rs.map .register)).skeleton.unit? doc = some u ↔
      ∃ r ∈ rs, r.unit.doc = doc ∧ r.unit.skeleton = u := by
  induction rs using List.reverseRecOn with
  | nil => exact ⟨nofun, fun ⟨_, hr, _⟩ => absurd hr List.not_mem_nil⟩
  | append_singleton rs r ih =>
    obtain ⟨before, others⟩ := nodup_docs_concat ids
    rw [ofChanges_concat_register, unit?_skeleton_register]
    by_cases here : doc = r.unit.doc
    · rw [if_pos here, Option.some.injEq]
      constructor
      · exact fun same => ⟨r, List.mem_append_right _ (List.mem_singleton_self r), here.symm, same⟩
      · rintro ⟨k, hk, own, same⟩
        rcases List.mem_append.1 hk with old | new
        · exact absurd (own.trans here) (others k old)
        · rwa [← List.mem_singleton.1 new]
    · rw [if_neg here, ih before]
      constructor
      · rintro ⟨k, hk, rest⟩
        exact ⟨k, List.mem_append_left _ hk, rest⟩
      · rintro ⟨k, hk, own, same⟩
        rcases List.mem_append.1 hk with old | new
        · exact ⟨k, old, own, same⟩
        · exact absurd (own.symm.trans (by rw [List.mem_singleton.1 new])) here

theorem within_ofChanges {rs qs : List ReadUnit} (sub : rs ⊆ qs) (ids : (rs.map (·.unit.doc)).Nodup)
    (ids' : (qs.map (·.unit.doc)).Nodup) :
    (ofChanges (rs.map .register)).Within (ofChanges (qs.map .register)) := by
  intro doc u unit
  obtain ⟨r, hr, own, same⟩ := (unit?_skeleton_ofChanges ids doc).1 unit
  exact (unit?_skeleton_ofChanges ids' doc).2 ⟨r, sub hr, own, same⟩

variable {rs : List ReadUnit}

/-- Where `e` has the documents and one home for each type name, all units are bound to its homes. -/
theorem exists_binds_ofChanges {e : SymbolStore} (one : OneHome e.skeleton.modules)
    (ids : (rs.map (·.unit.doc)).Nodup) (sound : ∀ r ∈ rs, r.Sound)
    (within : (ofChanges (rs.map .register)).Within e) :
    ∀ r ∈ rs, ∃ modules hoists, (ofChanges (rs.map .register)).Resolved r.unit r.work modules hoists ∧
      e.Binds (ofChanges (rs.map .register)) r.unit r.work modules := by
  have separate : ∀ r ∈ rs, ∀ name, e.Separate (r.work.typesIn name) := by
    intro r hr name
    obtain ⟨tidy, own⟩ := sound r hr
    refine separate_of_oneHome (fun type m hm n hn declares declares' => ?_)
      (ofModule_typesIn tidy own name)
    have named := one type m.skeleton (modules_skeleton e ▸ List.mem_map_of_mem hm) n.skeleton
      (modules_skeleton e ▸ List.mem_map_of_mem hn)
    rw [Module.declaresType_skeleton, Module.declaresType_skeleton] at named
    exact named declares declares'
  induction rs using List.reverseRecOn with
  | nil => exact fun r hr => absurd hr List.not_mem_nil
  | append_singleton rs k ih =>
    obtain ⟨before, others⟩ := nodup_docs_concat ids
    obtain ⟨tidy, own⟩ := sound k (List.mem_append_right _ (List.mem_singleton_self k))
    have earlier : (ofChanges (rs.map .register)).Within (ofChanges ((rs ++ [k]).map .register)) :=
      within_ofChanges (List.subset_append_left rs [k]) before ids
    have waiting := tidy_ofChanges (rs.map .register)
    have inlines := nodup_inlines_ofChanges rs
    have homes : ∀ (c : PendingType) (home : String),
        (ofChanges ((rs ++ [k]).map .register)).home? c = some home → e.home? c = some home :=
      fun _ _ => within.home? one
    rw [ofChanges_concat_register] at homes ⊢
    intro r hr
    rcases List.mem_append.1 hr with old | new
    · obtain ⟨modules, hoists, resolved, binds⟩ := ih before
        (fun r hr => sound r (List.mem_append_left _ hr))
        (fun doc u unit => within doc u (earlier doc u unit))
        (fun r hr => separate r (List.mem_append_left _ hr)) r old
      obtain ⟨tidy', own'⟩ := sound r hr
      have other := (others r old).symm
      obtain ⟨more, after, -⟩ := resolved.register own' waiting inlines tidy own other
      refine ⟨_, _, after, binds.register ?_ (fun name c hc doc => (resolved.types name c hc doc).1) waiting
        tidy' own' tidy own other (fun name c _ home found => homes c home found) (separate r hr)⟩
      rw [resolved.unit]
      rfl
    · obtain rfl := List.mem_singleton.1 new
      obtain ⟨hoists, resolved, -⟩ := resolved_register waiting inlines tidy own
      exact ⟨_, _, resolved, binds_register waiting tidy own (fun name c _ home found => homes c home found)
        (separate r hr)⟩

/-- The contexts that wait are those without a home. -/
theorem mem_types_ofChanges (ids : (rs.map (·.unit.doc)).Nodup) (sound : ∀ r ∈ rs, r.Sound)
    {c : PendingType} : c ∈ (ofChanges (rs.map .register)).pending.types ↔
      (∃ r ∈ rs, c ∈ r.work.types) ∧ (ofChanges (rs.map .register)).home? c = none := by
  induction rs using List.reverseRecOn with
  | nil => exact ⟨fun h => absurd h List.not_mem_nil, fun ⟨⟨r, hr, _⟩, _⟩ => absurd hr List.not_mem_nil⟩
  | append_singleton rs k ih =>
    obtain ⟨before, others⟩ := nodup_docs_concat ids
    have earlier : (ofChanges (rs.map .register)).Within (ofChanges ((rs ++ [k]).map .register)) :=
      within_ofChanges (List.subset_append_left rs [k]) before ids
    have docs : ∀ {u}, _ ↔ _ := @unit?_skeleton_ofChanges _ ids c.doc
    obtain ⟨tidy, own⟩ := sound k (List.mem_append_right _ (List.mem_singleton_self k))
    have homeless := earlier.homeless (c := c)
    rw [ofChanges_concat_register] at docs homeless ⊢
    rw [mem_types_register (tidy_ofChanges _) tidy own,
      ih before fun r hr => sound r (List.mem_append_left _ hr)]
    constructor
    · rintro ⟨⟨⟨⟨r, hr, queued⟩, -⟩, -⟩ | queued, none, -⟩
      · exact ⟨⟨r, List.mem_append_left _ hr, queued⟩, none⟩
      · exact ⟨⟨k, List.mem_append_right _ (List.mem_singleton_self k), queued⟩, none⟩
    · rintro ⟨⟨r, hr, queued⟩, none⟩
      have doc := (sound r hr).2.types c queued
      have known : ((ofChanges (rs.map .register)).register k.unit k.work).contains c.doc = true := by
        rw [← contains_skeleton, contains, Table.contains, Option.isSome_iff_exists]
        exact ⟨_, docs.2 ⟨r, hr, doc.symm, rfl⟩⟩
      refine ⟨?_, none, known⟩
      rcases List.mem_append.1 hr with old | new
      · refine .inl ⟨⟨⟨r, old, queued⟩, homeless none⟩, ?_⟩
        rw [doc]
        exact others r old
      · exact .inr (List.mem_singleton.1 new ▸ queued)

/-! ## Any order -/

theorem oneHome_skeleton_ofChanges (ids : (rs.map (·.unit.doc)).Nodup)
    (one : OneHome (rs.flatMap (·.unit.modules.values))) :
    OneHome (ofChanges (rs.map .register)).skeleton.modules := by
  have asRead : ∀ m ∈ (ofChanges (rs.map .register)).skeleton.modules,
      ∃ n ∈ rs.flatMap (·.unit.modules.values), n.skeleton = m := by
    intro m hm
    obtain ⟨text, u, name, unit, found⟩ := mem_modules_iff.1 hm
    obtain ⟨r, hr, -, rfl⟩ := (unit?_skeleton_ofChanges ids ⟨text⟩).1 unit
    have values : m ∈ (r.unit.modules.map Module.skeleton).values := Table.mem_values_iff.2 ⟨name, found⟩
    rw [Table.values_map] at values
    obtain ⟨n, hn, same⟩ := List.mem_map.1 values
    exact ⟨n, List.mem_flatMap.2 ⟨r, hr, hn⟩, same⟩
  intro name m hm n hn declares declares'
  obtain ⟨m, read, rfl⟩ := asRead m hm
  obtain ⟨n, read', rfl⟩ := asRead n hn
  rw [Module.declaresType_skeleton] at declares declares'
  exact one name m read n read' declares declares'

/-- The types of each unit are bound to their homes at the end. -/
theorem unit?_ofChanges_homes (ids : (rs.map (·.unit.doc)).Nodup) (sound : ∀ r ∈ rs, r.Sound)
    (one : OneHome (rs.flatMap (·.unit.modules.values))) {r : ReadUnit} (hr : r ∈ rs) :
    ∃ hoists, (ofChanges (rs.map .register)).unit? r.unit.doc = some
      ((r.unit.mapModules ((ofChanges (rs.map .register)).homes r.unit r.work)).hoistAll hoists) := by
  obtain ⟨modules, hoists, resolved, binds⟩ :=
    exists_binds_ofChanges (oneHome_skeleton_ofChanges ids one) ids sound (fun _ _ unit => unit) r hr
  refine ⟨hoists, ?_⟩
  rw [resolved.unit, binds.eq_homes resolved]

/-- The units of documents, in the order in which they are read. -/
def readUnits (docs : List (DocId × String)) : List ReadUnit :=
  docs.map fun d => .ofText d.1 d.2

theorem ofTexts_eq (docs : List (DocId × String)) : ofTexts docs = ofChanges ((readUnits docs).map .register) := by
  rw [ofTexts, ofChanges, readUnits, List.map_map, List.foldl_map]
  rfl

theorem docs_readUnits (docs : List (DocId × String)) :
    (readUnits docs).map (·.unit.doc) = docs.map Prod.fst := by
  rw [readUnits, List.map_map]
  exact List.map_congr_left fun d _ => ReadUnit.doc_ofText d.1 d.2

theorem sound_of_mem_readUnits {docs : List (DocId × String)} {r : ReadUnit} (hr : r ∈ readUnits docs) :
    r.Sound := by
  obtain ⟨d, -, rfl⟩ := List.mem_map.1 hr
  exact ReadUnit.sound_ofText d.1 d.2

/-- Where each type name is declared by modules of one name at most, the order in which documents are
registered counts neither for the modules that their types are bound to nor for the contexts that
wait. What it may count for are members that are hoisted: a document without inline members has the
same unit in every order. -/
theorem types_in_any_order {docs order : List (DocId × String)} (ids : (docs.map Prod.fst).Nodup)
    (one : OneHome ((readUnits docs).flatMap (·.unit.modules.values))) (perm : order.Perm docs) :
    let s := ofTexts docs
    let s' := ofTexts order
    (∀ r ∈ readUnits docs,
      (∃ modules hoists hoists', s.unit? r.unit.doc = some ((r.unit.mapModules modules).hoistAll hoists) ∧
        s'.unit? r.unit.doc = some ((r.unit.mapModules modules).hoistAll hoists')) ∧
      (r.unit.InlinesNothing → s'.unit? r.unit.doc = s.unit? r.unit.doc)) ∧
    ∀ c, c ∈ s'.pending.types ↔ c ∈ s.pending.types := by
  intro s s'
  have units : (readUnits order).Perm (readUnits docs) := perm.map _
  have ids₁ : ((readUnits docs).map (·.unit.doc)).Nodup := docs_readUnits docs ▸ ids
  have ids₂ : ((readUnits order).map (·.unit.doc)).Nodup := (units.map _).nodup_iff.2 ids₁
  have sound₁ : ∀ r ∈ readUnits docs, r.Sound := fun r => sound_of_mem_readUnits
  have sound₂ : ∀ r ∈ readUnits order, r.Sound := fun r => sound_of_mem_readUnits
  have one₂ : OneHome ((readUnits order).flatMap (·.unit.modules.values)) := fun name m hm n hn =>
    one name m ((units.flatMap_right _).mem_iff.1 hm) n ((units.flatMap_right _).mem_iff.1 hn)
  have there : s.Within s' := by
    show (ofTexts docs).Within (ofTexts order)
    rw [ofTexts_eq docs, ofTexts_eq order]
    exact within_ofChanges units.symm.subset ids₁ ids₂
  have back : s'.Within s := by
    show (ofTexts order).Within (ofTexts docs)
    rw [ofTexts_eq docs, ofTexts_eq order]
    exact within_ofChanges units.subset ids₂ ids₁
  have homes : s'.homeOf = s.homeOf := by
    refine funext (back.homeOf_eq there ?_)
    show OneHome (ofTexts docs).skeleton.modules
    rw [ofTexts_eq docs]
    exact oneHome_skeleton_ofChanges ids₁ one
  refine ⟨fun r hr => ?_, fun c => ?_⟩
  · obtain ⟨hoists, unit⟩ := unit?_ofChanges_homes ids₁ sound₁ one hr
    obtain ⟨hoists', unit'⟩ := unit?_ofChanges_homes ids₂ sound₂ one₂ (units.mem_iff.2 hr)
    rw [← ofTexts_eq] at unit unit'
    have same : s'.homes r.unit r.work = s.homes r.unit r.work := by
      funext name type
      rw [SymbolStore.homes, SymbolStore.homes, bound, bound, homes]
    rw [same] at unit'
    refine ⟨⟨_, hoists, hoists', unit, unit'⟩, fun plain => ?_⟩
    have unhoisted : ∀ more : List (PendingInline × List Member),
        (r.unit.mapModules (s.homes r.unit r.work)).hoistAll more =
          r.unit.mapModules (s.homes r.unit r.work) := fun more =>
      SourceUnit.hoistAll_of_not_asks fun h _ asks => plain.not_asks h.1 ((SourceUnit.asks_mapModules _).1 asks)
    rw [unit, unit', unhoisted, unhoisted]
  · show c ∈ (ofTexts order).pending.types ↔ c ∈ (ofTexts docs).pending.types
    rw [ofTexts_eq docs, ofTexts_eq order, mem_types_ofChanges ids₂ sound₂, mem_types_ofChanges ids₁ sound₁,
      ← ofTexts_eq, ← ofTexts_eq]
    refine and_congr ?_ ⟨there.homeless, back.homeless⟩
    simp only [units.mem_iff]

/-- A document whose types are declared in another one, and one of them nowhere. -/
def userAndLibrary : List (DocId × String) :=
  [(⟨"file:///app.c3"⟩, "module app;\nimport lib;\nFoo x;\nlib::Bar y;\nGone z;"),
    (⟨"file:///lib.c3"⟩, "module lib;\nstruct Foo { int i; }\nalias Bar = Foo;")]

set_option maxRecDepth 100000 in
/-- Registered behind the document that declares its types or in front of it, the first document has
them in the module `lib`, and the type that is declared nowhere waits. -/
theorem types_of_userAndLibrary :
    let s := ofTexts userAndLibrary
    let s' := ofTexts userAndLibrary.reverse
    let c : PendingType := ⟨⟨"file:///app.c3"⟩, "app", "Gone", "app"⟩
    s'.unit? ⟨"file:///app.c3"⟩ = s.unit? ⟨"file:///app.c3"⟩ ∧
      ((s.unit? ⟨"file:///app.c3"⟩).bind (·.module? "app")).map
        (·.globals.values.map (·.type.moduleName)) = some ["lib", "lib", "app"] ∧
      c ∈ s'.pending.types ∧ c ∈ s.pending.types := by
  intro s s' c
  have ids : (userAndLibrary.map Prod.fst).Nodup := by decide
  have facts : (∀ m ∈ (readUnits userAndLibrary).flatMap (·.unit.modules.values),
        ∀ n ∈ (readUnits userAndLibrary).flatMap (·.unit.modules.values), m.name ≠ n.name →
          ∀ name ∈ m.typeNames, name ∉ n.typeNames) ∧
      (∀ r ∈ readUnits userAndLibrary, ∀ m ∈ r.unit.modules.values, ∀ a ∈ m.structs.values,
        a.awaitedTypes = []) ∧
      ((s.unit? ⟨"file:///app.c3"⟩).bind (·.module? "app")).map
        (·.globals.values.map (·.type.moduleName)) = some ["lib", "lib", "app"] ∧
      c ∈ s.pending.types := by
    decide +kernel
  obtain ⟨apart, plain, bound, waits⟩ := facts
  obtain ⟨units, contexts⟩ := types_in_any_order ids (oneHome_of_typeNames apart) userAndLibrary.reverse_perm
  have app : ReadUnit.ofText ⟨"file:///app.c3"⟩ userAndLibrary[0].2 ∈ readUnits userAndLibrary :=
    List.mem_cons_self
  have same := (units _ app).2 (plain _ app)
  rw [ReadUnit.doc_ofText] at same
  exact ⟨same, bound, (contexts c).2 waits, waits⟩

end SymbolStore

end C3Lens
