import C3Lens.Proofs.SymbolStore.Lasting

/-!
# The outcome of resolution

The unit of a document whose types are bound to the homes of a store, and whose hoisted members are
those found in it, does not depend on how it came about: it is the unit as it was read, with all of
its types bound (`Binds.eq_homes`) and all expansions made for which there are members
(`hoistAll_eq_expansions`). Two stores with the same skeleton have the same homes, and the same plain
members if both come from the same units (`inlinedMembers?_eq_of_hoistsTo`).
-/

namespace C3Lens

/-! ## Hoisting in the modules of a unit -/

theorem SourceUnit.hoistAll_eq (u : SourceUnit) (hoists : List (PendingInline × List Member)) :
    ∃ f : String → Module → Module,
      u.hoistAll hoists = { u with modules := u.modules.mapEntries f } ∧
        ∀ name (m : Module), m.HoistsTo (f name m) := by
  induction hoists generalizing u with
  | nil =>
    refine ⟨fun _ m => m, ?_, fun _ m => Module.HoistsTo.refl m⟩
    rw [Table.mapEntries_id fun _ _ _ => rfl]
    rfl
  | cons h hoists ih =>
    obtain ⟨f, later, hoistsTo⟩ := ih (u.hoist h.1 h.2)
    refine ⟨fun name m => f name (if name = h.1.moduleName then { m with
      structs := m.structs.modify h.1.structName (·.inherit h.1.inlined h.2) } else m), ?_, ?_⟩
    · show (u.hoist h.1 h.2).hoistAll hoists = _
      rw [later]
      simp only [hoist, modify, Table.modify, Table.mapEntries_mapEntries]
    · intro name m
      refine Module.HoistsTo.trans ?_ (hoistsTo name _)
      split
      · exact Module.hoistsTo_inherit m _ _ _
      · exact Module.HoistsTo.refl m

namespace SymbolStore

/-- A store that has the units of another one, each with further members. -/
theorem hoistsTo_of_hoistAll {s s' : SymbolStore} (names : s'.units.names = s.units.names)
    (units : ∀ doc u, s.units.get? doc = some u → ∃ hoists, s'.units.get? doc = some (u.hoistAll hoists)) :
    s.HoistsTo s' := by
  have each : ∀ doc, ∃ f : String → Module → Module, (∀ name (m : Module), m.HoistsTo (f name m)) ∧
      ∀ u, s.units.get? doc = some u →
        s'.units.get? doc = some { u with modules := u.modules.mapEntries f } := by
    intro doc
    cases found : s.units.get? doc with
    | none => exact ⟨fun _ m => m, fun _ m => Module.HoistsTo.refl m, fun u hu => (by cases hu)⟩
    | some u =>
      obtain ⟨hoists, hu⟩ := units doc u found
      obtain ⟨f, eq, hoistsTo⟩ := u.hoistAll_eq hoists
      refine ⟨f, hoistsTo, fun v hv => ?_⟩
      cases hv
      rw [hu, eq]
  choose f hoistsTo eq using each
  refine ⟨f, Table.ext_get? ?_ fun doc => ?_, hoistsTo⟩
  · rw [names]
    exact (Table.names_mapEntries _ _).symm
  · show _ = (s.units.mapEntries _).get? doc
    rw [Table.get?_mapEntries]
    cases found : s.units.get? doc with
    | none =>
      rw [Option.map_none, Table.get?_eq_none_iff, names, ← Table.get?_eq_none_iff]
      exact found
    | some u => exact eq doc u found

/-- Plain members that are found in two stores, both made from one by hoisting, are the same. -/
theorem inlinedMembers?_eq_of_hoistsTo {c s s' : SymbolStore} (h : c.HoistsTo s) (h' : c.HoistsTo s')
    {i : PendingInline} (plain : ∀ members, s.inlinedMembers? i = some members → Plain members)
    (plain' : ∀ members, s'.inlinedMembers? i = some members → Plain members) :
    s.inlinedMembers? i = s'.inlinedMembers? i := by
  have known := isSome_inlinedMembers?_congr h.skeleton_eq i
  have known' := isSome_inlinedMembers?_congr h'.skeleton_eq i
  cases found : c.inlinedMembers? i with
  | none =>
    rw [found, Option.isSome_none, Option.isSome_eq_false_iff, Option.isNone_iff_eq_none] at known known'
    rw [known, known']
  | some members =>
    have same : ∀ t : SymbolStore, c.HoistsTo t →
        (∀ members, t.inlinedMembers? i = some members → Plain members) →
          t.inlinedMembers? i = some members := by
      intro t hoists plain
      obtain ⟨more, hm, eq⟩ := hoists.inlinedMembers? found
      rcases eq with rfl | ⟨m, mem, expanded⟩
      · exact hm
      · rw [(plain more hm m mem).2] at expanded
        cases expanded
    rw [same s h plain, same s' h' plain']

/-! ## Types -/

section Outcome

variable {e : SymbolStore} {u : SourceUnit} {p : Pending} {modules : String → TypeRef → String}
  {hoists : List (PendingInline × List Member)}

/-- The module of each type of the unit, where all contexts are bound that have a home. -/
def homes (e : SymbolStore) (u : SourceUnit) (p : Pending) (name : String) (type : TypeRef) : String :=
  e.bound u.doc name (p.typesIn name) [] type

theorem homeOf_congr {s s' : SymbolStore} (h : s'.skeleton = s.skeleton) (c : PendingType) :
    s'.homeOf c = s.homeOf c := by
  rw [homeOf, home?_congr h, homeOf]

theorem homes_congr {s s' : SymbolStore} (h : s'.skeleton = s.skeleton) (u : SourceUnit) (p : Pending) :
    s'.homes u p = s.homes u p := by
  funext name type
  rw [homes, homes, bound, bound, homeOf_congr h]

/-- A type that waits at the end is as written, and that is the home of its context. -/
theorem Binds.eq_homes (h : e.Binds e u p modules) (resolved : e.Resolved u p modules hoists) :
    modules = e.homes u p := by
  funext name type
  rw [h name type, homes, bound, bound]
  by_cases waits : type.written u.doc name ∈ (e.pending.typesIn name).filter (·.doc == u.doc)
  · have homeless := (resolved.types name _ (List.mem_of_mem_filter waits) rfl).2
    have written : e.homeOf (type.written u.doc name) = type.moduleName := by
      rw [homeOf, homeless]
      rfl
    rw [if_neg fun h => h.2.2 waits, written, ite_self]
  · simp only [waits, List.not_mem_nil]

/-! ## Members -/

/-- All expansions for which there are members. -/
def expansions (e : SymbolStore) (p : Pending) : List (PendingInline × List Member) :=
  (p.inlines.foldl Pending.addNew []).filterMap fun i =>
    (e.inlinedMembers? i).map fun members => (i, members)

theorem mem_expansions {h : PendingInline × List Member} :
    h ∈ e.expansions p ↔ h.1 ∈ p.inlines ∧ e.inlinedMembers? h.1 = some h.2 := by
  obtain ⟨i, members⟩ := h
  simp only [expansions, List.mem_filterMap, Pending.mem_foldl_addNew, List.not_mem_nil, false_or,
    Option.map_eq_some_iff, Prod.mk.injEq]
  constructor
  · rintro ⟨j, hj, found, known, rfl, rfl⟩
    exact ⟨hj, known⟩
  · rintro ⟨hi, known⟩
    exact ⟨i, hi, members, known, rfl, rfl⟩

theorem nodup_expansions (e : SymbolStore) (p : Pending) : (e.expansions p).Nodup := by
  refine List.Nodup.filterMap ?_ (Pending.nodup_foldl_addNew List.nodup_nil _)
  intro i j h hi hj
  simp only [Option.mem_def, Option.map_eq_some_iff] at hi hj
  obtain ⟨_, -, rfl⟩ := hi
  obtain ⟨_, -, eq⟩ := hj
  exact (congrArg Prod.fst eq).symm

/-- What was expanded on the way are all expansions at the end, but for those not asked for. -/
theorem Resolved.hoistAll_eq_expansions (h : e.Resolved u p modules hoists) (own : p.BelongsTo u.doc)
    (found : e.Hoists hoists)
    (plain : ∀ i ∈ p.inlines, ∀ members, e.inlinedMembers? i = some members → Plain members) :
    (u.mapModules modules).hoistAll hoists = (u.mapModules modules).hoistAll (e.expansions p) := by
  have mem : ∀ g ∈ hoists, g ∈ e.expansions p := fun g hg =>
    mem_expansions.2 ⟨h.own g.1 (List.mem_map_of_mem hg), found g hg⟩
  have inert : ∀ g ∈ e.expansions p, Aggregate.Inert g.2 := fun g hg m hm =>
    (plain g.1 (mem_expansions.1 hg).1 g.2 (mem_expansions.1 hg).2 m hm).1
  have eq_of_fst : ∀ g ∈ e.expansions p, ∀ k ∈ e.expansions p, g.1 = k.1 → g = k := by
    intro g hg k hk same
    have members := (mem_expansions.1 hg).2
    rw [same, (mem_expansions.1 hk).2] at members
    exact Prod.ext same (Option.some.inj members).symm
  -- The expansions that were not made come last.
  have perm : (e.expansions p).Perm
      (hoists ++ (e.expansions p).filter fun g => g.1 ∉ hoists.map Prod.fst) := by
    refine (List.perm_ext_iff_of_nodup (nodup_expansions e p) ?_).2 fun g => ?_
    · rw [List.nodup_append]
      refine ⟨h.nodup.of_map, (nodup_expansions e p).filter _, fun g hg k hk same => ?_⟩
      subst same
      have absent := of_decide_eq_true (List.mem_filter.1 hk).2
      exact absent (List.mem_map_of_mem hg)
    · rw [List.mem_append, List.mem_filter, decide_eq_true_eq]
      constructor
      · intro hg
        by_cases made : g.1 ∈ hoists.map Prod.fst
        · obtain ⟨k, hk, same⟩ := List.mem_map.1 made
          rw [← eq_of_fst k (mem k hk) g hg same]
          exact .inl hk
        · exact .inr ⟨hg, made⟩
      · rintro (hg | ⟨hg, -⟩)
        · exact mem g hg
        · exact hg
  have apart : ∀ g ∈ e.expansions p, ∀ k ∈ e.expansions p, g.1.SameIn k.1 → g = k := fun g hg k hk same =>
    eq_of_fst g hg k hk (eq_of_sameIn own (mem_expansions.1 hg).1 (mem_expansions.1 hk).1 same)
  rw [SourceUnit.hoistAll_perm perm inert apart, SourceUnit.hoistAll_append]
  refine (SourceUnit.hoistAll_of_not_asks fun g hg asks => ?_).symm
  rw [List.mem_filter, decide_eq_true_eq] at hg
  obtain ⟨known, made⟩ := hg
  obtain ⟨mine, members⟩ := mem_expansions.1 known
  have asked := (SourceUnit.asks_mapModules _).1
    (SourceUnit.Asks.of_hoistAll (fun k hk => inert k (mem k hk)) asks)
  rcases h.rest g.1 mine with done | waits | never
  · exact made done
  · rw [(h.inlines g.1 waits (own.inlines g.1 mine)).2.2] at members
    cases members
  · exact never asked

theorem expansions_congr {s s' : SymbolStore}
    (h : ∀ i ∈ p.inlines, s'.inlinedMembers? i = s.inlinedMembers? i) :
    s'.expansions p = s.expansions p := by
  refine List.filterMap_congr fun i hi => ?_
  rw [Pending.mem_foldl_addNew, or_iff_right List.not_mem_nil] at hi
  rw [h i hi]

/-- A unit that fits the store it is in is known from what the store finds for its pending work. -/
theorem Fits.unit? {c : Prop} (h : Fits c e e u p) (hc : c) (own : p.BelongsTo u.doc)
    (unmixed : e.Unmixed p) :
    e.unit? u.doc = some ((u.mapModules (e.homes u p)).hoistAll (e.expansions p)) := by
  obtain ⟨modules, hoists, resolved, fits⟩ := h
  obtain ⟨binds, known⟩ := fits hc
  rw [resolved.unit, resolved.hoistAll_eq_expansions own known unmixed.plain, binds.eq_homes resolved]

end Outcome

end SymbolStore

end C3Lens
