import C3Lens.Proofs.Lookup.Unique
import C3Lens.Proofs.Workspace.Shelves

/-!
# The modules that are visible at a cursor

`visibleModules_exact`: the modules that are searched from a cursor are the registered ones that qualify for
it (`Workspace.Qualifies`), each once, under the best nearness that it qualifies for, the nearer ones first,
and the cursor's own module in front.

Four lists are joined and the first of equal modules is kept. So there are two things to see. Of modules with
the same key the first one of the joined list stays, and no other (`mem_distinctModules_iff`). And what
qualifies in some way is in the joined list, there or nearer (`exists_mem_candidates`). The reverse holds for
what is kept only: private modules of the cursor's document are listed again further back.
-/

namespace C3Lens

namespace Nearness

/-- How far a module is from the cursor, as a number. -/
def rank : Nearness → Nat
  | document => 0
  | sameModule => 1
  | elsewhere => 2

theorem rank_injective {a b : Nearness} (h : a.rank = b.rank) : a = b := by
  cases a <;> cases b <;> first | rfl | cases h

end Nearness

namespace VisibleModule

/-- What tells a module from all others: its unit and its name there. -/
def key (m : VisibleModule) : DocId × String :=
  (m.unit, m.content.name)

end VisibleModule

namespace Workspace

/-! ## The first of equal modules -/

theorem distinctModules_concat (ms : List VisibleModule) (m : VisibleModule) :
    distinctModules (ms ++ [m]) =
      if m.key ∈ (distinctModules ms).map VisibleModule.key then distinctModules ms
      else distinctModules ms ++ [m] := by
  have known : ((distinctModules ms).any fun k => k.unit == m.unit && k.content.name == m.content.name) = true ↔
      m.key ∈ (distinctModules ms).map VisibleModule.key := by
    simp only [List.any_eq_true, List.mem_map, Bool.and_eq_true, beq_iff_eq, VisibleModule.key, Prod.mk.injEq]
  have step : distinctModules (ms ++ [m]) =
      if (distinctModules ms).any fun k => k.unit == m.unit && k.content.name == m.content.name
        then distinctModules ms else distinctModules ms ++ [m] := by
    rw [distinctModules, List.foldl_append, List.foldl_cons, List.foldl_nil]
    rfl
  rw [step]
  exact if_congr known rfl rfl

theorem keys_distinctModules (ms : List VisibleModule) (key : DocId × String) :
    key ∈ (distinctModules ms).map VisibleModule.key ↔ key ∈ ms.map VisibleModule.key := by
  induction ms using List.reverseRecOn with
  | nil => rfl
  | append_singleton ms m ih =>
    rw [distinctModules_concat]
    split
    next known =>
      rw [ih, List.map_append, List.mem_append]
      constructor
      · exact .inl
      · rintro (old | new)
        · exact old
        · rw [List.map_singleton, List.mem_singleton] at new
          rw [← ih, new]
          exact known
    next => rw [List.map_append, List.map_append, List.mem_append, List.mem_append, ih]

/-- No two modules that are kept have the same key. -/
theorem nodup_distinctModules (ms : List VisibleModule) : ((distinctModules ms).map VisibleModule.key).Nodup := by
  induction ms using List.reverseRecOn with
  | nil => exact List.nodup_nil
  | append_singleton ms m ih =>
    rw [distinctModules_concat]
    split
    · exact ih
    next new =>
      rw [List.map_append, List.map_singleton, List.nodup_append]
      refine ⟨ih, List.nodup_singleton _, fun k hk l hl same => new ?_⟩
      rw [List.mem_singleton.1 hl] at same
      exact same ▸ hk

theorem distinctModules_sublist (ms : List VisibleModule) : (distinctModules ms).Sublist ms := by
  induction ms using List.reverseRecOn with
  | nil => exact List.Sublist.refl _
  | append_singleton ms m ih =>
    rw [distinctModules_concat]
    split
    · exact ih.trans (List.sublist_append_left ms [m])
    · exact ih.append (List.Sublist.refl [m])

/-- A module is kept if none of its key is listed in front of it. -/
theorem mem_distinctModules_iff {ms : List VisibleModule} {m : VisibleModule} :
    m ∈ distinctModules ms ↔
      ∃ front behind, ms = front ++ m :: behind ∧ m.key ∉ front.map VisibleModule.key := by
  induction ms using List.reverseRecOn with
  | nil =>
    constructor
    · intro h
      cases h
    · rintro ⟨front, behind, whole, -⟩
      cases front <;> cases whole
  | append_singleton ms last ih =>
    have earlier : m ∈ distinctModules ms ↔
        ∃ front behind, ms = front ++ m :: behind ∧ m.key ∉ front.map VisibleModule.key := ih
    have listed : (∃ front behind, ms ++ [last] = front ++ m :: behind ∧ m.key ∉ front.map VisibleModule.key) ↔
        m ∈ distinctModules ms ∨ (m = last ∧ m.key ∉ ms.map VisibleModule.key) := by
      rw [earlier]
      constructor
      · rintro ⟨front, behind, whole, new⟩
        rcases List.eq_nil_or_concat behind with rfl | ⟨behind, x, rfl⟩
        · obtain ⟨rfl, same⟩ := List.append_inj' whole rfl
          exact .inr ⟨(List.cons.inj same).1.symm, new⟩
        · rw [List.concat_eq_append, ← List.cons_append, ← List.append_assoc] at whole
          exact .inl ⟨front, behind, (List.append_inj' whole rfl).1, new⟩
      · rintro (⟨front, behind, rfl, new⟩ | ⟨rfl, new⟩)
        · exact ⟨front, behind ++ [last], by rw [List.append_assoc, List.cons_append], new⟩
        · exact ⟨ms, [], rfl, new⟩
    rw [listed, distinctModules_concat]
    split
    next known =>
      rw [keys_distinctModules] at known
      refine ⟨.inl, fun h => h.resolve_right ?_⟩
      rintro ⟨rfl, new⟩
      exact new known
    next new =>
      rw [keys_distinctModules] at new
      rw [List.mem_append, List.mem_singleton]
      constructor
      · exact Or.imp_right fun same => ⟨same, same ▸ new⟩
      · exact Or.imp_right And.left

theorem head?_distinctModules (ms : List VisibleModule) : (distinctModules ms).head? = ms.head? := by
  induction ms using List.reverseRecOn with
  | nil => rfl
  | append_singleton ms m ih =>
    rw [distinctModules_concat]
    split
    next known =>
      rw [ih, List.head?_append]
      cases ms with
      | nil => cases known
      | cons => rfl
    next => rw [List.head?_append, ih, List.head?_append]

/-- Where the nearer modules are listed first, the nearest of a key is kept. -/
theorem rank_le_of_mem_distinctModules {ms : List VisibleModule}
    (sorted : ms.Pairwise fun k m => k.nearness.rank ≤ m.nearness.rank) {m k : VisibleModule}
    (kept : m ∈ distinctModules ms) (hk : k ∈ ms) (same : k.key = m.key) :
    m.nearness.rank ≤ k.nearness.rank := by
  obtain ⟨front, behind, rfl, new⟩ := mem_distinctModules_iff.1 kept
  rcases List.mem_append.1 hk with inFront | here
  · exact absurd (same ▸ List.mem_map_of_mem inFront) new
  · rcases List.mem_cons.1 here with rfl | later
    · exact Nat.le_refl _
    · exact (List.pairwise_cons.1 (List.pairwise_append.1 sorted).2.1).1 k later

/-! ## What makes a module visible -/

/-- The unit provides the module. -/
def Provides (w : Workspace) (unit : DocId) (m : Module) : Prop :=
  ∃ u, w.symbols.unit? unit = some u ∧ m ∈ u.modules.values

/-- The module of the cursor's document that the cursor's path names. -/
def ownModule? (w : Workspace) (c : Cursor) : Option Module :=
  (w.symbols.unit? c.doc).bind (·.module? c.modulePath.text)

/-- What makes a module of a unit visible at a cursor, and how near it then is. -/
inductive Qualifies (w : Workspace) (c : Cursor) (unit : DocId) (m : Module) : Nearness → Prop
  /-- All modules of the cursor's document are visible. -/
  | document (own : unit = c.doc) : Qualifies w c unit m .document
  /-- The cursor's module is visible wherever it is declared, private or not. -/
  | sameModule (path : m.modulePath = c.modulePath) : Qualifies w c unit m .sameModule
  /-- So are the public modules above and below it. -/
  | relative (isPublic : m.isPrivate = false) (related : m.modulePath.isRelative c.modulePath = true) :
      Qualifies w c unit m .elsewhere
  /-- So are the public modules that the cursor's module imports: by the end of their paths, or from above
  or below. -/
  | imported (isPublic : m.isPrivate = false) {importer : Module} (own : w.ownModule? c = some importer)
      {path : ModulePath} (listed : path ∈ importer.imports)
      (leads : m.modulePath.endsWith path = true ∨ m.modulePath.isRelative path = true) :
      Qualifies w c unit m .elsewhere

section Candidates

variable {w : Workspace} {c : Cursor}

/-- All that is visible, the nearer modules first, some of them more than once. -/
def candidates (w : Workspace) (c : Cursor) : List VisibleModule :=
  w.modulesOfDocument c ++
    w.modulesWhere .sameModule (fun unit m => unit != c.doc && m.modulePath == c.modulePath) ++
    w.modulesWhere .elsewhere (fun unit m => m.modulePath.isRelative c.modulePath && isOpenTo c unit m) ++
    (w.importsOf c).flatMap fun path =>
      w.modulesWhere .elsewhere fun unit m => isImported path m && isOpenTo c unit m

theorem visibleModules_eq (w : Workspace) (c : Cursor) : w.visibleModules c = distinctModules (w.candidates c) :=
  rfl

theorem mem_importsOf_iff {path : ModulePath} :
    path ∈ w.importsOf c ↔ ∃ importer, w.ownModule? c = some importer ∧ path ∈ importer.imports := by
  show path ∈ ((w.ownModule? c).map (·.imports)).getD [] ↔ _
  cases w.ownModule? c with
  | none => simp
  | some importer => simp

theorem nearness_of_mem_modulesWhere {nearness : Nearness} {p : DocId → Module → Bool} {m : VisibleModule}
    (h : m ∈ w.modulesWhere nearness p) : m.nearness = nearness := by
  obtain ⟨-, -, -, -, -, near⟩ := mem_modulesWhere_iff.1 h
  exact near

theorem nearness_of_mem_modulesOfDocument {m : VisibleModule} (h : m ∈ w.modulesOfDocument c) :
    m.nearness = .document := by
  rcases List.mem_append.1 h with own | other
  · exact nearness_of_mem_modulesWhere (List.mem_filter.1 own).1
  · exact nearness_of_mem_modulesWhere (List.mem_filter.1 other).1

theorem nearness_of_mem_imported {m : VisibleModule} (h : m ∈ (w.importsOf c).flatMap fun path =>
    w.modulesWhere .elsewhere fun unit m => isImported path m && isOpenTo c unit m) : m.nearness = .elsewhere := by
  obtain ⟨path, -, listed⟩ := List.mem_flatMap.1 h
  exact nearness_of_mem_modulesWhere listed

/-- Lists of modules that are all equally near, the nearer list first, are sorted when they are joined. -/
theorem pairwise_append_rank {ms ks : List VisibleModule} {n : Nat}
    (first : ms.Pairwise fun k m => k.nearness.rank ≤ m.nearness.rank) (le : ∀ m ∈ ms, m.nearness.rank ≤ n)
    (eq : ∀ k ∈ ks, k.nearness.rank = n) :
    (ms ++ ks).Pairwise fun k m => k.nearness.rank ≤ m.nearness.rank := by
  refine List.pairwise_append.2 ⟨first, ?_, fun m hm k hk => eq k hk ▸ le m hm⟩
  exact List.pairwise_of_forall_mem_list fun k hk m hm => by rw [eq k hk, eq m hm]

theorem pairwise_candidates (w : Workspace) (c : Cursor) :
    (w.candidates c).Pairwise fun k m => k.nearness.rank ≤ m.nearness.rank := by
  have document : ∀ m ∈ w.modulesOfDocument c, m.nearness.rank = 0 := fun m hm => by
    rw [nearness_of_mem_modulesOfDocument hm, Nearness.rank]
  have sameModule : ∀ p, ∀ m ∈ w.modulesWhere .sameModule p, m.nearness.rank = 1 := fun p m hm => by
    rw [nearness_of_mem_modulesWhere hm, Nearness.rank]
  have elsewhere : ∀ p, ∀ m ∈ w.modulesWhere .elsewhere p, m.nearness.rank = 2 := fun p m hm => by
    rw [nearness_of_mem_modulesWhere hm, Nearness.rank]
  have own : (w.modulesOfDocument c).Pairwise fun k m => k.nearness.rank ≤ m.nearness.rank := by
    rw [← List.nil_append (w.modulesOfDocument c)]
    exact pairwise_append_rank List.Pairwise.nil nofun document
  have upTo : ∀ m ∈ w.modulesOfDocument c ++ w.modulesWhere .sameModule
      (fun unit m => unit != c.doc && m.modulePath == c.modulePath), m.nearness.rank ≤ 1 := by
    intro m hm
    rcases List.mem_append.1 hm with here | there
    · rw [document m here]
      exact Nat.zero_le 1
    · rw [sameModule _ m there]
  have worst : ∀ m : VisibleModule, m.nearness.rank ≤ 2 := by
    intro m
    cases m.nearness <;> decide
  apply pairwise_append_rank
  · apply pairwise_append_rank
    · apply pairwise_append_rank own
      · exact fun m hm => (document m hm).le.trans (Nat.zero_le 1)
      · exact sameModule _
    · exact fun m hm => (upTo m hm).trans (Nat.le_succ 1)
    · exact elsewhere _
  · exact fun m _ => worst m
  · intro m hm
    rw [nearness_of_mem_imported hm, Nearness.rank]

end Candidates

section Shelved

variable {w : Workspace} {c : Cursor} {unit : DocId} {m : Module}

theorem provides_iff (shelved : w.symbols.Shelved) :
    w.Provides unit m ↔ ∃ u ∈ w.symbols.units.values, unit = u.doc ∧ m ∈ u.modules.values := by
  constructor
  · rintro ⟨u, found, hm⟩
    exact ⟨u, Table.mem_values_iff.2 ⟨_, found⟩, (DocId.text_inj.1 (shelved.keyed _ u found)).symm, hm⟩
  · rintro ⟨u, hu, rfl, hm⟩
    exact ⟨u, shelved.unit?_doc hu, hm⟩

theorem mem_modulesWhere_of_provides (shelved : w.symbols.Shelved) (provides : w.Provides unit m)
    (nearness : Nearness) {p : DocId → Module → Bool} (holds : p unit m = true) :
    ⟨unit, m, nearness⟩ ∈ w.modulesWhere nearness p := by
  obtain ⟨u, hu, rfl, hm⟩ := (provides_iff shelved).1 provides
  exact mem_modulesWhere_iff.2 ⟨u, hu, rfl, hm, holds, rfl⟩

theorem mem_modulesOfDocument_of_provides (shelved : w.symbols.Shelved) (provides : w.Provides c.doc m) :
    ⟨c.doc, m, .document⟩ ∈ w.modulesOfDocument c := by
  have mem : ⟨c.doc, m, .document⟩ ∈ w.modulesWhere .document fun d _ => d == c.doc :=
    mem_modulesWhere_of_provides shelved provides .document (beq_self_eq_true c.doc)
  rw [modulesOfDocument, List.mem_append, List.mem_filter, List.mem_filter]
  by_cases path : m.modulePath = c.modulePath
  · exact .inl ⟨mem, beq_iff_eq.2 path⟩
  · exact .inr ⟨mem, bne_iff_ne.2 path⟩

theorem mem_candidates_of_document (shelved : w.symbols.Shelved) (provides : w.Provides c.doc m) :
    ⟨c.doc, m, .document⟩ ∈ w.candidates c :=
  List.mem_append_left _ (List.mem_append_left _
    (List.mem_append_left _ (mem_modulesOfDocument_of_provides shelved provides)))

/-- A registered module that qualifies is a candidate, as near as that or nearer. -/
theorem exists_mem_candidates (shelved : w.symbols.Shelved) (provides : w.Provides unit m) {near : Nearness}
    (qualifies : w.Qualifies c unit m near) :
    ∃ near', near'.rank ≤ near.rank ∧ ⟨unit, m, near'⟩ ∈ w.candidates c := by
  by_cases own : unit = c.doc
  · subst own
    exact ⟨.document, Nat.zero_le _, mem_candidates_of_document shelved provides⟩
  cases qualifies with
  | document own' => exact absurd own' own
  | sameModule path =>
    have listed := mem_modulesWhere_of_provides shelved provides .sameModule
      (p := fun unit m => unit != c.doc && m.modulePath == c.modulePath)
      (by rw [bne_iff_ne.2 own, beq_iff_eq.2 path, Bool.and_self])
    exact ⟨_, Nat.le_refl _, List.mem_append_left _ (List.mem_append_left _ (List.mem_append_right _ listed))⟩
  | relative isPublic related =>
    have listed := mem_modulesWhere_of_provides shelved provides .elsewhere
      (p := fun unit m => m.modulePath.isRelative c.modulePath && isOpenTo c unit m)
      (by rw [related, isOpenTo, isPublic]; rfl)
    exact ⟨_, Nat.le_refl _, List.mem_append_left _ (List.mem_append_right _ listed)⟩
  | @imported isPublic importer own path listed leads =>
    have imported : isImported path m = true := by
      rw [isImported, Bool.or_eq_true]
      exact leads
    have found := mem_modulesWhere_of_provides shelved provides .elsewhere
      (p := fun unit m => isImported path m && isOpenTo c unit m)
      (by rw [imported, isOpenTo, isPublic]; rfl)
    exact ⟨_, Nat.le_refl _, List.mem_append_right _
      (List.mem_flatMap.2 ⟨path, mem_importsOf_iff.2 ⟨importer, own, listed⟩, found⟩)⟩

/-- A candidate of another document than the cursor's qualifies. -/
theorem qualifies_of_mem_candidates {k : VisibleModule} (h : k ∈ w.candidates c) (other : k.unit ≠ c.doc) :
    w.Qualifies c k.unit k.content k.nearness := by
  have isPublic : isOpenTo c k.unit k.content = true → k.content.isPrivate = false := by
    intro isOpen
    rw [isOpenTo, beq_false_of_ne other, Bool.or_false, Bool.not_eq_true'] at isOpen
    exact isOpen
  rw [candidates, List.mem_append, List.mem_append, List.mem_append] at h
  rcases h with ((document | sameModule) | related) | imported
  · have there : k ∈ w.modulesWhere .document fun unit _ => unit == c.doc := by
      rcases List.mem_append.1 document with own | rest
      · exact (List.mem_filter.1 own).1
      · exact (List.mem_filter.1 rest).1
    obtain ⟨u, -, unit, -, own, -⟩ := mem_modulesWhere_iff.1 there
    exact absurd (unit.trans (beq_iff_eq.1 own)) other
  · obtain ⟨u, -, unit, -, holds, near⟩ := mem_modulesWhere_iff.1 sameModule
    rw [Bool.and_eq_true, beq_iff_eq] at holds
    rw [near]
    exact .sameModule holds.2
  · obtain ⟨u, -, unit, -, holds, near⟩ := mem_modulesWhere_iff.1 related
    rw [Bool.and_eq_true, ← unit] at holds
    rw [near]
    exact .relative (isPublic holds.2) holds.1
  · obtain ⟨path, listed, there⟩ := List.mem_flatMap.1 imported
    obtain ⟨importer, own, listed⟩ := mem_importsOf_iff.1 listed
    obtain ⟨u, -, unit, -, holds, near⟩ := mem_modulesWhere_iff.1 there
    rw [Bool.and_eq_true, ← unit, isImported, Bool.or_eq_true] at holds
    rw [near]
    exact .imported (isPublic holds.2) own listed holds.1

/-- A visible module is registered by the unit that it comes with. -/
theorem provides_of_mem_visibleModules (shelved : w.symbols.Shelved) {k : VisibleModule}
    (h : k ∈ w.visibleModules c) : w.Provides k.unit k.content := by
  obtain ⟨u, hu, unit, content⟩ := unit_of_mem_visibleModules h
  exact (provides_iff shelved).2 ⟨u, hu, unit, content⟩

/-- A unit provides one module under each name. -/
theorem Provides.eq_of_name (shelved : w.symbols.Shelved) {n : Module} (hm : w.Provides unit m)
    (hn : w.Provides unit n) (name : m.name = n.name) : m = n := by
  obtain ⟨u, found, hm⟩ := hm
  obtain ⟨v, found', hn⟩ := hn
  rw [found] at found'
  cases found'
  exact shelved.eq_of_name found hm hn name

/-- A visible module qualifies as it is listed, and not as a nearer one. -/
theorem best_of_mem_visibleModules (shelved : w.symbols.Shelved) {k : VisibleModule}
    (h : k ∈ w.visibleModules c) :
    w.Qualifies c k.unit k.content k.nearness ∧
      ∀ near, w.Qualifies c k.unit k.content near → k.nearness.rank ≤ near.rank := by
  have provides := provides_of_mem_visibleModules shelved h
  have nearest : ∀ near, ⟨k.unit, k.content, near⟩ ∈ w.candidates c → k.nearness.rank ≤ near.rank :=
    fun near listed => rank_le_of_mem_distinctModules (pairwise_candidates w c) h listed rfl
  constructor
  · by_cases own : k.unit = c.doc
    · have listed : ⟨k.unit, k.content, .document⟩ ∈ w.candidates c := by
        rw [own] at provides ⊢
        exact mem_candidates_of_document shelved provides
      have document : k.nearness = .document := Nearness.rank_injective (Nat.le_zero.1 (nearest _ listed))
      rw [document]
      exact .document own
    · exact qualifies_of_mem_candidates ((distinctModules_sublist _).subset h) own
  · intro near qualifies
    obtain ⟨near', le, listed⟩ := exists_mem_candidates shelved provides qualifies
    exact (nearest near' listed).trans le

/-- What qualifies is visible. -/
theorem exists_mem_visibleModules (shelved : w.symbols.Shelved) (provides : w.Provides unit m) {near : Nearness}
    (qualifies : w.Qualifies c unit m near) : ∃ near', ⟨unit, m, near'⟩ ∈ w.visibleModules c := by
  obtain ⟨near', -, listed⟩ := exists_mem_candidates shelved provides qualifies
  obtain ⟨k, hk, unit', name⟩ := exists_mem_distinctModules listed
  have kept : w.Provides k.unit k.content := provides_of_mem_visibleModules shelved hk
  obtain ⟨unit'', content, near''⟩ := k
  obtain rfl : unit'' = unit := unit'
  obtain rfl : content = m := kept.eq_of_name shelved provides name
  exact ⟨near'', hk⟩

/-- The cursor's module in the cursor's document is searched first, whatever the other units hold. -/
theorem head?_visibleModules_of_unit (keyed : w.symbols.Keyed) {u : SourceUnit}
    (unit : w.symbols.unit? c.doc = some u) (shelved : u.Shelved) (hm : m ∈ u.modules.values)
    (path : m.modulePath = c.modulePath) : (w.visibleModules c).head? = some ⟨c.doc, m, .document⟩ := by
  have own : u ∈ w.symbols.units.values := Table.mem_values_iff.2 ⟨_, unit⟩
  have ownDoc : u.doc = c.doc := DocId.text_inj.1 (keyed _ u unit)
  have listed : ⟨c.doc, m, .document⟩ ∈
      (w.modulesWhere .document fun unit _ => unit == c.doc).filter (·.content.modulePath == c.modulePath) :=
    List.mem_filter.2 ⟨mem_modulesWhere_iff.2 ⟨u, own, ownDoc.symm, hm, beq_iff_eq.2 ownDoc, rfl⟩,
      beq_iff_eq.2 path⟩
  rw [visibleModules_eq, head?_distinctModules, candidates, modulesOfDocument, List.append_assoc,
    List.append_assoc, List.append_assoc, List.head?_append]
  cases front : (w.modulesWhere .document fun unit _ => unit == c.doc).filter
      (·.content.modulePath == c.modulePath) with
  | nil =>
    rw [front] at listed
    cases listed
  | cons k ks =>
    -- Whatever stands in front is a module of the same document and path, so it is the module.
    have first : k ∈ (w.modulesWhere .document fun unit _ => unit == c.doc).filter
        (·.content.modulePath == c.modulePath) := front ▸ List.mem_cons_self
    obtain ⟨there, path'⟩ := List.mem_filter.1 first
    obtain ⟨v, hv, unit', content, here, near⟩ := mem_modulesWhere_iff.1 there
    have doc : k.unit = c.doc := unit'.trans (beq_iff_eq.1 here)
    have units : w.symbols.units.KeyedBy (·.doc.text) := keyed
    have vUnit : w.symbols.unit? c.doc = some v := by
      rw [← doc, unit']
      exact units.get?_of_mem hv
    obtain rfl : u = v := Option.some.inj (unit.symm.trans vUnit)
    have same : k.content = m := by
      have found := shelved.keyed.get?_of_mem content
      rw [shelved.named k.content content, (beq_iff_eq.1 path').trans path.symm, ← shelved.named m hm,
        shelved.keyed.get?_of_mem hm] at found
      exact (Option.some.inj found).symm
    rw [List.head?_cons, Option.some_or, ← doc, ← same, ← near]

/-- The cursor's module in the cursor's document is searched first. -/
theorem head?_visibleModules (shelved : w.symbols.Shelved) (provides : w.Provides c.doc m)
    (path : m.modulePath = c.modulePath) : (w.visibleModules c).head? = some ⟨c.doc, m, .document⟩ := by
  obtain ⟨u, unit, hm⟩ := provides
  exact head?_visibleModules_of_unit shelved.keyed unit (shelved.units _ u unit) hm path

end Shelved

/-- In a workspace that is reached, the visible modules at a cursor are those registered modules that qualify
there, each of them once and with the best nearness that it qualifies for. The nearer ones come first, and
before all others the module of the cursor's path that the cursor's document declares. -/
theorem visibleModules_exact {w : Workspace} (h : Reachable (fun _ a => a.ReadsShelved) w) (c : Cursor) :
    ((w.visibleModules c).Pairwise fun k m => ¬ (k.unit = m.unit ∧ k.content.name = m.content.name)) ∧
    (∀ unit m, (∃ near, ⟨unit, m, near⟩ ∈ w.visibleModules c) ↔
      w.Provides unit m ∧ ∃ near, w.Qualifies c unit m near) ∧
    (∀ k ∈ w.visibleModules c, w.Qualifies c k.unit k.content k.nearness ∧
      ∀ near, w.Qualifies c k.unit k.content near → k.nearness.rank ≤ near.rank) ∧
    ((w.visibleModules c).Pairwise fun k m => k.nearness.rank ≤ m.nearness.rank) ∧
    (∀ m, w.Provides c.doc m → m.modulePath = c.modulePath →
      (w.visibleModules c).head? = some ⟨c.doc, m, .document⟩) := by
  have shelved := shelved_of_reachable h
  refine ⟨?_, fun unit m => ⟨?_, ?_⟩, fun k => best_of_mem_visibleModules shelved, ?_, fun m =>
    head?_visibleModules shelved⟩
  · have once := nodup_distinctModules (w.candidates c)
    rw [List.Nodup, List.pairwise_map] at once
    exact once.imp fun ne same => ne (Prod.ext same.1 same.2)
  · rintro ⟨near, visible⟩
    exact ⟨provides_of_mem_visibleModules shelved visible, near, (best_of_mem_visibleModules shelved visible).1⟩
  · rintro ⟨provides, near, qualifies⟩
    exact exists_mem_visibleModules shelved provides qualifies
  · exact (pairwise_candidates w c).sublist (distinctModules_sublist _)

/-- Two documents of the module `app`; one of them also declares a module that the other one imports, and a
private one below it. -/
def neighbours : List Action :=
  [.openDocument ⟨"file:///a.c3"⟩ "module app; import lib; int x;" 1,
    .openDocument ⟨"file:///b.c3"⟩ "module lib::io; int z; module app; int y; module lib::raw @private; int k;" 1]

theorem visibleModules_neighbours :
    Reachable (fun _ a => a.ReadsShelved) (run neighbours) ∧
      ((run neighbours).visibleModules ⟨⟨"file:///a.c3"⟩, ⟨["app"]⟩, ⟨0, 0⟩⟩).map
          (fun m => (m.unit.text, m.content.name, m.nearness)) =
        [("file:///a.c3", "app", .document), ("file:///b.c3", "app", .sameModule),
          ("file:///b.c3", "lib::io", .elsewhere)] ∧
      ((run neighbours).visibleModules ⟨⟨"file:///a.c3"⟩, ⟨["app"]⟩, ⟨0, 0⟩⟩).Pairwise
        fun k m => k.nearness.rank ≤ m.nearness.rank := by
  have reachable : Reachable (fun _ a => a.ReadsShelved) (run neighbours) :=
    reachable_of_forall (List.forall_mem_cons.2 ⟨trivial, List.forall_mem_singleton.2 trivial⟩)
  refine ⟨reachable, by decide +kernel, ?_⟩
  exact (visibleModules_exact reachable _).2.2.2.1

end Workspace

end C3Lens
