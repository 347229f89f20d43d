import C3Lens.Proofs.SymbolStore.Binding
import C3Lens.Proofs.SymbolStore.Waiting

/-!
# Types are bound or wait

Right after a document is registered in a store that registering, forgetting and renaming documents
led to, each user-defined type that the document writes is in a module that declares it, or the
context for the name and module that it has then waits (`declared_or_waits`). What waits, for this
document or another one, has no home.

The queue of a module is worked off once, and a type may be found by several contexts of it. It
ends up in the home of one of them, or it stays as written because its own context has no home
(`moduleAfter_home_or_kept`).
-/

namespace C3Lens

theorem ReadUnit.work_ofText (doc : DocId) (text : String) :
    (ReadUnit.ofText doc text).work.Tidy ∧ (ReadUnit.ofText doc text).work.BelongsTo doc := by
  obtain ⟨-, tidy, own, -⟩ := outline_sound doc (.ofString text) (Parse.ofString text).tree
  exact ⟨tidy, own⟩

namespace SymbolStore

/-! ## Homes -/

/-- A home is the name of a registered module that declares the type. -/
theorem declaresType_of_home? {s : SymbolStore} {c : PendingType} {home : String}
    (h : s.home? c = some home) : ∃ m ∈ s.modules, m.name = home ∧ declaresType c.typeName m = true := by
  rw [home?] at h
  obtain ⟨u, -, h⟩ := Option.bind_eq_some_iff.1 h
  obtain ⟨context, -, h⟩ := Option.bind_eq_some_iff.1 h
  -- Whatever the choice among the candidates is, it is one of them.
  have candidate : ∀ {m : Module} {p q : Module → Bool}, (s.modules.filter p).find? q = some m ∨
      (s.modules.filter p).head? = some m → m ∈ s.modules ∧ p m = true := by
    rintro m p q (found | first)
    · exact List.mem_filter.1 (List.mem_of_find?_eq_some found)
    · exact List.mem_filter.1 (List.mem_of_head? first)
  dsimp only at h
  split at h <;> obtain ⟨m, chosen, named⟩ := Option.bind_eq_some_iff.1 h
  · rw [qualifiedHome?, Option.orElse_eq_some] at chosen
    obtain ⟨mem, declares⟩ := candidate (chosen.imp_right And.right)
    rw [Bool.and_eq_true] at declares
    exact ⟨m, mem, Option.some.inj named, declares.2⟩
  · rw [plainHome?, Option.orElse_eq_some, Option.orElse_eq_some] at chosen
    rcases chosen with near | ⟨-, imported | ⟨-, any⟩⟩
    · obtain ⟨mem, declares⟩ := candidate (.inl near)
      exact ⟨m, mem, Option.some.inj named, declares⟩
    · obtain ⟨mem, declares⟩ := candidate (.inl imported)
      exact ⟨m, mem, Option.some.inj named, declares⟩
    · split at any
      · obtain ⟨mem, declares⟩ := candidate (q := fun _ => true) (.inr any)
        exact ⟨m, mem, Option.some.inj named, declares⟩
      · cases any

/-! ## One queue -/

/-- A type that went through a queue is in the home of one of the contexts of its name, or it is as
it was, and then no context found a home for it. -/
theorem moduleAfter_home_or_kept (s : SymbolStore) (queue : List PendingType) {type : TypeRef}
    (named : type.isNamed = true) :
    (∃ c ∈ queue, c.typeName = type.name ∧ s.home? c = some (s.moduleAfter queue type)) ∨
      s.moduleAfter queue type = type.moduleName ∧
        ∀ c ∈ queue, c.typeName = type.name → c.written = type.moduleName → s.home? c = none := by
  induction queue generalizing type with
  | nil => exact .inr ⟨rfl, nofun⟩
  | cons c queue ih =>
    have under := moduleUnder_of_isNamed (s := s) named c
    have named' : { type with moduleName := s.moduleUnder c type }.isNamed = true := named
    rw [moduleAfter]
    rcases ih named' with ⟨d, hd, name, home⟩ | ⟨kept, homeless⟩
    · exact .inl ⟨d, List.mem_cons_of_mem _ hd, name, home⟩
    · rw [kept]
      by_cases meant : c.typeName = type.name ∧ c.written = type.moduleName
      · rw [if_pos meant, homeOf] at under
        cases home : s.home? c with
        | some found =>
          rw [home, Option.getD_some] at under
          exact .inl ⟨c, List.mem_cons_self, meant.1, home.trans (congrArg some under.symm)⟩
        | none =>
          rw [home, Option.getD_none, meant.2] at under
          refine .inr ⟨under, fun d hd name written => ?_⟩
          rcases List.mem_cons.1 hd with rfl | hd
          · exact home
          · exact homeless d hd name (written.trans under.symm)
      · rw [if_neg meant] at under
        refine .inr ⟨under, fun d hd name written => ?_⟩
        rcases List.mem_cons.1 hd with rfl | hd
        · exact absurd ⟨name, written⟩ meant
        · exact homeless d hd name (written.trans under.symm)

/-! ## Reachable stores -/

theorem tidy_change {s : SymbolStore} (h : s.pending.Tidy) (c : Change) : (s.change c).pending.Tidy := by
  cases c with
  | register r => exact tidy_settle _
  | delete doc => exact h.purge doc
  | rename old new =>
    show (s.rename old new).pending.Tidy
    rw [rename]
    split
    · exact h
    · exact h.rename old new

theorem tidy_ofChanges (changes : List Change) : (ofChanges changes).pending.Tidy := by
  induction changes using List.reverseRecOn with
  | nil => exact Pending.tidy_empty
  | append_singleton changes c ih =>
    rw [ofChanges, List.foldl_concat]
    exact tidy_change ih c

section Register

variable {s : SymbolStore} {u : SourceUnit} {p : Pending}

/-- The unit of a registered document: its types went through its own queue. -/
theorem unit?_register_self (hs : s.pending.Tidy) (hp : p.Tidy) (own : p.BelongsTo u.doc) :
    ∃ hoists, (s.register u p).unit? u.doc = some ((u.mapModules fun name =>
      (s.register u p).moduleAfter (p.typesIn name)).hoistAll hoists) := by
  obtain ⟨hoists, unit, -, -⟩ := unit?_register hs u p u.doc
  have homes : (s.register u p).moduleAfter = (s.placed u p).moduleAfter :=
    funext fun ts => funext (moduleAfter_congr (skeleton_settle (s.placed u p)) ts)
  simp only [unit?_placed, if_true, Option.map_some, ← (tidy_placed hs u p).filter_isIn,
    filter_types_placed s hp own] at unit
  rw [homes]
  exact ⟨hoists, unit⟩

/-- What waits after a registration: the contexts of the other documents and those of the document
itself that have no home. -/
theorem mem_types_register (hs : s.pending.Tidy) (hp : p.Tidy) (own : p.BelongsTo u.doc) {c : PendingType} :
    c ∈ (s.register u p).pending.types ↔ (c ∈ s.pending.types ∧ c.doc ≠ u.doc ∨ c ∈ p.types) ∧
      (s.register u p).home? c = none ∧ (s.register u p).contains c.doc = true := by
  have kept : (s.register u p).skeleton = (s.placed u p).skeleton := skeleton_settle _
  have tidy : (s.register u p).pending.Tidy := tidy_settle _
  rw [tidy.mem_types_iff, hs.mem_types_iff, hp.mem_types_iff, register_eq,
    typesIn_settle (tidy_placed hs u p), typesIn_placed hp own, ← register_eq, home?_congr kept,
    contains_congr kept, List.mem_filter, List.mem_append, List.mem_filter, bne_iff_ne, waits,
    Bool.and_eq_true, Option.isNone_iff_eq_none]

end Register

/-- Right after a document is registered, each user-defined type that it writes is in a module that
declares it, or its context waits; and nothing that waits has a home. -/
theorem declared_or_waits (changes : List Change) (doc : DocId) (text : String) :
    let r := ReadUnit.ofText doc text
    let s := (ofChanges changes).register r.unit r.work
    (∃ modules hoists, s.unit? doc = some ((r.unit.mapModules modules).hoistAll hoists) ∧
      ∀ name m, (r.unit.mapModules modules).module? name = some m → ∀ t ∈ m.types, t.isUser = true →
        (∃ n ∈ s.modules, n.name = t.moduleName ∧ declaresType t.name n = true) ∨
          t.written doc name ∈ s.pending.types) ∧
    ∀ c ∈ s.pending.types, s.home? c = none := by
  intro r s
  have unit : r.unit.doc = doc := ReadUnit.doc_ofText doc text
  have hs := tidy_ofChanges changes
  obtain ⟨tidy, own⟩ := ReadUnit.work_ofText doc text
  obtain ⟨-, -, -, covers⟩ := outline_sound doc (.ofString text) (Parse.ofString text).tree
  have own' : r.work.BelongsTo r.unit.doc := unit.symm ▸ own
  refine ⟨?_, fun c waits => ?_⟩
  · obtain ⟨hoists, registered⟩ := unit?_register_self hs tidy own'
    rw [unit] at registered
    refine ⟨_, hoists, registered, fun name m found t ht user => ?_⟩
    obtain ⟨m, declared, rfl⟩ := Option.map_eq_some_iff.1 ((Table.get?_mapEntries _ _ _).symm.trans found)
    rw [Module.types_mapModule] at ht
    obtain ⟨t, written, rfl⟩ := List.mem_map.1 ht
    have user' : t.isUser = true := by
      simpa only [TypeRef.isUser, TypeRef.mapModule_isBuiltin, TypeRef.mapModule_isGenericParameter,
        TypeRef.mapModule_name] using user
    have queued : t.written doc name ∈ r.work.types := covers name m declared _ (TypeRef.mem_usesOf written user')
    have queue := tidy.mem_types_iff.1 queued
    rw [TypeRef.mapModule_name, TypeRef.mapModule_moduleName]
    rcases moduleAfter_home_or_kept s (r.work.typesIn name) (TypeRef.isNamed_of_isUser user') with
      ⟨c, -, typeName, home⟩ | ⟨kept, homeless⟩
    · obtain ⟨n, hn, named, declares⟩ := declaresType_of_home? home
      exact .inl ⟨n, hn, named, typeName ▸ declares⟩
    · have known : s.contains doc = true := by
        show (s.unit? doc).isSome = true
        rw [registered]
        rfl
      have waits := (mem_types_register hs tidy own').2
        ⟨.inr queued, homeless _ queue rfl rfl, known⟩
      refine .inr ?_
      rw [TypeRef.written, TypeRef.mapModule_name, TypeRef.mapModule_moduleName]
      show (⟨doc, name, t.name, s.moduleAfter (r.work.typesIn name) t⟩ : PendingType) ∈ _
      rw [kept]
      exact waits
  · obtain ⟨name, mem⟩ := Pending.mem_types_iff.1 waits
    exact (homeless_register hs mem).2

end SymbolStore

end C3Lens
