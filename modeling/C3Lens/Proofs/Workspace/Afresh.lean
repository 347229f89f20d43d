import C3Lens.Proofs.SymbolStore.Outcome
import C3Lens.Proofs.Workspace.Sources

/-!
# Reading everything again

A binding is made once and an expansion is made once, and neither is ever undone. So the units that
a run ends with are not always those that reading its texts again would give: a type keeps the module
of a document that is deleted (`stale_after_delete`).

`afresh_run`: for any run of actions on documents, reading the texts again from nothing, in the
order of the units, gives the same texts, and each unit resolves the same outline. It gives the very
same units where both runs are `Lasting`: what is found at any point for a text that stays is what is
found for it at the end.
-/

namespace C3Lens.Workspace

/-- The document has the text from the `k`-th action on. -/
def Stays (actions : List Action) (k : Nat) (name text : String) : Prop :=
  ∀ j ≤ actions.length, k ≤ j → (run (actions.take j)).texts.get? name = some text

/-- Whatever is found for the pending work of a text that stays is what is found for it at the end,
and no piece of that work undoes another. -/
structure Lasting (actions : List Action) : Prop where
  lasts : ∀ k ≤ actions.length, ∀ e ∈ (run (actions.take k)).texts.entries,
    Stays actions k e.1 e.2 →
      (run actions).symbols.Lasts (run (actions.take k)).symbols (pendingOf e.1 e.2)
  unmixed : ∀ e ∈ (run actions).texts.entries, (run actions).symbols.Unmixed (pendingOf e.1 e.2)

section Run

variable {actions : List Action} {name text : String} {k : Nat}

theorem Stays.get?_run (h : Stays actions k name text) (hk : k ≤ actions.length) :
    (run actions).texts.get? name = some text := by
  have last := h actions.length (Nat.le_refl _) hk
  rwa [List.take_length] at last

theorem stays_of_get? (found : (run actions).texts.get? name = some text) :
    Stays actions actions.length name text := by
  intro j hj last
  rwa [Nat.le_antisymm hj last, List.take_length]

theorem Stays.of_succ (h : Stays actions (k + 1) name text)
    (before : (run (actions.take k)).texts.get? name = some text) : Stays actions k name text := by
  intro j hj since
  rcases Nat.eq_or_lt_of_le since with rfl | later
  · exact before
  · exact h j hj later

theorem Lasting.lasts_of_stays (h : Lasting actions) (stays : Stays actions k name text)
    (hk : k ≤ actions.length) :
    (run actions).symbols.Lasts (run (actions.take k)).symbols (pendingOf name text) :=
  h.lasts k hk (name, text) (Table.mem_entries_iff.2 (stays k hk (Nat.le_refl k))) stays

theorem Lasting.unmixed_of_get? (h : Lasting actions)
    (found : (run actions).texts.get? name = some text) :
    (run actions).symbols.Unmixed (pendingOf name text) :=
  h.unmixed (name, text) (Table.mem_entries_iff.2 found)

/-- Nothing that the texts ask for is found before the last action, and in the end no piece of the work of
one of them undoes another. -/
def FoundLast (actions : List Action) : Prop :=
  (∀ k < actions.length, ∀ e ∈ (run (actions.take k)).texts.entries,
    (∀ c ∈ (pendingOf e.1 e.2).types, (run (actions.take k)).symbols.home? c = none) ∧
      ∀ i ∈ (pendingOf e.1 e.2).inlines,
        ((run (actions.take k)).symbols.inlinedMembers? i).isSome = false) ∧
    ∀ e ∈ (run actions).texts.entries, (run actions).symbols.Unmixed (pendingOf e.1 e.2)

instance (actions : List Action) : Decidable (FoundLast actions) :=
  inferInstanceAs (Decidable (_ ∧ _))

/-- Where nothing is found before the last action, all that is found lasts. -/
theorem FoundLast.lasting (h : FoundLast actions) : Lasting actions := by
  obtain ⟨before, unmixed⟩ := h
  refine ⟨fun k hk e he _ => ?_, unmixed⟩
  rcases Nat.eq_or_lt_of_le hk with rfl | early
  · rw [List.take_length]
    exact ⟨fun _ _ _ => rfl, fun _ _ _ => rfl⟩
  · obtain ⟨types, inlines⟩ := before k early e he
    refine ⟨fun c hc known => ?_, fun i hi known => ?_⟩
    · rw [types c hc] at known
      cases known
    · rw [inlines i hi] at known
      cases known

/-- At every point of a run the units of the texts that stay are resolved, and in a lasting run they
fit its end. -/
theorem fits_run (documents : ∀ a ∈ actions, a.isDocument = true) (hk : k ≤ actions.length)
    (stays : Stays actions k name text) :
    SymbolStore.Fits (Lasting actions) (run actions).symbols (run (actions.take k)).symbols
      (unitOf name text) (pendingOf name text) := by
  induction k with
  | zero =>
    have nothing := stays 0 hk (Nat.le_refl 0)
    cases nothing
  | succ k ih =>
    have now := stays (k + 1) hk (Nat.le_refl _)
    have lasts := fun h : Lasting actions => h.lasts_of_stays stays hk
    have unmixed := fun h : Lasting actions => h.unmixed_of_get? (stays.get?_run hk)
    have tidy := tidy_pendingOf name text
    have own := pendingOf_belongsTo name text
    -- The text was there before the action, unless the action reads it.
    have fits := fun before => ih (Nat.le_of_lt hk) (stays.of_succ before)
    have sourced : (run (actions.take k)).Sourced :=
      sourced_run fun a ha => documents a (List.mem_of_mem_take ha)
    have document := documents actions[k] (List.getElem_mem hk)
    rw [List.take_succ_eq_append_getElem hk, run_concat] at now lasts ⊢
    generalize run (actions.take k) = w at now lasts fits sourced ⊢
    obtain ⟨other, changed, reads⟩ | ⟨other, forgets⟩ | keeps :=
      act_cases sourced.ofTexts document
    · rw [reads.texts, Table.get?_insert] at now
      rw [reads.symbols] at lasts ⊢
      by_cases same : name = other
      · rw [if_pos same] at now
        cases now
        subst same
        exact SymbolStore.fits_register sourced.tidy sourced.nodup tidy own lasts unmixed
      · rw [if_neg same] at now
        refine (fits now).register sourced.tidy sourced.nodup tidy own (tidy_pendingOf _ _)
          (pendingOf_belongsTo _ _) ?_ lasts unmixed
        rw [doc_unitOf, doc_unitOf]
        exact fun eq => same (DocId.mk.inj eq).symm
    · rw [forgets.texts, Table.get?_erase] at now
      rw [forgets.symbols]
      split at now
      · cases now
      next kept =>
        refine (fits now).delete own sourced.ownsStructs ?_
        rw [doc_unitOf]
        exact fun eq => kept (DocId.mk.inj eq)
    · rw [keeps.texts] at now
      rw [keeps.symbols]
      exact fits now

theorem fits_end (documents : ∀ a ∈ actions, a.isDocument = true)
    (found : (run actions).texts.get? name = some text) :
    SymbolStore.Fits (Lasting actions) (run actions).symbols (run actions).symbols
      (unitOf name text) (pendingOf name text) := by
  have fits := fits_run documents (Nat.le_refl _) (stays_of_get? found)
  rwa [List.take_length] at fits

/-- The unit of every text is its outline, resolved. -/
theorem resolves_run (documents : ∀ a ∈ actions, a.isDocument = true)
    (found : (run actions).texts.get? name = some text) :
    ∃ u, (run actions).symbols.units.get? name = some u ∧ (unitOf name text).ResolvesTo u := by
  obtain ⟨modules, hoists, resolved, -⟩ := fits_end documents found
  have unit := resolved.unit
  rw [doc_unitOf] at unit
  exact ⟨_, unit, modules, hoists, rfl⟩

/-- The units at the end of a lasting run are known from what is found then. -/
theorem Lasting.unit? (h : Lasting actions) (documents : ∀ a ∈ actions, a.isDocument = true)
    (found : (run actions).texts.get? name = some text) :
    (run actions).symbols.units.get? name =
      some (((unitOf name text).mapModules
        ((run actions).symbols.homes (unitOf name text) (pendingOf name text))).hoistAll
          ((run actions).symbols.expansions (pendingOf name text))) := by
  have unit := (fits_end documents found).unit? h (pendingOf_belongsTo name text)
    (h.unmixed_of_get? found)
  rw [doc_unitOf] at unit
  exact unit

/-- The outlines of texts, with their types at the homes that a store finds. -/
def housed (s : SymbolStore) (texts : Table String) : SymbolStore :=
  ⟨texts.mapEntries fun name text =>
    (unitOf name text).mapModules (s.homes (unitOf name text) (pendingOf name text)), .empty⟩

theorem Lasting.hoistsTo (h : Lasting actions) (documents : ∀ a ∈ actions, a.isDocument = true)
    {texts : Table String} (read : (run actions).texts = texts) {s : SymbolStore}
    (skeleton : (run actions).symbols.skeleton = s.skeleton) :
    (housed s texts).HoistsTo (run actions).symbols := by
  refine SymbolStore.hoistsTo_of_hoistAll ?_ fun name u found => ?_
  · rw [(sourced_run documents).names_eq, read, housed, Table.names_mapEntries]
  · rw [housed, Table.get?_mapEntries, ← read] at found
    obtain ⟨text, stands, rfl⟩ := Option.map_eq_some_iff.1 found
    have unit := h.unit? documents stands
    rw [SymbolStore.homes_congr skeleton] at unit
    exact ⟨_, unit⟩

end Run

/-! ## Both runs -/

/-- After a run of actions on documents, reading all texts again gives the same texts, and units
that resolve the same outlines. They are the same units, if both runs are lasting. -/
theorem afresh_run (actions : List Action) (documents : ∀ a ∈ actions, a.isDocument = true) :
    let w := run actions
    let v := run w.afresh
    v.texts = w.texts ∧ w.symbols.units.names = w.texts.names ∧
      v.symbols.units.names = w.symbols.units.names ∧
      (∀ name text, w.texts.get? name = some text → ∃ u u',
        w.symbols.units.get? name = some u ∧ v.symbols.units.get? name = some u' ∧
          (unitOf name text).ResolvesTo u ∧ (unitOf name text).ResolvesTo u') ∧
      (Lasting actions → Lasting w.afresh → v.symbols.units = w.symbols.units) := by
  intro w v
  have texts : v.texts = w.texts := texts_run_afresh w
  have again := documents_afresh w
  have before : w.Sourced := sourced_run documents
  have after : v.Sourced := sourced_run again
  have names : v.symbols.units.names = w.symbols.units.names := by
    rw [after.names_eq, texts, before.names_eq]
  refine ⟨texts, before.names_eq, names, fun name text found => ?_, fun lasting lasting' => ?_⟩
  · obtain ⟨u, unit, resolves⟩ := resolves_run documents found
    obtain ⟨u', unit', resolves'⟩ := resolves_run again ((congrArg (·.get? name) texts).trans found)
    exact ⟨u, u', unit, unit', resolves, resolves'⟩
  -- Homes depend on the skeletons, and members that last come from the same units.
  have skeleton : v.symbols.skeleton = w.symbols.skeleton := by
    rw [SymbolStore.skeleton, after.outlines, texts, ← before.outlines, SymbolStore.skeleton]
  have hoists := lasting.hoistsTo documents rfl rfl
  have hoists' := lasting'.hoistsTo again texts skeleton
  refine Table.ext_get? names fun name => ?_
  cases found : w.texts.get? name with
  | none =>
    have absent : name ∉ w.symbols.units.names := by
      rw [before.names_eq]
      exact Table.get?_eq_none_iff.1 found
    rw [Table.get?_eq_none_iff.2 absent, Table.get?_eq_none_iff.2 (names ▸ absent)]
  | some text =>
    have found' : v.texts.get? name = some text := (congrArg (·.get? name) texts).trans found
    have members : ∀ i ∈ (pendingOf name text).inlines,
        v.symbols.inlinedMembers? i = w.symbols.inlinedMembers? i := fun i hi =>
      SymbolStore.inlinedMembers?_eq_of_hoistsTo hoists' hoists
        ((lasting'.unmixed_of_get? found').plain i hi) ((lasting.unmixed_of_get? found).plain i hi)
    rw [lasting'.unit? again found', lasting.unit? documents found,
      SymbolStore.homes_congr skeleton, SymbolStore.expansions_congr members]

/-- The text with an inline member comes first, the one with its struct last. -/
def libraryLast : List Action :=
  [.openDocument ⟨"file:///app.c3"⟩ "module app;\nstruct Box { inline Base b; }" 1,
   .indexDocument ⟨"file:///old.c3"⟩ "module old;",
   .deleteDocument ⟨"file:///old.c3"⟩,
   .indexDocument ⟨"file:///lib.c3"⟩ "module lib;\nstruct Base { int id; }"]

set_option maxRecDepth 100000 in
theorem afresh_libraryLast :
    Lasting libraryLast ∧ Lasting (run libraryLast).afresh ∧
      (run (run libraryLast).afresh).symbols.units = (run libraryLast).symbols.units := by
  have texts : (run libraryLast).texts.entries =
      [("file:///app.c3", "module app;\nstruct Box { inline Base b; }"),
        ("file:///lib.c3", "module lib;\nstruct Base { int id; }")] := by
    decide
  have again : (run libraryLast).afresh =
      [.indexDocument ⟨"file:///app.c3"⟩ "module app;\nstruct Box { inline Base b; }",
        .indexDocument ⟨"file:///lib.c3"⟩ "module lib;\nstruct Base { int id; }"] := by
    rw [afresh, texts]
    rfl
  have found : FoundLast libraryLast ∧ FoundLast
      [.indexDocument ⟨"file:///app.c3"⟩ "module app;\nstruct Box { inline Base b; }",
        .indexDocument ⟨"file:///lib.c3"⟩ "module lib;\nstruct Base { int id; }"] := by
    decide +kernel
  have lasting : Lasting libraryLast := found.1.lasting
  have lasting' : Lasting (run libraryLast).afresh := by
    rw [again]
    exact found.2.lasting
  exact ⟨lasting, lasting', (afresh_run libraryLast (by decide)).2.2.2.2 lasting lasting'⟩

/-- The document that declares a type is deleted after the type is bound. -/
def libraryDeleted : List Action :=
  [.openDocument ⟨"file:///lib.c3"⟩ "module lib;\nstruct Buffer { int len; }" 1,
   .openDocument ⟨"file:///app.c3"⟩ "module app;\nBuffer b;" 1,
   .deleteDocument ⟨"file:///lib.c3"⟩]

set_option maxRecDepth 100000 in
/-- The type stays bound to the module that is gone. -/
theorem stale_after_delete :
    (∀ a ∈ libraryDeleted, a.isDocument = true) ∧
      (run (run libraryDeleted).afresh).symbols.units ≠ (run libraryDeleted).symbols.units := by
  let moduleOf (units : Table SourceUnit) : Option String :=
    (((units.get? "file:///app.c3").bind (·.module? "app")).bind (·.globals.get? "b")).map
      (·.type.moduleName)
  have modules : moduleOf (run libraryDeleted).symbols.units = some "lib" ∧
      moduleOf (run (run libraryDeleted).afresh).symbols.units = some "app" := by
    decide +kernel
  obtain ⟨stale, fresh⟩ := modules
  refine ⟨by decide, fun same => ?_⟩
  rw [same, stale] at fresh
  exact absurd fresh (by decide)

end C3Lens.Workspace
