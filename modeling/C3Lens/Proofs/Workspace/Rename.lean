import C3Lens.Proofs.SymbolStore.Rename
import C3Lens.Proofs.Workspace.Agreement
import C3Lens.Proofs.Workspace.Refresh
import C3Lens.Proofs.Workspace.Spelling

/-!
# Renamed documents

A rename takes the entries of the old id out of the index and adds those of the moved unit under the
new one. What the index had under the new id before is not taken out (`entries_renameDocument`): the
entries of the new id are those of its unit exactly if there were none. There are none where the new
id has no unit (`registered_run`); where it has one, its entries outlive it (`stale_after_rename`).

A rename moves the unit of a document as it is; a refresh reads it again. `refresh_renameDocument`: the
refresh of a renamed document leaves what the rename left, up to resolution. It reads the outline that the
moved unit resolves, and leaves the index as it is. It changes nothing at all, if to refresh the document
under its old id would have changed nothing, its types keep their homes although its unit becomes the last
one, and no other document declares a struct that it inlines.

Two things are left out: the module that is named after the file keeps the name of the old file, and
members that were hoisted from other documents are given the new id.
-/

namespace C3Lens

namespace Workspace

/-! ## Entries of registered documents -/

/-- Every entry of the index belongs to a document that has a unit. -/
def Registered (s : SymbolStore) (names : NameIndex) : Prop :=
  ∀ l ∈ names.entries, l.unit.text ∈ s.units.names

theorem Registered.register {s : SymbolStore} {names : NameIndex} (h : Registered s names)
    (u : SourceUnit) (p : Pending) : Registered (s.register u p) (names.insertUnit u) := by
  intro l hl
  rw [SymbolStore.names_register]
  rcases NameIndex.mem_entries_insertUnit.1 hl with new | before
  · exact Table.mem_names_insert.2 (.inl (congrArg DocId.text (SourceUnit.unit_of_mem_locations new.1)))
  · exact Table.mem_names_insert.2 (.inr (h l before))

theorem registered_renameDocument (w : Workspace) (old new : DocId) (h : Registered w.symbols w.names) :
    Registered (w.renameDocument old new).symbols (w.renameDocument old new).names := by
  intro l hl
  show l.unit.text ∈ (w.symbols.rename old new).units.names
  rw [SymbolStore.rename]
  cases unit : w.symbols.unit? old with
  | none =>
    rw [names_renameDocument_of_none unit] at hl
    exact h l (NameIndex.mem_entries_clear.1 hl).1
  | some u =>
    rw [names_renameDocument unit] at hl
    rcases NameIndex.mem_entries_insertUnit.1 hl with added | left
    · exact Table.mem_names_insert.2 (.inl (congrArg DocId.text (SourceUnit.unit_of_mem_locations added.1)))
    · obtain ⟨before, other⟩ := NameIndex.mem_entries_clear.1 left
      exact Table.mem_names_insert.2
        (.inr (Table.mem_names_erase.2 ⟨h l before, fun same => other (DocId.text_inj.1 same)⟩))

theorem registered_of_reachable {allowed : Workspace → Action → Prop} {w : Workspace}
    (h : Reachable allowed w) : Registered w.symbols w.names := by
  refine h.induct (P := fun w => Registered w.symbols w.names) ?_ fun w a h _ => ?_
  · intro l hl
    rw [NameIndex.entries, empty] at hl
    cases hl
  · refine act_induct ?_ ?_ registered_renameDocument ?_ h a
    · intro s names doc lines tree h
      have cleared : Registered s (names.clear doc) := fun l hl => h l (NameIndex.mem_entries_clear.1 hl).1
      exact cleared.register _ _
    · intro s names doc h l hl
      obtain ⟨before, other⟩ := NameIndex.mem_entries_clear.1 hl
      exact Table.mem_names_erase.2 ⟨h l before, fun same => other (DocId.text_inj.1 same)⟩
    · exact fun s names l h => h.register _ _

theorem registered_run (actions : List Action) : Registered (run actions).symbols (run actions).names :=
  registered_of_reachable (reachable_run actions)

/-! ## The entries of each document -/

/-- The entries of a document, in no order. -/
def entriesOf (w : Workspace) (doc : DocId) : List SymbolLocation :=
  w.names.entries.filter (·.unit == doc)

theorem filter_locations_self (u : SourceUnit) : u.locations.filter (·.unit == u.doc) = u.locations :=
  List.filter_eq_self.2 fun _ hl => beq_iff_eq.2 (SourceUnit.unit_of_mem_locations hl)

theorem filter_locations_of_ne {u : SourceUnit} {doc : DocId} (other : doc ≠ u.doc) :
    u.locations.filter (·.unit == doc) = [] := by
  refine List.filter_eq_nil_iff.2 fun l hl same => other ?_
  exact (beq_iff_eq.1 same).symm.trans (SourceUnit.unit_of_mem_locations hl)

section Entries

variable {w : Workspace} {old new : DocId}

/-- While the stores agree, the entries of a document are those of its unit. -/
theorem Agrees.entriesOf (h : w.Agrees) (doc : DocId) :
    (w.entriesOf doc).Perm
      (((w.symbols.unit? doc).map fun u => u.locations.filter SymbolLocation.hasKey).getD []) := by
  have here : (w.entriesOf doc).Perm
      ((w.symbols.locations.filter (·.unit == doc)).filter SymbolLocation.hasKey) := by
    rw [List.filter_comm]
    exact h.entries.filter _
  have gone : (w.symbols.delete doc).locations.filter (·.unit == doc) = [] := by
    rw [← SymbolStore.filter_locations h.keyed, List.filter_filter]
    refine List.filter_eq_nil_iff.2 fun l _ => ?_
    simp
  cases unit : w.symbols.unit? doc with
  | none =>
    have same : w.symbols.delete doc = ⟨w.symbols.units, w.symbols.pending.purge doc⟩ := by
      rw [SymbolStore.delete, Table.erase_of_notMem (Table.get?_eq_none_iff.1 unit)]
    have none : w.symbols.locations.filter (·.unit == doc) = [] := by
      rw [same] at gone
      exact gone
    rw [none] at here
    exact here
  | some u =>
    have id : u.doc = doc := congrArg DocId.mk (h.keyed doc.text u unit)
    have split : w.symbols.locations.Perm (u.locations ++ (w.symbols.delete doc).locations) :=
      (Table.values_perm_of_get? unit).flatMap_right _
    refine here.trans (((split.filter _).filter _).trans ?_)
    rw [List.filter_append, gone, List.append_nil, ← id, filter_locations_self]
    exact List.Perm.refl _

/-- What the index has after a rename: nothing under the old id; under the new one the entries of the
unit that is there now, and those that were there before; the same as before under each other id. So
the entries of the new id are those of its unit exactly if it had none before, as it has if it had no
unit. Where it had one in a workspace whose stores agree, all entries of that unit are left. -/
theorem entries_renameDocument (actions : List Action) {old new : DocId} (other : new ≠ old)
    (registered : (run actions).symbols.contains old = true) :
    let w := run actions
    let v := w.renameDocument old new
    ∃ u, v.symbols.unit? new = some u ∧ v.entriesOf old = [] ∧
      (v.entriesOf new).Perm (u.locations.filter SymbolLocation.hasKey ++ w.entriesOf new) ∧
      (∀ doc, doc ≠ old → doc ≠ new → ∀ path,
        (v.names.entriesAt path).filter (·.unit == doc) = (w.names.entriesAt path).filter (·.unit == doc)) ∧
      ((v.entriesOf new).Perm (u.locations.filter SymbolLocation.hasKey) ↔ w.entriesOf new = []) ∧
      (w.symbols.contains new = false → w.entriesOf new = []) ∧
      (w.Agrees → (w.entriesOf new).Perm
        (((w.symbols.unit? new).map fun u => u.locations.filter SymbolLocation.hasKey).getD [])) := by
  intro w v
  obtain ⟨u, unit⟩ := Table.mem_names_iff.1 (Table.contains_iff.1 registered)
  have names : v.names = (w.names.clear old).insertUnit (u.setDoc new) := names_renameDocument unit
  have distinct := (orderly_run actions).distinct
  have entries := NameIndex.entries_insertUnit_perm (w.names.clear old) (u.setDoc new)
  rw [← names, NameIndex.entries_clear] at entries
  have ofNew : (v.entriesOf new).Perm
      ((u.setDoc new).locations.filter SymbolLocation.hasKey ++ w.entriesOf new) := by
    refine (entries.filter _).trans ?_
    have kept : (w.names.entries.filter (·.unit != old)).filter (·.unit == new) = w.entriesOf new := by
      rw [List.filter_filter, entriesOf]
      refine List.filter_congr fun l _ => ?_
      by_cases same : l.unit = new
      · simp [same, other]
      · simp [same]
    have own : (u.setDoc new).locations.filter (·.unit == new) = (u.setDoc new).locations :=
      filter_locations_self (u.setDoc new)
    rw [List.filter_append, kept, List.filter_comm, own]
  refine ⟨u.setDoc new, unit?_renameDocument unit, ?_, ofNew, ?_, ?_, ?_, fun agrees => agrees.entriesOf new⟩
  · refine List.filter_eq_nil_iff.2 fun l hl same => ?_
    rcases List.mem_append.1 (entries.mem_iff.1 hl) with added | left
    · have tag := SourceUnit.unit_of_mem_locations (List.mem_of_mem_filter added)
      exact other (tag.symm.trans (beq_iff_eq.1 same))
    · exact bne_iff_ne.1 (List.mem_filter.1 left).2 (beq_iff_eq.1 same)
  · intro doc notOld notNew path
    have added : ((u.setDoc new).locations.filter fun l => l.hasKey && l.key == path).filter
        (·.unit == doc) = [] := by
      rw [List.filter_comm, filter_locations_of_ne (u := u.setDoc new) notNew, List.filter_nil]
    rw [names, NameIndex.entriesAt_insertUnit, NameIndex.entriesAt_clear path distinct, List.filter_append,
      added, List.append_nil, List.filter_filter]
    refine List.filter_congr fun l _ => ?_
    by_cases same : l.unit = doc
    · simp [same, notOld]
    · simp [same]
  · constructor
    · intro exactly
      have length := (ofNew.symm.trans exactly).length_eq
      rw [List.length_append] at length
      exact List.length_eq_zero_iff.1 (by omega)
    · intro none
      rw [none, List.append_nil] at ofNew
      exact ofNew
  · intro free
    refine List.filter_eq_nil_iff.2 fun l hl same => ?_
    have known := registered_run actions l hl
    rw [beq_iff_eq.1 same, ← Table.contains_iff] at known
    rw [SymbolStore.contains, known] at free
    cases free

end Entries

/-- Two documents with a module each. -/
def twoModules : List Action :=
  [.openDocument ⟨"file:///a.c3"⟩ "module a;" 1, .openDocument ⟨"file:///b.c3"⟩ "module b;\nint x;" 1]

set_option maxRecDepth 100000 in
/-- What is there before and after one takes the id of the other. -/
theorem names_twoModules :
    let v := (run twoModules).renameDocument ⟨"file:///a.c3"⟩ ⟨"file:///b.c3"⟩
    (run twoModules).symbols.contains ⟨"file:///b.c3"⟩ = true ∧
      (run twoModules).symbols.contains ⟨"file:///c.c3"⟩ = false ∧
      "b::x" ∈ (v.entriesOf ⟨"file:///b.c3"⟩).map SymbolLocation.qualifiedName ∧
      (v.symbols.unit? ⟨"file:///b.c3"⟩).map
        (fun u => u.locations.map SymbolLocation.qualifiedName) = some ["a"] := by
  decide +kernel

/-- One of them is renamed to a free id. -/
theorem entries_renameDocument_free :
    let v := (run twoModules).renameDocument ⟨"file:///b.c3"⟩ ⟨"file:///c.c3"⟩
    ∃ u, v.symbols.unit? ⟨"file:///c.c3"⟩ = some u ∧
      (v.entriesOf ⟨"file:///c.c3"⟩).Perm (u.locations.filter SymbolLocation.hasKey) := by
  have other : (⟨"file:///c.c3"⟩ : DocId) ≠ ⟨"file:///b.c3"⟩ := by decide
  obtain ⟨known, unknown, -⟩ := names_twoModules
  obtain ⟨u, unit, -, -, -, exactly, free, -⟩ :=
    entries_renameDocument twoModules other known
  exact ⟨u, unit, exactly.2 (free unknown)⟩

/-- One of them is renamed to the id of the other one, whose variable the index keeps. -/
theorem stale_after_rename :
    let v := (run twoModules).renameDocument ⟨"file:///a.c3"⟩ ⟨"file:///b.c3"⟩
    ∃ l ∈ v.entriesOf ⟨"file:///b.c3"⟩, l.qualifiedName = "b::x" ∧
      ∀ u, v.symbols.unit? ⟨"file:///b.c3"⟩ = some u → l ∉ u.locations := by
  intro v
  obtain ⟨-, -, stale, moved⟩ := names_twoModules
  obtain ⟨l, here, name⟩ := List.mem_map.1 stale
  refine ⟨l, here, name, fun u unit there => ?_⟩
  rw [unit, Option.map_some, Option.some_inj] at moved
  have known := List.mem_map_of_mem (f := SymbolLocation.qualifiedName) there
  rw [moved, name] at known
  exact absurd known (by decide)

end Workspace

end C3Lens

/-! ## Reading a renamed document -/

namespace C3Lens

/-- A document that is read under a new id gives what its moved unit resolves. -/
theorem Document.Gives.moved {d : Document} {old new : DocId} {u : SourceUnit} (h : d.Gives old u)
    (names : (C3Lens.outline new d.lines d.parse.tree).1.modules.names = u.modules.names) :
    (C3Lens.outline new d.lines d.parse.tree).1.ResolvesTo (u.setDoc new) := by
  obtain ⟨id, resolves⟩ := h
  have moved := resolves.setDoc new
  rw [SourceUnit.setDoc_setDoc] at moved
  have kept := resolves.names_eq
  rw [SourceUnit.setDoc, Table.names_map] at kept
  rw [outline_setDoc (names.trans kept)]
  exact moved

/-- The structs of an outline are of its document, wherever it is moved. -/
theorem Document.Gives.doc_of_struct {d : Document} {doc : DocId} {u : SourceUnit} (h : d.Gives doc u) :
    ∀ m ∈ u.modules.values, ∀ key a, m.structs.get? key = some a → a.doc = doc := by
  obtain ⟨id, resolves⟩ := h
  refine SourceUnit.doc_of_skeleton resolves.skeleton_eq fun m hm key a ha => ?_
  rw [SourceUnit.setDoc, Table.values_map] at hm
  obtain ⟨n, -, rfl⟩ := List.mem_map.1 hm
  rw [Module.setDoc, Table.get?_map] at ha
  obtain ⟨b, -, rfl⟩ := Option.map_eq_some_iff.1 ha
  rfl

namespace Workspace

section Rename

variable {w : Workspace} {old new : DocId} {d : Document} {u : SourceUnit}

/-- To refresh an up to date document is to register a unit that is current. -/
theorem Alike.current (h : (w.refresh old).Alike w) (document : w.document? old = some d) :
    w.symbols.Current (outline old d.lines d.parse.tree).1 (outline old d.lines d.parse.tree).2 := by
  rw [refresh_of_document? document] at h
  exact ⟨h.units, fun name => congrArg (Option.getD · []) (h.types name), h.inlines⟩

/-- The index after a renamed document is read, if the same is indexed as before. -/
theorem Registered.reindex (h : Registered w.symbols w.names) (orderly : w.Orderly)
    (unit : w.symbols.unit? old = some u) (free : w.symbols.unit? new = none) {o : SourceUnit}
    (locations : o.locations = (u.setDoc new).locations) :
    (∀ path, (((w.renameDocument old new).names.clear new).insertUnit o).entriesAt path =
        (w.renameDocument old new).names.entriesAt path) ∧
      (((w.renameDocument old new).names.clear new).insertUnit o).size =
        (w.renameDocument old new).names.size := by
  have absent : (w.names.clear old).Free (u.setDoc new).doc := by
    rintro l hl same
    have known := h l (NameIndex.mem_entries_clear.1 hl).1
    rw [same] at known
    exact Table.get?_eq_none_iff.1 free known
  rw [names_renameDocument unit, NameIndex.insertUnit_eq_foldl _ o, locations, ← NameIndex.insertUnit_eq_foldl]
  exact ⟨absent.entriesAt_reindex (NameIndex.distinct_clear orderly.distinct old),
    absent.size_reindex (NameIndex.counted_clear orderly.counted old)⟩

/-- What the refresh of a renamed document leaves as it was, if the moved unit resolves what is read. -/
theorem refresh_of_resolvesTo (orderly : w.Orderly) (registered : Registered w.symbols w.names)
    (document : w.document? old = some d) (unit : w.symbols.unit? old = some u)
    (free : w.symbols.unit? new = none)
    (resolves : (outline new d.lines d.parse.tree).1.ResolvesTo (u.setDoc new)) :
    let v := w.renameDocument old new
    let v' := v.refresh new
    (∃ a b, v.symbols.unit? new = some a ∧ v'.symbols.unit? new = some b ∧
        (outline new d.lines d.parse.tree).1.ResolvesTo a ∧
          (outline new d.lines d.parse.tree).1.ResolvesTo b) ∧
      (∀ doc a, doc ≠ new → v.symbols.unit? doc = some a →
        ∃ b, v'.symbols.unit? doc = some b ∧ a.ResolvesTo b) ∧
      v'.symbols.units.names = v.symbols.units.names ∧
      (∀ path, v'.names.entriesAt path = v.names.entriesAt path) ∧ v'.names.size = v.names.size := by
  intro v v'
  have moved : v.symbols.unit? new = some (u.setDoc new) := unit?_renameDocument unit
  have own := (outline_sound new d.lines d.parse.tree).1
  have read : v' = _ := refresh_of_document? (document?_renameDocument_self document new)
  have placed := v.symbols.unit?_placed (outline new d.lines d.parse.tree).1 (outline new d.lines d.parse.tree).2
  rw [own] at placed
  refine ⟨?_, fun doc a other there => ?_, ?_, ?_⟩
  · have here := placed new
    rw [if_pos rfl] at here
    obtain ⟨b, after, resolved⟩ := SymbolStore.exists_unit?_register here
    rw [read]
    exact ⟨_, b, moved, after, resolves, resolved⟩
  · have here := placed doc
    rw [if_neg other, there] at here
    obtain ⟨b, after, resolved⟩ := SymbolStore.exists_unit?_register here
    rw [read]
    exact ⟨b, after, resolved⟩
  · rw [read]
    show (v.symbols.register _ _).units.names = _
    rw [SymbolStore.names_register, own, Table.names_insert, if_pos (Table.mem_names_iff.2 ⟨_, moved⟩)]
  · rw [read]
    exact registered.reindex orderly unit free resolves.locations_eq.symm

end Rename

/-- The refresh of a document after its rename to a free id, where its modules are not named after the
file. The units before and after the refresh resolve the same outline, that of the document under its new
id; other units may be resolved further; the order of the units and the index stay. If the document was up
to date, its types keep their homes and it inlines no struct of another document, then nothing changes. -/
theorem refresh_renameDocument (actions : List Action) {old new : DocId} {d : Document} {u : SourceUnit}
    (document : (run actions).document? old = some d) (unit : (run actions).symbols.unit? old = some u)
    (free : (run actions).symbols.unit? new = none)
    (names : (outline new d.lines d.parse.tree).1.modules.names = u.modules.names) :
    let w := run actions
    let v := w.renameDocument old new
    let v' := v.refresh new
    let o := outline new d.lines d.parse.tree
    (Reachable ClientAction w →
      (∃ a b, v.symbols.unit? new = some a ∧ v'.symbols.unit? new = some b ∧
          o.1.ResolvesTo a ∧ o.1.ResolvesTo b) ∧
        (∀ doc a, doc ≠ new → v.symbols.unit? doc = some a →
          ∃ b, v'.symbols.unit? doc = some b ∧ a.ResolvesTo b) ∧
        v'.symbols.units.names = v.symbols.units.names ∧
        (∀ path, v'.names.entriesAt path = v.names.entriesAt path) ∧ v'.names.size = v.names.size) ∧
      ((w.refresh old).Alike w →
        (∀ t ∈ (outline old d.lines d.parse.tree).2.types,
          v.symbols.home? { t with doc := new } = w.symbols.home? t) →
        (∀ i ∈ (outline old d.lines d.parse.tree).2.inlines, w.symbols.OnlyIn old i.inlined) →
        v'.Alike v) := by
  intro w v v' o
  have orderly : w.Orderly := orderly_run actions
  have registered : Registered w.symbols w.names := registered_run actions
  refine ⟨fun client => ?_, fun alike homes only => ?_⟩
  · have outlined := outlined_of_reachable client
    obtain ⟨e, found, gives⟩ := outlined.units old (outlined.documents old d document).2.1 u unit
    cases document.symm.trans found
    exact refresh_of_resolvesTo orderly registered document unit free (gives.moved names)
  · have current := alike.current document
    obtain ⟨own, tidy, belongs, -⟩ := outline_sound old d.lines d.parse.tree
    obtain ⟨a, there, resolves⟩ := current.resolvesTo
    rw [own, unit] at there
    cases there
    have gives : d.Gives old u := (Document.Gives.outline d old).resolve resolves
    have owns : w.symbols.OwnsStructsOf old := by
      intro a there
      cases unit.symm.trans there
      exact gives.doc_of_struct
    have same := outline_setDoc (names.trans resolves.names_eq)
    have resolved := resolves.setDoc new
    generalize outline old d.lines d.parse.tree = p at *
    subst own
    have after := current.rename orderly.tidy free tidy belongs owns homes only
    have read : v' = _ := refresh_of_document? (document?_renameDocument_self document new)
    obtain ⟨entries, size⟩ := registered.reindex orderly unit free resolved.locations_eq.symm
    have groups := Pending.Tidy.groups_eq_of_typesIn (SymbolStore.tidy_settle _)
      (orderly.renameDocument p.1.doc new).tidy after.types
    rw [read, same]
    exact ⟨rfl, after.units, groups, after.inlines, entries, size, rfl, rfl, rfl⟩

/-- A document with a struct that it inlines and a type of another document, which is up to date. -/
def upToDate : List Action :=
  [.openDocument ⟨"file:///lib.c3"⟩ "module lib;\nstruct Buffer { int len; }" 1,
    .openDocument ⟨"file:///app.c3"⟩
      "module app;\nstruct Base { int id; }\nstruct Box { inline Base b; Buffer c; }" 1,
    .refresh ⟨"file:///app.c3"⟩]

set_option maxRecDepth 100000 in
/-- After its rename a refresh changes nothing. -/
theorem alike_after_rename :
    let v := (run upToDate).renameDocument ⟨"file:///app.c3"⟩ ⟨"file:///new.c3"⟩
    (v.refresh ⟨"file:///new.c3"⟩).Alike v ∧
      ∃ d a, v.document? ⟨"file:///new.c3"⟩ = some d ∧ v.symbols.unit? ⟨"file:///new.c3"⟩ = some a ∧
        (outline ⟨"file:///new.c3"⟩ d.lines d.parse.tree).1.ResolvesTo a := by
  intro v
  have client : ∀ text : String, "file:".toList <+: text.toList → DocId.IsClient ⟨text⟩ :=
    fun _ => DocId.isClient_of_prefix
  have reachable : Reachable ClientAction (run upToDate) :=
    ((Reachable.empty.act (a := .openDocument ⟨"file:///lib.c3"⟩ "module lib;\nstruct Buffer { int len; }" 1)
      (client _ (by decide))).act (a := .openDocument ⟨"file:///app.c3"⟩
        "module app;\nstruct Base { int id; }\nstruct Box { inline Base b; Buffer c; }" 1)
      (client _ (by decide))).act (a := .refresh ⟨"file:///app.c3"⟩) trivial
  have facts : ((run upToDate).document? ⟨"file:///app.c3"⟩).isSome = true ∧
      ((run upToDate).symbols.unit? ⟨"file:///app.c3"⟩).isSome = true ∧
      ((run upToDate).symbols.unit? ⟨"file:///new.c3"⟩).isNone = true ∧
      ((run upToDate).document? ⟨"file:///app.c3"⟩).all (fun d =>
        let read := outline ⟨"file:///app.c3"⟩ d.lines d.parse.tree
        ((run upToDate).symbols.unit? ⟨"file:///app.c3"⟩).all (fun u =>
          (outline ⟨"file:///new.c3"⟩ d.lines d.parse.tree).1.modules.names == u.modules.names) &&
        read.2.types.all (fun t =>
          v.symbols.home? { t with doc := ⟨"file:///new.c3"⟩ } == (run upToDate).symbols.home? t) &&
        read.2.inlines.all fun i => (run upToDate).symbols.OnlyIn ⟨"file:///app.c3"⟩ i.inlined) = true := by
    decide +kernel
  obtain ⟨held, registered, unknown, found⟩ := facts
  obtain ⟨d, document⟩ := Option.isSome_iff_exists.1 held
  obtain ⟨u, unit⟩ := Option.isSome_iff_exists.1 registered
  rw [document, unit] at found
  simp only [Option.all_some, Bool.and_eq_true, beq_iff_eq, List.all_eq_true, decide_eq_true_eq] at found
  obtain ⟨⟨names, homes⟩, only⟩ := found
  have both := refresh_renameDocument upToDate document unit (Option.isNone_iff_eq_none.1 unknown) names
  obtain ⟨⟨a, -, moved, -, resolves, -⟩, -⟩ := both.1 reachable
  have before : (run (upToDate.take 2)).Orderly := orderly_run _
  exact ⟨both.2 (before.alike_refresh ⟨"file:///app.c3"⟩) homes only,
    _, a, document?_renameDocument_self document _, moved, resolves⟩

set_option maxRecDepth 100000 in
/-- A type that was bound to a module of a document that is gone is moved as it is, and bound anew by the
refresh. -/
theorem rebound_after_rename :
    let w := run [.openDocument ⟨"file:///lib.c3"⟩ "module lib;\nstruct Buffer { int len; }" 1,
      .openDocument ⟨"file:///app.c3"⟩ "module app;\nBuffer b;" 1, .deleteDocument ⟨"file:///lib.c3"⟩]
    let v := w.renameDocument ⟨"file:///app.c3"⟩ ⟨"file:///new.c3"⟩
    w.symbols.contains ⟨"file:///app.c3"⟩ = true ∧ w.symbols.contains ⟨"file:///new.c3"⟩ = false ∧
      (v.refresh ⟨"file:///new.c3"⟩).symbols.units ≠ v.symbols.units := by
  intro w v
  let moduleOf (units : Table SourceUnit) : Option String :=
    (((units.get? "file:///new.c3").bind (·.module? "app")).bind (·.globals.get? "b")).map
      (·.type.moduleName)
  have facts : w.symbols.contains ⟨"file:///app.c3"⟩ = true ∧ w.symbols.contains ⟨"file:///new.c3"⟩ = false ∧
      moduleOf v.symbols.units = some "lib" ∧
      moduleOf (v.refresh ⟨"file:///new.c3"⟩).symbols.units = some "app" := by
    decide +kernel
  obtain ⟨known, unknown, moved, read⟩ := facts
  refine ⟨known, unknown, fun same => ?_⟩
  rw [same, moved] at read
  exact absurd read (by decide)

end Workspace

end C3Lens
