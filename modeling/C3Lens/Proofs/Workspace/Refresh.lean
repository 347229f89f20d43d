import C3Lens.Proofs.NameIndex
import C3Lens.Proofs.SymbolStore.Register
import C3Lens.Proofs.Workspace.Run

/-!
# Refreshing a document again

`refresh_refresh`: after any run, refreshing a document twice leaves what refreshing it once
leaves. The units are the same, in the same order and with the same types and members; the same
work waits; and the index has the same entries at each path, in the same order.

What is needed of the run is that every group of waiting types is a set (`Pending.Tidy`) and that
the index has one node for each path and counts its entries (`Orderly`).
-/

namespace C3Lens

namespace NameIndex

/-- The index has no entries of the document. -/
def Free (index : NameIndex) (doc : DocId) : Prop :=
  ∀ l ∈ index.entries, l.unit ≠ doc

theorem free_clear (index : NameIndex) (doc : DocId) : (index.clear doc).Free doc := by
  intro l hl
  rw [entries_clear] at hl
  exact bne_iff_ne.1 (List.mem_filter.1 hl).2

theorem filter_locations_eq_nil {u : SourceUnit} (p : SymbolLocation → Bool) :
    (u.locations.filter p).filter (·.unit != u.doc) = [] := by
  refine List.filter_eq_nil_iff.2 fun l hl => ?_
  rw [SourceUnit.unit_of_mem_locations (List.mem_of_mem_filter hl), bne_self_eq_false]
  exact Bool.false_ne_true

/-- Indexing a unit again leaves each path with the same entries. -/
theorem Free.entriesAt_reindex {index : NameIndex} {u : SourceUnit} (h : index.Free u.doc)
    (distinct : index.trie.Distinct) (path : List String) :
    (((index.insertUnit u).clear u.doc).insertUnit u).entriesAt path = (index.insertUnit u).entriesAt path := by
  have kept : (index.entriesAt path).filter (·.unit != u.doc) = index.entriesAt path :=
    List.filter_eq_self.2 fun l hl => bne_iff_ne.2 (h l (Trie.mem_all_of_mem_valuesAt hl))
  rw [entriesAt_insertUnit, entriesAt_clear path (distinct_insertUnit distinct u), entriesAt_insertUnit,
    List.filter_append, filter_locations_eq_nil, List.append_nil, kept]

theorem Free.size_reindex {index : NameIndex} {u : SourceUnit} (h : index.Free u.doc)
    (counted : index.Counted) :
    (((index.insertUnit u).clear u.doc).insertUnit u).size = (index.insertUnit u).size := by
  have once := counted_insertUnit counted u
  have twice := counted_insertUnit (counted_clear once u.doc) u
  have first := entries_insertUnit_perm index u
  have second := entries_insertUnit_perm ((index.insertUnit u).clear u.doc) u
  have left : ((index.insertUnit u).clear u.doc).entries.Perm index.entries := by
    have cleared := first.filter (·.unit != u.doc)
    have kept : index.entries.filter (·.unit != u.doc) = index.entries :=
      List.filter_eq_self.2 fun l hl => bne_iff_ne.2 (h l hl)
    rw [List.filter_append, filter_locations_eq_nil, List.nil_append, kept] at cleared
    rw [entries_clear]
    exact cleared
  rw [twice, once, second.length_eq, first.length_eq, List.length_append, List.length_append,
    left.length_eq]

theorem entriesAt_reindex {index : NameIndex} (h : index.trie.Distinct) (u : SourceUnit)
    (path : List String) :
    ((((index.clear u.doc).insertUnit u).clear u.doc).insertUnit u).entriesAt path =
      ((index.clear u.doc).insertUnit u).entriesAt path :=
  (free_clear index u.doc).entriesAt_reindex (distinct_clear h u.doc) path

theorem size_reindex {index : NameIndex} (h : index.Counted) (u : SourceUnit) :
    ((((index.clear u.doc).insertUnit u).clear u.doc).insertUnit u).size =
      ((index.clear u.doc).insertUnit u).size :=
  (free_clear index u.doc).size_reindex (counted_clear h u.doc)

end NameIndex

namespace Workspace

/-! ## What every run keeps -/

/-- The waiting types are in tidy groups and the index is in order. -/
structure Orderly (w : Workspace) : Prop where
  tidy : w.symbols.pending.Tidy
  distinct : w.names.trie.Distinct
  counted : w.names.Counted

theorem orderly_empty : Orderly empty :=
  ⟨Pending.tidy_empty, Trie.distinct_empty, rfl⟩

section Steps

variable {w : Workspace}

theorem Orderly.refresh (h : w.Orderly) (doc : DocId) : (w.refresh doc).Orderly := by
  rw [Workspace.refresh]
  split
  · exact h
  · have distinct := NameIndex.distinct_clear h.distinct doc
    have counted := NameIndex.counted_clear h.counted doc
    exact ⟨SymbolStore.tidy_settle _, NameIndex.distinct_insertUnit distinct _,
      NameIndex.counted_insertUnit counted _⟩

/-- Only symbols and names count. -/
theorem Orderly.of_eq {v : Workspace} (h : w.Orderly) (symbols : v.symbols = w.symbols)
    (names : v.names = w.names) : v.Orderly := by
  refine ⟨?_, ?_, ?_⟩
  · rw [symbols]
    exact h.tidy
  · rw [names]
    exact h.distinct
  · rw [names]
    exact h.counted

theorem Orderly.deleteDocument (h : w.Orderly) (doc : DocId) : (w.deleteDocument doc).Orderly :=
  ⟨h.tidy.purge doc, NameIndex.distinct_clear h.distinct doc, NameIndex.counted_clear h.counted doc⟩

theorem Orderly.renameDocument (h : w.Orderly) (old new : DocId) : (w.renameDocument old new).Orderly := by
  have distinct := NameIndex.distinct_clear h.distinct old
  have counted := NameIndex.counted_clear h.counted old
  have tidy : (w.symbols.rename old new).pending.Tidy := by
    rw [SymbolStore.rename]
    split
    · exact h.tidy
    · exact h.tidy.rename old new
  cases unit : w.symbols.unit? old with
  | none =>
    have names : (w.renameDocument old new).names = _ := names_renameDocument_of_none unit
    exact ⟨tidy, names ▸ distinct, names ▸ counted⟩
  | some u =>
    have names : (w.renameDocument old new).names = _ := names_renameDocument unit
    exact ⟨tidy, names ▸ NameIndex.distinct_insertUnit distinct _, names ▸ NameIndex.counted_insertUnit counted _⟩

theorem Orderly.setVersion (h : w.Orderly) (files : FileTree) (version : String)
    (root? cache? : Option String) : (w.setVersion files version root? cache?).1.Orderly := by
  have dropped : w.dropLibrary.Orderly := by
    rw [dropLibrary]
    split
    · exact h
    next doc _ => exact (h.deleteDocument doc).of_eq rfl rfl
  exact ⟨SymbolStore.tidy_settle _, NameIndex.distinct_insertUnit dropped.distinct _,
    NameIndex.counted_insertUnit dropped.counted _⟩

theorem Orderly.act (h : w.Orderly) (a : Action) : (w.act a).Orderly :=
  act_keeps (P := Orderly) (fun _ _ _ _ h => h.of_eq rfl rfl) (fun _ doc h => h.refresh doc)
    (fun _ _ h => h.of_eq rfl rfl) (fun _ doc h => h.deleteDocument doc)
    (fun _ old new h => h.renameDocument old new)
    (fun _ files version root? cache? _ h => h.setVersion files version root? cache?)
    (fun _ _ h => h.of_eq rfl rfl) h

end Steps

theorem orderly_of_reachable {allowed : Workspace → Action → Prop} {w : Workspace}
    (h : Reachable allowed w) : w.Orderly :=
  h.induct orderly_empty fun _ a hw _ => hw.act a

theorem orderly_run (actions : List Action) : (run actions).Orderly :=
  orderly_of_reachable (reachable_run actions)

/-! ## Twice and once -/

/-- Two workspaces that cannot be told apart. The groups of waiting types may stand in another
order, and so may the nodes of the index. -/
structure Alike (v w : Workspace) : Prop where
  documents : v.documents = w.documents
  units : v.symbols.units = w.symbols.units
  types : ∀ context, v.symbols.pending.groups.get? context = w.symbols.pending.groups.get? context
  inlines : v.symbols.pending.inlines = w.symbols.pending.inlines
  entries : ∀ path, v.names.entriesAt path = w.names.entriesAt path
  size : v.names.size = w.names.size
  reports : v.reports = w.reports
  version : v.version? = w.version?
  library : v.library? = w.library?

theorem Alike.refl (w : Workspace) : w.Alike w :=
  ⟨rfl, rfl, fun _ => rfl, rfl, fun _ => rfl, rfl, rfl, rfl, rfl⟩

/-- A second refresh of a document changes nothing. -/
theorem Orderly.alike_refresh {w : Workspace} (orderly : w.Orderly) (doc : DocId) :
    ((w.refresh doc).refresh doc).Alike (w.refresh doc) := by
  cases found : w.document? doc with
  | none =>
    have same : w.refresh doc = w := by rw [Workspace.refresh, found]
    rw [same, same]
    exact Alike.refl w
  | some d =>
    -- Both times the unit is read from the same text.
    have again : (w.refresh doc).document? doc = some d := by
      rw [refresh_of_document? found]
      exact found
    obtain ⟨unit, tidy, own, -⟩ := outline_sound doc d.lines d.parse.tree
    rw [refresh_of_document? again, refresh_of_document? found]
    generalize outline doc d.lines d.parse.tree = o at unit tidy own
    subst unit
    obtain ⟨units, types, inlines⟩ := SymbolStore.register_register orderly.tidy tidy own
    exact ⟨rfl, units, types, inlines, NameIndex.entriesAt_reindex orderly.distinct o.1,
      NameIndex.size_reindex orderly.counted o.1, rfl, rfl, rfl⟩

/-- After any run, a second refresh of a document changes nothing. -/
theorem refresh_refresh (actions : List Action) (doc : DocId) :
    (((run actions).refresh doc).refresh doc).Alike ((run actions).refresh doc) :=
  (orderly_run actions).alike_refresh doc

end Workspace

end C3Lens
