import C3Lens.Proofs.Library.Cache
import C3Lens.Proofs.Outline.Site
import C3Lens.Proofs.Workspace.Documents
import C3Lens.Proofs.Workspace.Rename

/-!
# Where the symbols of a workspace come from

In every workspace that is reached without reading a foreign cache, all that a module holds bears the
path of the module, but for the members that its structs borrow: behind an inline member that was
expanded stand copies of the members of another struct, which keep the module and the document of that
struct (`path_of_reachable`). The owner that a copy bears is its new one, so its qualified name is made of
the path of one struct and the name of another (`strayed_member`).

To delete a document takes away its unit, its entries in the index and its pending work, and no other
unit holds declarations of the document (`pure_deleteDocument`), up to the copies that were lent and up to
the standard library, whose unit keeps the documents of its source files. The copies are not taken back
(`left_behind`).
-/

namespace C3Lens

/-- The action reads no cache but those of units that come about in a workspace. -/
def Action.TrustsCache : Action → Prop
  | .setVersion files version _ cache? =>
    ∀ folder u, cache? = some folder → Library.readCache files folder version = .ok u → u.Produced
  | _ => True

/-! ## Units -/

theorem SourceUnit.Sited.resolved {s : SymbolStore} {u v : SourceUnit} (h : u.Sited)
    (known : ∀ name w, s.units.get? name = some w → w.Sited) (p : Pending) {doc : DocId}
    (found : (s.register u p).unit? doc = some v) : ∀ m ∈ v.modules.values, m.Sited := by
  intro m hm
  obtain ⟨name, stands⟩ := Table.mem_values_iff.1 hm
  have before : s.Every Module.Sited := by
    intro m hm
    obtain ⟨name, w, key, hw, hm⟩ := SymbolStore.mem_modules_iff.1 hm
    exact (known name w hw).modules m (Table.mem_values_iff.2 ⟨key, hm⟩)
  exact before.register Module.stable_sited h.modules p m
    (SymbolStore.mem_modules_iff.2 ⟨doc.text, v, name, found, stands⟩)

theorem SourceUnit.Produced.sited {u : SourceUnit} (h : u.Produced) : u.Sited := by
  induction h with
  | read doc text _ => exact (sited_outlineOfText doc text).1
  | none doc => exact sited_ofDoc doc
  | merged _ _ ih ih' => exact ih.merge ih'
  | resolved p hu known found ih ih' =>
    have whole : Produced _ := .resolved p hu known found
    exact ⟨whole.cacheable.keyed, ih.resolved ih' p found⟩
  | withDoc doc _ ih => exact ih.withDoc doc
  | moved doc _ ih => exact ih.setDoc doc

theorem Library.sited_load {files : FileTree} {version : String} {root? cache? : Option String}
    (cached : ∀ folder u, cache? = some folder → readCache files folder version = .ok u → u.Produced) :
    (load files version root? cache?).unit.Sited := by
  refine load_induct (P := fun l => l.unit.Sited) (SourceUnit.sited_ofDoc _) (SourceUnit.sited_ofDoc _)
    (fun l path h => ?_) fun folder u known read => (cached folder u known read).sited.withDoc _
  rw [addSource]
  split
  · exact h
  next text _ => exact h.merge (sited_outlineOfText (DocId.ofPath path) text).1

/-- The unit of a document is, up to resolution, the one that was registered last or the one before. -/
theorem SymbolStore.unit?_register_skeleton {s : SymbolStore} {u v : SourceUnit} {p : Pending} {doc : DocId}
    (found : (s.register u p).unit? doc = some v) :
    (doc = u.doc ∧ v.skeleton = u.skeleton) ∨ ∃ w, s.unit? doc = some w ∧ v.skeleton = w.skeleton := by
  obtain ⟨w, placed, same⟩ := unit?_of_skeleton (skeleton_settle _) found
  have here : (s.units.insert u.doc.text u).get? doc.text = some w := placed
  rw [Table.get?_insert] at here
  split at here
  next own =>
    cases here
    exact .inl ⟨DocId.text_inj.1 own, same⟩
  next => exact .inr ⟨w, here, same⟩

/-- The modules of the unit and their declarations are made in the document. -/
def SourceUnit.InDoc (u : SourceUnit) (doc : DocId) : Prop :=
  ∀ m ∈ u.modules.values, m.InDoc doc

namespace SourceUnit.InDoc

variable {u v : SourceUnit} {doc : DocId}

theorem of_skeleton (h : u.InDoc doc) (same : v.skeleton = u.skeleton) : v.InDoc doc := by
  intro m hm
  obtain ⟨n, hn, modules⟩ := exists_module_of_skeleton same hm
  exact (h n hn).of_skeleton modules.symm

/-- The index takes the documents from the declarations. -/
theorem doc_of_mem_locations (h : u.InDoc doc) {l : SymbolLocation} (hl : l ∈ u.locations) : l.doc = doc := by
  obtain ⟨m, hm, inside⟩ := List.mem_flatMap.1 hl
  have made := h m (List.mem_filter.1 hm).1
  obtain ⟨s, hs, rfl⟩ := List.mem_map.1 inside
  rcases List.mem_cons.1 hs with rfl | child
  · exact made.own
  · exact made.children s child

end SourceUnit.InDoc

theorem SourceUnit.inDoc_setDoc (u : SourceUnit) (doc : DocId) : (u.setDoc doc).InDoc doc :=
  Table.forall_values_map fun m _ => m.inDoc_setDoc doc

namespace Workspace

/-! ## What every action keeps -/

/-- The documents have the trees and lines of their texts, all that the modules hold is made in them, and
only the library holds declarations of documents other than its own. -/
structure Sited (w : Workspace) : Prop where
  texts : ∀ doc d, w.document? doc = some d → d.parse = Parse.ofString d.text ∧ d.lines = LineTable.ofString d.text
  modules : w.symbols.Every Module.Sited
  units : ∀ doc u, w.symbols.unit? doc = some u → w.library? = some doc ∨ u.InDoc doc
  entries : ∀ l ∈ w.names.entries, w.library? = some l.unit ∨ l.doc = l.unit

section Steps

variable {w : Workspace}

theorem sited_empty : empty.Sited :=
  ⟨fun _ _ found => absurd found nofun, SymbolStore.every_empty, fun _ _ found => absurd found nofun,
    fun _ h => absurd h List.not_mem_nil⟩

theorem Sited.setDocument (h : w.Sited) (d : Document) (parse : d.parse = Parse.ofString d.text)
    (lines : d.lines = LineTable.ofString d.text) : (w.setDocument d).Sited := by
  refine ⟨fun doc e found => ?_, h.modules, h.units, h.entries⟩
  rw [document?_setDocument] at found
  split at found
  · cases found
    exact ⟨parse, lines⟩
  · exact h.texts doc e found

/-- A unit of one document is registered and indexed. -/
theorem Sited.register (h : w.Sited) {u : SourceUnit} (sited : ∀ m ∈ u.modules.values, m.Sited)
    (own : w.library? = some u.doc ∨ u.InDoc u.doc) (p : Pending) :
    Sited { w with
      names := w.names.insertUnit u
      symbols := w.symbols.register u p } := by
  refine ⟨h.texts, h.modules.register Module.stable_sited sited p, fun doc v found => ?_, fun l hl => ?_⟩
  · rcases SymbolStore.unit?_register_skeleton found with ⟨rfl, same⟩ | ⟨before, known, same⟩
    · exact own.imp_right (·.of_skeleton same)
    · exact (h.units doc before known).imp_right (·.of_skeleton same)
  · rcases NameIndex.mem_entries_insertUnit.1 hl with ⟨new, -⟩ | old
    · rw [SourceUnit.unit_of_mem_locations new]
      exact own.imp_right (·.doc_of_mem_locations new)
    · exact h.entries l old

theorem Sited.clear (h : w.Sited) (doc : DocId) : Sited { w with names := w.names.clear doc } :=
  ⟨h.texts, h.modules, h.units, fun l hl => h.entries l (NameIndex.mem_entries_clear.1 hl).1⟩

theorem Sited.refresh (h : w.Sited) (doc : DocId) : (w.refresh doc).Sited := by
  cases found : w.document? doc with
  | none =>
    rw [Workspace.refresh, found]
    exact h
  | some d =>
    obtain ⟨parse, lines⟩ := h.texts doc d found
    obtain ⟨sited, own⟩ := sited_outlineOfText doc d.text
    have name : (outlineOfText doc d.text).1.doc = doc := (outline_sound _ _ _).1
    rw [refresh_of_document? found, parse, lines]
    exact (h.clear doc).register sited.modules (.inr (name.symm ▸ own)) _

theorem Sited.closeDocument (h : w.Sited) (doc : DocId) : (w.closeDocument doc).Sited := by
  refine ⟨fun other d found => ?_, h.modules, h.units, h.entries⟩
  rw [document?_closeDocument] at found
  split at found
  · obtain ⟨e, he, rfl⟩ := Option.map_eq_some_iff.1 found
    exact h.texts other e he
  · exact h.texts other d found

theorem Sited.deleteDocument (h : w.Sited) (doc : DocId) : (w.deleteDocument doc).Sited := by
  refine ⟨fun other d found => ?_, h.modules.delete doc, fun other u found => ?_,
    (h.clear doc).entries⟩
  · rw [document?_deleteDocument] at found
    split at found
    · cases found
    · exact h.texts other d found
  · have found : (w.symbols.delete doc).unit? other = some u := found
    rw [SymbolStore.unit?_delete] at found
    split at found
    · cases found
    · exact h.units other u found

theorem Sited.renameDocument (h : w.Sited) (old new : DocId) : (w.renameDocument old new).Sited := by
  refine ⟨fun doc d found => ?_, h.modules.rename old fun m hm => hm.setDoc new, fun doc v found => ?_, ?_⟩
  · cases there : w.document? old with
    | none =>
      rw [document?, documents_renameDocument_of_none there] at found
      exact h.texts doc d found
    | some e =>
      rw [document?_renameDocument there] at found
      split at found
      · cases found
        exact h.texts old e there
      · split at found
        · cases found
        · exact h.texts doc d found
  · have found : (w.symbols.rename old new).unit? doc = some v := found
    cases known : w.symbols.unit? old with
    | none =>
      rw [SymbolStore.rename, known] at found
      exact h.units doc v found
    | some u =>
      rw [SymbolStore.unit?_rename known] at found
      split at found
      next same =>
        cases found
        rw [same]
        exact .inr (u.inDoc_setDoc new)
      next =>
        split at found
        · cases found
        · exact h.units doc v found
  · have cleared := (h.clear old).entries
    cases known : w.symbols.unit? old with
    | none =>
      rw [names_renameDocument_of_none known]
      exact cleared
    | some u =>
      rw [names_renameDocument known]
      intro l hl
      rcases NameIndex.mem_entries_insertUnit.1 hl with ⟨moved, -⟩ | before
      · have unit : l.unit = new := SourceUnit.unit_of_mem_locations moved
        exact .inr (((u.inDoc_setDoc new).doc_of_mem_locations moved).trans unit.symm)
      · exact cleared l before

theorem Sited.dropLibrary (h : w.Sited) : w.dropLibrary.Sited ∧ w.dropLibrary.library? = none := by
  rw [Workspace.dropLibrary]
  split
  next none => exact ⟨h, none⟩
  next doc library =>
    have deleted := h.deleteDocument doc
    refine ⟨⟨h.texts, deleted.modules, fun other u found => ?_, fun l hl => ?_⟩, rfl⟩
    · have found : (w.symbols.delete doc).unit? other = some u := found
      rw [SymbolStore.unit?_delete] at found
      split at found
      · cases found
      next ne =>
        refine (h.units other u found).imp_left fun same => ?_
        exact absurd (Option.some.inj (same.symm.trans library)) ne
    · obtain ⟨entry, ne⟩ := NameIndex.mem_entries_clear.1 hl
      refine (h.entries l entry).imp_left fun same => ?_
      exact absurd (Option.some.inj (same.symm.trans library)) ne

theorem Sited.setVersion (h : w.Sited) {files : FileTree} {version : String} {root? cache? : Option String}
    (trusts : (Action.setVersion files version root? cache?).TrustsCache) :
    (w.setVersion files version root? cache?).1.Sited := by
  have sited : ∀ m ∈ (Library.load files version root? cache?).unit.modules.values, m.Sited :=
    (Library.sited_load trusts).modules
  obtain ⟨dropped, none⟩ := h.dropLibrary
  have marked : Sited { w.dropLibrary with
      version? := some version, library? := some (Library.load files version root? cache?).unit.doc } :=
    ⟨dropped.texts, dropped.modules,
      fun doc u found => .inr ((dropped.units doc u found).resolve_left fun some => by rw [none] at some; cases some),
      fun l hl => .inr ((dropped.entries l hl).resolve_left fun some => by rw [none] at some; cases some)⟩
  exact marked.register sited (.inl rfl) _

theorem Sited.act (h : w.Sited) {a : Action} (trusts : a.TrustsCache) : (w.act a).Sited :=
  act_keeps (P := Sited) (fun _ d parse lines h => h.setDocument d parse lines) (fun _ doc h => h.refresh doc)
    (fun _ doc h => h.closeDocument doc) (fun _ doc h => h.deleteDocument doc)
    (fun _ old new h => h.renameDocument old new)
    (fun _ _ _ _ _ same h => h.setVersion (same ▸ trusts))
    (fun _ _ h => ⟨h.texts, h.modules, h.units, h.entries⟩) h

end Steps

theorem sited_of_reachable {w : Workspace} (h : Reachable (fun _ a => a.TrustsCache) w) : w.Sited :=
  h.induct sited_empty fun _ _ sited trusts => sited.act trusts

/-! ## Modules of symbols -/

/-- All modules are named by their paths, and all that is declared in a module bears its path, up to the
members that structs borrow: the members of a struct are its own ones and, behind expanded inline members,
those of other structs, each written at its own site (`Composed`). Where a struct borrows none there is no
exception. A member is named by its path and by the struct that holds it. -/
theorem path_of_reachable {w : Workspace} (h : Reachable (fun _ a => a.TrustsCache) w) :
    ∀ m ∈ w.symbols.modules, m.name = m.modulePath.text ∧ ∀ s ∈ m.children,
      s.SitedAt ⟨m.modulePath, s.doc⟩ ∧
      ((∀ a, s = .aggregate a → ¬ a.Inherits) → ∀ d ∈ s.nested, d.modulePath = m.modulePath) ∧
      ∀ a, s = .aggregate a → a.name ≠ "" → ∀ b ∈ a.members,
        (Symbol.member b).qualifiedName = b.modulePath.qualify (a.name ++ "." ++ b.name) := by
  intro m hm
  have sited := (sited_of_reachable h).modules m hm
  refine ⟨sited.named, fun s hs => ?_⟩
  have here := sited.children s hs
  refine ⟨here, fun plain d hd => (here.nested_of_not_inherits plain d hd).path, ?_⟩
  rintro a rfl named b hb
  have owner : b.owner = a.name := (Member.ownedBy_iff.1 (here.2.2 b hb)).1
  have owned : ((Symbol.member b).owner == "") = false := by
    rw [Symbol.owner, owner]
    exact beq_eq_false_iff_ne.2 named
  rw [Symbol.qualifiedName, owned, if_neg Bool.false_ne_true, Symbol.owner, owner]
  · rfl
  · exact nofun

/-- The editor opens a document with a struct in the module `home`, and another one with a struct in the
module `host` that inlines it. -/
def lending (home host : String) : List Action :=
  [.openDocument ⟨"file:///a.c3"⟩ ("module " ++ home ++ "; struct S { int x; }") 1,
    .openDocument ⟨"file:///b.c3"⟩ ("module " ++ host ++ "; struct T { inline S s; int q; }") 1]

theorem reachable_lending (home host : String) :
    Reachable (fun _ a => a.TrustsCache) (run (lending home host)) :=
  reachable_of_forall (List.forall_mem_cons.2 ⟨trivial, List.forall_mem_singleton.2 trivial⟩)

theorem path_of_lending :
    Reachable (fun _ a => a.TrustsCache) (run (lending "a" "a")) ∧
      ∀ m ∈ (run (lending "a" "a")).symbols.modules, m.name = m.modulePath.text :=
  ⟨reachable_lending _ _, fun m hm => (path_of_reachable (reachable_lending _ _) m hm).1⟩

/-- A struct of the module `b` inlines one of the module `a`. The member that it borrows is still in the
module `a`, in which its new owner is not declared. -/
theorem strayed_member :
    Reachable (fun _ a => a.TrustsCache) (run (lending "a" "b")) ∧
      ¬ (∀ m ∈ (run (lending "a" "b")).symbols.modules, ∀ d ∈ m.nested, d.modulePath = m.modulePath) ∧
      (run (lending "a" "b")).symbols.modules.flatMap (fun m => m.structs.values.flatMap fun a =>
        a.members.map fun b => (m.name, (Symbol.member b).qualifiedName)) =
          [("a", "a::S.x"), ("b", "b::T.s"), ("b", "a::T.x"), ("b", "b::T.q")] :=
  ⟨reachable_lending _ _, by decide +kernel⟩

/-! ## Deleted documents -/

/-- Nothing of a deleted document is left in the documents, in the pending work, or under its name among
the units and in the index. No other unit than that of the standard library holds its declarations, up to
the members that structs borrow; where a struct borrows none there is no exception. -/
theorem pure_deleteDocument {w : Workspace} (h : Reachable (fun _ a => a.TrustsCache) w) (doc : DocId) :
    (w.deleteDocument doc).document? doc = none ∧
    (∀ l ∈ (w.deleteDocument doc).names.entries, l.unit ≠ doc ∧ (w.library? = some l.unit ∨ l.doc ≠ doc)) ∧
    (∀ t ∈ (w.deleteDocument doc).symbols.pending.types, t.doc ≠ doc) ∧
    (∀ i ∈ (w.deleteDocument doc).symbols.pending.inlines, i.doc ≠ doc) ∧
    ∀ other u, (w.deleteDocument doc).symbols.unit? other = some u → other ≠ doc ∧
      (w.library? = some other ∨ ∀ m ∈ u.modules.values, m.doc ≠ doc ∧ ∀ s ∈ m.children,
        s.SitedAt ⟨m.modulePath, other⟩ ∧
        ((∀ a, s = .aggregate a → ¬ a.Inherits) → ∀ d ∈ s.nested, d.doc ≠ doc)) := by
  have sited := (sited_of_reachable h).deleteDocument doc
  refine ⟨?_, fun l hl => ?_, fun t ht => ?_, fun i hi => ?_, fun other u found => ?_⟩
  · rw [document?_deleteDocument, if_pos rfl]
  · have ne := (NameIndex.mem_entries_clear.1 hl).2
    refine ⟨ne, (sited.entries l hl).imp_right fun own => ?_⟩
    rw [own]
    exact ne
  · obtain ⟨context, listed⟩ := Pending.mem_types_iff.1 ht
    have listed : t ∈ (w.symbols.pending.purge doc).typesIn context := listed
    rw [Pending.typesIn_purge, List.mem_filter, bne_iff_ne] at listed
    exact listed.2
  · have listed : i ∈ (w.symbols.pending.purge doc).inlines := hi
    rw [Pending.inlines_purge, List.mem_filter, bne_iff_ne] at listed
    exact listed.2
  · have ne : other ≠ doc := by
      rintro rfl
      have found : (w.symbols.delete other).unit? other = some u := found
      rw [SymbolStore.unit?_delete, if_pos rfl] at found
      cases found
    refine ⟨ne, (sited.units other u found).imp_right fun own m hm => ?_⟩
    have made := own m hm
    refine ⟨made.own ▸ ne, fun s hs => ?_⟩
    obtain ⟨name, stands⟩ := Table.mem_values_iff.1 hm
    have here := (sited.modules m (SymbolStore.mem_modules_iff.2 ⟨other.text, u, name, found, stands⟩)).children s hs
    rw [made.children s hs] at here
    refine ⟨here, fun plain d hd => ?_⟩
    rw [(here.nested_of_not_inherits plain d hd).doc]
    exact ne

theorem pure_of_lending :
    Reachable (fun _ a => a.TrustsCache) (run (lending "a" "a")) ∧
      ∀ l ∈ ((run (lending "a" "a")).deleteDocument ⟨"file:///a.c3"⟩).names.entries, l.unit ≠ ⟨"file:///a.c3"⟩ :=
  ⟨reachable_lending _ _, fun l hl => ((pure_deleteDocument (reachable_lending _ _) _).2.1 l hl).1⟩

/-- When the lender of members is deleted, its members are left in the struct that borrowed them. -/
theorem left_behind :
    Reachable (fun _ a => a.TrustsCache) (run (lending "a" "a")) ∧
      (run (lending "a" "a")).symbols.contains ⟨"file:///a.c3"⟩ = true ∧
      ¬ ∀ m ∈ ((run (lending "a" "a")).deleteDocument ⟨"file:///a.c3"⟩).symbols.modules,
        ∀ d ∈ m.nested, d.doc ≠ ⟨"file:///a.c3"⟩ :=
  ⟨reachable_lending _ _, by decide +kernel⟩

end Workspace

end C3Lens
