import C3Lens.Proofs.SymbolStore.Resolved
import C3Lens.Proofs.Workspace.Run

/-!
# The sources of a workspace

What the actions on single documents do to the texts of a workspace and to its symbols: they read a
text (`Reads`), forget a document (`Forgets`), or keep both (`Keeps`); see `act_cases`. After any run
of them the symbols are, up to resolution, the outlines of the texts (`sourced_run`).

`afresh` reads the texts of a workspace in order, from nothing; it ends with the same texts
(`texts_run_afresh`).
-/

namespace C3Lens

/-- Whether the action is one on a single document that keeps its id. -/
def Action.isDocument : Action → Bool
  | .openDocument .. | .indexDocument .. | .changeDocument .. | .refresh .. | .closeDocument ..
  | .deleteDocument .. => true
  | _ => false

namespace Workspace

/-- The texts of the documents. -/
def texts (w : Workspace) : Table String :=
  w.documents.map (·.text)

/-- The unit of a text, under the name of its document. -/
def unitOf (name text : String) : SourceUnit :=
  (outlineOfText ⟨name⟩ text).1

/-- The pending work of a text, under the name of its document. -/
def pendingOf (name text : String) : Pending :=
  (outlineOfText ⟨name⟩ text).2

section Outlines

variable (name text : String)

theorem doc_unitOf : (unitOf name text).doc = ⟨name⟩ :=
  (outline_sound _ _ _).1

theorem tidy_pendingOf : (pendingOf name text).Tidy :=
  (outline_sound _ _ _).2.1

theorem pendingOf_belongsTo : (pendingOf name text).BelongsTo (unitOf name text).doc := by
  rw [doc_unitOf]
  exact (outline_sound _ _ _).2.2.1

end Outlines

/-! ## Actions -/

/-- Every document stands under its id, with the tree and the lines of its text. -/
def OfTexts (w : Workspace) : Prop :=
  ∀ name d, w.documents.get? name = some d →
    d.id = ⟨name⟩ ∧ d.parse = Parse.ofString d.text ∧ d.lines = LineTable.ofString d.text

/-- A text is taken over and read. -/
structure Reads (w v : Workspace) (name text : String) : Prop where
  ofTexts : v.OfTexts
  texts : v.texts = w.texts.insert name text
  symbols : v.symbols = w.symbols.register (unitOf name text) (pendingOf name text)

/-- A document is forgotten. -/
structure Forgets (w v : Workspace) (name : String) : Prop where
  ofTexts : v.OfTexts
  texts : v.texts = w.texts.erase name
  symbols : v.symbols = w.symbols.delete ⟨name⟩

/-- Texts and symbols stay. -/
structure Keeps (w v : Workspace) : Prop where
  ofTexts : v.OfTexts
  texts : v.texts = w.texts
  symbols : v.symbols = w.symbols

section Actions

variable {w : Workspace} {name : String} {d : Document}

theorem get?_texts (w : Workspace) (name : String) :
    w.texts.get? name = (w.documents.get? name).map (·.text) :=
  Table.get?_map _ _ _

theorem OfTexts.keeps (h : w.OfTexts) : Keeps w w :=
  ⟨h, rfl, rfl⟩

theorem OfTexts.refresh (h : w.OfTexts) (doc : DocId) : (w.refresh doc).OfTexts := by
  rw [Workspace.refresh]
  split
  · exact h
  · exact h

theorem ofTexts_setDocument (h : w.OfTexts) (id : d.id = ⟨name⟩)
    (parse : d.parse = Parse.ofString d.text) (lines : d.lines = LineTable.ofString d.text) :
    (w.setDocument d).OfTexts := by
  intro key e found
  rw [setDocument, id] at found
  rw [Table.get?_insert] at found
  split at found
  next same =>
    cases found
    exact ⟨by rw [id, same], parse, lines⟩
  next => exact h key e found

theorem reads_refresh (h : w.OfTexts) (found : w.documents.get? name = some d) :
    Reads w (w.refresh ⟨name⟩) name d.text := by
  obtain ⟨-, parse, lines⟩ := h name d found
  have text : w.texts.get? name = some d.text := by
    rw [get?_texts, found]
    rfl
  have document : w.document? ⟨name⟩ = some d := found
  refine ⟨h.refresh ⟨name⟩, ?_, ?_⟩
  · rw [refresh_of_document? document]
    exact (Table.insert_get? text).symm
  · rw [refresh_of_document? document, parse, lines]
    rfl

/-- A document with the tree and the lines of its text is put in its place and read. -/
theorem reads_setDocument (h : w.OfTexts) (id : d.id = ⟨name⟩)
    (parse : d.parse = Parse.ofString d.text) (lines : d.lines = LineTable.ofString d.text) :
    Reads w ((w.setDocument d).refresh ⟨name⟩) name d.text := by
  have found : (w.setDocument d).documents.get? name = some d := by
    rw [setDocument, id]
    exact Table.get?_insert_self _ _ _
  have put : (w.setDocument d).texts = w.texts.insert name d.text := by
    show (w.documents.insert d.id.text d).map _ = _
    rw [Table.map_insert, id]
    rfl
  obtain ⟨ofTexts, texts, symbols⟩ := reads_refresh (ofTexts_setDocument h id parse lines) found
  refine ⟨ofTexts, ?_, symbols⟩
  rw [texts, put, Table.insert_insert]

theorem keeps_closeDocument (h : w.OfTexts) (doc : DocId) : Keeps w (w.closeDocument doc) := by
  refine ⟨fun key e found => ?_, Table.map_modify fun _ _ => rfl, rfl⟩
  have changed : (w.documents.modify doc.text _).get? key = some e := found
  rw [Table.get?_modify] at changed
  split at changed
  · obtain ⟨d, before, rfl⟩ := Option.map_eq_some_iff.1 changed
    exact h key d before
  · exact h key e changed

theorem forgets_deleteDocument (h : w.OfTexts) (doc : DocId) :
    Forgets w (w.deleteDocument doc) doc.text := by
  refine ⟨fun key e found => ?_, Table.map_erase _ _ _, rfl⟩
  have kept : (w.documents.erase doc.text).get? key = some e := found
  rw [Table.get?_erase] at kept
  split at kept
  · cases kept
  · exact h key e kept

/-- What an action on a document does to texts and symbols. -/
theorem act_cases {a : Action} (h : w.OfTexts) (document : a.isDocument = true) :
    (∃ name text, Reads w (w.act a) name text) ∨ (∃ name, Forgets w (w.act a) name) ∨
      Keeps w (w.act a) := by
  cases a with
  | openDocument doc text version => exact .inl ⟨doc.text, text, reads_setDocument h rfl rfl rfl⟩
  | indexDocument doc text =>
    rw [act, indexDocument]
    split
    · exact .inr (.inr h.keeps)
    · exact .inl ⟨doc.text, text, reads_setDocument h rfl rfl rfl⟩
  | changeDocument doc edits version =>
    rw [act, changeDocument]
    split
    · exact .inr (.inr h.keeps)
    next d found =>
      have id : (d.applyEdits edits version).id = ⟨doc.text⟩ := (h doc.text d found).1
      exact .inl ⟨doc.text, _, reads_setDocument h id rfl rfl⟩
  | refresh doc =>
    cases found : w.documents.get? doc.text with
    | none =>
      have same : w.refresh doc = w := by
        rw [refresh, document?, found]
      rw [act, same]
      exact .inr (.inr h.keeps)
    | some d => exact .inl ⟨doc.text, d.text, reads_refresh h found⟩
  | closeDocument doc => exact .inr (.inr (keeps_closeDocument h doc))
  | deleteDocument doc => exact .inr (.inl ⟨doc.text, forgets_deleteDocument h doc⟩)
  | _ => cases document

end Actions

/-! ## Runs -/

/-- The symbols are those of the texts, up to what resolution changes. -/
structure Sourced (w : Workspace) : Prop where
  ofTexts : w.OfTexts
  outlines : w.symbols.units.map SourceUnit.skeleton =
    w.texts.mapEntries fun name text => (unitOf name text).skeleton
  tidy : w.symbols.pending.Tidy
  nodup : w.symbols.pending.inlines.Nodup

theorem sourced_empty : empty.Sourced := by
  refine ⟨fun name d found => ?_, rfl, Pending.tidy_empty, List.nodup_nil⟩
  cases found

theorem Sourced.act {w : Workspace} {a : Action} (h : w.Sourced) (document : a.isDocument = true) :
    (w.act a).Sourced := by
  obtain ⟨name, text, reads⟩ | ⟨name, forgets⟩ | keeps := act_cases h.ofTexts document
  · refine ⟨reads.ofTexts, ?_, ?_, ?_⟩
    · have skeleton := congrArg SymbolStore.units
        (SymbolStore.skeleton_settle (w.symbols.placed (unitOf name text) (pendingOf name text)))
      rw [reads.texts, reads.symbols, Table.mapEntries_insert, ← h.outlines, ← Table.map_insert]
      refine skeleton.trans ?_
      show (w.symbols.units.insert (unitOf name text).doc.text (unitOf name text)).map _ = _
      rw [doc_unitOf]
    · rw [reads.symbols]
      exact SymbolStore.tidy_settle _
    · rw [reads.symbols]
      exact SymbolStore.nodup_inlines_register _ _ _
  · refine ⟨forgets.ofTexts, ?_, ?_, ?_⟩
    · rw [forgets.texts, forgets.symbols, Table.mapEntries_erase, ← h.outlines, ← Table.map_erase]
      rfl
    · rw [forgets.symbols]
      exact h.tidy.purge _
    · rw [forgets.symbols]
      show (w.symbols.pending.purge _).inlines.Nodup
      rw [Pending.inlines_purge]
      exact h.nodup.filter _
  · refine ⟨keeps.ofTexts, ?_, ?_, ?_⟩
    · rw [keeps.texts, keeps.symbols, h.outlines]
    · rw [keeps.symbols]
      exact h.tidy
    · rw [keeps.symbols]
      exact h.nodup

theorem sourced_run {actions : List Action} (documents : ∀ a ∈ actions, a.isDocument = true) :
    (run actions).Sourced := by
  induction actions using List.reverseRecOn with
  | nil => exact sourced_empty
  | append_singleton actions a ih =>
    rw [run_concat]
    exact (ih fun b hb => documents b (List.mem_append_left _ hb)).act
      (documents a (List.mem_append_right _ (List.mem_singleton_self a)))

section Sourced

variable {w : Workspace} (h : w.Sourced)

include h

theorem Sourced.names_eq : w.symbols.units.names = w.texts.names := by
  have names := congrArg Table.names h.outlines
  rwa [Table.names_map, Table.names_mapEntries] at names

theorem Sourced.skeleton_eq {name text : String} {u : SourceUnit} (found : w.texts.get? name = some text)
    (unit : w.symbols.units.get? name = some u) : u.skeleton = (unitOf name text).skeleton := by
  have outlines := congrArg (Table.get? · name) h.outlines
  simp only [Table.get?_map, Table.get?_mapEntries, found, unit, Option.map_some,
    Option.some.injEq] at outlines
  exact outlines

/-- The structs of a unit are those of its document. -/
theorem Sourced.ownsStructs : w.symbols.OwnsStructs := by
  intro name u unit m hm key a ha
  obtain ⟨text, found⟩ : ∃ text, w.texts.get? name = some text := by
    rw [← Table.mem_names_iff, ← h.names_eq, Table.mem_names_iff]
    exact ⟨u, unit⟩
  refine congrArg DocId.text (SourceUnit.doc_of_skeleton (h.skeleton_eq found unit) ?_ m hm key a ha)
  intro n hn key b hb
  obtain ⟨context, declared⟩ := Table.mem_values_iff.1 hn
  exact structs_outline declared hb

end Sourced

/-! ## Reading everything again -/

/-- Reads the texts of the workspace in order. -/
def afresh (w : Workspace) : List Action :=
  w.texts.entries.map fun e => .indexDocument ⟨e.1⟩ e.2

theorem documents_afresh (w : Workspace) : ∀ a ∈ w.afresh, a.isDocument = true := by
  intro a ha
  obtain ⟨e, -, rfl⟩ := List.mem_map.1 ha
  rfl

/-- Texts under distinct names are all read. -/
theorem entries_texts_run {es : List (String × String)} (nodup : (es.map Prod.fst).Nodup) :
    (run (es.map fun e => .indexDocument ⟨e.1⟩ e.2)).texts.entries = es := by
  induction es using List.reverseRecOn with
  | nil => rfl
  | append_singleton es e ih =>
    rw [List.map_append, List.nodup_append] at nodup
    have before := ih nodup.1
    rw [List.map_append, List.map_singleton, run_concat]
    generalize run (es.map _) = w at before
    have new : e.1 ∉ w.texts.names := by
      rw [Table.names, before]
      exact fun old => nodup.2.2 e.1 old e.1 (List.mem_singleton_self _) rfl
    have closed : w.isOpen ⟨e.1⟩ = false := by
      have absent : w.documents.get? e.1 = none := by
        rw [Table.get?_eq_none_iff, ← Table.names_map (·.text)]
        exact new
      rw [isOpen, document?, absent]
      rfl
    have texts : (w.act (.indexDocument ⟨e.1⟩ e.2)).texts = w.texts.insert e.1 e.2 := by
      rw [act, indexDocument, closed, if_neg Bool.false_ne_true]
      refine (congrArg texts (refresh_setDocument w (Document.ofText ⟨e.1⟩ e.2 0))).trans ?_
      exact Table.map_insert _ _ _ _
    rw [texts, Table.entries_insert_of_notMem new, before]

theorem texts_run_afresh (w : Workspace) : (run w.afresh).texts = w.texts :=
  Table.ext_entries (entries_texts_run w.texts.nodup)

end Workspace

end C3Lens
