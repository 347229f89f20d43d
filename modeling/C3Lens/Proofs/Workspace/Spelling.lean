import C3Lens.Proofs.Outline.Moved
import C3Lens.Proofs.Symbol.Spelling
import C3Lens.Proofs.SymbolStore.Resolved
import C3Lens.Proofs.Workspace.Agreement

/-!
# Units and texts of a workspace

As long as documents have ids of editors, each has the tree and the lines of its text, and its unit is the
outline of the tree, read under some id, moved to the id that it has now, and resolved
(`outlined_of_reachable`). So the tree spells the names of declarations, and of what stands inside of them
where no members of other structs were put between (`Outlined.spelled`).
-/

namespace C3Lens

/-- The document has the tree and the lines of its text. -/
def Document.IsRead (d : Document) : Prop :=
  d.parse = Parse.ofString d.text ∧ d.lines = LineTable.ofString d.text

/-- The unit is the outline of the document, read under some id, moved and resolved. -/
def Document.Gives (d : Document) (doc : DocId) (u : SourceUnit) : Prop :=
  ∃ id, ((outline id d.lines d.parse.tree).1.setDoc doc).ResolvesTo u

namespace Document.Gives

variable {d : Document} {doc : DocId} {u v : SourceUnit}

theorem outline (d : Document) (doc : DocId) : d.Gives doc (outline doc d.lines d.parse.tree).1 := by
  have same : _ = (C3Lens.outline doc d.lines d.parse.tree).1.setDoc doc :=
    congrArg Prod.fst (outline_setDoc (rfl : (C3Lens.outline doc d.lines d.parse.tree).1.modules.names = _))
  exact ⟨doc, same ▸ SourceUnit.ResolvesTo.refl _⟩

theorem resolve (h : d.Gives doc u) (resolves : u.ResolvesTo v) : d.Gives doc v := by
  obtain ⟨id, before⟩ := h
  exact ⟨id, before.trans resolves⟩

theorem setDoc (h : d.Gives doc u) (new : DocId) : d.Gives new (u.setDoc new) := by
  obtain ⟨id, resolves⟩ := h
  have moved := resolves.setDoc new
  rw [SourceUnit.setDoc_setDoc] at moved
  exact ⟨id, moved⟩

/-- The tree spells what its outline declares. -/
theorem spelled (h : d.Gives doc u) : u.SpelledIn d.parse.root d.lines := by
  obtain ⟨id, modules, hoists, rfl⟩ := h
  have read : (C3Lens.outline id d.lines d.parse.tree).1.SpelledIn d.parse.root d.lines :=
    SourceUnit.spelled_outline _ _ _
  exact ((read.setDoc doc).mapModules modules).hoistAll hoists

end Document.Gives

/-! ## Registered units -/

namespace SymbolStore

variable {s : SymbolStore} {v : SourceUnit} {q : Pending} {doc : DocId}

theorem isSome_unit?_register :
    ((s.register v q).unit? doc).isSome = ((s.placed v q).unit? doc).isSome := by
  obtain ⟨modules, hoists, after, -, -⟩ := unit?_register_expands s v q doc
  rw [after, Option.isSome_map]

/-- A registration resolves units. -/
theorem resolvesTo_register {u : SourceUnit} (found : (s.register v q).unit? doc = some u) :
    ∃ w, (s.placed v q).unit? doc = some w ∧ w.ResolvesTo u := by
  obtain ⟨modules, hoists, after, -, -⟩ := unit?_register_expands s v q doc
  rw [after] at found
  obtain ⟨w, hw, rfl⟩ := Option.map_eq_some_iff.1 found
  exact ⟨w, hw, modules, hoists, rfl⟩

theorem exists_unit?_register {u : SourceUnit} (placed : (s.placed v q).unit? doc = some u) :
    ∃ w, (s.register v q).unit? doc = some w ∧ u.ResolvesTo w := by
  obtain ⟨modules, hoists, after, -, -⟩ := unit?_register_expands s v q doc
  rw [placed] at after
  exact ⟨_, after, modules, hoists, rfl⟩

end SymbolStore

namespace Workspace

/-! ## Documents and their units -/

/-- The documents that are opened, loaded and renamed have ids of editors. -/
def ClientAction (w : Workspace) : Action → Prop
  | .openDocument doc _ _ | .indexDocument doc _ => doc.IsClient
  | .renameDocument old new => old.IsClient ∧ new.IsClient
  | .renameUnder old new => ∀ doc ∈ w.docsUnder (Text.trimRight (· == '/') old), doc.IsClient ∧
      DocId.IsClient ⟨Text.trimRight (· == '/') new ++
        (Text.afterStart? (Text.trimRight (· == '/') old) doc.text).getD ""⟩
  | .loadFiles _ paths => ∀ path ∈ paths, (DocId.ofPath path).IsClient
  | _ => True

/-- The documents are read and have ids of editors and units, units have the ids under which they
stand, and all units under ids of editors are outlines of the documents. -/
structure Outlined (w : Workspace) : Prop where
  read : ∀ doc d, w.document? doc = some d → d.IsRead
  documents : ∀ doc d, w.document? doc = some d →
    d.id = doc ∧ doc.IsClient ∧ (w.symbols.unit? doc).isSome = true
  keyed : w.symbols.Keyed
  library : ∀ doc, w.library? = some doc → ¬ doc.IsClient
  units : ∀ doc, doc.IsClient → ∀ u, w.symbols.unit? doc = some u →
    ∃ d, w.document? doc = some d ∧ d.Gives doc u

theorem outlined_empty : empty.Outlined :=
  ⟨fun _ _ h => (nomatch h), fun _ _ h => (nomatch h), fun _ _ h => (nomatch h), fun _ h => (nomatch h),
    fun _ _ _ h => (nomatch h)⟩

section Steps

variable {w : Workspace}

/-- Only documents, symbols and the id of the library count. -/
theorem Outlined.of_eq {v : Workspace} (h : w.Outlined) (documents : v.documents = w.documents)
    (symbols : v.symbols = w.symbols) (library : v.library? = w.library?) : v.Outlined := by
  obtain ⟨_, _, _, _, _, _⟩ := v
  cases documents
  cases symbols
  cases library
  exact ⟨h.read, h.documents, h.keyed, h.library, h.units⟩

/-- A document is put in its place and its symbols are taken over. -/
theorem Outlined.put (h : w.Outlined) {d : Document} (client : d.id.IsClient) (read : d.IsRead) :
    ((w.setDocument d).refresh d.id).Outlined := by
  rw [refresh_setDocument]
  have own : (outline d.id d.lines d.parse.tree).1.doc = d.id := (outline_sound _ _ _).1
  refine ⟨fun doc e found => ?_, fun doc e found => ?_, SymbolStore.keyed_register h.keyed _ _, h.library,
    fun doc ids u unit => ?_⟩
  · have there := (document?_setDocument w d doc).symm.trans found
    split at there
    · cases there
      exact read
    · exact h.read doc e there
  · rw [SymbolStore.isSome_unit?_register, SymbolStore.unit?_placed, own]
    have there := (document?_setDocument w d doc).symm.trans found
    split at there
    next same =>
      cases there
      rw [if_pos same]
      exact ⟨same.symm, same ▸ client, rfl⟩
    next other =>
      rw [if_neg other]
      exact h.documents doc e there
  · have documents := document?_setDocument w d doc
    obtain ⟨v, placed, resolves⟩ := SymbolStore.resolvesTo_register unit
    rw [SymbolStore.unit?_placed, own] at placed
    split at placed
    next same =>
      cases placed
      rw [if_pos same] at documents
      exact ⟨d, documents, same ▸ (Document.Gives.outline d d.id).resolve resolves⟩
    next other =>
      rw [if_neg other] at documents
      obtain ⟨e, there, gives⟩ := h.units doc ids v placed
      exact ⟨e, documents.trans there, gives.resolve resolves⟩

theorem Outlined.refresh (h : w.Outlined) (doc : DocId) : (w.refresh doc).Outlined := by
  cases found : w.document? doc with
  | none =>
    rw [Workspace.refresh, found]
    exact h
  | some d =>
    obtain ⟨id, client, -⟩ := h.documents doc d found
    have put := h.put (d := d) (id ▸ client) (h.read doc d found)
    rw [setDocument_of_document? found id, id] at put
    exact put

theorem Outlined.indexDocument (h : w.Outlined) {doc : DocId} (client : doc.IsClient) (text : String) :
    (w.indexDocument doc text).Outlined := by
  rw [Workspace.indexDocument]
  split
  · exact h
  · exact h.put (d := Document.ofText doc text 0) client ⟨rfl, rfl⟩

theorem Outlined.closeDocument (h : w.Outlined) (closed : DocId) : (w.closeDocument closed).Outlined := by
  -- A closed document has the same id, tree and lines.
  have documents := document?_closeDocument w closed
  refine ⟨fun doc e found => ?_, fun doc e found => ?_, h.keyed, h.library, fun doc ids u unit => ?_⟩
  · rw [documents] at found
    split at found
    · obtain ⟨d, hd, rfl⟩ := Option.map_eq_some_iff.1 found
      exact h.read doc d hd
    · exact h.read doc e found
  · rw [documents] at found
    split at found
    · obtain ⟨d, hd, rfl⟩ := Option.map_eq_some_iff.1 found
      exact h.documents doc d hd
    · exact h.documents doc e found
  · obtain ⟨d, hd, gives⟩ := h.units doc ids u unit
    rw [documents, hd]
    split
    · exact ⟨_, rfl, gives⟩
    · exact ⟨d, rfl, gives⟩

theorem Outlined.deleteDocument (h : w.Outlined) (gone : DocId) : (w.deleteDocument gone).Outlined := by
  have documents := document?_deleteDocument w gone
  refine ⟨fun doc e found => ?_, fun doc e found => ?_, SymbolStore.keyed_delete h.keyed gone, h.library,
    fun doc ids u unit => ?_⟩
  · have kept := (documents doc).symm.trans found
    split at kept
    next => cases kept
    next => exact h.read doc e kept
  · have kept := (documents doc).symm.trans found
    split at kept
    next => cases kept
    next other =>
      show _ ∧ _ ∧ ((w.symbols.delete gone).unit? doc).isSome = true
      rw [SymbolStore.unit?_delete, if_neg other]
      exact h.documents doc e kept
  · have kept := (SymbolStore.unit?_delete w.symbols gone doc).symm.trans unit
    split at kept
    next => cases kept
    next other =>
      obtain ⟨d, hd, gives⟩ := h.units doc ids u kept
      exact ⟨d, (documents doc).trans ((if_neg other).trans hd), gives⟩

theorem Outlined.deleteUnder (h : w.Outlined) (directory : String) : (w.deleteUnder directory).Outlined :=
  deleteUnder_induct h fun _ h doc _ => h.deleteDocument doc

theorem Outlined.renameDocument (h : w.Outlined) {old new : DocId} (oldIds : old.IsClient)
    (newIds : new.IsClient) : (w.renameDocument old new).Outlined := by
  cases unit : w.symbols.unit? old with
  | none =>
    -- Without a unit there is no document either.
    have absent : w.document? old = none := by
      refine Option.eq_none_iff_forall_ne_some.2 fun d found => ?_
      have there := (h.documents old d found).2.2
      rw [unit] at there
      cases there
    refine h.of_eq (documents_renameDocument_of_none absent new) ?_ rfl
    · rw [Workspace.renameDocument, SymbolStore.rename, unit]
  | some u =>
    obtain ⟨d, found, gives⟩ := h.units old oldIds u unit
    have documents := document?_renameDocument found new
    have units : ∀ doc, (w.symbols.rename old new).unit? doc =
        if doc = new then some (u.setDoc new) else if doc = old then none else w.symbols.unit? doc :=
      SymbolStore.unit?_rename unit
    refine ⟨fun doc e there => ?_, fun doc e there => ?_, SymbolStore.keyed_rename h.keyed old new, h.library,
      fun doc ids v there => ?_⟩
    · rw [documents] at there
      split at there
      next =>
        cases there
        exact h.read old d found
      next =>
        split at there
        next => cases there
        next => exact h.read doc e there
    · show _ ∧ _ ∧ ((w.symbols.rename old new).unit? doc).isSome = true
      rw [documents] at there
      rw [units]
      split at there
      next same =>
        cases there
        rw [if_pos same]
        exact ⟨same.symm, same ▸ newIds, rfl⟩
      next other =>
        rw [if_neg other]
        split at there
        next => cases there
        next kept =>
          rw [if_neg kept]
          exact h.documents doc e there
    · have moved := (units doc).symm.trans there
      rw [documents]
      split at moved
      next same =>
        cases moved
        rw [if_pos same]
        exact ⟨_, rfl, same ▸ gives.setDoc new⟩
      next other =>
        rw [if_neg other]
        split at moved
        next => cases moved
        next kept =>
          rw [if_neg kept]
          exact h.units doc ids v moved

theorem Outlined.renameUnder (h : w.Outlined) {old new : String} (client : ClientAction w (.renameUnder old new)) :
    (w.renameUnder old new).Outlined :=
  renameUnder_induct h fun _ h doc hd => h.renameDocument (client doc hd).1 (client doc hd).2

/-- A unit that is no editor's is forgotten. -/
theorem Outlined.dropLibrary (h : w.Outlined) : w.dropLibrary.Outlined := by
  rw [Workspace.dropLibrary]
  split
  · exact h
  next gone library =>
    have other : ∀ doc : DocId, doc.IsClient → doc ≠ gone := by
      rintro doc ids rfl
      exact h.library doc library ids
    refine ⟨h.read, fun doc e found => ?_, SymbolStore.keyed_delete h.keyed gone, fun doc absent => ?_,
      fun doc ids u unit => ?_⟩
    · obtain ⟨id, ids, registered⟩ := h.documents doc e found
      show _ ∧ _ ∧ ((w.symbols.delete gone).unit? doc).isSome = true
      rw [SymbolStore.unit?_delete, if_neg (other doc ids)]
      exact ⟨id, ids, registered⟩
    · cases absent
    · have kept := (SymbolStore.unit?_delete w.symbols gone doc).symm.trans unit
      rw [if_neg (other doc ids)] at kept
      exact h.units doc ids u kept

theorem Outlined.setVersion (h : w.Outlined) (files : FileTree) (version : String)
    (root? cache? : Option String) : (w.setVersion files version root? cache?).1.Outlined := by
  have doc := Library.doc_load files version root? cache?
  have other : ∀ doc : DocId, doc.IsClient → doc ≠ Library.docOf version := fun _ ids => ids version
  have dropped := h.dropLibrary
  rw [Workspace.setVersion]
  dsimp only
  refine ⟨dropped.read, fun e d found => ?_, SymbolStore.keyed_register dropped.keyed _ _,
    fun e library => ?_, fun e ids u unit => ?_⟩
  · obtain ⟨id, ids, registered⟩ := dropped.documents e d found
    rw [SymbolStore.isSome_unit?_register, SymbolStore.unit?_placed, doc, if_neg (other e ids)]
    exact ⟨id, ids, registered⟩
  · cases library
    rw [doc]
    exact fun ids => ids version rfl
  · obtain ⟨v, placed, resolves⟩ := SymbolStore.resolvesTo_register unit
    rw [SymbolStore.unit?_placed, doc, if_neg (other e ids)] at placed
    obtain ⟨d, there, gives⟩ := dropped.units e ids v placed
    exact ⟨d, there, gives.resolve resolves⟩

theorem Outlined.act (h : w.Outlined) {a : Action} (client : ClientAction w a) : (w.act a).Outlined := by
  cases a with
  | openDocument doc text version =>
    exact h.put (d := { Document.ofText doc text version with ownedByEditor := true }) client ⟨rfl, rfl⟩
  | indexDocument doc text => exact h.indexDocument client text
  | changeDocument doc edits version =>
    rw [Workspace.act, changeDocument]
    split
    · exact h
    next d found =>
      obtain ⟨id, ids, -⟩ := h.documents doc d found
      have put := h.put (d := d.applyEdits edits version) (id.symm ▸ ids) ⟨rfl, rfl⟩
      rwa [show (d.applyEdits edits version).id = doc from id] at put
  | refresh doc => exact h.refresh doc
  | closeDocument doc => exact h.closeDocument doc
  | deleteDocument doc => exact h.deleteDocument doc
  | deleteUnder directory => exact h.deleteUnder directory
  | renameDocument old new => exact h.renameDocument client.1 client.2
  | renameUnder old new => exact h.renameUnder client
  | loadFiles files paths =>
    exact loadFiles_induct h fun w hw path hp text => hw.indexDocument (client path hp) text
  | setVersion files version root? cache? => exact h.setVersion files version root? cache?
  | setReports reports => exact h.of_eq rfl rfl rfl

end Steps

theorem outlined_of_reachable {w : Workspace} (h : Reachable ClientAction w) : w.Outlined :=
  h.induct outlined_empty fun _ _ hw client => hw.act client

/-- The unit of a document is the outline of the document. -/
theorem Outlined.gives {w : Workspace} (h : w.Outlined) {doc : DocId} {d : Document} {u : SourceUnit}
    (document : w.document? doc = some d) (unit : w.symbols.unit? doc = some u) : d.Gives doc u := by
  obtain ⟨e, found, gives⟩ := h.units doc (h.documents doc d document).2.1 u unit
  rw [document] at found
  cases found
  exact gives

/-- The tree of a document spells what its unit declares. -/
theorem Outlined.spelled {w : Workspace} (h : w.Outlined) {doc : DocId} {d : Document} {u : SourceUnit}
    (document : w.document? doc = some d) (unit : w.symbols.unit? doc = some u) :
    u.SpelledIn d.parse.root d.lines :=
  (h.gives document unit).spelled

end Workspace

end C3Lens
