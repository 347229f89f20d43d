import C3Lens.Proofs.Workspace.Run

/-!
# The documents of a workspace

What an operation does to the table of documents, whatever it does to symbols and names. Each
operation has one lemma about `document?`. The table is sound (`Workspace.Filed`) if every document
stands under its own id; every action keeps that (`Filed.act`).
-/

namespace C3Lens

namespace Workspace

variable {w : Workspace}

@[simp] theorem documents_refresh (w : Workspace) (doc : DocId) :
    (w.refresh doc).documents = w.documents := by
  rw [refresh]
  split <;> rfl

@[simp] theorem document?_refresh (w : Workspace) (doc other : DocId) :
    (w.refresh doc).document? other = w.document? other := by
  rw [document?, documents_refresh, document?]

theorem document?_setDocument (w : Workspace) (d : Document) (other : DocId) :
    (w.setDocument d).document? other = if other = d.id then some d else w.document? other := by
  rw [document?, setDocument, Table.get?_insert, document?]
  simp only [DocId.text_inj]

/-- The document that the editor opens with a text. -/
def openedDocument (doc : DocId) (text : String) (version : Int) : Document :=
  { Document.ofText doc text version with ownedByEditor := true }

theorem document?_openDocument (w : Workspace) (doc other : DocId) (text : String) (version : Int) :
    (w.openDocument doc text version).document? other =
      if other = doc then some (openedDocument doc text version) else w.document? other := by
  rw [openDocument, document?_refresh]
  exact document?_setDocument w (openedDocument doc text version) other

theorem document?_indexDocument (w : Workspace) (doc other : DocId) (text : String) :
    (w.indexDocument doc text).document? other =
      if other = doc ∧ ¬ w.isOpen doc then some (Document.ofText doc text 0) else w.document? other := by
  rw [indexDocument]
  split
  next isOpen => rw [if_neg (fun h => h.2 isOpen)]
  next closed =>
    rw [document?_refresh, document?_setDocument]
    exact if_congr (iff_self_and.2 fun _ => closed) rfl rfl

theorem document?_closeDocument (w : Workspace) (doc other : DocId) :
    (w.closeDocument doc).document? other =
      if other = doc then (w.document? other).map ({ · with ownedByEditor := false })
      else w.document? other := by
  rw [document?, closeDocument, Table.get?_modify, document?]
  simp only [DocId.text_inj]

theorem document?_deleteDocument (w : Workspace) (doc other : DocId) :
    (w.deleteDocument doc).document? other = if other = doc then none else w.document? other := by
  rw [document?, deleteDocument, Table.get?_erase, document?]
  simp only [DocId.text_inj]

theorem documents_renameDocument_of_none {old : DocId} (missing : w.document? old = none) (new : DocId) :
    (w.renameDocument old new).documents = w.documents := by
  rw [renameDocument, missing]

theorem documents_renameDocument_of_some {old : DocId} {d : Document} (found : w.document? old = some d)
    (new : DocId) :
    (w.renameDocument old new).documents =
      (w.documents.erase old.text).insert new.text { d with id := new } := by
  rw [renameDocument, found]

theorem document?_renameDocument {old : DocId} {d : Document} (found : w.document? old = some d)
    (new other : DocId) :
    (w.renameDocument old new).document? other =
      if other = new then some { d with id := new } else if other = old then none else w.document? other := by
  rw [document?, documents_renameDocument_of_some found, Table.get?_insert, Table.get?_erase, document?]
  simp only [DocId.text_inj]

theorem document?_renameDocument_self {old : DocId} {d : Document} (found : w.document? old = some d)
    (new : DocId) : (w.renameDocument old new).document? new = some { d with id := new } :=
  (document?_renameDocument found new new).trans (if_pos rfl)

/-- The file of a document that the editor has open does not count. -/
theorem document?_indexDocument_of_isOpen {doc : DocId} (isOpen : w.isOpen doc = true)
    (other : DocId) (text : String) :
    (w.indexDocument other text).document? doc = w.document? doc := by
  rw [document?_indexDocument]
  refine if_neg fun h => ?_
  rw [← h.1] at h
  exact h.2 isOpen

theorem isOpen_congr {v : Workspace} {doc : DocId} (h : v.document? doc = w.document? doc) :
    v.isOpen doc = w.isOpen doc := by
  rw [isOpen, h, isOpen]

/-- Reading files opens and closes nothing. -/
@[simp] theorem isOpen_indexDocument (w : Workspace) (doc other : DocId) (text : String) :
    (w.indexDocument other text).isOpen doc = w.isOpen doc := by
  rw [isOpen, document?_indexDocument]
  split
  next h =>
    obtain ⟨rfl, closed⟩ := h
    exact (Bool.eq_false_iff.2 closed).symm
  next => rfl

@[simp] theorem isOpen_loadFiles (w : Workspace) (doc : DocId) (files : FileTree)
    (paths : List String) : (loadFiles files paths w).1.isOpen doc = w.isOpen doc := by
  refine loadFiles_induct (P := fun v => v.isOpen doc = w.isOpen doc) rfl ?_
  intro v same path _ text
  rw [isOpen_indexDocument, same]

theorem isOpen_deleteDocument (w : Workspace) (doc other : DocId) :
    (w.deleteDocument other).isOpen doc = if doc = other then false else w.isOpen doc := by
  rw [isOpen, document?_deleteDocument]
  split <;> rfl

theorem document?_loadFiles_of_isOpen {doc : DocId} (isOpen : w.isOpen doc = true)
    (files : FileTree) (paths : List String) :
    (loadFiles files paths w).1.document? doc = w.document? doc := by
  refine loadFiles_induct (P := fun v => v.document? doc = w.document? doc) rfl ?_
  intro v same path _ text
  rw [document?_indexDocument_of_isOpen ((isOpen_congr same).trans isOpen), same]

/-- Loading one file is loading a list of one. -/
theorem loadFile_eq {v : Workspace} {files : FileTree} {path : String}
    (h : w.loadFile files path = .ok v) : v = (loadFiles files [path] w).1 := by
  rw [loadFiles, h]
  rfl

/-- Loading a folder is loading the list of its source files, if they can be listed. -/
theorem loadFolder_cases (w : Workspace) (files : FileTree) (path : String) :
    (w.loadFolder files path).1 = w ∨ ∃ paths, sourcesIn files path = .ok paths ∧
      (w.loadFolder files path).1 = (loadFiles files paths w).1 := by
  rw [loadFolder]
  split
  · split
    next => exact .inl rfl
    next paths listed =>
      refine .inr ⟨paths, listed, ?_⟩
      split
      next loaded => rw [loaded]
      next loaded => rw [loaded]
  · exact .inl rfl

@[simp] theorem documents_dropLibrary (w : Workspace) : w.dropLibrary.documents = w.documents := by
  rw [dropLibrary]
  split <;> rfl

@[simp] theorem documents_setVersion (w : Workspace) (files : FileTree) (version : String)
    (root? cache? : Option String) :
    (w.setVersion files version root? cache?).1.documents = w.documents :=
  w.documents_dropLibrary

/-! ## Documents under their own ids -/

/-- Every document stands under its id. -/
def Filed (w : Workspace) : Prop :=
  w.documents.KeyedBy (·.id.text)

theorem Filed.id_eq (h : w.Filed) {doc : DocId} {d : Document} (found : w.document? doc = some d) :
    d.id = doc :=
  DocId.text_inj.1 (h doc.text d found)

theorem Filed.of_documents {v : Workspace} (h : w.Filed) (same : v.documents = w.documents) :
    v.Filed := by
  rw [Filed, same]
  exact h

theorem Filed.setDocument (h : w.Filed) (d : Document) : (w.setDocument d).Filed :=
  Table.KeyedBy.insert h rfl

theorem Filed.closeDocument (h : w.Filed) (doc : DocId) : (w.closeDocument doc).Filed :=
  Table.KeyedBy.modify h doc.text fun _ => rfl

theorem Filed.deleteDocument (h : w.Filed) (doc : DocId) : (w.deleteDocument doc).Filed :=
  Table.KeyedBy.erase h doc.text

theorem Filed.renameDocument (h : w.Filed) (old new : DocId) : (w.renameDocument old new).Filed := by
  cases found : w.document? old with
  | none => exact h.of_documents (documents_renameDocument_of_none found new)
  | some d =>
    rw [Filed, documents_renameDocument_of_some found]
    exact Table.KeyedBy.insert (h.deleteDocument old) rfl

theorem document?_changeDocument (h : w.Filed) (doc other : DocId) (edits : List Edit)
    (version : Int) :
    (w.changeDocument doc edits version).document? other =
      if other = doc then (w.document? other).map (·.applyEdits edits version)
      else w.document? other := by
  rw [changeDocument]
  split
  next missing =>
    split
    next same => rw [same, missing, Option.map_none]
    next => rfl
  next d found =>
    have id : (d.applyEdits edits version).id = doc := by
      show d.id = doc
      exact h.id_eq found
    rw [document?_refresh, document?_setDocument, id]
    split
    next same => rw [same, found, Option.map_some]
    next => rfl

theorem isOpen_changeDocument (h : w.Filed) (doc other : DocId) (edits : List Edit)
    (version : Int) : (w.changeDocument other edits version).isOpen doc = w.isOpen doc := by
  rw [isOpen, document?_changeDocument h, isOpen]
  split
  · cases w.document? doc <;> rfl
  · rfl

/-- Every action keeps documents under their ids. -/
theorem Filed.act (h : w.Filed) (a : Action) : (w.act a).Filed :=
  act_keeps (P := Filed) (fun _ d _ _ h => h.setDocument d)
    (fun w doc h => h.of_documents (documents_refresh w doc)) (fun _ doc h => h.closeDocument doc)
    (fun _ doc h => h.deleteDocument doc) (fun _ old new h => h.renameDocument old new)
    (fun w files version root? cache? _ h => h.of_documents (documents_setVersion w files version root? cache?))
    (fun _ _ h => h) h

theorem filed_empty : empty.Filed :=
  Table.keyedBy_empty

end Workspace

end C3Lens
