import C3Lens.Proofs.Service.Run

/-!
# The text of an open document

Two sources write the same documents: the editor tells what it opens, changes and closes, and a
watcher tells which files were written or deleted. From the moment on at which the editor opens a
document until it opens or closes it again, the service holds it as open with the text that all
changes in between make of the first one, until a watcher tells that its file was deleted
(`holds_iff_not_deleted`). Files that are written, whatever is in them, and all other documents do
not count.

**Deletion.** A written file is checked against the documents that are open, a deleted one is not:
its document is forgotten, open or not, and what the editor goes on to type into it is lost
(`typing_lost_after_deletion`).
-/

namespace C3Lens

/-! ## Notices of one document -/

/-- Whether the file of a document was deleted. -/
def FileChange.Deletes (doc : DocId) : FileChange → Prop
  | .deleted url => .ofUrl url = doc
  | .written _ => False

instance (doc : DocId) : (c : FileChange) → Decidable (c.Deletes doc)
  | .deleted url => inferInstanceAs (Decidable (DocId.ofUrl url = doc))
  | .written _ => inferInstanceAs (Decidable False)

namespace Notice

/-- Whether the notice neither opens nor closes the document, and the editor neither moves nor
deletes files. -/
def Leaves (doc : DocId) : Notice → Prop
  | .opened url _ _ _ => .ofUrl url ≠ doc
  | .closed url => .ofUrl url ≠ doc
  | .filesDeleted _ | .filesMoved _ => False
  | _ => True

/-- Whether a watcher tells that the file of the document was deleted. -/
def Deletes (doc : DocId) : Notice → Prop
  | .filesChanged changes => ∃ c ∈ changes, c.Deletes doc
  | _ => False

/-- The changes of the document that the notice tells of. -/
def editsOf (doc : DocId) : Notice → List Edit
  | .changed url edits _ => if .ofUrl url = doc then edits else []
  | _ => []

instance (doc : DocId) : (n : Notice) → Decidable (n.Leaves doc)
  | .opened url _ _ _ => inferInstanceAs (Decidable (DocId.ofUrl url ≠ doc))
  | .closed url => inferInstanceAs (Decidable (DocId.ofUrl url ≠ doc))
  | .filesDeleted _ | .filesMoved _ => inferInstanceAs (Decidable False)
  | .ready | .changed .. | .saved _ | .filesChanged _ | .settingsChanged _ =>
    inferInstanceAs (Decidable True)

instance (doc : DocId) : (n : Notice) → Decidable (n.Deletes doc)
  | .filesChanged changes => inferInstanceAs (Decidable (∃ c ∈ changes, c.Deletes doc))
  | .ready | .opened .. | .changed .. | .saved _ | .closed _ | .filesDeleted _ | .filesMoved _
  | .settingsChanged _ => inferInstanceAs (Decidable False)

end Notice

namespace Service

variable {s t : Service} {doc : DocId} {text : String}

/-- The service holds a document as open, with a text. -/
def Holds (s : Service) (doc : DocId) (text : String) : Prop :=
  ∃ d, s.workspace.document? doc = some d ∧ d.ownedByEditor = true ∧ d.text = text

theorem Holds.isOpen (h : s.Holds doc text) : s.workspace.isOpen doc = true := by
  obtain ⟨d, found, owned, -⟩ := h
  rw [Workspace.isOpen, found]
  exact owned

theorem Holds.of_document? (h : s.Holds doc text)
    (same : t.workspace.document? doc = s.workspace.document? doc) : t.Holds doc text := by
  obtain ⟨d, found, rest⟩ := h
  exact ⟨d, same.trans found, rest⟩

/-! ## Files on disk -/

/-- A file change opens nothing, and closes a document only by the deletion of its file. -/
theorem isOpen_fileChanged (s : Service) (doc : DocId) (c : FileChange) :
    (s.fileChanged c).workspace.isOpen doc =
      if c.Deletes doc then false else s.workspace.isOpen doc := by
  cases c with
  | deleted url =>
    rw [fileChanged, mapWorkspace, Workspace.isOpen_deleteDocument]
    exact if_congr eq_comm rfl rfl
  | written url =>
    rw [fileChanged]
    rcases s.reloadFile_cases (.ofUrl url) with same | ⟨path, -, -, loaded⟩
    · rw [same]
      rfl
    · rw [loaded]
      exact Workspace.isOpen_loadFiles _ _ _ _

theorem isOpen_filesChanged (s : Service) (doc : DocId) (changes : List FileChange) :
    (changes.foldl fileChanged s).workspace.isOpen doc =
      if ∃ c ∈ changes, c.Deletes doc then false else s.workspace.isOpen doc := by
  induction changes generalizing s with
  | nil => simp
  | cons c changes ih =>
    rw [List.foldl_cons, ih, isOpen_fileChanged]
    by_cases here : c.Deletes doc
    · simp [here]
    · simp [here]

/-- A file that was written does not count for an open document, whatever is in it. -/
theorem Holds.fileChanged (h : s.Holds doc text) {c : FileChange} (kept : ¬ c.Deletes doc) :
    (s.fileChanged c).Holds doc text := by
  cases c with
  | deleted url =>
    refine h.of_document? ?_
    rw [Service.fileChanged, mapWorkspace, Workspace.document?_deleteDocument]
    exact if_neg fun same => kept same.symm
  | written url =>
    rw [Service.fileChanged]
    rcases s.reloadFile_cases (.ofUrl url) with same | ⟨path, -, -, loaded⟩
    · rwa [same]
    · rw [loaded]
      exact h.of_document? (Workspace.document?_loadFiles_of_isOpen h.isOpen _ _)

theorem Holds.filesChanged {changes : List FileChange} (h : s.Holds doc text)
    (kept : ∀ c ∈ changes, ¬ c.Deletes doc) :
    (changes.foldl Service.fileChanged s).Holds doc text := by
  induction changes generalizing s with
  | nil => exact h
  | cons c changes ih =>
    rw [List.forall_mem_cons] at kept
    exact ih (h.fileChanged kept.1) kept.2

/-- The library and the sources of the workspace are read at the start. -/
theorem isOpen_ready (s : Service) (doc : DocId) :
    (s.act .ready).1.workspace.isOpen doc = s.workspace.isOpen doc := by
  have library : s.askVersion.loadLibrary.workspace.isOpen doc = s.workspace.isOpen doc :=
    Workspace.isOpen_congr (by simp [Workspace.document?])
  rcases s.askVersion.loadLibrary.loadSources_cases with same | ⟨root, paths, -, -, loaded⟩
  · rw [act, same, library]
  · rw [act, loaded]
    exact (Workspace.isOpen_loadFiles _ doc _ _).trans library

theorem Holds.ready (h : s.Holds doc text) : (s.act .ready).1.Holds doc text := by
  have library : s.askVersion.loadLibrary.Holds doc text :=
    h.of_document? (by simp [Workspace.document?])
  rcases s.askVersion.loadLibrary.loadSources_cases with same | ⟨root, paths, -, -, loaded⟩
  · rwa [act, same]
  · rw [act, loaded]
    exact library.of_document? (Workspace.document?_loadFiles_of_isOpen library.isOpen _ _)

/-! ## One event -/

/-- The editor's changes are applied to the text that the service holds. -/
theorem Holds.changeDocument (h : s.Holds doc text) (filed : s.workspace.Filed) (other : DocId)
    (edits : List Edit) (version : Int) :
    (s.mapWorkspace (·.changeDocument other edits version)).Holds doc
      (Edit.applyAll (if other = doc then edits else []) text) := by
  obtain ⟨d, found, owned, rfl⟩ := h
  have changed := Workspace.document?_changeDocument filed other doc edits version
  rw [found] at changed
  by_cases same : other = doc
  · rw [if_pos same.symm] at changed
    rw [if_pos same]
    exact ⟨d.applyEdits edits version, changed, owned, rfl⟩
  · rw [if_neg (Ne.symm same)] at changed
    rw [if_neg same]
    exact ⟨d, changed, owned, rfl⟩

/-- An event opens no document but that of its notice, and closes others only by a deletion. -/
theorem isOpen_meet (filed : s.workspace.Filed) {e : Event} (leaves : e.notice.Leaves doc) :
    (s.meet e).workspace.isOpen doc =
      if e.notice.Deletes doc then false else s.workspace.isOpen doc := by
  obtain ⟨files, n⟩ := e
  rw [meet]
  replace filed : (s.withFiles files).workspace.Filed := filed
  show _ = if n.Deletes doc then false else (s.withFiles files).workspace.isOpen doc
  dsimp only at leaves ⊢
  generalize s.withFiles files = s at filed
  cases n with
  | ready => exact isOpen_ready s doc
  | opened url name text version =>
    rw [act, documentOpened]
    split
    · exact Workspace.isOpen_congr
        ((Workspace.document?_openDocument _ _ _ _ _).trans (if_neg leaves.symm))
    · rfl
  | changed url edits version =>
    rw [act, workspace_schedule]
    exact Workspace.isOpen_changeDocument filed _ _ _ _
  | saved url => rw [act, workspace_schedule]; rfl
  | closed url =>
    exact Workspace.isOpen_congr
      ((Workspace.document?_closeDocument _ _ _).trans (if_neg leaves.symm))
  | filesChanged changes => exact isOpen_filesChanged s doc changes
  | filesDeleted ids => exact leaves.elim
  | filesMoved moves => exact leaves.elim
  | settingsChanged change =>
    exact Workspace.isOpen_congr (congrArg (·.get? doc.text) (documents_settingsChanged s change))

/-- An event that does not delete the file of an open document applies its changes, if any. -/
theorem Holds.meet (h : s.Holds doc text) (filed : s.workspace.Filed) {e : Event}
    (leaves : e.notice.Leaves doc) (kept : ¬ e.notice.Deletes doc) :
    (s.meet e).Holds doc (Edit.applyAll (e.notice.editsOf doc) text) := by
  obtain ⟨files, n⟩ := e
  rw [Service.meet]
  replace h : (s.withFiles files).Holds doc text := h
  replace filed : (s.withFiles files).workspace.Filed := filed
  dsimp only at leaves kept ⊢
  generalize s.withFiles files = s at h filed
  cases n with
  | ready => exact h.ready
  | opened url name text version =>
    rw [act, documentOpened]
    split
    · exact h.of_document?
        ((Workspace.document?_openDocument _ _ _ _ _).trans (if_neg leaves.symm))
    · exact h
  | changed url edits version =>
    exact (h.changeDocument filed (.ofUrl url) edits version).of_document?
      (by rw [act, workspace_schedule])
  | saved url => exact h.of_document? (by rw [act, workspace_schedule])
  | closed url =>
    exact h.of_document? ((Workspace.document?_closeDocument _ _ _).trans (if_neg leaves.symm))
  | filesChanged changes => exact h.filesChanged fun c hc deletes => kept ⟨c, hc, deletes⟩
  | filesDeleted ids => exact leaves.elim
  | filesMoved moves => exact leaves.elim
  | settingsChanged change =>
    exact h.of_document? (congrArg (·.get? doc.text) (documents_settingsChanged s change))

/-! ## All events since the document was opened -/

theorem filed_meet (filed : s.workspace.Filed) (e : Event) : (s.meet e).workspace.Filed :=
  runEvents_induct (P := Workspace.Filed) (fun _ a h => h.act a) filed [e]

/-- What is not open stays so until it is opened. -/
theorem isOpen_runEvents_of_closed {since : List Event} (filed : s.workspace.Filed)
    (closed : s.workspace.isOpen doc = false) (leaves : ∀ e ∈ since, e.notice.Leaves doc) :
    (s.runEvents since).workspace.isOpen doc = false := by
  induction since generalizing s with
  | nil => exact closed
  | cons e since ih =>
    rw [List.forall_mem_cons] at leaves
    refine ih (s := s.meet e) (filed_meet filed e) ?_ leaves.2
    rw [isOpen_meet filed leaves.1, closed, ite_self]

/-- A document that is held stays so, with all changes, as long as its file is not deleted. -/
theorem Holds.runEvents_iff {since : List Event} (h : s.Holds doc text)
    (filed : s.workspace.Filed) (leaves : ∀ e ∈ since, e.notice.Leaves doc) :
    (s.runEvents since).Holds doc (Edit.applyAll (since.flatMap (·.notice.editsOf doc)) text) ↔
      ∀ e ∈ since, ¬ e.notice.Deletes doc := by
  induction since generalizing s text with
  | nil => exact iff_of_true h fun _ he => nomatch he
  | cons e since ih =>
    rw [List.forall_mem_cons] at leaves ⊢
    have all : Edit.applyAll ((e :: since).flatMap (·.notice.editsOf doc)) text =
        Edit.applyAll (since.flatMap (·.notice.editsOf doc))
          (Edit.applyAll (e.notice.editsOf doc) text) := by
      rw [List.flatMap_cons, Edit.applyAll, List.foldl_append]
      rfl
    rw [all]
    by_cases deletes : e.notice.Deletes doc
    · have closed : (s.meet e).workspace.isOpen doc = false := by
        rw [isOpen_meet filed leaves.1, if_pos deletes]
      have lost := isOpen_runEvents_of_closed (filed_meet filed e) closed leaves.2
      exact iff_of_false (fun held => Bool.false_ne_true (lost.symm.trans held.isOpen))
        fun none => none.1 deletes
    · rw [and_iff_right deletes]
      exact ih (h.meet filed leaves.1 deletes) (filed_meet filed e) leaves.2

/-- From the moment on at which the editor opens a document until it opens or closes it again, the
service holds it with the text that all changes since then make of the first one, exactly until its
file is said to be deleted. -/
theorem holds_iff_not_deleted (s : Service) (fresh : s.workspace = .empty)
    (before since : List Event) (files : FileTree) (url : Url) (text : String) (version : Int)
    (leaves : ∀ e ∈ since, e.notice.Leaves (.ofUrl url)) :
    (s.runEvents (before ++ ⟨files, .opened url language text version⟩ :: since)).Holds (.ofUrl url)
        (Edit.applyAll (since.flatMap (·.notice.editsOf (.ofUrl url))) text) ↔
      ∀ e ∈ since, ¬ e.notice.Deletes (.ofUrl url) := by
  have filed : ∀ events : List Event, (s.runEvents events).workspace.Filed := by
    refine runEvents_induct (P := Workspace.Filed) (fun _ a h => h.act a) ?_
    rw [fresh]
    exact Workspace.filed_empty
  rw [runEvents, List.foldl_append, List.foldl_cons]
  refine Holds.runEvents_iff ?_ (filed_meet (filed before) _) leaves
  refine ⟨Workspace.openedDocument (.ofUrl url) text version, ?_, rfl, rfl⟩
  exact (Workspace.document?_openDocument _ _ _ _ _).trans (if_pos rfl)

/-- The URL of a file. -/
def typedUrl : Url :=
  ⟨"file", some (.ofHost .empty), "/a.c3", none, none⟩

/-- The editor replaces a word of the file in two steps. -/
def typing : List Event :=
  [⟨.empty, .changed typedUrl [⟨some ⟨⟨0, 4⟩, ⟨0, 7⟩⟩, "new"⟩] 2⟩,
    ⟨.empty, .changed typedUrl [⟨some ⟨⟨0, 7⟩, ⟨0, 7⟩⟩, "er"⟩] 3⟩]

/-- Something else is written into a file while the editor changes it. -/
theorem holds_typed_text :
    let written : FileTree := ⟨.folder [("a.c3", .file (Utf8.encode "int written;"))]⟩
    (runEvents { host := {}, stage := .running } ([⟨written, .ready⟩] ++
      ⟨written, .opened typedUrl language "int old;" 1⟩ ::
        ⟨written, .filesChanged [.written typedUrl]⟩ :: typing)).Holds (.ofUrl typedUrl) "int newer;" :=
  (holds_iff_not_deleted { host := {}, stage := .running } rfl [_] (_ :: typing) _ typedUrl
    "int old;" 1 (by decide)).2 (by decide)

/-- A document is forgotten with its file, and what is typed after that is lost. -/
theorem typing_lost_after_deletion :
    let since := ⟨.empty, .filesChanged [.deleted typedUrl]⟩ :: typing
    (∀ e ∈ since, e.notice.Leaves (.ofUrl typedUrl)) ∧
      ¬ (runEvents { host := {}, stage := .running }
        (⟨.empty, .opened typedUrl language "int old;" 1⟩ :: since)).Holds (.ofUrl typedUrl)
          (Edit.applyAll (since.flatMap (·.notice.editsOf (.ofUrl typedUrl))) "int old;") := by
  refine ⟨by decide, fun held => ?_⟩
  have isOpen := held.isOpen
  revert isOpen
  decide

end Service

end C3Lens
