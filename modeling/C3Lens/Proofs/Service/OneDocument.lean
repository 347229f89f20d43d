import C3Lens.Proofs.Files.Path
import C3Lens.Proofs.Files.Url.File
import C3Lens.Proofs.Service.Run
import C3Lens.Proofs.Workspace.Agreement

/-!
# One document for a file

A file can come in by two ways: the editor opens it under a URL of its own spelling, and the service
reads it from disk and spells the URL itself. Documents are told apart by the texts of their URLs.

* `eq_of_samePath`: however files are opened, closed, read again, loaded one by one or by folders, and
  deleted, no two documents stand for the same path, if the editor spells the URLs that lead to the
  path as the service does. The paths that are loaded have to be absolute and without double dots, as
  all paths of a walk are.
* `twice_in_workspace`: a URL in which the editor writes a character as a percent code that the
  service writes as it is leads to a second document. Neither sees that the other one is there, so the
  file that the editor has open is read from disk again.
-/

namespace C3Lens

namespace DocId

/-- The document stands for the file at a path. -/
def HasPath (path : String) (doc : DocId) : Prop :=
  ∃ own, doc.path? = some own ∧ Path.same own path = true

/-- If the document stands for the file at a path, its URL is spelled as that of a path is. -/
def Spelled (path : String) (doc : DocId) : Prop :=
  ∀ own, doc.path? = some own → Path.same own path = true → doc = ofPath own

theorem same_symm {a b : String} (h : Path.same a b = true) : Path.same b a = true :=
  beq_iff_eq.2 (beq_iff_eq.1 h).symm

theorem same_trans {a b c : String} (h : Path.same a b = true) (h' : Path.same b c = true) :
    Path.same a c = true :=
  beq_iff_eq.2 ((beq_iff_eq.1 h).trans (beq_iff_eq.1 h'))

/-- Documents with well-spelled URLs are the same if they stand for the same file. -/
theorem eq_of_spelled {path : String} {a b : DocId} (ha : a.Spelled path) (hb : b.Spelled path)
    (pa : a.HasPath path) (pb : b.HasPath path) : a = b := by
  obtain ⟨p, foundA, sameA⟩ := pa
  obtain ⟨q, foundB, sameB⟩ := pb
  rw [ha p foundA sameA, hb q foundB sameB]
  exact ofPath_congr (isAbsolute_of_path? foundA) (isAbsolute_of_path? foundB)
    (same_trans sameA (same_symm sameB))

theorem hasPath_ofPath {path : String} (plain : Path.IsPlain path) : (ofPath path).HasPath path :=
  path?_ofPath plain

/-- The service spells the URLs of plain paths well. -/
theorem spelled_ofPath {own : String} (plain : Path.IsPlain own) (path : String) :
    (ofPath own).Spelled path := by
  intro other found _
  obtain ⟨back, leads, same⟩ := path?_ofPath plain
  rw [leads] at found
  cases found
  exact ofPath_congr plain.1 (isAbsolute_of_path? leads) (same_symm same)

end DocId

namespace Workspace

variable {w : Workspace} {doc : DocId}

/-- A document is in the workspace, with its text or with its symbols. -/
def Knows (w : Workspace) (doc : DocId) : Prop :=
  doc.text ∈ w.documents.names ∨ doc.text ∈ w.symbols.units.names

instance (w : Workspace) (doc : DocId) : Decidable (w.Knows doc) :=
  inferInstanceAs (Decidable (_ ∨ _))

theorem knows_setDocument {d : Document} (h : ((w.setDocument d).refresh d.id).Knows doc) :
    doc = d.id ∨ w.Knows doc := by
  rw [refresh_setDocument, Knows, SymbolStore.names_register, (outline_sound _ _ _).1] at h
  simp only [Table.mem_names_insert, DocId.text_inj] at h
  exact h.elim (fun h => h.imp_right .inl) fun h => h.imp_right .inr

theorem knows_openDocument {other : DocId} {text : String} {version : Int}
    (h : (w.openDocument other text version).Knows doc) : doc = other ∨ w.Knows doc :=
  knows_setDocument (d := openedDocument other text version) h

theorem knows_indexDocument {other : DocId} {text : String} (h : (w.indexDocument other text).Knows doc) :
    doc = other ∨ w.Knows doc := by
  rw [indexDocument] at h
  split at h
  · exact .inr h
  · exact knows_setDocument (d := Document.ofText other text 0) h

theorem knows_closeDocument {other : DocId} (h : (w.closeDocument other).Knows doc) : w.Knows doc := by
  rw [Knows, closeDocument, Table.names_modify] at h
  exact h

theorem knows_deleteDocument {other : DocId} (h : (w.deleteDocument other).Knows doc) : w.Knows doc :=
  h.imp (fun h => (Table.mem_names_erase.1 h).1) fun h => (Table.mem_names_erase.1 h).1

theorem knows_loadFiles {files : FileTree} {paths : List String} (h : (loadFiles files paths w).1.Knows doc) :
    (∃ path ∈ paths, doc = .ofPath path) ∨ w.Knows doc := by
  have all : ∀ doc, (loadFiles files paths w).1.Knows doc →
      (∃ path ∈ paths, doc = .ofPath path) ∨ w.Knows doc := by
    refine loadFiles_induct
      (P := fun v => ∀ doc, v.Knows doc → (∃ path ∈ paths, doc = .ofPath path) ∨ w.Knows doc)
      (fun _ => .inr) ?_
    intro v known path hp text doc h
    exact (knows_indexDocument h).elim (fun same => .inl ⟨path, hp, same⟩) (known doc)
  exact all doc h

end Workspace

namespace Service

/-! ## How files come in -/

/-- What brings files in and takes them away. -/
inductive FileStep where
  /-- The editor opens a document. -/
  | opened (url : Url) (name text : String) (version : Int)
  | closed (url : Url)
  | loadFolder (files : FileTree) (path : String)
  | loadFile (files : FileTree) (path : String)
  /-- A watcher tells of files that were written or deleted. -/
  | filesChanged (files : FileTree) (changes : List FileChange)

/-- The service after a step. -/
def follow (s : Service) : FileStep → Service
  | .opened url name text version => (s.act (.opened url name text version)).1
  | .closed url => (s.act (.closed url)).1
  | .loadFolder files path => s.mapWorkspace fun w => (w.loadFolder files path).1
  | .loadFile files path => s.mapWorkspace fun w => (w.loadFile files path).toOption.getD w
  | .filesChanged files changes => s.meet ⟨files, .filesChanged changes⟩

/-- The service after steps in order. -/
def followAll (s : Service) (steps : List FileStep) : Service :=
  steps.foldl follow s

/-- The file of a watcher has a plain path. -/
def PlainChange : FileChange → Prop
  | .written url => ∀ path, (DocId.ofUrl url).path? = some path → Path.IsPlain path
  | .deleted _ => True

/-- Whether the URLs that lead to a path are spelled as the service does, and what is loaded has
a plain path. -/
def FileStep.Fits (path : String) : FileStep → Prop
  | .opened url _ _ _ => (DocId.ofUrl url).Spelled path
  | .closed _ => True
  | .loadFolder files folder => files.WellNamed ∧ Path.IsPlain folder
  | .loadFile _ file => Path.IsPlain file
  | .filesChanged _ changes => ∀ c ∈ changes, PlainChange c

section Steps

variable {s : Service} {path : String} {doc : DocId}

/-- All documents of the service are spelled well. -/
def SpelledAll (s : Service) (path : String) : Prop :=
  ∀ doc, s.workspace.Knows doc → doc.Spelled path

theorem SpelledAll.loadFiles (h : s.SpelledAll path) {files : FileTree} {paths : List String}
    (plain : ∀ p ∈ paths, Path.IsPlain p) {t : Service}
    (loaded : t.workspace = (Workspace.loadFiles files paths s.workspace).1) : t.SpelledAll path := by
  intro doc known
  rw [loaded] at known
  rcases Workspace.knows_loadFiles known with ⟨p, hp, rfl⟩ | known
  · exact DocId.spelled_ofPath (plain p hp) path
  · exact h doc known

theorem SpelledAll.fileChanged (h : s.SpelledAll path) {c : FileChange} (plain : PlainChange c) :
    (s.fileChanged c).SpelledAll path := by
  cases c with
  | deleted url => exact fun doc known => h doc (Workspace.knows_deleteDocument known)
  | written url =>
    rw [Service.fileChanged]
    rcases s.reloadFile_cases (.ofUrl url) with same | ⟨p, leads, -, loaded⟩
    · rwa [same]
    · rw [loaded]
      exact h.loadFiles (fun q hq => List.mem_singleton.1 hq ▸ plain p leads) rfl

/-- A step keeps the documents spelled well. -/
theorem SpelledAll.follow (h : s.SpelledAll path) {step : FileStep} (fits : step.Fits path) :
    (s.follow step).SpelledAll path := by
  cases step with
  | opened url name text version =>
    rw [Service.follow, act, documentOpened]
    split
    · intro doc known
      rcases Workspace.knows_openDocument known with rfl | known
      · exact fits
      · exact h doc known
    · exact h
  | closed url => exact fun doc known => h doc (Workspace.knows_closeDocument known)
  | loadFolder files folder =>
    obtain ⟨wellNamed, plain⟩ := fits
    rcases s.workspace.loadFolder_cases files folder with same | ⟨paths, listed, loaded⟩
    · rw [Service.follow, mapWorkspace, same]
      exact h
    · refine SpelledAll.loadFiles h ?_ loaded
      rw [Workspace.sourcesIn] at listed
      cases sources : files.sources folder with
      | error e =>
        rw [sources] at listed
        cases listed
      | ok found =>
        rw [sources] at listed
        cases listed
        exact FileTree.isPlain_of_mem_sources wellNamed plain sources
  | loadFile files file =>
    rw [Service.follow, mapWorkspace]
    cases loaded : s.workspace.loadFile files file with
    | error e => exact h
    | ok w =>
      exact h.loadFiles (fun q hq => List.mem_singleton.1 hq ▸ fits) (Workspace.loadFile_eq loaded)
  | filesChanged files changes =>
    have kept : ∀ (changes : List FileChange) (t : Service), t.SpelledAll path →
        (∀ c ∈ changes, PlainChange c) → (changes.foldl Service.fileChanged t).SpelledAll path := by
      intro changes
      induction changes with
      | nil => exact fun t ht _ => ht
      | cons c changes ih =>
        intro t ht plain
        rw [List.forall_mem_cons] at plain
        exact ih _ (ht.fileChanged plain.1) plain.2
    exact kept changes (s.withFiles files) h fits

theorem SpelledAll.followAll (h : s.SpelledAll path) {steps : List FileStep}
    (fits : ∀ step ∈ steps, step.Fits path) : (s.followAll steps).SpelledAll path := by
  induction steps generalizing s with
  | nil => exact h
  | cons step steps ih =>
    rw [List.forall_mem_cons] at fits
    exact ih (h.follow fits.1) fits.2

end Steps

/-- Two documents of the service do not stand for the same path, if the editor spells the URLs that
lead to it as the service does. -/
theorem eq_of_samePath (s : Service) (fresh : s.workspace = .empty) (steps : List FileStep) (path : String)
    (fits : ∀ step ∈ steps, step.Fits path) {a b : DocId} (knownA : (s.followAll steps).workspace.Knows a)
    (knownB : (s.followAll steps).workspace.Knows b) (pathA : a.HasPath path) (pathB : b.HasPath path) :
    a = b := by
  have start : s.SpelledAll path := by
    intro doc known
    rw [fresh] at known
    rcases known with h | h <;> cases h
  have spelled := start.followAll fits
  exact DocId.eq_of_spelled (spelled a knownA) (spelled b knownB) pathA pathB

/-- A file with a blank and a plus sign in its name. -/
def oneFile : FileTree :=
  ⟨.folder [("a +.c3", .file (Utf8.encode "int disk;"))]⟩

theorem isAbsolute_oneFile : Path.isAbsolute "/a +.c3" = true :=
  Path.isAbsolute_iff.2 ⟨_, rfl⟩

theorem components_oneFile : Path.components "/a +.c3" = ["a +.c3"] := by
  rw [Path.components_of_absolute isAbsolute_oneFile, Path.parts_eq]
  decide

theorem ofPath_oneFile : DocId.ofPath "/a +.c3" = ⟨"file:///a%20+.c3"⟩ := by
  rw [DocId.ofPath_of_absolute isAbsolute_oneFile, components_oneFile]
  decide +kernel

theorem isPlain_oneFile : Path.IsPlain "/a +.c3" := by
  refine ⟨isAbsolute_oneFile, ?_⟩
  rw [components_oneFile]
  decide

theorem text_oneFile : oneFile.text "/a +.c3" = .ok "int disk;" := by
  have parts : FileTree.partsOf "/a +.c3" = .ok ["", "a +.c3"] := by
    rw [FileTree.partsOf, Path.parts_eq]
    decide
  have names : oneFile.names "/a +.c3" = .ok ["a +.c3"] := by
    rw [FileTree.names, parts]
    decide
  have bytes : oneFile.bytes "/a +.c3" = .ok (Utf8.encode "int disk;") := by
    rw [FileTree.bytes, FileTree.node, names]
    rfl
  have decoded : ∀ bs, oneFile.bytes "/a +.c3" = .ok bs → Utf8.decode? bs = some "int disk;" →
      oneFile.text "/a +.c3" = .ok "int disk;" := by
    intro bs read text
    rw [FileTree.text, read]
    simp only [bind, Except.bind, text]
    rfl
  exact decoded _ bytes (Utf8.decode?_encode _)

/-- The workspace after the editor has opened a document. -/
def openedOnly (url : Url) : Workspace :=
  Workspace.empty.openDocument (.ofUrl url) "int mine;" 1

theorem followAll_oneFile {url : Url} {w : Workspace}
    (loaded : (openedOnly url).loadFile oneFile "/a +.c3" = .ok w) :
    (followAll { host := {} } [.opened url language "int mine;" 1, .loadFile oneFile "/a +.c3"]).workspace = w := by
  show ((openedOnly url).loadFile oneFile "/a +.c3").toOption.getD (openedOnly url) = w
  rw [loaded]
  rfl

/-- An editor that spells the plus sign as the service does has one document with it. -/
theorem once_in_workspace :
    let url : Url := ⟨"file", some (.ofHost .empty), "/a%20+.c3", none, none⟩
    (followAll { host := {} } [.opened url language "int mine;" 1, .loadFile oneFile "/a +.c3"]).workspace =
        openedOnly url ∧ DocId.ofUrl url = DocId.ofPath "/a +.c3" := by
  intro url
  have spelled : DocId.ofUrl url = DocId.ofPath "/a +.c3" := by
    rw [ofPath_oneFile]
    decide
  have once : (openedOnly url).loadFile oneFile "/a +.c3" = .ok (openedOnly url) := by
    rw [Workspace.loadFile, ← spelled, if_pos (by decide)]
  have final := followAll_oneFile once
  have known : (openedOnly url).Knows (.ofUrl url) := by decide
  have path := DocId.hasPath_ofPath isPlain_oneFile
  have wellSpelled := DocId.spelled_ofPath isPlain_oneFile "/a +.c3"
  rw [← spelled] at path wellSpelled
  refine ⟨final, eq_of_samePath { host := {} } rfl
    [.opened url language "int mine;" 1, .loadFile oneFile "/a +.c3"] "/a +.c3" ?_ ?_ ?_ path
    (DocId.hasPath_ofPath isPlain_oneFile)⟩
  · rintro step (_ | ⟨_, _ | ⟨_, ⟨⟩⟩⟩)
    · exact wellSpelled
    · exact isPlain_oneFile
  · rw [final]
    exact known
  · rw [final, ← spelled]
    exact known

/-- An editor that spells the plus sign as a percent code has a second document for the file. -/
theorem twice_in_workspace :
    let url : Url := ⟨"file", some (.ofHost .empty), "/a%20%2B.c3", none, none⟩
    let s := followAll { host := {} } [.opened url language "int mine;" 1, .loadFile oneFile "/a +.c3"]
    s.workspace.Knows (.ofUrl url) ∧ s.workspace.Knows (.ofPath "/a +.c3") ∧
      (DocId.ofUrl url).HasPath "/a +.c3" ∧ (DocId.ofPath "/a +.c3").HasPath "/a +.c3" ∧
      DocId.ofUrl url ≠ DocId.ofPath "/a +.c3" := by
  intro url s
  have loaded : s.workspace = (openedOnly url).indexDocument (.ofPath "/a +.c3") "int disk;" := by
    refine followAll_oneFile ?_
    rw [Workspace.loadFile, text_oneFile, ofPath_oneFile, if_neg (by decide)]
    rfl
  have read : Url.parse? (DocId.ofUrl url).text = some url := by decide +kernel
  have path : url.filePath? = some "/a +.c3" := by
    rw [Url.filePath?, Path.slash_eq, Text.splitOn_singleton]
    decide +kernel
  refine ⟨?_, ?_, ?_, DocId.hasPath_ofPath isPlain_oneFile, ?_⟩
  · rw [loaded, ofPath_oneFile]
    decide
  · rw [loaded, ofPath_oneFile]
    decide
  · exact ⟨"/a +.c3", by rw [DocId.path?, read, Option.bind_some, path], beq_self_eq_true _⟩
  · rw [ofPath_oneFile]
    decide

end Service

end C3Lens
