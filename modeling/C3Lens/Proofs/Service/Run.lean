import C3Lens.Proofs.Workspace.Documents
import C3Lens.Service.Notice

/-!
# Runs of the service

A `Service.Event` is a notice, of the editor or of the watcher of its files, with the files as they
are on disk when it comes; `Service.runEvents` is the service after events in order. Whatever a
notice does to the workspace, it does by actions of the workspace (`exists_actions`), so that an
invariant of all actions is one of all events.
-/

namespace C3Lens.Service

/-! ## What leaves the workspace or its documents -/

@[simp] theorem workspace_schedule (s : Service) : s.schedule.workspace = s.workspace := by
  rw [schedule]
  split
  · rfl
  · split <;> rfl

@[simp] theorem workspace_askVersion (s : Service) : s.askVersion.workspace = s.workspace := by
  rw [askVersion]
  split <;> rfl

@[simp] theorem workspace_applySettings (s : Service) (change : Json) :
    (s.applySettings change).1.workspace = s.workspace := by
  rw [applySettings]
  split <;> rfl

@[simp] theorem documents_loadLibrary (s : Service) :
    s.loadLibrary.workspace.documents = s.workspace.documents :=
  Workspace.documents_setVersion _ _ _ _ _

/-- Settings do not count for documents. -/
@[simp] theorem documents_settingsChanged (s : Service) (change : Json) :
    (s.settingsChanged change).1.workspace.documents = s.workspace.documents := by
  have applied := workspace_applySettings s change
  rw [settingsChanged]
  generalize s.applySettings change = result at applied
  obtain ⟨t, changed⟩ := result
  dsimp only at applied ⊢
  rw [← applied]
  split
  · rw [documents_loadLibrary]
    split <;> rfl
  · rfl

/-! ## Notices by actions -/

/-- The library is loaded by one action. -/
theorem loadLibrary_eq (s : Service) : ∃ files version root? cache?,
    s.loadLibrary.workspace = s.workspace.act (.setVersion files version root? cache?) :=
  ⟨_, _, _, _, rfl⟩

/-- The sources of the workspace are a list of files. -/
theorem loadSources_cases (s : Service) :
    s.loadSources = s ∨ ∃ root paths, s.root? = some root ∧
      Workspace.sourcesIn s.host.files root = .ok paths ∧
      s.loadSources = { s with workspace := s.workspace.act (.loadFiles s.host.files paths) } := by
  rw [loadSources]
  split
  next root isRoot =>
    rcases s.workspace.loadFolder_cases s.host.files root with same | ⟨paths, listed, loaded⟩
    · rw [same]
      exact .inl rfl
    · rw [loaded]
      exact .inr ⟨root, paths, isRoot, listed, rfl⟩
  · exact .inl rfl

/-- Reading a file again is loading a list of one file. -/
theorem reloadFile_cases (s : Service) (doc : DocId) :
    s.reloadFile doc = s ∨ ∃ path, doc.path? = some path ∧ Path.isSource path = true ∧
      s.reloadFile doc = { s with workspace := s.workspace.act (.loadFiles s.host.files [path]) } := by
  rw [reloadFile]
  split
  · exact .inl rfl
  next path hp =>
    split
    next source =>
      split
      next w loaded =>
        refine .inr ⟨path, hp, source, ?_⟩
        rw [Workspace.loadFile_eq loaded]
        rfl
      next => exact .inl rfl
    · exact .inl rfl

/-- New settings forget the reports, load the library, or leave the workspace as it is. -/
theorem settingsChanged_actions (s : Service) (change : Json) :
    ∃ actions : List Action, (s.settingsChanged change).1.workspace =
      actions.foldl Workspace.act s.workspace := by
  have applied := workspace_applySettings s change
  rw [settingsChanged]
  generalize s.applySettings change = result at applied
  obtain ⟨t, changed⟩ := result
  dsimp only at applied ⊢
  rw [← applied]
  split
  next =>
    split
    next =>
      obtain ⟨files, version, root?, cache?, loaded⟩ := t.loadLibrary_eq
      exact ⟨[.setVersion files version root? cache?], loaded⟩
    next =>
      obtain ⟨files, version, root?, cache?, loaded⟩ := t.unschedule.clearReports.1.loadLibrary_eq
      exact ⟨[.setReports .empty, .setVersion files version root? cache?], loaded⟩
  next => exact ⟨[], rfl⟩

/-- A change on disk is one action at most. -/
theorem fileChanged_actions (s : Service) (c : FileChange) :
    ∃ actions : List Action, (s.fileChanged c).workspace = actions.foldl Workspace.act s.workspace := by
  cases c with
  | deleted url => exact ⟨[.deleteDocument (.ofUrl url)], rfl⟩
  | written url =>
    rcases s.reloadFile_cases (.ofUrl url) with same | ⟨path, -, -, loaded⟩
    · exact ⟨[], by rw [fileChanged, same, List.foldl_nil]⟩
    · exact ⟨[.loadFiles s.host.files [path]], by rw [fileChanged, loaded, List.foldl_cons, List.foldl_nil]⟩

theorem filesChanged_actions (s : Service) (changes : List FileChange) :
    ∃ actions : List Action, (changes.foldl fileChanged s).workspace =
      actions.foldl Workspace.act s.workspace := by
  induction changes generalizing s with
  | nil => exact ⟨[], rfl⟩
  | cons c changes ih =>
    obtain ⟨first, here⟩ := s.fileChanged_actions c
    obtain ⟨rest, there⟩ := ih (s.fileChanged c)
    exact ⟨first ++ rest, by rw [List.foldl_cons, there, here, List.foldl_append]⟩

/-- What a notice does to the workspace, actions do. -/
theorem exists_actions (s : Service) (n : Notice) :
    ∃ actions : List Action, (s.act n).1.workspace = actions.foldl Workspace.act s.workspace := by
  cases n with
  | ready =>
    obtain ⟨files, version, root?, cache?, library⟩ := s.askVersion.loadLibrary_eq
    rw [workspace_askVersion] at library
    rcases s.askVersion.loadLibrary.loadSources_cases with same | ⟨root, paths, -, -, loaded⟩
    · exact ⟨[.setVersion files version root? cache?], by rw [act, same]; exact library⟩
    · refine ⟨[.setVersion files version root? cache?, 
        .loadFiles s.askVersion.loadLibrary.host.files paths], ?_⟩
      rw [act, loaded]
      dsimp only [List.foldl_cons, List.foldl_nil]
      rw [library]
  | opened url name text version =>
    rw [act, documentOpened]
    split
    · exact ⟨[.openDocument (.ofUrl url) text version], rfl⟩
    · exact ⟨[], rfl⟩
  | changed url edits version =>
    exact ⟨[.changeDocument (.ofUrl url) edits version], by rw [act, workspace_schedule]; rfl⟩
  | saved url => exact ⟨[], by rw [act, workspace_schedule]; rfl⟩
  | closed url => exact ⟨[.closeDocument (.ofUrl url)], rfl⟩
  | filesChanged changes => exact s.filesChanged_actions changes
  | filesDeleted ids => exact ⟨ids.map .deleteUnder, by rw [List.foldl_map]; rfl⟩
  | filesMoved moves =>
    exact ⟨moves.map fun m => .renameUnder m.1 m.2, by rw [List.foldl_map]; rfl⟩
  | settingsChanged change => exact s.settingsChanged_actions change

/-! ## Events -/

/-- A notice, and the files as they are when it comes. -/
structure Event where
  files : FileTree
  notice : Notice

/-- The service with other files around it. -/
def withFiles (s : Service) (files : FileTree) : Service :=
  { s with host := { s.host with files := files } }

/-- The service after an event. -/
def meet (s : Service) (e : Event) : Service :=
  ((s.withFiles e.files).act e.notice).1

/-- The service after events in order. -/
def runEvents (s : Service) (events : List Event) : Service :=
  events.foldl meet s

/-- What every action keeps, every event keeps. -/
theorem runEvents_induct {P : Workspace → Prop} (step : ∀ w a, P w → P (Workspace.act w a))
    {s : Service} (start : P s.workspace) (events : List Event) :
    P (s.runEvents events).workspace := by
  induction events generalizing s with
  | nil => exact start
  | cons e events ih =>
    obtain ⟨actions, eq⟩ := (s.withFiles e.files).exists_actions e.notice
    have kept : P (actions.foldl Workspace.act s.workspace) :=
      List.foldlRecOn actions Workspace.act start fun w hw a _ => step w a hw
    refine ih (s := s.meet e) ?_
    rw [meet, eq]
    exact kept

end C3Lens.Service
