import C3Lens.Message.Reply
import C3Lens.Message.Request
import C3Lens.Settings
import C3Lens.Workspace.Basic

/-!
# The service

The state of the server between two messages of the editor, and what it finds around it: files,
compilers and a folder for its cache. A session waits for its start, runs, and is over; only a
running session knows a workspace. When the editor has let go of the server, no message counts
any more.
-/

namespace C3Lens

/-- What the server finds around it. -/
structure Host where
  files : FileTree := .empty
  /-- The folder that keeps standard libraries. -/
  cacheFolder? : Option String := none
  /-- What a program prints when it is asked for its version; nothing if it cannot be run. -/
  versionText? : String → Option String := fun _ => none
  /-- What a program says about its build with arguments in a folder; nothing if it cannot be
  run. -/
  buildText? : String → List String → String → Option String := fun _ _ _ => none

/-- How far a session has come. -/
inductive Stage where
  | waiting
  | running
  /-- The session is over, but the editor still holds the server. -/
  | over
  /-- The editor has let go of the server. -/
  | released
deriving DecidableEq, Inhabited

/-- A run of the compiler over the whole workspace. -/
structure Check where
  program : String
  arguments : List String
  root : String
deriving DecidableEq, Inhabited

/-- The state of the server. -/
structure Service where
  host : Host
  /-- The version of the language on the command line, which goes before all others. -/
  versionOption? : Option String := none
  stage : Stage := .waiting
  workspace : Workspace := .empty
  /-- The folder of the workspace. -/
  root? : Option String := none
  settings : Settings := {}
  /-- The version that the compiler told. -/
  told? : Option String := none
  /-- The check that is to be made next. -/
  scheduled? : Option Check := none
  /-- Whether the compiler turned out to report nothing that can be used. -/
  checksRefused : Bool := false

namespace Service

/-- Whether the editor has let go of the server. -/
def isReleased (s : Service) : Bool :=
  s.stage == .released

/-- Gives up the check that is scheduled. -/
def unschedule (s : Service) : Service :=
  { s with scheduled? := none }

/-- The editor lets go of the server. -/
def release (s : Service) : Service :=
  { s.unschedule with stage := .released }

/-! ## Versions and the standard library -/

/-- The version of the language. -/
def version (s : Service) : String :=
  s.versionOption?.getD (s.settings.version s.told?)

/-- Asks the compiler for its version if nothing else tells the version of the language. -/
def askVersion (s : Service) : Service :=
  if s.versionOption?.isNone && s.settings.compiler.version?.isNone then
    { s with told? := (s.host.versionText? s.settings.compiler.program).bind Compiler.version? }
  else s

/-- Loads the standard library of the version. -/
def loadLibrary (s : Service) : Service :=
  let root? := s.settings.compiler.libraryRoot? s.host.files
  let (workspace, files) :=
    s.workspace.setVersion s.host.files s.version root? s.host.cacheFolder?
  { s with workspace := workspace, host := { s.host with files := files } }

/-- Loads the source files of the workspace, as far as they can be read. -/
def loadSources (s : Service) : Service :=
  match s.root? with
  | some root => { s with workspace := (s.workspace.loadFolder s.host.files root).1 }
  | none => s

/-! ## Settings -/

/-- Takes over a change of the settings, as far as it is well-formed. The result is also whether
it is well-formed and changes anything. -/
def applySettings (s : Service) (change : Json) : Service × Bool :=
  match s.settings.change change with
  | (settings, .ok changed) => ({ s with settings := settings }, changed)
  | (settings, .error _) => ({ s with settings := settings }, false)

/-- Takes over the folder of the workspace and its settings file. -/
def setRoot (s : Service) (root : String) : Service :=
  { s with settings := (s.settings.load s.host.files root).1, root? := some root }

/-- Begins a session. -/
def begin (s : Service) (start : Start) : Service :=
  let s := match start.root?.bind Url.filePath? with
    | some root => s.setRoot root
    | none => s
  let s := match start.options? with
    | some options => (s.applySettings options).1
    | none => s
  { s with stage := .running }

end Service

/-- The document of a URL. -/
def DocId.ofUrl (url : Url) : DocId :=
  ⟨url.text⟩

/-- The URL of a document; what no editor knows has none. -/
def DocId.url? (doc : DocId) : Option Url :=
  Url.parse? doc.text

end C3Lens

/-!
## Checks by the compiler

When a document changes or is saved, a check is scheduled in the place of the one before it.
Its result replaces all earlier reports: the problems of each document are announced, and for
the documents that have no problems any more that there are none.
-/

namespace C3Lens.Service

/-- Schedules a check, if checks are wanted and there is a folder to check. -/
def schedule (s : Service) : Service :=
  match s.root? with
  | none => s
  | some root =>
    if s.settings.checks.enabled && !s.checksRefused then
      let compiler := s.settings.compiler
      { s with scheduled? := some ⟨compiler.program, compiler.arguments, root⟩ }
    else s

/-- Announces that documents have no problems. -/
def announceNone (docs : List DocId) : List Announcement :=
  (docs.filterMap DocId.url?).map (.problems · [])

/-- A problem as it is shown, fitted to the current text of its document. -/
def problemOf (w : Workspace) (doc : DocId) (d : Diagnostic) : Problem :=
  let line? := (w.document? doc).bind fun document => document.lines.lineText? d.line
  ⟨d.range line?, d.severity, d.message⟩

/-- Announces the problems of documents. -/
def announceAll (w : Workspace) (reports : Table (List Diagnostic)) : List Announcement :=
  reports.entries.filterMap fun (name, found) =>
    let doc : DocId := ⟨name⟩
    doc.url?.map fun url => .problems url (found.map (problemOf w doc))

/-- Forgets all reports. -/
def clearReports (s : Service) : Service × List Announcement :=
  let (w, cleared) := s.workspace.clearReports
  ({ s with workspace := w }, announceNone cleared)

/-- What the user reads when the compiler reports nothing that can be used. -/
def refusalText : String :=
  "c3c does not report diagnostics in LSP format; diagnostics are disabled for this session."

/-- Makes no more checks, because the compiler reports nothing that can be used. The user is
warned once. -/
def refuseChecks (s : Service) : Service × List Announcement :=
  let (t, announced) := s.clearReports
  ({ t with checksRefused := true },
    (if s.checksRefused then [] else [.warning refusalText]) ++ announced)

/-- Takes over what the compiler said in a check of the folder `root`. -/
def takeReport (s : Service) (root output : String) : Service × List Announcement :=
  match Report.parse output with
  | .error .unusable => s.refuseChecks
  | .ok report =>
    let reports := report.byDocument root
    let (w, cleared) := s.workspace.setReports reports
    ({ s with workspace := w }, announceAll s.workspace reports ++ announceNone cleared)

/-- Makes the check that is scheduled. -/
def runCheck (s : Service) : Service × List Announcement :=
  match s.scheduled? with
  | none => (s, [])
  | some check =>
    match s.host.buildText? check.program check.arguments check.root with
    | some output => s.unschedule.takeReport check.root output
    | none => (s.unschedule, [])

end C3Lens.Service
