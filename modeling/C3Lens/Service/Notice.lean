import C3Lens.Message.Request
import C3Lens.Service.Basic

/-!
# What notices do

Notices about documents count only in a running session. The text of an open document comes
from the editor alone; the files on disk count for all others.
-/

namespace C3Lens.Service

/-- Changes the workspace. -/
def mapWorkspace (s : Service) (f : Workspace → Workspace) : Service :=
  { s with workspace := f s.workspace }

/-- The language of the documents that the server knows about. -/
def language : String := "c3"

/-- The editor opened a document. -/
def documentOpened (s : Service) (doc : Url) (name text : String) (version : Int) : Service :=
  if name = language then s.mapWorkspace (·.openDocument (.ofUrl doc) text version) else s

/-- Reads the file of a document again, if it is a source file that can be read. -/
def reloadFile (s : Service) (doc : DocId) : Service :=
  match doc.path? with
  | none => s
  | some path =>
    if Path.isSource path then
      match s.workspace.loadFile s.host.files path with
      | .ok w => { s with workspace := w }
      | .error _ => s
    else s

/-- A file changed on disk. -/
def fileChanged (s : Service) : FileChange → Service
  | .deleted doc => s.mapWorkspace (·.deleteDocument (.ofUrl doc))
  | .written doc => s.reloadFile (.ofUrl doc)

/-- The settings changed. -/
def settingsChanged (s : Service) (change : Json) : Service × List Announcement :=
  let (s, changed) := s.applySettings change
  if changed then
    let (s, announced) := if s.settings.checks.enabled then (s, []) else s.unschedule.clearReports
    (s.loadLibrary, announced)
  else (s, [])

/-- Acts on a notice of a running session. -/
def act (s : Service) : Notice → Service × List Announcement
  | .ready => (s.askVersion.loadLibrary.loadSources, [.watchSources])
  | .opened doc name text version => (s.documentOpened doc name text version, [])
  | .changed doc edits version =>
    ((s.mapWorkspace (·.changeDocument (.ofUrl doc) edits version)).schedule, [])
  | .saved _ => (s.schedule, [])
  | .closed doc => (s.mapWorkspace (·.closeDocument (.ofUrl doc)), [])
  | .filesChanged changes => (changes.foldl fileChanged s, [])
  | .filesDeleted ids => (s.mapWorkspace fun w => ids.foldl Workspace.deleteUnder w, [])
  | .filesMoved moves =>
    (s.mapWorkspace fun w => moves.foldl (fun w m => w.renameUnder m.1 m.2) w, [])
  | .settingsChanged change => s.settingsChanged change

/-- Takes a notice as it was sent. A running session is also over when its end is told instead
of asked for; the check that is scheduled is made then. -/
def notify (s : Service) (method : String) (parameters? : Option Json) :
    Service × List Announcement :=
  if method = Notice.exitMethod then (s.release, [])
  else if s.stage == .running then
    if method = Request.shutdownMethod then ({ s with stage := .over }, [])
    else
      match Notice.read? method parameters? with
      | some notice => s.act notice
      | none => (s, [])
  else (s, [])

end C3Lens.Service
