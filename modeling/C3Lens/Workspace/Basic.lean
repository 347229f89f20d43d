import C3Lens.Compiler.Report
import C3Lens.Document.Basic
import C3Lens.Library.Cache
import C3Lens.Workspace.NameIndex
import C3Lens.Workspace.SymbolStore

/-!
# The workspace

All that is known about the sources of a workspace: documents, symbols, the index of qualified
names, the problems that the compiler reported, and the standard library. A document that the
editor has open is never replaced by the file of its name.
-/

namespace C3Lens

/-- The state of a workspace. -/
structure Workspace where
  /-- Documents under their ids. -/
  documents : Table Document := .empty
  symbols : SymbolStore := .empty
  names : NameIndex := .empty
  /-- What the compiler said about each document. -/
  reports : Table (List Diagnostic) := .empty
  /-- The version of the language. -/
  version? : Option String := none
  /-- The document of the standard library. -/
  library? : Option DocId := none
deriving Inhabited

namespace Workspace

/-- The workspace without documents. -/
def empty : Workspace := {}

/-- The document of an id. -/
def document? (w : Workspace) (doc : DocId) : Option Document :=
  w.documents.get? doc.text

/-- Whether the editor has the document open. -/
def isOpen (w : Workspace) (doc : DocId) : Bool :=
  (w.document? doc).any (·.ownedByEditor)

/-! ## Documents -/

/-- Reads the symbols of a document again, from its current text. -/
def refresh (w : Workspace) (doc : DocId) : Workspace :=
  match w.document? doc with
  | none => w
  | some d =>
    let (unit, pending) := outline doc d.lines d.parse.tree
    { w with
      names := (w.names.clear doc).insertUnit unit
      symbols := w.symbols.register unit pending }

/-- Puts a document in the place of the one of its id. -/
def setDocument (w : Workspace) (d : Document) : Workspace :=
  { w with documents := w.documents.insert d.id.text d }

/-- The editor opens a document. -/
def openDocument (w : Workspace) (doc : DocId) (text : String) (version : Int) : Workspace :=
  (w.setDocument { Document.ofText doc text version with ownedByEditor := true }).refresh doc

/-- Takes over the text of a file. -/
def indexDocument (w : Workspace) (doc : DocId) (text : String) : Workspace :=
  if w.isOpen doc then w else (w.setDocument (Document.ofText doc text 0)).refresh doc

/-- The editor changes a document. -/
def changeDocument (w : Workspace) (doc : DocId) (edits : List Edit) (version : Int) : Workspace :=
  match w.document? doc with
  | none => w
  | some d => (w.setDocument (d.applyEdits edits version)).refresh doc

/-- The editor closes a document. Its symbols stay. -/
def closeDocument (w : Workspace) (doc : DocId) : Workspace :=
  { w with documents := w.documents.modify doc.text ({ · with ownedByEditor := false }) }

/-- Forgets a document. -/
def deleteDocument (w : Workspace) (doc : DocId) : Workspace :=
  { w with
    documents := w.documents.erase doc.text
    symbols := w.symbols.delete doc
    names := w.names.clear doc
    reports := w.reports.erase doc.text }

/-- The registered documents in or below a directory. -/
def docsUnder (w : Workspace) (directory : String) : List DocId :=
  w.symbols.docs.filter (·.isUnder directory)

/-- Forgets all documents in or below a directory. -/
def deleteUnder (w : Workspace) (directory : String) : Workspace :=
  (w.docsUnder directory).foldl deleteDocument w

/-- Moves a document to another id. -/
def renameDocument (w : Workspace) (old new : DocId) : Workspace :=
  let symbols := w.symbols.rename old new
  let names := w.names.clear old
  { w with
    documents := match w.document? old with
      | some d => (w.documents.erase old.text).insert new.text { d with id := new }
      | none => w.documents
    symbols := symbols
    names := if w.symbols.contains old then
        ((symbols.unit? new).map names.insertUnit).getD names
      else names
    reports := match w.reports.get? old.text with
      | some found => (w.reports.erase old.text).insert new.text found
      | none => w.reports }

/-- Moves all documents in or below a directory to another one. -/
def renameUnder (w : Workspace) (old new : String) : Workspace :=
  let old := Text.trimRight (· == '/') old
  let new := Text.trimRight (· == '/') new
  (w.docsUnder old).foldl (fun w doc =>
    w.renameDocument doc ⟨new ++ (Text.afterStart? old doc.text).getD ""⟩) w

/-! ## Files -/

/-- Why files could not be loaded. -/
inductive LoadError where
  | noFolder (path : String)
  | walk (path : String) (cause : FileError)
  | file (path : String) (cause : FileError)
  | several (causes : List (String × FileError))
deriving DecidableEq, Inhabited

namespace LoadError

/-- A path with what is wrong with its file. -/
def line (path : String) (cause : FileError) : String :=
  path ++ ": " ++ cause.message

/-- The text of the error. -/
def message : LoadError → String
  | .noFolder path => "Directory not found: " ++ path
  | .walk path cause => path ++ ": IO error for operation on " ++ line path cause
  | .file path cause => line path cause
  | .several causes =>
    "Failed to load " ++ toString causes.length ++ " file(s):\n  " ++
      "\n  ".intercalate (causes.map fun c => line c.1 c.2)

end LoadError

/-- Loads a file. -/
def loadFile (w : Workspace) (files : FileTree) (path : String) : Except FileError Workspace :=
  let doc := DocId.ofPath path
  if w.isOpen doc then .ok w else (files.text path).map (w.indexDocument doc)

/-- The source files at and below a path. -/
def sourcesIn (files : FileTree) (path : String) : Except LoadError (List String) :=
  (files.sources path).mapError (.walk path)

/-- Loads files in order; the result is also what could not be loaded. -/
def loadFiles (files : FileTree) :
    List String → Workspace → Workspace × List (String × FileError)
  | [], w => (w, [])
  | path :: paths, w =>
    match w.loadFile files path with
    | .ok w => loadFiles files paths w
    | .error cause =>
      let (w, causes) := loadFiles files paths w
      (w, (path, cause) :: causes)

/-- Loads all source files in a folder. -/
def loadFolder (w : Workspace) (files : FileTree) (path : String) :
    Workspace × Except LoadError Unit :=
  if files.isFolder path then
    match sourcesIn files path with
    | .error e => (w, .error e)
    | .ok paths =>
      match loadFiles files paths w with
      | (w, []) => (w, .ok ())
      | (w, causes) => (w, .error (.several causes))
  else (w, .error (.noFolder path))

/-! ## The standard library -/

/-- Forgets the standard library. -/
def dropLibrary (w : Workspace) : Workspace :=
  match w.library? with
  | none => w
  | some doc =>
    { w with symbols := w.symbols.delete doc, names := w.names.clear doc, library? := none }

/-- Puts the standard library of a version in the place of the one before. A library that was
read from its sources is written to the cache. -/
def setVersion (w : Workspace) (files : FileTree) (version : String) (root? cache? : Option String) :
    Workspace × FileTree :=
  let w := w.dropLibrary
  let loaded := Library.load files version root? cache?
  let doc := loaded.unit.doc
  let w := { w with
    names := w.names.insertUnit loaded.unit
    symbols := w.symbols.register loaded.unit loaded.pending
    version? := some version
    library? := some doc }
  let written := do
    let folder ← if loaded.origin == Library.Origin.sources then cache? else none
    let unit ← w.symbols.unit? doc
    (Library.writeCache files folder version unit).toOption
  (w, (written.map Prod.fst).getD files)

/-! ## Names -/

/-- The declaration that an entry of the index stands for. -/
def symbolAt? (w : Workspace) (l : SymbolLocation) : Option Symbol := do
  let unit ← w.symbols.unit? l.unit
  let m ← unit.module? l.modulePath.text
  if l.kind == .module then return .module m
  m.child? l.name

/-! ## Reports of the compiler -/

/-- What the compiler said about a document. -/
def reportOf (w : Workspace) (doc : DocId) : List Diagnostic :=
  (w.reports.get? doc.text).getD []

/-- Takes over a report. The result is also the documents that the compiler has nothing more
to say about. -/
def setReports (w : Workspace) (reports : Table (List Diagnostic)) : Workspace × List DocId :=
  ({ w with reports := reports },
    ((w.reports.names.filter fun name => !reports.contains name).map DocId.mk))

/-- Forgets all that the compiler said, and about which documents. -/
def clearReports (w : Workspace) : Workspace × List DocId :=
  w.setReports .empty

end Workspace

end C3Lens
