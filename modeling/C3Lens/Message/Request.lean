import C3Lens.Message.Parameters

/-!
# Requests and notices of the editor

A request begins or ends the session, or asks about a position of a document. It is refused if
it is not known, if its parameters do not have the shape of its method, or if it comes at the
wrong time.

A notice tells what happened to documents, files and settings. It needs no answer; one that is
not known or cannot be read does not count.
-/

namespace C3Lens

/-- What the editor may ask about a position of a document. -/
inductive Question where
  | declaration | hover | completion | signature | implementation
deriving DecidableEq, Inhabited

/-- What the editor says when a session begins. -/
structure Start where
  /-- The folder of the workspace. -/
  root? : Option Url
  /-- A change of the settings. -/
  options? : Option Json
deriving Inhabited

/-- A request of the editor. -/
inductive Request where
  | start (start : Start)
  | ask (question : Question) (doc : Url) (position : Position)
deriving Inhabited

/-- Why a request is refused. -/
inductive Refusal where
  | unknownMethod
  | badParameters
  /-- The session has not begun. -/
  | notStarted
  /-- The session has begun already, or is over. -/
  | untimely
  /-- The method stands for a notice, which is not answered. -/
  | notice
deriving DecidableEq, Inhabited

/-- The number of a refusal. -/
def Refusal.code : Refusal → Int
  | .unknownMethod => -32601
  | .badParameters => -32602
  | .notStarted => -32002
  | .untimely | .notice => -32600

/-- What is wrong with a refused request. -/
def Refusal.message : Refusal → String
  | .unknownMethod => "Method not found"
  | .badParameters => "Invalid params"
  | .notStarted => "Server not initialized"
  | .untimely | .notice => "Invalid request"

namespace Question

/-- The question that a method asks. -/
def ofMethod? : String → Option Question
  | "textDocument/declaration" | "textDocument/definition" => some .declaration
  | "textDocument/hover" => some .hover
  | "textDocument/completion" => some .completion
  | "textDocument/signatureHelp" => some .signature
  | "textDocument/implementation" => some .implementation
  | _ => none

end Question

namespace Request

open Message

/-- The method that begins a session. -/
def startMethod : String := "initialize"

/-- The method that ends a session. -/
def shutdownMethod : String := "shutdown"

/-- Whether a method stands for a request of the protocol. -/
def isKnown (method : String) : Bool :=
  method == shutdownMethod || (Shape.ofRequest? method).isSome

/-- Whether this server leaves an unknown method without an answer: those that a server may
choose to know. -/
def isOptional (method : String) : Bool :=
  method.startsWith "$/"

/-- Brings parameters into their usual form; `none` if they are not what the method asks for. -/
def parameters? (method : String) (parameters? : Option Json) : Option Json := do
  (← Shape.ofRequest? method).fit? (← parameters?)

/-- Reads how a session begins. The first of the workspace's folders is its root, or else the
root that is named alone. -/
def start? (j : Json) : Option Start := do
  let alone? ← optional? "rootUri" url? j
  let folders? ← optional? "workspaceFolders" (Json.itemsOf? (field? "uri" url?)) j
  let options? ← optional? "initializationOptions" some j
  return ⟨(folders?.bind List.head?) <|> alone?, options?⟩

/-- Reads a question about a position of a document. -/
def ask? (question : Question) (j : Json) : Option Request := do
  return .ask question (← document? j) (← field? "position" position? j)

/-- Reads a request that this server answers from its parameters in usual form. -/
def read? (method : String) (j : Json) : Option Request :=
  if method = startMethod then (start? j).map .start
  else do ask? (← Question.ofMethod? method) j

end Request

/-! ## Notices -/

/-- What happened to a file. -/
inductive FileChange where
  | written (doc : Url)
  | deleted (doc : Url)
deriving DecidableEq, Inhabited

/-- A notice of the editor. -/
inductive Notice where
  /-- The editor is ready to work. -/
  | ready
  | opened (doc : Url) (language text : String) (version : Int)
  | changed (doc : Url) (edits : List Edit) (version : Int)
  | saved (doc : Url)
  | closed (doc : Url)
  | filesChanged (changes : List FileChange)
  /-- Files or folders that were deleted. -/
  | filesDeleted (ids : List String)
  /-- Files or folders that were moved, with their old and new ids. -/
  | filesMoved (moves : List (String × String))
  | settingsChanged (change : Json)
deriving Inhabited

namespace Notice

open Message

/-- The number that stands for a deleted file. -/
def deletedNumber : Int := 3

/-- Reads what happened to a file. -/
def fileChange? (j : Json) : Option FileChange := do
  let doc ← field? "uri" url? j
  let number ← field? "type" version? j
  return if number = deletedNumber then .deleted doc else .written doc

/-- Reads that a document was opened. -/
def opened? (j : Json) : Option Notice :=
  field? "textDocument" (fun d => do
    return .opened (← field? "uri" url? d) (← field? "languageId" Json.string? d)
      (← field? "text" Json.string? d) (← field? "version" version? d)) j

/-- Reads that a document was changed. -/
def changed? (j : Json) : Option Notice := do
  let doc ← document? j
  let version ← field? "textDocument" (field? "version" version?) j
  return .changed doc (← field? "contentChanges" (Json.itemsOf? edit?) j) version

/-- Reads the old and the new id of what was moved. -/
def move? (j : Json) : Option (String × String) := do
  return (← field? "oldUri" Json.string? j, ← field? "newUri" Json.string? j)

/-- Reads a notice of a method from its parameters in usual form. -/
def ofParameters? (method : String) (j : Json) : Option Notice :=
  match method with
  | "initialized" => some .ready
  | "textDocument/didOpen" => opened? j
  | "textDocument/didChange" => changed? j
  | "textDocument/didSave" => (document? j).map .saved
  | "textDocument/didClose" => (document? j).map .closed
  | "workspace/didChangeWatchedFiles" =>
    (field? "changes" (Json.itemsOf? fileChange?) j).map .filesChanged
  | "workspace/didDeleteFiles" =>
    (field? "files" (Json.itemsOf? (field? "uri" Json.string?)) j).map .filesDeleted
  | "workspace/didRenameFiles" =>
    (field? "files" (Json.itemsOf? move?) j).map .filesMoved
  | "workspace/didChangeConfiguration" => (field? "settings" some j).map .settingsChanged
  | _ => none

/-- The method with which the editor lets go of the server. -/
def exitMethod : String := "exit"

/-- The method with which the editor takes a request back. -/
def cancelMethod : String := "$/cancelRequest"

/-- Whether a method stands for a notice of the protocol. -/
def isKnown (method : String) : Bool :=
  (Shape.ofNotice? method).isSome

/-- Reads a notice. -/
def read? (method : String) (parameters? : Option Json) : Option Notice := do
  ofParameters? method (← (← Shape.ofNotice? method).fit? (← parameters?))

end Notice

end C3Lens
