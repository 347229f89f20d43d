import C3Lens.Answer.Completion
import C3Lens.Answer.Signature
import C3Lens.CommandLine
import C3Lens.Compiler.Report

/-!
# Replies and announcements

What the server replies to a request of the editor, and what it announces by itself. Texts of
replies are Markdown, except those about parameters.
-/

namespace C3Lens

/-- A range of a document to go to. -/
structure Target where
  doc : Url
  range : Range
deriving DecidableEq, Inhabited

/-- A reply to a request. -/
inductive Reply where
  | nothing
  | abilities
  | target (target : Target)
  | targets (targets : List Target)
  | hover (hover : Hover)
  | completions (found : List Completion)
  | signature (help : SignatureHelp)
deriving Inhabited

namespace Message

/-- Writes a position. -/
def ofPosition (p : Position) : Json :=
  .object [("line", .nat p.line), ("character", .nat p.character)]

/-- Writes a range. -/
def ofRange (r : Range) : Json :=
  .object [("start", ofPosition r.start), ("end", ofPosition r.stop)]

/-- Writes a target. -/
def ofTarget (t : Target) : Json :=
  .object [("uri", .string t.doc.text), ("range", ofRange t.range)]

/-- Writes a text in Markdown. -/
def ofMarkdown (text : String) : Json :=
  .object [("kind", .string "markdown"), ("value", .string text)]

/-- Writes what is shown at a position. -/
def ofHover (h : Hover) : Json :=
  .object [("contents", ofMarkdown h.text), ("range", ofRange h.range)]

/-- The number that stands for the kind of what may be written. -/
def kindNumber : SymbolKind → Nat
  | .function => 3
  | .member => 5
  | .variable => 6
  | .interface => 8
  | .module => 9
  | .enum | .fault => 13
  | .enumerator => 20
  | .faultConstant => 21
  | .struct | .union | .bitstruct => 22
  | .alias | .distinct => 25

/-- Writes what may be written at the cursor. -/
def ofCompletion (c : Completion) : Json :=
  .object ([("label", .string c.label), ("kind", .nat (kindNumber c.kind)),
    ("detail", .string c.detail)] ++ Json.ifSome "documentation" ofMarkdown c.documentation?)

/-- Writes a parameter of a signature. -/
def ofParameter (p : ParameterHelp) : Json :=
  .object (("label", .string p.label) :: Json.ifSome "documentation" .string p.documentation?)

/-- Writes a signature, the only one that is shown. -/
def ofSignature (h : SignatureHelp) : Json :=
  let signature := .object (("label", .string h.label) ::
    Json.ifSome "documentation" ofMarkdown h.documentation? ++
    [("parameters", .list ofParameter h.parameters), ("activeParameter", .nat h.active)])
  .object [("signatures", .array [signature]), ("activeSignature", .nat 0),
    ("activeParameter", .nat h.active)]

/-! ## What the server can do -/

/-- Names of source files, in the form in which the editor matches them. -/
def sourcePattern : String := "**/*.\x7bc3,c3i\x7d"

/-- Writes a list of texts. -/
def ofTexts (texts : List String) : Json :=
  .list .string texts

/-- Matches files or folders of the own machine. -/
def fileFilter (pattern matched : String) : Json :=
  .object [("scheme", .string "file"),
    ("pattern", .object [("glob", .string pattern), ("matches", .string matched)])]

/-- Matches source files and folders. -/
def fileFilters : Json :=
  .object [("filters", .array [fileFilter sourcePattern "file", fileFilter "**/*" "folder"])]

/-- What the server can do: it takes single edits, answers all questions, and wants to know of
files that are deleted or moved. -/
def abilities : Json :=
  .object [
    ("textDocumentSync", .object
      [("openClose", .bool true), ("change", .nat 2), ("save", .bool true)]),
    ("hoverProvider", .bool true),
    ("completionProvider", .object [("triggerCharacters", ofTexts [".", ":"])]),
    ("signatureHelpProvider", .object
      [("triggerCharacters", ofTexts ["(", ","]), ("retriggerCharacters", ofTexts [")"])]),
    ("declarationProvider", .bool true),
    ("definitionProvider", .bool true),
    ("implementationProvider", .bool true),
    ("workspace", .object
      [("fileOperations", .object [("didDelete", fileFilters), ("didRename", fileFilters)])])]

/-- The name and the version of the server. -/
def serverInfo : Json :=
  .object [("name", .string CommandLine.programName),
    ("version", .string CommandLine.programVersion)]

end Message

/-- Writes a reply. -/
def Reply.toJson : Reply → Json
  | .nothing => .null
  | .abilities => .object [("capabilities", Message.abilities), ("serverInfo", Message.serverInfo)]
  | .target t => Message.ofTarget t
  | .targets ts => .list Message.ofTarget ts
  | .hover h => Message.ofHover h
  | .completions found => .list Message.ofCompletion found
  | .signature h => Message.ofSignature h

/-!
## Announcements of the server

What the server tells the editor without being asked: the problems of a document, warnings to
the user, and its wish to hear about changed files.
-/

/-- A problem of a document as it is shown. -/
structure Problem where
  range : Range
  severity : Severity
  message : String
deriving DecidableEq, Inhabited

/-- Something that the server tells. -/
inductive Announcement where
  /-- All problems of a document. -/
  | problems (doc : Url) (found : List Problem)
  /-- A warning to the user. -/
  | warning (text : String)
  /-- The wish to hear about source files that change. -/
  | watchSources
deriving Inhabited

namespace Problem

/-- The number that stands for a severity. -/
def severityNumber : Severity → Nat
  | .error => 1
  | .warning => 2
  | .note => 3

/-- Who finds the problems. -/
def origin : String := "c3c"

/-- Writes a problem. -/
def toJson (p : Problem) : Json :=
  .object [("range", Message.ofRange p.range), ("severity", .nat (severityNumber p.severity)),
    ("source", .string origin), ("message", .string p.message)]

end Problem

namespace Announcement

/-- The number that stands for a warning. -/
def warningNumber : Nat := 2

/-- The method of an announcement. -/
def method : Announcement → String
  | .problems _ _ => "textDocument/publishDiagnostics"
  | .warning _ => "window/showMessage"
  | .watchSources => "client/registerCapability"

/-- Whether the editor answers. -/
def isRequest : Announcement → Bool
  | .watchSources => true
  | _ => false

/-- The wish to hear about source files that change. -/
def watchSourcesEntry : Json :=
  .object [("id", .string "c3-source-watcher"),
    ("method", .string "workspace/didChangeWatchedFiles"),
    ("registerOptions", .object
      [("watchers", .array [.object [("globPattern", .string Message.sourcePattern)]])])]

/-- The parameters of an announcement. -/
def parameters : Announcement → Json
  | .problems doc found =>
    .object [("uri", .string doc.text), ("diagnostics", .list Problem.toJson found)]
  | .warning text => .object [("type", .nat warningNumber), ("message", .string text)]
  | .watchSources => .object [("registrations", .array [watchSourcesEntry])]

end Announcement

end C3Lens
