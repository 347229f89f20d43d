import C3Lens.Message.Shape

/-!
# Shapes of parts of messages

What the parameters of many methods are made of: documents, positions, edits, problems and
what may be written at a position.
-/

namespace C3Lens.Shape

open C3Lens.Field

/-! ## Places -/

/-- A line and a column. -/
def position : Shape := rowed [needed "line" unsigned, needed "character" unsigned]

/-- A range of positions. -/
def range : Shape := rowed [needed "start" position, needed "end" position]

/-- A range of a document. -/
def location : Shape := rowed [needed "uri" .url, needed "range" range]

/-- A document. -/
def document : Shape := rowed [needed "uri" .url]

/-- A version of a document. -/
def versionedDocument : Shape := rowed [needed "uri" .url, needed "version" signed]

/-- The members of parameters that are about a document. -/
def inDocument : List Field := [needed "textDocument" document]

/-- The members of parameters that are about a position of a document. -/
def atPosition : List Field := inDocument ++ [needed "position" position]

/-- A folder of the workspace. -/
def folder : Shape := rowed [needed "uri" .url, needed "name" .text]

/-! ## Progress -/

/-- A number or a text. -/
def numberOrText : Shape := .either signed .text

/-- The member that asks for reports on the progress. -/
def progress : List Field := [optional "workDoneToken" numberOrText]

/-- The members that ask for reports on the progress and for partial results. -/
def streamed : List Field := progress ++ [optional "partialResultToken" numberOrText]

/-! ## Texts and edits -/

/-- The kinds of texts that are shown. -/
def markupKind : Shape := .word ["plaintext", "markdown"]

/-- A text that is shown. -/
def markup : Shape := rowed [needed "kind" markupKind, needed "value" .text]

/-- A text that is shown, of a kind that may be told. -/
def documentation : Shape := .either .text markup

/-- A command that the editor can run. -/
def command : Shape :=
  rowed [needed "title" .text, needed "command" .text, optional "arguments" (.list .any)]

/-- The members of an edit. -/
def editFields : List Field := [needed "range" range, needed "newText" .text]

/-- An edit. -/
def edit : Shape := rowed editFields

/-- A change of the text of an open document. -/
def contentChange : Shape :=
  rowed [optional "range" range, optional "rangeLength" unsigned, needed "text" .text]

/-- Edits of a version of a document. -/
def documentEdits : Shape :=
  rowed [
    needed "textDocument" (rowed [needed "uri" .url, optional "version" signed]),
    needed "edits" (.list (.either edit (plain (editFields ++ [needed "annotationId" .text]))))]

/-- Truth values that go with an operation on a file. -/
def fileOptions (names : List String) : Field := optional "options" (rowed (names.map flag))

/-- An operation on a file. Its kind goes before its other members. -/
def fileOperation (kind : String) (fields : List Field) : Shape :=
  rowed (needed "kind" (.word [kind]) :: fields)

/-- What creates, renames or deletes a file. -/
def anyFileOperation : Shape :=
  .either
    (fileOperation "create"
      [needed "uri" .url, fileOptions ["overwrite", "ignoreIfExists"],
        optional "annotationId" .text])
    (.either
      (fileOperation "rename"
        [needed "oldUri" .url, needed "newUri" .url,
          fileOptions ["overwrite", "ignoreIfExists"], optional "annotationId" .text])
      (fileOperation "delete"
        [needed "uri" .url,
          optional "options" (rowed [flag "recursive", flag "ignoreIfNotExists",
            optional "annotationId" .text])]))

/-- A note on edits. -/
def annotation : Shape :=
  rowed [needed "label" .text, flag "needsConfirmation", optional "description" .text]

/-- Edits of several documents. -/
def workspaceEdit : Shape :=
  rowed [
    optional "changes" (.dictionary true (.list edit)),
    optional "documentChanges"
      (.either (.list documentEdits) (.list (.either anyFileOperation documentEdits))),
    optional "changeAnnotations" (.dictionary false annotation)]

/-! ## Problems and actions -/

/-- A problem of a document. -/
def problem : Shape :=
  rowed [
    needed "range" range, optional "severity" signed, optional "code" numberOrText,
    optional "codeDescription" (rowed [needed "href" .url]), optional "source" .text,
    needed "message" .text,
    optional "relatedInformation"
      (.list (rowed [needed "location" location, needed "message" .text])),
    optional "tags" (.list signed), optional "data" .any]

/-- The circumstances in which actions are asked for. -/
def actionContext : Shape :=
  rowed [
    needed "diagnostics" (.list problem), optional "only" (.list .text),
    optional "triggerKind" signed]

/-- An action on code. -/
def action : Shape :=
  rowed [
    needed "title" .text, optional "kind" .text, optional "diagnostics" (.list problem),
    optional "edit" workspaceEdit, optional "command" command, flag "isPreferred",
    optional "disabled" (rowed [needed "reason" .text]), optional "data" .any]

/-! ## Symbols -/

/-- A member of a hierarchy of symbols. -/
def hierarchyItem (tags : Shape) : Shape :=
  rowed [
    needed "name" .text, needed "kind" signed, optional "tags" tags, optional "detail" .text,
    needed "uri" .url, needed "range" range, needed "selectionRange" range, optional "data" .any]

/-- A symbol of the workspace. -/
def workspaceSymbol : Shape :=
  rowed [
    needed "name" .text, needed "kind" signed, optional "tags" (.list signed),
    optional "containerName" .text, needed "location" (.either location document),
    optional "data" .any]

/-! ## Completions, signatures and hints -/

/-- What may be written at a position. -/
def completion : Shape :=
  rowed [
    needed "label" .text,
    optional "labelDetails" (rowed [optional "detail" .text, optional "description" .text]),
    optional "kind" signed, optional "detail" .text, optional "documentation" documentation,
    flag "deprecated", flag "preselect", optional "sortText" .text, optional "filterText" .text,
    optional "insertText" .text, optional "insertTextFormat" signed,
    optional "insertTextMode" signed,
    optional "textEdit" (.either edit
      (rowed [needed "newText" .text, needed "insert" range, needed "replace" range])),
    optional "additionalTextEdits" (.list edit), optional "command" command,
    optional "commitCharacters" (.list .text), optional "data" .any,
    optional "tags" (.list signed)]

/-- A parameter of a signature. -/
def parameter : Shape :=
  rowed [
    needed "label" (.either .text (.tuple 2 unsigned)), optional "documentation" documentation]

/-- A signature. -/
def signature : Shape :=
  rowed [
    needed "label" .text, optional "documentation" documentation,
    optional "parameters" (.list parameter), optional "activeParameter" unsigned]

/-- The signatures that are shown. -/
def signatures : Shape :=
  rowed [
    needed "signatures" (.list signature), optional "activeSignature" unsigned,
    optional "activeParameter" unsigned]

/-- A part of a hint in the text. -/
def hintPart : Shape :=
  rowed [
    needed "value" .text, optional "tooltip" documentation, optional "location" location,
    optional "command" command]

/-- A hint in the text. -/
def hint : Shape :=
  rowed [
    needed "position" position, needed "label" (.either .text (.list hintPart)),
    optional "kind" signed, optional "textEdits" (.list edit),
    optional "tooltip" documentation, flag "paddingLeft", flag "paddingRight",
    optional "data" .any]

/-! ## Documents as a whole -/

/-- A link in a document. -/
def link : Shape :=
  rowed [
    needed "range" range, optional "target" .url, optional "tooltip" .text, optional "data" .any]

/-- A command that is shown in a document. -/
def lens : Shape :=
  rowed [needed "range" range, optional "command" command, optional "data" .any]

/-- A color. -/
def color : Shape :=
  rowed (["red", "green", "blue", "alpha"].map (needed · .number))

/-- How a document is to be formatted. Other members say more about it. -/
def formatting : Shape :=
  .openRecord [
    needed "tabSize" unsigned, needed "insertSpaces" .bool, flag "trimTrailingWhitespace",
    flag "insertFinalNewline", flag "trimFinalNewlines"]
    (.either .bool numberOrText)

end C3Lens.Shape
