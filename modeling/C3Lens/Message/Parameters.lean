import C3Lens.Files.Url
import C3Lens.Json.Basic
import C3Lens.Message.Client
import C3Lens.Text.Line

/-!
# Shapes of parameters

The parameters of the methods of the protocol. A method without a shape is none of the
protocol.
-/

namespace C3Lens.Shape

open C3Lens.Field

/-- The members of requests about a position whose results may come in parts. -/
def placeFields : List Field := atPosition ++ streamed

/-- A request about a position that gives its results at once. -/
def atOnce : Shape := plain (atPosition ++ progress)

/-- A request about a position whose results may come in parts. -/
def inParts : Shape := plain placeFields

/-- A request about a whole document whose results may come in parts. -/
def wholeDocument (more : List Field) : Shape := plain (inDocument ++ more ++ streamed)

/-- A request about a member of a hierarchy. -/
def hierarchy (tags : Shape) : Shape := plain (needed "item" (hierarchyItem tags) :: streamed)

/-- Files that the editor creates or deletes. -/
def files : Shape := rowed [needed "files" (.list (rowed [needed "uri" .text]))]

/-- Files that the editor moves. -/
def movedFiles : Shape :=
  rowed [needed "files" (.list (rowed [needed "oldUri" .text, needed "newUri" .text]))]

/-- A document that is about to be saved. -/
def saving : Shape := rowed (inDocument ++ [needed "reason" signed])

/-- The parameters of the requests that this server answers. -/
def ofOffered? : String → Option Shape
  | "initialize" => some start
  | "textDocument/declaration" | "textDocument/definition" | "textDocument/implementation" =>
    some inParts
  | "textDocument/hover" => some atOnce
  | "textDocument/completion" => some (plain (placeFields ++ [
      optional "context"
        (rowed [needed "triggerKind" signed, optional "triggerCharacter" .text])]))
  | "textDocument/signatureHelp" => some (plain (atPosition ++ progress ++ [
      optional "context" (rowed [
        needed "triggerKind" signed, optional "triggerCharacter" .text,
        needed "isRetrigger" .bool, optional "activeSignatureHelp" signatures])]))
  | _ => none

/-- The parameters of requests of the protocol that are about one document and that this server
does not answer. -/
def ofOtherDocument? : String → Option Shape
  | "textDocument/willSaveWaitUntil" => some saving
  | "textDocument/typeDefinition" | "textDocument/documentHighlight" | "textDocument/moniker" =>
    some inParts
  | "textDocument/references" => some (plain (placeFields ++ [
      needed "context" (rowed [needed "includeDeclaration" .bool])]))
  | "textDocument/prepareCallHierarchy" | "textDocument/prepareTypeHierarchy" |
    "textDocument/linkedEditingRange" => some atOnce
  | "textDocument/prepareRename" => some (rowed atPosition)
  | "textDocument/rename" => some (plain (atPosition ++ progress ++ [needed "newName" .text]))
  | "textDocument/documentLink" | "textDocument/codeLens" | "textDocument/foldingRange" |
    "textDocument/documentSymbol" | "textDocument/semanticTokens/full" |
    "textDocument/documentColor" => some (wholeDocument [])
  | "textDocument/selectionRange" => some (wholeDocument [needed "positions" (.list position)])
  | "textDocument/semanticTokens/full/delta" =>
    some (wholeDocument [needed "previousResultId" .text])
  | "textDocument/semanticTokens/range" => some (wholeDocument [needed "range" range])
  | "textDocument/codeAction" =>
    some (wholeDocument [needed "range" range, needed "context" actionContext])
  | "textDocument/colorPresentation" =>
    some (wholeDocument [needed "color" color, needed "range" range])
  | "textDocument/diagnostic" =>
    some (wholeDocument [optional "identifier" .text, optional "previousResultId" .text])
  | "textDocument/inlineValue" => some (plain (inDocument ++ progress ++ [
      needed "range" range,
      needed "context" (rowed [needed "frameId" signed, needed "stoppedLocation" range])]))
  | "textDocument/inlayHint" => some (plain (inDocument ++ progress ++ [needed "range" range]))
  | "textDocument/formatting" =>
    some (plain (inDocument ++ progress ++ [needed "options" formatting]))
  | "textDocument/rangeFormatting" =>
    some (plain (inDocument ++ progress ++ [needed "range" range, needed "options" formatting]))
  | "textDocument/onTypeFormatting" =>
    some (plain (atPosition ++ [needed "ch" .text, needed "options" formatting]))
  | _ => none

/-- The parameters of all other requests of the protocol that this server does not answer. -/
def ofOther? : String → Option Shape
  | "callHierarchy/incomingCalls" | "callHierarchy/outgoingCalls" =>
    some (hierarchy (.list signed))
  | "typeHierarchy/supertypes" | "typeHierarchy/subtypes" => some (hierarchy signed)
  | "documentLink/resolve" => some link
  | "codeLens/resolve" => some lens
  | "inlayHint/resolve" => some hint
  | "completionItem/resolve" => some completion
  | "codeAction/resolve" => some action
  | "workspaceSymbol/resolve" => some workspaceSymbol
  | "workspace/symbol" => some (plain (streamed ++ [needed "query" .text]))
  | "workspace/diagnostic" => some (plain (streamed ++ [
      optional "identifier" .text,
      needed "previousResultIds" (.list (rowed [needed "uri" .url, needed "value" .text]))]))
  | "workspace/willCreateFiles" | "workspace/willDeleteFiles" => some files
  | "workspace/willRenameFiles" => some movedFiles
  | "workspace/executeCommand" => some (plain (progress ++ [
      needed "command" .text, .mk "arguments" .defaulted (.list .any)]))
  | _ => none

/-- The parameters of requests, except for the one that ends a session and has none. -/
def ofRequest? (method : String) : Option Shape :=
  (ofOffered? method) <|> (ofOtherDocument? method) <|> ofOther? method

/-- The parameters of the notices of the protocol. -/
def ofNotice? : String → Option Shape
  | "initialized" => some (rowed [])
  | "textDocument/didOpen" => some (rowed [needed "textDocument" (rowed [
      needed "uri" .url, needed "languageId" .text, needed "version" signed,
      needed "text" .text])])
  | "textDocument/didChange" => some (rowed [
      needed "textDocument" versionedDocument, needed "contentChanges" (.list contentChange)])
  | "textDocument/willSave" => some saving
  | "textDocument/didSave" => some (rowed (inDocument ++ [optional "text" .text]))
  | "textDocument/didClose" => some (rowed inDocument)
  | "workspace/didChangeConfiguration" => some (rowed [needed "settings" .any])
  | "workspace/didChangeWorkspaceFolders" => some (rowed [needed "event" (rowed [
      needed "added" (.list folder), needed "removed" (.list folder)])])
  | "workspace/didCreateFiles" | "workspace/didDeleteFiles" => some files
  | "workspace/didRenameFiles" => some movedFiles
  | "workspace/didChangeWatchedFiles" => some (rowed [needed "changes" (.list (rowed [
      needed "uri" .url, needed "type" signed]))])
  | "$/cancelRequest" => some (rowed [needed "id" numberOrText])
  | "exit" => some .any
  | _ => none

end C3Lens.Shape

/-!
## Fields of messages

The values that messages of the editor are made of: URLs, positions, ranges and edits. Members
that a message does not need do not count.
-/

namespace C3Lens.Message

/-- Largest line and column that a message can name. -/
def mostPlace : Nat := 4294967295

/-- Reads a URL. -/
def url? (j : Json) : Option Url :=
  j.string?.bind Url.parse?

/-- Reads the member of an object that has to be there. -/
def field? {α : Type} (name : String) (read : Json → Option α) (j : Json) : Option α := do
  Json.Members.required (← j.members?) name read

/-- Reads the member of an object that may be missing or `null`. -/
def optional? {α : Type} (name : String) (read : Json → Option α) (j : Json) :
    Option (Option α) := do
  Json.Members.optional (← j.members?) name read

/-- Reads a position. -/
def position? (j : Json) : Option Position := do
  return ⟨← field? "line" (Json.natUpTo? mostPlace) j,
    ← field? "character" (Json.natUpTo? mostPlace) j⟩

/-- Reads a range. -/
def range? (j : Json) : Option Range := do
  return ⟨← field? "start" position? j, ← field? "end" position? j⟩

/-- Reads the version of a document, an integer of 32 bits. -/
def version? (j : Json) : Option Int :=
  j.int?.filter fun n => -2147483648 ≤ n && n ≤ 2147483647

/-- Reads an edit; without a range it replaces the whole text. -/
def edit? (j : Json) : Option Edit := do
  return ⟨← optional? "range" range? j, ← field? "text" Json.string? j⟩

/-- Reads the URL of the document that a message is about. -/
def document? (j : Json) : Option Url :=
  field? "textDocument" (field? "uri" url?) j

end C3Lens.Message
