import C3Lens.Message.Parts

/-!
# What an editor can do

When a session begins, the editor tells what it can do. The server has no use for it, but
refuses to begin if it is malformed.
-/

namespace C3Lens.Shape

open C3Lens.Field

/-- An ability that may be announced later, with more truth values. -/
def ability (flags : List String) : Shape :=
  rowed ((("dynamicRegistration" :: flags)).map flag)

/-- An ability with a single truth value. -/
def refreshing : Shape := rowed [flag "refreshSupport"]

/-- The choices that an editor knows. -/
def choices (item : Shape) : Shape := rowed [optional "valueSet" (.list item)]

/-- The choices that an editor must tell. -/
def toldChoices (item : Shape) : Shape := rowed [needed "valueSet" (.list item)]

/-- Names of members that can be told later. -/
def laterMembers : Shape := rowed [needed "properties" (.list .text)]

/-- The tags that an editor knows; a truth value stands for all or none. -/
def tags : Field :=
  .mk "tagSupport" .defaulted (.either .nothing (.either .bool (toldChoices signed)))

/-- What an editor can do with a workspace. -/
def workspaceAbilities : Shape :=
  rowed [
    flag "applyEdit",
    optional "workspaceEdit" (rowed [
      flag "documentChanges",
      optional "resourceOperations" (.list (.word ["create", "rename", "delete"])),
      optional "failureHandling"
        (.word ["abort", "transactional", "textOnlyTransactional", "undo"]),
      flag "normalizesLineEndings",
      optional "changeAnnotationSupport" (rowed [flag "groupsOnLabel"])]),
    optional "didChangeConfiguration" (ability []),
    optional "didChangeWatchedFiles" (ability ["relativePatternSupport"]),
    optional "symbol" (rowed [
      flag "dynamicRegistration", optional "symbolKind" (choices signed), tags,
      optional "resolveSupport" laterMembers]),
    optional "executeCommand" (ability []),
    flag "workspaceFolders",
    flag "configuration",
    optional "semanticTokens" refreshing,
    optional "codeLens" refreshing,
    optional "fileOperations" (ability
      ["didCreate", "willCreate", "didRename", "willRename", "didDelete", "willDelete"]),
    optional "inlineValue" refreshing,
    optional "inlayHint" refreshing,
    optional "diagnostic" refreshing]

/-- What an editor can do with completions. -/
def completionAbilities : Shape :=
  rowed [
    flag "dynamicRegistration",
    optional "completionItem" (rowed [
      flag "snippetSupport", flag "commitCharactersSupport",
      optional "documentationFormat" (.list markupKind), flag "deprecatedSupport",
      flag "preselectSupport", tags, flag "insertReplaceSupport",
      optional "resolveSupport" laterMembers,
      optional "insertTextModeSupport" (toldChoices signed), flag "labelDetailsSupport"]),
    optional "completionItemKind" (choices signed),
    flag "contextSupport",
    optional "insertTextMode" signed,
    optional "completionList" (rowed [optional "itemDefaults" (.list .text)])]

/-- What an editor can do with signatures. -/
def signatureAbilities : Shape :=
  rowed [
    flag "dynamicRegistration",
    optional "signatureInformation" (rowed [
      optional "documentationFormat" (.list markupKind),
      optional "parameterInformation" (rowed [flag "labelOffsetSupport"]),
      flag "activeParameterSupport"]),
    flag "contextSupport"]

/-- What an editor can do with actions on code. -/
def actionAbilities : Shape :=
  rowed [
    flag "dynamicRegistration",
    optional "codeActionLiteralSupport"
      (rowed [needed "codeActionKind" (toldChoices .text)]),
    flag "isPreferredSupport", flag "disabledSupport", flag "dataSupport",
    optional "resolveSupport" laterMembers, flag "honorsChangeAnnotations"]

/-- What an editor can do with folded ranges. -/
def foldingAbilities : Shape :=
  rowed [
    flag "dynamicRegistration", optional "rangeLimit" unsigned, flag "lineFoldingOnly",
    optional "foldingRangeKind" (choices (.word ["comment", "imports", "region"])),
    optional "foldingRange" (rowed [flag "collapsedText"])]

/-- What an editor can do with tokens that are told apart by their meaning. -/
def tokenAbilities : Shape :=
  rowed [
    flag "dynamicRegistration",
    needed "requests" (rowed [
      flag "range", optional "full" (.either .bool (plain [flag "delta"]))]),
    needed "tokenTypes" (.list .text), needed "tokenModifiers" (.list .text),
    needed "formats" (.list .text), flag "overlappingTokenSupport",
    flag "multilineTokenSupport", flag "serverCancelSupport", flag "augmentsSyntaxTokens"]

/-- What an editor can do with documents. -/
def documentAbilities : Shape :=
  rowed [
    optional "synchronization" (ability ["willSave", "willSaveWaitUntil", "didSave"]),
    optional "completion" completionAbilities,
    optional "hover"
      (rowed [flag "dynamicRegistration", optional "contentFormat" (.list markupKind)]),
    optional "signatureHelp" signatureAbilities,
    optional "references" (ability []),
    optional "documentHighlight" (ability []),
    optional "documentSymbol" (rowed [
      flag "dynamicRegistration", optional "symbolKind" (choices signed),
      flag "hierarchicalDocumentSymbolSupport", tags]),
    optional "formatting" (ability []),
    optional "rangeFormatting" (ability []),
    optional "onTypeFormatting" (ability []),
    optional "declaration" (ability ["linkSupport"]),
    optional "definition" (ability ["linkSupport"]),
    optional "typeDefinition" (ability ["linkSupport"]),
    optional "implementation" (ability ["linkSupport"]),
    optional "codeAction" actionAbilities,
    optional "codeLens" (ability []),
    optional "documentLink" (ability ["tooltipSupport"]),
    optional "colorProvider" (ability []),
    optional "rename" (rowed [
      flag "dynamicRegistration", flag "prepareSupport",
      optional "prepareSupportDefaultBehavior" signed, flag "honorsChangeAnnotations"]),
    optional "publishDiagnostics" (rowed [
      flag "relatedInformation", tags, flag "versionSupport", flag "codeDescriptionSupport",
      flag "dataSupport"]),
    optional "foldingRange" foldingAbilities,
    optional "selectionRange" (ability []),
    optional "linkedEditingRange" (ability []),
    optional "callHierarchy" (ability []),
    optional "semanticTokens" tokenAbilities,
    optional "moniker" (ability []),
    optional "typeHierarchy" (ability []),
    optional "inlineValue" (ability []),
    optional "inlayHint"
      (rowed [flag "dynamicRegistration", optional "resolveSupport" laterMembers]),
    optional "diagnostic" (ability ["relatedDocumentSupport"])]

/-- What an editor can do with notebooks. -/
def notebookAbilities : Shape :=
  rowed [needed "synchronization" (ability ["executionSummaryReport"])]

/-- What an editor can show in windows of its own. -/
def windowAbilities : Shape :=
  rowed [
    flag "workDoneProgress",
    optional "showMessage" (rowed [
      optional "messageActionItem" (rowed [flag "additionalPropertiesSupport"])]),
    optional "showDocument" (rowed [needed "support" .bool])]

/-- What an editor can do in general. -/
def generalAbilities : Shape :=
  rowed [
    optional "regularExpressions" (rowed [needed "engine" .text, optional "version" .text]),
    optional "markdown" (rowed [
      needed "parser" .text, optional "version" .text, optional "allowedTags" (.list .text)]),
    optional "staleRequestSupport" (rowed [
      needed "cancel" .bool, needed "retryOnContentModified" (.list .text)]),
    optional "positionEncodings" (.list .text)]

/-- All that an editor can do. -/
def abilities : Shape :=
  rowed [
    optional "workspace" workspaceAbilities,
    optional "textDocument" documentAbilities,
    optional "notebookDocument" notebookAbilities,
    optional "window" windowAbilities,
    optional "general" generalAbilities,
    optional "experimental" .any]

/-- How a session begins. -/
def start : Shape :=
  rowed [
    optional "processId" unsigned,
    optional "rootPath" .text,
    optional "rootUri" .url,
    optional "initializationOptions" .any,
    needed "capabilities" abilities,
    optional "trace" (.word ["off", "messages", "verbose"]),
    optional "workspaceFolders" (.list folder),
    optional "clientInfo" (rowed [needed "name" .text, optional "version" .text]),
    optional "locale" .text]

end C3Lens.Shape
