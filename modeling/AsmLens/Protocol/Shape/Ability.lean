import AsmLens.Protocol.Shape.Edit

/-!
The shape of what an editor tells about itself when it opens a session. The service uses none of
it, but turns away an editor that does not spell it properly.
-/

namespace AsmLens.Shape

/-- An ability that an editor may register while it runs. -/
def registering : List (String × Presence × Shape) := [may "dynamicRegistration" .flag]

/-- An ability of which no more is told. -/
def plain : Shape := .record registering

/-- An ability to ask again for what a server has said. -/
def refreshing : Shape := .record [may "refreshSupport" .flag]

/-- The numbers that an editor knows. -/
def knownNumbers : Shape := .record [may "valueSet" (.list .signedWord)]

/-- Tags that an editor knows. A flag tells of them as a whole. -/
def tagSupport : Shape :=
  .either .null (.either .flag (.record [must "valueSet" (.list .signedWord)]))

def mayTag : String × Presence × Shape := ("tagSupport", .defaulted, .tagSupport)

/-- The properties that an editor can ask for later. -/
def later : Shape := .record [must "properties" (.list .text)]

def workspaceAbilities : Shape :=
  .record [may "applyEdit" .flag,
    may "workspaceEdit" (.record [may "documentChanges" .flag,
      may "resourceOperations" (.list (.choice ["create", "rename", "delete"])),
      may "failureHandling" (.choice ["abort", "transactional", "textOnlyTransactional", "undo"]),
      may "normalizesLineEndings" .flag,
      may "changeAnnotationSupport" (.record [may "groupsOnLabel" .flag])]),
    may "didChangeConfiguration" .plain,
    may "didChangeWatchedFiles" (.record (registering ++ [may "relativePatternSupport" .flag])),
    may "symbol" (.record (registering ++ [may "symbolKind" .knownNumbers, mayTag,
      may "resolveSupport" .later])),
    may "executeCommand" .plain,
    may "workspaceFolders" .flag,
    may "configuration" .flag,
    may "semanticTokens" .refreshing,
    may "codeLens" .refreshing,
    may "fileOperations" (.record (registering ++ mayFlags ["didCreate", "willCreate", "didRename",
      "willRename", "didDelete", "willDelete"])),
    may "inlineValue" .refreshing,
    may "inlayHint" .refreshing,
    may "diagnostic" .refreshing]

def completionAbilities : Shape :=
  .record (registering ++ [
    may "completionItem" (.record (mayFlags ["snippetSupport", "commitCharactersSupport"] ++ [
      may "documentationFormat" (.list .markupKind), may "deprecatedSupport" .flag,
      may "preselectSupport" .flag, mayTag, may "insertReplaceSupport" .flag,
      may "resolveSupport" .later,
      may "insertTextModeSupport" (.record [must "valueSet" (.list .signedWord)]),
      may "labelDetailsSupport" .flag])),
    may "completionItemKind" .knownNumbers,
    may "contextSupport" .flag,
    may "insertTextMode" .signedWord,
    may "completionList" (.record [may "itemDefaults" (.list .text)])])

def signatureAbilities : Shape :=
  .record (registering ++ [
    may "signatureInformation" (.record [may "documentationFormat" (.list .markupKind),
      may "parameterInformation" (.record [may "labelOffsetSupport" .flag]),
      may "activeParameterSupport" .flag]),
    may "contextSupport" .flag])

def actionAbilities : Shape :=
  .record (registering ++ [
    may "codeActionLiteralSupport" (.record [
      must "codeActionKind" (.record [must "valueSet" (.list .text)])]),
    may "isPreferredSupport" .flag, may "disabledSupport" .flag, may "dataSupport" .flag,
    may "resolveSupport" .later, may "honorsChangeAnnotations" .flag])

def tokenAbilities : Shape :=
  .record (registering ++ [
    must "requests" (.record [may "range" .flag,
      may "full" (.either .flag (.object [may "delta" .flag]))]),
    must "tokenTypes" (.list .text), must "tokenModifiers" (.list .text),
    must "formats" (.list .text)] ++
    mayFlags ["overlappingTokenSupport", "multilineTokenSupport", "serverCancelSupport",
      "augmentsSyntaxTokens"])

def foldingAbilities : Shape :=
  .record (registering ++ [may "rangeLimit" .word, may "lineFoldingOnly" .flag,
    may "foldingRangeKind" (.record [
      may "valueSet" (.list (.choice ["comment", "imports", "region"]))]),
    may "foldingRange" (.record [may "collapsedText" .flag])])

def documentAbilities : Shape :=
  let leading := .record (registering ++ [may "linkSupport" .flag])
  .record [
    may "synchronization" (.record (registering ++
      mayFlags ["willSave", "willSaveWaitUntil", "didSave"])),
    may "completion" .completionAbilities,
    may "hover" (.record (registering ++ [may "contentFormat" (.list .markupKind)])),
    may "signatureHelp" .signatureAbilities,
    may "references" .plain,
    may "documentHighlight" .plain,
    may "documentSymbol" (.record (registering ++ [may "symbolKind" .knownNumbers,
      may "hierarchicalDocumentSymbolSupport" .flag, mayTag])),
    may "formatting" .plain,
    may "rangeFormatting" .plain,
    may "onTypeFormatting" .plain,
    may "declaration" leading,
    may "definition" leading,
    may "typeDefinition" leading,
    may "implementation" leading,
    may "codeAction" .actionAbilities,
    may "codeLens" .plain,
    may "documentLink" (.record (registering ++ [may "tooltipSupport" .flag])),
    may "colorProvider" .plain,
    may "rename" (.record (registering ++ [may "prepareSupport" .flag,
      may "prepareSupportDefaultBehavior" .signedWord, may "honorsChangeAnnotations" .flag])),
    may "publishDiagnostics" (.record [may "relatedInformation" .flag, mayTag,
      may "versionSupport" .flag, may "codeDescriptionSupport" .flag, may "dataSupport" .flag]),
    may "foldingRange" .foldingAbilities,
    may "selectionRange" .plain,
    may "linkedEditingRange" .plain,
    may "callHierarchy" .plain,
    may "semanticTokens" .tokenAbilities,
    may "moniker" .plain,
    may "typeHierarchy" .plain,
    may "inlineValue" .plain,
    may "inlayHint" (.record (registering ++ [may "resolveSupport" .later])),
    may "diagnostic" (.record (registering ++ [may "relatedDocumentSupport" .flag]))]

def windowAbilities : Shape :=
  .record [may "workDoneProgress" .flag,
    may "showMessage" (.record [
      may "messageActionItem" (.record [may "additionalPropertiesSupport" .flag])]),
    may "showDocument" (.record [must "support" .flag])]

def generalAbilities : Shape :=
  .record [
    may "regularExpressions" (.record [must "engine" .text, may "version" .text]),
    may "markdown" (.record [must "parser" .text, may "version" .text,
      may "allowedTags" (.list .text)]),
    may "staleRequestSupport" (.record [must "cancel" .flag,
      must "retryOnContentModified" (.list .text)]),
    may "positionEncodings" (.list .text)]

/-- What an editor can do. -/
def abilities : Shape :=
  .record [may "workspace" .workspaceAbilities, may "textDocument" .documentAbilities,
    may "window" .windowAbilities, may "general" .generalAbilities, may "experimental" .any]

/-- How an editor introduces itself. -/
def introduction : Shape :=
  .record [may "processId" .word, may "rootPath" .text,
    ("rootUri", .defaulted, .either .null .uri), may "initializationOptions" .any,
    must "capabilities" .abilities,
    ("trace", .defaulted, .either .null (.choice ["off", "messages", "verbose"])),
    may "workspaceFolders" (.list (.record [must "uri" .uri, must "name" .text])),
    may "clientInfo" (.record [must "name" .text, may "version" .text]), may "locale" .text]

end AsmLens.Shape
