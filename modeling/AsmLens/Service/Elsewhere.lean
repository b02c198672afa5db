import AsmLens.Protocol.Shape.Finding
import AsmLens.Protocol.Shape.Item

/-!
The requests that an editor may know from other servers and that are not answered here, by the
shapes of their parameters.
-/

namespace AsmLens

open Shape (may must ofDocument ofPosition ofRange streaming working)

/-- Requests about the text of a document. -/
def textRequests : List (String × Shape) :=
  let options := must "options" .formatting
  [("textDocument/willSaveWaitUntil", .record (ofDocument ++ [must "reason" .signedWord])),
    ("textDocument/codeAction",
      .object (ofRange ++ [must "context" .actionContext] ++ streaming)),
    ("codeAction/resolve", .action),
    ("textDocument/formatting", .object (ofDocument ++ [options] ++ working)),
    ("textDocument/rangeFormatting", .object (ofRange ++ [options] ++ working)),
    ("textDocument/onTypeFormatting", .object (ofPosition ++ [must "ch" .text, options])),
    ("textDocument/rename", .object (ofPosition ++ [must "newName" .text] ++ working)),
    ("textDocument/prepareRename", .record ofPosition),
    ("textDocument/linkedEditingRange", .object (ofPosition ++ working))]

/-- Requests about what a name stands for. -/
def nameRequests : List (String × Shape) :=
  [("textDocument/declaration", .object (ofPosition ++ streaming)),
    ("textDocument/definition", .object (ofPosition ++ streaming)),
    ("textDocument/typeDefinition", .object (ofPosition ++ streaming)),
    ("textDocument/implementation", .object (ofPosition ++ streaming)),
    ("textDocument/references", .object (ofPosition
      ++ [must "context" (.record [must "includeDeclaration" .flag])] ++ streaming)),
    ("textDocument/prepareCallHierarchy", .object (ofPosition ++ working)),
    ("callHierarchy/incomingCalls", .object ([must "item" .callable] ++ streaming)),
    ("callHierarchy/outgoingCalls", .object ([must "item" .callable] ++ streaming)),
    ("textDocument/prepareTypeHierarchy", .object (ofPosition ++ working)),
    ("typeHierarchy/supertypes", .object ([must "item" .typeItem] ++ streaming)),
    ("typeHierarchy/subtypes", .object ([must "item" .typeItem] ++ streaming)),
    ("textDocument/moniker", .object (ofPosition ++ streaming))]

/-- Requests about what is shown in or beside a document. -/
def viewRequests : List (String × Shape) :=
  [("textDocument/documentHighlight", .object (ofPosition ++ streaming)),
    ("textDocument/documentLink", .object (ofDocument ++ streaming)),
    ("documentLink/resolve", .link),
    ("textDocument/hover", .object (ofPosition ++ working)),
    ("textDocument/codeLens", .object (ofDocument ++ streaming)),
    ("codeLens/resolve", .lens),
    ("textDocument/foldingRange", .object (ofDocument ++ streaming)),
    ("textDocument/selectionRange",
      .object (ofDocument ++ [must "positions" (.list .position)] ++ streaming)),
    ("textDocument/documentSymbol", .object (ofDocument ++ streaming)),
    ("textDocument/semanticTokens/range", .object (ofRange ++ streaming)),
    ("textDocument/inlineValue", .object (ofRange ++ [must "context" (.record
      [must "frameId" .signedWord, must "stoppedLocation" .range])] ++ working)),
    ("textDocument/inlayHint", .object (ofRange ++ working)),
    ("inlayHint/resolve", .hint),
    ("textDocument/signatureHelp",
      .object (ofPosition ++ [may "context" .signatureContext] ++ working)),
    ("textDocument/documentColor", .object (ofDocument ++ streaming)),
    ("textDocument/colorPresentation",
      .object (ofRange ++ [must "color" .color] ++ streaming))]

/-- Requests about the whole workspace. -/
def workspaceRequests : List (String × Shape) :=
  let named := .record [must "files" (.list (.record [must "uri" .text]))]
  let renamed := .record
    [must "files" (.list (.record [must "oldUri" .text, must "newUri" .text]))]
  [("workspace/diagnostic", .object ([may "identifier" .text, must "previousResultIds"
      (.list (.record [must "uri" .uri, must "value" .text]))] ++ streaming)),
    ("workspace/symbol", .object ([must "query" .text] ++ streaming)),
    ("workspaceSymbol/resolve", .workspaceSymbol),
    ("workspace/willCreateFiles", named),
    ("workspace/willRenameFiles", renamed),
    ("workspace/willDeleteFiles", named),
    ("workspace/executeCommand", .object ([must "command" .text,
      ("arguments", .defaulted, .list .any)] ++ working))]

/-- The requests that are not answered here. -/
def requestsElsewhere : List (String × Shape) :=
  textRequests ++ nameRequests ++ viewRequests ++ workspaceRequests

/-- The notifications that are not heeded here. -/
def notificationsElsewhere : List String :=
  ["textDocument/willSave", "textDocument/didSave", "workspace/didChangeConfiguration",
    "workspace/didChangeWorkspaceFolders", "workspace/didCreateFiles", "workspace/didRenameFiles",
    "workspace/didDeleteFiles", "workspace/didChangeWatchedFiles"]

end AsmLens
