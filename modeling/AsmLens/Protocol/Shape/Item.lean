import AsmLens.Protocol.Shape.Edit

/-!
The shapes of items that an editor shows and asks about again: completions, symbols, hints and the
like.
-/

namespace AsmLens.Shape

/-- A proposal to complete a word. -/
def completion : Shape :=
  .record [must "label" .text,
    may "labelDetails" (.record [may "detail" .text, may "description" .text]),
    may "kind" .signedWord, may "detail" .text, may "documentation" .documentation,
    may "deprecated" .flag, may "preselect" .flag, may "sortText" .text, may "filterText" .text,
    may "insertText" .text, may "insertTextFormat" .signedWord, may "insertTextMode" .signedWord,
    may "textEdit" (.either .textEdit .insertOrReplace),
    may "additionalTextEdits" (.list .textEdit), may "command" .command,
    may "commitCharacters" (.list .text), may "data" .any, may "tags" (.list .signedWord)]

/-- Why completions are asked for. -/
def completionContext : Shape :=
  .record [must "triggerKind" .signedWord, may "triggerCharacter" .text]

/-- A callable thing or a type among those around it. Their tags have different shapes. -/
def hierarchyItem (tags : Shape) : Shape :=
  .record [must "name" .text, must "kind" .signedWord, may "tags" tags, may "detail" .text,
    must "uri" .uri, must "range" .range, must "selectionRange" .range, may "data" .any]

def callable : Shape := .hierarchyItem (.list .signedWord)

def typeItem : Shape := .hierarchyItem .signedWord

/-- A symbol of the workspace, which may leave out the range of its place. -/
def workspaceSymbol : Shape :=
  .record [must "name" .text, must "kind" .signedWord, may "tags" (.list .signedWord),
    may "containerName" .text, must "location" (.either .location (.record [must "uri" .uri])),
    may "data" .any]

/-- A part of a text that leads to another place. -/
def link : Shape :=
  .record [must "range" .range, may "target" .uri, may "tooltip" .text, may "data" .any]

/-- A command shown beside the text. -/
def lens : Shape := .record [must "range" .range, may "command" .command, may "data" .any]

/-- Text shown within the text. -/
def hint : Shape :=
  let part := .record [must "value" .text, may "tooltip" .documentation, may "location" .location,
    may "command" .command]
  .record [must "position" .position, must "label" (.either .text (.list part)),
    may "kind" .signedWord, may "textEdits" (.list .textEdit), may "tooltip" .documentation,
    may "paddingLeft" .flag, may "paddingRight" .flag, may "data" .any]

def signature : Shape :=
  let parameter := .record [must "label" (.either .text (.pair .word .word)),
    may "documentation" .documentation]
  .record [must "label" .text, may "documentation" .documentation,
    may "parameters" (.list parameter), may "activeParameter" .word]

/-- Why the signature of a callable thing is asked for. -/
def signatureContext : Shape :=
  .record [must "triggerKind" .signedWord, may "triggerCharacter" .text, must "isRetrigger" .flag,
    may "activeSignatureHelp" (.record [must "signatures" (.list .signature),
      may "activeSignature" .word, may "activeParameter" .word])]

def color : Shape :=
  .record [must "red" .number, must "green" .number, must "blue" .number, must "alpha" .number]

/-- How documents are to be formatted. -/
def formatting : Shape :=
  .openObject ([must "tabSize" .word, must "insertSpaces" .flag] ++
    mayFlags ["trimTrailingWhitespace", "insertFinalNewline", "trimFinalNewlines"])
    (.either .flag (.either .signedWord .text))

end AsmLens.Shape
