import AsmLens.Protocol.Shape.Place

/-!
The shapes of text that is shown or put in: edits, commands, and changes to a whole workspace.
-/

namespace AsmLens.Shape

def textEdit : Shape := .record [must "range" .range, must "newText" .text]

/-- An edit that an editor may make by inserting or by replacing. -/
def insertOrReplace : Shape :=
  .record [must "newText" .text, must "insert" .range, must "replace" .range]

/-- The ways in which text may be marked up. -/
def markupKind : Shape := .choice ["plaintext", "markdown"]

def markup : Shape := .record [must "kind" .markupKind, must "value" .text]

def documentation : Shape := .either .text .markup

def command : Shape :=
  .record [must "title" .text, must "command" .text, may "arguments" (.list .any)]

/-- An edit that is accounted for by an annotation. -/
def annotatedEdit : Shape :=
  .object [must "range" .range, must "newText" .text, must "annotationId" .text]

/-- The edits of one document. -/
def documentEdit : Shape :=
  .record [must "textDocument" (.record [must "uri" .uri, may "version" .signedWord]),
    must "edits" (.list (.either .textEdit .annotatedEdit))]

/-- What becomes of a file. -/
def fileOperation : Shape :=
  let options := .record (mayFlags ["overwrite", "ignoreIfExists"])
  .tagged "kind"
    [("create", .record [must "uri" .uri, may "options" options, may "annotationId" .text]),
      ("rename", .record [must "oldUri" .uri, must "newUri" .uri, may "options" options,
        may "annotationId" .text]),
      ("delete", .record [must "uri" .uri,
        may "options" (.record (mayFlags ["recursive", "ignoreIfNotExists"]
          ++ [may "annotationId" .text]))])]

def changeRemark : Shape :=
  .record [must "label" .text, may "needsConfirmation" .flag, may "description" .text]

/-- Changes to the documents and the files of a workspace. -/
def workspaceEdit : Shape :=
  .record [("changes", .defaulted, .either .null (.byUri (.list .textEdit))),
    may "documentChanges" (.either (.list .documentEdit)
      (.list (.either .fileOperation .documentEdit))),
    may "changeAnnotations" (.dictionary .changeRemark)]

end AsmLens.Shape
