import AsmLens.Protocol.Shape.Ability
import AsmLens.Protocol.Shape.Item
import AsmLens.Session.Request

/-!
The parameters of the methods. Each reader gives the request that well-formed parameters stand for,
with documents by the normal spelling of their URIs; parameters that do not have the shape of the
method are malformed, and so are parameters of which only a field without use here is misspelled.
-/

namespace AsmLens

open Shape (may must ofDocument ofPosition streaming)

namespace Params

def string? (value : Json) (name : String) : Option String := (value.field? name).bind Json.string?

/-- The document that a request is about. -/
def uri? (params : Json) : Option String := do
  string? (← params.field? "textDocument") "uri"

section

variable (uris : UriReader)

/-- Settings that are sent as null are settings that are not sent. -/
def start? (params : Json) : Option Request :=
  (Shape.introduction.read uris params).map fun params =>
    .start (params.field? "initializationOptions")

def started? (params : Json) : Option Request :=
  if (Shape.record []).accepts uris params then some .started else none

def openDocumentShape : Shape := .record [must "textDocument" .openedDocument]

def openDocument? (params : Json) : Option Request := do
  let document ← (← openDocumentShape.read uris params).field? "textDocument"
  return .openDocument (← string? document "uri") (← string? document "text")

/-- A change may name a range, which is not used, since documents are sent whole. -/
def changeDocumentShape : Shape :=
  .record [must "textDocument" .versionedDocument,
    must "contentChanges" (.list (.record [may "range" .range, may "rangeLength" .word,
      must "text" .text]))]

def changeDocument? (params : Json) : Option Request := do
  let params ← changeDocumentShape.read uris params
  let changes ← (← params.field? "contentChanges").array?
  return .changeDocument (← uri? params) (← changes.mapM (string? · "text"))

def closeDocument? (params : Json) : Option Request := do
  return .closeDocument (← uri? (← (Shape.record ofDocument).read uris params))

def tokensShape : Shape := .object (ofDocument ++ streaming)

def tokens? (params : Json) : Option Request := do
  return .tokens (← uri? (← tokensShape.read uris params))

def tokenChangesShape : Shape :=
  .object (ofDocument ++ [must "previousResultId" .text] ++ streaming)

def tokenChanges? (params : Json) : Option Request := do
  let params ← tokenChangesShape.read uris params
  return .tokenChanges (← uri? params) (← string? params "previousResultId")

def diagnosticsShape : Shape :=
  .object (ofDocument ++ [may "identifier" .text, may "previousResultId" .text] ++ streaming)

def diagnostics? (params : Json) : Option Request := do
  return .diagnostics (← uri? (← diagnosticsShape.read uris params))

def completionShape : Shape :=
  .object (ofPosition ++ [may "context" .completionContext] ++ streaming)

def completion? (params : Json) : Option Request :=
  if completionShape.accepts uris params then some .completion else none

def resolve? (params : Json) : Option Request :=
  (Protocol.CompletionItem.read? uris params).map .resolve

end

end Params

end AsmLens
