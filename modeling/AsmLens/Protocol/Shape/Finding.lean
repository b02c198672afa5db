import AsmLens.Protocol.Shape.Edit

/-!
The shapes of diagnostics and of what an editor may do about them.
-/

namespace AsmLens.Shape

/-- A diagnostic of any server. -/
def finding : Shape :=
  .record [must "range" .range, may "severity" .signedWord, may "code" (.either .signedWord .text),
    may "codeDescription" (.record [must "href" .uri]), may "source" .text, must "message" .text,
    may "relatedInformation" (.list (.record [must "location" .location, must "message" .text])),
    may "tags" (.list .signedWord), may "data" .any]

/-- What an action is wanted for. -/
def actionContext : Shape :=
  .record [must "diagnostics" (.list .finding), may "only" (.list .text),
    may "triggerKind" .signedWord]

/-- Something that can be done about a place. -/
def action : Shape :=
  .record [must "title" .text, may "kind" .text, may "diagnostics" (.list .finding),
    may "edit" .workspaceEdit, may "command" .command, may "isPreferred" .flag,
    may "disabled" (.record [must "reason" .text]), may "data" .any]

end AsmLens.Shape
