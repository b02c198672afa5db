import AsmLens.Protocol.Completion
import AsmLens.Protocol.Report
import AsmLens.Protocol.Tokens

/-!
What passes between an editor and its session: requests, answers, and notices that answer nothing.
-/

namespace AsmLens

open Protocol

/-- What an editor asks for or tells. -/
inductive Request where
  /-- Opens the session with the settings that are sent, if any. -/
  | start (options : Option Json)
  /-- The editor has taken note of the answer that opens the session. -/
  | started
  /-- Asks to end the session. -/
  | stop
  | openDocument (uri text : String)
  /-- The text of each change; as documents are sent whole, the last is the new text. -/
  | changeDocument (uri : String) (texts : List String)
  | closeDocument (uri : String)
  | tokens (uri : String)
  | tokenChanges (uri previous : String)
  | diagnostics (uri : String)
  | completion
  /-- Asks for all that is known of a completion item. -/
  | resolve (item : CompletionItem)

/-- What the editor is answered. -/
inductive Answer where
  | nothing
  | welcome (capabilities : Capabilities)
  | tokens (tokens : SemanticTokens)
  | update (update : TokensUpdate)
  | report (items : List ReportItem)
  | completions (items : List CompletionItem)
  | item (item : CompletionItem)

/-- A message to the editor that answers no request. -/
structure Notice where
  /-- How much it matters: three is for information. -/
  kind : Nat
  message : String
  deriving DecidableEq, Repr

def Answer.toJson : Answer → Json
  | .nothing => .null
  | .welcome offered => Protocol.welcome offered
  | .tokens found => found.toJson
  | .update change => change.toJson
  | .report found => reportJson found
  | .completions found => .array (found.map CompletionItem.toJson)
  | .item found => found.toJson

def Notice.toJson (notice : Notice) : Json :=
  .object [("jsonrpc", .string "2.0"), ("method", .string "window/logMessage"),
    ("params", .object [("message", .string notice.message), ("type", .ofNat notice.kind)])]

end AsmLens
