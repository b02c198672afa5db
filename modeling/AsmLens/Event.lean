import AsmLens.Diagnostic
import AsmLens.Lexer
import AsmLens.SessionError
import AsmLens.TokenStream

/-!
The log. Operations return what they logged beside their answer, in order, so what was done on the
way to an answer can be read off: an analysis was run exactly where there is an `analyzed` event.
-/

namespace AsmLens

/-- A kind of request for a document that may not be open. -/
inductive DocumentQuery where
  | tokens
  | tokenChanges
  | diagnostics
  deriving DecidableEq, Repr

/-- One entry of the log. -/
inductive Event where
  /-- The lexer passed over a character. -/
  | skipped (stray : Stray)
  /-- A line breaks the rule for labels. -/
  | labelViolation (diagnostic : Diagnostic)
  /-- Every line has been judged. -/
  | validatedLabels (labels errors : Nat)
  /-- A document has been analyzed; the numbers count what was found. -/
  | analyzed (lines tokens encoded labels diagnostics : Nat)
  /-- The labels that a document declares. -/
  | declaredLabels (uri : String) (labels : List String)
  /-- The change asked for is one from a result that is not kept. -/
  | unknownPrevious (uri previous : String)
  /-- Diagnostics were asked for and none are waiting. -/
  | analyzingEagerly (uri : String)
  /-- The tokens of a document are sent. -/
  | sendingTokens (uri : String) (tokens : List PlacedToken)
  /-- A request names a document that is not open. -/
  | unknownDocument (query : DocumentQuery) (error : SessionError)
  /-- Settings were turned down, and the defaults are used. -/
  | configFallback (error : SessionError)

/-- How much an event matters. -/
inductive EventLevel where
  | trace
  | debug
  | warn
  deriving DecidableEq, Repr

/-- A value that an event tells. -/
inductive EventValue where
  | number (value : Nat)
  | text (value : String)
  deriving DecidableEq, Repr

/-- A placed token as the log shows it. -/
def PlacedToken.render (t : PlacedToken) : String :=
  "DecodedToken \x7b line: " ++ toString t.line ++ ", column: " ++ toString t.column
    ++ ", length: " ++ toString t.length ++ ", category: " ++ toString t.category
    ++ ", modifiers: " ++ toString t.modifiers ++ " \x7d"

/-- What is logged about a request for a document that is not open. -/
def DocumentQuery.complaint : DocumentQuery → String
  | tokens => "semantic tokens requested for unknown document"
  | tokenChanges => "semantic token delta requested for unknown document"
  | diagnostics => "diagnostics requested for unknown document"

namespace Event

def level : Event → EventLevel
  | skipped _ => .trace
  | labelViolation _ => .trace
  | validatedLabels .. => .trace
  | analyzed .. => .debug
  | declaredLabels .. => .trace
  | unknownPrevious .. => .debug
  | analyzingEagerly _ => .debug
  | sendingTokens .. => .trace
  | unknownDocument .. => .debug
  | configFallback _ => .warn

def message : Event → String
  | skipped _ => "skipped unrecognized input"
  | labelViolation _ => "label violation"
  | validatedLabels .. => "validated labels"
  | analyzed .. => "analyzed document"
  | declaredLabels .. => "declared labels"
  | unknownPrevious .. => "unknown previous result; sending full tokens"
  | analyzingEagerly _ => "no pending diagnostics; analyzing eagerly"
  | sendingTokens .. => "full semantic tokens"
  | unknownDocument query _ => query.complaint
  | configFallback _ => "falling back to default configuration"

/-- The values that an event tells, under their names. -/
def fields : Event → List (String × EventValue)
  | skipped stray => [("line", .number stray.line), ("offset", .number stray.offset)]
  | labelViolation d => [("diagnostic", .text d.render)]
  | validatedLabels labels errors => [("labels", .number labels), ("errors", .number errors)]
  | analyzed lines tokens encoded labels diagnostics =>
      [("lines", .number lines), ("tokens", .number tokens), ("encoded", .number encoded),
        ("labels", .number labels), ("diagnostics", .number diagnostics)]
  | declaredLabels uri labels =>
      [("uri", .text uri), ("labels", .text (Text.bracketed (labels.map Text.quoted)))]
  | unknownPrevious uri previous => [("uri", .text uri), ("previous_result_id", .text previous)]
  | analyzingEagerly uri => [("uri", .text uri)]
  | sendingTokens uri tokens =>
      [("uri", .text uri), ("tokens", .text (Text.bracketed (tokens.map PlacedToken.render)))]
  | unknownDocument _ error => [("err", .text error.message)]
  | configFallback error => [("err", .text error.message)]

end Event

end AsmLens
