import AsmLens.Token

/-!
What the analysis has to say about a text. A diagnostic is always an error and always carries the
span of tokens that it is about; its notes add to the message.
-/

namespace AsmLens

/-- The kinds of error. -/
inductive ErrorCode where
  /-- A word heads its line and no colon makes it a label. -/
  | missingColon
  /-- A line goes on after a word that only a label could be. -/
  | contentAfterLabel
  deriving DecidableEq, Repr

namespace ErrorCode

/-- Every code, in the order of the numbers. -/
def all : List ErrorCode := [missingColon, contentAfterLabel]

/-- The code as it is shown. -/
def text : ErrorCode → String
  | missingColon => "E1001"
  | contentAfterLabel => "E1002"

/-- One line on what is wrong. -/
def description : ErrorCode → String
  | missingColon => "missing colon for label"
  | contentAfterLabel => "unexpected content after label"

end ErrorCode

/-- An error and the text it is about. -/
structure Diagnostic where
  code : ErrorCode
  message : String := ""
  span : Span
  notes : List String := []
  deriving DecidableEq, Repr

namespace Diagnostic

/-- The form in which a diagnostic is logged: the message, the span, and a line to each note. -/
def render (d : Diagnostic) : String :=
  "error [" ++ d.code.text ++ "]: " ++ d.message ++ "\n  --> " ++ d.span.render
    ++ String.join (d.notes.map ("\n  = note: " ++ ·))

/-- The word `head` would have to be a label, and no colon follows it. -/
def missingColon (head : Token) : Checked Diagnostic := do
  let span ← head.span
  return { code := .missingColon
           message := ErrorCode.missingColon.description
           span
           notes := ["labels are declared as `" ++ head.text ++ ":`"] }

/-- The tokens from `first` to `last` stand on the line of a label. -/
def contentAfterLabel (first last : Token) : Checked Diagnostic := do
  let span ← Span.ofTokens first last
  return { code := .contentAfterLabel
           message := ErrorCode.contentAfterLabel.description
           span
           notes := ["label declarations must stand alone on their line"] }

end Diagnostic

end AsmLens
