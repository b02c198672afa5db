import AsmLens.Event
import AsmLens.Label

/-!
The analysis of a document: its tokens in the form in which they are sent, its diagnostics in the
order of the text, and the labels it declares. It depends on nothing but the text.
-/

namespace AsmLens

/-- An answer and what was logged on the way to it. -/
structure Traced (α : Type) where
  value : α
  events : List Event := []

/-- What is known about a document. -/
structure Analysis where
  /-- The token stream. -/
  tokens : List Nat
  diagnostics : List Diagnostic
  /-- The names of the declared labels, in line order. -/
  labels : List String
  deriving DecidableEq, Repr

/-- What the lexer logs. -/
def Scanned.events (found : Scanned) : List Event := found.strays.map .skipped

/-- What the pass over the labels logs: each violation, and then the numbers. -/
def LabelFindings.events (findings : LabelFindings) : List Event :=
  findings.diagnostics.items.toList.map .labelViolation
    ++ [.validatedLabels findings.declarations.size findings.diagnostics.items.size]

/-- Analyzes a document. -/
def analyze (source : String) : Checked (Traced Analysis) := do
  let text := source.toList
  let lineCount := Text.lineCount text
  let found ← Lexer.document text
  let statements ← Statement.ofTokens found.tokens lineCount
  let findings ← LabelFindings.ofStatements statements
  let labels ← findings.names found.tokens
  let settled ← findings.settle found.tokens
  let diagnostics := findings.diagnostics.sorted
  let tokens ← TokenStream.encode settled
  let summary : Event :=
    .analyzed lineCount settled.length (tokens.length / TokenStream.stride) labels.length
      diagnostics.length
  return { value := { tokens, diagnostics, labels }
           events := found.events ++ findings.events ++ [summary] }

end AsmLens
