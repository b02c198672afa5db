import AsmLens.Diagnostic
import AsmLens.Protocol.Capabilities

/-!
Diagnostics in the form in which an editor gets them. Every note points back at the range of its
diagnostic.
-/

namespace AsmLens.Protocol

/-- A note and the range it points at. -/
structure RelatedNote where
  uri : String
  range : Span
  message : String
  deriving DecidableEq, Repr

/-- A diagnostic as it is reported. -/
structure ReportItem where
  range : Span
  severity : Nat
  code : String
  source : String
  message : String
  /-- The notes, if there are any. -/
  related : Option (List RelatedNote)
  deriving DecidableEq, Repr

/-- The severity of an error. -/
def errorSeverity : Nat := 1

/-- How a diagnostic of a document is reported. -/
def ReportItem.ofDiagnostic (uri : String) (d : Diagnostic) : ReportItem :=
  { range := d.span
    severity := errorSeverity
    code := d.code.text
    source := diagnosticSource
    message := d.message
    related :=
      if d.notes.isEmpty then none else some (d.notes.map fun note => ⟨uri, d.span, note⟩) }

def positionJson (p : Position) : Json :=
  .object [("line", .ofNat p.line), ("character", .ofNat p.column)]

def rangeJson (s : Span) : Json :=
  .object [("start", positionJson s.start), ("end", positionJson s.finish)]

def RelatedNote.toJson (note : RelatedNote) : Json :=
  .object [("location", .object [("uri", .string note.uri), ("range", rangeJson note.range)]),
    ("message", .string note.message)]

def ReportItem.toJson (item : ReportItem) : Json :=
  .ofOptions [("range", some (rangeJson item.range)), ("severity", some (.ofNat item.severity)),
    ("code", some (.string item.code)), ("source", some (.string item.source)),
    ("message", some (.string item.message)),
    ("relatedInformation", item.related.map fun notes => .array (notes.map RelatedNote.toJson))]

/-- A full report. -/
def reportJson (items : List ReportItem) : Json :=
  .object [("kind", .string "full"), ("items", .array (items.map ReportItem.toJson))]

end AsmLens.Protocol
