import AsmLens.Proofs.Lexer.Columns
import AsmLens.Proofs.Text.Extent
import AsmLens.Proofs.TokenStream.Relative
import AsmLens.Service
import AsmLens.Proofs.Lexer.Document
import AsmLens.Proofs.Label.Verdict
import AsmLens.Proofs.Label.Findings
import AsmLens.Proofs.Analysis.ByLine
import AsmLens.Proofs.Analysis.Lowered
import AsmLens.Proofs.Analysis.Seam
import AsmLens.Proofs.Analysis.Totality
import AsmLens.Proofs.Store.Renewal
import AsmLens.Proofs.Session.Step
import AsmLens.Proofs.Session.Run
import AsmLens.Proofs.Session.FreshDiagnostics
import AsmLens.Proofs.Session.Mirror
import AsmLens.Proofs.Session.MirroredTokens
import AsmLens.Proofs.Analysis.BlockEdit
import AsmLens.Proofs.Lexer.Outcome
import AsmLens.Proofs.Lexer.Grammar
import AsmLens.Proofs.Lexer.Places
import AsmLens.Proofs.Lexer.CodeUnits
import AsmLens.Proofs.Vocabulary.Lookup
import AsmLens.Proofs.Analysis.Outcome
import AsmLens.Proofs.Analysis.Verdicts
import AsmLens.Proofs.Analysis.LabelLines
import AsmLens.Proofs.Store.Run
import AsmLens.Proofs.Store.Standing
import AsmLens.Proofs.Store.Slot
import AsmLens.Proofs.TokenStream.RoundTrip
import AsmLens.Proofs.Session.OpenDocuments
import AsmLens.Proofs.Session.Agreement
import AsmLens.Proofs.Session.Noninterference
import AsmLens.Proofs.Session.Independence
import AsmLens.Proofs.Analysis.WellFormed
import AsmLens.Proofs.Analysis.Ranges
import AsmLens.Proofs.Service.Meaning
import AsmLens.Proofs.Service.Admission
import AsmLens.Proofs.Service.Step
import AsmLens.Proofs.Service.Refinement
import AsmLens.Proofs.Statement.Partition
import AsmLens.Proofs.Analysis.LineEndings
import AsmLens.Proofs.Lexer.Comments
import AsmLens.Proofs.Analysis.Comments
import AsmLens.Proofs.Session.Settings
import AsmLens.Proofs.Text.Splitting
import AsmLens.Proofs.Lexer.Numbering
import AsmLens.Proofs.Diagnostic.Order
import AsmLens.Proofs.Json.Spelling
