import AsmLens.Category
import AsmLens.Config

/-!
What an editor is told at the start of a session: the legend of the token numbers, and what may be
asked for.
-/

namespace AsmLens.Protocol

/-- The name under which diagnostics are reported. -/
def diagnosticSource : String := "asm"

/-- The names behind the numbers of encoded tokens. -/
structure Legend where
  tokenTypes : List String
  tokenModifiers : List String
  deriving DecidableEq, Repr

/-- The legend of every session. -/
def legend : Legend := ⟨Category.legend.map Category.legendName, Modifiers.legend⟩

/-- What may be asked for. -/
structure Capabilities where
  legend : Legend
  /-- Whether changes of tokens may be asked for. -/
  tokensDelta : Bool
  diagnosticIdentifier : String
  deriving DecidableEq, Repr

/-- What may be asked for under the settings of a session. -/
def Capabilities.ofConfig (config : Config) : Capabilities :=
  ⟨Protocol.legend, config.semanticTokensDelta, diagnosticSource⟩

def Legend.toJson (legend : Legend) : Json :=
  .object [("tokenTypes", .array (legend.tokenTypes.map .string)),
    ("tokenModifiers", .array (legend.tokenModifiers.map .string))]

/-- Documents are sent whole (kind 1), tokens are for whole documents, diagnostics are fetched and
concern one document, and completion items can be resolved. -/
def Capabilities.toJson (c : Capabilities) : Json :=
  .object [("textDocumentSync", .ofNat 1),
    ("semanticTokensProvider", .object [("legend", c.legend.toJson), ("range", .bool false),
      ("full", .object [("delta", .bool c.tokensDelta)])]),
    ("diagnosticProvider", .object [("identifier", .string c.diagnosticIdentifier),
      ("interFileDependencies", .bool false), ("workspaceDiagnostics", .bool false)]),
    ("completionProvider", .object [("resolveProvider", .bool true)])]

/-- The answer that opens a session. -/
def welcome (c : Capabilities) : Json :=
  .object [("capabilities", c.toJson),
    ("serverInfo", .object [("name", .string "asm-lsp"), ("version", .string "0.1.0")])]

end AsmLens.Protocol
