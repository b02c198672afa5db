import AsmLens.Analysis
import AsmLens.Table
import AsmLens.TokenStream.Edit

/-!
What is remembered between two looks at a document: the tokens that the editor has last been given,
under an identifier that it can name, and the diagnostics of that look until they are fetched.

* `Store.begin` starts a document afresh, and `Store.close` forgets it.
* `Store.invalidate` drops waiting diagnostics, since the text has changed; the tokens stay, to be
  the base of the next change.
* `Store.allTokens` and `Store.tokensSince` analyze the text, keep its tokens and leave its
  diagnostics waiting.
* `Store.fetchDiagnostics` fetches the waiting diagnostics, and analyzes the text where there are
  none.

Identifiers are the numbers 1, 2, 3, …; the documents share them, so an identifier names one result.
-/

namespace AsmLens

/-- Tokens that an editor has been given. -/
structure TokenResult where
  resultId : String
  data : List Nat
  deriving DecidableEq, Repr

/-- What is remembered of one document. -/
structure DocumentState where
  last : Option TokenResult := none
  /-- Diagnostics waiting to be fetched. -/
  pending : Option (List Diagnostic) := none
  deriving DecidableEq, Repr

/-- What is remembered of all documents. -/
structure Store where
  documents : Table DocumentState := .empty
  /-- The number of results so far, which is the number in the last identifier. -/
  results : Nat := 0

/-- The answer to a request for changes. -/
inductive TokensChange where
  /-- How the earlier result turns into this one: by at most one edit. -/
  | edits (resultId : String) (edits : List Edit)
  /-- All tokens, since the earlier result is not kept. -/
  | all (result : TokenResult)
  deriving DecidableEq, Repr

/-- The store after an operation, its answer and what was logged. -/
structure StoreOutcome (α : Type) where
  store : Store
  value : α
  events : List Event := []

/-- Analyzes the text of a document. -/
def analyzeDocument (uri text : String) : Checked (Traced Analysis) := do
  let analysis ← analyze text
  return { analysis with events := analysis.events ++ [.declaredLabels uri analysis.value.labels] }

namespace Store

/-- What is remembered of a document; of one that is not there, nothing. -/
def state (s : Store) (uri : String) : DocumentState := (s.documents.find? uri).getD {}

/-- Remembers something else of a document. -/
def setState (s : Store) (uri : String) (state : DocumentState) : Store :=
  { s with documents := s.documents.set uri state }

/-- Starts a document, without anything that was known of it. -/
def begin (s : Store) (uri : String) : Store := s.setState uri {}

/-- Drops the diagnostics that wait for a document whose text has changed. -/
def invalidate (s : Store) (uri : String) : Store :=
  s.setState uri { s.state uri with pending := none }

/-- Whether there is such a document. -/
def contains (s : Store) (uri : String) : Bool := s.documents.contains uri

/-- Forgets a document, and tells whether there was one. -/
def close (s : Store) (uri : String) : StoreOutcome Bool :=
  { store := { s with documents := s.documents.erase uri }, value := s.contains uri }

/-- The number of documents. -/
def size (s : Store) : Nat := s.documents.size

/-- Whether there is no document. -/
def isEmpty (s : Store) : Bool := s.documents.isEmpty

/-- The identifier of a result. -/
def resultId (number : Nat) : String := toString number

/-- Counts one more result. -/
def countResult (s : Store) : Checked Store :=
  if s.results < Word.doubleLimit then .ok { s with results := s.results + 1 }
  else .error .resultIdsExhausted

/-- Keeps the outcome of an analysis under the identifier of the last result. -/
def keep (s : Store) (uri : String) (result : TokenResult) (diagnostics : List Diagnostic) :
    Store :=
  s.setState uri { last := some result, pending := some diagnostics }

/-- Analyzes a document for all of its tokens. -/
def allTokens (s : Store) (uri text : String) : Checked (StoreOutcome TokenResult) := do
  let analysis ← analyzeDocument uri text
  let counted ← s.countResult
  let result : TokenResult := ⟨resultId counted.results, analysis.value.tokens⟩
  return { store := counted.keep uri result analysis.value.diagnostics
           value := result
           events := analysis.events }

/-- The tokens last given for a document, if they were given under this identifier. -/
def base? (s : Store) (uri previous : String) : Option TokenResult :=
  (s.state uri).last.filter (·.resultId = previous)

/-- Analyzes a document for the change from an earlier result. -/
def tokensSince (s : Store) (uri text previous : String) : Checked (StoreOutcome TokensChange) := do
  let analysis ← analyzeDocument uri text
  let counted ← s.countResult
  let result : TokenResult := ⟨resultId counted.results, analysis.value.tokens⟩
  let store := counted.keep uri result analysis.value.diagnostics
  match s.base? uri previous with
  | some base => do
      let edit ← Edit.between base.data result.data TokenStream.stride
      return { store, value := .edits result.resultId edit.toList, events := analysis.events }
  | none =>
      return { store, value := .all result
               events := analysis.events ++ [.unknownPrevious uri previous] }

/-- Fetches the diagnostics of a document: those that wait, or else those of the text. Tokens found
on the way are not kept, for no editor is given them. -/
def fetchDiagnostics (s : Store) (uri text : String) : Checked (StoreOutcome (List Diagnostic)) :=
  let store := s.setState uri { s.state uri with pending := none }
  match (s.state uri).pending with
  | some diagnostics => .ok { store, value := diagnostics }
  | none => do
      let analysis ← analyzeDocument uri text
      return { store, value := analysis.value.diagnostics
               events := .analyzingEagerly uri :: analysis.events }

theorem state_setState (s : Store) (uri : String) (state : DocumentState) (name : String) :
    (s.setState uri state).state name = if uri = name then state else s.state name := by
  by_cases h : uri = name <;> simp [Store.state, setState, Table.find?_set, h]

theorem contains_setState (s : Store) (uri : String) (state : DocumentState) (name : String) :
    (s.setState uri state).contains name = (uri = name || s.contains name) :=
  Table.contains_set s.documents uri state name

theorem contains_close (s : Store) (uri name : String) :
    (s.close uri).store.contains name = (uri ≠ name && s.contains name) :=
  Table.contains_erase s.documents uri name

end Store

end AsmLens
