import AsmLens.Json
import AsmLens.Store

/-!
Tokens in the form in which an editor gets them. A stream is regrouped into tuples of five, and an
edit keeps its place, which counts integers. Editors read words, so a place beyond them becomes the
last.
-/

namespace AsmLens.Protocol

/-- One token of a stream. -/
structure TokenTuple where
  deltaLine : Nat
  deltaStart : Nat
  length : Nat
  tokenType : Nat
  modifiers : Nat
  deriving DecidableEq, Repr

/-- The whole tuples of a stream; an incomplete last one is left out. -/
def regroup : List Nat → List TokenTuple
  | deltaLine :: deltaStart :: length :: tokenType :: modifiers :: more =>
      ⟨deltaLine, deltaStart, length, tokenType, modifiers⟩ :: regroup more
  | _ => []

/-- The integers of a tuple. -/
def TokenTuple.toList (t : TokenTuple) : List Nat :=
  [t.deltaLine, t.deltaStart, t.length, t.tokenType, t.modifiers]

/-- The stream that tuples stand for. -/
def flatten (tuples : List TokenTuple) : List Nat := tuples.flatMap TokenTuple.toList

/-- All tokens of a document. Those of a document that is not open are none, under no identifier. -/
structure SemanticTokens where
  resultId : Option String := none
  data : List TokenTuple := []
  deriving DecidableEq, Repr

/-- An edit of a token stream. -/
structure TokensEdit where
  start : Nat
  deleteCount : Nat
  /-- What is inserted, if anything is. -/
  data : Option (List TokenTuple)
  deriving DecidableEq, Repr

/-- How one result turns into the next. -/
structure TokensUpdate where
  resultId : String
  edits : List TokensEdit
  deriving DecidableEq, Repr

/-- A result in the form in which it is sent. -/
def SemanticTokens.ofResult (result : TokenResult) : SemanticTokens :=
  ⟨some result.resultId, regroup result.data⟩

/-- An edit with its data regrouped. -/
def TokensEdit.ofEdit (edit : Edit) : TokensEdit :=
  { start := Word.clamp edit.start
    deleteCount := Word.clamp edit.deleteCount
    data := if edit.data.isEmpty then none else some (regroup edit.data) }

theorem flatten_regroup {data : List Nat} {n : Nat} (h : data.length = TokenStream.stride * n) :
    flatten (regroup data) = data := by
  induction n generalizing data with
  | zero =>
      rw [Nat.mul_zero] at h
      rw [List.eq_nil_of_length_eq_zero h]
      rfl
  | succ n ih =>
      match data, h with
      | a :: b :: c :: d :: e :: more, h =>
          have hmore : more.length = TokenStream.stride * n := by
            simp only [List.length_cons, TokenStream.stride] at h ⊢
            omega
          have step := ih hmore
          simp only [flatten] at step
          simp [regroup, flatten, TokenTuple.toList, step]
      | [], h | [_], h | [_, _], h | [_, _, _], h | [_, _, _, _], h =>
          simp only [List.length_cons, List.length_nil, TokenStream.stride] at h
          omega

/-- The integers of tuples as a JSON array. -/
def dataJson (tuples : List TokenTuple) : Json := .array ((flatten tuples).map .ofNat)

def SemanticTokens.toJson (tokens : SemanticTokens) : Json :=
  .ofOptions [("resultId", tokens.resultId.map .string), ("data", some (dataJson tokens.data))]

def TokensEdit.toJson (edit : TokensEdit) : Json :=
  .ofOptions [("start", some (.ofNat edit.start)),
    ("deleteCount", some (.ofNat edit.deleteCount)), ("data", edit.data.map dataJson)]

def TokensUpdate.toJson (update : TokensUpdate) : Json :=
  .object [("resultId", .string update.resultId),
    ("edits", .array (update.edits.map TokensEdit.toJson))]

end AsmLens.Protocol
