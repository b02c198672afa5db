/-!
The ways in which an operation breaks off. An operation that relies on something its caller has to
provide (an order, an index in range, a sum that fits a word) checks it and stops with the `Fault`
that names what was missing, so a run without a `Fault` is a run in which every such condition held.
-/

namespace AsmLens

/-- A condition that an operation relies on and that did not hold. -/
inductive Fault where
  /-- A column was asked for before the place of the last answer. -/
  | columnBehind
  /-- A column was asked for inside a character or past the end of the line. -/
  | columnOffCharacter
  /-- A line holds more UTF-16 code units than a word counts. -/
  | columnTooLarge
  /-- A text holds more lines than a word numbers. -/
  | tooManyLines
  /-- A comment is followed by another token of its line. -/
  | commentBeforeLineEnd
  /-- A token lies on no line of the document. -/
  | tokenPastLastLine
  /-- The first token of a span comes after the last one. -/
  | spanReversed
  /-- A token ends beyond the columns that a word can name. -/
  | endTooLarge
  /-- A declared label is no token of the document. -/
  | noSuchToken
  /-- A declared label has been given another category already. -/
  | labelAlreadySettled
  /-- Tokens to be encoded are not in the order of their positions. -/
  | tokensOutOfOrder
  /-- An encoded stream leads beyond the positions that a word can name. -/
  | streamTooLong
  /-- An edit was asked for in units of no integers. -/
  | emptyStride
  /-- An edit reaches outside the stream that it is applied to. -/
  | editOutOfRange
  /-- Every result identifier has been used. -/
  | resultIdsExhausted
  deriving DecidableEq, Repr

/-- The answer of an operation that may break off. -/
abbrev Checked (α : Type) : Type := Except Fault α

/-- A run of two operations goes through exactly when each of them does. -/
theorem Checked.bind_eq_ok_iff {α β : Type} {x : Checked α} {f : α → Checked β} {b : β} :
    x >>= f = .ok b ↔ ∃ a, x = .ok a ∧ f a = .ok b := by
  cases x with
  | error fault => simp [bind, Except.bind]
  | ok a => simp [bind, Except.bind]

/-- A run of one operation more is the run before it and that one. -/
theorem Checked.foldlM_concat {α β : Type} (f : β → α → Checked β) (start : β) (past : List α)
    (a : α) : (past ++ [a]).foldlM f start = past.foldlM f start >>= fun b => f b a := by
  simp only [List.foldlM_append, List.foldlM_cons, List.foldlM_nil, bind_pure]

/-- A run of one operation more goes through exactly when the run before it and that one do. -/
theorem Checked.foldlM_concat_eq_ok_iff {α β : Type} {f : β → α → Checked β} {start b : β}
    {past : List α} {a : α} :
    (past ++ [a]).foldlM f start = .ok b ↔ ∃ c, past.foldlM f start = .ok c ∧ f c a = .ok b := by
  rw [Checked.foldlM_concat, Checked.bind_eq_ok_iff]

/-- An answer under another form is one that has been given under the first. -/
theorem Checked.map_eq_ok_iff {α β : Type} {f : α → β} {x : Checked α} {b : β} :
    x.map f = .ok b ↔ ∃ a, x = .ok a ∧ f a = b := by
  cases x with
  | error fault => simp [Except.map]
  | ok a => simp [Except.map]

end AsmLens
