import AsmLens.TokenStream

/-!
The relative form and the positions it stands for. A list of tokens has a stream exactly when no
token stands before the one in front of it (`encodeFrom_cons_eq_ok_iff`); the stream has a tuple to
each token, and decoding it gives back the positions (`decodeFrom_encodeFrom`).
-/

namespace AsmLens

/-- A token as it can be read off a stream that holds it. -/
def Token.placed (t : Token) : PlacedToken :=
  ⟨t.line, t.column, t.length, t.category.index, t.modifiers.bits⟩

namespace TokenStream

/-- The place that the tokens after a list are encoded from: the start of its last token. -/
def placeAfter (place : Position) (tokens : List Token) : Position :=
  (tokens.getLast?.map Token.start).getD place

theorem placeAfter_cons (place : Position) (t : Token) (more : List Token) :
    placeAfter place (t :: more) = placeAfter t.start more := by
  cases more with
  | nil => rfl
  | cons u rest =>
      rw [placeAfter, placeAfter, List.getLast?_cons_cons, List.getLast?_cons]
      rfl

/-- A token is encoded where it does not stand before the place in front of it, and its tuple holds
the step from there. -/
theorem encodeFrom_cons_eq_ok_iff {line column : Nat} {t : Token} {more : List Token}
    {data : List Nat} :
    encodeFrom line column (t :: more) = .ok data ↔
      (⟨line, column⟩ : Position) ≤ t.start ∧
        ∃ rest, encodeFrom t.line t.column more = .ok rest ∧
          data = (t.line - line) :: (t.column - if line < t.line then 0 else column) ::
            t.length :: t.category.index :: t.modifiers.bits :: rest := by
  simp only [encodeFrom, Checked.bind_eq_ok_iff, Word.sub_eq_ok_iff, Position.le_def, Token.start]
  constructor
  · rintro ⟨_, ⟨hline, rfl⟩, _, ⟨hcolumn, rfl⟩, rest, hrest, hdata⟩
    -- a step to another line says what a step forward asks for, one on the line needs the columns
    simp only [Nat.sub_pos_iff_lt] at hcolumn hdata
    refine ⟨?_, rest, hrest, (Except.ok.inj hdata).symm⟩
    split at hcolumn <;> omega
  · rintro ⟨hplace, rest, hrest, rfl⟩
    refine ⟨t.line - line, ⟨by omega, rfl⟩, _, ⟨?_, rfl⟩, rest, hrest, ?_⟩
    · split <;> omega
    · simp only [Nat.sub_pos_iff_lt]
      rfl

/-- Tokens in the order of their positions have a stream. -/
theorem encodeFrom_of_ordered {line column : Nat} {tokens : List Token}
    (hfrom : ∀ t ∈ tokens, (⟨line, column⟩ : Position) ≤ t.start)
    (hordered : tokens.Pairwise fun a b => a.start ≤ b.start) :
    ∃ data, encodeFrom line column tokens = .ok data := by
  induction tokens generalizing line column with
  | nil => exact ⟨[], rfl⟩
  | cons t more ih =>
      obtain ⟨hmore, hordered⟩ := List.pairwise_cons.mp hordered
      obtain ⟨rest, hrest⟩ := ih hmore hordered
      exact ⟨_, encodeFrom_cons_eq_ok_iff.mpr
        ⟨hfrom t List.mem_cons_self, rest, hrest, rfl⟩⟩

theorem encode_of_ordered {tokens : List Token}
    (hordered : tokens.Pairwise fun a b => a.start ≤ b.start) :
    ∃ data, encode tokens = .ok data := by
  refine encodeFrom_of_ordered ?_ hordered
  intro t _
  rw [Position.le_def]
  show 0 < t.line ∨ 0 = t.line ∧ 0 ≤ t.column
  omega

/-- A stream has one tuple to the token. -/
theorem length_encodeFrom {line column : Nat} {tokens : List Token} {data : List Nat}
    (h : encodeFrom line column tokens = .ok data) : data.length = stride * tokens.length := by
  induction tokens generalizing line column data with
  | nil =>
      cases h
      rfl
  | cons t more ih =>
      obtain ⟨-, rest, hrest, rfl⟩ := encodeFrom_cons_eq_ok_iff.mp h
      simp only [List.length_cons, ih hrest, stride]
      omega

/-- Decoding from the place where the encoding began gives the tokens back. -/
theorem decodeFrom_encodeFrom {line column : Nat} {tokens : List Token} {data : List Nat}
    (h : encodeFrom line column tokens = .ok data)
    (hfit : ∀ t ∈ tokens, t.line ≤ Word.limit ∧ t.column ≤ Word.limit) :
    decodeFrom line column data = .ok (tokens.map Token.placed) := by
  induction tokens generalizing line column data with
  | nil =>
      cases h
      rfl
  | cons t more ih =>
      obtain ⟨hplace, rest, hrest, rfl⟩ := encodeFrom_cons_eq_ok_iff.mp h
      obtain ⟨hline, hcolumn⟩ := hfit t List.mem_cons_self
      rw [Position.le_def] at hplace
      simp only [Token.start] at hplace
      have haddLine : Word.add .streamTooLong line (t.line - line) = .ok t.line := by
        rw [Word.add_of_le _ (by omega), Nat.add_sub_cancel' (by omega)]
      have haddColumn : Word.add .streamTooLong (if 0 < t.line - line then 0 else column)
          (t.column - if line < t.line then 0 else column) = .ok t.column := by
        simp only [Nat.sub_pos_iff_lt]
        split
        · rw [Word.add_of_le _ (by omega), Nat.zero_add]
          rfl
        · rw [Word.add_of_le _ (by omega), Nat.add_sub_cancel' (by omega)]
      have hmore := ih hrest fun u hu => hfit u (List.mem_cons_of_mem t hu)
      simp only [decodeFrom, haddLine, haddColumn, hmore, bind, Except.bind]
      rfl

/-- The stream of tokens followed by others goes on from the last of the former. -/
theorem encodeFrom_append {line column : Nat} {a b : List Token} {x y : List Nat} {place : Position}
    (ha : encodeFrom line column a = .ok x) (hplace : placeAfter ⟨line, column⟩ a = place)
    (hb : encodeFrom place.line place.column b = .ok y) :
    encodeFrom line column (a ++ b) = .ok (x ++ y) := by
  induction a generalizing line column x with
  | nil =>
      cases ha
      cases hplace
      exact hb
  | cons t more ih =>
      obtain ⟨hstart, rest, hrest, rfl⟩ := encodeFrom_cons_eq_ok_iff.mp ha
      rw [placeAfter_cons] at hplace
      exact encodeFrom_cons_eq_ok_iff.mpr ⟨hstart, rest ++ y, ih hrest hplace, rfl⟩

end TokenStream

end AsmLens
