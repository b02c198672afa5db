import AsmLens.Proofs.Lexer.Scan

/-!
The columns that the lexer gives. A token's column is the number of code units before it in its
line, whichever way the cursor takes; on a line whose columns are words the lexer never breaks off
(`Lexer.line_eq`), and its tokens are those of its lexemes (`Lexer.lineTokens`).
-/

namespace AsmLens

open Text

/-! ## The cursor -/

namespace ColumnCursor

/-- The cursor can tell the column between `passed` and `ahead`: it has counted the columns of a
front part of `passed` and holds the rest of the line. If it takes the line for ASCII, it is. -/
structure Reaches (cursor : ColumnCursor) (passed ahead : List Char) : Prop where
  ascii : cursor.ascii → isAscii (passed ++ ahead)
  counted : ∃ before gap, passed = before ++ gap ∧ cursor.ahead = gap ++ ahead ∧
    cursor.byte = byteCount before ∧ cursor.column = unitCount before

theorem Reaches.ofLine (line : List Char) : (ofLine line).Reaches [] line where
  ascii := fun h => h
  counted := ⟨[], [], rfl, rfl, rfl, rfl⟩

theorem Reaches.advance {cursor : ColumnCursor} {passed text ahead : List Char}
    (h : cursor.Reaches passed (text ++ ahead)) : cursor.Reaches (passed ++ text) ahead where
  ascii := by
    intro hascii
    rw [List.append_assoc]
    exact h.ascii hascii
  counted := by
    obtain ⟨before, gap, hpassed, hahead, hbyte, hcolumn⟩ := h.counted
    refine ⟨before, gap ++ text, ?_, ?_, hbyte, hcolumn⟩
    · rw [hpassed, List.append_assoc]
    · rw [hahead, List.append_assoc]

/-- Asked for the place that it reaches, the cursor answers with the code units before it. -/
theorem Reaches.moveTo {cursor : ColumnCursor} {passed ahead : List Char}
    (h : cursor.Reaches passed ahead) (hfit : unitCount passed ≤ Word.limit) :
    ∃ next, cursor.moveTo (byteCount passed) = .ok (unitCount passed, next) ∧
      next.Reaches passed ahead := by
  obtain ⟨before, gap, hpassed, hahead, hbyte, hcolumn⟩ := h.counted
  have hbytes : byteCount passed = byteCount before + byteCount gap := by
    rw [hpassed, byteCount_append]
  have hunits : unitCount passed = unitCount before + unitCount gap := by
    rw [hpassed, unitCount_append]
  have hforward : ¬ byteCount passed < cursor.byte := by omega
  -- on an ASCII line the cursor stays where it is, and otherwise it measures the gap and moves on
  cases ha : cursor.ascii with
  | true =>
      have hascii : isAscii passed := by
        have hline := h.ascii ha
        rw [isAscii, List.all_append, Bool.and_eq_true] at hline
        exact hline.1
      refine ⟨cursor, ?_, h⟩
      rw [ColumnCursor.moveTo, if_neg hforward, if_pos ha,
        byteCount_eq_unitCount_of_isAscii hascii, Word.clamp_of_le hfit]
  | false =>
      have hsplit :
          splitBytes (byteCount passed - cursor.byte) cursor.ahead = some (gap, ahead) := by
        rw [hahead, hbyte, hbytes, Nat.add_sub_cancel_left]
        exact splitBytes_byteCount gap ahead
      have hwidth : width gap = unitCount gap := by
        rw [width_eq]
        exact Word.clamp_of_le (by omega)
      have hadd : Word.add .columnTooLarge cursor.column (width gap) = .ok (unitCount passed) := by
        rw [hwidth, hcolumn, hunits]
        exact Word.add_of_le _ (by omega)
      refine ⟨{ cursor with ahead := ahead, byte := byteCount passed, column := unitCount passed },
        ?_, ?_⟩
      · rw [ColumnCursor.moveTo, if_neg hforward, if_neg (by simp [ha])]
        simp only [hsplit, hadd]
        rfl
      · exact ⟨h.ascii, passed, [], (List.append_nil _).symm, rfl, rfl, rfl⟩

end ColumnCursor

/-! ## The tokens of a line -/

namespace Lexer

/-- The tokens of lexemes, the first of which stands at a column. -/
def tokensFrom (number column : Nat) : List Lexeme → List Token
  | [] => []
  | lexeme :: more =>
      match lexeme.category with
      | some category =>
          { line := number, column, text := String.ofList lexeme.text, category }
            :: tokensFrom number (column + unitCount lexeme.text) more
      | none => tokensFrom number (column + unitCount lexeme.text) more

/-- The strays of lexemes, the first of which stands at a byte offset. -/
def straysFrom (number offset : Nat) : List Lexeme → List Stray
  | [] => []
  | lexeme :: more =>
      if lexeme.kind = .stray then
        ⟨number, offset⟩ :: straysFrom number (offset + byteCount lexeme.text) more
      else straysFrom number (offset + byteCount lexeme.text) more

/-- The tokens of a line. -/
def lineTokens (number : Nat) (text : List Char) : List Token :=
  tokensFrom number 0 (Lexeme.scan text)

/-- Where no lexeme is passed over, each is a token. -/
theorem length_tokensFrom {lexemes : List Lexeme} (h : ∀ l ∈ lexemes, l.category ≠ none)
    (line column : Nat) : (tokensFrom line column lexemes).length = lexemes.length := by
  induction lexemes generalizing column with
  | nil => rfl
  | cons lexeme more ih =>
      have hmore := ih fun l hl => h l (List.mem_cons_of_mem lexeme hl)
      cases hcategory : lexeme.category with
      | none => exact absurd hcategory (h lexeme List.mem_cons_self)
      | some category =>
          simp only [tokensFrom, hcategory, List.length_cons, hmore]

/-- The strays of a line. -/
def lineStrays (number : Nat) (text : List Char) : List Stray :=
  straysFrom number 0 (Lexeme.scan text)

/-- A lexeme that makes a token is no stray. -/
theorem kind_ne_stray {lexeme : Lexeme} {category : Category}
    (h : lexeme.category = some category) : lexeme.kind ≠ .stray := by
  intro hk
  rw [Lexeme.category, hk] at h
  cases h

/-- A cursor that reaches the first lexeme serves all of them. -/
theorem place_eq {number : Nat} {lexemes : List Lexeme} {cursor : ColumnCursor}
    {passed ahead : List Char} (hreach : cursor.Reaches passed (Lexeme.spelled lexemes ++ ahead))
    (hfit : unitCount (passed ++ Lexeme.spelled lexemes) ≤ Word.limit) :
    place number cursor (byteCount passed) lexemes =
      .ok ⟨tokensFrom number (unitCount passed) lexemes,
        straysFrom number (byteCount passed) lexemes⟩ := by
  induction lexemes generalizing cursor passed with
  | nil => rfl
  | cons lexeme more ih =>
      rw [Lexeme.spelled_cons, List.append_assoc] at hreach
      rw [Lexeme.spelled_cons, ← List.append_assoc] at hfit
      have hbyte : byteCount passed + byteCount lexeme.text = byteCount (passed ++ lexeme.text) :=
        (byteCount_append _ _).symm
      have hunit : unitCount passed + unitCount lexeme.text = unitCount (passed ++ lexeme.text) :=
        (unitCount_append _ _).symm
      cases hc : lexeme.category with
      | none =>
          -- the cursor is not asked here, so the gap behind it grows
          have hmore := ih hreach.advance hfit
          simp only [place, tokensFrom, straysFrom, hc, hbyte, hunit, hmore, bind, Except.bind]
          split <;> rfl
      | some category =>
          have hpassed : unitCount passed ≤ Word.limit := by
            rw [unitCount_append, unitCount_append] at hfit
            omega
          obtain ⟨next, hmove, hnext⟩ := hreach.moveTo hpassed
          have hmore := ih hnext.advance hfit
          simp only [place, tokensFrom, straysFrom, hc, if_neg (kind_ne_stray hc), hbyte, hunit,
            hmove, hmore, bind, Except.bind]
          rfl

/-- What the lexemes of a line spell is no longer than the line. -/
theorem unitCount_spelled_scan_le (text : List Char) :
    unitCount (Lexeme.spelled (Lexeme.scan text)) ≤ unitCount text := by
  obtain ⟨ahead, hahead⟩ := Lexeme.spelled_scan_prefix text
  calc unitCount (Lexeme.spelled (Lexeme.scan text))
      ≤ unitCount (Lexeme.spelled (Lexeme.scan text) ++ ahead) := by
        rw [unitCount_append]
        exact Nat.le_add_right _ _
    _ = unitCount text := by rw [hahead]

/-- A cursor that reaches the start of a line gives all of its tokens their columns. -/
theorem place_scan_eq {text : List Char} {cursor : ColumnCursor} (number : Nat)
    (hreach : cursor.Reaches [] text) (hfit : unitCount text ≤ Word.limit) :
    place number cursor 0 (Lexeme.scan text) =
      .ok ⟨lineTokens number text, lineStrays number text⟩ := by
  obtain ⟨ahead, hahead⟩ := Lexeme.spelled_scan_prefix text
  rw [← hahead] at hreach
  exact place_eq hreach (Nat.le_trans (unitCount_spelled_scan_le text) hfit)

/-- A line whose columns are words is lexed. -/
theorem line_eq {text : List Char} (number : Nat) (hfit : unitCount text ≤ Word.limit) :
    line number text = .ok ⟨lineTokens number text, lineStrays number text⟩ :=
  place_scan_eq number (.ofLine text) hfit

end Lexer

end AsmLens
