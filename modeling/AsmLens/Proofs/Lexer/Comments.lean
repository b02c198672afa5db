import AsmLens.Proofs.Lexer.Grammar
import Mathlib.Data.List.DropRight

/-!
What a comment leaves alone. The scan reads the part of a line in front of the first semicolon as it
reads that part by itself (`Lexeme.scan_append`), so the tokens that are no comment are the tokens
of that part (`Lexer.filter_lineTokens`); carriage returns at its end make none. On a line that is
too long for words the columns are those of the line as far as a word can tell them
(`Lexer.Lexed.tokens_eq`); whether a line is all ASCII, which its comment may decide, does not show
in them.
-/

namespace AsmLens

open Text

/-- The part of a line in front of its first semicolon, all of it where there is none. Carriage
returns at the end are left out: those of a terminator are not told from others. -/
def Text.code (line : List Char) : List Char :=
  (line.takeWhile (· ≠ ';')).rdropWhile (· = '\r')

theorem Text.not_mem_code (line : List Char) : ';' ∉ code line := by
  intro hmem
  have hfront := (List.rdropWhile_prefix _ _).subset hmem
  simpa using List.all_eq_true.mp List.all_takeWhile ';' hfront

/-- Behind its code a line has carriage returns, and then it is empty or a comment. -/
theorem Text.exists_code_append (line : List Char) :
    ∃ returns rest, line = code line ++ (returns ++ rest) ∧ (∀ c ∈ returns, c = '\r') ∧
      ∀ c ∈ rest.head?, c = ';' := by
  refine ⟨(line.takeWhile (· ≠ ';')).rtakeWhile (· = '\r'), line.dropWhile (· ≠ ';'), ?_, ?_, ?_⟩
  · rw [code, ← List.append_assoc, List.rdropWhile_append_rtakeWhile,
      List.takeWhile_append_dropWhile]
  · intro c hc
    simpa using List.mem_rtakeWhile_imp hc
  · intro c hc
    simpa using head?_dropWhile (· ≠ ';') line c hc

/-! ## The scan of a line's code -/

/-- A run that comes to an end in a text, or at the end of it, ends there whatever follows. -/
theorem takeWhile_append_of_head? {p : Char → Bool} {s : List Char}
    (hs : ∀ c ∈ s.head?, p c = false) (x : List Char) :
    (x ++ s).takeWhile p = x.takeWhile p ∧ (x ++ s).dropWhile p = x.dropWhile p ++ s := by
  induction x with
  | nil =>
      cases s with
      | nil => simp
      | cons c rest => simp [hs c rfl]
  | cons c rest ih => by_cases hc : p c <;> simp [hc, ih]

theorem not_mem_dropWhile {c d : Char} {p : Char → Bool} {x : List Char} (h : c ∉ d :: x) :
    c ∉ x.dropWhile p :=
  fun hmem => h (List.mem_cons_of_mem d ((List.dropWhile_sublist p).subset hmem))

namespace Lexeme

theorem isDigit_of_not_isWordPart {c : Char} (h : isWordPart c = false) : isDigit c = false := by
  simpa using (not_open_of_not_isWordPart h).1

/-- Where no word goes on, a text is scanned in two parts. -/
theorem scan_append {x rest : List Char} (hcode : ';' ∉ x)
    (hrest : ∀ c ∈ rest.head?, isWordPart c = false) :
    scan (x ++ rest) = scan x ++ scan rest := by
  have hdigits : ∀ c ∈ rest.head?, isDigit c = false := by
    intro c hc
    exact isDigit_of_not_isWordPart (hrest c hc)
  fun_induction scan x with
  | case1 => simp
  | case2 y => simp at hcode
  | case3 c y hsemicolon hdigit ih =>
      obtain ⟨htake, hdrop⟩ := takeWhile_append_of_head? hdigits y
      rw [List.cons_append, scan, if_neg hsemicolon, if_pos hdigit, htake, hdrop,
        ih (not_mem_dropWhile hcode), List.cons_append]
  | case4 c y hsemicolon hdigit hstart ih =>
      obtain ⟨htake, hdrop⟩ := takeWhile_append_of_head? hrest y
      rw [List.cons_append, scan, if_neg hsemicolon, if_neg hdigit, if_pos hstart, htake, hdrop,
        ih (not_mem_dropWhile hcode), List.cons_append]
  | case5 c y hsemicolon hdigit hstart hoperator ih =>
      rw [List.cons_append, scan, if_neg hsemicolon, if_neg hdigit, if_neg hstart,
        if_pos hoperator, ih (List.not_mem_of_not_mem_cons hcode), List.cons_append]
  | case6 c y hsemicolon hdigit hstart hoperator hblank ih =>
      rw [List.cons_append, scan, if_neg hsemicolon, if_neg hdigit, if_neg hstart,
        if_neg hoperator, if_pos hblank, ih (List.not_mem_of_not_mem_cons hcode), List.cons_append]
  | case7 c y hsemicolon hdigit hstart hoperator hblank ih =>
      rw [List.cons_append, scan, if_neg hsemicolon, if_neg hdigit, if_neg hstart,
        if_neg hoperator, if_neg hblank, ih (List.not_mem_of_not_mem_cons hcode), List.cons_append]

/-- Without a semicolon there is no comment. -/
theorem kind_ne_comment {x : List Char} (hcode : ';' ∉ x) : ∀ l ∈ scan x, l.kind ≠ .comment := by
  fun_induction scan x with
  | case1 => simp
  | case2 y => simp at hcode
  | case3 c y _ _ ih =>
      exact List.forall_mem_cons.mpr ⟨by simp, ih (not_mem_dropWhile hcode)⟩
  | case4 c y _ _ _ ih =>
      exact List.forall_mem_cons.mpr ⟨by simp, ih (not_mem_dropWhile hcode)⟩
  | case5 c y _ _ _ _ ih =>
      exact List.forall_mem_cons.mpr ⟨by simp, ih (List.not_mem_of_not_mem_cons hcode)⟩
  | case6 c y _ _ _ _ _ ih =>
      exact List.forall_mem_cons.mpr ⟨by simp, ih (List.not_mem_of_not_mem_cons hcode)⟩
  | case7 c y _ _ _ _ _ ih =>
      exact List.forall_mem_cons.mpr ⟨by simp, ih (List.not_mem_of_not_mem_cons hcode)⟩

/-- Carriage returns and a comment behind them make no tokens but that comment. -/
theorem category_of_mem_scan_returns {returns rest : List Char}
    (hreturns : ∀ c ∈ returns, c = '\r') (hrest : ∀ c ∈ rest.head?, c = ';') :
    ∀ l ∈ scan (returns ++ rest), l.category = none ∨ l.category = some .comment := by
  induction returns with
  | nil =>
      cases rest with
      | nil => simp [scan]
      | cons c comment =>
          obtain rfl := hrest c rfl
          simp [scan, category]
  | cons c more ih =>
      obtain ⟨rfl, hmore⟩ := List.forall_mem_cons.mp hreturns
      have hscan : scan ('\r' :: (more ++ rest)) = ⟨.blank, ['\r']⟩ :: scan (more ++ rest) := by
        simp [scan, show isDigit '\r' = false by decide, show isWordStart '\r' = false by decide,
          show isOperator '\r' = false by decide, show isBlank '\r' = true by decide]
      rw [List.cons_append, hscan]
      exact List.forall_mem_cons.mpr ⟨Or.inl rfl, ih hmore⟩

/-- A line is scanned as its code, and what is behind it makes no tokens but a comment. -/
theorem scan_eq_scan_code_append (line : List Char) :
    ∃ behind, scan line = scan (code line) ++ behind ∧
      ∀ l ∈ behind, l.category = none ∨ l.category = some .comment := by
  obtain ⟨returns, rest, hline, hreturns, hrest⟩ := exists_code_append line
  have hhead : ∀ c ∈ (returns ++ rest).head?, isWordPart c = false := by
    cases returns with
    | nil =>
        intro c hc
        rw [hrest c hc]
        decide
    | cons d more =>
        rintro c ⟨⟩
        rw [hreturns d List.mem_cons_self]
        decide
  have hsplit := scan_append (not_mem_code line) hhead
  rw [← hline] at hsplit
  exact ⟨scan (returns ++ rest), hsplit, category_of_mem_scan_returns hreturns hrest⟩

end Lexeme

namespace Lexer

theorem tokensFrom_append (number column : Nat) (a b : List Lexeme) :
    tokensFrom number column (a ++ b) =
      tokensFrom number column a ++
        tokensFrom number (column + unitCount (Lexeme.spelled a)) b := by
  induction a generalizing column with
  | nil => rfl
  | cons lexeme more ih =>
      rw [List.cons_append, Lexeme.spelled_cons, unitCount_append]
      simp only [tokensFrom, ih, Nat.add_assoc]
      split <;> rfl

/-- Every token is made of a lexeme. -/
theorem category_of_mem_tokensFrom {number column : Nat} {lexemes : List Lexeme} {t : Token}
    (h : t ∈ tokensFrom number column lexemes) : ∃ l ∈ lexemes, l.category = some t.category := by
  induction lexemes generalizing column with
  | nil => cases h
  | cons lexeme more ih =>
      simp only [tokensFrom] at h
      split at h
      · next category hcategory =>
        rcases List.mem_cons.mp h with rfl | h
        · exact ⟨lexeme, List.mem_cons_self, hcategory⟩
        · obtain ⟨l, hl, hsame⟩ := ih h
          exact ⟨l, List.mem_cons_of_mem lexeme hl, hsame⟩
      · obtain ⟨l, hl, hsame⟩ := ih h
        exact ⟨l, List.mem_cons_of_mem lexeme hl, hsame⟩

/-- The tokens of a line that are no comment are those of its code. -/
theorem filter_lineTokens (number : Nat) (line : List Char) :
    (lineTokens number line).filter (·.category ≠ .comment) = lineTokens number (code line) := by
  obtain ⟨behind, hscan, hbehind⟩ := Lexeme.scan_eq_scan_code_append line
  have hcode : ∀ t ∈ lineTokens number (code line), t.category ≠ .comment := by
    intro t ht hcomment
    obtain ⟨l, hl, hcategory⟩ := category_of_mem_tokensFrom ht
    rw [hcomment] at hcategory
    exact Lexeme.kind_ne_comment (not_mem_code line) l hl
      (Lexeme.kind_of_category_comment hcategory)
  have hnone : ∀ column, ∀ t ∈ tokensFrom number column behind, t.category = .comment := by
    intro column t ht
    obtain ⟨l, hl, hcategory⟩ := category_of_mem_tokensFrom ht
    rcases hbehind l hl with hnothing | hcomment
    · cases hnothing.symm.trans hcategory
    · exact Option.some.inj (hcategory.symm.trans hcomment)
  have hsplit : ∃ column, lineTokens number line =
      lineTokens number (code line) ++ tokensFrom number column behind :=
    ⟨_, by rw [lineTokens, hscan, tokensFrom_append]; rfl⟩
  obtain ⟨column, hsplit⟩ := hsplit
  rw [hsplit, List.filter_append, List.filter_eq_self.mpr fun t ht => decide_eq_true (hcode t ht),
    List.filter_eq_nil_iff.mpr fun t ht => by simp [hnone column t ht], List.append_nil]

end Lexer

/-! ## Columns that no word can tell -/

/-- The token with the column that is the nearest word. -/
def Token.inWords (t : Token) : Token := { t with column := Word.clamp t.column }

/-- The cursor has counted the columns up to a place as far as words count. -/
def ColumnCursor.Tells (cursor : ColumnCursor) (passed ahead : List Char) : Prop :=
  ∃ units, { cursor with column := units }.Reaches passed ahead ∧
    cursor.column = Word.clamp units

namespace ColumnCursor

variable {cursor : ColumnCursor} {passed text ahead : List Char}

theorem Tells.ofLine (line : List Char) : (ofLine line).Tells [] line :=
  ⟨0, .ofLine line, rfl⟩

theorem Tells.advance (h : cursor.Tells passed (text ++ ahead)) :
    cursor.Tells (passed ++ text) ahead := by
  obtain ⟨units, hreach, hunits⟩ := h
  exact ⟨units, hreach.advance, hunits⟩

/-- Whatever is answered is the word nearest to the number of code units. -/
theorem Tells.moveTo_of_ok (h : cursor.Tells passed ahead) {column : Nat} {next : ColumnCursor}
    (hmove : cursor.moveTo (byteCount passed) = .ok (column, next)) :
    column = Word.clamp (unitCount passed) ∧ next.Tells passed ahead := by
  obtain ⟨units, hreach, hunits⟩ := h
  unfold moveTo at hmove
  split at hmove
  · cases hmove
  · split at hmove
    · next ha =>
      cases hmove
      have hline := hreach.ascii ha
      rw [isAscii, List.all_append, Bool.and_eq_true] at hline
      rw [byteCount_eq_unitCount_of_isAscii hline.1]
      exact ⟨rfl, units, hreach, hunits⟩
    · obtain ⟨before, gap, rfl, hahead, hbyte, rfl⟩ := hreach.counted
      simp only at hahead hbyte
      have hsplit : splitBytes (byteCount (before ++ gap) - cursor.byte) cursor.ahead =
          some (gap, ahead) := by
        rw [hahead, hbyte, byteCount_append, Nat.add_sub_cancel_left]
        exact splitBytes_byteCount gap ahead
      simp only [hsplit] at hmove
      obtain ⟨sum, hsum, hmove⟩ := Checked.bind_eq_ok_iff.mp hmove
      cases hmove
      obtain ⟨hle, rfl⟩ := Word.add_eq_ok_iff.mp hsum
      -- a count that has stopped at the largest word leaves room for no more of the line
      have hcolumn : cursor.column + width gap = Word.clamp (unitCount (before ++ gap)) := by
        rw [hunits, width_eq] at hle ⊢
        rw [unitCount_append]
        simp only [Word.clamp, Word.limit] at hle ⊢
        omega
      exact ⟨hcolumn, _, ⟨hreach.ascii, before ++ gap, [], (List.append_nil _).symm, rfl, rfl, rfl⟩,
        hcolumn⟩

end ColumnCursor

namespace Lexer

/-- The tokens of lexemes that have been given places. -/
theorem tokens_of_place {number : Nat} {lexemes : List Lexeme} {cursor : ColumnCursor}
    {passed ahead : List Char} {found : Scanned}
    (hcursor : cursor.Tells passed (Lexeme.spelled lexemes ++ ahead))
    (h : place number cursor (byteCount passed) lexemes = .ok found) :
    found.tokens = (tokensFrom number (unitCount passed) lexemes).map Token.inWords := by
  induction lexemes generalizing cursor passed found with
  | nil =>
      cases h
      rfl
  | cons lexeme more ih =>
      rw [Lexeme.spelled_cons, List.append_assoc] at hcursor
      simp only [place, ← byteCount_append] at h
      simp only [tokensFrom, ← unitCount_append]
      cases hcategory : lexeme.category with
      | none =>
          simp only [hcategory] at h
          obtain ⟨later, hlater, h⟩ := Checked.bind_eq_ok_iff.mp h
          have hmore := ih hcursor.advance hlater
          split at h
          · cases h
            exact hmore
          · cases h
            exact hmore
      | some category =>
          simp only [hcategory] at h
          obtain ⟨⟨column, next⟩, hmove, h⟩ := Checked.bind_eq_ok_iff.mp h
          obtain ⟨later, hlater, h⟩ := Checked.bind_eq_ok_iff.mp h
          cases h
          obtain ⟨rfl, hnext⟩ := hcursor.moveTo_of_ok hmove
          rw [List.map_cons, ← ih hnext.advance hlater]
          rfl

/-- The tokens of a lexed line are those of its text, their columns as far as words tell them. -/
theorem Lexed.tokens_eq {number : Nat} {lexed : List Char × Scanned} (h : Lexed number lexed) :
    lexed.2.tokens = (lineTokens number lexed.1).map Token.inWords := by
  obtain ⟨ahead, hahead⟩ := Lexeme.spelled_scan_prefix lexed.1
  have hcursor := ColumnCursor.Tells.ofLine lexed.1
  have hplace : place number (.ofLine lexed.1) 0 (Lexeme.scan lexed.1) = .ok lexed.2 := h
  generalize ColumnCursor.ofLine lexed.1 = cursor at hcursor hplace
  rw [← hahead] at hcursor
  exact tokens_of_place hcursor hplace

/-- The body of a lexed line is told by its code. -/
theorem Lexed.body_eq {number : Nat} {lexed : List Char × Scanned} (h : Lexed number lexed) :
    Statement.body lexed.2.tokens = (lineTokens number (code lexed.1)).map Token.inWords := by
  rw [Statement.body_eq_filter h.wholeLine, h.tokens_eq, List.filter_map, ← filter_lineTokens]
  rfl

end Lexer

end AsmLens
