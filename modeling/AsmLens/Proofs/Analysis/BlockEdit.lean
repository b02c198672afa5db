import AsmLens.Proofs.Analysis.Seam
import AsmLens.Proofs.TokenStream.Smallest

/-!
The edit after a block of lines has changed. The stream of a document is that of the lines before
the block, of the block, and of the lines after it, and the block tells on the last of these by one
integer: the step to its first token. So the edit resends the tokens of the block and at most one
more (`between_tokens_of_block`).
-/

namespace AsmLens

/-! ## Streams of lines -/

/-- The lines from the last token of some lines to the line that comes after them. -/
def stepBeyond (texts : List (List Char)) : Nat :=
  texts.length - lastLine ((settledTokens 0 texts).map Token.placed)

/-- Settling keeps the number of tokens. -/
theorem length_settledTokens (number : Nat) (texts : List (List Char)) :
    (settledTokens number texts).length = (Lexer.tokenLines number texts).flatten.length := by
  rw [← flatMap_tokens_judgedLines, settledTokens, List.length_flatMap, List.length_flatMap]
  simp only [JudgedLine.length_settled]

section

variable {a b : List (List Char)} {x y : List Nat}

/-- The stream of lines in front of others is followed by that of the others, with a longer first
step. -/
theorem encode_settledTokens_append
    (ha : ∀ text ∈ a, Text.unitCount text ≤ Word.limit) (hne : a ≠ [])
    (hb : ∀ text ∈ b, Text.unitCount text ≤ Word.limit)
    (hx : TokenStream.encode (settledTokens 0 a) = .ok x)
    (hy : TokenStream.encode (settledTokens 0 b) = .ok y) :
    TokenStream.encode (settledTokens 0 (a ++ b)) =
      .ok (x ++ y.modifyHead (· + stepBeyond a)) := by
  have hlast := lastLine_settledTokens_lt ha hne
  rw [← line_placeAfter_start] at hlast
  rw [settledTokens_append 0 a hb, stepBeyond, ← line_placeAfter_start]
  exact TokenStream.encodeFrom_append hx rfl (TokenStream.encodeFrom_above hlast hy)

/-- The last token of lines that end with a line of tokens stands on that line. -/
theorem lastLine_settledTokens_concat {text : List Char}
    (hfit : Text.unitCount text ≤ Word.limit) (hne : settledTokens 0 [text] ≠ []) :
    lastLine ((settledTokens 0 (a ++ [text])).map Token.placed) = a.length := by
  have hfits : ∀ other ∈ [text], Text.unitCount other ≤ Word.limit := by
    simpa using hfit
  rw [settledTokens_append 0 a hfits, lastLine, List.getLast?_map, List.getLast?_append,
    List.getLast?_map]
  cases hlast : (settledTokens 0 [text]).getLast? with
  | none => exact absurd (List.getLast?_eq_none_iff.mp hlast) hne
  | some t =>
      have hline := (line_of_mem_settledTokens hfits 0 (List.mem_of_getLast? hlast)).2
      show t.line + a.length = a.length
      rw [List.length_singleton] at hline
      omega

/-- Of two lines in one place neither is told from the other by the step beyond it, if both have
tokens or neither has. -/
theorem stepBeyond_concat {s t : List Char} (hs : Text.unitCount s ≤ Word.limit)
    (ht : Text.unitCount t ≤ Word.limit)
    (hboth : settledTokens 0 [s] = [] ↔ settledTokens 0 [t] = []) :
    stepBeyond (a ++ [s]) = stepBeyond (a ++ [t]) := by
  simp only [stepBeyond, List.length_append, List.length_singleton]
  by_cases hnone : settledTokens 0 [s] = []
  · have hfits : ∀ text ∈ [s], Text.unitCount text ≤ Word.limit := by simpa using hs
    have hfitt : ∀ text ∈ [t], Text.unitCount text ≤ Word.limit := by simpa using ht
    rw [settledTokens_append 0 a hfits, settledTokens_append 0 a hfitt, hnone, hboth.mp hnone]
  · rw [lastLine_settledTokens_concat hs hnone,
      lastLine_settledTokens_concat ht (fun h => hnone (hboth.mpr h))]

end

/-! ## A block between other lines -/

section

variable {before x y after : List (List Char)} {a b : List Nat} {edit : Edit}

/-- The edit between two documents that differ in a block resends the block and one token more; and
the block alone, where the step beyond it stays. -/
theorem length_le_of_encode_block (hbefore : before ≠ [])
    (hfitX : ∀ text ∈ before ++ x ++ after, Text.unitCount text ≤ Word.limit)
    (hfitY : ∀ text ∈ before ++ y ++ after, Text.unitCount text ≤ Word.limit)
    (ha : TokenStream.encode (settledTokens 0 (before ++ x ++ after)) = .ok a)
    (hb : TokenStream.encode (settledTokens 0 (before ++ y ++ after)) = .ok b)
    (hedit : Edit.between a b TokenStream.stride = .ok (some edit)) :
    (edit.deleteCount ≤ TokenStream.stride * ((settledTokens 0 x).length + 1) ∧
      edit.data.length ≤ TokenStream.stride * ((settledTokens 0 y).length + 1)) ∧
    (stepBeyond (before ++ x) = stepBeyond (before ++ y) →
      edit.deleteCount ≤ TokenStream.stride * (settledTokens 0 x).length ∧
        edit.data.length ≤ TokenStream.stride * (settledTokens 0 y).length) := by
  simp only [List.forall_mem_append] at hfitX hfitY
  obtain ⟨⟨hfitBefore, hfitx⟩, hfitAfter⟩ := hfitX
  obtain ⟨⟨-, hfity⟩, -⟩ := hfitY
  -- the streams of the parts, each from the start of a document
  obtain ⟨front, hfront⟩ := TokenStream.encode_of_ordered (settledTokens_ordered hfitBefore 0)
  obtain ⟨xs, hxs⟩ := TokenStream.encode_of_ordered (settledTokens_ordered hfitx 0)
  obtain ⟨ys, hys⟩ := TokenStream.encode_of_ordered (settledTokens_ordered hfity 0)
  obtain ⟨back, hback⟩ := TokenStream.encode_of_ordered (settledTokens_ordered hfitAfter 0)
  have hstream : ∀ (z : List (List Char)) (zs : List Nat),
      (∀ text ∈ z, Text.unitCount text ≤ Word.limit) →
      TokenStream.encode (settledTokens 0 z) = .ok zs →
      TokenStream.encode (settledTokens 0 (before ++ z ++ after)) =
        .ok (front ++ zs.modifyHead (· + stepBeyond before) ++
          back.modifyHead (· + stepBeyond (before ++ z))) := by
    intro z zs hfitz hzs
    have hwith := encode_settledTokens_append hfitBefore hbefore hfitz hfront hzs
    refine encode_settledTokens_append ?_ (List.append_ne_nil_of_left_ne_nil hbefore z)
      hfitAfter hwith hback
    rw [List.forall_mem_append]
    exact ⟨hfitBefore, hfitz⟩
  rw [hstream x xs hfitx hxs] at ha
  rw [hstream y ys hfity hys] at hb
  cases ha
  cases hb
  have hfrontLength : TokenStream.stride ∣ front.length :=
    ⟨_, TokenStream.length_encodeFrom hfront⟩
  have hbackLength := TokenStream.length_encodeFrom hback
  have hxsLength := TokenStream.length_encodeFrom hxs
  have hysLength := TokenStream.length_encodeFrom hys
  constructor
  · -- the first tuple behind the block is counted to it, and the others are shared
    have hsplit : ∀ (zs : List Nat) (step : Nat),
        front ++ zs ++ back.modifyHead (· + step) =
          front ++ (zs ++ (back.modifyHead (· + step)).take TokenStream.stride) ++
            back.drop TokenStream.stride := by
      intro zs step
      have hrest : back.drop TokenStream.stride =
          (back.modifyHead (· + step)).drop TokenStream.stride := by
        cases back <;> rfl
      rw [hrest, ← List.append_assoc front, List.append_assoc (front ++ zs),
        List.take_append_drop]
    rw [hsplit, hsplit] at hedit
    have hrest : TokenStream.stride ∣ (back.drop TokenStream.stride).length := by
      rw [List.length_drop, hbackLength]
      exact Nat.dvd_sub (Nat.dvd_mul_right _ _) (Nat.dvd_refl _)
    obtain ⟨-, hdelete, hdata⟩ := Edit.length_le_of_between hfrontLength hrest hedit
    simp only [List.length_append, List.length_modifyHead, List.length_take, hxsLength,
      hysLength] at hdelete hdata
    rw [Nat.mul_succ, Nat.mul_succ]
    omega
  · intro hstep
    rw [hstep] at hedit
    have hall : TokenStream.stride ∣
        (back.modifyHead (· + stepBeyond (before ++ y))).length := by
      rw [List.length_modifyHead, hbackLength]
      exact Nat.dvd_mul_right _ _
    obtain ⟨-, hdelete, hdata⟩ := Edit.length_le_of_between hfrontLength hall hedit
    rw [List.length_modifyHead] at hdelete hdata
    rw [hxsLength] at hdelete
    rw [hysLength] at hdata
    exact ⟨hdelete, hdata⟩

end

/-! ## Texts -/

/-- The tokens of a text are as many as those of its lines. -/
theorem Lexer.exists_document {source : String} (h : Text.FitsWords source.toList) :
    ∃ found, Lexer.document source.toList = .ok found ∧
      found.tokens.length = (settledTokens 0 (Text.lines source.toList)).length :=
  ⟨_, Lexer.document_eq h, (length_settledTokens 0 _).symm⟩

/-- Where a block of lines in a document is replaced by another one, and words can number and
measure both documents, the edit between their token streams takes out and puts in the tokens of the
blocks and at most one token more on either side. For two single lines that both have tokens, or
both have none, it is the tokens of the lines alone. -/
theorem between_tokens_of_block (before x y after : String)
    (hx : Text.FitsWords (before ++ "\n" ++ x ++ "\n" ++ after).toList)
    (hy : Text.FitsWords (before ++ "\n" ++ y ++ "\n" ++ after).toList) :
    ∃ a b foundX foundY edit,
      analyze (before ++ "\n" ++ x ++ "\n" ++ after) = .ok a ∧
      analyze (before ++ "\n" ++ y ++ "\n" ++ after) = .ok b ∧
      Lexer.document x.toList = .ok foundX ∧ Lexer.document y.toList = .ok foundY ∧
      Edit.between a.value.tokens b.value.tokens TokenStream.stride = .ok edit ∧
      ∀ e, edit = some e →
        (e.deleteCount ≤ TokenStream.stride * (foundX.tokens.length + 1) ∧
          e.data.length ≤ TokenStream.stride * (foundY.tokens.length + 1)) ∧
        ('\n' ∉ x.toList → '\n' ∉ y.toList → (foundX.tokens = [] ↔ foundY.tokens = []) →
          e.deleteCount ≤ TokenStream.stride * foundX.tokens.length ∧
            e.data.length ≤ TokenStream.stride * foundY.tokens.length) := by
  have hlines : ∀ z : String, Text.lines (before ++ "\n" ++ z ++ "\n" ++ after).toList =
      Text.lines before.toList ++ Text.lines z.toList ++ Text.lines after.toList := by
    intro z
    rw [Text.toList_append_newline, Text.lines_append_newline, Text.toList_append_newline,
      Text.lines_append_newline]
  have hblock : ∀ z : String,
      Text.FitsWords (before ++ "\n" ++ z ++ "\n" ++ after).toList → Text.FitsWords z.toList := by
    intro z hz
    rw [Text.toList_append_newline, Text.toList_append_newline] at hz
    exact hz.left.right
  obtain ⟨a, ha, haTokens, -, -, -⟩ := analyze_eq hx
  obtain ⟨b, hb, hbTokens, -, -, -⟩ := analyze_eq hy
  obtain ⟨foundX, hfoundX, hcountX⟩ := Lexer.exists_document (hblock x hx)
  obtain ⟨foundY, hfoundY, hcountY⟩ := Lexer.exists_document (hblock y hy)
  obtain ⟨edit, hedit⟩ := Edit.between_total (by decide : 0 < TokenStream.stride)
    a.value.tokens b.value.tokens
  refine ⟨a, b, foundX, foundY, edit, ha, hb, hfoundX, hfoundY, hedit, ?_⟩
  rintro e rfl
  have hfitX := hx.columns
  have hfitY := hy.columns
  rw [hlines] at hfitX hfitY haTokens hbTokens
  have hbefore : Text.lines before.toList ≠ [] :=
    List.ne_nil_of_length_pos (by rw [Text.length_lines]; exact Nat.succ_pos _)
  obtain ⟨hwide, hnarrow⟩ :=
    length_le_of_encode_block hbefore hfitX hfitY haTokens hbTokens hedit
  rw [hcountX, hcountY]
  refine ⟨hwide, fun hlineX hlineY hboth => hnarrow ?_⟩
  -- a text without a newline is a single line
  have hsingle : ∀ z : String, '\n' ∉ z.toList →
      Text.lines z.toList = [Text.dropReturn z.toList] := by
    intro z hz
    rw [Text.lines, Text.pieces_of_not_mem hz]
    rfl
  rw [hsingle x hlineX] at hfitX hcountX ⊢
  rw [hsingle y hlineY] at hfitY hcountY ⊢
  refine stepBeyond_concat (hfitX _ (by simp)) (hfitY _ (by simp)) ?_
  rw [← List.length_eq_zero_iff, ← List.length_eq_zero_iff, ← hcountX, ← hcountY,
    List.length_eq_zero_iff, List.length_eq_zero_iff]
  exact hboth

/-- A line is doubled among lines like it, so that the tokens in front are shared past it. -/
theorem between_tokens_of_block_repeated :
    Text.FitsWords ("1" ++ "\n" ++ "1" ++ "\n" ++ "1").toList ∧
      Text.FitsWords ("1" ++ "\n" ++ "1\n1" ++ "\n" ++ "1").toList ∧
      ∃ a b edit, analyze ("1" ++ "\n" ++ "1" ++ "\n" ++ "1") = .ok a ∧
        analyze ("1" ++ "\n" ++ "1\n1" ++ "\n" ++ "1") = .ok b ∧
        Edit.between a.value.tokens b.value.tokens TokenStream.stride = .ok edit ∧
        ∀ e, edit = some e → e.deleteCount ≤ 10 ∧ e.data.length ≤ 15 := by
  have hx : Text.FitsWords ("1" ++ "\n" ++ "1" ++ "\n" ++ "1").toList :=
    .of_byteCount (by decide)
  have hy : Text.FitsWords ("1" ++ "\n" ++ "1\n1" ++ "\n" ++ "1").toList :=
    .of_byteCount (by decide)
  obtain ⟨a, b, foundX, foundY, edit, ha, hb, hfoundX, hfoundY, hedit, hbounds⟩ :=
    between_tokens_of_block "1" "1" "1\n1" "1" hx hy
  rw [Lexer.document_eq (.of_byteCount (by decide))] at hfoundX hfoundY
  cases hfoundX
  cases hfoundY
  have hscan : Lexeme.scan ['1'] = [⟨.number, ['1']⟩] := by
    simp [Lexeme.scan, Lexeme.isDigit]
  have hcountX : (Lexer.tokenLines 0 [['1']]).flatten.length = 1 := by
    simp [Lexer.tokenLines, Lexer.lineTokens, hscan, Lexer.tokensFrom, Lexeme.category]
  have hcountY : (Lexer.tokenLines 0 [['1'], ['1']]).flatten.length = 2 := by
    simp [Lexer.tokenLines, Lexer.lineTokens, hscan, Lexer.tokensFrom, Lexeme.category]
  refine ⟨hx, hy, a, b, edit, ha, hb, hedit, ?_⟩
  intro e he
  obtain ⟨hdelete, hdata⟩ := (hbounds e he).1
  have hlinesX : Text.lines "1".toList = [['1']] := by decide
  have hlinesY : Text.lines "1\n1".toList = [['1'], ['1']] := by decide
  simp only [hlinesX, hlinesY, hcountX, hcountY] at hdelete hdata
  exact ⟨hdelete, hdata⟩

end AsmLens
