import Mathlib
import AsmLens.Proofs.Lexer.Places

/-!
Columns count code units. Every token of a line has as its column the number of UTF-16 code units in
front of it, and from there on the line holds as many code units of the token as its length says
(`line_units`). A cursor that walks over an ASCII line as it does over any other answers the same as
one that takes the bytes for columns, so neither way shows in what is found.
-/

namespace AsmLens

open Text

/-- The cursor that takes no line for ASCII. -/
def ColumnCursor.walking (cursor : ColumnCursor) : ColumnCursor := { cursor with ascii := false }

theorem ColumnCursor.Reaches.walking {cursor : ColumnCursor} {passed ahead : List Char}
    (h : cursor.Reaches passed ahead) : cursor.walking.Reaches passed ahead where
  ascii := by
    intro hascii
    cases hascii
  counted := h.counted

/-- The token stands in a line behind a text: its column is the number of code units of that text,
its length the number of its own, and these are the code units that the line holds there. -/
structure Token.StandsBehind (t : Token) (before line : List Char) : Prop where
  inLine : before ++ t.text.toList <+: line
  column : t.column = unitCount before
  length : t.length = unitCount t.text.toList
  units : ((codeUnits line).drop t.column).take t.length = codeUnits t.text.toList

namespace SpacedToken

theorem getElem?_placed (number column : Nat) (tokens : List SpacedToken) (i : Nat) :
    (placed number column tokens)[i]? = tokens[i]?.map fun s =>
      s.token number (column + unitCount (spelled (tokens.take i) ++ s.gap)) := by
  induction tokens generalizing column i with
  | nil => rfl
  | cons s more ih =>
      cases i with
      | zero => rfl
      | succ i =>
          simp only [placed, List.getElem?_cons_succ, ih, List.take_succ_cons, spelled_cons,
            unitCount_append, Nat.add_assoc]

/-- A line spells what stands in front of a token, the token, and what is behind it. -/
theorem spelled_of_getElem? {tokens : List SpacedToken} {i : Nat} {s : SpacedToken}
    (h : tokens[i]? = some s) :
    spelled tokens =
      spelled (tokens.take i) ++ s.gap ++ (s.text ++ spelled (tokens.drop (i + 1))) := by
  obtain ⟨hi, rfl⟩ := List.getElem?_eq_some_iff.mp h
  calc spelled tokens
      = spelled (tokens.take i ++ tokens[i] :: tokens.drop (i + 1)) := by
        rw [List.getElem_cons_drop, List.take_append_drop]
    _ = spelled (tokens.take i) ++ tokens[i].gap ++
          (tokens[i].text ++ spelled (tokens.drop (i + 1))) := by
        rw [spelled_append, spelled_cons, List.append_assoc]

end SpacedToken

/-- A token stands behind the text in front of it if it is placed at the column where that text
ends. -/
theorem SpacedToken.standsBehind {s : SpacedToken} {before after line : List Char}
    (hline : before ++ (s.text ++ after) = line) (hfit : unitCount line ≤ Word.limit)
    (number : Nat) : (s.token number (unitCount before)).StandsBehind before line := by
  have htext : (s.token number (unitCount before)).text.toList = s.text := String.toList_ofList
  have hlength : (s.token number (unitCount before)).length = unitCount s.text := by
    refine length_token ?_ number _
    rw [← hline, unitCount_append, unitCount_append] at hfit
    omega
  constructor
  case inLine =>
    rw [htext, ← hline, ← List.append_assoc]
    exact List.prefix_append _ _
  case column => rfl
  case length => rw [hlength, htext]
  case units =>
    rw [hlength, htext, ← hline, codeUnits_append, codeUnits_append]
    show ((codeUnits before ++ (codeUnits s.text ++ codeUnits after)).drop
      (codeUnits before).length).take (codeUnits s.text).length = codeUnits s.text
    rw [List.drop_left, List.take_left]

/-- A line of fewer than 2^32 code units is lexed, whether or not the bytes of an ASCII line are
taken for its columns, and its tokens are those of its reading. Each stands behind the text in front
of it: the tokens before it with their gaps, and its own gap. -/
theorem line_units (number : Nat) {text : List Char} (hfit : unitCount text ≤ Word.limit) :
    ∃ found reading, Lexer.line number text = .ok found ∧
      Lexer.place number (ColumnCursor.ofLine text).walking 0 (Lexeme.scan text) = .ok found ∧
      LineGrammar text reading ∧
      found.tokens.length = reading.tokens.length ∧
      ∀ (i : Nat) (t : Token), found.tokens[i]? = some t → ∃ s, reading.tokens[i]? = some s ∧
        t.text = String.ofList s.text ∧
        t.StandsBehind (SpacedToken.spelled (reading.tokens.take i) ++ s.gap) text := by
  obtain ⟨reading, hreading, -⟩ := exists_reading text
  refine ⟨⟨Lexer.lineTokens number text, Lexer.lineStrays number text⟩, reading,
    Lexer.line_eq number hfit,
    Lexer.place_scan_eq number (ColumnCursor.Reaches.ofLine text).walking hfit, hreading, ?_, ?_⟩
  · rw [hreading.lineTokens_eq, SpacedToken.length_placed]
  · intro i t ht
    rw [hreading.lineTokens_eq, SpacedToken.getElem?_placed] at ht
    obtain ⟨s, hs, rfl⟩ := Option.map_eq_some_iff.mp ht
    have hline := hreading.spelled_append
    rw [SpacedToken.spelled_of_getElem? hs, List.append_assoc _ _ (reading.lastGap ++ _),
      List.append_assoc s.text] at hline
    rw [Nat.zero_add]
    exact ⟨s, hs, rfl, SpacedToken.standsBehind hline hfit number⟩

/-- Characters of one, two, three and four bytes, in a gap, between tokens and in a comment. -/
theorem line_units_mixed :
    unitCount "é€𝒳 ab:𝒳[1] ; é𝒳".toList ≤ Word.limit ∧
      ∃ found reading, Lexer.line 0 "é€𝒳 ab:𝒳[1] ; é𝒳".toList = .ok found ∧
        LineGrammar "é€𝒳 ab:𝒳[1] ; é𝒳".toList reading ∧
        found.tokens.map (fun t => (t.column, t.length)) =
          [(5, 2), (7, 1), (10, 1), (11, 1), (12, 1), (14, 5)] ∧
        ∀ (i : Nat) (t : Token), found.tokens[i]? = some t → ∃ s, reading.tokens[i]? = some s ∧
          t.StandsBehind (SpacedToken.spelled (reading.tokens.take i) ++ s.gap)
            "é€𝒳 ab:𝒳[1] ; é𝒳".toList := by
  have hfit : unitCount "é€𝒳 ab:𝒳[1] ; é𝒳".toList ≤ Word.limit := by decide
  have hplaces : (Lexer.line 0 "é€𝒳 ab:𝒳[1] ; é𝒳".toList).map
      (fun found => found.tokens.map fun t => (t.column, t.length)) =
        .ok [(5, 2), (7, 1), (10, 1), (11, 1), (12, 1), (14, 5)] := by
    cbv
  obtain ⟨found, reading, hfound, -, hreading, -, hstands⟩ := line_units 0 hfit
  rw [hfound] at hplaces
  refine ⟨hfit, found, reading, hfound, hreading, Except.ok.inj hplaces, ?_⟩
  intro i t ht
  obtain ⟨s, hs, -, hbehind⟩ := hstands i t ht
  exact ⟨s, hs, hbehind⟩

end AsmLens
