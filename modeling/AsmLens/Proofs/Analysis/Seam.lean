import AsmLens.Proofs.Analysis.Lowered

/-!
Two texts with a newline between them. The analysis of the whole is the two analyses one after the
other, the second as many lines lower as the first text has; in the token stream, where a tuple
tells only its distance from the one before, that moves the first tuple of the second text and no
other (`analyze_append_newline`).
-/

namespace AsmLens

/-! ## Lowered streams -/

namespace TokenStream

/-- Where the place in front moves down with the tokens, no step changes. -/
theorem encodeFrom_moveDown (count : Nat) {line column : Nat} {tokens : List Token}
    {data : List Nat} (h : encodeFrom line column tokens = .ok data) :
    encodeFrom (line + count) column (tokens.map (Token.moveDown count)) = .ok data := by
  induction tokens generalizing line column data with
  | nil => exact h
  | cons t more ih =>
      obtain ⟨hplace, rest, hrest, rfl⟩ := encodeFrom_cons_eq_ok_iff.mp h
      rw [Position.le_def] at hplace
      simp only [Token.start] at hplace
      refine encodeFrom_cons_eq_ok_iff.mpr ⟨?_, rest, ih hrest, ?_⟩
      · rw [Position.le_def]
        show line + count < t.line + count ∨ line + count = t.line + count ∧ column ≤ t.column
        omega
      · show _ = (t.line + count - (line + count)) ::
          (t.column - if line + count < t.line + count then 0 else column) :: _
        simp only [Nat.add_sub_add_right, Nat.add_lt_add_iff_right]
        rfl

/-- From a place above all of them, lowered tokens take one longer step, and then the steps that
they took before. The column in front does not matter, since the first step changes the line. -/
theorem encodeFrom_above {count : Nat} {place : Position} (hplace : place.line < count)
    {tokens : List Token} {data : List Nat} (h : encode tokens = .ok data) :
    encodeFrom place.line place.column (tokens.map (Token.moveDown count)) =
      .ok (data.modifyHead (· + (count - place.line))) := by
  cases tokens with
  | nil =>
      cases h
      rfl
  | cons t more =>
      obtain ⟨-, rest, hrest, rfl⟩ := encodeFrom_cons_eq_ok_iff.mp h
      have hbelow : place.line < t.line + count := by omega
      refine encodeFrom_cons_eq_ok_iff.mpr ⟨?_, rest, encodeFrom_moveDown count hrest, ?_⟩
      · rw [Position.le_def]
        exact Or.inl hbelow
      · show (t.line - 0 + (count - place.line)) :: _ = (t.line + count - place.line) ::
          (t.column - if place.line < t.line + count then 0 else place.column) :: _
        rw [if_pos hbelow, ite_self, Nat.sub_zero, Nat.add_sub_assoc (Nat.le_of_lt hplace)]
        rfl

end TokenStream

/-! ## The tokens on both sides -/

theorem settledTokens_append (number : Nat) (a : List (List Char)) {b : List (List Char)}
    (hfit : ∀ text ∈ b, Text.unitCount text ≤ Word.limit) :
    settledTokens number (a ++ b) =
      settledTokens number a ++ (settledTokens number b).map (Token.moveDown a.length) := by
  simp only [settledTokens, judgedLines_append, judgedLines_add number a.length hfit,
    List.flatMap_append, List.flatMap_map, List.map_flatMap, JudgedLine.settled_moveDown]

/-- The line of the last token of a stream; the first line, where there is none. -/
def lastLine (placed : List PlacedToken) : Nat := (placed.getLast?.map PlacedToken.line).getD 0

theorem line_placeAfter_start (tokens : List Token) :
    (TokenStream.placeAfter ⟨0, 0⟩ tokens).line = lastLine (tokens.map Token.placed) := by
  rw [TokenStream.placeAfter, lastLine, List.getLast?_map]
  cases tokens.getLast? <;> rfl

theorem lastLine_settledTokens_lt {texts : List (List Char)}
    (hfit : ∀ text ∈ texts, Text.unitCount text ≤ Word.limit) (hne : texts ≠ []) :
    lastLine ((settledTokens 0 texts).map Token.placed) < texts.length := by
  rw [lastLine, List.getLast?_map]
  cases hlast : (settledTokens 0 texts).getLast? with
  | none => exact List.length_pos_iff.mpr hne
  | some t =>
      have hline := line_of_mem_settledTokens hfit 0 (List.mem_of_getLast? hlast)
      rw [Nat.zero_add] at hline
      exact hline.2

/-! ## The seam -/

/-- Where words can number and measure two texts with a newline between them, the analysis of the
whole is that of the first text, followed by that of the second on lower lines. -/
theorem analyze_append_newline (a b : String)
    (h : Text.FitsWords (a ++ "\n" ++ b).toList) :
    Text.lineCount (a ++ "\n" ++ b).toList =
        Text.lineCount a.toList + Text.lineCount b.toList ∧
      ∃ x y whole placed,
        analyze a = .ok x ∧ analyze b = .ok y ∧ analyze (a ++ "\n" ++ b) = .ok whole ∧
        TokenStream.decode x.value.tokens = .ok placed ∧
        lastLine placed < Text.lineCount a.toList ∧
        whole.value.labels = x.value.labels ++ y.value.labels ∧
        whole.value.diagnostics = x.value.diagnostics ++
          y.value.diagnostics.map (Diagnostic.moveDown (Text.lineCount a.toList)) ∧
        whole.value.tokens = x.value.tokens ++
          y.value.tokens.modifyHead (· + (Text.lineCount a.toList - lastLine placed)) := by
  have hlines : Text.lines (a ++ "\n" ++ b).toList =
      Text.lines a.toList ++ Text.lines b.toList := by
    rw [Text.toList_append_newline, Text.lines_append_newline]
  have ha : Text.FitsWords a.toList := by
    rw [Text.toList_append_newline] at h
    exact h.left
  have hb : Text.FitsWords b.toList := by
    rw [Text.toList_append_newline] at h
    exact h.right
  obtain ⟨x, hx, hxtokens, hxdecode, hxdiagnostics, hxlabels⟩ := analyze_eq ha
  obtain ⟨y, hy, hytokens, -, hydiagnostics, hylabels⟩ := analyze_eq hb
  obtain ⟨whole, hwhole, htokens, -, hdiagnostics, hlabels⟩ := analyze_eq h
  rw [hlines] at htokens hdiagnostics hlabels
  rw [h.lineCount_eq, ha.lineCount_eq, hb.lineCount_eq, hlines]
  -- the seam changes the line, since the first text has a line for its last token
  have hlast := lastLine_settledTokens_lt ha.columns
    (List.ne_nil_of_length_pos (by rw [Text.length_lines]; exact Nat.succ_pos _))
  refine ⟨List.length_append, x, y, whole, _, hx, hy, hwhole, hxdecode, hlast, ?_, ?_, ?_⟩
  · rw [hlabels, hxlabels, hylabels, judgedLines_append, judgedLines_add 0 _ hb.columns,
      List.flatMap_append, List.flatMap_map]
    simp only [JudgedLine.labels_moveDown]
  · rw [hdiagnostics, hxdiagnostics, hydiagnostics, judgedLines_append,
      judgedLines_add 0 _ hb.columns, List.flatMap_append, List.flatMap_map, List.map_flatMap]
    simp only [JudgedLine.diagnostics_moveDown]
  · rw [settledTokens_append 0 _ hb.columns] at htokens
    have hseam := TokenStream.encodeFrom_append hxtokens rfl
      (TokenStream.encodeFrom_above (by rw [line_placeAfter_start]; exact hlast) hytokens)
    rw [TokenStream.encode, hseam] at htokens
    rw [← Except.ok.inj htokens, line_placeAfter_start]

/-- A carriage return before the seam, and a blank line after it. -/
theorem analyze_append_newline_blank :
    Text.FitsWords ("on:\r" ++ "\n" ++ "\noff").toList ∧
      ∃ x y whole, analyze "on:\r" = .ok x ∧ analyze "\noff" = .ok y ∧
        analyze ("on:\r" ++ "\n" ++ "\noff") = .ok whole ∧
        whole.value.labels = x.value.labels ++ y.value.labels ∧
        whole.value.diagnostics =
          x.value.diagnostics ++ y.value.diagnostics.map (Diagnostic.moveDown 1) := by
  have hfit : Text.FitsWords ("on:\r" ++ "\n" ++ "\noff").toList := .of_byteCount (by decide)
  have hcount : Text.lineCount "on:\r".toList = 1 := by decide
  obtain ⟨-, x, y, whole, placed, hx, hy, hwhole, -, -, hlabels, hdiagnostics, -⟩ :=
    analyze_append_newline "on:\r" "\noff" hfit
  rw [hcount] at hdiagnostics
  exact ⟨hfit, x, y, whole, hx, hy, hwhole, hlabels, hdiagnostics⟩

end AsmLens
