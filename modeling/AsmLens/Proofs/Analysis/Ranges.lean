import Mathlib
import AsmLens.Proofs.Analysis.Verdicts
import AsmLens.Proofs.Lexer.Places

/-!
The ranges of diagnostics. A range is put together from the columns of two tokens, and these are
where the line holds their texts; so it covers text of one line, in front of its comment
(`Span.Covers`): the word that lacks its colon, or the content behind it from its first token to its
last (`Diagnostic.Shows`).
-/

namespace AsmLens

open Text

/-! ## Ranges in a line -/

/-- The range of `covered` in a line, behind `before`, where no comment begins. -/
structure Span.Covers (span : Span) (before covered line : List Char) : Prop where
  text : before ++ covered <+: line
  sameLine : span.finish.line = span.start.line
  start : span.start.column = unitCount before
  finish : span.finish.column = unitCount (before ++ covered)
  nonempty : covered ≠ []
  uncommented : ';' ∉ before ++ covered

namespace Span.Covers

variable {span : Span} {before covered line : List Char} (h : span.Covers before covered line)

include h

theorem start_lt_finish : span.start.column < span.finish.column := by
  have hcovered := unitCount_pos h.nonempty
  rw [h.start, h.finish, unitCount_append]
  omega

theorem finish_le : span.finish.column ≤ unitCount line := by
  obtain ⟨after, hline⟩ := h.text
  rw [h.finish, ← hline, unitCount_append (before ++ covered)]
  exact Nat.le_add_right _ _

/-- The range ends in front of the first semicolon. -/
theorem finish_le_comment : span.finish.column ≤ unitCount (line.takeWhile (· ≠ ';')) := by
  obtain ⟨after, hline⟩ := h.text
  have hnone : ∀ c ∈ before ++ covered, decide (c ≠ ';') = true := by
    intro c hc
    refine decide_eq_true ?_
    rintro rfl
    exact h.uncommented hc
  rw [h.finish, ← hline, List.takeWhile_append_of_pos hnone, unitCount_append (before ++ covered)]
  exact Nat.le_add_right _ _

theorem unitsBetween_eq :
    unitsBetween line span.start.column span.finish.column = codeUnits covered := by
  obtain ⟨after, hline⟩ := h.text
  rw [h.start, h.finish, ← hline, List.append_assoc]
  exact unitsBetween_append before covered after

end Span.Covers

/-! ## What a range shows -/

/-- What the range of a diagnostic shows in its line, given the tokens of the line but its
comment. -/
inductive Diagnostic.Shows : Diagnostic → List Char → List Token → Prop
  /-- The head of the line, a word of no vocabulary. The note quotes it. -/
  | name {d : Diagnostic} {gap name after : List Char} {head : Token} {rest : List Token}
      (hcode : d.code.text = "E1001") (hgap : ∀ c ∈ gap, isFiller c) (hword : Lexeme.IsWord name)
      (hunlisted : ∀ v : Vocabulary, String.ofList name ∉ v.table)
      (hhead : head.text = String.ofList name) (hstart : d.span.start = head.start)
      (hcolumn : head.column = unitCount gap)
      (hcovered : unitsBetween (gap ++ (name ++ after)) d.span.start.column d.span.finish.column =
        codeUnits name)
      (hnotes : d.notes = ["labels are declared as `" ++ String.ofList name ++ ":`"]) :
      Shows d (gap ++ (name ++ after)) (head :: rest)
  /-- All tokens behind the head, from the start of the first to the end of the last. Only filler
  stands between the head and the first. -/
  | content {d : Diagnostic} {gap name between covered after : List Char} {head first last : Token}
      {more : List Token} (hcode : d.code.text = "E1002") (hgap : ∀ c ∈ gap, isFiller c)
      (hword : Lexeme.IsWord name) (hhead : head.text = String.ofList name)
      (hcolumn : head.column = unitCount gap) (hbetween : ∀ c ∈ between, isFiller c)
      (hstart : d.span.start.column = unitCount (gap ++ (name ++ between)))
      (hcovered : unitsBetween (gap ++ (name ++ (between ++ (covered ++ after))))
        d.span.start.column d.span.finish.column = codeUnits covered)
      (hfirst : d.span.start = first.start)
      (hopens : first.text.toList ≠ [] ∧ first.text.toList <+: covered)
      (hlast : more.getLast? = some last)
      (hfinish : d.span.finish = ⟨last.line, last.column + last.length⟩)
      (hcloses : last.text.toList ≠ [] ∧ last.text.toList <:+ covered)
      (hends : ∀ c, covered.head? = some c ∨ covered.getLast? = some c → isFiller c = false) :
      Shows d (gap ++ (name ++ (between ++ (covered ++ after)))) (head :: first :: more)

/-- A diagnostic whose range lies within its line, in front of the comment, and shows what the
diagnostic is about. -/
structure Diagnostic.InText (d : Diagnostic) (line : List Char) (body : List Token) : Prop where
  sameLine : d.span.finish.line = d.span.start.line
  nonempty : d.span.start.column < d.span.finish.column
  inLine : d.span.finish.column ≤ unitCount line
  uncommented : d.span.finish.column ≤ unitCount (line.takeWhile (· ≠ ';'))
  shows : d.Shows line body

theorem Span.Covers.inText {d : Diagnostic} {before covered line : List Char} {body : List Token}
    (h : d.span.Covers before covered line) (hshows : d.Shows line body) : d.InText line body where
  sameLine := h.sameLine
  nonempty := h.start_lt_finish
  inLine := h.finish_le
  uncommented := h.finish_le_comment
  shows := hshows

/-! ## Diagnostics on a line -/

/-- A line as its tokens spell it, the comment left out. -/
structure SpacedToken.SpellBody (tokens : List SpacedToken) (number : Nat) (line : List Char) :
    Prop where
  front : spelled tokens <+: line
  body : Statement.body (Lexer.lineTokens number line) = placed number 0 tokens
  proper : ∀ t ∈ tokens, t.Proper
  noComment : ∀ t ∈ tokens, t.category ≠ .comment
  inWords : ∀ t ∈ tokens, unitCount t.text ≤ Word.limit

theorem exists_spellBody (number : Nat) {line : List Char} (hfit : unitCount line ≤ Word.limit) :
    ∃ tokens, SpacedToken.SpellBody tokens number line := by
  obtain ⟨reading, hreading, -⟩ := exists_reading line
  have hwhole : WholeLine number (Lexer.lineTokens number line) :=
    (Lexer.lexedLine number hfit).toWholeLine
  obtain ⟨tokens, later, hsplit, hplaced⟩ :
      ∃ a b, reading.tokens = a ++ b ∧
        Statement.body (Lexer.lineTokens number line) = SpacedToken.placed number 0 a := by
    refine SpacedToken.exists_of_prefix_placed ?_
    rw [← hreading.lineTokens_eq]
    exact Statement.body_prefix _
  have hspelled : SpacedToken.spelled tokens <+: line := by
    rw [← hreading.spelled_append, hsplit, SpacedToken.spelled_append, List.append_assoc]
    exact List.prefix_append _ _
  refine ⟨tokens, hspelled, hplaced, ?_, ?_, ?_⟩
  · intro t ht
    exact hreading.proper t (by rw [hsplit]; exact List.mem_append_left later ht)
  · intro t ht hcomment
    have hcategory :
        Category.comment ∈ (SpacedToken.placed number 0 tokens).map Token.category := by
      rw [SpacedToken.map_category_placed, ← hcomment]
      exact List.mem_map_of_mem ht
    obtain ⟨u, hu, hcomment⟩ := List.mem_map.mp hcategory
    rw [← hplaced, Statement.body_eq_filter hwhole, List.mem_filter] at hu
    exact of_decide_eq_true hu.2 hcomment
  · intro t ht
    obtain ⟨a, b, rfl⟩ := List.append_of_mem ht
    obtain ⟨after, rfl⟩ := hspelled
    simp only [SpacedToken.spelled_append, SpacedToken.spelled_cons, unitCount_append] at hfit
    omega

namespace SpacedToken.SpellBody

variable {tokens : List SpacedToken} {number : Nat} {line : List Char}

/-- A head that lacks its colon is what is shown. -/
theorem inText_of_missingColon (h : SpellBody tokens number line) {head : Token}
    {rest : List Token} (hbody : placed number 0 tokens = head :: rest)
    (hhead : head.category = .unknown) {d : Diagnostic}
    (hd : Diagnostic.missingColon head = .ok d) : d.InText line (head :: rest) := by
  obtain ⟨s, more, rfl, hsame, -⟩ := exists_of_placed_eq_cons hbody
  rw [Nat.zero_add] at hsame
  subst hsame
  obtain rfl := Diagnostic.eq_of_missingColon hd
  have hs := h.proper s List.mem_cons_self
  have hlength := length_token (h.inWords s List.mem_cons_self) number (unitCount s.gap)
  have hsemicolon := not_mem_spelled h.proper h.noComment
  obtain ⟨hword, hunlisted⟩ := hs.word hhead
  obtain ⟨after, hline⟩ := h.front
  rw [spelled_cons, List.append_assoc, List.append_assoc] at hline
  rw [spelled_cons, ← List.append_assoc] at hsemicolon
  subst hline
  have hcovers : Span.Covers
      ⟨⟨number, unitCount s.gap⟩,
        ⟨number, unitCount s.gap + (s.token number (unitCount s.gap)).length⟩⟩
      s.gap s.text (s.gap ++ (s.text ++ (spelled more ++ after))) :=
    { text := ⟨spelled more ++ after, List.append_assoc _ _ _⟩
      sameLine := rfl
      start := rfl
      finish := by rw [hlength, unitCount_append]
      nonempty := hs.nonempty
      uncommented := fun hmem => hsemicolon (List.mem_append_left _ hmem) }
  exact hcovers.inText (.name rfl hs.gap hword hunlisted rfl rfl rfl hcovers.unitsBetween_eq rfl)

/-- The range from the second token to the last one covers their texts and all between them. -/
theorem covers_content {s u w : SpacedToken} {inner : List SpacedToken}
    (h : SpellBody (s :: u :: (inner ++ [w])) number line) :
    Span.Covers
      ⟨⟨number, unitCount (s.gap ++ (s.text ++ u.gap))⟩,
        ⟨number, unitCount (s.gap ++ (s.text ++ u.gap) ++ (u.text ++ (spelled inner ++ w.gap))) +
          unitCount w.text⟩⟩
      (s.gap ++ (s.text ++ u.gap)) (u.text ++ (spelled inner ++ (w.gap ++ w.text))) line where
  text := by
    refine List.IsPrefix.trans ?_ h.front
    simp [spelled_append]
  sameLine := rfl
  start := rfl
  finish := by simp only [unitCount_append, Nat.add_assoc]
  nonempty := by simp [(h.proper u (by simp)).nonempty]
  uncommented := by
    have hsemicolon := not_mem_spelled h.proper h.noComment
    simpa [spelled_append] using hsemicolon

/-- Of the content behind a head, all is shown. -/
theorem inText_of_contentAfterLabel (h : SpellBody tokens number line)
    {head second third : Token} {more : List Token}
    (hbody : placed number 0 tokens = head :: second :: third :: more)
    (hhead : head.category = .unknown) {d : Diagnostic}
    (hd : Diagnostic.contentAfterLabel second
      ((third :: more).getLast (List.cons_ne_nil third more)) = .ok d) :
    d.InText line (head :: second :: third :: more) := by
  obtain ⟨s, u, inner, w, rfl, rfl, rfl, hlast⟩ := exists_of_placed_eq_content hbody
  have hs := h.proper s (by simp)
  have hu := h.proper u (by simp)
  have hw := h.proper w (by simp)
  have husolid := hu.solid (h.noComment u (by simp))
  have hwsolid := hw.solid (h.noComment w (by simp))
  have hcovers := h.covers_content
  obtain ⟨after, hline⟩ := h.front
  have hgetLast := hlast
  rw [List.getLast?_eq_some_getLast (List.cons_ne_nil third more), Option.some.injEq] at hgetLast
  rw [hgetLast] at hd
  obtain rfl := Diagnostic.eq_of_contentAfterLabel hd
  rw [← length_token (h.inWords w (by simp)) number (unitCount _)] at hcovers
  have hsplit : line = s.gap ++ (s.text ++ (u.gap ++
      (u.text ++ (spelled inner ++ (w.gap ++ w.text)) ++ after))) := by
    rw [← hline]
    simp [spelled_append]
  have hshows := hcovers.unitsBetween_eq
  subst hsplit
  refine hcovers.inText (.content rfl hs.gap (hs.word hhead).1 rfl rfl hu.gap rfl hshows rfl ?_
    hlast rfl ?_ ?_)
  · rw [token, String.toList_ofList]
    exact ⟨hu.nonempty, List.prefix_append _ _⟩
  · rw [token, String.toList_ofList, ← List.append_assoc, ← List.append_assoc]
    exact ⟨hw.nonempty, List.suffix_append _ _⟩
  · rintro c (hopens | hcloses)
    · rw [List.head?_append_of_ne_nil _ hu.nonempty] at hopens
      exact (husolid c (List.mem_of_head? hopens)).1
    · rw [← List.append_assoc, ← List.append_assoc,
        List.getLast?_append_of_ne_nil _ hw.nonempty] at hcloses
      exact (hwsolid c (List.mem_of_getLast? hcloses)).1

end SpacedToken.SpellBody

/-- The range of a violation shows what the rule says of the line. -/
theorem LabelRule.inText {number : Nat} {line : List Char} {d : Diagnostic}
    (hfit : unitCount line ≤ Word.limit)
    (h : LabelRule (Statement.body (Lexer.lineTokens number line)) (.violation d)) :
    d.InText line (Statement.body (Lexer.lineTokens number line)) := by
  obtain ⟨tokens, hspell⟩ := exists_spellBody number hfit
  have hbody := hspell.body.symm
  generalize Statement.body (Lexer.lineTokens number line) = body at h hbody
  cases h with
  | alone hhead hd => exact hspell.inText_of_missingColon hbody hhead hd
  | otherwise hhead _ hd => exact hspell.inText_of_missingColon hbody hhead hd
  | trailing hhead hd => exact hspell.inText_of_contentAfterLabel hbody hhead hd

/-! ## Diagnostics of a document -/

section

variable {texts : List (List Char)} (hfit : ∀ text ∈ texts, unitCount text ≤ Word.limit)

include hfit

/-- The body of a line is found among the tokens of all lines. -/
theorem bodyOn_tokenLines {number : Nat} {line : List Char} (hline : texts[number]? = some line) :
    bodyOn (Lexer.tokenLines 0 texts).flatten number =
      Statement.body (Lexer.lineTokens number line) := by
  have hwhole : Consecutive WholeLine 0 (Lexer.tokenLines 0 texts) :=
    (Lexer.lexedLines hfit 0).mono fun _ _ h => h.toWholeLine
  rw [bodyOn_flatten hwhole, Lexer.tokenLines, List.getElem?_map, List.getElem?_zipIdx, hline]
  simp

theorem inText_of_mem_diagnostics {d : Diagnostic}
    (h : d ∈ (judgedLines 0 texts).flatMap JudgedLine.diagnostics) :
    ∃ line, texts[d.span.start.line]? = some line ∧
      d.InText line (bodyOn (Lexer.tokenLines 0 texts).flatten d.span.start.line) := by
  obtain ⟨judged, hjudged, hd⟩ := List.mem_flatMap.mp h
  obtain ⟨⟨line, number⟩, hmem, rfl⟩ := List.mem_map.mp hjudged
  have hline : texts[number]? = some line := List.mem_zipIdx_iff_getElem?.mp hmem
  have hlineFit := hfit line (List.mem_of_getElem? hline)
  have hsettles := judgedLine_settles number hlineFit
  obtain rfl := hsettles.line_of_mem_diagnostics d hd
  refine ⟨line, hline, ?_⟩
  rw [bodyOn_tokenLines hfit hline]
  exact LabelRule.inText hlineFit (hsettles.sound.labelRule_of_mem hd)

end

/-- The diagnostics of a text that words can number and measure are those of the pass over its
labels, in the order in which the pass has found them, and no two are on one line. Each has a range
of text on a line of the source, in front of the comment, and what stands there is what the
diagnostic is about. -/
theorem diagnostics_inText (source : String) (h : FitsWords source.toList) :
    ∃ found scanned statements findings,
      analyze source = .ok found ∧
      Lexer.document source.toList = .ok scanned ∧
      Statement.ofTokens scanned.tokens (lineCount source.toList) = .ok statements ∧
      LabelFindings.ofStatements statements = .ok findings ∧
      found.value.diagnostics = findings.diagnostics.items.toList ∧
      (found.value.diagnostics.Pairwise fun a b => a.span.start.line < b.span.start.line) ∧
      ∀ d ∈ found.value.diagnostics, d.span.start.line < lineCount source.toList ∧
        ∃ line, (lines source.toList)[d.span.start.line]? = some line ∧
          d.InText line (bodyOn scanned.tokens d.span.start.line) := by
  obtain ⟨found, hfound, -, -, hdiagnostics, -⟩ := analyze_eq h
  obtain ⟨findings, statements, hstatements, hfindings, -, -, hitems, -⟩ := labelPass_eq h.columns
  rw [← h.lineCount_eq] at hstatements
  refine ⟨found, _, statements, findings, hfound, Lexer.document_eq h, hstatements, hfindings,
    hdiagnostics.trans hitems.symm, ?_, ?_⟩
  · rw [hdiagnostics]
    exact diagnostics_increasing h.columns 0
  · intro d hd
    rw [hdiagnostics] at hd
    obtain ⟨line, hline, hinText⟩ := inText_of_mem_diagnostics h.columns hd
    refine ⟨?_, line, hline, hinText⟩
    rw [h.lineCount_eq]
    exact (List.getElem?_eq_some_iff.mp hline).1

/-- A word without its colon behind a character of two code units, and content after a word, with
filler and a comment around it. -/
theorem diagnostics_inText_mixed :
    FitsWords "𝒳 foo\r\nbar, mov [eax] , ; é".toList ∧
      ∃ found scanned, analyze "𝒳 foo\r\nbar, mov [eax] , ; é" = .ok found ∧
        found.value.diagnostics.map (fun d => (d.code, d.span)) =
          [(.missingColon, ⟨⟨0, 3⟩, ⟨0, 6⟩⟩), (.contentAfterLabel, ⟨⟨1, 5⟩, ⟨1, 14⟩⟩)] ∧
        ∀ d ∈ found.value.diagnostics, ∃ line,
          (lines "𝒳 foo\r\nbar, mov [eax] , ; é".toList)[d.span.start.line]? = some line ∧
          d.InText line (bodyOn scanned d.span.start.line) := by
  have hfits : FitsWords "𝒳 foo\r\nbar, mov [eax] , ; é".toList := .of_utf8ByteSize (by decide)
  have hranges : (analyze "𝒳 foo\r\nbar, mov [eax] , ; é").map
      (fun found => found.value.diagnostics.map fun d => (d.code, d.span)) =
        .ok [(.missingColon, ⟨⟨0, 3⟩, ⟨0, 6⟩⟩), (.contentAfterLabel, ⟨⟨1, 5⟩, ⟨1, 14⟩⟩)] := by
    cbv
  obtain ⟨found, scanned, _, _, hfound, -, -, -, -, -, hinText⟩ := diagnostics_inText _ hfits
  rw [hfound] at hranges
  exact ⟨hfits, found, scanned.tokens, hfound, Except.ok.inj hranges,
    fun d hd => (hinText d hd).2⟩

end AsmLens
