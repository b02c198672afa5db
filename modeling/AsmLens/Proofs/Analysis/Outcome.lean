import AsmLens.Proofs.Analysis.ByLine
import AsmLens.Proofs.Lexer.Outcome

/-!
What the analysis of a document has found where it has not broken off. The lines of the document
have been lexed and judged each for itself, and the answer is made of them one after another
(`analyze_of_ok`). No bound on the text is asked for: what an overflow would spoil is what the
analysis has checked on the way.
-/

namespace AsmLens

/-- A lexed line with what the label rule says of it. -/
def judgedAs (lexed : List Char × Scanned) : JudgedLine :=
  ⟨lexed.2.tokens, judge lexed.2.tokens⟩

/-- A line of an analyzed document: a whole line of unsettled tokens with a verdict on it. -/
structure JudgedLine.Analyzed (number : Nat) (line : JudgedLine) : Prop where
  whole : WholeLine number line.tokens
  unsettled : ∀ t ∈ line.tokens, Lexer.Unsettled number t
  sound : line.Sound

namespace JudgedLine.Analyzed

variable {number : Nat} {line : JudgedLine} (h : line.Analyzed number)

include h

theorem line_of_mem_settled : ∀ t ∈ line.settled, t.start.line = number :=
  forall_mem_settled (P := fun t => t.start.line = number) (fun _ hon => hon) h.whole.onLine

theorem column_of_mem_settled : ∀ t ∈ line.settled, t.start.column ≤ Word.limit :=
  forall_mem_settled (P := fun t => t.start.column ≤ Word.limit) (fun _ hin => hin) fun t ht =>
    (h.unsettled t ht).inWords

theorem line_of_mem_diagnostics : ∀ d ∈ line.diagnostics, d.span.start.line = number :=
  h.sound.line_of_mem_diagnostics h.whole.onLine

end JudgedLine.Analyzed

/-- A pass over the statements of lines that reaches its end has come to a verdict on each. -/
theorem LabelFindings.sound_of_ok {lexed : List (List Char × Scanned)} {number offset : Nat}
    {findings result : LabelFindings}
    (h : (Statement.ofLines number offset (lexed.map fun l => l.2.tokens)).foldlM
      (fun findings i => return findings.record i (← i.labelVerdict)) findings =
        (.ok result : Checked LabelFindings)) :
    ∀ l ∈ lexed, (judgedAs l).Sound := by
  induction lexed generalizing number offset findings with
  | nil =>
      intro l hl
      cases hl
  | cons first more ih =>
      rw [List.map_cons, Statement.ofLines, List.foldlM_cons] at h
      obtain ⟨next, hnext, hmore⟩ := Checked.bind_eq_ok_iff.mp h
      obtain ⟨verdict, hverdict, -⟩ := Checked.bind_eq_ok_iff.mp hnext
      intro l hl
      rcases List.mem_cons.mp hl with rfl | hl
      · exact (Statement.labelVerdict_eq_ok_iff.mp hverdict).labelRule_judge
      · exact ih hmore l hl

/-- The lines of an analyzed document, and that its labels, its diagnostics and the positions that
its tokens are sent under are those of the lines, in their order. -/
theorem analyze_of_ok {source : String} {found : Traced Analysis}
    (h : analyze source = .ok found) :
    ∃ (scanned : Scanned) (lexed : List (List Char × Scanned)),
      Lexer.document source.toList = .ok scanned ∧
      lexed.map Prod.fst = Text.lines source.toList ∧
      lexed.length = Text.lineCount source.toList ∧
      Consecutive Lexer.Lexed 0 lexed ∧
      Consecutive JudgedLine.Analyzed 0 (lexed.map judgedAs) ∧
      scanned.tokens = (lexed.map judgedAs).flatMap JudgedLine.tokens ∧
      found.value.labels = (lexed.map judgedAs).flatMap JudgedLine.labels ∧
      found.value.diagnostics = (lexed.map judgedAs).flatMap JudgedLine.diagnostics ∧
      TokenStream.decode found.value.tokens =
        .ok (((lexed.map judgedAs).flatMap JudgedLine.settled).map Token.placed) := by
  obtain ⟨scanned, hscanned, h⟩ := Checked.bind_eq_ok_iff.mp h
  obtain ⟨statements, hstatements, h⟩ := Checked.bind_eq_ok_iff.mp h
  obtain ⟨findings, hfindings, h⟩ := Checked.bind_eq_ok_iff.mp h
  obtain ⟨labels, hlabels, h⟩ := Checked.bind_eq_ok_iff.mp h
  obtain ⟨settled, hsettled, h⟩ := Checked.bind_eq_ok_iff.mp h
  obtain ⟨stream, hstream, h⟩ := Checked.bind_eq_ok_iff.mp h
  cases h
  obtain ⟨hnumber, lexed, htexts, hlexed, htokens, -⟩ := Lexer.linesFrom_of_ok hscanned
  have hlength : (Text.lines source.toList).length = lexed.length := by
    rw [← htexts, List.length_map]
  have hcount : Text.lineCount source.toList = lexed.length := by
    rw [Text.lineCount, ← Text.length_lines, hlength]
    exact Word.clamp_of_le (by omega)
  have hmap : (lexed.map judgedAs).map JudgedLine.tokens = lexed.map fun l => l.2.tokens := by
    rw [List.map_map]
    rfl
  have hflat : scanned.tokens = (lexed.map judgedAs).flatMap JudgedLine.tokens := by
    rw [htokens, List.flatMap_def, List.flatMap_def, hmap]
  -- the statements are those of the lexed lines, so the pass over them has judged each line
  have hwhole : Consecutive WholeLine 0 (lexed.map fun l => l.2.tokens) :=
    hlexed.map fun _ _ _ hl => hl.wholeLine
  have hcut := Statement.ofTokensFrom_flatten 0 hwhole
  rw [List.length_map, ← hcount, ← List.flatMap_def, ← htokens] at hcut
  obtain rfl : statements = _ := Except.ok.inj (hstatements.symm.trans hcut)
  have hsound := LabelFindings.sound_of_ok hfindings
  have hlines : Consecutive JudgedLine.Analyzed 0 (lexed.map judgedAs) :=
    hlexed.map fun _ l hmem hl => ⟨hl.wholeLine, hl.unsettled, hsound l hmem⟩
  obtain ⟨same, hsame, hnames, hsettle, hdiagnostics⟩ :=
    LabelFindings.ofStatements_ofLines (hlines.forall_mem fun _ _ hl => hl.sound)
  rw [hmap] at hsame
  obtain rfl : findings = same := Except.ok.inj (hfindings.symm.trans hsame)
  rw [hflat] at hlabels hsettled
  obtain rfl : labels = _ := Except.ok.inj (hlabels.symm.trans hnames)
  obtain rfl : settled = _ := Except.ok.inj (hsettled.symm.trans hsettle)
  refine ⟨scanned, lexed, hscanned, htexts, hcount.symm, hlexed, hlines, hflat, rfl, ?_, ?_⟩
  · rw [← hdiagnostics]
    refine CollectedDiagnostics.sorted_of_pairwise ?_
    rw [hdiagnostics]
    exact hlines.pairwise_flatMap (·.span.start.line) (fun _ _ hlt => Or.inl hlt)
      (fun _ _ hl => hl.line_of_mem_diagnostics)
      (fun _ line _ => line.pairwise_diagnostics)
  · -- the decoder's sums come to the lines and the columns of tokens, which are words
    refine TokenStream.decodeFrom_encodeFrom hstream fun t ht => ⟨?_, ?_⟩
    · have hline := (hlines.line_of_mem_flatMap (fun _ _ hl => hl.line_of_mem_settled) ht).2
      rw [List.length_map] at hline
      show t.start.line ≤ Word.limit
      omega
    · obtain ⟨line, hline, hmem⟩ := List.mem_flatMap.mp ht
      exact hlines.forall_mem (fun _ _ hl => hl.column_of_mem_settled) line hline t hmem

/-- The token stream of an analysis can be decoded. -/
theorem exists_decode_of_ok {source : String} {found : Traced Analysis}
    (h : analyze source = .ok found) :
    ∃ placed, TokenStream.decode found.value.tokens = .ok placed := by
  obtain ⟨_, _, -, -, -, -, -, -, -, -, hdecode⟩ := analyze_of_ok h
  exact ⟨_, hdecode⟩

end AsmLens
