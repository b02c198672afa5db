import AsmLens.Analysis
import AsmLens.Proofs.Label.Findings
import AsmLens.Proofs.TokenStream.Relative

/-!
The analysis of a document, told line by line. `judgedLine` looks at one line only; the analysis of
a text whose lines words can number and measure goes through, and its tokens, diagnostics and labels
are those of the judged lines, one after another (`analyze_eq`).
-/

namespace AsmLens

/-! ## Numbered lines -/

namespace Consecutive

variable {α β : Type} {P : Nat → α → Prop} {f : α → List β}

/-- What the items yield stands on lines from `number` on. -/
theorem line_of_mem_flatMap {lineOf : β → Nat}
    (hline : ∀ number item, P number item → ∀ x ∈ f item, lineOf x = number)
    {number : Nat} {items : List α} (h : Consecutive P number items) {x : β}
    (hx : x ∈ items.flatMap f) :
    number ≤ lineOf x ∧ lineOf x < number + items.length := by
  induction items generalizing number with
  | nil => cases hx
  | cons item more ih =>
      rw [List.flatMap_cons, List.mem_append] at hx
      rw [List.length_cons]
      rcases hx with hx | hx
      · have hnumber := hline number item h.1 x hx
        omega
      · have hmore := ih h.2 hx
        omega

/-- What stands on a line is what the item of that number yields. -/
theorem filter_flatMap (lineOf : β → Nat)
    (hline : ∀ number item, P number item → ∀ x ∈ f item, lineOf x = number)
    {number : Nat} {items : List α} (h : Consecutive P number items) (k : Nat) :
    (items.flatMap f).filter (fun x => lineOf x = number + k) = (items[k]?.map f).getD [] := by
  induction items generalizing number k with
  | nil => rfl
  | cons item more ih =>
      rw [List.flatMap_cons, List.filter_append]
      cases k with
      | zero =>
          have hhere : ∀ x ∈ f item, decide (lineOf x = number + 0) = true := by
            intro x hx
            exact decide_eq_true (hline number item h.1 x hx)
          have hlater : ∀ x ∈ more.flatMap f, ¬ decide (lineOf x = number + 0) = true := by
            intro x hx hsame
            have hnumber := (line_of_mem_flatMap hline h.2 hx).1
            have hsame := of_decide_eq_true hsame
            omega
          rw [List.filter_eq_self.mpr hhere, List.filter_eq_nil_iff.mpr hlater, List.append_nil]
          rfl
      | succ k =>
          have hhere : ∀ x ∈ f item, ¬ decide (lineOf x = number + (k + 1)) = true := by
            intro x hx hsame
            have hnumber := hline number item h.1 x hx
            have hsame := of_decide_eq_true hsame
            omega
          have hmore := ih h.2 k
          rw [Nat.add_assoc, Nat.add_comm 1 k] at hmore
          rw [List.filter_eq_nil_iff.mpr hhere, List.nil_append, hmore]
          rfl

/-- What holds between the things on one line, and from one line to a later one, holds between
all of them. -/
theorem pairwise_flatMap {R : β → β → Prop} (lineOf : β → Nat)
    (hlater : ∀ a b, lineOf a < lineOf b → R a b)
    (hline : ∀ number item, P number item → ∀ x ∈ f item, lineOf x = number)
    (hown : ∀ number item, P number item → (f item).Pairwise R)
    {number : Nat} {items : List α} (h : Consecutive P number items) :
    (items.flatMap f).Pairwise R := by
  induction items generalizing number with
  | nil => exact List.Pairwise.nil
  | cons item more ih =>
      rw [List.flatMap_cons, List.pairwise_append]
      refine ⟨hown number item h.1, ih h.2, ?_⟩
      intro a ha b hb
      have hfirst := hline number item h.1 a ha
      have hbehind := (line_of_mem_flatMap hline h.2 hb).1
      exact hlater a b (by omega)

end Consecutive

/-! ## Judged lines -/

/-- A line of a text with what the label rule says of it. -/
def judgedLine (number : Nat) (text : List Char) : JudgedLine :=
  ⟨Lexer.lineTokens number text, judge (Lexer.lineTokens number text)⟩

/-- Lines with what the label rule says of them, the first under a number. -/
def judgedLines (number : Nat) (texts : List (List Char)) : List JudgedLine :=
  (texts.zipIdx number).map fun (text, i) => judgedLine i text

theorem map_tokens_judgedLines (number : Nat) (texts : List (List Char)) :
    (judgedLines number texts).map JudgedLine.tokens = Lexer.tokenLines number texts := by
  rw [judgedLines, List.map_map]
  rfl

theorem flatMap_tokens_judgedLines (number : Nat) (texts : List (List Char)) :
    (judgedLines number texts).flatMap JudgedLine.tokens =
      (Lexer.tokenLines number texts).flatten := by
  rw [← map_tokens_judgedLines, List.flatMap_def]

/-- A line that the lexer left and the rule has judged. -/
structure JudgedLine.Settles (number : Nat) (line : JudgedLine) : Prop where
  lexed : LexedLine number line.tokens
  sound : line.Sound

theorem judgedLine_settles (number : Nat) {text : List Char}
    (hfit : Text.unitCount text ≤ Word.limit) : (judgedLine number text).Settles number where
  lexed := Lexer.lexedLine number hfit
  sound := (Lexer.lexedLine number hfit).labelRule_judge

namespace JudgedLine.Settles

variable {number : Nat} {line : JudgedLine}

theorem line_of_mem_settled (h : line.Settles number) :
    ∀ t ∈ line.settled, t.start.line = number :=
  forall_mem_settled (P := fun t => t.start.line = number) (fun _ hon => hon) h.lexed.onLine

theorem column_of_mem_settled (h : line.Settles number) :
    ∀ t ∈ line.settled, t.start.column ≤ Word.limit :=
  forall_mem_settled (P := fun t => t.start.column ≤ Word.limit) (fun _ hin => hin) fun t ht =>
    Nat.le_trans (Nat.le_add_right _ _) (h.lexed.inColumns t ht)

theorem settled_ordered (h : line.Settles number) :
    line.settled.Pairwise fun a b => a.start ≤ b.start :=
  pairwise_settled (fun _ _ hle => hle) h.lexed.ordered

theorem line_of_mem_diagnostics (h : line.Settles number) :
    ∀ d ∈ line.diagnostics, d.span.start.line = number :=
  h.sound.line_of_mem_diagnostics h.lexed.onLine

end JudgedLine.Settles

/-- The tokens of lines as they are encoded, the first line under a number. -/
def settledTokens (number : Nat) (texts : List (List Char)) : List Token :=
  (judgedLines number texts).flatMap JudgedLine.settled

section

variable {texts : List (List Char)} (hfit : ∀ text ∈ texts, Text.unitCount text ≤ Word.limit)

include hfit

theorem judgedLines_settle (number : Nat) :
    Consecutive JudgedLine.Settles number (judgedLines number texts) :=
  .of_forall judgedLine (fun i _ h => judgedLine_settles i h) hfit number

theorem judgedLines_sound (number : Nat) : ∀ line ∈ judgedLines number texts, line.Sound :=
  (judgedLines_settle hfit number).forall_mem fun _ _ h => h.sound

theorem settledTokens_ordered (number : Nat) :
    (settledTokens number texts).Pairwise fun a b => a.start ≤ b.start :=
  (judgedLines_settle hfit number).pairwise_flatMap Token.line (fun _ _ hlt => Or.inl hlt)
    (fun _ _ h => h.line_of_mem_settled) (fun _ _ h => h.settled_ordered)

/-- No two diagnostics are about one line. -/
theorem diagnostics_increasing (number : Nat) :
    ((judgedLines number texts).flatMap JudgedLine.diagnostics).Pairwise
      fun a b => a.span.start.line < b.span.start.line :=
  (judgedLines_settle hfit number).pairwise_flatMap (·.span.start.line) (fun _ _ hlt => hlt)
    (fun _ _ h => h.line_of_mem_diagnostics) (fun _ line _ => line.pairwise_diagnostics)

theorem line_of_mem_settledTokens (number : Nat) {t : Token}
    (ht : t ∈ settledTokens number texts) : number ≤ t.line ∧ t.line < number + texts.length := by
  have hlength : (judgedLines number texts).length = texts.length := by
    rw [judgedLines, List.length_map, List.length_zipIdx]
  have hline := (judgedLines_settle hfit number).line_of_mem_flatMap
    (fun _ _ h => h.line_of_mem_settled) ht
  rwa [hlength] at hline

theorem column_of_mem_settledTokens (number : Nat) {t : Token}
    (ht : t ∈ settledTokens number texts) : t.column ≤ Word.limit := by
  obtain ⟨line, hline, hmem⟩ := List.mem_flatMap.mp ht
  exact (judgedLines_settle hfit number).forall_mem
    (fun _ _ h => h.column_of_mem_settled) line hline t hmem

end

/-! ## The whole document -/

/-- The pass over the labels of a lexed document finds and settles what its lines say. -/
theorem labelPass_eq {texts : List (List Char)}
    (hfit : ∀ text ∈ texts, Text.unitCount text ≤ Word.limit) :
    ∃ findings statements,
      Statement.ofTokens (Lexer.tokenLines 0 texts).flatten texts.length = .ok statements ∧
      LabelFindings.ofStatements statements = .ok findings ∧
      findings.names (Lexer.tokenLines 0 texts).flatten =
        .ok ((judgedLines 0 texts).flatMap JudgedLine.labels) ∧
      findings.settle (Lexer.tokenLines 0 texts).flatten = .ok (settledTokens 0 texts) ∧
      findings.diagnostics.items.toList =
        (judgedLines 0 texts).flatMap JudgedLine.diagnostics ∧
      findings.diagnostics.sorted = findings.diagnostics.items.toList := by
  obtain ⟨findings, hfindings, hnames, hsettle, hdiagnostics⟩ :=
    LabelFindings.ofStatements_ofLines (judgedLines_sound hfit 0)
  rw [map_tokens_judgedLines] at hfindings
  rw [flatMap_tokens_judgedLines] at hnames hsettle
  have hlines : Consecutive WholeLine 0 (Lexer.tokenLines 0 texts) :=
    (Lexer.lexedLines hfit 0).mono fun _ _ h => h.toWholeLine
  have hlength : (Lexer.tokenLines 0 texts).length = texts.length := by
    rw [Lexer.tokenLines, List.length_map, List.length_zipIdx]
  refine ⟨findings, _, ?_, hfindings, hnames, hsettle, hdiagnostics, ?_⟩
  · rw [Statement.ofTokens, ← hlength]
    exact Statement.ofTokensFrom_flatten 0 hlines
  · refine CollectedDiagnostics.sorted_of_pairwise ?_
    rw [hdiagnostics]
    exact (diagnostics_increasing hfit 0).imp fun hlt => Or.inl hlt

/-- The analysis of a text that words can number and measure is that of its lines. -/
theorem analyze_eq {source : String} (h : Text.FitsWords source.toList) :
    ∃ found, analyze source = .ok found ∧
      TokenStream.encode (settledTokens 0 (Text.lines source.toList)) = .ok found.value.tokens ∧
      TokenStream.decode found.value.tokens =
        .ok ((settledTokens 0 (Text.lines source.toList)).map Token.placed) ∧
      found.value.diagnostics =
        (judgedLines 0 (Text.lines source.toList)).flatMap JudgedLine.diagnostics ∧
      found.value.labels =
        (judgedLines 0 (Text.lines source.toList)).flatMap JudgedLine.labels := by
  obtain ⟨findings, statements, hstatements, hfindings, hnames, hsettle, hitems, hsorted⟩ :=
    labelPass_eq h.columns
  obtain ⟨stream, hstream⟩ := TokenStream.encode_of_ordered (settledTokens_ordered h.columns 0)
  have hdecode : TokenStream.decode stream =
      .ok ((settledTokens 0 (Text.lines source.toList)).map Token.placed) := by
    -- the decoder's sums come to lines and columns of the text, which are words
    refine TokenStream.decodeFrom_encodeFrom hstream fun t ht => ?_
    have hline := line_of_mem_settledTokens h.columns 0 ht
    have hnumbers := h.numbers
    rw [Text.length_lines] at hline
    exact ⟨by omega, column_of_mem_settledTokens h.columns 0 ht⟩
  simp only [analyze, Lexer.document_eq h, h.lineCount_eq, hstatements, hfindings, hnames, hsettle,
    hsorted, hitems, hstream, bind, Except.bind]
  exact ⟨_, rfl, rfl, hdecode, rfl, rfl⟩

end AsmLens
