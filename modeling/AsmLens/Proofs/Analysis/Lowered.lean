import AsmLens.Proofs.Analysis.ByLine

/-!
Lines that move down in their document. Nothing that is said of a line depends on its number but the
line numbers in it: a line that stands some lines lower has the same tokens, the same verdict and
the same findings, as many lines lower (`judgedLine_add`).
-/

namespace AsmLens

/-! ## Moving down -/

def Position.moveDown (count : Nat) (p : Position) : Position := { p with line := p.line + count }

def Token.moveDown (count : Nat) (t : Token) : Token := { t with line := t.line + count }

def Span.moveDown (count : Nat) (s : Span) : Span :=
  ⟨s.start.moveDown count, s.finish.moveDown count⟩

/-- The diagnostic of a text that stands `count` lines lower. -/
def Diagnostic.moveDown (count : Nat) (d : Diagnostic) : Diagnostic :=
  { d with span := d.span.moveDown count }

def LabelVerdict.moveDown (count : Nat) : LabelVerdict → LabelVerdict
  | .notConcerned => .notConcerned
  | .declaration => .declaration
  | .violation d => .violation (d.moveDown count)

def JudgedLine.moveDown (count : Nat) (line : JudgedLine) : JudgedLine :=
  ⟨line.tokens.map (Token.moveDown count), line.verdict.moveDown count⟩

theorem Token.start_moveDown_le (count : Nat) {a b : Token} (h : a.start ≤ b.start) :
    (a.moveDown count).start ≤ (b.moveDown count).start := by
  rw [Position.le_def] at h ⊢
  show a.line + count < b.line + count ∨ a.line + count = b.line + count ∧ a.column ≤ b.column
  simp only [Token.start] at h
  omega

/-! ## The rule for labels -/

theorem Span.ofTokens_moveDown (count : Nat) {first last : Token} {s : Span}
    (h : Span.ofTokens first last = .ok s) :
    Span.ofTokens (first.moveDown count) (last.moveDown count) = .ok (s.moveDown count) := by
  unfold Span.ofTokens at h ⊢
  split at h
  · next horder =>
    obtain ⟨finish, hfinish, hs⟩ := Checked.bind_eq_ok_iff.mp h
    obtain ⟨column, hcolumn, hp⟩ := Checked.bind_eq_ok_iff.mp hfinish
    cases hs
    cases hp
    have hmoved : (last.moveDown count).finish = .ok ⟨last.line + count, column⟩ :=
      Checked.bind_eq_ok_iff.mpr ⟨column, hcolumn, rfl⟩
    rw [if_pos (Token.start_moveDown_le count horder), hmoved]
    rfl
  · cases h

theorem Diagnostic.missingColon_moveDown (count : Nat) {head : Token} {d : Diagnostic}
    (h : missingColon head = .ok d) :
    missingColon (head.moveDown count) = .ok (d.moveDown count) := by
  obtain ⟨span, hspan, hd⟩ := Checked.bind_eq_ok_iff.mp h
  cases hd
  exact Checked.bind_eq_ok_iff.mpr ⟨_, Span.ofTokens_moveDown count hspan, rfl⟩

theorem Diagnostic.contentAfterLabel_moveDown (count : Nat) {first last : Token} {d : Diagnostic}
    (h : contentAfterLabel first last = .ok d) :
    contentAfterLabel (first.moveDown count) (last.moveDown count) = .ok (d.moveDown count) := by
  obtain ⟨span, hspan, hd⟩ := Checked.bind_eq_ok_iff.mp h
  cases hd
  exact Checked.bind_eq_ok_iff.mpr ⟨_, Span.ofTokens_moveDown count hspan, rfl⟩

namespace LabelRule

/-- No line has two verdicts. -/
theorem unique {tokens : List Token} {v w : LabelVerdict} (hv : LabelRule tokens v)
    (hw : LabelRule tokens w) : v = w := by
  have hok : Statement.labelVerdict ⟨0, 0, tokens⟩ = .ok v :=
    Statement.labelVerdict_eq_ok_iff.mpr hv
  rw [Statement.labelVerdict_eq_ok_iff.mpr hw] at hok
  exact (Except.ok.inj hok).symm

theorem moveDown (count : Nat) {tokens : List Token} {v : LabelVerdict} (h : LabelRule tokens v) :
    LabelRule (tokens.map (Token.moveDown count)) (v.moveDown count) := by
  cases h with
  | blank => exact .blank
  | reserved hhead => exact .reserved hhead
  | declares hhead hcolon => exact .declares hhead hcolon
  | alone hhead hd => exact .alone hhead (Diagnostic.missingColon_moveDown count hd)
  | otherwise hhead hsecond hd =>
      exact .otherwise hhead hsecond (Diagnostic.missingColon_moveDown count hd)
  | trailing hhead hd =>
      refine .trailing hhead ?_
      simp only [← List.map_cons, List.getLast_map]
      exact Diagnostic.contentAfterLabel_moveDown count hd

end LabelRule

theorem Statement.body_map_moveDown (count : Nat) (tokens : List Token) :
    body (tokens.map (Token.moveDown count)) = (body tokens).map (Token.moveDown count) := by
  unfold body
  rw [List.getLast?_map]
  cases tokens.getLast? with
  | none => rfl
  | some last =>
      show (if last.category = .comment then _ else _) = _
      split
      · next h => simp [h, List.map_dropLast]
      · next h => simp [h]

/-! ## Lines -/

theorem Lexer.tokensFrom_add (number count column : Nat) (lexemes : List Lexeme) :
    tokensFrom (number + count) column lexemes =
      (tokensFrom number column lexemes).map (Token.moveDown count) := by
  induction lexemes generalizing column with
  | nil => rfl
  | cons lexeme more ih =>
      simp only [tokensFrom]
      split
      · rw [List.map_cons, ih]
        rfl
      · exact ih _

theorem judgedLine_add (number count : Nat) {text : List Char}
    (hfit : Text.unitCount text ≤ Word.limit) :
    judgedLine (number + count) text = (judgedLine number text).moveDown count := by
  have htokens : Lexer.lineTokens (number + count) text =
      (Lexer.lineTokens number text).map (Token.moveDown count) := Lexer.tokensFrom_add ..
  -- the verdict moved down and the one on the lowered tokens both follow the rule, so they agree
  have hhere := (Lexer.lexedLine number hfit).labelRule_judge.moveDown count
  have hbelow := (Lexer.lexedLine (number + count) hfit).labelRule_judge
  rw [htokens, Statement.body_map_moveDown, ← htokens] at hbelow
  have hverdict := hbelow.unique hhere
  rw [judgedLine, JudgedLine.moveDown, hverdict, htokens]
  rfl

theorem judgedLines_add (number count : Nat) {texts : List (List Char)}
    (hfit : ∀ text ∈ texts, Text.unitCount text ≤ Word.limit) :
    judgedLines (number + count) texts =
      (judgedLines number texts).map (JudgedLine.moveDown count) := by
  induction texts generalizing number with
  | nil => rfl
  | cons text more ih =>
      have hmore := ih (number + 1) fun other hother =>
        hfit other (List.mem_cons_of_mem text hother)
      rw [Nat.add_right_comm] at hmore
      simp only [judgedLines, List.zipIdx_cons, List.map_cons] at hmore ⊢
      rw [hmore, judgedLine_add number count (hfit text List.mem_cons_self)]

theorem judgedLines_append (number : Nat) (a b : List (List Char)) :
    judgedLines number (a ++ b) = judgedLines number a ++ judgedLines (number + a.length) b := by
  rw [judgedLines, List.zipIdx_append, List.map_append]
  rfl

/-! ## Findings -/

namespace JudgedLine

theorem settled_moveDown (count : Nat) (line : JudgedLine) :
    (line.moveDown count).settled = line.settled.map (Token.moveDown count) := by
  obtain ⟨tokens, verdict⟩ := line
  cases verdict with
  | notConcerned => rfl
  | violation d => rfl
  | declaration => cases tokens <;> rfl

theorem diagnostics_moveDown (count : Nat) (line : JudgedLine) :
    (line.moveDown count).diagnostics = line.diagnostics.map (Diagnostic.moveDown count) := by
  obtain ⟨tokens, verdict⟩ := line
  cases verdict <;> rfl

theorem labels_moveDown (count : Nat) (line : JudgedLine) :
    (line.moveDown count).labels = line.labels := by
  obtain ⟨tokens, verdict⟩ := line
  cases verdict with
  | notConcerned => rfl
  | violation d => rfl
  | declaration => cases tokens <;> rfl

end JudgedLine

end AsmLens
