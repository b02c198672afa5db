import AsmLens.Label
import AsmLens.Proofs.Lexer.Document

/-!
The verdict on a line. `LabelRule` states the rule for labels case by case, and a verdict is reached
exactly where a case applies (`labelVerdict_eq_ok_iff`). On a line that the lexer left one always
does (`LexedLine.labelRule_judge`): the spans that are reported run forward and end at a column.
-/

namespace AsmLens

/-! ## Spans -/

theorem Span.ofTokens_eq {first last : Token} (horder : first.start ≤ last.start)
    (hfit : last.column + last.length ≤ Word.limit) :
    Span.ofTokens first last = .ok ⟨first.start, ⟨last.line, last.column + last.length⟩⟩ := by
  rw [Span.ofTokens, if_pos horder, Token.finish, Word.add_of_le _ hfit]
  rfl

/-- A span runs from the start of its first token to the end of its last. -/
theorem Span.eq_of_ofTokens {first last : Token} {span : Span}
    (h : Span.ofTokens first last = .ok span) :
    span = ⟨first.start, ⟨last.line, last.column + last.length⟩⟩ := by
  unfold Span.ofTokens at h
  split at h
  · obtain ⟨finish, hfinish, hspan⟩ := Checked.bind_eq_ok_iff.mp h
    obtain ⟨column, hcolumn, hplace⟩ := Checked.bind_eq_ok_iff.mp hfinish
    cases hspan
    cases hplace
    rw [(Word.add_eq_ok_iff.mp hcolumn).2]
  · cases h

namespace Diagnostic

theorem missingColon_of_fits {head : Token} (hfit : head.column + head.length ≤ Word.limit) :
    ∃ d, missingColon head = .ok d := by
  have hspan := Span.ofTokens_eq (Position.le_refl head.start) hfit
  exact ⟨_, by rw [missingColon, Token.span, hspan]; rfl⟩

theorem contentAfterLabel_of_fits {first last : Token} (horder : first.start ≤ last.start)
    (hfit : last.column + last.length ≤ Word.limit) :
    ∃ d, contentAfterLabel first last = .ok d := by
  have hspan := Span.ofTokens_eq horder hfit
  exact ⟨_, by rw [contentAfterLabel, hspan]; rfl⟩

/-- The diagnostic about a head without its colon points at the head and quotes it. -/
theorem eq_of_missingColon {head : Token} {d : Diagnostic} (h : missingColon head = .ok d) :
    d = { code := .missingColon
          message := ErrorCode.missingColon.description
          span := ⟨head.start, ⟨head.line, head.column + head.length⟩⟩
          notes := ["labels are declared as `" ++ head.text ++ ":`"] } := by
  obtain ⟨span, hspan, hd⟩ := Checked.bind_eq_ok_iff.mp h
  obtain rfl := Span.eq_of_ofTokens hspan
  cases hd
  rfl

/-- The diagnostic about content after a label points at all of it. -/
theorem eq_of_contentAfterLabel {first last : Token} {d : Diagnostic}
    (h : contentAfterLabel first last = .ok d) :
    d = { code := .contentAfterLabel
          message := ErrorCode.contentAfterLabel.description
          span := ⟨first.start, ⟨last.line, last.column + last.length⟩⟩
          notes := ["label declarations must stand alone on their line"] } := by
  obtain ⟨span, hspan, hd⟩ := Checked.bind_eq_ok_iff.mp h
  obtain rfl := Span.eq_of_ofTokens hspan
  cases hd
  rfl

end Diagnostic

/-! ## The rule -/

/-- The rule for labels: the verdict on the tokens of a statement. -/
inductive LabelRule : List Token → LabelVerdict → Prop
  | blank : LabelRule [] .notConcerned
  | reserved {head : Token} {rest : List Token} (hhead : head.category ≠ .unknown) :
      LabelRule (head :: rest) .notConcerned
  | declares {head colon : Token} (hhead : head.category = .unknown) (hcolon : colon.isColon) :
      LabelRule [head, colon] .declaration
  | alone {head : Token} {d : Diagnostic} (hhead : head.category = .unknown)
      (hd : Diagnostic.missingColon head = .ok d) : LabelRule [head] (.violation d)
  | otherwise {head second : Token} {d : Diagnostic} (hhead : head.category = .unknown)
      (hsecond : ¬ second.isColon) (hd : Diagnostic.missingColon head = .ok d) :
      LabelRule [head, second] (.violation d)
  | trailing {head second third : Token} {more : List Token} {d : Diagnostic}
      (hhead : head.category = .unknown)
      (hd : Diagnostic.contentAfterLabel second
        ((third :: more).getLast (List.cons_ne_nil third more)) = .ok d) :
      LabelRule (head :: second :: third :: more) (.violation d)

namespace Statement

/-- A verdict is reached exactly where a case of the rule applies. -/
theorem labelVerdict_eq_ok_iff {i : Statement} {verdict : LabelVerdict} :
    i.labelVerdict = .ok verdict ↔ LabelRule i.tokens verdict := by
  obtain ⟨number, offset, tokens⟩ := i
  constructor
  · intro h
    cases tokens with
    | nil =>
        cases h
        exact .blank
    | cons head rest =>
        by_cases hhead : head.category = .unknown
        · simp only [labelVerdict, if_pos hhead] at h
          split at h
          · obtain ⟨d, hd, hv⟩ := Checked.bind_eq_ok_iff.mp h
            cases hv
            exact .alone hhead hd
          · next second =>
            by_cases hcolon : second.isColon
            · rw [if_pos hcolon] at h
              cases h
              exact .declares hhead hcolon
            · rw [if_neg hcolon] at h
              obtain ⟨d, hd, hv⟩ := Checked.bind_eq_ok_iff.mp h
              cases hv
              exact .otherwise hhead hcolon hd
          · obtain ⟨d, hd, hv⟩ := Checked.bind_eq_ok_iff.mp h
            cases hv
            exact .trailing hhead hd
        · simp only [labelVerdict, if_neg hhead] at h
          cases h
          exact .reserved hhead
  · intro h
    cases h with
    | blank => rfl
    | reserved hhead => simp only [labelVerdict, if_neg hhead]
    | declares hhead hcolon => simp only [labelVerdict, if_pos hhead, if_pos hcolon]
    | alone hhead hd =>
        simp only [labelVerdict, if_pos hhead, hd]
        rfl
    | otherwise hhead hsecond hd =>
        simp only [labelVerdict, if_pos hhead, if_neg hsecond, hd]
        rfl
    | trailing hhead hd =>
        simp only [labelVerdict, if_pos hhead, hd]
        rfl

theorem body_prefix (tokens : List Token) : body tokens <+: tokens := by
  unfold body
  split
  · split
    · exact List.dropLast_prefix tokens
    · exact List.prefix_refl tokens
  · exact List.prefix_refl tokens

end Statement

namespace LabelRule

/-- The rule judges everything that comes in order and ends at a column. -/
theorem exists_verdict {tokens : List Token}
    (hordered : tokens.Pairwise fun a b => a.start ≤ b.start)
    (hfit : ∀ t ∈ tokens, t.column + t.length ≤ Word.limit) :
    ∃ verdict, LabelRule tokens verdict := by
  match tokens with
  | [] => exact ⟨_, .blank⟩
  | head :: rest =>
      by_cases hhead : head.category = .unknown
      · obtain ⟨d, hd⟩ := Diagnostic.missingColon_of_fits (hfit head List.mem_cons_self)
        match rest with
        | [] => exact ⟨_, .alone hhead hd⟩
        | [second] =>
            by_cases hcolon : second.isColon
            · exact ⟨_, .declares hhead hcolon⟩
            · exact ⟨_, .otherwise hhead hcolon hd⟩
        | second :: third :: more =>
            have hlast := List.getLast_mem (List.cons_ne_nil third more)
            have hafter := (List.pairwise_cons.mp (List.pairwise_cons.mp hordered).2).1 _ hlast
            have hend := hfit _ (List.mem_cons_of_mem head (List.mem_cons_of_mem second hlast))
            obtain ⟨e, he⟩ := Diagnostic.contentAfterLabel_of_fits hafter hend
            exact ⟨_, .trailing hhead he⟩
      · exact ⟨_, .reserved hhead⟩

/-- What declares a label starts with a word of no vocabulary. -/
theorem head_of_declaration {tokens : List Token} (h : LabelRule tokens .declaration) :
    ∃ head rest, tokens = head :: rest ∧ head.category = .unknown := by
  cases h with
  | declares hhead _ => exact ⟨_, _, rfl, hhead⟩

/-- A diagnostic starts at a token of the line that it is about. -/
theorem start_of_violation {tokens : List Token} {d : Diagnostic}
    (h : LabelRule tokens (.violation d)) : ∃ t ∈ tokens, d.span.start = t.start := by
  cases h with
  | alone _ hd =>
      obtain rfl := Diagnostic.eq_of_missingColon hd
      exact ⟨_, List.mem_cons_self, rfl⟩
  | otherwise _ _ hd =>
      obtain rfl := Diagnostic.eq_of_missingColon hd
      exact ⟨_, List.mem_cons_self, rfl⟩
  | trailing _ hd =>
      obtain rfl := Diagnostic.eq_of_contentAfterLabel hd
      exact ⟨_, List.mem_cons_of_mem _ List.mem_cons_self, rfl⟩

end LabelRule

/-! ## Lines of the lexer -/

/-- The tokens of a line stand in the order of their starts. -/
theorem LexedLine.ordered {number : Nat} {tokens : List Token} (h : LexedLine number tokens) :
    tokens.Pairwise fun a b => a.start ≤ b.start := by
  refine h.apart.imp_of_mem ?_
  intro a b ha hb hapart
  refine Or.inr ⟨?_, Nat.le_trans (Nat.le_add_right _ _) hapart⟩
  show a.line = b.line
  rw [h.onLine a ha, h.onLine b hb]

/-- What the rule says of a line, given all its tokens; where it cannot tell, nothing. -/
def judge (tokens : List Token) : LabelVerdict :=
  ((Statement.labelVerdict ⟨0, 0, Statement.body tokens⟩).toOption).getD .notConcerned

/-- Where the rule comes to a verdict, it is that one. -/
theorem LabelRule.labelRule_judge {tokens : List Token} {verdict : LabelVerdict}
    (h : LabelRule (Statement.body tokens) verdict) :
    LabelRule (Statement.body tokens) (judge tokens) := by
  have heq : Statement.labelVerdict ⟨0, 0, Statement.body tokens⟩ = .ok verdict :=
    Statement.labelVerdict_eq_ok_iff.mpr h
  rw [judge, heq]
  exact h

/-- On a line of the lexer the rule comes to a verdict. -/
theorem LexedLine.labelRule_judge {number : Nat} {tokens : List Token}
    (h : LexedLine number tokens) : LabelRule (Statement.body tokens) (judge tokens) := by
  have hbody := (Statement.body_prefix tokens).sublist
  obtain ⟨verdict, hverdict⟩ := LabelRule.exists_verdict (h.ordered.sublist hbody)
    fun t ht => h.inColumns t (hbody.mem ht)
  exact hverdict.labelRule_judge

end AsmLens
