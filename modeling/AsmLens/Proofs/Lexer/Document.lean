import AsmLens.Proofs.Lexer.Columns
import AsmLens.Proofs.Statement.Cut
import AsmLens.Proofs.Text.Extent

/-!
What every line of a lexed document is like. `LexedLine` is the invariant that the later stages
rest on: the label rule needs the order and the ends of a line's tokens, the cut into statements
needs its comment behind the others, and the relative form needs all lines in order.
-/

namespace AsmLens

open Text

/-- A line as the lexer leaves it: every token ends at a column that is a word, and none starts
before the one in front of it has ended. -/
structure LexedLine (number : Nat) (tokens : List Token) : Prop
    extends WholeLine number tokens where
  inColumns : ∀ t ∈ tokens, t.column + t.length ≤ Word.limit
  apart : tokens.Pairwise fun a b => a.column + a.length ≤ b.column

namespace Lexer

theorem length_token_le (number column : Nat) (category : Category) (text : List Char) :
    Token.length ⟨number, column, String.ofList text, category, .none⟩ ≤ unitCount text := by
  rw [Token.length, String.toList_ofList, width_eq]
  exact Nat.min_le_left _ _

/-- The tokens of lexemes stand on their line, between the columns where the lexemes start and
end. -/
theorem mem_tokensFrom {number column : Nat} {lexemes : List Lexeme} {t : Token}
    (h : t ∈ tokensFrom number column lexemes) :
    t.line = number ∧ column ≤ t.column ∧
      t.column + t.length ≤ column + unitCount (Lexeme.spelled lexemes) := by
  induction lexemes generalizing column with
  | nil => cases h
  | cons lexeme more ih =>
      rw [Lexeme.spelled_cons, unitCount_append]
      simp only [tokensFrom] at h
      split at h
      · next category _ =>
        rcases List.mem_cons.mp h with rfl | hmore
        · have hlength := length_token_le number column category lexeme.text
          refine ⟨rfl, Nat.le_refl _, ?_⟩
          exact Nat.add_le_add_left (Nat.le_trans hlength (Nat.le_add_right _ _)) _
        · obtain ⟨hline, hcolumn, hend⟩ := ih hmore
          exact ⟨hline, by omega, by omega⟩
      · obtain ⟨hline, hcolumn, hend⟩ := ih h
        exact ⟨hline, by omega, by omega⟩

theorem tokensFrom_apart (number column : Nat) (lexemes : List Lexeme) :
    (tokensFrom number column lexemes).Pairwise fun a b => a.column + a.length ≤ b.column := by
  induction lexemes generalizing column with
  | nil => exact List.Pairwise.nil
  | cons lexeme more ih =>
      simp only [tokensFrom]
      split
      · next category _ =>
        refine (ih _).cons ?_
        intro t ht
        have hlength := length_token_le number column category lexeme.text
        exact Nat.le_trans (Nat.add_le_add_left hlength column) (mem_tokensFrom ht).2.1
      · exact ih _

theorem tokensFrom_commentLast (number column : Nat) {lexemes : List Lexeme}
    (h : lexemes.Pairwise fun a _ => a.kind ≠ .comment) :
    (tokensFrom number column lexemes).Pairwise fun a _ => a.category ≠ .comment := by
  induction lexemes generalizing column with
  | nil => exact List.Pairwise.nil
  | cons lexeme more ih =>
      obtain ⟨hkind, hmore⟩ := List.pairwise_cons.mp h
      simp only [tokensFrom]
      split
      · next category hc =>
          refine (ih _ hmore).cons ?_
          -- a comment with a token behind it would have a lexeme behind it
          rintro t ht rfl
          cases more with
          | nil => cases ht
          | cons other rest =>
              exact hkind other List.mem_cons_self (Lexeme.kind_of_category_comment hc)
      · exact ih _ hmore

theorem lexedLine (number : Nat) {text : List Char} (hfit : unitCount text ≤ Word.limit) :
    LexedLine number (lineTokens number text) where
  onLine := fun t ht => (mem_tokensFrom ht).1
  commentLast := tokensFrom_commentLast number 0 (Lexeme.scan_comment_last text)
  inColumns := by
    intro t ht
    obtain ⟨-, -, hend⟩ := mem_tokensFrom ht
    have hspelled := unitCount_spelled_scan_le text
    omega
  apart := tokensFrom_apart number 0 _

/-- The tokens of lines, line by line, the first line under a number. -/
def tokenLines (number : Nat) (texts : List (List Char)) : List (List Token) :=
  (texts.zipIdx number).map fun (text, i) => lineTokens i text

/-- The strays of lines, the first line under a number. -/
def strays (number : Nat) (texts : List (List Char)) : List Stray :=
  (texts.zipIdx number).flatMap fun (text, i) => lineStrays i text

theorem lexedLines {texts : List (List Char)} (hfit : ∀ text ∈ texts, unitCount text ≤ Word.limit)
    (number : Nat) : Consecutive LexedLine number (tokenLines number texts) :=
  .of_forall lineTokens (fun i _ h => lexedLine i h) hfit number

/-- Lines that words can number and measure are lexed, each under its number. -/
theorem linesFrom_eq (number : Nat) {texts : List (List Char)}
    (hnumber : number + texts.length + 1 ≤ Word.limit)
    (hfit : ∀ text ∈ texts, unitCount text ≤ Word.limit) :
    linesFrom number texts = .ok ⟨(tokenLines number texts).flatten, strays number texts⟩ := by
  induction texts generalizing number with
  | nil =>
      -- one more number is drawn before the end of the text is noticed
      rw [linesFrom, Word.add_of_le _ (by simpa using hnumber)]
      rfl
  | cons text more ih =>
      rw [List.length_cons] at hnumber
      have hmore := ih (number + 1) (by omega) fun t ht =>
        hfit t (List.mem_cons_of_mem text ht)
      rw [linesFrom, Word.add_of_le _ (by omega)]
      simp only [bind, Except.bind, line_eq number (hfit text List.mem_cons_self), hmore]
      rfl

theorem document_eq {source : List Char} (h : FitsWords source) :
    document source =
      .ok ⟨(tokenLines 0 (lines source)).flatten, strays 0 (lines source)⟩ := by
  refine linesFrom_eq 0 ?_ h.columns
  rw [length_lines]
  have hnumbers := h.numbers
  omega

end Lexer

end AsmLens
