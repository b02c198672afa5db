import AsmLens.Lexer

/-!
What the cut of a line into lexemes keeps. The lexemes spell a front part of the line, so the text
before each of them is known, and none of them follows a comment.
-/

namespace AsmLens

namespace Lexeme

/-- The text that lexemes spell one after another. -/
def spelled (lexemes : List Lexeme) : List Char := lexemes.flatMap Lexeme.text

@[simp] theorem spelled_nil : spelled [] = [] := rfl

@[simp] theorem spelled_cons (lexeme : Lexeme) (more : List Lexeme) :
    spelled (lexeme :: more) = lexeme.text ++ spelled more := rfl

/-- A run of characters of a class and what the scan finds behind it follow each other. -/
private theorem spelled_run {p : Char → Bool} {c : Char} {rest : List Char} {kind : LexemeKind}
    (ih : spelled (scan (rest.dropWhile p)) <+: rest.dropWhile p) :
    spelled (⟨kind, c :: rest.takeWhile p⟩ :: scan (rest.dropWhile p)) <+: c :: rest := by
  rw [spelled_cons, List.cons_append, List.prefix_cons_inj]
  calc rest.takeWhile p ++ spelled (scan (rest.dropWhile p))
      <+: rest.takeWhile p ++ rest.dropWhile p := (List.prefix_append_right_inj _).mpr ih
    _ = rest := List.takeWhile_append_dropWhile

/-- Nothing in front of a lexeme is skipped. -/
theorem spelled_scan_prefix (line : List Char) : spelled (scan line) <+: line := by
  fun_induction scan line with
  | case1 => exact List.nil_prefix
  | case2 rest =>
      rw [spelled_cons, spelled_nil, List.append_nil, List.prefix_cons_inj]
      exact List.takeWhile_prefix _
  | case3 c rest _ _ ih => exact spelled_run ih
  | case4 c rest _ _ _ ih => exact spelled_run ih
  | case5 c rest _ _ _ _ ih => exact (List.prefix_cons_inj c).mpr ih
  | case6 c rest _ _ _ _ _ ih => exact (List.prefix_cons_inj c).mpr ih
  | case7 c rest _ _ _ _ _ ih => exact (List.prefix_cons_inj c).mpr ih

/-- A lexeme with another one after it is no comment. -/
theorem scan_comment_last (line : List Char) :
    (scan line).Pairwise fun a _ => a.kind ≠ .comment := by
  fun_induction scan line with
  | case1 => exact List.Pairwise.nil
  | case2 rest => exact List.pairwise_singleton _ _
  | case3 c rest _ _ ih => exact ih.cons fun _ _ => by simp
  | case4 c rest _ _ _ ih => exact ih.cons fun _ _ => by simp
  | case5 c rest _ _ _ _ ih => exact ih.cons fun _ _ => by simp
  | case6 c rest _ _ _ _ _ ih => exact ih.cons fun _ _ => by simp
  | case7 c rest _ _ _ _ _ ih => exact ih.cons fun _ _ => by simp

end Lexeme

/-- No reserved word is a comment. -/
theorem Vocabulary.categoryOf_ne_comment (word : String) : categoryOf word ≠ .comment := by
  unfold categoryOf
  split
  · next v _ => cases v <;> simp [Vocabulary.category]
  · simp

/-- Only a comment makes a comment token. -/
theorem Lexeme.kind_of_category_comment {lexeme : Lexeme} (h : lexeme.category = some .comment) :
    lexeme.kind = .comment := by
  unfold Lexeme.category at h
  cases hk : lexeme.kind with
  | comment => rfl
  | word =>
      rw [hk] at h
      exact absurd (Option.some.inj h) (Vocabulary.categoryOf_ne_comment _)
  | number => simp [hk] at h
  | operator => simp [hk] at h
  | blank => simp [hk] at h
  | stray => simp [hk] at h

end AsmLens
