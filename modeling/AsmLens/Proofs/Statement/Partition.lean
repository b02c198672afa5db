import AsmLens.Proofs.Analysis.Verdicts

/-!
The cut into statements loses nothing. A token list in the order of its lines, on lines that the
document has and with no token behind a comment of its line, is cut into one statement to the line
(`ofTokens_partition`); the statement's tokens are those of the line but for the comment, they stand
in one piece in the list from the statement's offset on, and with the comments put back they are the
list again. No other list is cut at all (`exists_ofTokens_iff`).
-/

namespace AsmLens

/-- The tokens of a line among those of a document. -/
def tokensOn (tokens : List Token) (number : Nat) : List Token :=
  tokens.filter (·.line = number)

/-- The comment of a line among the tokens of a document, if it has one. -/
def commentOn (tokens : List Token) (number : Nat) : Option Token :=
  tokens.find? fun t => t.line = number && t.category = .comment

theorem bodyOn_eq_filter (tokens : List Token) (number : Nat) :
    bodyOn tokens number = (tokensOn tokens number).filter (·.category ≠ .comment) :=
  bodyOn_eq_filter_filter tokens number

theorem commentOn_eq_find? (tokens : List Token) (number : Nat) :
    commentOn tokens number = (tokensOn tokens number).find? (·.category = .comment) := by
  simp [commentOn, tokensOn, List.find?_filter]

/-! ## Tokens in the order of their lines -/

theorem filter_line_lt_eq_nil {tokens : List Token} {number : Nat}
    (h : ∀ t ∈ tokens, number ≤ t.line) : tokens.filter (·.line < number) = [] := by
  rw [List.filter_eq_nil_iff]
  intro t ht
  simpa using h t ht

section

variable {tokens : List Token} (hordered : tokens.Pairwise fun a b => a.line ≤ b.line)

include hordered

/-- The tokens above a line come first. -/
theorem filter_line_lt_prefix (number : Nat) : tokens.filter (·.line < number) <+: tokens := by
  induction tokens with
  | nil => simp
  | cons t more ih =>
      obtain ⟨hbehind, hmore⟩ := List.pairwise_cons.mp hordered
      by_cases ht : t.line < number
      · simpa [ht] using ih hmore
      · have hnone : more.filter (·.line < number) = [] :=
          filter_line_lt_eq_nil fun u hu => Nat.le_trans (Nat.not_lt.mp ht) (hbehind u hu)
        simp [ht, hnone]

/-- The tokens above the next line are those above this one, then those on it. -/
theorem filter_line_lt_succ (number : Nat) :
    tokens.filter (·.line < number + 1) =
      tokens.filter (·.line < number) ++ tokensOn tokens number := by
  induction tokens with
  | nil => rfl
  | cons t more ih =>
      obtain ⟨hbehind, hmore⟩ := List.pairwise_cons.mp hordered
      have ih := ih hmore
      simp only [tokensOn] at ih ⊢
      rcases Nat.lt_trichotomy t.line number with ht | ht | ht
      · have hhere : t.line < number + 1 := by omega
        have hother : t.line ≠ number := by omega
        simp only [List.filter_cons, ht, hhere, hother, ih, decide_true, decide_false, if_true,
          Bool.false_eq_true, if_false, List.cons_append]
      · have hnone : more.filter (·.line < number) = [] :=
          filter_line_lt_eq_nil fun u hu => ht ▸ hbehind u hu
        simp only [List.filter_cons, ht, ih, hnone]
        simp
      · have habove : ¬ t.line < number := by omega
        have hhere : ¬ t.line < number + 1 := by omega
        have hother : t.line ≠ number := by omega
        simp only [List.filter_cons, habove, hhere, hother, ih, decide_false, Bool.false_eq_true,
          if_false]

/-- Line by line, the tokens above a line are gone through in their order. -/
theorem flatMap_tokensOn_range (count : Nat) :
    (List.range count).flatMap (tokensOn tokens) = tokens.filter (·.line < count) := by
  induction count with
  | zero => simp
  | succ count ih =>
      rw [List.range_succ, List.flatMap_append, ih, filter_line_lt_succ hordered]
      simp

end

/-! ## The cut -/

namespace Statement

/-- Tokens that can be cut into the statements of `count` lines. -/
structure Cuttable (tokens : List Token) (count : Nat) : Prop where
  ordered : tokens.Pairwise fun a b => a.line ≤ b.line
  below : ∀ t ∈ tokens, t.line < count
  /-- No token stands behind a comment of its line. -/
  commentLast : tokens.Pairwise fun a b => a.category = .comment → a.line ≠ b.line

/-- The statement of a line, as it can be told from all tokens of the document. -/
def onLine (tokens : List Token) (number : Nat) : Statement :=
  ⟨number, tokens.countP (·.line < number), bodyOn tokens number⟩

/-- A line is its body with the comment put back. -/
theorem body_append_comment {number : Nat} {line : List Token} (h : WholeLine number line) :
    body line ++ (line.find? (·.category = .comment)).toList = line := by
  rw [body_eq_filter h]
  have hlast := h.commentLast
  clear h
  induction line with
  | nil => rfl
  | cons t more ih =>
      obtain ⟨hbehind, hmore⟩ := List.pairwise_cons.mp hlast
      by_cases ht : t.category = .comment
      · cases more with
        | nil => simp [ht]
        | cons u rest => exact absurd ht (hbehind u List.mem_cons_self)
      · simpa [ht] using ih hmore

namespace Cuttable

variable {tokens : List Token} {count : Nat} (h : Cuttable tokens count)

include h

theorem wholeLine (number : Nat) : WholeLine number (tokensOn tokens number) where
  onLine := by simp [tokensOn]
  commentLast := by
    refine (h.commentLast.sublist List.filter_sublist).imp_of_mem ?_
    intro a b ha hb hlast hcomment
    simp only [List.mem_filter, decide_eq_true_eq] at ha hb
    exact hlast hcomment (ha.2.trans hb.2.symm)

theorem body_tokensOn (number : Nat) : body (tokensOn tokens number) = bodyOn tokens number := by
  rw [body_eq_filter (h.wholeLine number), bodyOn_eq_filter]

theorem countP_line_lt_succ (number : Nat) :
    tokens.countP (·.line < number + 1) =
      tokens.countP (·.line < number) + (tokensOn tokens number).length := by
  simp only [List.countP_eq_length_filter, filter_line_lt_succ h.ordered, List.length_append]

/-- The running index is the number of tokens above the line. -/
theorem ofLines_tokensOn (number lines : Nat) :
    ofLines number (tokens.countP (·.line < number))
        ((List.range' number lines).map (tokensOn tokens)) =
      (List.range' number lines).map (onLine tokens) := by
  induction lines generalizing number with
  | zero => rfl
  | succ lines ih =>
      rw [List.range'_succ, List.map_cons, List.map_cons, ofLines, h.body_tokensOn,
        ← h.countP_line_lt_succ, ih]
      rfl

/-- The cut gives every line its statement. -/
theorem ofTokens_eq : ofTokens tokens count = .ok ((List.range count).map (onLine tokens)) := by
  have hwhole : ∀ number lines,
      Consecutive WholeLine number ((List.range' number lines).map (tokensOn tokens)) := by
    intro number lines
    induction lines generalizing number with
    | zero => trivial
    | succ lines ih => exact ⟨h.wholeLine number, ih (number + 1)⟩
  have hflat : ((List.range count).map (tokensOn tokens)).flatten = tokens := by
    rw [← List.flatMap_def, flatMap_tokensOn_range h.ordered, List.filter_eq_self]
    intro t ht
    exact decide_eq_true (h.below t ht)
  have hcut := ofTokensFrom_flatten 0 (hwhole 0 count)
  rw [← List.range_eq_range', hflat, List.length_map, List.length_range] at hcut
  have hnone : tokens.countP (·.line < 0) = 0 := by simp
  have hlines := h.ofLines_tokensOn 0 count
  rw [hnone, ← List.range_eq_range'] at hlines
  rw [ofTokens, hcut, hlines]

/-- The tokens of a line stand in one piece, behind those of the lines above it. -/
theorem exists_split (number : Nat) :
    ∃ later, tokens =
      tokens.filter (·.line < number) ++ (tokensOn tokens number ++ later) := by
  obtain ⟨later, hlater⟩ := filter_line_lt_prefix h.ordered (number + 1)
  rw [filter_line_lt_succ h.ordered, List.append_assoc] at hlater
  exact ⟨later, hlater.symm⟩

/-- From the offset of a line on, the document has the tokens of its statement. -/
theorem slice (number : Nat) :
    (tokens.drop (onLine tokens number).offset).take (bodyOn tokens number).length =
      bodyOn tokens number := by
  obtain ⟨later, hsplit⟩ := h.exists_split number
  have hoffset : (onLine tokens number).offset = (tokens.filter (·.line < number)).length :=
    List.countP_eq_length_filter
  have hdrop : tokens.drop (onLine tokens number).offset = tokensOn tokens number ++ later := by
    calc tokens.drop (onLine tokens number).offset
        = (tokens.filter (·.line < number) ++ (tokensOn tokens number ++ later)).drop
            (tokens.filter (·.line < number)).length := by rw [← hsplit, hoffset]
      _ = tokensOn tokens number ++ later := List.drop_left
  have hbody := body_append_comment (h.wholeLine number)
  rw [h.body_tokensOn] at hbody
  rw [hdrop, ← hbody, List.append_assoc, List.take_left]

/-- With the comments put back, the bodies are all of the tokens. -/
theorem flatMap_body_append_comment :
    (List.range count).flatMap
      (fun number => bodyOn tokens number ++ (commentOn tokens number).toList) = tokens := by
  calc (List.range count).flatMap
        (fun number => bodyOn tokens number ++ (commentOn tokens number).toList)
      = (List.range count).flatMap (tokensOn tokens) := by
        apply List.flatMap_congr
        intro number _
        have hline := body_append_comment (h.wholeLine number)
        rwa [h.body_tokensOn, ← commentOn_eq_find?] at hline
    _ = tokens.filter (·.line < count) := flatMap_tokensOn_range h.ordered count
    _ = tokens := by
        rw [List.filter_eq_self]
        intro t ht
        exact decide_eq_true (h.below t ht)

end Cuttable

/-- The statement of a line of a document: its tokens are those of the line but for the comment, and
they are the stretch of the document from its offset on. -/
structure IsOfLine (document : List Token) (number : Nat) (s : Statement) : Prop where
  line : s.line = number
  offset : s.offset = document.countP (·.line < number)
  body : s.tokens = document.filter fun t => t.line = number && t.category ≠ .comment
  slice : s.tokens = (document.drop s.offset).take s.tokens.length
  noComment : ∀ t ∈ s.tokens, t.category ≠ .comment

theorem Cuttable.isOfLine {tokens : List Token} {count : Nat} (h : Cuttable tokens count)
    (number : Nat) : (onLine tokens number).IsOfLine tokens number where
  line := rfl
  offset := rfl
  body := rfl
  slice := (h.slice number).symm
  noComment := by
    intro t ht
    simp only [onLine, bodyOn_eq_filter, List.mem_filter, decide_eq_true_eq] at ht
    exact ht.2

/-- Tokens in the order of their lines, all on lines of the document and none behind a comment of
its line, are cut into one statement to the line, blank lines included, and with the comment of each
line put back behind its statement they are the list that was cut. -/
theorem ofTokens_partition {tokens : List Token} {count : Nat} (h : Cuttable tokens count) :
    ∃ statements, ofTokens tokens count = .ok statements ∧
      statements.length = count ∧
      (∀ (i : Nat) (s : Statement), statements[i]? = some s → s.IsOfLine tokens i) ∧
      statements.flatMap (fun s => s.tokens ++ (commentOn tokens s.line).toList) = tokens := by
  refine ⟨_, h.ofTokens_eq, by simp, ?_, ?_⟩
  · intro i s hs
    rw [List.getElem?_map, Option.map_eq_some_iff] at hs
    obtain ⟨number, hnumber, rfl⟩ := hs
    obtain ⟨_, rfl⟩ := List.getElem?_eq_some_iff.mp hnumber
    simpa using h.isOfLine i
  · rw [List.flatMap_map]
    exact h.flatMap_body_append_comment

/-- A statement with its comment, a blank line, a comment that stands alone, two tokens, and two
lines without tokens behind them. -/
theorem ofTokens_partition_blank :
    let nop : Token := ⟨0, 0, "nop", .keyword, .none⟩
    let aside : Token := ⟨0, 4, "; a", .comment, .none⟩
    let alone : Token := ⟨2, 0, ";", .comment, .none⟩
    let foo : Token := ⟨3, 0, "foo", .unknown, .none⟩
    let colon : Token := ⟨3, 3, ":", .operator, .none⟩
    Cuttable [nop, aside, alone, foo, colon] 6 ∧
      ∃ statements, ofTokens [nop, aside, alone, foo, colon] 6 = .ok statements ∧
        statements.map Statement.offset = [0, 2, 2, 3, 5, 5] ∧
        statements.map Statement.tokens = [[nop], [], [], [foo, colon], [], []] ∧
        statements.flatMap (fun s => s.tokens ++
          (commentOn [nop, aside, alone, foo, colon] s.line).toList) =
            [nop, aside, alone, foo, colon] := by
  intro nop aside alone foo colon
  have hcuttable : Cuttable [nop, aside, alone, foo, colon] 6 := ⟨by decide, by decide, by decide⟩
  obtain ⟨statements, hcut, -, -, hwhole⟩ := ofTokens_partition hcuttable
  have hfound : ofTokens [nop, aside, alone, foo, colon] 6 =
      .ok [⟨0, 0, [nop]⟩, ⟨1, 2, []⟩, ⟨2, 2, []⟩, ⟨3, 3, [foo, colon]⟩, ⟨4, 5, []⟩,
        ⟨5, 5, []⟩] := by
    rfl
  obtain rfl := Except.ok.inj (hfound.symm.trans hcut)
  exact ⟨hcuttable, _, hcut, rfl, rfl, hwhole⟩

/-! ## Lists that are not cut -/

/-- Behind the body of a line comes one token at most. -/
theorem exists_append_of_body (line : List Token) :
    ∃ behind, line = body line ++ behind ∧ behind.length ≤ 1 := by
  rcases List.eq_nil_or_concat line with rfl | ⟨front, last, rfl⟩
  · exact ⟨[], rfl, by simp⟩
  · rw [List.concat_eq_append]
    by_cases hlast : last.category = .comment
    · exact ⟨[last], by simp [body, hlast], by simp⟩
    · exact ⟨[], by simp [body, hlast], by simp⟩

/-- A line whose body holds no comment has no token behind a comment. -/
theorem pairwise_of_body {line : List Token} (h : ∀ t ∈ body line, t.category ≠ .comment) :
    line.Pairwise fun a _ => a.category ≠ .comment := by
  obtain ⟨behind, hline, hlength⟩ := exists_append_of_body line
  rw [hline, List.pairwise_append]
  refine ⟨?_, ?_, fun a ha _ _ => h a ha⟩
  · exact List.Pairwise.imp_of_mem (fun ha _ _ => h _ ha)
      (List.pairwise_of_forall fun _ _ => trivial)
  · match behind, hlength with
    | [], _ => exact List.Pairwise.nil
    | [t], _ => exact List.pairwise_singleton _ t

/-- A whole line can be put in front of lines that come after it. -/
theorem Cuttable.append_line {number count : Nat} {line rest : List Token}
    (hline : WholeLine number line) (hrest : Cuttable rest count)
    (hfrom : ∀ t ∈ rest, number < t.line) (hnumber : number < count) :
    Cuttable (line ++ rest) count where
  ordered := by
    refine List.pairwise_append.mpr ⟨?_, hrest.ordered, ?_⟩
    · refine hline.commentLast.imp_of_mem ?_
      intro a b ha hb _
      exact Nat.le_of_eq ((hline.onLine a ha).trans (hline.onLine b hb).symm)
    · intro a ha b hb
      rw [hline.onLine a ha]
      exact Nat.le_of_lt (hfrom b hb)
  below := by
    intro t ht
    rcases List.mem_append.mp ht with ht | ht
    · rw [hline.onLine t ht]
      exact hnumber
    · exact hrest.below t ht
  commentLast := by
    refine List.pairwise_append.mpr ⟨?_, hrest.commentLast, ?_⟩
    · exact hline.commentLast.imp fun hno hcomment => absurd hcomment hno
    · intro a ha b hb _
      rw [hline.onLine a ha]
      exact Nat.ne_of_lt (hfrom b hb)

/-- What is cut from a line on is in the order of its lines, with no token past the last line and
none behind a comment of its line. -/
theorem cuttable_of_ofTokensFrom {number index count : Nat} {tokens : List Token}
    {statements : List Statement}
    (h : ofTokensFrom number index tokens count = .ok statements) :
    Cuttable tokens (number + count) ∧ ∀ t ∈ tokens, number ≤ t.line := by
  induction count generalizing number index tokens statements with
  | zero =>
      cases tokens with
      | nil => exact ⟨⟨List.Pairwise.nil, by simp, List.Pairwise.nil⟩, by simp⟩
      | cons t more => cases h
  | succ count ih =>
      simp only [ofTokensFrom] at h
      split at h
      · cases h
      · next hbody =>
        obtain ⟨later, hlater, -⟩ := Checked.bind_eq_ok_iff.mp h
        obtain ⟨hrest, hfrom⟩ := ih hlater
        have hline : WholeLine number (tokens.takeWhile (·.line = number)) := by
          constructor
          · intro t ht
            simpa using List.all_eq_true.mp List.all_takeWhile t ht
          · apply pairwise_of_body
            simpa using hbody
        rw [Nat.add_right_comm, Nat.add_assoc] at hrest
        -- the line that is cut off stands before all the others
        have htokens := Cuttable.append_line hline hrest hfrom (by omega)
        rw [List.takeWhile_append_dropWhile] at htokens
        refine ⟨htokens, ?_⟩
        intro t ht
        rw [← List.takeWhile_append_dropWhile (p := fun t => decide (t.line = number))
          (l := tokens)] at ht
        rcases List.mem_append.mp ht with ht | ht
        · exact Nat.le_of_eq (hline.onLine t ht).symm
        · exact Nat.le_of_lt (hfrom t ht)

/-- Tokens are cut exactly where they are in the order of their lines, on lines of the document, and
without a token behind a comment of its line. -/
theorem exists_ofTokens_iff {tokens : List Token} {count : Nat} :
    (∃ statements, ofTokens tokens count = .ok statements) ↔ Cuttable tokens count := by
  constructor
  · rintro ⟨statements, h⟩
    simpa using (cuttable_of_ofTokensFrom h).1
  · intro h
    exact ⟨_, h.ofTokens_eq⟩

end Statement

end AsmLens
