import AsmLens.Proofs.Analysis.ByLine
import AsmLens.Proofs.Lexer.Places
import AsmLens.Proofs.TokenStream.RoundTrip
import AsmLens.Protocol.Capabilities

/-!
Well-formed streams. A token that the analysis sends lies within its line, and behind the token
before it; in the relative form this says what an editor relies on when it adds the steps up again
(`wellFormed_tokens`).
-/

namespace AsmLens

open Protocol

theorem Category.index_eq_four_iff {category : Category} :
    category.index = 4 ↔ category = .comment := by
  cases category <;> simp [index]

/-! ## Tokens of a line -/

/-- A token takes up some of its line, and its modifiers have names. -/
structure Token.Within (number : Nat) (line : List Char) (t : Token) : Prop where
  onLine : t.line = number
  nonempty : 1 ≤ t.length
  inText : t.column + t.length ≤ Text.unitCount line
  named : ∀ bit, t.modifiers.bits.testBit bit → bit < Modifiers.legend.length

/-- The second token is behind the first: on a later line, or on the same line behind the end of
what is no comment (4). -/
def PlacedToken.Before (p q : PlacedToken) : Prop :=
  p.line < q.line ∨ p.line = q.line ∧ p.column + p.length ≤ q.column ∧ p.category ≠ 4

theorem Lexer.within_of_mem {number : Nat} {line : List Char} {t : Token}
    (h : t ∈ lineTokens number line) : t.Within number line where
  onLine := (mem_tokensFrom h).1
  nonempty := by
    obtain ⟨-, -, hnonempty, -⟩ := exists_text_of_mem h
    rw [Token.length, Text.width_eq]
    exact Nat.le_min.mpr ⟨Text.unitCount_pos hnonempty, by decide⟩
  inText := by
    obtain ⟨-, -, hend⟩ := mem_tokensFrom h
    rw [Nat.zero_add] at hend
    exact Nat.le_trans hend (unitCount_spelled_scan_le line)
  named := by
    obtain ⟨-, hmodifiers, -⟩ := exists_text_of_mem h
    intro bit hbit
    rw [hmodifiers] at hbit
    simp [Modifiers.none] at hbit

/-- The modifier of a declaration is the first one. -/
theorem Token.Within.declared {number : Nat} {line : List Char} {t : Token}
    (h : t.Within number line) : (LabelFindings.declared t).Within number line where
  onLine := h.onLine
  nonempty := h.nonempty
  inText := h.inText
  named := by
    intro bit hbit
    simp only [LabelFindings.declared, Modifiers.union, Modifiers.declaration, Nat.testBit_or,
      Bool.or_eq_true, Nat.testBit_one_eq_true_iff_self_eq_zero] at hbit
    rcases hbit with hbit | rfl
    · exact h.named bit hbit
    · decide

/-- A label is no comment. -/
theorem PlacedToken.Before.declared {a b : Token} (h : a.placed.Before b.placed) :
    (LabelFindings.declared a).placed.Before b.placed := by
  rcases h with hline | ⟨hline, hcolumn, -⟩
  · exact Or.inl hline
  · exact Or.inr ⟨hline, hcolumn, show Category.label.index ≠ 4 by decide⟩

/-- The tokens of a line stand one behind the other, and a comment behind all others. -/
theorem LexedLine.before {number : Nat} {tokens : List Token} (h : LexedLine number tokens) :
    tokens.Pairwise fun a b => a.placed.Before b.placed := by
  refine (h.apart.and h.commentLast).imp_of_mem ?_
  intro a b ha hb ⟨hcolumn, hcomment⟩
  exact Or.inr ⟨(h.onLine a ha).trans (h.onLine b hb).symm, hcolumn,
    fun hindex => hcomment (Category.index_eq_four_iff.mp hindex)⟩

/-! ## Tokens of a document -/

section

variable {texts : List (List Char)}

/-- A token of a document lies within the line of its number. -/
theorem within_of_mem_settledTokens {t : Token} (h : t ∈ settledTokens 0 texts) :
    ∃ line, texts[t.line]? = some line ∧ t.Within t.line line := by
  obtain ⟨judged, hjudged, ht⟩ := List.mem_flatMap.mp h
  obtain ⟨⟨line, number⟩, hline, rfl⟩ := List.mem_map.mp hjudged
  have hlexed : ∀ u ∈ (judgedLine number line).tokens, u.Within number line :=
    fun _ hu => Lexer.within_of_mem hu
  have hwithin := JudgedLine.forall_mem_settled (fun _ hu => hu.declared) hlexed t ht
  obtain rfl := hwithin.onLine
  exact ⟨line, List.mem_zipIdx_iff_getElem?.mp hline, hwithin⟩

theorem settledTokens_before (hfit : ∀ text ∈ texts, Text.unitCount text ≤ Word.limit) :
    (settledTokens 0 texts).Pairwise fun a b => a.placed.Before b.placed :=
  (judgedLines_settle hfit 0).pairwise_flatMap Token.line (fun _ _ hlt => Or.inl hlt)
    (fun _ _ h => h.line_of_mem_settled)
    (fun _ _ h => JudgedLine.pairwise_settled (fun _ _ => PlacedToken.Before.declared)
      h.lexed.before)

end

/-! ## Their stream -/

/-- What an editor relies on in the tuples of a document: none is empty, their numbers are places of
the legend, none starts on the line of the one before it until that one has ended, and behind a
comment (4) comes another line. -/
structure Protocol.WellFormed (tuples : List TokenTuple) : Prop where
  nonempty : ∀ t ∈ tuples, 1 ≤ t.length
  types : ∀ t ∈ tuples, t.tokenType < legend.tokenTypes.length
  modifiers : ∀ t ∈ tuples, ∀ bit, t.modifiers.testBit bit → bit < legend.tokenModifiers.length
  apart : tuples.IsChain fun a b => b.deltaLine = 0 → a.length ≤ b.deltaStart
  commentLast : tuples.IsChain fun a b => a.tokenType = 4 → 0 < b.deltaLine

/-- What a step to a token behind the one before it tells. -/
theorem PlacedToken.Before.step {place : Position} {a b : TokenTuple}
    (h : (a.placedAfter place).Before (b.placedAfter (a.placedAfter place).start)) :
    (b.deltaLine = 0 → a.length ≤ b.deltaStart) ∧ (a.tokenType = 4 → 0 < b.deltaLine) := by
  simp only [Before, TokenTuple.placedAfter, PlacedToken.start] at h
  constructor
  · intro hline
    rw [hline, if_neg (Nat.lt_irrefl 0)] at h
    omega
  · intro hcomment
    omega

/-- The tuples of tokens that lie within their lines, one behind the other. -/
theorem Protocol.WellFormed.of_placedFrom {place : Position} {tuples : List TokenTuple}
    {tokens : List Token} (hplaced : TokenTuple.placedFrom place tuples = tokens.map Token.placed)
    (hwithin : ∀ t ∈ tokens, ∃ line, t.Within t.line line)
    (hbefore : tokens.Pairwise fun a b => a.placed.Before b.placed) : WellFormed tuples := by
  have hsent : ∀ u ∈ tuples, ∃ t ∈ tokens,
      t.length = u.length ∧ t.category.index = u.tokenType ∧ t.modifiers.bits = u.modifiers := by
    intro u hu
    obtain ⟨p, hp, htold⟩ := TokenTuple.exists_mem_placedFrom place hu
    rw [hplaced] at hp
    obtain ⟨t, ht, rfl⟩ := List.mem_map.mp hp
    exact ⟨t, ht, htold⟩
  have hchain : (TokenTuple.placedFrom place tuples).IsChain PlacedToken.Before := by
    rw [hplaced]
    exact (List.pairwise_map.mpr hbefore).isChain
  refine ⟨?_, ?_, ?_, ?_, ?_⟩
  · intro u hu
    obtain ⟨t, ht, hlength, -, -⟩ := hsent u hu
    obtain ⟨line, hline⟩ := hwithin t ht
    exact hlength ▸ hline.nonempty
  · intro u hu
    obtain ⟨t, -, -, hcategory, -⟩ := hsent u hu
    have hindex := t.category.index_lt_length_legend
    rwa [legend, List.length_map, ← hcategory]
  · intro u hu bit hbit
    obtain ⟨t, ht, -, -, hmodifiers⟩ := hsent u hu
    obtain ⟨line, hline⟩ := hwithin t ht
    exact hline.named bit (hmodifiers ▸ hbit)
  · exact TokenTuple.isChain_of_placedFrom (fun _ _ _ h => h.step.1) hchain
  · exact TokenTuple.isChain_of_placedFrom (fun _ _ _ h => h.step.2) hchain

/-- The stream of a text that words can number and measure consists of whole tuples, and these are
well formed. Added up they lead to lines of the text, to columns at which the line has the whole
token, and from a comment always to a later line. -/
theorem wellFormed_tokens (source : String) (h : Text.FitsWords source.toList) :
    ∃ found placed, analyze source = .ok found ∧
      flatten (regroup found.value.tokens) = found.value.tokens ∧
      WellFormed (regroup found.value.tokens) ∧
      TokenStream.decode found.value.tokens = .ok placed ∧
      placed = TokenTuple.placedFrom ⟨0, 0⟩ (regroup found.value.tokens) ∧
      (∀ p ∈ placed, p.line < Text.lineCount source.toList ∧
        ∃ line, (Text.lines source.toList)[p.line]? = some line ∧
          p.column + p.length ≤ Text.unitCount line) ∧
      placed.Pairwise fun p q => p.category = 4 → p.line < q.line := by
  obtain ⟨found, hfound, hencode, hdecode, -, -⟩ := analyze_eq h
  have hplaced := TokenStream.placedFrom_regroup ⟨0, 0⟩ hencode
  have hbefore := settledTokens_before h.columns
  refine ⟨found, _, hfound, flatten_regroup (TokenStream.length_encodeFrom hencode), ?_, hdecode,
    hplaced.symm, ?_, ?_⟩
  · refine .of_placedFrom hplaced (fun t ht => ?_) hbefore
    obtain ⟨line, -, hwithin⟩ := within_of_mem_settledTokens ht
    exact ⟨line, hwithin⟩
  · intro p hp
    obtain ⟨t, ht, rfl⟩ := List.mem_map.mp hp
    obtain ⟨line, hline, hwithin⟩ := within_of_mem_settledTokens ht
    refine ⟨?_, line, hline, hwithin.inText⟩
    rw [h.lineCount_eq]
    exact (List.getElem?_eq_some_iff.mp hline).1
  · refine List.pairwise_map.mpr (hbefore.imp ?_)
    rintro a b (hlater | ⟨-, -, hno⟩) hcomment
    · exact hlater
    · exact absurd hcomment hno

/-- A character of two code units, a label, a violation of the rule and a comment. -/
theorem wellFormed_tokens_mixed :
    Text.FitsWords "𝒳: mov\r\nmain:\n  foo bar ; é".toList ∧
      ∃ found, analyze "𝒳: mov\r\nmain:\n  foo bar ; é" = .ok found ∧
        WellFormed (regroup found.value.tokens) := by
  have hfits : Text.FitsWords "𝒳: mov\r\nmain:\n  foo bar ; é".toList :=
    .of_utf8ByteSize (by decide)
  obtain ⟨found, -, hfound, -, hwell, -⟩ := wellFormed_tokens _ hfits
  exact ⟨hfits, found, hfound, hwell⟩

end AsmLens
