import AsmLens.Proofs.Analysis.ByLine

/-!
Analyses that go through. Each condition that a stage of the analysis relies on is checked there and
named by its `Fault`, so that an analysis with a result is one in which the columns were asked for
in order, no comment was left in a body, every token was on a line of the document, each declared
label was a token still to be settled, every span and every step between tokens went forward, and
no sum left the words.
-/

namespace AsmLens

/-- A source of at most 4294967293 bytes is analyzed, and its token stream can be decoded, without
a `Fault`. -/
theorem analyze_total (source : String) (h : source.utf8ByteSize ≤ Text.byteLimit) :
    ∃ found placed, analyze source = .ok found ∧
      TokenStream.decode found.value.tokens = .ok placed := by
  obtain ⟨found, hfound, -, hdecode, -, -⟩ := analyze_eq (.of_utf8ByteSize h)
  exact ⟨found, _, hfound, hdecode⟩

/-- A character of two code units, a label, a violation of the rule and a comment. -/
theorem analyze_total_mixed :
    "𝒳: mov\r\nmain:\n  foo bar ; é".utf8ByteSize ≤ Text.byteLimit ∧
      ∃ found placed, analyze "𝒳: mov\r\nmain:\n  foo bar ; é" = .ok found ∧
        TokenStream.decode found.value.tokens = .ok placed :=
  ⟨by decide, analyze_total _ (by decide)⟩

/-- A token stream consists of whole tuples. -/
theorem stride_dvd_tokens {source : String} {found : Traced Analysis}
    (h : analyze source = .ok found) :
    TokenStream.stride ∣ found.value.tokens.length := by
  unfold analyze at h
  obtain ⟨_, -, h⟩ := Checked.bind_eq_ok_iff.mp h
  obtain ⟨_, -, h⟩ := Checked.bind_eq_ok_iff.mp h
  obtain ⟨_, -, h⟩ := Checked.bind_eq_ok_iff.mp h
  obtain ⟨_, -, h⟩ := Checked.bind_eq_ok_iff.mp h
  obtain ⟨settled, -, h⟩ := Checked.bind_eq_ok_iff.mp h
  obtain ⟨tokens, htokens, h⟩ := Checked.bind_eq_ok_iff.mp h
  cases h
  exact ⟨settled.length, TokenStream.length_encodeFrom htokens⟩

end AsmLens
