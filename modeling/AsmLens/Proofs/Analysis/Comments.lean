import AsmLens.Proofs.Analysis.Verdicts
import AsmLens.Proofs.Analysis.WellFormed
import AsmLens.Proofs.Lexer.Comments

/-!
Comments carry no meaning. What is answered about a source, its comments left out, is made of the
bodies of its lines (`analyze_eq_bodies`), and the body of a line is told by the code in front of
its first semicolon. So two sources with the same code on each line have the same labels, the same
diagnostics and, but for comments, the same tokens (`analyze_of_sameCode`).
-/

namespace AsmLens

/-! ## What a body tells -/

/-- The labels of a line with this body. -/
def labelsOfBody (body : List Token) : List String :=
  (body.filter (headsLabel body)).map Token.text

/-- The diagnostics of a line with this body. -/
def diagnosticsOfBody (body : List Token) : List Diagnostic :=
  (JudgedLine.mk body (((Statement.labelVerdict ⟨0, 0, body⟩).toOption).getD
    .notConcerned)).diagnostics

/-- What is sent for a line with this body, its comment left out. -/
def sentOfBody (body : List Token) : List PlacedToken := body.map (sentFor body)

/-- A token that heads a declaration stands in its body. -/
theorem mem_of_headsLabel {body : List Token} {t : Token} (h : headsLabel body t = true) :
    t ∈ body := by
  simp only [headsLabel, Bool.and_eq_true, decide_eq_true_eq] at h
  exact List.mem_of_head? h.2

namespace JudgedLine.Analyzed

variable {number : Nat} {line : JudgedLine} (h : line.Analyzed number)

include h

theorem mem_body_iff {t : Token} :
    t ∈ Statement.body line.tokens ↔ t ∈ line.tokens ∧ t.category ≠ .comment := by
  simp [Statement.body_eq_filter h.whole]

theorem labels_eq_labelsOfBody : line.labels = labelsOfBody (Statement.body line.tokens) := by
  have hheads : line.tokens.filter (headsLabel (Statement.body line.tokens)) =
      (Statement.body line.tokens).filter (headsLabel (Statement.body line.tokens)) := by
    calc line.tokens.filter (headsLabel (Statement.body line.tokens))
        = line.tokens.filter fun t =>
            headsLabel (Statement.body line.tokens) t && t.category ≠ .comment := by
          apply List.filter_congr
          intro t _
          by_cases ht : headsLabel (Statement.body line.tokens) t
          · simp [ht, (h.mem_body_iff.mp (mem_of_headsLabel ht)).2]
          · simp [ht]
      _ = (line.tokens.filter (·.category ≠ .comment)).filter
            (headsLabel (Statement.body line.tokens)) := List.filter_filter.symm
      _ = (Statement.body line.tokens).filter (headsLabel (Statement.body line.tokens)) :=
          congrArg (List.filter _) (Statement.body_eq_filter h.whole).symm
  rw [h.labels_eq, hheads, labelsOfBody]

theorem diagnostics_eq_diagnosticsOfBody :
    line.diagnostics = diagnosticsOfBody (Statement.body line.tokens) := by
  have hverdict : Statement.labelVerdict ⟨0, 0, Statement.body line.tokens⟩ = .ok line.verdict :=
    Statement.labelVerdict_eq_ok_iff.mpr h.sound
  rw [diagnosticsOfBody, hverdict]
  rfl

/-- What is sent for a token is that of a comment (4) where the token is one. -/
theorem category_sentFor_eq_four_iff {t : Token} :
    (sentFor (Statement.body line.tokens) t).category = 4 ↔ t.category = .comment := by
  by_cases ht : headsLabel (Statement.body line.tokens) t
  · have hbody := (h.mem_body_iff.mp (mem_of_headsLabel ht)).2
    simp [sentFor, ht, hbody]
  · simp [sentFor, ht, Category.index_eq_four_iff]

theorem filter_sent_eq_sentOfBody :
    (line.settled.map Token.placed).filter (·.category ≠ 4) =
      sentOfBody (Statement.body line.tokens) := by
  have hkept : line.tokens.filter
      (fun t => (sentFor (Statement.body line.tokens) t).category ≠ 4) =
        Statement.body line.tokens := by
    simp only [ne_eq, h.category_sentFor_eq_four_iff]
    exact (Statement.body_eq_filter h.whole).symm
  rw [h.map_placed_settled, List.filter_map, sentOfBody]
  exact congrArg _ hkept

end JudgedLine.Analyzed

/-! ## The bodies of a document -/

/-- The bodies of lines, told by their code, the first line under a number. -/
def codeBodies (number : Nat) (codes : List (List Char)) : List (List Token) :=
  (codes.zipIdx number).map fun (code, i) => (Lexer.lineTokens i code).map Token.inWords

theorem map_body_eq_codeBodies {number : Nat} {lexed : List (List Char × Scanned)}
    (h : Consecutive Lexer.Lexed number lexed) :
    lexed.map (fun l => Statement.body l.2.tokens) =
      codeBodies number (lexed.map fun l => Text.code l.1) := by
  induction lexed generalizing number with
  | nil => rfl
  | cons l more ih =>
      rw [List.map_cons, List.map_cons, h.1.body_eq, ih h.2]
      rfl

/-- What each line tells by its body, all lines tell by their bodies. -/
theorem flatMap_eq_flatMap_bodies {β : Type} {number : Nat} {lines : List JudgedLine}
    (h : Consecutive JudgedLine.Analyzed number lines) {part : JudgedLine → List β}
    {ofBody : List Token → List β}
    (hpart : ∀ i line, line.Analyzed i → part line = ofBody (Statement.body line.tokens)) :
    lines.flatMap part = (lines.map fun line => Statement.body line.tokens).flatMap ofBody := by
  induction lines generalizing number with
  | nil => rfl
  | cons line more ih =>
      rw [List.flatMap_cons, List.map_cons, List.flatMap_cons, hpart number line h.1, ih h.2]

/-- What is answered about a source, its comments left out, is made of the bodies of its lines, and
these are told by the code of the lines. -/
theorem analyze_eq_bodies {source : String} {found : Traced Analysis}
    (h : analyze source = .ok found) :
    ∃ bodies, bodies = codeBodies 0 ((Text.lines source.toList).map Text.code) ∧
      found.value.labels = bodies.flatMap labelsOfBody ∧
      found.value.diagnostics = bodies.flatMap diagnosticsOfBody ∧
      ∃ sent, TokenStream.decode found.value.tokens = .ok sent ∧
        sent.filter (·.category ≠ 4) = bodies.flatMap sentOfBody := by
  obtain ⟨_, lexed, -, htexts, -, hlexed, hlines, -, hlabels, hdiagnostics, hdecode⟩ :=
    analyze_of_ok h
  refine ⟨(lexed.map judgedAs).map fun line => Statement.body line.tokens, ?_, ?_, ?_, _,
    hdecode, ?_⟩
  · rw [← htexts, List.map_map, List.map_map]
    exact map_body_eq_codeBodies hlexed
  · rw [hlabels]
    exact flatMap_eq_flatMap_bodies hlines fun _ _ hl => hl.labels_eq_labelsOfBody
  · rw [hdiagnostics]
    exact flatMap_eq_flatMap_bodies hlines fun _ _ hl => hl.diagnostics_eq_diagnosticsOfBody
  · rw [List.map_flatMap, List.filter_flatMap]
    exact flatMap_eq_flatMap_bodies hlines fun _ _ hl => hl.filter_sent_eq_sentOfBody

/-- Two sources with as many lines, and on each line the same text in front of the first semicolon,
have the same labels, the same diagnostics and, comments (4) left out, the same tokens. These texts
need not even end in the same number of carriage returns. Sources of at most 4294967293 bytes have
answers. -/
theorem analyze_of_sameCode {a b : String}
    (hcode : (Text.lines a.toList).map Text.code = (Text.lines b.toList).map Text.code) :
    (a.utf8ByteSize ≤ Text.byteLimit → b.utf8ByteSize ≤ Text.byteLimit →
      ∃ x y, analyze a = .ok x ∧ analyze b = .ok y) ∧
    ∀ x y, analyze a = .ok x → analyze b = .ok y →
      x.value.labels = y.value.labels ∧ x.value.diagnostics = y.value.diagnostics ∧
      ∃ sent sent', TokenStream.decode x.value.tokens = .ok sent ∧
        TokenStream.decode y.value.tokens = .ok sent' ∧
        sent.filter (·.category ≠ 4) = sent'.filter (·.category ≠ 4) := by
  constructor
  · intro ha hb
    obtain ⟨x, hx, -⟩ := analyze_eq (.of_utf8ByteSize ha)
    obtain ⟨y, hy, -⟩ := analyze_eq (.of_utf8ByteSize hb)
    exact ⟨x, y, hx, hy⟩
  · intro x y hx hy
    obtain ⟨bodies, hbodies, hlabels, hdiagnostics, sent, hdecode, hsent⟩ := analyze_eq_bodies hx
    obtain ⟨_, hsame, hlabels', hdiagnostics', sent', hdecode', hsent'⟩ := analyze_eq_bodies hy
    rw [← hcode, ← hbodies] at hsame
    subst hsame
    exact ⟨hlabels.trans hlabels'.symm, hdiagnostics.trans hdiagnostics'.symm, sent, sent', hdecode,
      hdecode', hsent.trans hsent'.symm⟩

/-- A comment with a colon, one on a line that it makes longer in bytes than in columns, between
carriage returns, and no comment. -/
theorem analyze_of_sameCode_mixed :
    (Text.lines "on: ;:\n\tmov x\r; é𝒳\r\r\nfoo bar baz;\n;".toList).map Text.code =
        (Text.lines "on: \n\tmov x\r\nfoo bar baz; foo:\n".toList).map Text.code ∧
      ∃ x y, analyze "on: ;:\n\tmov x\r; é𝒳\r\r\nfoo bar baz;\n;" = .ok x ∧
        analyze "on: \n\tmov x\r\nfoo bar baz; foo:\n" = .ok y ∧
        x.value.labels = y.value.labels ∧ x.value.diagnostics = y.value.diagnostics ∧
        ∃ sent sent', TokenStream.decode x.value.tokens = .ok sent ∧
          TokenStream.decode y.value.tokens = .ok sent' ∧
          sent.filter (·.category ≠ 4) = sent'.filter (·.category ≠ 4) := by
  have hcode : (Text.lines "on: ;:\n\tmov x\r; é𝒳\r\r\nfoo bar baz;\n;".toList).map Text.code =
      (Text.lines "on: \n\tmov x\r\nfoo bar baz; foo:\n".toList).map Text.code := by
    decide
  obtain ⟨htotal, hsame⟩ := analyze_of_sameCode hcode
  obtain ⟨x, y, hx, hy⟩ := htotal (by decide) (by decide)
  exact ⟨hcode, x, y, hx, hy, hsame x y hx hy⟩

end AsmLens
