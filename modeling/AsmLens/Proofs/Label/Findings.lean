import AsmLens.Proofs.Label.Verdict

/-!
The findings of the label pass, line by line. The pass records places in the document's token list
and settles them later; here each line keeps its own tokens and verdict (`JudgedLine`), and the
places turn out to address the heads of the lines that declare a label. So the names, the settled
tokens and the diagnostics of a document are those of its lines, one after another.
-/

namespace AsmLens

/-- A line of a document with what the label rule says of it. -/
structure JudgedLine where
  tokens : List Token
  verdict : LabelVerdict

namespace JudgedLine

/-- The verdict is the one of the rule. -/
def Sound (line : JudgedLine) : Prop := LabelRule (Statement.body line.tokens) line.verdict

/-- The tokens with the head of a declaration made a label. -/
def settled (line : JudgedLine) : List Token :=
  match line.verdict with
  | .declaration => line.tokens.modifyHead LabelFindings.declared
  | _ => line.tokens

def diagnostics (line : JudgedLine) : List Diagnostic :=
  match line.verdict with
  | .violation d => [d]
  | _ => []

/-- The name that the line declares, if it declares one. -/
def labels (line : JudgedLine) : List String :=
  match line.verdict with
  | .declaration => (line.tokens.head?.map Token.text).toList
  | _ => []

/-- The place of the line's head, where it declares a label. -/
def declarations (offset : Nat) (line : JudgedLine) : List Nat :=
  match line.verdict with
  | .declaration => [offset]
  | _ => []

/-- The places of the declared heads of lines, the first of which starts at an offset. -/
def places (offset : Nat) : List JudgedLine → List Nat
  | [] => []
  | line :: more => line.declarations offset ++ places (offset + line.tokens.length) more

theorem length_settled (line : JudgedLine) : line.settled.length = line.tokens.length := by
  unfold settled
  split
  · exact List.length_modifyHead
  · rfl

/-- What holds of a line's tokens, and of a token that is made a label, holds of the settled ones.
-/
theorem forall_mem_settled {P : Token → Prop} {line : JudgedLine}
    (hdeclared : ∀ t, P t → P (LabelFindings.declared t)) (h : ∀ t ∈ line.tokens, P t) :
    ∀ t ∈ line.settled, P t := by
  unfold settled
  split
  · generalize line.tokens = tokens at h
    cases tokens with
    | nil => exact h
    | cons head rest =>
        obtain ⟨hhead, hrest⟩ := List.forall_mem_cons.mp h
        exact List.forall_mem_cons.mpr ⟨hdeclared head hhead, hrest⟩
  · exact h

/-- What holds between a token and the later ones of its line holds of the settled ones. -/
theorem pairwise_settled {R : Token → Token → Prop} {line : JudgedLine}
    (hdeclared : ∀ a b, R a b → R (LabelFindings.declared a) b) (h : line.tokens.Pairwise R) :
    line.settled.Pairwise R := by
  unfold settled
  split
  · generalize line.tokens = tokens at h
    cases tokens with
    | nil => exact h
    | cons head rest =>
        obtain ⟨hhead, hrest⟩ := List.pairwise_cons.mp h
        exact List.pairwise_cons.mpr ⟨fun t ht => hdeclared head t (hhead t ht), hrest⟩
  · exact h

/-- A diagnostic of a line is the one that the rule asks for. -/
theorem Sound.labelRule_of_mem {line : JudgedLine} (h : line.Sound) {d : Diagnostic}
    (hd : d ∈ line.diagnostics) : LabelRule (Statement.body line.tokens) (.violation d) := by
  unfold diagnostics at hd
  split at hd
  · next d' hv =>
    obtain rfl := List.mem_singleton.mp hd
    rwa [Sound, hv] at h
  · cases hd

/-- A diagnostic on a line is on that line. -/
theorem Sound.line_of_mem_diagnostics {number : Nat} {line : JudgedLine} (h : line.Sound)
    (hline : ∀ t ∈ line.tokens, t.line = number) :
    ∀ d ∈ line.diagnostics, d.span.start.line = number := by
  intro d hd
  obtain ⟨t, ht, hstart⟩ := (h.labelRule_of_mem hd).start_of_violation
  rw [hstart]
  exact hline t ((Statement.body_prefix line.tokens).subset ht)

/-- A line has one diagnostic at most. -/
theorem pairwise_diagnostics (line : JudgedLine) {R : Diagnostic → Diagnostic → Prop} :
    line.diagnostics.Pairwise R := by
  unfold diagnostics
  split
  · exact List.pairwise_singleton _ _
  · exact List.Pairwise.nil

/-- A sound declaration is headed by a word of no vocabulary. -/
theorem head_of_declaration {line : JudgedLine} (h : line.Sound)
    (hv : line.verdict = .declaration) :
    ∃ head rest, line.tokens = head :: rest ∧ head.category = .unknown := by
  rw [Sound, hv] at h
  obtain ⟨head, rest, hbody, hhead⟩ := h.head_of_declaration
  obtain ⟨comment, hcomment⟩ := Statement.body_prefix line.tokens
  rw [hbody] at hcomment
  exact ⟨head, rest ++ comment, hcomment.symm, hhead⟩

end JudgedLine

namespace LabelFindings

open JudgedLine

/-- The pass over the statements of sound lines records their places and their diagnostics. -/
theorem foldlM_record {lines : List JudgedLine} (h : ∀ line ∈ lines, line.Sound)
    (number offset : Nat) (findings : LabelFindings) :
    ∃ result,
      (Statement.ofLines number offset (lines.map JudgedLine.tokens)).foldlM
          (fun findings i => return findings.record i (← i.labelVerdict)) findings =
        (.ok result : Checked LabelFindings) ∧
      result.declarations.toList = findings.declarations.toList ++ places offset lines ∧
      result.diagnostics.items.toList =
        findings.diagnostics.items.toList ++ lines.flatMap JudgedLine.diagnostics := by
  -- every line adds to what is recorded, so the findings at the start are general
  induction lines generalizing number offset findings with
  | nil => exact ⟨findings, rfl, (List.append_nil _).symm, (List.append_nil _).symm⟩
  | cons line more ih =>
      have hline : Statement.labelVerdict ⟨number, offset, Statement.body line.tokens⟩ =
          .ok line.verdict :=
        Statement.labelVerdict_eq_ok_iff.mpr (h line List.mem_cons_self)
      obtain ⟨result, hrun, hplaces, hdiagnostics⟩ :=
        ih (fun other hother => h other (List.mem_cons_of_mem line hother)) (number + 1)
          (offset + line.tokens.length)
          (findings.record ⟨number, offset, Statement.body line.tokens⟩ line.verdict)
      refine ⟨result, ?_, ?_, ?_⟩
      · simp only [List.map_cons, Statement.ofLines, List.foldlM_cons, hline, bind, Except.bind]
        exact hrun
      · rw [hplaces, places, ← List.append_assoc]
        congr 1
        cases hv : line.verdict <;> simp [record, JudgedLine.declarations, hv]
      · rw [hdiagnostics, List.flatMap_cons, ← List.append_assoc]
        congr 1
        cases hv : line.verdict <;> simp [record, JudgedLine.diagnostics, hv]

theorem tokenAt_of_append (before : List Token) (t : Token) (after : List Token) {i : Nat}
    (hi : i = before.length) : tokenAt (before ++ t :: after).toArray i = .ok t := by
  subst hi
  simp [tokenAt]

/-- The names at the recorded places are those of the lines. -/
theorem mapM_text_places {lines : List JudgedLine} (h : ∀ line ∈ lines, line.Sound)
    (before : List Token) (offset : Nat) (hoffset : offset = before.length) :
    (places offset lines).mapM (fun i =>
        return (← tokenAt (before ++ lines.flatMap JudgedLine.tokens).toArray i).text) =
      (.ok (lines.flatMap JudgedLine.labels) : Checked (List String)) := by
  induction lines generalizing before offset with
  | nil => rfl
  | cons line more ih =>
      have hmore := ih (fun other hother => h other (List.mem_cons_of_mem line hother))
        (before ++ line.tokens) (offset + line.tokens.length) (by simp [hoffset])
      rw [List.append_assoc] at hmore
      rw [places, List.flatMap_cons, List.flatMap_cons, List.mapM_append, hmore]
      cases hv : line.verdict with
      | notConcerned => simp [JudgedLine.declarations, JudgedLine.labels, hv]
      | violation d => simp [JudgedLine.declarations, JudgedLine.labels, hv]
      | declaration =>
          obtain ⟨head, rest, htokens, -⟩ := head_of_declaration (h line List.mem_cons_self) hv
          have hat := tokenAt_of_append before head (rest ++ more.flatMap JudgedLine.tokens) hoffset
          simp only [JudgedLine.declarations, JudgedLine.labels, hv, htokens, List.cons_append,
            List.mapM_cons, List.mapM_nil, hat, bind, Except.bind]
          rfl

/-- Settling the recorded places settles every line. -/
theorem foldlM_settleAt {lines : List JudgedLine} (h : ∀ line ∈ lines, line.Sound)
    (before : List Token) (offset : Nat) (hoffset : offset = before.length) :
    (places offset lines).foldlM settleAt (before ++ lines.flatMap JudgedLine.tokens).toArray =
      .ok (before ++ lines.flatMap JudgedLine.settled).toArray := by
  -- the lines in front are settled already, which has left them as long as they were
  induction lines generalizing before offset with
  | nil => rfl
  | cons line more ih =>
      have hmore := ih (fun other hother => h other (List.mem_cons_of_mem line hother))
        (before ++ line.settled) (offset + line.tokens.length)
        (by simp [hoffset, length_settled])
      rw [List.append_assoc, List.append_assoc] at hmore
      rw [places, List.flatMap_cons, List.flatMap_cons, List.foldlM_append, ← hmore]
      cases hv : line.verdict with
      | notConcerned => simp [JudgedLine.declarations, JudgedLine.settled, hv]
      | violation d => simp [JudgedLine.declarations, JudgedLine.settled, hv]
      | declaration =>
          obtain ⟨head, rest, htokens, hhead⟩ :=
            head_of_declaration (h line List.mem_cons_self) hv
          have hat := tokenAt_of_append before head (rest ++ more.flatMap JudgedLine.tokens) hoffset
          have hset : (before ++ head :: (rest ++ more.flatMap JudgedLine.tokens)).set offset
                (declared head) =
              before ++ declared head :: (rest ++ more.flatMap JudgedLine.tokens) := by
            rw [List.set_append_right _ _ (Nat.le_of_eq hoffset.symm), hoffset, Nat.sub_self]
            rfl
          have hstep :
              settleAt (before ++ head :: (rest ++ more.flatMap JudgedLine.tokens)).toArray offset =
                .ok (before ++ declared head ::
                  (rest ++ more.flatMap JudgedLine.tokens)).toArray := by
            simp only [settleAt, hat, bind, Except.bind, if_pos hhead, List.setIfInBounds_toArray,
              hset]
          simp only [JudgedLine.declarations, JudgedLine.settled, hv, htokens, List.cons_append,
            List.modifyHead_cons, List.foldlM_cons, List.foldlM_nil, hstep, bind, Except.bind]
          rfl

/-- The pass over the statements of sound lines finds the labels and the diagnostics of the lines,
and settles their tokens. -/
theorem ofStatements_ofLines {lines : List JudgedLine} (h : ∀ line ∈ lines, line.Sound) :
    ∃ findings,
      ofStatements (Statement.ofLines 0 0 (lines.map JudgedLine.tokens)) = .ok findings ∧
      findings.names (lines.flatMap JudgedLine.tokens) = .ok (lines.flatMap JudgedLine.labels) ∧
      findings.settle (lines.flatMap JudgedLine.tokens) =
        .ok (lines.flatMap JudgedLine.settled) ∧
      findings.diagnostics.items.toList = lines.flatMap JudgedLine.diagnostics := by
  obtain ⟨findings, hfindings, hplaces, hdiagnostics⟩ := foldlM_record h 0 0 {}
  refine ⟨findings, hfindings, ?_, ?_, hdiagnostics⟩
  · rw [names, hplaces]
    exact mapM_text_places h [] 0 rfl
  · rw [settle, hplaces]
    exact congrArg (Except.map Array.toList) (foldlM_settleAt h [] 0 rfl)

end LabelFindings

end AsmLens
