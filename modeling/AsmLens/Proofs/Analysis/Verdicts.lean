import AsmLens.Proofs.Analysis.Outcome
import Mathlib.Data.List.Basic

/-!
The label rule as an answer shows it. The tokens, the diagnostics and the labels of an analysis are
made apart from each other, and on every line they agree on one verdict (`lineReport_of_analyze`):
a line headed by a word of no vocabulary has a label or a diagnostic, and no other line has any.
-/

namespace AsmLens

/-! ## Reading an answer by lines -/

/-- The tokens of a line, its comment left out, among those of a document. -/
def bodyOn (tokens : List Token) (number : Nat) : List Token :=
  tokens.filter fun t => t.line = number && t.category ≠ .comment

/-- The diagnostics that start on a line. -/
def diagnosticsOn (diagnostics : List Diagnostic) (number : Nat) : List Diagnostic :=
  diagnostics.filter fun d => d.span.start.line = number

/-- The labels that are sent for a line. -/
def labelsOn (placed : List PlacedToken) (number : Nat) : List PlacedToken :=
  placed.filter fun p => p.line = number && p.category = 1

/-- Whether a word of no vocabulary heads the body. -/
def unknownHead (body : List Token) : Bool := body.head?.any (·.category = .unknown)

/-- Whether the body is a word of no vocabulary and the colon behind it. -/
def declaresLabel : List Token → Bool
  | [head, colon] => head.category = .unknown && colon.isColon
  | _ => false

/-- Whether the token heads a body that declares a label. -/
def headsLabel (body : List Token) (t : Token) : Bool := declaresLabel body && body.head? = some t

/-- What is sent for a token of a line with this body. -/
def sentFor (body : List Token) (t : Token) : PlacedToken :=
  if headsLabel body t then ⟨t.line, t.column, t.length, 1, 1⟩
  else ⟨t.line, t.column, t.length, t.category.index, 0⟩

theorem bodyOn_eq_filter_filter (tokens : List Token) (number : Nat) :
    bodyOn tokens number =
      (tokens.filter (·.line = number)).filter (·.category ≠ .comment) := by
  rw [List.filter_filter, bodyOn]
  congr 1
  funext t
  exact Bool.and_comm _ _

theorem labelsOn_eq_filter_filter (placed : List PlacedToken) (number : Nat) :
    labelsOn placed number = (placed.filter (·.line = number)).filter (·.category = 1) := by
  rw [List.filter_filter, labelsOn]
  congr 1
  funext p
  exact Bool.and_comm _ _

/-- The body of a line is found under its number, and beyond the last line there is nothing. -/
theorem bodyOn_flatten {blocks : List (List Token)} (h : Consecutive WholeLine 0 blocks)
    (number : Nat) :
    bodyOn blocks.flatten number = (blocks[number]?.map Statement.body).getD [] := by
  have hline : blocks.flatten.filter (fun t => t.line = number) = blocks[number]?.getD [] := by
    simpa using h.filter_flatMap (f := id) Token.line (fun _ _ hl => hl.onLine) number
  rw [bodyOn_eq_filter_filter, hline]
  cases hk : blocks[number]? with
  | none => rfl
  | some here => exact (Statement.body_eq_filter (h.of_getElem?_eq_some hk)).symm

/-- What is answered about a line: the labels that are sent for it and its diagnostics. -/
inductive LineReport : List Token → List PlacedToken → List Diagnostic → Prop
  /-- No word of no vocabulary heads the line. -/
  | nothing {body : List Token} (hhead : unknownHead body = false) : LineReport body [] []
  | declaration {head colon : Token} (hhead : head.category = .unknown) (hcolon : colon.isColon) :
      LineReport [head, colon] [⟨head.line, head.column, head.length, 1, 1⟩] []
  /-- Content after a label: all of it is pointed at. -/
  | excess {head second third : Token} {more : List Token} {d : Diagnostic} {last : Token}
      (hhead : head.category = .unknown) (hlast : (third :: more).getLast? = some last)
      (hcode : d.code.text = "E1002")
      (hspan : d.span = ⟨second.start, ⟨last.line, last.column + last.length⟩⟩) :
      LineReport (head :: second :: third :: more) [] [d]
  /-- No colon, though there may be something else in its place: the head is pointed at. -/
  | lack {head : Token} {rest : List Token} {d : Diagnostic} (hhead : head.category = .unknown)
      (hrest : rest = [] ∨ ∃ other, rest = [other] ∧ ¬ other.isColon)
      (hcode : d.code.text = "E1001")
      (hspan : d.span = ⟨head.start, ⟨head.line, head.column + head.length⟩⟩) :
      LineReport (head :: rest) [] [d]

/-- A line has one label or one diagnostic where a word of no vocabulary heads it. -/
theorem LineReport.length_add_length {body : List Token} {labels : List PlacedToken}
    {diagnostics : List Diagnostic} (h : LineReport body labels diagnostics) :
    labels.length + diagnostics.length = if unknownHead body then 1 else 0 := by
  cases h with
  | nothing hhead => simp [hhead]
  | declaration hhead _ => simp [unknownHead, hhead]
  | excess hhead _ _ _ => simp [unknownHead, hhead]
  | lack hhead _ _ _ => simp [unknownHead, hhead]

/-! ## Tokens of one line -/

/-- A token that has not been settled is sent as the lexer has left it. -/
theorem Lexer.Unsettled.placed_eq {number : Nat} {t : Token} (h : Unsettled number t) :
    t.placed = ⟨t.line, t.column, t.length, t.category.index, 0⟩ := by
  rw [Token.placed, h.unmodified]
  rfl

theorem Lexer.Unsettled.placed_declared {number : Nat} {t : Token} (h : Unsettled number t) :
    (LabelFindings.declared t).placed = ⟨t.line, t.column, t.length, 1, 1⟩ := by
  rw [LabelFindings.declared, h.unmodified]
  rfl

theorem Category.index_eq_one_iff {category : Category} :
    category.index = 1 ↔ category = .label := by
  cases category <;> simp [index]

/-- A token of the lexer is sent with the category of a label where it heads a declaration. -/
theorem category_sentFor_eq_one_iff {body : List Token} {number : Nat} {t : Token}
    (h : Lexer.Unsettled number t) : (sentFor body t).category = 1 ↔ headsLabel body t = true := by
  unfold sentFor
  split
  · next hheads => simp [hheads]
  · next hheads => simp [hheads, Category.index_eq_one_iff, h.unlabelled]

theorem modifiers_sentFor_ne_zero_iff {body : List Token} {t : Token} :
    (sentFor body t).modifiers ≠ 0 ↔ headsLabel body t = true := by
  unfold sentFor
  split
  · next hheads => simp [hheads]
  · next hheads => simp [hheads]

/-! ## The verdict on one line -/

/-- A body on which another verdict than a declaration is reached declares nothing. -/
theorem LabelRule.declaresLabel_eq_false {body : List Token} {verdict : LabelVerdict}
    (h : LabelRule body verdict) (hverdict : verdict ≠ .declaration) :
    declaresLabel body = false := by
  cases h with
  | blank => rfl
  | reserved hhead =>
      rename_i rest
      rcases rest with _ | ⟨second, _ | ⟨third, more⟩⟩
      · rfl
      · simp [declaresLabel, hhead]
      · rfl
  | declares _ _ => exact absurd rfl hverdict
  | alone _ _ => rfl
  | otherwise _ hsecond _ => simp [declaresLabel, hsecond]
  | trailing _ _ => rfl

/-- A verdict that is no declaration is reported by its diagnostic, if there is one. -/
theorem LabelRule.report {body : List Token} {line : JudgedLine} (h : LabelRule body line.verdict)
    (hverdict : line.verdict ≠ .declaration) : LineReport body [] line.diagnostics := by
  unfold JudgedLine.diagnostics
  generalize line.verdict = verdict at h hverdict
  cases h with
  | blank => exact .nothing rfl
  | reserved hhead => exact .nothing (by simp [unknownHead, hhead])
  | declares _ _ => exact absurd rfl hverdict
  | alone hhead hd =>
      obtain rfl := Diagnostic.eq_of_missingColon hd
      exact .lack hhead (Or.inl rfl) rfl rfl
  | otherwise hhead hsecond hd =>
      obtain rfl := Diagnostic.eq_of_missingColon hd
      exact .lack hhead (Or.inr ⟨_, rfl, hsecond⟩) rfl rfl
  | trailing hhead hd =>
      obtain rfl := Diagnostic.eq_of_contentAfterLabel hd
      exact .excess hhead (List.getLast?_eq_some_getLast _) rfl rfl

namespace JudgedLine

/-- A line that declares a label. Of its tokens only the first heads the declaration. -/
structure Declares (line : JudgedLine) (head colon : Token) (rest : List Token) : Prop where
  verdict : line.verdict = .declaration
  body : Statement.body line.tokens = [head, colon]
  tokens : line.tokens = head :: rest
  unknown : head.category = .unknown
  isColon : colon.isColon
  later : ∀ t ∈ rest, t.category ≠ .unknown

namespace Declares

variable {line : JudgedLine} {head colon : Token} {rest : List Token}
  (h : line.Declares head colon rest)

include h

theorem headsLabel_head : headsLabel (Statement.body line.tokens) head = true := by
  simp [h.body, headsLabel, declaresLabel, h.unknown, h.isColon]

theorem headsLabel_later :
    ∀ t ∈ rest, headsLabel (Statement.body line.tokens) t = false := by
  intro t ht
  have hother : head ≠ t := by
    rintro rfl
    exact h.later head ht h.unknown
  simp [h.body, headsLabel, hother]

theorem filter_headsLabel :
    line.tokens.filter (headsLabel (Statement.body line.tokens)) = [head] := by
  have hnone : rest.filter (headsLabel (Statement.body line.tokens)) = [] := by
    rw [List.filter_eq_nil_iff]
    intro t ht
    simp [h.headsLabel_later t ht]
  calc line.tokens.filter (headsLabel (Statement.body line.tokens))
      = (head :: rest).filter (headsLabel (Statement.body line.tokens)) := by rw [← h.tokens]
    _ = [head] := by rw [List.filter_cons_of_pos h.headsLabel_head, hnone]

end Declares

namespace Analyzed

variable {number : Nat} {line : JudgedLine} (h : line.Analyzed number)

include h

/-- A line declares a label, or no token of it heads a declaration. -/
theorem declares_or :
    (∃ head colon rest, line.Declares head colon rest) ∨
      line.verdict ≠ .declaration ∧
        ∀ t, headsLabel (Statement.body line.tokens) t = false := by
  have hsound : LabelRule (Statement.body line.tokens) line.verdict := h.sound
  by_cases hv : line.verdict = .declaration
  · left
    rw [hv] at hsound
    obtain ⟨comment, hcomment⟩ := Statement.body_prefix line.tokens
    have hfilter := Statement.body_eq_filter h.whole
    generalize hbody : Statement.body line.tokens = body at hsound hcomment hfilter
    cases hsound with
    | @declares head colon hhead hcolon =>
        refine ⟨head, colon, colon :: comment, hv, hbody, hcomment.symm, hhead, hcolon, ?_⟩
        have hoperator : colon.category = .operator := by
          simp only [Token.isColon, Bool.and_eq_true, decide_eq_true_eq] at hcolon
          exact hcolon.1
        -- behind the body there is nothing but a comment
        rw [← hcomment] at hfilter
        have hnone : comment.filter (·.category ≠ .comment) = [] := by
          simpa [hhead, hoperator] using hfilter
        intro t ht
        rcases List.mem_cons.mp ht with rfl | ht
        · simp [hoperator]
        · have hc : t.category = .comment := by
            simpa using List.filter_eq_nil_iff.mp hnone t ht
          simp [hc]
  · right
    refine ⟨hv, ?_⟩
    intro t
    simp [headsLabel, hsound.declaresLabel_eq_false hv]

/-- What is sent for the tokens of a line. -/
theorem map_placed_settled :
    line.settled.map Token.placed = line.tokens.map (sentFor (Statement.body line.tokens)) := by
  rcases h.declares_or with ⟨head, colon, rest, hd⟩ | ⟨hv, hnone⟩
  · have hhere : ∀ t ∈ head :: rest, Lexer.Unsettled number t := by
      rw [← hd.tokens]
      exact h.unsettled
    have hsettled : line.settled = LabelFindings.declared head :: rest := by
      rw [settled, hd.verdict]
      simp [hd.tokens]
    have hrest : rest.map Token.placed = rest.map (sentFor (Statement.body line.tokens)) := by
      apply List.map_congr_left
      intro t ht
      rw [(hhere t (List.mem_cons_of_mem head ht)).placed_eq]
      simp [sentFor, hd.headsLabel_later t ht]
    calc line.settled.map Token.placed
        = (LabelFindings.declared head).placed :: rest.map Token.placed := by
          rw [hsettled, List.map_cons]
      _ = (head :: rest).map (sentFor (Statement.body line.tokens)) := by
          rw [(hhere head List.mem_cons_self).placed_declared, hrest]
          simp [sentFor, hd.headsLabel_head]
      _ = line.tokens.map (sentFor (Statement.body line.tokens)) := by rw [← hd.tokens]
  · have hsettled : line.settled = line.tokens := by
      unfold settled
      split
      · next hd => exact absurd hd hv
      · rfl
    rw [hsettled]
    apply List.map_congr_left
    intro t ht
    rw [(h.unsettled t ht).placed_eq]
    simp [sentFor, hnone t]

/-- The names that a line declares are those of the tokens that head a declaration. -/
theorem labels_eq :
    line.labels =
      (line.tokens.filter (headsLabel (Statement.body line.tokens))).map Token.text := by
  rcases h.declares_or with ⟨head, colon, rest, hd⟩ | ⟨hv, hnone⟩
  · rw [hd.filter_headsLabel, labels, hd.verdict, hd.tokens]
    rfl
  · have hlabels : line.labels = [] := by
      unfold labels
      split
      · next hd => exact absurd hd hv
      · rfl
    rw [hlabels, List.filter_eq_nil_iff.mpr]
    · rfl
    · intro t _
      simp [hnone t]

/-- The labels among what is sent for a line. -/
theorem filter_placed_settled :
    (line.settled.map Token.placed).filter (·.category = 1) =
      (line.tokens.filter (headsLabel (Statement.body line.tokens))).map
        (sentFor (Statement.body line.tokens)) := by
  rw [h.map_placed_settled, List.filter_map]
  congr 1
  apply List.filter_congr
  intro t ht
  rw [Bool.eq_iff_iff]
  simpa using category_sentFor_eq_one_iff (h.unsettled t ht)

/-- What is answered about a line. -/
theorem report :
    LineReport (Statement.body line.tokens)
      ((line.settled.map Token.placed).filter (·.category = 1)) line.diagnostics := by
  have hsound : LabelRule (Statement.body line.tokens) line.verdict := h.sound
  rw [h.filter_placed_settled]
  rcases h.declares_or with ⟨head, colon, rest, hd⟩ | ⟨hv, hnone⟩
  · rw [hd.filter_headsLabel, List.map_singleton, sentFor, if_pos hd.headsLabel_head, hd.body,
      diagnostics, hd.verdict]
    exact .declaration hd.unknown hd.isColon
  · rw [List.filter_eq_nil_iff.mpr fun t _ => by simp [hnone t]]
    exact hsound.report hv

/-- A line yields one label or one diagnostic where a word of no vocabulary heads it. -/
theorem length_labels_add_length_diagnostics :
    line.labels.length + line.diagnostics.length =
      if unknownHead (Statement.body line.tokens) then 1 else 0 := by
  rw [← h.report.length_add_length, h.labels_eq, h.filter_placed_settled, List.length_map,
    List.length_map]

end Analyzed

end JudgedLine

/-! ## All lines of a document -/

namespace AnalyzedLines

variable {lines : List JudgedLine} (h : Consecutive JudgedLine.Analyzed 0 lines)

include h

theorem bodyOn_eq (number : Nat) :
    bodyOn (lines.flatMap JudgedLine.tokens) number =
      (lines[number]?.map fun line => Statement.body line.tokens).getD [] := by
  have hwhole : Consecutive WholeLine 0 (lines.map JudgedLine.tokens) :=
    h.map fun _ _ _ hl => hl.whole
  rw [List.flatMap_def, bodyOn_flatten hwhole, List.getElem?_map, Option.map_map]
  rfl

/-- The body around a token is that of its line. -/
theorem bodyOn_of_mem {line : JudgedLine} (hline : line ∈ lines) {t : Token}
    (ht : t ∈ line.tokens) :
    bodyOn (lines.flatMap JudgedLine.tokens) t.line = Statement.body line.tokens := by
  obtain ⟨number, hnumber⟩ := List.mem_iff_getElem?.mp hline
  have hon := (h.of_getElem?_eq_some hnumber).whole.onLine t ht
  rw [Nat.zero_add] at hon
  rw [bodyOn_eq h, hon, hnumber]
  rfl

theorem map_placed_settled :
    (lines.flatMap JudgedLine.settled).map Token.placed =
      (lines.flatMap JudgedLine.tokens).map fun t =>
        sentFor (bodyOn (lines.flatMap JudgedLine.tokens) t.line) t := by
  rw [List.map_flatMap, List.map_flatMap]
  apply List.flatMap_congr
  intro line hline
  obtain ⟨number, hnumber⟩ := List.mem_iff_getElem?.mp hline
  rw [(h.of_getElem?_eq_some hnumber).map_placed_settled]
  apply List.map_congr_left
  intro t ht
  rw [bodyOn_of_mem h hline ht]

theorem labels_eq :
    lines.flatMap JudgedLine.labels =
      ((lines.flatMap JudgedLine.tokens).filter fun t =>
        headsLabel (bodyOn (lines.flatMap JudgedLine.tokens) t.line) t).map Token.text := by
  rw [List.filter_flatMap, List.map_flatMap]
  apply List.flatMap_congr
  intro line hline
  obtain ⟨number, hnumber⟩ := List.mem_iff_getElem?.mp hline
  rw [(h.of_getElem?_eq_some hnumber).labels_eq]
  congr 1
  apply List.filter_congr
  intro t ht
  rw [bodyOn_of_mem h hline ht]

/-- What is answered about each line. -/
theorem report (number : Nat) :
    LineReport (bodyOn (lines.flatMap JudgedLine.tokens) number)
      (labelsOn ((lines.flatMap JudgedLine.settled).map Token.placed) number)
      (diagnosticsOn (lines.flatMap JudgedLine.diagnostics) number) := by
  have hlabels : ((lines.flatMap JudgedLine.settled).map Token.placed).filter
        (fun p => p.line = number) =
      (lines[number]?.map fun line => line.settled.map Token.placed).getD [] := by
    have hline : ∀ number (line : JudgedLine), line.Analyzed number →
        ∀ p ∈ line.settled.map Token.placed, p.line = number := by
      intro number line hl p hp
      obtain ⟨t, ht, rfl⟩ := List.mem_map.mp hp
      exact hl.line_of_mem_settled t ht
    rw [List.map_flatMap]
    simpa using h.filter_flatMap PlacedToken.line hline number
  have hdiagnostics : diagnosticsOn (lines.flatMap JudgedLine.diagnostics) number =
      (lines[number]?.map JudgedLine.diagnostics).getD [] := by
    simpa [diagnosticsOn] using h.filter_flatMap (fun d : Diagnostic => d.span.start.line)
      (fun _ _ hl => hl.line_of_mem_diagnostics) number
  rw [bodyOn_eq h, hdiagnostics, labelsOn_eq_filter_filter, hlabels]
  cases hk : lines[number]? with
  | none => exact .nothing rfl
  | some line => exact (h.of_getElem?_eq_some hk).report

/-- The bodies on the lines of a document, from the first line to the last. -/
theorem map_bodyOn_range :
    (List.range lines.length).map (bodyOn (lines.flatMap JudgedLine.tokens)) =
      lines.map fun line => Statement.body line.tokens := by
  apply List.ext_getElem?
  intro number
  rw [List.getElem?_map, List.getElem?_map]
  by_cases hnumber : number < lines.length
  · rw [List.getElem?_range hnumber, Option.map_some, bodyOn_eq h,
      List.getElem?_eq_getElem hnumber]
    rfl
  · rw [List.getElem?_eq_none (by simpa using hnumber),
      List.getElem?_eq_none (by simpa using hnumber)]
    rfl

end AnalyzedLines

/-- Lines yield as many labels and diagnostics as there are words of no vocabulary that head one. -/
theorem length_labels_add_length_diagnostics {number : Nat} {lines : List JudgedLine}
    (h : Consecutive JudgedLine.Analyzed number lines) :
    (lines.flatMap JudgedLine.labels).length + (lines.flatMap JudgedLine.diagnostics).length =
      (lines.map fun line => Statement.body line.tokens).countP unknownHead := by
  induction lines generalizing number with
  | nil => rfl
  | cons line more ih =>
      have hline := h.1.length_labels_add_length_diagnostics
      have hmore := ih h.2
      simp only [List.flatMap_cons, List.length_append, List.map_cons, List.countP_cons]
      omega

/-! ## The answer -/

/-- The three parts of an answer agree on every line of a source. A line headed by a word of no
vocabulary has one label or one diagnostic, and no other line has any (`LineReport`); the labels are
the heads of the lines that declare one, in the order of the lines; and what is sent for every token
is what the lexer has found, but for these heads. A source of at most 4294967293 bytes has an
answer. -/
theorem lineReport_of_analyze (source : String) :
    (source.utf8ByteSize ≤ Text.byteLimit → ∃ found, analyze source = .ok found) ∧
    ∀ found, analyze source = .ok found → ∃ scanned placed,
      Lexer.document source.toList = .ok scanned ∧
      TokenStream.decode found.value.tokens = .ok placed ∧
      (∀ number, LineReport (bodyOn scanned.tokens number) (labelsOn placed number)
        (diagnosticsOn found.value.diagnostics number)) ∧
      placed = scanned.tokens.map (fun t => sentFor (bodyOn scanned.tokens t.line) t) ∧
      (∀ t ∈ scanned.tokens,
        ((sentFor (bodyOn scanned.tokens t.line) t).category = 1 ↔
          headsLabel (bodyOn scanned.tokens t.line) t) ∧
        ((sentFor (bodyOn scanned.tokens t.line) t).modifiers ≠ 0 ↔
          headsLabel (bodyOn scanned.tokens t.line) t)) ∧
      found.value.labels =
        (scanned.tokens.filter fun t => headsLabel (bodyOn scanned.tokens t.line) t).map
          Token.text ∧
      found.value.labels.length + found.value.diagnostics.length =
        (List.range (Text.lineCount source.toList)).countP fun number =>
          unknownHead (bodyOn scanned.tokens number) := by
  constructor
  · intro hsize
    obtain ⟨found, hfound, -⟩ := analyze_eq (.of_utf8ByteSize hsize)
    exact ⟨found, hfound⟩
  · intro found hfound
    obtain ⟨scanned, lexed, hscanned, -, hcount, -, hlines, htokens, hlabels, hdiagnostics,
      hdecode⟩ := analyze_of_ok hfound
    have hunsettled : ∀ t ∈ scanned.tokens, Lexer.Unsettled t.line t := by
      intro t ht
      rw [htokens] at ht
      obtain ⟨line, hline, ht⟩ := List.mem_flatMap.mp ht
      obtain ⟨number, hnumber⟩ := List.mem_iff_getElem?.mp hline
      have hon := (hlines.of_getElem?_eq_some hnumber).unsettled t ht
      rwa [hon.onLine]
    refine ⟨scanned, _, hscanned, hdecode, ?_, ?_, ?_, ?_, ?_⟩
    · intro number
      rw [htokens, hdiagnostics]
      exact AnalyzedLines.report hlines number
    · rw [htokens]
      exact AnalyzedLines.map_placed_settled hlines
    · intro t ht
      exact ⟨category_sentFor_eq_one_iff (hunsettled t ht), modifiers_sentFor_ne_zero_iff⟩
    · rw [htokens, hlabels]
      exact AnalyzedLines.labels_eq hlines
    · have hbodies := AnalyzedLines.map_bodyOn_range hlines
      rw [List.length_map, hcount] at hbodies
      rw [hlabels, hdiagnostics, length_labels_add_length_diagnostics hlines, ← hbodies, htokens,
        List.countP_map]
      rfl

/-- A line that declares a label, and one that should. -/
example :
    (analyze "a:\nb").map (fun found => (found.value.tokens, found.value.labels,
        found.value.diagnostics.map fun d => (d.code, d.span))) =
      .ok ([0, 0, 1, 1, 1, 0, 1, 1, 7, 0, 1, 0, 1, 8, 0], ["a"],
        [(.missingColon, ⟨⟨1, 0⟩, ⟨1, 1⟩⟩)]) := by
  cbv

end AsmLens
