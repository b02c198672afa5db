import AsmLens.Proofs.Session.Run

/-!
Diagnostics are always those of the text at hand. They come from the slot that the last look at the
tokens has filled, or from an analysis on the spot, and the editor cannot tell which: a filled slot
holds the diagnostics of the text that is held (`Session.Fresh`), and no step gets around that. In a
report nothing of them is lost (`ReportItem.Reports`).
-/

namespace AsmLens

open Protocol

namespace Session

/-- Diagnostics that wait are those of the text that is held. -/
def Fresh (s : Session) : Prop :=
  ∀ uri diagnostics, (s.store.state uri).pending = some diagnostics →
    ∃ text found, s.texts.find? uri = some text ∧ analyze text = .ok found ∧
      found.value.diagnostics = diagnostics

variable {s s' : Session} {request : Request} {answer : Answer}

theorem fresh_empty : Fresh {} := by
  intro uri diagnostics h
  cases h

/-- The slot of a renewed document holds the diagnostics of its text, and the other slots stay. -/
theorem Fresh.renewed (hs : s.Fresh) {uri text : String} {found : Traced Analysis}
    (htext : s.texts.find? uri = some text) (hfound : analyze text = .ok found) :
    Fresh { s with store := s.store.renewed uri found.value } := by
  intro name diagnostics h
  rw [Store.state_renewed] at h
  split at h
  · next heq =>
    subst heq
    exact ⟨text, found, htext, hfound, Option.some.inj h⟩
  · exact hs name diagnostics h

/-- Where the text of a document changes its slot is empty, and no other document is touched. -/
theorem Fresh.of_others (hs : s.Fresh) (uri : String)
    (hown : (s'.store.state uri).pending = none)
    (hstate : ∀ name, uri ≠ name → s'.store.state name = s.store.state name)
    (htexts : ∀ name, uri ≠ name → s'.texts.find? name = s.texts.find? name) : s'.Fresh := by
  intro name diagnostics h
  by_cases heq : uri = name
  · subst heq
    rw [hown] at h
    cases h
  · rw [hstate name heq] at h
    rw [htexts name heq]
    exact hs name diagnostics h

/-- Every step leaves the slots as they should be. -/
theorem Step.fresh (h : Step s request s' answer) (hs : s.Fresh) : s'.Fresh := by
  cases h with
  | keeps htext hconfig hclosed hanswer => exact hs
  | configures hanswer => exact hs
  | gives hrequest hstale htext hfound => exact hs.renewed htext hfound
  | updates htext hfound hbase hedit => exact hs.renewed htext hfound
  -- where a text comes or goes, its slot is emptied
  | opens uri text =>
      apply hs.of_others uri
      · rw [Store.state_begin, if_pos rfl]
      · intro name hne
        rw [Store.state_begin, if_neg hne]
      · intro name hne
        rw [Table.find?_set, if_neg hne]
  | changes uri hlast =>
      apply hs.of_others uri
      · rw [Store.state_invalidate, if_pos rfl]
      · intro name hne
        rw [Store.state_invalidate, if_neg hne]
      · intro name hne
        rw [Table.find?_set, if_neg hne]
  | closes uri =>
      apply hs.of_others uri
      · rw [Store.state_close, if_pos rfl]
      · intro name hne
        rw [Store.state_close, if_neg hne]
      · intro name hne
        rw [Table.find?_erase, if_neg hne]
  | reports uri items =>
      apply hs.of_others uri
      · rw [Store.state_fetched, if_pos rfl]
      · intro name hne
        rw [Store.state_fetched, if_neg hne]
      · intro name _
        rfl

theorem fresh_run {requests : List Request} {t : Transcript}
    (h : Transcript.run requests = .ok t) : t.session.Fresh :=
  Transcript.run_induction (motive := fun _ t => t.session.Fresh) fresh_empty
    (fun _ _ _ _ _ ih hstep => hstep.fresh ih) h

/-- What is fetched for a document is what its text has, whether it was waiting or not. -/
theorem Fresh.fetchDiagnostics_eq (hs : s.Fresh) {uri text : String}
    (htext : s.texts.find? uri = some text) :
    (s.store.fetchDiagnostics uri text).map StoreOutcome.value =
      (analyze text).map fun found => found.value.diagnostics := by
  unfold Store.fetchDiagnostics
  cases hpending : (s.store.state uri).pending with
  | some diagnostics =>
      obtain ⟨held, found, hheld, hfound, rfl⟩ := hs uri diagnostics hpending
      rw [htext] at hheld
      cases hheld
      rw [hfound]
      rfl
  | none =>
      unfold analyzeDocument
      cases analyze text with
      | error fault => rfl
      | ok found => rfl

/-- The answer to a request for the diagnostics of an open document, after any run. -/
theorem Fresh.diagnostics_eq (hs : s.Fresh) {uri text : String}
    (htext : s.texts.find? uri = some text) :
    (s.handle (.diagnostics uri)).map SessionOutcome.answer =
      if s.config.labelDiagnostics then
        (analyze text).map fun found =>
          .report (found.value.diagnostics.map (ReportItem.ofDiagnostic uri))
      else .ok (.report []) := by
  have hopen := text?_eq_ok_iff.mpr htext
  by_cases hlabel : s.config.labelDiagnostics
  · -- the answer is made of what is fetched, wherever that comes from
    have hanswer : (s.diagnostics uri).map SessionOutcome.answer =
        ((s.store.fetchDiagnostics uri text).map StoreOutcome.value).map fun found =>
          .report (found.map (ReportItem.ofDiagnostic uri)) := by
      simp only [diagnostics, hopen, if_pos hlabel]
      cases s.store.fetchDiagnostics uri text with
      | error fault => rfl
      | ok out => rfl
    rw [handle, hanswer, hs.fetchDiagnostics_eq htext, if_pos hlabel]
    cases analyze text with
    | error fault => rfl
    | ok found => rfl
  · simp only [handle, diagnostics, hopen, if_neg hlabel]
    rfl

end Session

/-! ## What a report tells -/

namespace Protocol.ReportItem

/-- An item tells of a diagnostic of a document: where it is, that it is an error under its code and
of which source, and what its message is. What is related are its notes, if there are any, and each
points at the range of the diagnostic. -/
structure Reports (item : ReportItem) (uri : String) (d : Diagnostic) : Prop where
  range : item.range = d.span
  severity : item.severity = 1
  code : item.code = d.code.text
  source : item.source = "asm"
  message : item.message = d.message
  notes : (item.related.getD []).map RelatedNote.message = d.notes
  pointed : ∀ entry ∈ item.related.getD [], entry.uri = uri ∧ entry.range = d.span
  related_ne_some_nil : item.related ≠ some []

variable {item : ReportItem} {uri : String} {d other : Diagnostic}

theorem Reports.entries_eq (h : item.Reports uri d) :
    item.related.getD [] = d.notes.map fun note => ⟨uri, d.span, note⟩ := by
  rw [← h.notes, List.map_map]
  symm
  refine (List.map_congr_left fun entry hentry => ?_).trans (List.map_id _)
  obtain ⟨rfl, hrange⟩ := h.pointed entry hentry
  rw [Function.comp_apply, ← hrange, id_eq]

theorem reports_ofDiagnostic (uri : String) (d : Diagnostic) :
    (ofDiagnostic uri d).Reports uri d := by
  have hrelated : (ofDiagnostic uri d).related.getD [] =
      d.notes.map fun note => ⟨uri, d.span, note⟩ := by
    show (if d.notes.isEmpty then none else some _ : Option (List RelatedNote)).getD [] = _
    split
    · next hempty => rw [List.isEmpty_iff.mp hempty, List.map_nil, Option.getD_none]
    · rfl
  refine ⟨rfl, rfl, rfl, rfl, rfl, ?_, ?_, ?_⟩
  · rw [hrelated, List.map_map]
    exact List.map_id _
  · intro entry hentry
    rw [hrelated] at hentry
    obtain ⟨note, -, rfl⟩ := List.mem_map.mp hentry
    exact ⟨rfl, rfl⟩
  · intro hnil
    obtain ⟨hnotes, hmap⟩ := Option.ite_none_left_eq_some.mp hnil
    exact hnotes (List.isEmpty_iff.mpr (List.map_eq_nil_iff.mp (Option.some.inj hmap)))

/-- No other item tells of a diagnostic. -/
theorem reports_iff : item.Reports uri d ↔ item = ofDiagnostic uri d := by
  constructor
  · intro h
    have hown := reports_ofDiagnostic uri d
    have hrelated : item.related = (ofDiagnostic uri d).related := by
      have hentries := h.entries_eq.trans hown.entries_eq.symm
      have hitem := h.related_ne_some_nil
      have hsent := hown.related_ne_some_nil
      generalize (ofDiagnostic uri d).related = sent at hentries hsent ⊢
      generalize item.related = related at hentries hitem ⊢
      cases related <;> cases sent <;> simp_all
    obtain ⟨range, severity, code, source, message, related⟩ := item
    obtain ⟨rfl, rfl, rfl, rfl, rfl, -, -, -⟩ := h
    cases hrelated
    rfl
  · rintro rfl
    exact reports_ofDiagnostic uri d

/-- Nothing of a diagnostic is lost in the item that tells of it. -/
theorem Reports.unique (h : item.Reports uri d) (hother : item.Reports uri other) : d = other := by
  have hspan : d.span = other.span := h.range.symm.trans hother.range
  have hcode : d.code.text = other.code.text := h.code.symm.trans hother.code
  have hmessage : d.message = other.message := h.message.symm.trans hother.message
  have hnotes : d.notes = other.notes := h.notes.symm.trans hother.notes
  obtain ⟨code, _, _, _⟩ := d
  obtain ⟨otherCode, _, _, _⟩ := other
  cases code <;> cases otherCode <;> simp_all [ErrorCode.text]

end Protocol.ReportItem

/-- A report tells of the diagnostics of the text that is held, one by one, and of no others. -/
theorem Session.Fresh.reports {s : Session} (hs : s.Fresh) {uri text : String}
    (htext : s.texts.find? uri = some text) (hlabel : s.config.labelDiagnostics)
    {out : SessionOutcome} (hout : s.handle (.diagnostics uri) = .ok out) :
    ∃ found items, analyze text = .ok found ∧ out.answer = .report items ∧
      ∀ told, List.Forall₂ (fun item d => item.Reports uri d) items told ↔
        told = found.value.diagnostics := by
  have hanswer := hs.diagnostics_eq htext
  rw [hout, if_pos hlabel] at hanswer
  cases hfound : analyze text with
  | error fault =>
      rw [hfound] at hanswer
      cases hanswer
  | ok found =>
      rw [hfound] at hanswer
      refine ⟨found, _, rfl, Except.ok.inj hanswer, ?_⟩
      intro told
      rw [List.forall₂_map_left_iff]
      constructor
      · intro h
        symm
        rw [← List.forall₂_eq_eq_eq]
        exact h.imp fun d other hd => (ReportItem.reports_ofDiagnostic uri d).unique hd
      · rintro rfl
        exact List.forall₂_same.mpr fun d _ => ReportItem.reports_ofDiagnostic uri d

/-- A request for the diagnostics of an open document is answered with those of the text that it
has been given last, if the settings in force ask for diagnostics, and otherwise with none, after
any requests whatsoever. Requests whose texts are not too large do not break off, nor does the
analysis of the text. -/
theorem diagnostics_of_heldText {requests : List Request} {uri text : String}
    (htext : heldText uri requests = some text) :
    ((∀ request ∈ requests, request.Fits) → requests.length ≤ Word.doubleLimit →
      ∃ t found, Transcript.run requests = .ok t ∧ analyze text = .ok found) ∧
    ∀ t, Transcript.run requests = .ok t →
      (t.session.handle (.diagnostics uri)).map SessionOutcome.answer =
        if (installedConfig requests).labelDiagnostics then
          (analyze text).map fun found =>
            .report (found.value.diagnostics.map (ReportItem.ofDiagnostic uri))
        else .ok (.report []) := by
  constructor
  · intro hfit hlength
    obtain ⟨t, hrun⟩ := Transcript.exists_run hfit hlength
    obtain ⟨request, hmem, hnew⟩ := Transcript.exists_newText_of_heldText htext
    obtain ⟨found, hfound, -⟩ := analyze_eq (.of_utf8ByteSize (hfit request hmem text hnew))
    exact ⟨t, found, hrun, hfound⟩
  · intro t hrun
    rw [← Transcript.config_run hrun]
    rw [← Transcript.find?_texts_run hrun] at htext
    exact (Session.fresh_run hrun).diagnostics_eq htext

/-- The slot is filled for a text that is replaced before anyone asks. -/
theorem diagnostics_of_heldText_replaced :
    heldText "a" [.openDocument "a" "x:", .tokens "a", .changeDocument "a" ["", "x"]] = some "x" ∧
      ∃ t found,
        Transcript.run [.openDocument "a" "x:", .tokens "a", .changeDocument "a" ["", "x"]] =
          .ok t ∧
        analyze "x" = .ok found ∧
        (t.session.handle (.diagnostics "a")).map SessionOutcome.answer =
          .ok (.report (found.value.diagnostics.map (ReportItem.ofDiagnostic "a"))) := by
  have htext : heldText "a" [.openDocument "a" "x:", .tokens "a",
      .changeDocument "a" ["", "x"]] = some "x" := by decide
  obtain ⟨htotal, hanswer⟩ := diagnostics_of_heldText htext
  have hfit : ∀ request ∈ [.openDocument "a" "x:", .tokens "a", .changeDocument "a" ["", "x"]],
      Request.Fits request := by
    intro request hmem text htext
    simp only [List.mem_cons, List.not_mem_nil, or_false] at hmem
    rcases hmem with rfl | rfl | rfl <;> cases htext <;> decide
  obtain ⟨t, found, hrun, hfound⟩ := htotal hfit (by decide)
  refine ⟨htext, t, found, hrun, hfound, ?_⟩
  rw [hanswer t hrun, hfound]
  rfl

end AsmLens
