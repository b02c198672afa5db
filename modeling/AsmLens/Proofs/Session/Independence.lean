import Mathlib
import AsmLens.Proofs.Session.Agreement

/-!
Documents do not disturb each other. A run is reduced to one of its documents when the requests
about all others are left out (`Reduces`). The identifiers are then counted differently, since the
documents share the count; so a request for changes is readdressed to the result in the same place
among those of the document (`Renames`). Reduced runs go through, and their answers are those of the
full run but for the identifiers (`Reduces.exists_run`).
-/

namespace AsmLens

open Protocol

/-! ## Reduced runs -/

namespace Request

/-- Whether a request is about this document, or about none. -/
def concerns (uri : String) (request : Request) : Bool := request.document?.all (· = uri)

theorem document?_ne_of_not_concerns {uri : String} {request : Request}
    (h : request.concerns uri = false) : request.document? ≠ some uri := by
  intro heq
  simp [concerns, heq] at h

/-- The requests that concern a document ask for the tokens of no other. -/
theorem eq_of_concerns {uri name : String} {request : Request} (h : request.concerns uri = true)
    (hname : request.document? = some name) : name = uri := by
  simpa [concerns, hname] using h

/-- A request about a document leaves the settings alone. -/
theorem configAfter_of_not_concerns {uri : String} {request : Request}
    (h : request.concerns uri = false) (config : Config) :
    request.configAfter config = config := by
  cases request with
  | start options => cases h
  | _ => rfl

end Request

/-- The identifiers under which tokens of a document have been answered, in this order. -/
def idsOf (uri : String) (exchanges : List Exchange) : List String :=
  (exchanges.filter fun e => e.request.tokensOf? = some uri).filterMap fun e => e.answer.resultId?

/-- A request about another document gives out no identifier for this one. -/
theorem idsOf_concat_of_not_concerns {uri : String} {e : Exchange}
    (h : e.request.concerns uri = false) (past : List Exchange) :
    idsOf uri (past ++ [e]) = idsOf uri past := by
  have htokens : e.request.tokensOf? ≠ some uri := fun hsome =>
    Request.document?_ne_of_not_concerns h (Request.document?_of_tokensOf? hsome)
  simp [idsOf, htokens]

/-- Where a request concerns the document the identifier of the answer, if any, is the next. -/
theorem idsOf_concat_of_concerns {uri : String} {request : Request} {s t : Session}
    {answer : Answer} (h : request.concerns uri = true) (hstep : s.Step request t answer)
    (past : List Exchange) :
    idsOf uri (past ++ [⟨request, answer⟩]) = idsOf uri past ++ answer.resultId?.toList := by
  cases htokens : request.tokensOf? with
  | none => simp [idsOf, htokens, hstep.resultId?_eq_none htokens]
  | some name =>
      obtain rfl := Request.eq_of_concerns h (Request.document?_of_tokensOf? htokens)
      cases hid : answer.resultId? <;> simp [idsOf, htokens, hid]

/-- What an identifier becomes in a reduced run: that of the `j`-th result so far becomes the `j`-th
number, and anything else becomes anything but one of the numbers so far. -/
def Renames (ids : List String) (previous previous' : String) : Prop :=
  ∀ j < ids.length, ids[j]? = some previous ↔ previous' = Store.resultId (j + 1)

instance (ids : List String) (previous previous' : String) :
    Decidable (Renames ids previous previous') :=
  inferInstanceAs (Decidable (∀ j < ids.length, _))

/-- The requests of a run that is reduced to a document: those about other documents are left out,
and the requests for changes are readdressed. -/
inductive Reduces (uri : String) : List Exchange → List Request → Prop
  | nil : Reduces uri [] []
  | drop {past : List Exchange} {reduced : List Request} {e : Exchange}
      (h : Reduces uri past reduced) (hother : e.request.concerns uri = false) :
      Reduces uri (past ++ [e]) reduced
  | keep {past : List Exchange} {reduced : List Request} {e : Exchange} {request : Request}
      (h : Reduces uri past reduced) (hown : e.request.concerns uri = true)
      (hrequest : e.request.Readdressed (Renames (idsOf uri past)) request) :
      Reduces uri (past ++ [e]) (reduced ++ [request])

theorem Reduces.of_nil {uri : String} {reduced : List Request} (h : Reduces uri [] reduced) :
    reduced = [] := by
  generalize hall : ([] : List Exchange) = all at h
  cases h with
  | nil => rfl
  | drop h hother => simp at hall
  | keep h hown hrequest => simp at hall

theorem Reduces.of_concat {uri : String} {past : List Exchange} {e : Exchange}
    {reduced : List Request} (h : Reduces uri (past ++ [e]) reduced) :
    e.request.concerns uri = false ∧ Reduces uri past reduced ∨
      e.request.concerns uri = true ∧ ∃ before request, reduced = before ++ [request] ∧
        Reduces uri past before ∧ e.request.Readdressed (Renames (idsOf uri past)) request := by
  generalize hall : past ++ [e] = all at h
  cases h with
  | nil => simp at hall
  | drop h hother =>
      obtain ⟨rfl, rfl⟩ := List.append_singleton_inj.mp hall
      exact Or.inl ⟨hother, h⟩
  | keep h hown hrequest =>
      obtain ⟨rfl, rfl⟩ := List.append_singleton_inj.mp hall
      exact Or.inr ⟨hown, _, _, rfl, h, hrequest⟩

/-! ## Results in the same place -/

/-- The two results have the same tokens, and the second has the number of the first among the
results of the document. -/
structure SamePlace (ids : List String) (base base' : TokenResult) : Prop where
  data : base.data = base'.data
  place : ∃ j, ids[j]? = some base.resultId ∧ base'.resultId = Store.resultId (j + 1)

theorem SamePlace.append {ids : List String} {base base' : TokenResult}
    (h : SamePlace ids base base') (more : List String) : SamePlace (ids ++ more) base base' := by
  obtain ⟨j, hj, hnumber⟩ := h.place
  refine ⟨h.data, j, ?_, hnumber⟩
  obtain ⟨hlt, -⟩ := List.getElem?_eq_some_iff.mp hj
  rw [List.getElem?_append_left hlt, hj]

/-- The result that is given next is in the last place. -/
theorem samePlace_concat {ids : List String} {next next' : TokenResult}
    (hdata : next.data = next'.data)
    (hnumber : next'.resultId = Store.resultId (ids.length + 1)) :
    SamePlace (ids ++ [next.resultId]) next next' :=
  ⟨hdata, ids.length, List.getElem?_concat_length, hnumber⟩

theorem matching_samePlace (ids : List String) :
    Session.Matching (SamePlace ids) (Renames ids) where
  data_eq := SamePlace.data
  named_iff := by
    intro base base' previous previous' hplace hrenames
    obtain ⟨j, hj, hnumber⟩ := hplace.place
    obtain ⟨hlt, -⟩ := List.getElem?_eq_some_iff.mp hj
    have hiff := hrenames j hlt
    rw [hj, Option.some.injEq] at hiff
    rw [hiff, hnumber]
    exact eq_comm

namespace Session

variable {s s' t t' : Session} {request request' : Request} {answer answer' : Answer}
variable {uri : String} {ids : List String} {outcome : SessionOutcome}

/-- An answer without tokens is determined by the settings and by the text of the document. -/
theorem Fresh.handle_answer_eq (hs : s.Fresh) (hs' : s'.Fresh) (hconfig : s.config = s'.config)
    (htexts : ∀ uri, request.document? = some uri → s.texts.find? uri = s'.texts.find? uri)
    (htokens : request.tokensOf? = none) :
    (s.handle request).map SessionOutcome.answer =
      (s'.handle request).map SessionOutcome.answer := by
  cases request with
  | start options =>
      simp only [handle, start]
      cases Config.ofOptions options <;> rfl
  | changeDocument uri texts =>
      simp only [handle, changeDocument]
      cases texts.getLast? <;> rfl
  | diagnostics uri =>
      cases htext : s.texts.find? uri with
      | none =>
          have htext' := (htexts uri rfl).symm.trans htext
          rw [handle_diagnostics_of_closed (by simp [Table.contains, htext]),
            handle_diagnostics_of_closed (by simp [Table.contains, htext'])]
          rfl
      | some text =>
          have htext' := (htexts uri rfl).symm.trans htext
          rw [hs.diagnostics_eq htext, hs'.diagnostics_eq htext', hconfig]
  | tokens uri => cases htokens
  | tokenChanges uri previous => cases htokens
  | _ => rfl

/-- A session in the full run and one in the reduced run, after the same requests about a document:
`ids` are the identifiers that the full run has given out for it. -/
structure Alike (uri : String) (ids : List String) (s s' : Session) : Prop where
  agree : AgreeOn (SamePlace ids) uri s s'
  config : s.config = s'.config
  results : s'.store.results = ids.length
  length_le : ids.length ≤ s.store.results

theorem alike_empty (uri : String) : Alike uri [] {} {} :=
  ⟨⟨rfl, .none⟩, rfl, rfl, Nat.le_refl 0⟩

/-- Requests about other documents may come or not. -/
theorem Step.alike (h : Step s request t answer) (hother : request.concerns uri = false)
    (hs : Alike uri ids s s') : Alike uri ids t s' where
  agree := by
    obtain ⟨htext, hlast⟩ := h.leaves (Request.document?_ne_of_not_concerns hother)
    exact hs.agree.of_leaves htext hlast
  config := by rw [h.config_eq, Request.configAfter_of_not_concerns hother, hs.config]
  results := hs.results
  length_le := by
    rcases h.resultId?_cases with ⟨-, hresults⟩ | ⟨-, hresults⟩
    · exact hresults ▸ Nat.le_succ_of_le hs.length_le
    · exact hresults ▸ hs.length_le

/-- Both sessions have renewed the document, and the new results are in the same place. -/
theorem Alike.renewed (hs : Alike uri ids s s') (found : Analysis) :
    Alike uri (ids ++ [(s.store.nextResult found).resultId])
      { s with store := s.store.renewed uri found }
      { s' with store := s'.store.renewed uri found } where
  agree := by
    refine (hs.agree.mono fun base base' h => h.append _).renewed uri ?_
    refine samePlace_concat rfl ?_
    rw [Store.nextResult, hs.results]
  config := hs.config
  results := by
    rw [List.length_append]
    exact congrArg (· + 1) hs.results
  length_le := by
    rw [List.length_append]
    exact Nat.succ_le_succ hs.length_le

/-- Both sessions have answered a request that asks for no tokens. -/
theorem Alike.step (hs : Alike uri ids s s') (h : Step s request t answer)
    (h' : Step s' request t' answer') (hanswer : answer.resultId? = none)
    (hanswer' : answer'.resultId? = none) : Alike uri ids t t' where
  agree := hs.agree.step h h' hanswer hanswer'
  config := by rw [h.config_eq, h'.config_eq, hs.config]
  results := by rw [h'.results_eq hanswer', hs.results]
  length_le := by
    rw [h.results_eq hanswer]
    exact hs.length_le

/-- Requests that ask for no tokens get the same answers in both sessions. -/
theorem Alike.handle_of_tokensOf?_eq_none (hs : Alike uri ids s s') (hfresh : s.Fresh)
    (hfresh' : s'.Fresh) (hown : request.concerns uri = true) (htokens : request.tokensOf? = none)
    (h : s.handle request = .ok outcome) :
    ∃ outcome', s'.handle request = .ok outcome' ∧ outcome'.answer = outcome.answer ∧
      outcome.answer.resultId? = none ∧ Alike uri ids outcome.session outcome'.session := by
  have htexts : ∀ name, request.document? = some name →
      s.texts.find? name = s'.texts.find? name := by
    intro name hname
    rw [Request.eq_of_concerns hown hname]
    exact hs.agree.text
  have hanswers := hfresh.handle_answer_eq hfresh' hs.config htexts htokens
  rw [h] at hanswers
  obtain ⟨outcome', houtcome', hanswer⟩ := Checked.map_eq_ok_iff.mp hanswers.symm
  have hstep := step_of_handle h
  have hstep' := step_of_handle houtcome'
  have hid := hstep.resultId?_eq_none htokens
  have hid' := hstep'.resultId?_eq_none htokens
  exact ⟨outcome', houtcome', hanswer, hid, hs.step hstep hstep' hid hid'⟩

/-- Requests that concern the document get the same answers in both sessions up to identifiers; the
reduced run gives out the next number where the full run gives out an identifier. -/
theorem Alike.handle (hs : Alike uri ids s s') (hfresh : s.Fresh) (hfresh' : s'.Fresh)
    (hown : request.concerns uri = true) (hrequest : request.Readdressed (Renames ids) request')
    (h : s.handle request = .ok outcome) :
    ∃ outcome', s'.handle request' = .ok outcome' ∧
      outcome.answer.withoutId = outcome'.answer.withoutId ∧
      outcome'.answer.resultId? =
        outcome.answer.resultId?.map (fun _ => Store.resultId (ids.length + 1)) ∧
      Alike uri (ids ++ outcome.answer.resultId?.toList) outcome.session outcome'.session := by
  cases htokens : request.tokensOf? with
  | some name =>
      obtain rfl := Request.eq_of_concerns hown (Request.document?_of_tokensOf? htokens)
      have hresults : s'.store.results ≤ s.store.results := hs.results ▸ hs.length_le
      obtain ⟨outcome', houtcome', hanswer, hsessions⟩ :=
        hs.agree.handle (matching_samePlace ids) hrequest htokens hresults h
      refine ⟨outcome', houtcome', hanswer, ?_⟩
      rcases hsessions with ⟨hsession, hsession', hid, hid'⟩ |
        ⟨found, hsession, hsession', hid, hid'⟩
      · rw [hsession, hsession', hid, hid', Option.toList_none, List.append_nil]
        exact ⟨rfl, hs⟩
      · rw [hsession, hsession', hid, hid', Option.toList_some]
        refine ⟨?_, hs.renewed found⟩
        rw [Option.map_some, Store.nextResult, hs.results]
  | none =>
      cases hrequest with
      | tokenChanges name hprevious => cases htokens
      | same hnone =>
          obtain ⟨outcome', houtcome', hanswer, hid, halike⟩ :=
            hs.handle_of_tokensOf?_eq_none hfresh hfresh' hown htokens h
          rw [hid, Option.toList_none, List.append_nil]
          refine ⟨outcome', houtcome', ?_, ?_, halike⟩
          · rw [hanswer]
          · rw [hanswer, hid, Option.map_none]

end Session

/-! ## Runs -/

namespace Transcript

/-- The identifiers of a run, for all documents together, are the numbers from 1 on. -/
theorem resultIds_run {requests : List Request} {t : Transcript} (h : run requests = .ok t) :
    t.exchanges.filterMap (fun e => e.answer.resultId?) =
      Store.resultIds t.session.store.results := by
  refine run_induction (motive := fun _ t => t.exchanges.filterMap (fun e => e.answer.resultId?) =
    Store.resultIds t.session.store.results) rfl ?_ h
  intro past t request s answer ih hstep
  rw [List.filterMap_append, ih]
  rcases hstep.resultId?_cases with ⟨hid, hresults⟩ | ⟨hid, hresults⟩
  · simp [hid, hresults, Store.resultIds_succ]
  · simp [hid, hresults]

/-- No two results of a document have the same identifier. -/
theorem nodup_idsOf_run {requests : List Request} {t : Transcript} (h : run requests = .ok t)
    (uri : String) : (idsOf uri t.exchanges).Nodup := by
  have hall : (t.exchanges.filterMap fun e => e.answer.resultId?).Nodup := by
    rw [resultIds_run h]
    exact Store.nodup_resultIds _
  exact hall.sublist (List.filter_sublist.filterMap _)

end Transcript

/-- Every identifier has one that it can become; zero is the number of no result. -/
theorem exists_renames {ids : List String} (hnodup : ids.Nodup) (previous : String) :
    ∃ previous', Renames ids previous previous' := by
  by_cases hmem : previous ∈ ids
  · obtain ⟨k, hk, hprevious⟩ := List.getElem_of_mem hmem
    refine ⟨Store.resultId (k + 1), ?_⟩
    intro j hj
    rw [List.getElem?_eq_getElem hj, Option.some.injEq, ← hprevious, hnodup.getElem_inj_iff]
    constructor
    · rintro rfl
      rfl
    · intro hsame
      exact (Nat.succ.inj (Store.resultId_inj hsame)).symm
  · refine ⟨Store.resultId 0, ?_⟩
    intro j hj
    refine iff_of_false (fun hsome => hmem (List.mem_of_getElem? hsome)) ?_
    intro hsame
    cases Store.resultId_inj hsame

theorem exists_readdressed {ids : List String} (hnodup : ids.Nodup) (request : Request) :
    ∃ request', request.Readdressed (Renames ids) request' := by
  cases request with
  | tokenChanges uri previous =>
      obtain ⟨previous', hprevious⟩ := exists_renames hnodup previous
      exact ⟨_, .tokenChanges uri hprevious⟩
  | _ => exact ⟨_, .same rfl⟩

/-- Every run can be reduced to each of its documents. -/
theorem exists_reduces {requests : List Request} {t : Transcript}
    (h : Transcript.run requests = .ok t) (uri : String) :
    ∃ reduced, Reduces uri t.exchanges reduced := by
  induction requests using List.reverseRecOn generalizing t with
  | nil =>
      cases h
      exact ⟨[], .nil⟩
  | append_singleton past request ih =>
      obtain ⟨before, outcome, hbefore, -, rfl⟩ := Transcript.run_concat_eq_ok_iff.mp h
      obtain ⟨reduced, hreduced⟩ := ih hbefore
      cases hown : request.concerns uri with
      | false => exact ⟨reduced, hreduced.drop hown⟩
      | true =>
          obtain ⟨request', hrequest⟩ :=
            exists_readdressed (Transcript.nodup_idsOf_run hbefore uri) request
          exact ⟨reduced ++ [request'], hreduced.keep hown hrequest⟩

/-- A reduced run goes through. The sessions are alike after it, the answers that concern the
document are the same up to identifiers, and the identifiers of the document are numbered from 1
on. -/
theorem Reduces.exists_run {uri : String} {requests reduced : List Request} {t : Transcript}
    (hrun : Transcript.run requests = .ok t) (h : Reduces uri t.exchanges reduced) :
    ∃ u, Transcript.run reduced = .ok u ∧
      Session.Alike uri (idsOf uri t.exchanges) t.session u.session ∧
      (t.exchanges.filter fun e => e.request.concerns uri).map (fun e => e.answer.withoutId) =
        u.exchanges.map (fun e => e.answer.withoutId) ∧
      idsOf uri u.exchanges = Store.resultIds (idsOf uri t.exchanges).length := by
  induction requests using List.reverseRecOn generalizing t reduced with
  | nil =>
      cases hrun
      obtain rfl := h.of_nil
      exact ⟨{}, rfl, Session.alike_empty uri, rfl, rfl⟩
  | append_singleton past request ih =>
      obtain ⟨before, outcome, hbefore, houtcome, rfl⟩ := Transcript.run_concat_eq_ok_iff.mp hrun
      rcases h.of_concat with ⟨hother, h⟩ | ⟨hown, earlier, request', rfl, h, hrequest⟩
      · obtain ⟨u, hu, halike, hanswers, hids⟩ := ih hbefore h
        rw [idsOf_concat_of_not_concerns hother]
        refine ⟨u, hu, (Session.step_of_handle houtcome).alike hother halike, ?_, hids⟩
        simpa [hother] using hanswers
      · obtain ⟨u, hu, halike, hanswers, hids⟩ := ih hbefore h
        obtain ⟨outcome', houtcome', hanswer, hid, halike'⟩ := halike.handle
          (Session.fresh_run hbefore) (Session.fresh_run hu) hown hrequest houtcome
        have hown' : request'.concerns uri = true := by
          rw [Request.concerns, hrequest.document?_eq]
          exact hown
        rw [idsOf_concat_of_concerns hown (Session.step_of_handle houtcome)]
        refine ⟨_, Transcript.run_concat_eq_ok_iff.mpr ⟨u, outcome', hu, houtcome', rfl⟩, halike',
          ?_, ?_⟩
        · simpa [hown, hanswer] using hanswers
        · rw [idsOf_concat_of_concerns hown' (Session.step_of_handle houtcome'), hids, hid]
          cases outcome.answer.resultId? with
          | none => simp
          | some resultId => simp [Store.resultIds_succ]

/-- The documents of a session are independent. Take any run and any document, leave out the
requests about other documents, and readdress the requests for changes: where one names the `j`-th
result that has been given for the document, let it name the `j`-th result that is given in the
reduced run, and otherwise none that has been given by then. The reduced run goes through, and every
answer that concerns the document is that of the full run but for the identifiers, and comes under
one where that does. The identifiers of the document are the numbers from 1 on then. Every run can
be reduced in this way, and runs whose texts are not too large go through. -/
theorem documents_independent (requests : List Request) (uri : String) :
    ((∀ r ∈ requests, r.Fits) → requests.length ≤ Word.doubleLimit →
      ∃ t, Transcript.run requests = .ok t) ∧
    ∀ t, Transcript.run requests = .ok t →
      (∃ reduced, Reduces uri t.exchanges reduced) ∧
      ∀ reduced, Reduces uri t.exchanges reduced → ∃ u, Transcript.run reduced = .ok u ∧
        (t.exchanges.filter fun e => e.request.concerns uri).map (fun e => e.answer.withoutId) =
          u.exchanges.map (fun e => e.answer.withoutId) ∧
        idsOf uri u.exchanges = Store.resultIds (idsOf uri t.exchanges).length := by
  refine ⟨Transcript.exists_run, ?_⟩
  intro t hrun
  refine ⟨exists_reduces hrun uri, ?_⟩
  intro reduced hreduced
  obtain ⟨u, hu, -, hanswers, hids⟩ := hreduced.exists_run hrun
  exact ⟨u, hu, hanswers, hids⟩

/-- A second document takes up the first identifier, which the editor then names for the wrong
document. In the reduced run it names one that has not been given. -/
theorem documents_independent_interleaved :
    ∃ t u,
      Transcript.run [.openDocument "a" "1", .openDocument "b" "2", .tokens "b", .tokens "a",
        .tokenChanges "a" "2", .tokenChanges "a" "1"] = .ok t ∧
      Transcript.run [.openDocument "a" "1", .tokens "a", .tokenChanges "a" "1",
        .tokenChanges "a" "0"] = .ok u ∧
      (t.exchanges.filter fun e => e.request.concerns "a").map (fun e => e.answer.withoutId) =
        u.exchanges.map (fun e => e.answer.withoutId) ∧
      idsOf "a" t.exchanges = ["2", "3", "4"] ∧ idsOf "a" u.exchanges = ["1", "2", "3"] := by
  have hexchanges : (Transcript.run [.openDocument "a" "1", .openDocument "b" "2", .tokens "b",
      .tokens "a", .tokenChanges "a" "2", .tokenChanges "a" "1"]).map Transcript.exchanges =
      .ok [⟨.openDocument "a" "1", .nothing⟩, ⟨.openDocument "b" "2", .nothing⟩,
        ⟨.tokens "b", .tokens ⟨some "1", [⟨0, 0, 1, 3, 0⟩]⟩⟩,
        ⟨.tokens "a", .tokens ⟨some "2", [⟨0, 0, 1, 3, 0⟩]⟩⟩,
        ⟨.tokenChanges "a" "2", .update ⟨"3", []⟩⟩,
        ⟨.tokenChanges "a" "1", .tokens ⟨some "4", [⟨0, 0, 1, 3, 0⟩]⟩⟩] := by
    cbv
  obtain ⟨t, hrun, ht⟩ := Checked.map_eq_ok_iff.mp hexchanges
  -- the editor names the result of the document first, and then that of the other document
  have hreduces : Reduces "a" t.exchanges [.openDocument "a" "1", .tokens "a",
      .tokenChanges "a" "1", .tokenChanges "a" "0"] := by
    rw [ht]
    have hopened : Reduces "a" [⟨.openDocument "a" "1", .nothing⟩] [.openDocument "a" "1"] :=
      Reduces.nil.keep rfl (.same rfl)
    have hother := (hopened.drop (e := ⟨.openDocument "b" "2", .nothing⟩) rfl).drop
      (e := ⟨.tokens "b", .tokens ⟨some "1", [⟨0, 0, 1, 3, 0⟩]⟩⟩) rfl
    have hgiven := hother.keep (e := ⟨.tokens "a", .tokens ⟨some "2", [⟨0, 0, 1, 3, 0⟩]⟩⟩) rfl
      (.same rfl)
    have hfirst : Renames ["2"] "2" "1" := by decide
    have hnamed := hgiven.keep (e := ⟨.tokenChanges "a" "2", .update ⟨"3", []⟩⟩) rfl
      (.tokenChanges "a" hfirst)
    have hstray : Renames ["2", "3"] "1" "0" := by decide
    exact hnamed.keep rfl (.tokenChanges "a" hstray)
  obtain ⟨u, hu, hanswers, hids⟩ := ((documents_independent _ "a").2 t hrun).2 _ hreduces
  have hfull : idsOf "a" t.exchanges = ["2", "3", "4"] := by
    rw [ht]
    rfl
  refine ⟨t, u, hrun, hu, hanswers, hfull, ?_⟩
  rw [hids, hfull]
  rfl

end AsmLens
