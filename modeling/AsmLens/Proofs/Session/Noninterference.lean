import AsmLens.Proofs.Session.Agreement

/-!
What has no say in the tokens. Requests for diagnostics and for completions, and those that open and
end the session with whatever settings, may come at any time: they reach neither the texts nor the
results that are kept nor the count of the identifiers, which is all that the tokens depend on
(`Session.SameTokens`). A run without these requests has the same exchanges as before otherwise
(`Transcript.run_filter_bearsOnTokens`).
-/

namespace AsmLens

open Protocol

namespace Request

/-- Whether a request has a say in the tokens that are answered from then on. -/
def bearsOnTokens : Request → Bool
  | .openDocument _ _ => true
  | .changeDocument _ _ => true
  | .closeDocument _ => true
  | .tokens _ => true
  | .tokenChanges _ _ => true
  | .diagnostics _ => false
  | .completion => false
  | .resolve _ => false
  | .start _ => false
  | .started => false
  | .stop => false

/-- A request without a say in the tokens touches neither texts nor results. -/
theorem leaves_of_not_bears {request : Request} (h : request.bearsOnTokens = false) :
    request.tokensOf? = none ∧ (∀ uri held, request.textAfter uri held = held) ∧
      ∀ uri last, request.lastAfter uri last = last := by
  cases request with
  | openDocument uri text => cases h
  | changeDocument uri texts => cases h
  | closeDocument uri => cases h
  | tokens uri => cases h
  | tokenChanges uri previous => cases h
  | _ => exact ⟨rfl, fun _ _ => rfl, fun _ _ => rfl⟩

/-- The same request, readdressed to the result that it names anyway. -/
theorem readdressed_self (request : Request) : request.Readdressed Eq request := by
  cases request with
  | tokenChanges uri previous => exact .tokenChanges uri rfl
  | _ => exact .same rfl

end Request

namespace Session

variable {s s' t t' : Session} {request : Request} {answer answer' : Answer}
variable {outcome : SessionOutcome}

/-- Two sessions that will give the same tokens: they have the same texts, they keep the same
results, and they have given out as many identifiers. -/
structure SameTokens (s s' : Session) : Prop where
  agree : ∀ uri, AgreeOn Eq uri s s'
  results : s'.store.results = s.store.results

theorem sameTokens_empty : SameTokens {} {} := ⟨fun _ => ⟨rfl, .none⟩, rfl⟩

theorem matching_eq : Matching Eq Eq where
  data_eq := by
    rintro base base' rfl
    rfl
  named_iff := by
    rintro base base' previous previous' rfl rfl
    exact Iff.rfl

/-- A request that does not bear on tokens has no effect that would show in them. -/
theorem Step.sameTokens (h : Step s request t answer) (hbears : request.bearsOnTokens = false)
    (hs : SameTokens s s') : SameTokens t s' := by
  obtain ⟨htokens, htext, hlast⟩ := Request.leaves_of_not_bears hbears
  have hanswer := h.resultId?_eq_none htokens
  constructor
  · intro uri
    refine (hs.agree uri).of_leaves ?_ ?_
    · rw [h.find?_texts, htext]
    · rw [h.last_eq_lastAfter hanswer, hlast]
  · rw [hs.results, h.results_eq hanswer]

/-- Where a request is answered that asks for no tokens, the same is done to both sessions. -/
theorem SameTokens.step (hs : SameTokens s s') (h : Step s request t answer)
    (h' : Step s' request t' answer') (hanswer : answer.resultId? = none)
    (hanswer' : answer'.resultId? = none) : SameTokens t t' := by
  constructor
  · intro uri
    exact (hs.agree uri).step h h' hanswer hanswer'
  · rw [h.results_eq hanswer, h'.results_eq hanswer', hs.results]

theorem SameTokens.nextResult_eq (hs : SameTokens s s') (found : Analysis) :
    s.store.nextResult found = s'.store.nextResult found := by
  rw [Store.nextResult, Store.nextResult, hs.results]

theorem SameTokens.renewed (hs : SameTokens s s') (uri : String) (found : Analysis) :
    SameTokens { s with store := s.store.renewed uri found }
      { s' with store := s'.store.renewed uri found } := by
  constructor
  · intro name
    exact (hs.agree name).renewed uri (hs.nextResult_eq found)
  · exact congrArg (· + 1) hs.results

/-- The requests that give or take texts are not answered anything. -/
theorem exists_handle_of_bears (s : Session) (hbears : request.bearsOnTokens = true)
    (htokens : request.tokensOf? = none) :
    ∃ session, s.handle request = .ok { session, answer := .nothing } := by
  cases request with
  | openDocument uri text => exact ⟨_, rfl⟩
  | closeDocument uri => exact ⟨_, rfl⟩
  | changeDocument uri texts =>
      simp only [Session.handle, changeDocument]
      cases texts.getLast? with
      | none => exact ⟨_, rfl⟩
      | some text => exact ⟨_, rfl⟩
  | tokens uri => cases htokens
  | tokenChanges uri previous => cases htokens
  | _ => cases hbears

/-- The requests that bear on tokens are answered the same, identifiers included. -/
theorem SameTokens.handle (hs : SameTokens s s') (hbears : request.bearsOnTokens = true)
    (h : s.handle request = .ok outcome) :
    ∃ outcome', s'.handle request = .ok outcome' ∧ outcome'.answer = outcome.answer ∧
      SameTokens outcome.session outcome'.session := by
  cases htokens : request.tokensOf? with
  | none =>
      obtain ⟨t, ht⟩ := s.exists_handle_of_bears hbears htokens
      obtain ⟨t', ht'⟩ := s'.exists_handle_of_bears hbears htokens
      cases h.symm.trans ht
      exact ⟨_, ht', rfl, hs.step (step_of_handle ht) (step_of_handle ht') rfl rfl⟩
  | some uri =>
      obtain ⟨outcome', houtcome', hanswer, hsessions⟩ := (hs.agree uri).handle matching_eq
        request.readdressed_self htokens (Nat.le_of_eq hs.results) h
      refine ⟨outcome', houtcome', ?_⟩
      rcases hsessions with ⟨hsession, hsession', hid, hid'⟩ |
        ⟨found, hsession, hsession', hid, hid'⟩
      · rw [hsession, hsession']
        exact ⟨Answer.eq_of_withoutId hanswer.symm (hid'.trans hid.symm), hs⟩
      · rw [hsession, hsession']
        rw [← hs.nextResult_eq] at hid'
        exact ⟨Answer.eq_of_withoutId hanswer.symm (hid'.trans hid.symm), hs.renewed uri found⟩

end Session

namespace Transcript

/-- Without the requests that do not bear on tokens a run goes through as before, and the other
requests are answered as before. -/
theorem run_filter_bearsOnTokens {requests : List Request} {t : Transcript}
    (h : run requests = .ok t) :
    ∃ u, run (requests.filter Request.bearsOnTokens) = .ok u ∧
      u.exchanges = t.exchanges.filter (fun e => e.request.bearsOnTokens) ∧
      Session.SameTokens t.session u.session := by
  induction requests using List.reverseRecOn generalizing t with
  | nil =>
      cases h
      exact ⟨{}, rfl, rfl, Session.sameTokens_empty⟩
  | append_singleton past request ih =>
      obtain ⟨before, outcome, hbefore, houtcome, rfl⟩ := run_concat_eq_ok_iff.mp h
      obtain ⟨u, hu, hexchanges, hsame⟩ := ih hbefore
      rw [List.filter_append, List.filter_append]
      cases hbears : request.bearsOnTokens with
      | false =>
          refine ⟨u, ?_, ?_, (Session.step_of_handle houtcome).sameTokens hbears hsame⟩
          · rw [List.filter_cons_of_neg (by simp [hbears]), List.filter_nil, List.append_nil]
            exact hu
          · rw [List.filter_cons_of_neg (by simp [hbears]), List.filter_nil, List.append_nil]
            exact hexchanges
      | true =>
          obtain ⟨outcome', houtcome', hanswer, hsame'⟩ := hsame.handle hbears houtcome
          rw [List.filter_cons_of_pos hbears, List.filter_nil,
            List.filter_cons_of_pos (by simpa using hbears), List.filter_nil]
          refine ⟨_, run_concat_eq_ok_iff.mpr ⟨u, outcome', hu, houtcome', rfl⟩, ?_, hsame'⟩
          rw [hexchanges, hanswer]

end Transcript

/-- Two runs that come to the same requests when those for diagnostics and completions, and those
that open and end the session, are left out, have the same exchanges otherwise: every request for
tokens or for a change of them is answered the same in both, under the same identifier. The settings
with which the sessions are opened, well-formed or not, make no difference either. Runs whose texts
are not too large go through. -/
theorem tokens_noninterference {first second : List Request}
    (hsame : first.filter Request.bearsOnTokens = second.filter Request.bearsOnTokens) :
    ((∀ r ∈ first ++ second, r.Fits) → first.length ≤ Word.doubleLimit →
      second.length ≤ Word.doubleLimit →
      ∃ t u, Transcript.run first = .ok t ∧ Transcript.run second = .ok u) ∧
    ∀ t u, Transcript.run first = .ok t → Transcript.run second = .ok u →
      t.exchanges.filter (fun e => e.request.bearsOnTokens) =
        u.exchanges.filter (fun e => e.request.bearsOnTokens) := by
  constructor
  · intro hfit hfirst hsecond
    obtain ⟨t, ht⟩ := Transcript.exists_run
      (fun r hr => hfit r (List.mem_append_left second hr)) hfirst
    obtain ⟨u, hu⟩ := Transcript.exists_run
      (fun r hr => hfit r (List.mem_append_right first hr)) hsecond
    exact ⟨t, u, ht, hu⟩
  · intro t u ht hu
    obtain ⟨common, hcommon, hexchanges, -⟩ := Transcript.run_filter_bearsOnTokens ht
    obtain ⟨common', hcommon', hexchanges', -⟩ := Transcript.run_filter_bearsOnTokens hu
    rw [hsame, hcommon'] at hcommon
    cases hcommon
    rw [← hexchanges, ← hexchanges']

/-- An editor that pulls diagnostics in between, and one that has opened its session with settings
that are turned down and asks for completions. -/
theorem tokens_noninterference_pulled :
    ∃ t u,
      Transcript.run [.openDocument "a" "x:", .diagnostics "a", .tokens "a", .diagnostics "a",
        .tokenChanges "a" "1"] = .ok t ∧
      Transcript.run [.start (some (.string "")), .openDocument "a" "x:", .tokens "a", .completion,
        .tokenChanges "a" "1"] = .ok u ∧
      t.exchanges.filter (fun e => e.request.bearsOnTokens) =
        u.exchanges.filter (fun e => e.request.bearsOnTokens) := by
  have hfit : ∀ r ∈ ([.openDocument "a" "x:", .diagnostics "a", .tokens "a", .diagnostics "a",
      .tokenChanges "a" "1"] ++ [.start (some (.string "")), .openDocument "a" "x:", .tokens "a",
      .completion, .tokenChanges "a" "1"] : List Request), r.Fits := by decide
  have hsame : List.filter Request.bearsOnTokens [.openDocument "a" "x:", .diagnostics "a",
      .tokens "a", .diagnostics "a", .tokenChanges "a" "1"] =
      List.filter Request.bearsOnTokens [.start (some (.string "")), .openDocument "a" "x:",
        .tokens "a", .completion, .tokenChanges "a" "1"] := rfl
  obtain ⟨htotal, hequal⟩ := tokens_noninterference hsame
  obtain ⟨t, u, ht, hu⟩ := htotal hfit (by decide) (by decide)
  exact ⟨t, u, ht, hu, hequal t u ht hu⟩

end AsmLens
