import AsmLens.Proofs.Analysis.Outcome
import AsmLens.Proofs.Session.Step
import Mathlib.Data.List.Induction

/-!
Runs of a session: any requests, one after another, from a session that has just begun. What holds
at the beginning and is kept by every step holds after every run (`Transcript.run_induction`), and a
run of requests whose texts are not too large goes through (`Transcript.exists_run`).
-/

namespace AsmLens

/-- A request and its answer. -/
structure Exchange where
  request : Request
  answer : Answer

/-- A session on its way, with all that has been asked and answered so far. -/
structure Transcript where
  session : Session := {}
  exchanges : List Exchange := []

/-- The text that a document has after requests, if it is open then. -/
def heldText (uri : String) (requests : List Request) : Option String :=
  requests.foldl (fun held request => request.textAfter uri held) none

theorem heldText_concat (uri : String) (past : List Request) (request : Request) :
    heldText uri (past ++ [request]) = request.textAfter uri (heldText uri past) := by
  rw [heldText, List.foldl_append]
  rfl

/-- The settings in force after requests. -/
def installedConfig (requests : List Request) : Config :=
  requests.foldl Request.configAfter {}

/-- Requests that do not open a session leave its settings alone. -/
theorem foldl_configAfter {requests : List Request}
    (h : ∀ request ∈ requests, ∀ options, request ≠ .start options) (config : Config) :
    requests.foldl Request.configAfter config = config := by
  induction requests with
  | nil => rfl
  | cons request more ih =>
      obtain ⟨hrequest, hmore⟩ := List.forall_mem_cons.mp h
      have hkept : request.configAfter config = config := by
        cases request with
        | start options => exact absurd rfl (hrequest options)
        | _ => rfl
      rw [List.foldl_cons, hkept, ih hmore]

/-- No request brings a text that is too large to be analyzed. -/
def Request.Fits (request : Request) : Prop :=
  ∀ text, request.newText? = some text → text.utf8ByteSize ≤ Text.byteLimit

instance : DecidablePred Request.Fits := fun request =>
  inferInstanceAs (Decidable (∀ text ∈ request.newText?, text.utf8ByteSize ≤ Text.byteLimit))

namespace Transcript

/-- The transcript after one more request. -/
def next (t : Transcript) (request : Request) : Checked Transcript := do
  let outcome ← t.session.handle request
  return ⟨outcome.session, t.exchanges ++ [⟨request, outcome.answer⟩]⟩

/-- The transcript of a run of requests. -/
def run (requests : List Request) : Checked Transcript := requests.foldlM next {}

theorem run_concat (past : List Request) (request : Request) :
    run (past ++ [request]) = run past >>= fun t => t.next request :=
  Checked.foldlM_concat ..

theorem run_concat_eq_ok_iff {past : List Request} {request : Request} {t : Transcript} :
    run (past ++ [request]) = .ok t ↔
      ∃ before outcome, run past = .ok before ∧ before.session.handle request = .ok outcome ∧
        t = ⟨outcome.session, before.exchanges ++ [⟨request, outcome.answer⟩]⟩ := by
  rw [run, Checked.foldlM_concat_eq_ok_iff]
  constructor
  · rintro ⟨before, hbefore, hnext⟩
    obtain ⟨outcome, houtcome, ht⟩ := Checked.bind_eq_ok_iff.mp hnext
    exact ⟨before, outcome, hbefore, houtcome, (Except.ok.inj ht).symm⟩
  · rintro ⟨before, outcome, hbefore, houtcome, rfl⟩
    exact ⟨before, hbefore, Checked.bind_eq_ok_iff.mpr ⟨outcome, houtcome, rfl⟩⟩

/-- What holds at the beginning and is kept by every step holds after every run. -/
theorem run_induction {motive : List Request → Transcript → Prop} (start : motive [] {})
    (step : ∀ past t request s answer, motive past t → Session.Step t.session request s answer →
      motive (past ++ [request]) ⟨s, t.exchanges ++ [⟨request, answer⟩]⟩)
    {requests : List Request} {t : Transcript} (h : run requests = .ok t) : motive requests t := by
  induction requests using List.reverseRecOn generalizing t with
  | nil =>
      cases h
      exact start
  | append_singleton past request ih =>
      obtain ⟨before, outcome, hbefore, houtcome, rfl⟩ := run_concat_eq_ok_iff.mp h
      exact step past before request _ _ (ih hbefore) (Session.step_of_handle houtcome)

/-! ## What the requests so far determine -/

theorem find?_texts_run {requests : List Request} {t : Transcript} (h : run requests = .ok t)
    (uri : String) : t.session.texts.find? uri = heldText uri requests := by
  refine run_induction (motive := fun past t => t.session.texts.find? uri = heldText uri past)
    rfl ?_ h
  intro past t request s answer ih hstep
  rw [hstep.find?_texts, ih, heldText_concat]

theorem config_run {requests : List Request} {t : Transcript} (h : run requests = .ok t) :
    t.session.config = installedConfig requests := by
  refine run_induction (motive := fun past t => t.session.config = installedConfig past) rfl ?_ h
  intro past t request s answer ih hstep
  rw [hstep.config_eq, ih, installedConfig, installedConfig, List.foldl_append]
  rfl

theorem results_run_le {requests : List Request} {t : Transcript} (h : run requests = .ok t) :
    t.session.store.results ≤ requests.length := by
  refine run_induction (motive := fun past t => t.session.store.results ≤ past.length)
    (Nat.le_refl 0) ?_ h
  intro past t request s answer ih hstep
  rw [List.length_append]
  exact Nat.le_trans hstep.results_le (Nat.succ_le_succ ih)

/-- A text that is held has come with a request. -/
theorem exists_newText_of_heldText {uri text : String} {requests : List Request}
    (h : heldText uri requests = some text) :
    ∃ request ∈ requests, request.newText? = some text := by
  induction requests using List.reverseRecOn with
  | nil => cases h
  | append_singleton past request ih =>
      rw [heldText_concat] at h
      rcases Request.of_textAfter_eq_some h with h | h
      · obtain ⟨earlier, hmem, hnew⟩ := ih h
        exact ⟨earlier, List.mem_append_left _ hmem, hnew⟩
      · exact ⟨request, List.mem_append_right _ List.mem_cons_self, h⟩

end Transcript

/-! ## Runs go through -/

namespace Session

variable {s : Session}

/-- Whoever asks for the tokens of an open document is answered, if its text can be analyzed and an
identifier is left. -/
theorem handle_tokensOf?_total {request : Request} {uri text : String} {found : Traced Analysis}
    (hrequest : request.tokensOf? = some uri) (htext : s.texts.find? uri = some text)
    (hfound : analyze text = .ok found) (hroom : s.store.results < Word.doubleLimit) :
    ∃ outcome, s.handle request = .ok outcome := by
  have hopen := text?_eq_ok_iff.mpr htext
  cases request with
  | tokens name =>
      cases hrequest
      obtain ⟨out, hout⟩ := Store.allTokens_total uri hfound hroom
      obtain ⟨_, hfound', -, -, hvalue⟩ := Store.allTokens_of_ok hout
      cases hfound.symm.trans hfound'
      -- the tokens are decoded once more, for the log
      obtain ⟨placed, hplaced⟩ := exists_decode_of_ok hfound
      have hsent : TokenStream.decode out.value.data = .ok placed := by
        rw [hvalue]
        exact hplaced
      simp only [handle, tokens, hopen, hout, hsent, bind, Except.bind]
      exact ⟨_, rfl⟩
  | tokenChanges name previous =>
      cases hrequest
      obtain ⟨out, hout⟩ := Store.tokensSince_total uri previous hfound hroom
      simp only [handle, tokenChanges, hopen, hout, bind, Except.bind]
      exact ⟨_, rfl⟩
  | _ => cases hrequest

/-- A session answers every request while its texts can be analyzed and identifiers are left. -/
theorem handle_total
    (htexts : ∀ uri text, s.texts.find? uri = some text → Text.FitsWords text.toList)
    (hroom : s.store.results < Word.doubleLimit) (request : Request) :
    ∃ outcome, s.handle request = .ok outcome := by
  have hanalysis : ∀ uri text, s.text? uri = .ok text → ∃ found, analyze text = .ok found := by
    intro uri text htext
    obtain ⟨found, hfound, -⟩ := analyze_eq (htexts uri text (text?_eq_ok_iff.mp htext))
    exact ⟨found, hfound⟩
  cases request with
  | tokens uri =>
      cases htext : s.text? uri with
      | error error =>
          simp only [handle, tokens, htext]
          exact ⟨_, rfl⟩
      | ok text =>
          obtain ⟨found, hfound⟩ := hanalysis uri text htext
          exact handle_tokensOf?_total rfl (text?_eq_ok_iff.mp htext) hfound hroom
  | tokenChanges uri previous =>
      cases htext : s.text? uri with
      | error error =>
          simp only [handle, tokenChanges, htext]
          exact ⟨_, rfl⟩
      | ok text =>
          obtain ⟨found, hfound⟩ := hanalysis uri text htext
          exact handle_tokensOf?_total rfl (text?_eq_ok_iff.mp htext) hfound hroom
  | diagnostics uri =>
      simp only [handle, diagnostics]
      cases htext : s.text? uri with
      | error error => exact ⟨_, rfl⟩
      | ok text =>
          obtain ⟨found, hfound⟩ := hanalysis uri text htext
          obtain ⟨out, hout⟩ := s.store.fetchDiagnostics_total uri hfound
          simp only [hout, bind, Except.bind]
          split
          · exact ⟨_, rfl⟩
          · exact ⟨_, rfl⟩
  | start options => exact ⟨_, rfl⟩
  | started => exact ⟨_, rfl⟩
  | stop => exact ⟨_, rfl⟩
  | openDocument uri text => exact ⟨_, rfl⟩
  | changeDocument uri texts => exact ⟨_, rfl⟩
  | closeDocument uri => exact ⟨_, rfl⟩
  | completion => exact ⟨_, rfl⟩
  | resolve item => exact ⟨_, rfl⟩

end Session

/-- A run goes through whose texts can be analyzed and whose requests identifiers can number. -/
theorem Transcript.exists_run {requests : List Request} (hfit : ∀ request ∈ requests, request.Fits)
    (hlength : requests.length ≤ Word.doubleLimit) : ∃ t, run requests = .ok t := by
  induction requests using List.reverseRecOn with
  | nil => exact ⟨_, rfl⟩
  | append_singleton past request ih =>
      rw [List.length_append] at hlength
      have hpast : ∀ earlier ∈ past, earlier.Fits :=
        fun earlier hmem => hfit earlier (List.mem_append_left _ hmem)
      obtain ⟨before, hbefore⟩ := ih hpast (Nat.le_of_succ_le hlength)
      have htexts : ∀ uri text, before.session.texts.find? uri = some text →
          Text.FitsWords text.toList := by
        intro uri text htext
        rw [find?_texts_run hbefore] at htext
        obtain ⟨earlier, hmem, hnew⟩ := exists_newText_of_heldText htext
        exact .of_utf8ByteSize (hpast earlier hmem text hnew)
      have hroom := Nat.lt_of_le_of_lt (results_run_le hbefore) hlength
      obtain ⟨outcome, houtcome⟩ := before.session.handle_total htexts hroom request
      exact ⟨_, run_concat_eq_ok_iff.mpr ⟨before, outcome, hbefore, houtcome, rfl⟩⟩

end AsmLens
