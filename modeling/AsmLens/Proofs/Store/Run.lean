import AsmLens.Proofs.Store.Renewal
import Mathlib.Data.List.Induction

/-!
Runs of the store: any operations on any documents, one after another, from a store that has just
been made. `Store.Step` lists the ways in which an operation can go; what holds at the beginning and
is kept by every step holds after every run (`StoreTranscript.run_induction`), and every exchange of
a run is a step from the store that the exchanges before it have left (`StoreTranscript.run_split`).
-/

namespace AsmLens

/-- An operation of the store, with the document and the texts that it is given. -/
inductive StoreRequest where
  | begin (uri : String)
  | invalidate (uri : String)
  | close (uri : String)
  | allTokens (uri text : String)
  | tokensSince (uri text previous : String)
  | fetchDiagnostics (uri text : String)
  deriving DecidableEq, Repr

/-- What an operation of the store answers. -/
inductive StoreAnswer where
  | nothing
  /-- Whether there was a document to forget. -/
  | closed (known : Bool)
  | tokens (result : TokenResult)
  | change (change : TokensChange)
  | diagnostics (diagnostics : List Diagnostic)
  deriving DecidableEq, Repr

/-- The identifier of the result that a change leads to. -/
def TokensChange.resultId : TokensChange → String
  | .edits resultId _ => resultId
  | .all result => result.resultId

/-- The identifier that an answer gives out. -/
def StoreAnswer.resultId? : StoreAnswer → Option String
  | .tokens result => some result.resultId
  | .change answered => some answered.resultId
  | _ => none

namespace StoreRequest

/-- The text that an operation is given. -/
def text? : StoreRequest → Option String
  | .allTokens _ text => some text
  | .tokensSince _ text _ => some text
  | .fetchDiagnostics _ text => some text
  | _ => none

/-- The text that the tokens of a document are asked for. -/
def tokensText? (uri : String) : StoreRequest → Option String
  | .allTokens name text => if name = uri then some text else none
  | .tokensSince name text _ => if name = uri then some text else none
  | _ => none

/-- Whether tokens are asked for, of whatever document. -/
def asksTokens : StoreRequest → Bool
  | .allTokens _ _ => true
  | .tokensSince _ _ _ => true
  | _ => false

/-- Whether an operation puts an end to the result that stands for a document: another one takes its
place, or the document begins afresh or is forgotten. -/
def renews (uri : String) : StoreRequest → Bool
  | .begin name => name = uri
  | .close name => name = uri
  | .allTokens name _ => name = uri
  | .tokensSince name _ _ => name = uri
  | _ => false

/-- The text is not too large to be analyzed. -/
def Fits (request : StoreRequest) : Prop :=
  ∀ text, request.text? = some text → text.utf8ByteSize ≤ Text.byteLimit

end StoreRequest

/-- The same outcome under another form of its answer. -/
def StoreOutcome.map {α β : Type} (f : α → β) (outcome : StoreOutcome α) : StoreOutcome β :=
  ⟨outcome.store, f outcome.value, outcome.events⟩

namespace Store

/-- Carries out an operation. -/
def perform (s : Store) : StoreRequest → Checked (StoreOutcome StoreAnswer)
  | .begin uri => .ok { store := s.begin uri, value := .nothing }
  | .invalidate uri => .ok { store := s.invalidate uri, value := .nothing }
  | .close uri => .ok ((s.close uri).map .closed)
  | .allTokens uri text => (s.allTokens uri text).map (StoreOutcome.map .tokens)
  | .tokensSince uri text previous =>
      (s.tokensSince uri text previous).map (StoreOutcome.map .change)
  | .fetchDiagnostics uri text =>
      (s.fetchDiagnostics uri text).map (StoreOutcome.map .diagnostics)

/-! ## Steps -/

/-- A step of the store: the operation, the store that it leaves and its answer. -/
inductive Step (s : Store) : StoreRequest → Store → StoreAnswer → Prop
  | begun (uri : String) : Step s (.begin uri) (s.begin uri) .nothing
  | invalidated (uri : String) : Step s (.invalidate uri) (s.invalidate uri) .nothing
  | closed (uri : String) : Step s (.close uri) (s.close uri).store (.closed (s.contains uri))
  | given {uri text : String} {found : Traced Analysis} (hfound : analyze text = .ok found) :
      Step s (.allTokens uri text) (s.renewed uri found.value) (.tokens (s.nextResult found.value))
  | changed {uri text previous : String} {found : Traced Analysis} {base : TokenResult}
      {edit : Option Edit} (hfound : analyze text = .ok found)
      (hbase : s.base? uri previous = some base)
      (hedit : Edit.between base.data found.value.tokens TokenStream.stride = .ok edit) :
      Step s (.tokensSince uri text previous) (s.renewed uri found.value)
        (.change (.edits (resultId (s.results + 1)) edit.toList))
  | resent {uri text previous : String} {found : Traced Analysis}
      (hfound : analyze text = .ok found) (hbase : s.base? uri previous = none) :
      Step s (.tokensSince uri text previous) (s.renewed uri found.value)
        (.change (.all (s.nextResult found.value)))
  | fetched {uri text : String} {diagnostics : List Diagnostic}
      (hpending : (s.state uri).pending = some diagnostics) :
      Step s (.fetchDiagnostics uri text) (s.fetched uri) (.diagnostics diagnostics)
  | found {uri text : String} {found : Traced Analysis} (hpending : (s.state uri).pending = none)
      (hfound : analyze text = .ok found) :
      Step s (.fetchDiagnostics uri text) (s.fetched uri) (.diagnostics found.value.diagnostics)

/-- An operation that goes through is a step. -/
theorem step_of_perform {s : Store} {request : StoreRequest} {out : StoreOutcome StoreAnswer}
    (h : s.perform request = .ok out) : Step s request out.store out.value := by
  cases request with
  | begin uri =>
      cases h
      exact .begun uri
  | invalidate uri =>
      cases h
      exact .invalidated uri
  | close uri =>
      cases h
      exact .closed uri
  | allTokens uri text =>
      obtain ⟨answered, hanswered, rfl⟩ := Checked.map_eq_ok_iff.mp h
      obtain ⟨found, hfound, -, hstore, hvalue⟩ := allTokens_of_ok hanswered
      simp only [StoreOutcome.map, hstore, hvalue]
      exact .given hfound
  | tokensSince uri text previous =>
      obtain ⟨answered, hanswered, rfl⟩ := Checked.map_eq_ok_iff.mp h
      obtain ⟨found, hfound, -, hstore, hvalue⟩ := tokensSince_of_ok hanswered
      rcases hvalue with ⟨hbase, hvalue⟩ | ⟨base, edit, hbase, hedit, hvalue⟩
      · simp only [StoreOutcome.map, hstore, hvalue]
        exact .resent hfound hbase
      · simp only [StoreOutcome.map, hstore, hvalue]
        exact .changed hfound hbase hedit
  | fetchDiagnostics uri text =>
      obtain ⟨answered, hanswered, rfl⟩ := Checked.map_eq_ok_iff.mp h
      obtain ⟨hstore, hvalue⟩ := fetchDiagnostics_of_ok hanswered
      rcases hvalue with hpending | ⟨hpending, found, hfound, hvalue⟩
      · simp only [StoreOutcome.map, hstore]
        exact .fetched hpending
      · simp only [StoreOutcome.map, hstore, hvalue]
        exact .found hpending hfound

namespace Step

variable {s next : Store} {request : StoreRequest} {answer : StoreAnswer}

/-- Whoever asks for tokens is given the next identifier, and no one else is given any. -/
theorem resultId?_eq (h : Step s request next answer) :
    answer.resultId? = if request.asksTokens then some (resultId (s.results + 1)) else none := by
  cases h with
  | _ => rfl

theorem results_eq (h : Step s request next answer) :
    next.results = s.results + if request.asksTokens then 1 else 0 := by
  cases h with
  | _ => rfl

/-- What is kept of a document that is not renewed is what was kept before. -/
theorem last_of_not_renews (h : Step s request next answer) {uri : String}
    (hrenews : request.renews uri = false) : (next.state uri).last = (s.state uri).last := by
  cases h with
  | begun name => simp_all [StoreRequest.renews, last_begin]
  | invalidated name => exact last_invalidate s name uri
  | closed name => simp_all [StoreRequest.renews, last_close]
  | given hfound => simp_all [StoreRequest.renews, last_renewed]
  | changed hfound hbase hedit => simp_all [StoreRequest.renews, last_renewed]
  | resent hfound hbase => simp_all [StoreRequest.renews, last_renewed]
  | fetched hpending => exact last_fetched s _ uri
  | found hpending hfound => exact last_fetched s _ uri

/-- A document whose tokens have been asked for is as the analysis of this text leaves it. -/
theorem state_of_tokensText? (h : Step s request next answer) {uri text : String}
    (htext : request.tokensText? uri = some text) :
    ∃ found, analyze text = .ok found ∧
      next.state uri = ⟨some (s.nextResult found.value), some found.value.diagnostics⟩ := by
  cases h with
  | @given name _ found hfound =>
      obtain ⟨rfl, hsame⟩ := Option.ite_none_right_eq_some.mp htext
      cases hsame
      exact ⟨found, hfound, by rw [state_renewed, if_pos rfl]⟩
  | @changed name _ _ found _ _ hfound _ _ =>
      obtain ⟨rfl, hsame⟩ := Option.ite_none_right_eq_some.mp htext
      cases hsame
      exact ⟨found, hfound, by rw [state_renewed, if_pos rfl]⟩
  | @resent name _ _ found hfound _ =>
      obtain ⟨rfl, hsame⟩ := Option.ite_none_right_eq_some.mp htext
      cases hsame
      exact ⟨found, hfound, by rw [state_renewed, if_pos rfl]⟩
  | _ => cases htext

/-- What is kept of a document whose tokens have been asked for is what has been found now. -/
theorem last_of_tokensText? (h : Step s request next answer) {uri text : String}
    (htext : request.tokensText? uri = some text) :
    ∃ found, analyze text = .ok found ∧
      (next.state uri).last = some (s.nextResult found.value) := by
  obtain ⟨found, hfound, hstate⟩ := h.state_of_tokensText? htext
  exact ⟨found, hfound, by rw [hstate]⟩

/-- Nothing is kept of a document that has begun afresh or is forgotten. -/
theorem last_of_renews (h : Step s request next answer) {uri : String}
    (hrenews : request.renews uri = true) (htext : request.tokensText? uri = none) :
    (next.state uri).last = none := by
  cases h with
  | begun name => simp_all [StoreRequest.renews, last_begin]
  | closed name => simp_all [StoreRequest.renews, last_close]
  | given hfound => simp_all [StoreRequest.renews, StoreRequest.tokensText?]
  | changed hfound hbase hedit => simp_all [StoreRequest.renews, StoreRequest.tokensText?]
  | resent hfound hbase => simp_all [StoreRequest.renews, StoreRequest.tokensText?]
  | invalidated name => cases hrenews
  | fetched hpending => cases hrenews
  | found hpending hfound => cases hrenews

end Step

/-! ## Operations go through -/

/-- An operation goes through while its text can be analyzed and identifiers are left. -/
theorem perform_total {s : Store} {request : StoreRequest} (hfit : request.Fits)
    (hroom : request.asksTokens = true → s.results < Word.doubleLimit) :
    ∃ out, s.perform request = .ok out := by
  have hanalysis : ∀ text, request.text? = some text → ∃ found, analyze text = .ok found := by
    intro text htext
    obtain ⟨found, hfound, -⟩ := analyze_eq (.of_utf8ByteSize (hfit text htext))
    exact ⟨found, hfound⟩
  cases request with
  | begin uri => exact ⟨_, rfl⟩
  | invalidate uri => exact ⟨_, rfl⟩
  | close uri => exact ⟨_, rfl⟩
  | allTokens uri text =>
      obtain ⟨found, hfound⟩ := hanalysis text rfl
      obtain ⟨out, hout⟩ := allTokens_total uri hfound (hroom rfl)
      exact ⟨_, Checked.map_eq_ok_iff.mpr ⟨out, hout, rfl⟩⟩
  | tokensSince uri text previous =>
      obtain ⟨found, hfound⟩ := hanalysis text rfl
      obtain ⟨out, hout⟩ := tokensSince_total uri previous hfound (hroom rfl)
      exact ⟨_, Checked.map_eq_ok_iff.mpr ⟨out, hout, rfl⟩⟩
  | fetchDiagnostics uri text =>
      obtain ⟨found, hfound⟩ := hanalysis text rfl
      obtain ⟨out, hout⟩ := fetchDiagnostics_total s uri hfound
      exact ⟨_, Checked.map_eq_ok_iff.mpr ⟨out, hout, rfl⟩⟩

end Store

/-! ## Runs -/

/-- An operation and all that came of it. -/
structure StoreExchange where
  request : StoreRequest
  answer : StoreAnswer
  events : List Event

/-- A store on its way, with all that it has been asked and has answered so far. -/
structure StoreTranscript where
  store : Store := {}
  exchanges : List StoreExchange := []

namespace StoreTranscript

/-- The transcript after one more operation. -/
def next (t : StoreTranscript) (request : StoreRequest) : Checked StoreTranscript := do
  let outcome ← t.store.perform request
  return ⟨outcome.store, t.exchanges ++ [⟨request, outcome.value, outcome.events⟩]⟩

/-- The transcript of a run of operations. -/
def run (requests : List StoreRequest) : Checked StoreTranscript := requests.foldlM next {}

theorem run_concat_eq_ok_iff {past : List StoreRequest} {request : StoreRequest}
    {t : StoreTranscript} :
    run (past ++ [request]) = .ok t ↔
      ∃ before outcome, run past = .ok before ∧ before.store.perform request = .ok outcome ∧
        t = ⟨outcome.store, before.exchanges ++ [⟨request, outcome.value, outcome.events⟩]⟩ := by
  rw [run, Checked.foldlM_concat_eq_ok_iff]
  constructor
  · rintro ⟨before, hbefore, hnext⟩
    obtain ⟨outcome, houtcome, ht⟩ := Checked.bind_eq_ok_iff.mp hnext
    exact ⟨before, outcome, hbefore, houtcome, (Except.ok.inj ht).symm⟩
  · rintro ⟨before, outcome, hbefore, houtcome, rfl⟩
    exact ⟨before, hbefore, Checked.bind_eq_ok_iff.mpr ⟨outcome, houtcome, rfl⟩⟩

/-- What holds at the beginning and is kept by every step holds after every run. -/
theorem run_induction {motive : List StoreRequest → StoreTranscript → Prop} (start : motive [] {})
    (step : ∀ past t e s, motive past t → Store.Step t.store e.request s e.answer →
      motive (past ++ [e.request]) ⟨s, t.exchanges ++ [e]⟩)
    {requests : List StoreRequest} {t : StoreTranscript} (h : run requests = .ok t) :
    motive requests t := by
  induction requests using List.reverseRecOn generalizing t with
  | nil =>
      cases h
      exact start
  | append_singleton past request ih =>
      obtain ⟨before, outcome, hbefore, houtcome, rfl⟩ := run_concat_eq_ok_iff.mp h
      exact step past before ⟨request, outcome.value, outcome.events⟩ outcome.store (ih hbefore)
        (Store.step_of_perform houtcome)

/-- The exchanges of a run are about its operations. -/
theorem map_request_run {requests : List StoreRequest} {t : StoreTranscript}
    (h : run requests = .ok t) : t.exchanges.map StoreExchange.request = requests := by
  refine run_induction
    (motive := fun past t => t.exchanges.map StoreExchange.request = past) rfl ?_ h
  intro past t e s ih _
  rw [List.map_append, ih]
  rfl

/-- The number of results so far is that of the operations that asked for tokens. -/
theorem results_run {requests : List StoreRequest} {t : StoreTranscript}
    (h : run requests = .ok t) : t.store.results = requests.countP StoreRequest.asksTokens := by
  refine run_induction
    (motive := fun past t => t.store.results = past.countP StoreRequest.asksTokens) rfl ?_ h
  intro past t e s ih hstep
  rw [hstep.results_eq, ih, List.countP_append, List.countP_singleton]

/-- Each exchange of a run is an operation on the store that those before it have left. -/
theorem run_split_perform {requests : List StoreRequest} {t : StoreTranscript}
    (h : run requests = .ok t) {before after : List StoreExchange} {e : StoreExchange}
    (hsplit : t.exchanges = before ++ e :: after) :
    ∃ past s outcome, run past = .ok ⟨s, before⟩ ∧ s.perform e.request = .ok outcome ∧
      e.answer = outcome.value ∧ e.events = outcome.events := by
  induction requests using List.reverseRecOn generalizing t after with
  | nil =>
      cases h
      simp at hsplit
  | append_singleton past request ih =>
      obtain ⟨earlier, outcome, hearlier, houtcome, rfl⟩ := run_concat_eq_ok_iff.mp h
      rcases List.eq_nil_or_concat after with rfl | ⟨front, final, rfl⟩
      · obtain ⟨rfl, hlast⟩ := List.append_inj' hsplit rfl
        cases hlast
        exact ⟨past, earlier.store, outcome, hearlier, houtcome, rfl, rfl⟩
      · rw [List.concat_eq_append, ← List.cons_append, ← List.append_assoc] at hsplit
        exact ih hearlier (List.append_inj' hsplit rfl).1

/-- Each exchange of a run is a step from the store that those before it have left. -/
theorem run_split {requests : List StoreRequest} {t : StoreTranscript} (h : run requests = .ok t)
    {before after : List StoreExchange} {e : StoreExchange}
    (hsplit : t.exchanges = before ++ e :: after) :
    ∃ past s, run past = .ok ⟨s, before⟩ ∧ ∃ next, Store.Step s e.request next e.answer := by
  obtain ⟨past, s, outcome, hpast, houtcome, hanswer, -⟩ := run_split_perform h hsplit
  rw [hanswer]
  exact ⟨past, s, hpast, _, Store.step_of_perform houtcome⟩

/-- A run goes through whose texts can be analyzed and whose results identifiers can number. -/
theorem exists_run {requests : List StoreRequest} (hfit : ∀ request ∈ requests, request.Fits)
    (hroom : requests.countP StoreRequest.asksTokens ≤ Word.doubleLimit) :
    ∃ t, run requests = .ok t := by
  induction requests using List.reverseRecOn with
  | nil => exact ⟨_, rfl⟩
  | append_singleton past request ih =>
      rw [List.countP_append, List.countP_singleton] at hroom
      have hpast : ∀ earlier ∈ past, earlier.Fits :=
        fun earlier hmem => hfit earlier (List.mem_append_left _ hmem)
      obtain ⟨before, hbefore⟩ := ih hpast (Nat.le_of_add_right_le hroom)
      have hresults := results_run hbefore
      have hnext : request.asksTokens = true → before.store.results < Word.doubleLimit := by
        intro hasks
        rw [if_pos hasks] at hroom
        omega
      obtain ⟨outcome, houtcome⟩ :=
        Store.perform_total (hfit request (List.mem_append_right _ List.mem_cons_self)) hnext
      exact ⟨_, run_concat_eq_ok_iff.mpr ⟨before, outcome, hbefore, houtcome, rfl⟩⟩

end StoreTranscript

end AsmLens
