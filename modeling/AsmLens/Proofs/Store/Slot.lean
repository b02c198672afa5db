import AsmLens.Proofs.History
import AsmLens.Proofs.Store.Run

/-!
The slot for diagnostics. Whoever asks for the tokens of a document leaves diagnostics in its slot,
and any other operation on the document empties it, so that what is in the slot after a run can be
read off the run (`holdsWaiting_run`): the text that is given when diagnostics are fetched is only
looked at where nothing waits. The slots have no say in the tokens. A run without some of the
operations that do nothing but empty slots has the same answers for tokens and for changes
(`StoreTranscript.exists_run_of_thins`).
-/

namespace AsmLens

/-! ## Analyses in the log -/

/-- Whether the event tells that a document has been analyzed. -/
def Event.isAnalyzed : Event → Bool
  | .analyzed .. => true
  | _ => false

/-- The number of analyses that the events tell of. -/
def analysesIn (events : List Event) : Nat := events.countP Event.isAnalyzed

/-- An analysis is told of once. -/
theorem analysesIn_documentEvents (uri : String) {text : String} {found : Traced Analysis}
    (h : analyze text = .ok found) : analysesIn (documentEvents uri found) = 1 := by
  obtain ⟨scanned, -, h⟩ := Checked.bind_eq_ok_iff.mp h
  obtain ⟨_, -, h⟩ := Checked.bind_eq_ok_iff.mp h
  obtain ⟨findings, -, h⟩ := Checked.bind_eq_ok_iff.mp h
  obtain ⟨_, -, h⟩ := Checked.bind_eq_ok_iff.mp h
  obtain ⟨_, -, h⟩ := Checked.bind_eq_ok_iff.mp h
  obtain ⟨_, -, h⟩ := Checked.bind_eq_ok_iff.mp h
  cases h
  -- the lexer and the label rule log other things
  have hscanned : scanned.events.countP Event.isAnalyzed = 0 := by
    rw [Scanned.events, List.countP_map, List.countP_eq_zero]
    simp [Event.isAnalyzed]
  have hfindings : findings.events.countP Event.isAnalyzed = 0 := by
    rw [LabelFindings.events, List.countP_append, List.countP_map, Nat.add_eq_zero_iff,
      List.countP_eq_zero]
    simp [Event.isAnalyzed]
  simp only [analysesIn, documentEvents, List.countP_append, hscanned, hfindings]
  rfl

/-! ## What an operation leaves in the slots -/

/-- The document that an operation is about. -/
def StoreRequest.document : StoreRequest → String
  | .begin uri => uri
  | .invalidate uri => uri
  | .close uri => uri
  | .allTokens uri _ => uri
  | .tokensSince uri _ _ => uri
  | .fetchDiagnostics uri _ => uri

namespace Store.Step

variable {s next : Store} {request : StoreRequest} {answer : StoreAnswer}

/-- An operation leaves the other documents as they are. -/
theorem state_of_document_ne (h : Step s request next answer) {uri : String}
    (hne : request.document ≠ uri) : next.state uri = s.state uri := by
  cases h with
  | begun name => exact (state_begin s name uri).trans (if_neg hne)
  | invalidated name => exact (state_invalidate s name uri).trans (if_neg hne)
  | closed name => exact (state_close s name uri).trans (if_neg hne)
  | given hfound => exact (state_renewed s _ _ uri).trans (if_neg hne)
  | changed hfound hbase hedit => exact (state_renewed s _ _ uri).trans (if_neg hne)
  | resent hfound hbase => exact (state_renewed s _ _ uri).trans (if_neg hne)
  | fetched hpending => exact (state_fetched s _ uri).trans (if_neg hne)
  | found hpending hfound => exact (state_fetched s _ uri).trans (if_neg hne)

/-- An operation on a document that does not ask for its tokens leaves nothing waiting. -/
theorem pending_of_document (h : Step s request next answer) {uri : String}
    (hdocument : request.document = uri) (htext : request.tokensText? uri = none) :
    (next.state uri).pending = none := by
  subst hdocument
  cases h with
  | begun name => simp [StoreRequest.document, state_begin]
  | invalidated name => simp [StoreRequest.document, state_invalidate]
  | closed name => simp [StoreRequest.document, state_close]
  | given hfound => simp [StoreRequest.tokensText?, StoreRequest.document] at htext
  | changed hfound hbase hedit => simp [StoreRequest.tokensText?, StoreRequest.document] at htext
  | resent hfound hbase => simp [StoreRequest.tokensText?, StoreRequest.document] at htext
  | fetched hpending => simp [StoreRequest.document, state_fetched]
  | found hpending hfound => simp [StoreRequest.document, state_fetched]

end Store.Step

/-! ## What waits -/

/-- The diagnostics of an exchange wait for a document: it is the latest that asked for the
document's tokens, and no operation on the document has come after it. -/
def Waits (exchanges : List StoreExchange) (uri : String) (e : StoreExchange) : Prop :=
  InForce (fun f => (f.request.tokensText? uri).isSome) (fun f => f.request.document ≠ uri)
    exchanges e

/-- The slots of the store hold the diagnostics that wait, and no others. -/
structure HoldsWaiting (s : Store) (exchanges : List StoreExchange) : Prop where
  given : ∀ uri e text, Waits exchanges uri e → e.request.tokensText? uri = some text →
    ∃ found, analyze text = .ok found ∧ (s.state uri).pending = some found.value.diagnostics
  empty : ∀ uri, (∀ e, ¬ Waits exchanges uri e) → (s.state uri).pending = none

theorem holdsWaiting_empty : HoldsWaiting {} [] where
  given := fun _ _ _ hwaits => absurd hwaits not_inForce_nil
  empty := fun _ _ => rfl

theorem Store.Step.holdsWaiting {s next : Store} {e : StoreExchange}
    {exchanges : List StoreExchange} (h : Step s e.request next e.answer)
    (hholds : HoldsWaiting s exchanges) : HoldsWaiting next (exchanges ++ [e]) where
  given := by
    intro uri f text hf htext
    rcases inForce_concat_iff.mp hf with ⟨rfl, -⟩ | ⟨hf, hne⟩
    · obtain ⟨found, hfound, hstate⟩ := h.state_of_tokensText? htext
      exact ⟨found, hfound, by rw [hstate]⟩
    · rw [h.state_of_document_ne hne]
      exact hholds.given uri f text hf htext
  empty := by
    intro uri hnone
    cases htext : e.request.tokensText? uri with
    | some text =>
        exact absurd (inForce_concat_iff.mpr (Or.inl ⟨rfl, by simp [htext]⟩)) (hnone e)
    | none =>
        by_cases hdocument : e.request.document = uri
        · exact h.pending_of_document hdocument htext
        · rw [h.state_of_document_ne hdocument]
          refine hholds.empty uri ?_
          intro f hf
          exact hnone f (inForce_concat_iff.mpr (Or.inr ⟨hf, hdocument⟩))

/-- After any run the slots hold what waits. -/
theorem StoreTranscript.holdsWaiting_run {requests : List StoreRequest} {t : StoreTranscript}
    (h : run requests = .ok t) : HoldsWaiting t.store t.exchanges :=
  run_induction (motive := fun _ t => HoldsWaiting t.store t.exchanges) holdsWaiting_empty
    (fun _ _ _ _ hholds hstep => hstep.holdsWaiting hholds) h

/-- The rule for diagnostics that are fetched for a document with a text, after some exchanges:
`diagnostics` are answered, and `events` are logged. -/
structure FetchRule (before : List StoreExchange) (uri text : String)
    (diagnostics : List Diagnostic) (events : List Event) : Prop where
  /-- What waits is the answer, whatever the text is, and nothing is analyzed or logged. -/
  waiting : ∀ e earlier, Waits before uri e → e.request.tokensText? uri = some earlier →
    ∃ found, analyze earlier = .ok found ∧ diagnostics = found.value.diagnostics ∧
      events = [] ∧ analysesIn events = 0
  /-- Where nothing waits the text is analyzed, once, and nothing else is. -/
  eager : (∀ e, ¬ Waits before uri e) →
    ∃ found, analyze text = .ok found ∧ diagnostics = found.value.diagnostics ∧
      events = .analyzingEagerly uri :: documentEvents uri found ∧ analysesIn events = 1

/-- Diagnostics are fetched by the rule where the slots hold what waits. -/
theorem HoldsWaiting.fetchRule {s : Store} {before : List StoreExchange}
    (hholds : HoldsWaiting s before) {uri text : String} {out : StoreOutcome (List Diagnostic)}
    (h : s.fetchDiagnostics uri text = .ok out) :
    FetchRule before uri text out.value out.events := by
  rcases Store.fetchDiagnostics_eq_ok_iff.mp h with
    ⟨diagnostics, hpending, rfl⟩ | ⟨hpending, found, hfound, rfl⟩
  · constructor
    case waiting =>
      intro e earlier hwaits htext
      obtain ⟨found, hfound, hheld⟩ := hholds.given uri e earlier hwaits htext
      rw [hpending] at hheld
      exact ⟨found, hfound, Option.some.inj hheld, rfl, rfl⟩
    case eager =>
      intro hnone
      rw [hholds.empty uri hnone] at hpending
      cases hpending
  · constructor
    case waiting =>
      intro e earlier hwaits htext
      obtain ⟨_, -, hheld⟩ := hholds.given uri e earlier hwaits htext
      rw [hpending] at hheld
      cases hheld
    case eager =>
      intro _
      exact ⟨found, hfound, rfl, rfl, analysesIn_documentEvents uri hfound⟩

/-! ## Runs without some operations -/

namespace StoreRequest

/-- Whether an operation does nothing to the store but empty a slot. -/
def onlyEmpties : StoreRequest → Bool
  | .invalidate _ => true
  | .fetchDiagnostics _ _ => true
  | _ => false

/-- The second run is the first without some operations that only empty slots. -/
inductive Thins : List StoreRequest → List StoreRequest → Prop
  | nil : Thins [] []
  | drop {past fewer : List StoreRequest} {request : StoreRequest} (h : Thins past fewer)
      (hempties : request.onlyEmpties = true) : Thins (past ++ [request]) fewer
  | keep {past fewer : List StoreRequest} (h : Thins past fewer) (request : StoreRequest) :
      Thins (past ++ [request]) (fewer ++ [request])

/-- An operation that only empties a slot asks for no tokens and renews no document. -/
theorem of_onlyEmpties {request : StoreRequest} (h : request.onlyEmpties = true) :
    request.asksTokens = false ∧ ∀ uri, request.renews uri = false ∧
      request.tokensText? uri = none := by
  cases request with
  | invalidate uri => exact ⟨rfl, fun _ => ⟨rfl, rfl⟩⟩
  | fetchDiagnostics uri text => exact ⟨rfl, fun _ => ⟨rfl, rfl⟩⟩
  | _ => cases h

end StoreRequest

namespace Store

variable {s s' next next' : Store} {request : StoreRequest} {answer answer' : StoreAnswer}

/-- The second store keeps the same results as the first and numbers the next one alike, and where
diagnostics wait in the first, some wait in the second. -/
structure Covers (s s' : Store) : Prop where
  last : ∀ uri, (s'.state uri).last = (s.state uri).last
  results : s'.results = s.results
  waiting : ∀ uri, (s'.state uri).pending = none → (s.state uri).pending = none

theorem covers_empty : Covers {} {} := ⟨fun _ => rfl, rfl, fun _ hnone => hnone⟩

namespace Covers

variable (hs : Covers s s')

include hs

theorem nextResult_eq (found : Analysis) : s'.nextResult found = s.nextResult found := by
  rw [nextResult, nextResult, hs.results]

theorem base?_eq (uri previous : String) : s'.base? uri previous = s.base? uri previous := by
  rw [base?, base?, hs.last]

/-- An operation that only empties a slot can be left out. -/
theorem drop (h : Step s request next answer) (hempties : request.onlyEmpties = true) :
    Covers next s' := by
  obtain ⟨hasks, hleaves⟩ := StoreRequest.of_onlyEmpties hempties
  constructor
  case last =>
    intro uri
    rw [h.last_of_not_renews (hleaves uri).1, hs.last]
  case results => rw [h.results_eq, hasks, hs.results]; rfl
  case waiting =>
    intro uri hnone
    by_cases hdocument : request.document = uri
    · exact h.pending_of_document hdocument (hleaves uri).2
    · rw [h.state_of_document_ne hdocument]
      exact hs.waiting uri hnone

/-- The same operation on both stores leaves them as they were to each other. -/
theorem keep (h : Step s request next answer) (h' : Step s' request next' answer') :
    Covers next next' := by
  constructor
  case results => rw [h.results_eq, h'.results_eq, hs.results]
  case last =>
    intro uri
    cases hrenews : request.renews uri with
    | false => rw [h.last_of_not_renews hrenews, h'.last_of_not_renews hrenews, hs.last]
    | true =>
        cases htext : request.tokensText? uri with
        | none => rw [h.last_of_renews hrenews htext, h'.last_of_renews hrenews htext]
        | some text =>
            obtain ⟨found, hfound, hlast⟩ := h.last_of_tokensText? htext
            obtain ⟨found', hfound', hlast'⟩ := h'.last_of_tokensText? htext
            rw [hfound] at hfound'
            cases hfound'
            rw [hlast, hlast', hs.nextResult_eq]
  case waiting =>
    intro uri hnone
    cases htext : request.tokensText? uri with
    | some text =>
        obtain ⟨found, -, hstate⟩ := h'.state_of_tokensText? htext
        rw [hstate] at hnone
        cases hnone
    | none =>
        by_cases hdocument : request.document = uri
        · exact h.pending_of_document hdocument htext
        · rw [h'.state_of_document_ne hdocument] at hnone
          rw [h.state_of_document_ne hdocument]
          exact hs.waiting uri hnone

/-- Whoever asks the second store for tokens is answered as by the first. -/
theorem allTokens {uri text : String} {out : StoreOutcome TokenResult}
    (h : s.allTokens uri text = .ok out) :
    ∃ out', s'.allTokens uri text = .ok out' ∧ out'.value = out.value ∧
      out'.events = out.events := by
  obtain ⟨found, hfound, hroom, rfl⟩ := allTokens_eq_ok_iff.mp h
  rw [← hs.results] at hroom
  exact ⟨_, allTokens_eq_ok_iff.mpr ⟨found, hfound, hroom, rfl⟩, hs.nextResult_eq found.value, rfl⟩

theorem tokensSince {uri text previous : String} {out : StoreOutcome TokensChange}
    (h : s.tokensSince uri text previous = .ok out) :
    ∃ out', s'.tokensSince uri text previous = .ok out' ∧ out'.value = out.value ∧
      out'.events = out.events := by
  obtain ⟨found, hfound, hroom, hout⟩ := tokensSince_eq_ok_iff.mp h
  rw [← hs.results] at hroom
  rw [← hs.base?_eq, ← hs.nextResult_eq] at hout
  rcases hout with ⟨hbase, rfl⟩ | ⟨base, edit, hbase, hedit, rfl⟩
  · exact ⟨_, tokensSince_eq_ok_iff.mpr ⟨found, hfound, hroom, Or.inl ⟨hbase, rfl⟩⟩, rfl, rfl⟩
  · exact ⟨_, tokensSince_eq_ok_iff.mpr
      ⟨found, hfound, hroom, Or.inr ⟨base, edit, hbase, hedit, rfl⟩⟩, rfl, rfl⟩

/-- Where the second store has to analyze the text, the first one has had to as well. -/
theorem fetchDiagnostics {uri text : String} {out : StoreOutcome (List Diagnostic)}
    (h : s.fetchDiagnostics uri text = .ok out) :
    ∃ out', s'.fetchDiagnostics uri text = .ok out' := by
  rcases fetchDiagnostics_eq_ok_iff.mp h with ⟨_, hpending, -⟩ | ⟨-, found, hfound, -⟩
  · cases hpending' : (s'.state uri).pending with
    | some diagnostics =>
        exact ⟨_, fetchDiagnostics_eq_ok_iff.mpr (Or.inl ⟨diagnostics, hpending', rfl⟩)⟩
    | none =>
        rw [hs.waiting uri hpending'] at hpending
        cases hpending
  · exact s'.fetchDiagnostics_total uri hfound

/-- What goes through on the first store goes through on the second, and whoever asks for tokens is
answered the same. -/
theorem perform {outcome : StoreOutcome StoreAnswer} (h : s.perform request = .ok outcome) :
    ∃ outcome', s'.perform request = .ok outcome' ∧
      (request.asksTokens = true →
        outcome'.value = outcome.value ∧ outcome'.events = outcome.events) := by
  cases request with
  | begin uri => exact ⟨_, rfl, nofun⟩
  | invalidate uri => exact ⟨_, rfl, nofun⟩
  | close uri => exact ⟨_, rfl, nofun⟩
  | allTokens uri text =>
      obtain ⟨out, hout, rfl⟩ := Checked.map_eq_ok_iff.mp h
      obtain ⟨out', hout', hvalue, hevents⟩ := hs.allTokens hout
      exact ⟨_, Checked.map_eq_ok_iff.mpr ⟨out', hout', rfl⟩,
        fun _ => ⟨congrArg StoreAnswer.tokens hvalue, hevents⟩⟩
  | tokensSince uri text previous =>
      obtain ⟨out, hout, rfl⟩ := Checked.map_eq_ok_iff.mp h
      obtain ⟨out', hout', hvalue, hevents⟩ := hs.tokensSince hout
      exact ⟨_, Checked.map_eq_ok_iff.mpr ⟨out', hout', rfl⟩,
        fun _ => ⟨congrArg StoreAnswer.change hvalue, hevents⟩⟩
  | fetchDiagnostics uri text =>
      obtain ⟨out, hout, rfl⟩ := Checked.map_eq_ok_iff.mp h
      obtain ⟨out', hout'⟩ := hs.fetchDiagnostics hout
      exact ⟨_, Checked.map_eq_ok_iff.mpr ⟨out', hout', rfl⟩, nofun⟩

end Covers

end Store

namespace StoreTranscript

/-- A run without some operations that only empty slots goes through where the whole run does, and
has the same exchanges about tokens. -/
theorem exists_run_of_thins {requests fewer : List StoreRequest}
    (h : StoreRequest.Thins requests fewer) {t : StoreTranscript} (ht : run requests = .ok t) :
    ∃ u, run fewer = .ok u ∧ Store.Covers t.store u.store ∧
      u.exchanges.filter (fun e => e.request.asksTokens) =
        t.exchanges.filter fun e => e.request.asksTokens := by
  induction h generalizing t with
  | nil =>
      cases ht
      exact ⟨{}, rfl, Store.covers_empty, rfl⟩
  | drop h hempties ih =>
      obtain ⟨before, outcome, hbefore, houtcome, rfl⟩ := run_concat_eq_ok_iff.mp ht
      obtain ⟨u, hu, hcovers, hsame⟩ := ih hbefore
      refine ⟨u, hu, hcovers.drop (Store.step_of_perform houtcome) hempties, ?_⟩
      simp [hsame, (StoreRequest.of_onlyEmpties hempties).1]
  | keep h request ih =>
      obtain ⟨before, outcome, hbefore, houtcome, rfl⟩ := run_concat_eq_ok_iff.mp ht
      obtain ⟨u, hu, hcovers, hsame⟩ := ih hbefore
      obtain ⟨outcome', houtcome', hanswer⟩ := hcovers.perform houtcome
      refine ⟨_, run_concat_eq_ok_iff.mpr ⟨u, outcome', hu, houtcome', rfl⟩,
        hcovers.keep (Store.step_of_perform houtcome) (Store.step_of_perform houtcome'), ?_⟩
      cases hasks : request.asksTokens with
      | false => simp [hsame, hasks]
      | true =>
          obtain ⟨hvalue, hevents⟩ := hanswer hasks
          simp [hsame, hvalue, hevents]

/-- Every run of the store. Diagnostics that are fetched are those of the tokens that were last
asked for, if no operation on the document has come since, and then nothing is analyzed; otherwise
they are those of the text that is given, which is analyzed once (`FetchRule`). Any operations that
fetch or drop diagnostics can be left out of the run: it still goes through, and whoever asks for
tokens or for a change is answered the same, under the same identifiers. Runs with texts of at most
4294967293 bytes and with fewer than 2^64 results go through. -/
theorem fetchRule_run (requests : List StoreRequest) :
    ((∀ request ∈ requests, request.Fits) →
      requests.countP StoreRequest.asksTokens ≤ Word.doubleLimit → ∃ t, run requests = .ok t) ∧
    ∀ t, run requests = .ok t →
      t.exchanges.map StoreExchange.request = requests ∧
      (∀ before e after, t.exchanges = before ++ e :: after →
        ∀ uri text, e.request = .fetchDiagnostics uri text →
        ∃ diagnostics, e.answer = .diagnostics diagnostics ∧
          FetchRule before uri text diagnostics e.events) ∧
      ∀ fewer, StoreRequest.Thins requests fewer →
        ∃ u, run fewer = .ok u ∧ u.exchanges.map StoreExchange.request = fewer ∧
          u.exchanges.filter (fun e => e.request.asksTokens) =
            t.exchanges.filter fun e => e.request.asksTokens := by
  refine ⟨exists_run, ?_⟩
  intro t h
  refine ⟨map_request_run h, ?_, ?_⟩
  · intro before e after hsplit uri text hrequest
    obtain ⟨past, s, outcome, hpast, houtcome, hanswer, hevents⟩ := run_split_perform h hsplit
    rw [hrequest] at houtcome
    obtain ⟨out, hout, rfl⟩ := Checked.map_eq_ok_iff.mp houtcome
    rw [hevents]
    exact ⟨out.value, hanswer, (holdsWaiting_run hpast).fetchRule hout⟩
  · intro fewer hthins
    obtain ⟨u, hu, -, hsame⟩ := exists_run_of_thins hthins h
    exact ⟨u, hu, map_request_run hu, hsame⟩

/-- The diagnostics of the first text wait once. The second time the text that is given is looked
at. -/
example :
    (run [.allTokens "a" "x", .invalidate "b", .fetchDiagnostics "a" "x:",
        .fetchDiagnostics "a" "x:"]).map (fun t => t.exchanges.map fun e =>
          (match e.answer with
            | .diagnostics diagnostics => diagnostics.map Diagnostic.code
            | _ => [], analysesIn e.events)) =
      .ok [([], 1), ([], 0), ([.missingColon], 0), ([], 1)] := by
  cbv

end StoreTranscript

end AsmLens
