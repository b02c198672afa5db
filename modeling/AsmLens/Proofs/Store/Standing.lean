import AsmLens.Proofs.History
import AsmLens.Proofs.Store.Run

/-!
Which result a change starts from. The store keeps one result of a document, and after any run it is
the one that stands (`keeps_run`): the last that was given for the document, unless the document has
begun afresh or been closed since. No identifier is given out twice (`nodup_ids_run`), so a request
for changes is answered by an edit exactly where it names that result (`changeRule_run`).
-/

namespace AsmLens

/-! ## The result that stands -/

/-- The exchange has given the result that stands for a document: it has answered a request for the
document's tokens, and no later one has renewed the document. -/
def Stands (exchanges : List StoreExchange) (uri : String) (e : StoreExchange) : Prop :=
  ∃ earlier later, exchanges = earlier ++ e :: later ∧ (e.request.tokensText? uri).isSome ∧
    ∀ f ∈ later, f.request.renews uri = false

/-- The result is the one that an exchange has given for a document. -/
def StoreExchange.Gave (e : StoreExchange) (uri : String) (result : TokenResult) : Prop :=
  e.answer.resultId? = some result.resultId ∧
    ∃ text found, e.request.tokensText? uri = some text ∧ analyze text = .ok found ∧
      result.data = found.value.tokens

/-- Whoever asks for the tokens of a document renews it and is given a result. -/
theorem StoreRequest.of_tokensText? {request : StoreRequest} {uri text : String}
    (h : request.tokensText? uri = some text) :
    request.renews uri = true ∧ request.asksTokens = true := by
  cases request with
  | allTokens name _ =>
      obtain ⟨hname, -⟩ := Option.ite_none_right_eq_some.mp h
      exact ⟨decide_eq_true hname, rfl⟩
  | tokensSince name _ _ =>
      obtain ⟨hname, -⟩ := Option.ite_none_right_eq_some.mp h
      exact ⟨decide_eq_true hname, rfl⟩
  | _ => cases h

theorem stands_iff {exchanges : List StoreExchange} {uri : String} {e : StoreExchange} :
    Stands exchanges uri e ↔
      InForce (fun f => (f.request.tokensText? uri).isSome) (fun f => f.request.renews uri = false)
        exchanges e := Iff.rfl

theorem stands_concat_iff {exchanges : List StoreExchange} {uri : String} {e f : StoreExchange} :
    Stands (exchanges ++ [f]) uri e ↔
      e = f ∧ (f.request.tokensText? uri).isSome ∨
        Stands exchanges uri e ∧ f.request.renews uri = false := by
  rw [stands_iff, stands_iff]
  exact inForce_concat_iff

/-- At most one result stands for a document. -/
theorem Stands.unique {exchanges : List StoreExchange} {uri : String} {e f : StoreExchange}
    (he : Stands exchanges uri e) (hf : Stands exchanges uri f) : e = f := by
  refine InForce.unique ?_ (stands_iff.mp he) (stands_iff.mp hf)
  -- an exchange that gives a result leaves no earlier one standing
  intro g hasks hkeeps
  obtain ⟨text, htext⟩ := Option.isSome_iff_exists.mp hasks
  rw [(StoreRequest.of_tokensText? htext).1] at hkeeps
  cases hkeeps

/-! ## What is kept -/

/-- The store keeps of each document the result that stands for it. -/
structure Keeps (s : Store) (exchanges : List StoreExchange) : Prop where
  given : ∀ uri e, Stands exchanges uri e →
    ∃ result, e.Gave uri result ∧ (s.state uri).last = some result
  kept : ∀ uri result, (s.state uri).last = some result →
    ∃ e, Stands exchanges uri e ∧ e.Gave uri result

theorem keeps_empty : Keeps {} [] where
  given := by
    rintro uri e ⟨earlier, later, hsplit, -⟩
    simp at hsplit
  kept := by
    intro uri result hlast
    cases hlast

namespace Store.Step

variable {s next : Store} {e : StoreExchange}

/-- An exchange that asks for the tokens of a document gives the result that is kept then. -/
theorem gave (h : Step s e.request next e.answer) {uri : String}
    (hasks : (e.request.tokensText? uri).isSome) :
    ∃ result, e.Gave uri result ∧ (next.state uri).last = some result := by
  obtain ⟨text, htext⟩ := Option.isSome_iff_exists.mp hasks
  obtain ⟨found, hfound, hlast⟩ := h.last_of_tokensText? htext
  have hid := h.resultId?_eq
  rw [if_pos (StoreRequest.of_tokensText? htext).2] at hid
  exact ⟨s.nextResult found.value, ⟨hid, text, found, htext, hfound, rfl⟩, hlast⟩

theorem keeps {exchanges : List StoreExchange} (h : Step s e.request next e.answer)
    (hkeeps : Keeps s exchanges) : Keeps next (exchanges ++ [e]) where
  given := by
    intro uri f hf
    rcases stands_concat_iff.mp hf with ⟨rfl, hasks⟩ | ⟨hf, hrenews⟩
    · exact h.gave hasks
    · rw [h.last_of_not_renews hrenews]
      exact hkeeps.given uri f hf
  kept := by
    intro uri result hlast
    cases hrenews : e.request.renews uri with
    | false =>
        rw [h.last_of_not_renews hrenews] at hlast
        obtain ⟨f, hf, hgave⟩ := hkeeps.kept uri result hlast
        exact ⟨f, stands_concat_iff.mpr (Or.inr ⟨hf, hrenews⟩), hgave⟩
    | true =>
        cases htext : e.request.tokensText? uri with
        | none =>
            rw [h.last_of_renews hrenews htext] at hlast
            cases hlast
        | some text =>
            have hasks : (e.request.tokensText? uri).isSome := by simp [htext]
            obtain ⟨given, hgave, hgiven⟩ := h.gave hasks
            rw [hlast] at hgiven
            cases hgiven
            exact ⟨e, stands_concat_iff.mpr (Or.inl ⟨rfl, hasks⟩), hgave⟩

end Store.Step

namespace StoreTranscript

variable {requests : List StoreRequest} {t : StoreTranscript}

/-- After any run the store keeps the results that stand. -/
theorem keeps_run (h : run requests = .ok t) : Keeps t.store t.exchanges :=
  run_induction (motive := fun _ t => Keeps t.store t.exchanges) keeps_empty
    (fun _ _ _ _ hkeeps hstep => hstep.keeps hkeeps) h

/-! ## Identifiers -/

/-- The identifiers that have been given out, in the order of the exchanges. -/
def ids (exchanges : List StoreExchange) : List String :=
  exchanges.filterMap fun e => e.answer.resultId?

/-- The identifiers of a run are the numbers from 1 on. -/
theorem ids_run (h : run requests = .ok t) :
    ids t.exchanges = Store.resultIds (requests.countP StoreRequest.asksTokens) := by
  rw [← results_run h]
  refine run_induction
    (motive := fun _ t => ids t.exchanges = Store.resultIds t.store.results) rfl ?_ h
  intro past t e s ih hstep
  have hid := hstep.resultId?_eq
  rw [ids] at ih ⊢
  rw [List.filterMap_append, ih, hstep.results_eq]
  cases hasks : e.request.asksTokens with
  | true =>
      rw [if_pos hasks] at hid
      simp [hid, Store.resultIds_succ]
  | false =>
      rw [hasks] at hid
      simp [hid]

/-- No identifier is given out twice. -/
theorem nodup_ids_run (h : run requests = .ok t) : (ids t.exchanges).Nodup := by
  rw [ids_run h]
  exact Store.nodup_resultIds _

/-- An identifier names one exchange. -/
theorem split_unique {exchanges : List StoreExchange} (hnodup : (ids exchanges).Nodup)
    {a b : List StoreExchange} {e f : StoreExchange} {c d : List StoreExchange} {id : String}
    (he : exchanges = a ++ e :: b) (hf : exchanges = c ++ f :: d)
    (heid : e.answer.resultId? = some id) (hfid : f.answer.resultId? = some id) :
    e = f ∧ b = d := by
  -- between two exchanges with one identifier there would be it twice
  have htwice : ∀ (x m y : List StoreExchange) (g k : StoreExchange),
      exchanges = x ++ g :: (m ++ k :: y) → g.answer.resultId? = some id →
      k.answer.resultId? ≠ some id := by
    intro x m y g k hsplit hg hk
    rw [hsplit, ids] at hnodup
    simp [hg, hk, List.nodup_append] at hnodup
  rcases List.append_eq_append_iff.mp (he.symm.trans hf) with
    ⟨between, hc, hrest⟩ | ⟨between, ha, hrest⟩
  · cases between with
    | nil => exact ⟨(List.cons.inj hrest).1, (List.cons.inj hrest).2⟩
    | cons g m =>
        obtain ⟨rfl, hb⟩ := List.cons.inj hrest
        rw [hb] at he
        exact absurd hfid (htwice a m d e f he heid)
  · cases between with
    | nil => exact ⟨(List.cons.inj hrest).1.symm, (List.cons.inj hrest).2.symm⟩
    | cons g m =>
        obtain ⟨rfl, hd⟩ := List.cons.inj hrest
        rw [hd] at hf
        exact absurd heid (htwice c m b f e hf hfid)

end StoreTranscript

/-! ## The answer to a request for changes -/

/-- The rule for the change of a document from a result that the editor names, after some exchanges:
`tokens` are those of the text, and `change` is the answer. -/
structure ChangeRule (before : List StoreExchange) (uri previous : String) (tokens : List Nat)
    (change : TokensChange) : Prop where
  /-- An edit is the answer exactly where the result named is the one that stands. -/
  edits_iff : (∃ id edits, change = .edits id edits) ↔
    ∃ e, Stands before uri e ∧ e.answer.resultId? = some previous
  /-- Otherwise all tokens are the answer. -/
  all_data : ∀ result, change = .all result → result.data = tokens
  /-- The edit leads from the tokens of the result that stands, and there is none where these are
  the tokens of the text. -/
  edits_from : ∀ id edits e text, change = .edits id edits → Stands before uri e →
    e.request.tokensText? uri = some text → ∃ earlier edit, analyze text = .ok earlier ∧
      Edit.between earlier.value.tokens tokens TokenStream.stride = .ok edit ∧
      edits = edit.toList ∧ (edits = [] ↔ tokens = earlier.value.tokens)
  /-- A result that was given for another document, or before the document was renewed, is not
  accepted. -/
  all_of_stale : ∀ earlier e later, before = earlier ++ e :: later →
    e.answer.resultId? = some previous →
    e.request.tokensText? uri = none ∨ (∃ f ∈ later, f.request.renews uri = true) →
    ∃ result, change = .all result

/-- There is no edit between tokens and others exactly where these are the same. -/
theorem Edit.toList_eq_nil_iff {previous current : List Nat} {edit : Option Edit}
    (h : between previous current TokenStream.stride = .ok edit) :
    edit.toList = [] ↔ current = previous := by
  have hstride : 0 < TokenStream.stride := by decide
  rw [Option.toList_eq_nil_iff]
  constructor
  · rintro rfl
    exact (eq_of_between_eq_none hstride h).symm
  · rintro rfl
    rw [between_self hstride] at h
    exact (Except.ok.inj h).symm

namespace StoreTranscript

/-- The result that is kept is accepted where the editor names it. -/
theorem exists_base_iff {s : Store} {before : List StoreExchange} (hkeeps : Keeps s before)
    {uri previous : String} :
    (∃ base, s.base? uri previous = some base) ↔
      ∃ e, Stands before uri e ∧ e.answer.resultId? = some previous := by
  constructor
  · rintro ⟨base, hbase⟩
    obtain ⟨hlast, hid⟩ := Store.base?_eq_some_iff.mp hbase
    obtain ⟨e, hstands, hgave⟩ := hkeeps.kept uri base hlast
    exact ⟨e, hstands, by rw [hgave.1, hid]⟩
  · rintro ⟨e, hstands, hid⟩
    obtain ⟨result, hgave, hlast⟩ := hkeeps.given uri e hstands
    rw [hgave.1] at hid
    exact ⟨result, Store.base?_eq_some_iff.mpr ⟨hlast, Option.some.inj hid⟩⟩

/-- A result of another document, or one that the document has left behind, is not accepted. -/
theorem base?_eq_none_of_stale {s : Store} {before : List StoreExchange} (hkeeps : Keeps s before)
    (hnodup : (ids before).Nodup) {uri previous : String} {earlier later : List StoreExchange}
    {e : StoreExchange} (hsplit : before = earlier ++ e :: later)
    (hid : e.answer.resultId? = some previous)
    (hstale : e.request.tokensText? uri = none ∨ ∃ f ∈ later, f.request.renews uri = true) :
    s.base? uri previous = none := by
  rw [Option.eq_none_iff_forall_ne_some]
  intro base hbase
  obtain ⟨f, ⟨past, since, hf, hasks, hkept⟩, hfid⟩ := (exists_base_iff hkeeps).mp ⟨base, hbase⟩
  obtain ⟨rfl, rfl⟩ := split_unique hnodup hsplit hf hid hfid
  rcases hstale with hother | ⟨g, hg, hrenews⟩
  · rw [hother] at hasks
    cases hasks
  · rw [hkept g hg] at hrenews
    cases hrenews

theorem changeRule_of_step {s next : Store} {before : List StoreExchange}
    (hkeeps : Keeps s before) (hnodup : (ids before).Nodup) {uri text previous : String}
    {answer : StoreAnswer} (h : Store.Step s (.tokensSince uri text previous) next answer) :
    ∃ found change, analyze text = .ok found ∧ answer = .change change ∧
      ChangeRule before uri previous found.value.tokens change := by
  cases h with
  | @changed _ _ _ found base edit hfound hbase hedit =>
      refine ⟨found, _, hfound, rfl, ?_⟩
      constructor
      case edits_iff =>
        exact iff_of_true ⟨_, _, rfl⟩ ((exists_base_iff hkeeps).mp ⟨base, hbase⟩)
      case all_data =>
        intro result hresult
        cases hresult
      case edits_from =>
        intro id edits e text' hedits hstands htext
        cases hedits
        obtain ⟨result, ⟨-, text'', earlier, htext'', hearlier, hdata⟩, hlast⟩ :=
          hkeeps.given uri e hstands
        rw [htext] at htext''
        cases htext''
        rw [(Store.base?_eq_some_iff.mp hbase).1] at hlast
        cases hlast
        rw [hdata] at hedit
        exact ⟨earlier, edit, hearlier, hedit, rfl, Edit.toList_eq_nil_iff hedit⟩
      case all_of_stale =>
        intro earlier e later hsplit hid hstale
        rw [base?_eq_none_of_stale hkeeps hnodup hsplit hid hstale] at hbase
        cases hbase
  | @resent _ _ _ found hfound hbase =>
      refine ⟨found, _, hfound, rfl, ?_⟩
      constructor
      case edits_iff =>
        refine iff_of_false ?_ ?_
        · rintro ⟨id, edits, hedits⟩
          cases hedits
        · intro hstands
          obtain ⟨base, hsome⟩ := (exists_base_iff hkeeps).mpr hstands
          rw [hbase] at hsome
          cases hsome
      case all_data =>
        intro result hresult
        cases hresult
        rfl
      case edits_from =>
        intro id edits e text' hedits
        cases hedits
      case all_of_stale =>
        intro earlier e later _ _ _
        exact ⟨_, rfl⟩

/-- Every run of the store. The results are numbered from 1 on, over all documents together, and no
identifier comes twice. Whoever asks for all tokens is given those of the text. Whoever asks for a
change is answered by the rule (`ChangeRule`): an edit from the tokens of the result that stands for
the document where that is the one named, and all tokens otherwise. Runs with texts of at most
4294967293 bytes and with fewer than 2^64 results go through. -/
theorem changeRule_run (requests : List StoreRequest) :
    ((∀ request ∈ requests, request.Fits) →
      requests.countP StoreRequest.asksTokens ≤ Word.doubleLimit → ∃ t, run requests = .ok t) ∧
    ∀ t, run requests = .ok t →
      t.exchanges.map StoreExchange.request = requests ∧
      ids t.exchanges =
        (List.range (requests.countP StoreRequest.asksTokens)).map (fun n => toString (n + 1)) ∧
      (ids t.exchanges).Nodup ∧
      (∀ e ∈ t.exchanges, ∀ uri text, e.request = .allTokens uri text →
        ∃ found id, analyze text = .ok found ∧ e.answer = .tokens ⟨id, found.value.tokens⟩) ∧
      ∀ before e after, t.exchanges = before ++ e :: after →
        ∀ uri text previous, e.request = .tokensSince uri text previous →
        ∃ found change, analyze text = .ok found ∧ e.answer = .change change ∧
          ChangeRule before uri previous found.value.tokens change := by
  refine ⟨exists_run, ?_⟩
  intro t h
  refine ⟨map_request_run h, ids_run h, nodup_ids_run h, ?_, ?_⟩
  · intro e he uri text hrequest
    obtain ⟨before, after, hsplit⟩ := List.append_of_mem he
    obtain ⟨past, s, -, next, hstep⟩ := run_split h hsplit
    rw [hrequest] at hstep
    generalize e.answer = answer at hstep
    cases hstep with
    | given hfound => exact ⟨_, _, hfound, rfl⟩
  · intro before e after hsplit uri text previous hrequest
    obtain ⟨past, s, hpast, next, hstep⟩ := run_split h hsplit
    rw [hrequest] at hstep
    exact changeRule_of_step (keeps_run hpast) (nodup_ids_run hpast) hstep

/-- Two documents and an identifier that is named twice: the second time it has been left behind. -/
example :
    (run [.allTokens "a" "1", .allTokens "b" "1", .tokensSince "a" "1" "1",
        .tokensSince "a" "1" "1"]).map (fun t => t.exchanges.map StoreExchange.answer) =
      .ok [.tokens ⟨"1", [0, 0, 1, 3, 0]⟩, .tokens ⟨"2", [0, 0, 1, 3, 0]⟩,
        .change (.edits "3" []), .change (.all ⟨"4", [0, 0, 1, 3, 0]⟩)] := by
  cbv

end StoreTranscript

end AsmLens
