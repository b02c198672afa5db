import AsmLens.Session
import AsmLens.Proofs.Store.Renewal

/-!
What a request does to a session. `Session.Step` lists every way in which a request can be answered,
with the session that it leaves; it says nothing of the log and of the parts of answers that no
document is in. Whatever holds of sessions on their way is shown of these steps.
-/

namespace AsmLens

open Protocol

/-! ## What requests are about -/

namespace Request

/-- The text of a document after a request, where one was held before. -/
def textAfter (uri : String) (held : Option String) : Request → Option String
  | .openDocument name text => if name = uri then some text else held
  | .changeDocument name texts => if name = uri then texts.getLast?.or held else held
  | .closeDocument name => if name = uri then none else held
  | _ => held

/-- The settings after a request. -/
def configAfter (config : Config) : Request → Config
  | .start options => .orDefault (Config.ofOptions options)
  | _ => config

/-- The result that is kept of a document after a request that is not given any. -/
def lastAfter (uri : String) (last : Option TokenResult) : Request → Option TokenResult
  | .openDocument name _ => if name = uri then none else last
  | .closeDocument name => if name = uri then none else last
  | _ => last

/-- The document that a request is about. -/
def document? : Request → Option String
  | .openDocument uri _ => some uri
  | .changeDocument uri _ => some uri
  | .closeDocument uri => some uri
  | .tokens uri => some uri
  | .tokenChanges uri _ => some uri
  | .diagnostics uri => some uri
  | _ => none

/-- The document whose tokens, or a change of them, a request asks for. -/
def tokensOf? : Request → Option String
  | .tokens uri => some uri
  | .tokenChanges uri _ => some uri
  | _ => none

/-- The result that a request for changes starts from. -/
def previous? : Request → Option String
  | .tokenChanges _ previous => some previous
  | _ => none

/-- The text that a request gives a document. -/
def newText? : Request → Option String
  | .openDocument _ text => some text
  | .changeDocument _ texts => texts.getLast?
  | _ => none

/-- The text that is held after a request was held before it or came with it. -/
theorem of_textAfter_eq_some {uri text : String} {held : Option String} {request : Request}
    (h : request.textAfter uri held = some text) :
    held = some text ∨ request.newText? = some text := by
  cases request with
  | openDocument name new =>
      simp only [textAfter] at h
      split at h
      · exact Or.inr h
      · exact Or.inl h
  | changeDocument name texts =>
      simp only [textAfter] at h
      split at h
      · rw [Option.or_eq_some_iff] at h
        rcases h with h | ⟨-, h⟩
        · exact Or.inr h
        · exact Or.inl h
      · exact Or.inl h
  | closeDocument name =>
      simp only [textAfter] at h
      split at h
      · cases h
      · exact Or.inl h
  | _ => exact Or.inl h

/-- What is kept after a request was kept before it. -/
theorem of_lastAfter_eq_some {uri : String} {last : Option TokenResult} {kept : TokenResult}
    {request : Request} (h : request.lastAfter uri last = some kept) : last = some kept := by
  cases request with
  | openDocument name text =>
      rw [lastAfter] at h
      split at h
      · cases h
      · exact h
  | closeDocument name =>
      rw [lastAfter] at h
      split at h
      · cases h
      · exact h
  | _ => exact h

/-- A request that leaves the texts alone leaves alone what is kept of the documents. -/
theorem lastAfter_of_textAfter {request : Request}
    (h : ∀ uri held, request.textAfter uri held = held) (uri : String)
    (last : Option TokenResult) : request.lastAfter uri last = last := by
  cases request with
  | openDocument name text =>
      have hopened := h name none
      rw [textAfter, if_pos rfl] at hopened
      cases hopened
  | closeDocument name =>
      have hclosed := h name (some "")
      rw [textAfter, if_pos rfl] at hclosed
      cases hclosed
  | _ => rfl

/-- A request leaves alone all documents that it is not about. -/
theorem leaves_of_document?_ne {request : Request} {uri : String}
    (h : request.document? ≠ some uri) :
    (∀ held, request.textAfter uri held = held) ∧ ∀ last, request.lastAfter uri last = last := by
  cases request with
  | openDocument name text =>
      have hne : name ≠ uri := fun heq => h (congrArg some heq)
      exact ⟨fun _ => if_neg hne, fun _ => if_neg hne⟩
  | changeDocument name texts =>
      have hne : name ≠ uri := fun heq => h (congrArg some heq)
      exact ⟨fun _ => if_neg hne, fun _ => rfl⟩
  | closeDocument name =>
      have hne : name ≠ uri := fun heq => h (congrArg some heq)
      exact ⟨fun _ => if_neg hne, fun _ => if_neg hne⟩
  | _ => exact ⟨fun _ => rfl, fun _ => rfl⟩

/-- Whoever asks for the tokens of a document is about that document. -/
theorem document?_of_tokensOf? {request : Request} {uri : String}
    (h : request.tokensOf? = some uri) : request.document? = some uri := by
  cases request with
  | tokens name => exact h
  | tokenChanges name previous => exact h
  | _ => cases h

/-- Asking for tokens changes neither texts nor settings. -/
theorem keeps_of_tokensOf? {request : Request} {uri : String} (h : request.tokensOf? = some uri) :
    (∀ name held, request.textAfter name held = held) ∧
      ∀ config, request.configAfter config = config := by
  cases request with
  | tokens _ => exact ⟨fun _ _ => rfl, fun _ => rfl⟩
  | tokenChanges _ _ => exact ⟨fun _ _ => rfl, fun _ => rfl⟩
  | _ => cases h

end Request

/-- The identifier that an answer with tokens comes under. -/
def Answer.resultId? : Answer → Option String
  | .tokens found => found.resultId
  | .update change => some change.resultId
  | _ => none

/-- The answer gives an editor the next result: the edit from the base where there is one, and
otherwise all tokens. -/
inductive Answer.Gives (next : TokenResult) : Option TokenResult → Answer → Prop
  | all : Gives next none (.tokens (.ofResult next))
  | edit {base : TokenResult} {edit : Option Edit}
      (hedit : Edit.between base.data next.data TokenStream.stride = .ok edit) :
      Gives next (some base) (.update ⟨next.resultId, edit.toList.map TokensEdit.ofEdit⟩)

theorem Answer.Gives.resultId?_eq {next : TokenResult} {base : Option TokenResult} {answer : Answer}
    (h : answer.Gives next base) : answer.resultId? = some next.resultId := by
  cases h with
  | all => rfl
  | edit hedit => rfl

/-! ## Steps -/

namespace Session

/-- How a request is answered, and the session that it leaves. -/
inductive Step (s : Session) : Request → Session → Answer → Prop where
  /-- Nothing changes where the request is about no document, or about none that is open. -/
  | keeps {request : Request} {answer : Answer}
      (htext : ∀ uri held, request.textAfter uri held = held)
      (hconfig : ∀ config, request.configAfter config = config)
      (hclosed : ∀ uri, request.tokensOf? = some uri → s.texts.find? uri = none)
      (hanswer : answer.resultId? = none) : Step s request s answer
  | configures {options : Option Json} {answer : Answer} (hanswer : answer.resultId? = none) :
      Step s (.start options) { s with config := .orDefault (Config.ofOptions options) } answer
  | opens (uri text : String) :
      Step s (.openDocument uri text)
        { s with store := s.store.begin uri, texts := s.texts.set uri text } .nothing
  | changes (uri : String) {texts : List String} {text : String}
      (hlast : texts.getLast? = some text) :
      Step s (.changeDocument uri texts)
        { s with store := s.store.invalidate uri, texts := s.texts.set uri text } .nothing
  | closes (uri : String) :
      Step s (.closeDocument uri)
        { s with store := (s.store.close uri).store, texts := s.texts.erase uri } .nothing
  /-- All tokens are answered to a request for them, and to one for changes from tokens that are
  not kept. -/
  | gives {request : Request} {uri text : String} {found : Traced Analysis}
      (hrequest : request.tokensOf? = some uri)
      (hstale : ∀ previous, request.previous? = some previous → s.store.base? uri previous = none)
      (htext : s.texts.find? uri = some text) (hfound : analyze text = .ok found)
      (hroom : s.store.results < Word.doubleLimit) :
      Step s request { s with store := s.store.renewed uri found.value }
        (.tokens (.ofResult (s.store.nextResult found.value)))
  | updates {uri previous text : String} {found : Traced Analysis} {base : TokenResult}
      {edit : Option Edit} (htext : s.texts.find? uri = some text)
      (hfound : analyze text = .ok found) (hbase : s.store.base? uri previous = some base)
      (hedit : Edit.between base.data found.value.tokens TokenStream.stride = .ok edit)
      (hroom : s.store.results < Word.doubleLimit) :
      Step s (.tokenChanges uri previous) { s with store := s.store.renewed uri found.value }
        (.update ⟨(s.store.nextResult found.value).resultId, edit.toList.map TokensEdit.ofEdit⟩)
  | reports (uri : String) (items : List ReportItem) {text : String}
      (htext : s.texts.find? uri = some text) :
      Step s (.diagnostics uri) { s with store := s.store.fetched uri } (.report items)

variable {s : Session} {request : Request} {outcome : SessionOutcome}

/-- The result that changes are asked from, if it is the one that is kept of the document. -/
def kept? (s : Session) (request : Request) (uri : String) : Option TokenResult :=
  request.previous?.bind (s.store.base? uri)

/-- Where a result is found the request has named it. -/
theorem kept?_eq_some {s : Session} {request : Request} {uri : String} {base : TokenResult}
    (hrequest : request.tokensOf? = some uri) (h : s.kept? request uri = some base) :
    request = .tokenChanges uri base.resultId ∧ (s.store.state uri).last = some base := by
  cases request with
  | tokenChanges name previous =>
      cases hrequest
      obtain ⟨hlast, rfl⟩ := Store.base?_eq_some_iff.mp h
      exact ⟨rfl, hlast⟩
  | tokens name => cases h
  | _ => cases hrequest

theorem text?_eq_error_iff {uri : String} :
    (∃ error, s.text? uri = .error error) ↔ s.texts.find? uri = none := by
  unfold text?
  cases s.texts.find? uri with
  | none => exact iff_of_true ⟨_, rfl⟩ rfl
  | some held => exact iff_of_false (fun ⟨_, h⟩ => by cases h) (fun h => by cases h)

theorem text?_eq_ok_iff {uri text : String} :
    s.text? uri = .ok text ↔ s.texts.find? uri = some text := by
  unfold text?
  cases s.texts.find? uri with
  | none =>
      constructor
      · rintro ⟨⟩
      · rintro ⟨⟩
  | some held =>
      constructor
      · rintro ⟨⟩
        rfl
      · rintro ⟨⟩
        rfl

theorem start_step (s : Session) (options : Option Json) :
    Step s (.start options) (s.start options).session (s.start options).answer := by
  have hstep : ∀ answer : Answer, answer.resultId? = none → Step s (.start options)
      { s with config := .orDefault (Config.ofOptions options) } answer := fun _ h => .configures h
  unfold start
  cases hread : Config.ofOptions options with
  | ok config =>
      rw [hread] at hstep
      exact hstep _ rfl
  | error cause =>
      rw [hread] at hstep
      exact hstep _ rfl

theorem changeDocument_step (s : Session) (uri : String) (texts : List String) :
    Step s (.changeDocument uri texts) (s.changeDocument uri texts).session
      (s.changeDocument uri texts).answer := by
  unfold changeDocument
  cases hlast : texts.getLast? with
  | none =>
      -- a change without content leaves the text as it is
      refine .keeps ?_ (fun _ => rfl) (fun _ h => by cases h) rfl
      intro name held
      simp only [Request.textAfter, hlast, Option.none_or, ite_self]
  | some text => exact .changes uri hlast

theorem tokens_step {uri : String} (h : s.tokens uri = .ok outcome) :
    Step s (.tokens uri) outcome.session outcome.answer := by
  unfold tokens at h
  split at h
  · next error herror =>
    cases h
    refine .keeps (fun _ _ => rfl) (fun _ => rfl) ?_ rfl
    rintro _ ⟨⟩
    exact text?_eq_error_iff.mp ⟨error, herror⟩
  · next text htext =>
    obtain ⟨out, hout, h⟩ := Checked.bind_eq_ok_iff.mp h
    obtain ⟨_, -, h⟩ := Checked.bind_eq_ok_iff.mp h
    cases h
    obtain ⟨found, hfound, hroom, hstore, hvalue⟩ := Store.allTokens_of_ok hout
    simp only [hstore, hvalue]
    exact .gives rfl (fun _ h => by cases h) (text?_eq_ok_iff.mp htext) hfound hroom

theorem tokenChanges_step {uri previous : String} (h : s.tokenChanges uri previous = .ok outcome) :
    Step s (.tokenChanges uri previous) outcome.session outcome.answer := by
  unfold tokenChanges at h
  split at h
  · next error herror =>
    cases h
    refine .keeps (fun _ _ => rfl) (fun _ => rfl) ?_ rfl
    rintro _ ⟨⟩
    exact text?_eq_error_iff.mp ⟨error, herror⟩
  · next text htext =>
    obtain ⟨out, hout, h⟩ := Checked.bind_eq_ok_iff.mp h
    cases h
    obtain ⟨found, hfound, hroom, hstore, hvalue⟩ := Store.tokensSince_of_ok hout
    rcases hvalue with ⟨hbase, hvalue⟩ | ⟨base, edit, hbase, hedit, hvalue⟩
    · simp only [hstore, hvalue]
      refine .gives rfl ?_ (text?_eq_ok_iff.mp htext) hfound hroom
      rintro _ ⟨⟩
      exact hbase
    · simp only [hstore, hvalue]
      exact .updates (text?_eq_ok_iff.mp htext) hfound hbase hedit hroom

theorem diagnostics_step {uri : String} (h : s.diagnostics uri = .ok outcome) :
    Step s (.diagnostics uri) outcome.session outcome.answer := by
  unfold diagnostics at h
  split at h
  · cases h
    exact .keeps (fun _ _ => rfl) (fun _ => rfl) (fun _ h => by cases h) rfl
  · next text htext =>
    split at h
    · obtain ⟨out, hout, h⟩ := Checked.bind_eq_ok_iff.mp h
      cases h
      obtain ⟨hstore, -⟩ := Store.fetchDiagnostics_of_ok hout
      simp only [hstore]
      exact .reports uri _ (text?_eq_ok_iff.mp htext)
    · cases h
      exact .keeps (fun _ _ => rfl) (fun _ => rfl) (fun _ h => by cases h) rfl

/-- Whatever is answered, the session has taken a step. -/
theorem step_of_handle (h : s.handle request = .ok outcome) :
    Step s request outcome.session outcome.answer := by
  cases request with
  | start options =>
      cases h
      exact s.start_step options
  | openDocument uri text =>
      cases h
      exact .opens uri text
  | changeDocument uri texts =>
      cases h
      exact s.changeDocument_step uri texts
  | closeDocument uri =>
      cases h
      exact .closes uri
  | tokens uri => exact tokens_step h
  | tokenChanges uri previous => exact tokenChanges_step h
  | diagnostics uri => exact diagnostics_step h
  | started | stop | completion | resolve =>
      cases h
      exact .keeps (fun _ _ => rfl) (fun _ => rfl) (fun _ h => by cases h) rfl

/-! ## Texts and settings -/

namespace Step

variable {s' : Session} {answer : Answer}

/-- The texts are those that the requests hold. -/
theorem find?_texts (h : Step s request s' answer) (uri : String) :
    s'.texts.find? uri = request.textAfter uri (s.texts.find? uri) := by
  cases h with
  | keeps htext hconfig hclosed hanswer => exact (htext uri _).symm
  | configures hanswer => rfl
  | opens name text => exact Table.find?_set ..
  | changes name hlast =>
      simp only [Request.textAfter, hlast, Option.some_or]
      exact Table.find?_set ..
  | closes name => exact Table.find?_erase ..
  | gives hrequest hstale htext hfound =>
      exact ((Request.keeps_of_tokensOf? hrequest).1 uri _).symm
  | updates htext hfound hbase hedit => rfl
  | reports name items => rfl

theorem config_eq (h : Step s request s' answer) : s'.config = request.configAfter s.config := by
  cases h with
  | keeps htext hconfig hclosed hanswer => exact (hconfig _).symm
  | gives hrequest hstale htext hfound =>
      exact ((Request.keeps_of_tokensOf? hrequest).2 _).symm
  | configures hanswer => rfl
  | opens name text => rfl
  | changes name hlast => rfl
  | closes name => rfl
  | updates htext hfound hbase hedit => rfl
  | reports name items => rfl

/-- An answer comes under the next identifier or under none. -/
theorem resultId?_cases (h : Step s request s' answer) :
    answer.resultId? = some (Store.resultId s'.store.results) ∧
        s'.store.results = s.store.results + 1 ∨
      answer.resultId? = none ∧ s'.store.results = s.store.results := by
  cases h with
  | gives hrequest hstale htext hfound hroom => exact Or.inl ⟨rfl, rfl⟩
  | updates htext hfound hbase hedit hroom => exact Or.inl ⟨rfl, rfl⟩
  | keeps htext hconfig hclosed hanswer => exact Or.inr ⟨hanswer, rfl⟩
  | configures hanswer => exact Or.inr ⟨hanswer, rfl⟩
  | opens name text => exact Or.inr ⟨rfl, rfl⟩
  | changes name hlast => exact Or.inr ⟨rfl, rfl⟩
  | closes name => exact Or.inr ⟨rfl, rfl⟩
  | reports name items => exact Or.inr ⟨rfl, rfl⟩

/-- An identifier that is not answered is not used up. -/
theorem results_eq (h : Step s request s' answer) (hanswer : answer.resultId? = none) :
    s'.store.results = s.store.results := by
  rcases h.resultId?_cases with ⟨hsome, -⟩ | ⟨-, hresults⟩
  · rw [hanswer] at hsome
    cases hsome
  · exact hresults

/-- A step uses up one identifier at most. -/
theorem results_le (h : Step s request s' answer) : s'.store.results ≤ s.store.results + 1 := by
  rcases h.resultId?_cases with ⟨-, hresults⟩ | ⟨-, hresults⟩
  · exact Nat.le_of_eq hresults
  · exact Nat.le_succ_of_le (Nat.le_of_eq hresults)

/-- Where no identifier is answered the request says what is kept. -/
theorem last_eq_lastAfter (h : Step s request s' answer) (hanswer : answer.resultId? = none)
    (uri : String) :
    (s'.store.state uri).last = request.lastAfter uri (s.store.state uri).last := by
  cases h with
  | keeps htext hconfig hclosed _ => exact (Request.lastAfter_of_textAfter htext uri _).symm
  | configures _ => rfl
  | gives hrequest hstale htext hfound hroom => cases hanswer
  | updates htext hfound hbase hedit hroom => cases hanswer
  | opens name text => exact Store.last_begin ..
  | changes name hlast => exact Store.last_invalidate ..
  | closes name => exact Store.last_close ..
  | reports name items => exact Store.last_fetched ..

/-- Where no identifier is answered no tokens are kept anew. -/
theorem last_of_resultId?_eq_none (h : Step s request s' answer) (hanswer : answer.resultId? = none)
    {name : String} {kept : TokenResult} (hlast : (s'.store.state name).last = some kept) :
    (s.store.state name).last = some kept := by
  rw [h.last_eq_lastAfter hanswer] at hlast
  exact Request.of_lastAfter_eq_some hlast

/-- An identifier is answered for the tokens of an open document only. -/
theorem open_of_resultId?_eq_some (h : Step s request s' answer) {resultId : String}
    (hanswer : answer.resultId? = some resultId) :
    ∃ uri text, request.tokensOf? = some uri ∧ s.texts.find? uri = some text := by
  cases h with
  | keeps htext hconfig hclosed hnone =>
      rw [hnone] at hanswer
      cases hanswer
  | configures hnone =>
      rw [hnone] at hanswer
      cases hanswer
  | gives hrequest hstale htext hfound => exact ⟨_, _, hrequest, htext⟩
  | updates htext hfound hbase hedit => exact ⟨_, _, rfl, htext⟩
  | opens uri text => cases hanswer
  | changes uri hlast => cases hanswer
  | closes uri => cases hanswer
  | reports uri items => cases hanswer

/-- Whoever asks for the tokens of an open document renews it and is given the next result. -/
theorem gives_of_open (h : Step s request s' answer) {uri text : String}
    (hrequest : request.tokensOf? = some uri) (htext : s.texts.find? uri = some text) :
    ∃ found, analyze text = .ok found ∧ s.store.results < Word.doubleLimit ∧
      s' = { s with store := s.store.renewed uri found.value } ∧
      answer.Gives (s.store.nextResult found.value) (s.kept? request uri) := by
  cases h with
  | keeps _ _ hclosed hanswer =>
      rw [hclosed uri hrequest] at htext
      cases htext
  | @gives _ name held found hown hstale hheld hfound hroom =>
      cases hrequest.symm.trans hown
      cases htext.symm.trans hheld
      refine ⟨found, hfound, hroom, rfl, ?_⟩
      have hkept : s.kept? request uri = none := by
        rw [kept?, Option.bind_eq_none_iff]
        exact hstale
      rw [hkept]
      exact .all
  | @updates name previous held found base edit hheld hfound hbase hedit hroom =>
      cases hrequest
      cases htext.symm.trans hheld
      refine ⟨found, hfound, hroom, rfl, ?_⟩
      have hkept : s.kept? (.tokenChanges uri previous) uri = some base := hbase
      rw [hkept]
      exact .edit hedit
  | configures hanswer => cases hrequest
  | opens name text => cases hrequest
  | changes name hlast => cases hrequest
  | closes name => cases hrequest
  | reports name items => cases hrequest

/-- Whoever does not ask for tokens is given none. -/
theorem resultId?_eq_none (h : Step s request s' answer) (hrequest : request.tokensOf? = none) :
    answer.resultId? = none := by
  rw [Option.eq_none_iff_forall_ne_some]
  intro resultId hanswer
  obtain ⟨name, text, hname, -⟩ := h.open_of_resultId?_eq_some hanswer
  rw [hrequest] at hname
  cases hname

/-- A step leaves alone all documents that the request is not about. -/
theorem leaves (h : Step s request s' answer) {uri : String}
    (hother : request.document? ≠ some uri) :
    s'.texts.find? uri = s.texts.find? uri ∧
      (s'.store.state uri).last = (s.store.state uri).last := by
  obtain ⟨htext, hlast⟩ := Request.leaves_of_document?_ne hother
  refine ⟨by rw [h.find?_texts, htext], ?_⟩
  cases hanswer : answer.resultId? with
  | none => rw [h.last_eq_lastAfter hanswer, hlast]
  | some resultId =>
      obtain ⟨name, text, hrequest, hopen⟩ := h.open_of_resultId?_eq_some hanswer
      obtain ⟨found, -, -, rfl, -⟩ := h.gives_of_open hrequest hopen
      have hne : name ≠ uri := by
        rintro rfl
        exact hother (Request.document?_of_tokensOf? hrequest)
      rw [Store.last_renewed, if_neg hne]

end Step

end Session

end AsmLens
