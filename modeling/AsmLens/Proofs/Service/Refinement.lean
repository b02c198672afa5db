import Mathlib
import AsmLens.Proofs.Service.Step
import AsmLens.Proofs.Session.OpenDocuments

/-!
A service refines its session. Run side by side, a service that is given messages and a session that
is given the requests of those admitted end alike: with one session and the same results, or with
one fault (`Conversation.run_refines`). So what a service does is told by the runs of a session.
-/

namespace AsmLens

/-- Two operations that end alike: with related values, or with one fault. -/
inductive Checked.Alike {α β : Type} (R : α → β → Prop) : Checked α → Checked β → Prop where
  | ok {a : α} {b : β} (h : R a b) : Alike R (.ok a) (.ok b)
  | error (fault : Fault) : Alike R (.error fault) (.error fault)

namespace Checked.Alike

variable {α β γ δ : Type} {R : α → β → Prop} {S : γ → δ → Prop} {x : Checked α} {y : Checked β}

theorem bind {f : α → Checked γ} {g : β → Checked δ} (h : Alike R x y)
    (hnext : ∀ a b, R a b → Alike S (f a) (g b)) : Alike S (x >>= f) (y >>= g) := by
  cases h with
  | ok h => exact hnext _ _ h
  | error fault => exact .error fault

/-- What the one comes to has its counterpart. -/
theorem exists_of_left {a : α} (h : Alike R (.ok a) y) : ∃ b, y = .ok b ∧ R a b := by
  cases h with
  | ok h => exact ⟨_, rfl, h⟩

theorem exists_of_right {b : β} (h : Alike R x (.ok b)) : ∃ a, x = .ok a ∧ R a b := by
  cases h with
  | ok h => exact ⟨_, rfl, h⟩

theorem map_eq {f : α → γ} {g : β → γ} (h : Alike R x y) (hsame : ∀ a b, R a b → f a = g b) :
    x.map f = y.map g := by
  cases h with
  | ok h => exact congrArg Except.ok (hsame _ _ h)
  | error fault => rfl

end Checked.Alike

/-! ## Conversations -/

/-- A service on its way, with the messages so far and what has come back for each. -/
structure Conversation where
  service : Service := {}
  replies : List (Message × Reply) := []

namespace Conversation

/-- The conversation after one more message. -/
def next (c : Conversation) (m : Message) : Checked Conversation := do
  let outcome ← c.service.handle m
  return ⟨outcome.service, c.replies ++ [(m, outcome.reply)]⟩

/-- The conversation that messages lead to, if URIs are read like that. -/
def run (uris : UriReader) (messages : List Message) : Checked Conversation :=
  messages.foldlM next { service := { uris } }

end Conversation

/-- The messages that a result has come back for, with the identifier and the answer in it. -/
def resultsOf (replies : List (Message × Reply)) : List (Message × RequestId × Answer) :=
  replies.filterMap fun (m, reply) => reply.result?.map fun result => (m, result)

/-- What the admitted ones among messages ask for. -/
def handlerSteps (uris : UriReader) (messages : List Message) : List Request :=
  (admitted uris messages).filterMap (Message.request? uris)

/-- What is due for messages whose requests have been answered: a result for each message that has
an identifier. -/
def due (messages : List Message) (exchanges : List Exchange) :
    List (Message × RequestId × Answer) :=
  (messages.zip exchanges).filterMap fun (m, e) => m.id.map fun id => (m, id, e.answer)

/-- The phase that a service has come to with messages. -/
def phaseAfter (uris : UriReader) (messages : List Message) : Phase :=
  messages.foldl (Phase.after uris) .waiting

section

variable {uris : UriReader} {past : List Message} {m : Message}

theorem phaseAfter_concat (uris : UriReader) (past : List Message) (m : Message) :
    phaseAfter uris (past ++ [m]) = (phaseAfter uris past).after uris m := by
  rw [phaseAfter, List.foldl_append]
  rfl

theorem admitted_concat (uris : UriReader) (past : List Message) (m : Message) :
    admitted uris (past ++ [m]) =
      admitted uris past ++ if (phaseAfter uris past).Takes uris m then [m] else [] := by
  have happend : Phase.waiting.admits uris (past ++ [m]) = _ := Phase.admits_append ..
  rwa [Phase.admits_cons, Phase.admits_nil, List.append_nil] at happend

theorem admitted_concat_of_takes (h : (phaseAfter uris past).Takes uris m) :
    admitted uris (past ++ [m]) = admitted uris past ++ [m] := by
  rw [admitted_concat, if_pos h]

theorem admitted_concat_of_not_takes (h : ¬ (phaseAfter uris past).Takes uris m) :
    admitted uris (past ++ [m]) = admitted uris past := by
  rw [admitted_concat, if_neg h, List.append_nil]

theorem not_takes_of_admitted (h : admitted uris (past ++ [m]) = admitted uris past) :
    ¬ (phaseAfter uris past).Takes uris m := by
  intro htakes
  rw [admitted_concat_of_takes htakes] at h
  simp at h

theorem exists_asks_of_mem_admitted {messages : List Message} (hm : m ∈ admitted uris messages) :
    ∃ request, m.Asks uris request := by
  cases hadmitted : admitted uris messages with
  | nil =>
      rw [hadmitted] at hm
      cases hm
  | cons opening later =>
      obtain ⟨⟨options, hopens⟩, hlater⟩ := admitted_eq_cons hadmitted
      rw [hadmitted] at hm
      rcases List.mem_cons.mp hm with rfl | hm
      · exact ⟨_, hopens⟩
      · obtain ⟨request, hrequest, -⟩ := hlater m hm
        exact ⟨request, hrequest⟩

/-- Every admitted message asks for one thing, and these are the steps. -/
theorem forall₂_asks_iff (uris : UriReader) (messages : List Message) (steps : List Request) :
    List.Forall₂ (Message.Asks uris) (admitted uris messages) steps ↔
      steps = handlerSteps uris messages := by
  have hasks : ∀ m ∈ admitted uris messages, ∃ request, m.Asks uris request :=
    fun _ hm => exists_asks_of_mem_admitted hm
  rw [handlerSteps]
  generalize admitted uris messages = given at hasks
  induction given generalizing steps with
  | nil => rw [List.forall₂_nil_left_iff, List.filterMap_nil]
  | cons m more ih =>
      obtain ⟨⟨request, hrequest⟩, hmore⟩ := List.forall_mem_cons.mp hasks
      rw [List.forall₂_cons_left_iff, List.filterMap_cons_some hrequest.request?_eq]
      constructor
      · rintro ⟨first, others, hfirst, hothers, rfl⟩
        rw [hfirst.unique hrequest, (ih others hmore).mp hothers]
      · rintro rfl
        exact ⟨request, _, hrequest, (ih _ hmore).mpr rfl, rfl⟩

/-- A message that is passed on adds what it asks for to the steps. -/
theorem handlerSteps_concat_of_takes (h : (phaseAfter uris past).Takes uris m) {request : Request}
    (hasks : m.Asks uris request) :
    handlerSteps uris (past ++ [m]) = handlerSteps uris past ++ [request] := by
  rw [handlerSteps, admitted_concat_of_takes h, List.filterMap_append,
    List.filterMap_cons_some hasks.request?_eq, List.filterMap_nil, ← handlerSteps]

theorem handlerSteps_concat_of_not_takes (h : ¬ (phaseAfter uris past).Takes uris m) :
    handlerSteps uris (past ++ [m]) = handlerSteps uris past := by
  rw [handlerSteps, admitted_concat_of_not_takes h, ← handlerSteps]

end

/-! ## Side by side -/

/-- A conversation and the transcript of the requests admitted in it. -/
structure Conversation.Refines (uris : UriReader) (past : List Message) (c : Conversation)
    (t : Transcript) : Prop where
  reader : c.service.uris = uris
  phase : c.service.phase = phaseAfter uris past
  session : c.service.session = t.session
  length : t.exchanges.length = (admitted uris past).length
  results : resultsOf c.replies = due (admitted uris past) t.exchanges

theorem resultsOf_concat (replies : List (Message × Reply)) (m : Message) (reply : Reply) :
    resultsOf (replies ++ [(m, reply)]) =
      resultsOf replies ++ (reply.result?.map fun result => (m, result)).toList := by
  rw [resultsOf, List.filterMap_append]
  rfl

theorem due_concat {messages : List Message} {exchanges : List Exchange}
    (hlength : exchanges.length = messages.length) (m : Message) (e : Exchange) :
    due (messages ++ [m]) (exchanges ++ [e]) =
      due messages exchanges ++ (m.id.map fun id => (m, id, e.answer)).toList := by
  rw [due, List.zip_append hlength.symm, List.filterMap_append]
  rfl

namespace Conversation

namespace Refines

variable {uris : UriReader} {past : List Message} {c : Conversation} {t : Transcript} {m : Message}

/-- A message that is passed on is a step of the session. -/
theorem next_of_takes (h : Refines uris past c t) (htakes : (phaseAfter uris past).Takes uris m)
    {request : Request} (hasks : m.Asks uris request) :
    Checked.Alike (Refines uris (past ++ [m])) (c.next m) (t.next request) := by
  have hstep := Service.step_handle c.service m
  unfold next
  generalize c.service.handle m = answered at hstep
  cases hstep with
  | turnedAway haway _ _ =>
      rw [h.phase, h.reader] at haway
      exact absurd htakes haway
  | @served same _ hsame =>
      rw [h.reader] at hsame
      obtain rfl := hsame.unique hasks
      simp only [Service.serve, Transcript.next, h.session, bind_assoc]
      cases hdone : t.session.handle same with
      | error fault => exact .error fault
      | ok done =>
          refine .ok ⟨h.reader, ?_, rfl, ?_, ?_⟩
          · rw [phaseAfter_concat, h.phase, h.reader]
          · rw [admitted_concat_of_takes htakes, List.length_append, List.length_append, h.length]
            rfl
          · rw [resultsOf_concat, h.results, admitted_concat_of_takes htakes, due_concat h.length]
            cases m.id <;> rfl

/-- A message that is turned away is none. -/
theorem next_of_not_takes (h : Refines uris past c t)
    (htakes : ¬ (phaseAfter uris past).Takes uris m) :
    ∃ outcome, c.service.handle m = .ok outcome ∧ outcome.service.session = c.service.session ∧
      outcome.reply.result? = none ∧
      Refines uris (past ++ [m]) ⟨outcome.service, c.replies ++ [(m, outcome.reply)]⟩ t := by
  have hstep := Service.step_handle c.service m
  generalize c.service.handle m = answered at hstep
  cases hstep with
  | served hpassed _ =>
      rw [h.phase, h.reader] at hpassed
      exact absurd hpassed htakes
  | @turnedAway outcome _ hservice hreply =>
      refine ⟨outcome, rfl, by rw [hservice], hreply, ?_, ?_, ?_, ?_, ?_⟩
      · rw [hservice]
        exact h.reader
      · rw [hservice, phaseAfter_concat, h.phase, h.reader]
      · rw [hservice]
        exact h.session
      · rw [admitted_concat_of_not_takes htakes, h.length]
      · rw [resultsOf_concat, hreply, admitted_concat_of_not_takes htakes, h.results]
        exact List.append_nil _

end Refines

theorem run_concat (uris : UriReader) (past : List Message) (m : Message) :
    run uris (past ++ [m]) = run uris past >>= fun c => c.next m :=
  Checked.foldlM_concat ..

/-- Whatever messages arrive, the service and its session end alike. -/
theorem run_refines (uris : UriReader) (messages : List Message) :
    Checked.Alike (Refines uris messages) (run uris messages)
      (Transcript.run (handlerSteps uris messages)) := by
  induction messages using List.reverseRecOn with
  | nil => exact .ok ⟨rfl, rfl, rfl, rfl, rfl⟩
  | append_singleton past m ih =>
      rw [run_concat]
      by_cases htakes : (phaseAfter uris past).Takes uris m
      · obtain ⟨request, hasks⟩ := Phase.exists_asks_of_takes htakes
        rw [handlerSteps_concat_of_takes htakes hasks, Transcript.run_concat]
        exact ih.bind fun c t h => h.next_of_takes htakes hasks
      · rw [handlerSteps_concat_of_not_takes htakes,
          ← bind_pure (Transcript.run (handlerSteps uris past))]
        refine ih.bind fun c t h => ?_
        obtain ⟨outcome, houtcome, -, -, hrefines⟩ := h.next_of_not_takes htakes
        simp only [next, houtcome]
        exact .ok hrefines

/-- The documents of a service go by the normal spelling of their URIs. -/
theorem normal_of_run {uris : UriReader} {messages : List Message} {c : Conversation}
    (h : run uris messages = .ok c) {uri text : String}
    (htext : c.service.session.texts.find? uri = some text) : uris.normal? uri = some uri := by
  have hrun := run_refines uris messages
  rw [h] at hrun
  obtain ⟨t, ht, hrefines⟩ := hrun.exists_of_left
  rw [hrefines.session, Transcript.find?_texts_run ht] at htext
  obtain ⟨request, _, _, hsteps, hgives, -⟩ := heldText_eq_some_iff.mp htext
  have hmem : request ∈ handlerSteps uris messages := by
    rw [hsteps]
    simp
  obtain ⟨m, -, hread⟩ := List.mem_filterMap.mp hmem
  have hasks := Message.asks_of_request? hread
  -- the document has been given its text by a message
  cases request with
  | openDocument name new =>
      obtain ⟨rfl, -⟩ := hgives
      exact hasks.normal_of_openDocument
  | changeDocument name texts =>
      obtain ⟨rfl, -⟩ := hgives
      exact hasks.normal_of_changeDocument
  | _ => exact hgives.elim

end Conversation

/-! ## The settings -/

/-- The settings that the first of the admitted messages brings are those that are in force after
all of them. -/
theorem installedConfig_handlerSteps {uris : UriReader} {messages later : List Message}
    {opening : Message} (h : admitted uris messages = opening :: later) :
    ∃ options, opening.Asks uris (.start options) ∧
      installedConfig (handlerSteps uris messages) = .orDefault (Config.ofOptions options) := by
  obtain ⟨⟨options, hstart⟩, hlater⟩ := admitted_eq_cons h
  refine ⟨options, hstart, ?_⟩
  rw [installedConfig, handlerSteps, h, List.filterMap_cons_some hstart.request?_eq,
    List.foldl_cons]
  refine foldl_configAfter ?_ _
  intro request hrequest
  obtain ⟨m, hm, hread⟩ := List.mem_filterMap.mp hrequest
  obtain ⟨same, hsame, hother⟩ := hlater m hm
  rwa [(Message.asks_of_request? hread).unique hsame]

/-! ## The service -/

/-- Whatever messages a service is given and however URIs are read, its session is the one that what
the admitted messages ask for leads to, the results that come back are the answers to that, under
the identifiers of the messages, and if the one breaks off so does the other. What a message asks
for is told by its method and its parameters alone. A message that is not admitted gets no result
and leaves the session as it is: the texts, the store with the count of its identifiers, and the
settings. So nothing is opened before the first of the admitted messages, and the settings that come
with it stay. No service breaks off over requests whose texts can be analyzed and that identifiers
can number. -/
theorem conversation_refines (uris : UriReader) (messages : List Message) :
    (∀ steps, List.Forall₂ (Message.Asks uris) (admitted uris messages) steps ↔
      steps = handlerSteps uris messages) ∧
    (Conversation.run uris messages).map (fun c => (c.service.session, resultsOf c.replies)) =
      (Transcript.run (handlerSteps uris messages)).map
        (fun t => (t.session, due (admitted uris messages) t.exchanges)) ∧
    (∀ c m, Conversation.run uris messages = .ok c →
      admitted uris (messages ++ [m]) = admitted uris messages →
      ∃ outcome, c.service.handle m = .ok outcome ∧
        outcome.service.session = c.service.session ∧ outcome.reply.result? = none) ∧
    (∀ c, Conversation.run uris messages = .ok c →
      (admitted uris messages = [] → c.service.session = {}) ∧
      ∀ opening later, admitted uris messages = opening :: later →
        ∃ options, opening.Asks uris (.start options) ∧
          c.service.session.config = .orDefault (Config.ofOptions options)) ∧
    ((∀ request ∈ handlerSteps uris messages, request.Fits) →
      (handlerSteps uris messages).length ≤ Word.doubleLimit →
      ∃ c, Conversation.run uris messages = .ok c) := by
  have hrun := Conversation.run_refines uris messages
  have hrefines : ∀ c, Conversation.run uris messages = .ok c →
      ∃ t, Transcript.run (handlerSteps uris messages) = .ok t ∧ c.Refines uris messages t := by
    intro c hc
    rw [hc] at hrun
    exact hrun.exists_of_left
  refine ⟨forall₂_asks_iff uris messages,
    hrun.map_eq fun c t h => Prod.ext h.session h.results, ?_, ?_, ?_⟩
  · intro c m hc hturned
    obtain ⟨t, -, h⟩ := hrefines c hc
    obtain ⟨outcome, houtcome, hsession, hreply, -⟩ :=
      h.next_of_not_takes (not_takes_of_admitted hturned)
    exact ⟨outcome, houtcome, hsession, hreply⟩
  · intro c hc
    obtain ⟨t, ht, h⟩ := hrefines c hc
    constructor
    · intro hnone
      rw [handlerSteps, hnone] at ht
      cases ht
      exact h.session
    · intro opening later hadmitted
      obtain ⟨options, hstart, hconfig⟩ := installedConfig_handlerSteps hadmitted
      exact ⟨options, hstart, by rw [h.session, Transcript.config_run ht, hconfig]⟩
  · intro hfit hlength
    obtain ⟨t, ht⟩ := Transcript.exists_run hfit hlength
    rw [ht] at hrun
    obtain ⟨c, hc, -⟩ := hrun.exists_of_right
    exact ⟨c, hc⟩

/-- Reads the URI of one file, whose scheme may be in capital letters. -/
def fileUris : UriReader where
  normal? := fun spelled =>
    if spelled = "file:///a.asm" ∨ spelled = "FILE:///a.asm" then some "file:///a.asm" else none
  stable := by
    intro spelled normal h
    obtain ⟨-, hnormal⟩ := Option.ite_none_right_eq_some.mp h
    cases hnormal
    rfl

/-- A document is opened before the session and in it, the session is asked for where no URI is
given, and then twice, documents are named by two spellings and by no URI, and the session is closed
before the last request. -/
def hastyMessages : List Message :=
  let document (uri : String) : Json := .object [("textDocument", .object [("uri", .string uri)])]
  let opened : Json := .object [("textDocument", .object [("uri", .string "FILE:///a.asm"),
    ("languageId", .string "asm"), ("version", .integer 1), ("text", .string "mov")])]
  [{ method := "textDocument/didOpen", params := some opened },
    { id := some (.number 1), method := "initialize"
      params := some (.object [("capabilities", .object []), ("rootUri", .string "a")]) },
    { id := some (.number 2), method := "initialize"
      params := some (.object [("capabilities", .object []), ("rootUri", .null),
        ("initializationOptions", .object [("labelDiagnostics", .bool false)])]) },
    { id := some (.number 3), method := "initialize"
      params := some (.object [("capabilities", .object [])]) },
    { id := some (.number 4), method := "textDocument/semanticTokens/full"
      params := some (document "file:///a.asm") },
    { method := "textDocument/didOpen", params := some opened },
    { id := some (.number 5), method := "textDocument/semanticTokens/full"
      params := some (document "file:///a.asm") },
    { id := some (.number 6), method := "textDocument/semanticTokens/full"
      params := some (document "a") },
    { id := some (.number 7), method := "shutdown" },
    { id := some (.number 8), method := "textDocument/semanticTokens/full"
      params := some (document "file:///a.asm") }]

/-- Of ten messages five are admitted, the first settings stay, and there are tokens once the
document has been opened in the session. -/
theorem conversation_refines_hasty :
    (∀ request ∈ handlerSteps fileUris hastyMessages, request.Fits) ∧
      (handlerSteps fileUris hastyMessages).length ≤ Word.doubleLimit ∧
      ∃ c, Conversation.run fileUris hastyMessages = .ok c ∧
        (resultsOf c.replies).map (fun (_, id, answer) => (id, answer)) =
          [(.number 2, .welcome (.ofConfig { labelDiagnostics := false })),
            (.number 4, .tokens ⟨none, []⟩),
            (.number 5, .tokens ⟨some "1", [⟨0, 0, 3, 0, 0⟩]⟩),
            (.number 7, .nothing)] ∧
        c.service.session.texts.find? "file:///a.asm" = some "mov" ∧
        c.service.session.config = { labelDiagnostics := false } := by
  have hsteps : handlerSteps fileUris hastyMessages =
      [.start (some (.object [("labelDiagnostics", .bool false)])), .tokens "file:///a.asm",
        .openDocument "file:///a.asm" "mov", .tokens "file:///a.asm", .stop] := by rfl
  have hadmitted : admitted fileUris hastyMessages =
      [2, 4, 5, 6, 8].filterMap (hastyMessages[·]?) := by rfl
  have hfit : ∀ request ∈ handlerSteps fileUris hastyMessages, request.Fits := by
    rw [hsteps]
    decide
  have hlength : (handlerSteps fileUris hastyMessages).length ≤ Word.doubleLimit := by
    rw [hsteps]
    decide
  have hanswers : (Transcript.run (handlerSteps fileUris hastyMessages)).map (fun t =>
      ((due (admitted fileUris hastyMessages) t.exchanges).map fun (_, id, answer) => (id, answer),
        t.session.texts.find? "file:///a.asm", t.session.config)) =
      .ok ([(.number 2, .welcome (.ofConfig { labelDiagnostics := false })),
        (.number 4, .tokens ⟨none, []⟩), (.number 5, .tokens ⟨some "1", [⟨0, 0, 3, 0, 0⟩]⟩),
        (.number 7, .nothing)], some "mov", { labelDiagnostics := false }) := by
    rw [hsteps, hadmitted]
    cbv
  obtain ⟨-, hsame, -, -, hruns⟩ := conversation_refines fileUris hastyMessages
  obtain ⟨c, hc⟩ := hruns hfit hlength
  obtain ⟨t, ht⟩ := Transcript.exists_run hfit hlength
  rw [ht] at hanswers
  rw [hc, ht] at hsame
  obtain ⟨hsession, hresults⟩ := Prod.mk.inj (Except.ok.inj hsame)
  obtain ⟨hdue, hdocument, hsettings⟩ : _ ∧ _ ∧ _ := by simpa [Except.map] using hanswers
  refine ⟨hfit, hlength, c, hc, ?_, ?_, ?_⟩
  · rw [hresults]
    simpa using hdue
  · rw [hsession, hdocument]
  · rw [hsession, hsettings]

end AsmLens
