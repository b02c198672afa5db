import AsmLens.Proofs.Service.Admission

/-!
What a message does to a service. `Service.Step` has two cases: the message is passed on to the
session, which is exactly when the phase takes it, or the session is left as it is and no result
comes back (`Service.step_handle`).
-/

namespace AsmLens

/-- The result that is replied with. -/
def Reply.result? : Reply → Option (RequestId × Answer)
  | .result id answer => some (id, answer)
  | _ => Option.none

namespace Service

/-- What a message does to a service: it is passed on to the session, or the session is left as it
is and no result comes back. Either way the phase follows the message. -/
inductive Step (s : Service) (m : Message) : Checked ServiceOutcome → Prop where
  | served {request : Request} (htakes : s.phase.Takes s.uris m) (hasks : m.Asks s.uris request) :
      Step s m (({ s with phase := s.phase.after s.uris m } : Service).serve m.id request)
  | turnedAway {outcome : ServiceOutcome} (htakes : ¬ s.phase.Takes s.uris m)
      (hservice : outcome.service = { s with phase := s.phase.after s.uris m })
      (hreply : outcome.reply.result? = none) : Step s m (.ok outcome)

theorem service_refuse (s : Service) (id : Option RequestId) (reason : Refusal) :
    (s.refuse id reason).service = s := by
  cases id <;> rfl

theorem result?_refuse (s : Service) (id : Option RequestId) (reason : Refusal) :
    (s.refuse id reason).reply.result? = none := by
  cases id <;> rfl

variable {s : Service} {m : Message}

/-- A message that is not passed on may be refused. -/
theorem step_refuse (htakes : ¬ s.phase.Takes s.uris m) (hexit : m.method ≠ "exit")
    (hstop : s.phase = .running → m.method ≠ "shutdown") (id : Option RequestId)
    (reason : Refusal) : Step s m (.ok (s.refuse id reason)) := by
  refine .turnedAway htakes ?_ (result?_refuse s id reason)
  rw [service_refuse, Phase.after_eq_self htakes hexit hstop]

/-- A message that is not passed on may be passed over. -/
theorem step_ignore (htakes : ¬ s.phase.Takes s.uris m) (hexit : m.method ≠ "exit")
    (hstop : s.phase = .running → m.method ≠ "shutdown") : Step s m (.ok { service := s }) := by
  refine .turnedAway htakes ?_ rfl
  rw [Phase.after_eq_self htakes hexit hstop]

/-- A message that is passed on is served in the phase after it. -/
theorem step_serve {request : Request} {phase : Phase} (htakes : s.phase.Takes s.uris m)
    (hasks : m.Asks s.uris request) (hafter : s.phase.after s.uris m = phase) :
    Step s m (({ s with phase } : Service).serve m.id request) := by
  rw [← hafter]
  exact .served htakes hasks

theorem step_start (hphase : s.phase = .waiting) (hmethod : m.method = "initialize") :
    Step s m (s.start m) := by
  have hrequest : m.request? s.uris =
      if m.id.isSome then m.params.bind (Params.start? s.uris) else none := by
    simp [Message.request?, hmethod]
  have haway : m.request? s.uris = none → ¬ s.phase.Takes s.uris m := Phase.not_takes_of_request?
  unfold start
  split
  · next hid =>
    exact step_ignore (haway (by simp [hrequest, hid])) (by simp [hmethod]) (by simp [hphase])
  · next hid hparams =>
    exact step_refuse (haway (by simp [hrequest, hid, hparams])) (by simp [hmethod])
      (by simp [hphase]) _ _
  · next id request hid hparams =>
    have hasks : m.Asks s.uris request :=
      Message.asks_of_request? (by simp [hrequest, hid, hparams])
    obtain ⟨options, rfl⟩ : ∃ options, request = .start options := by
      obtain ⟨params, -, hread⟩ := Option.bind_eq_some_iff.mp hparams
      obtain ⟨_, -, rfl⟩ := Option.map_eq_some_iff.mp hread
      exact ⟨_, rfl⟩
    have hopens : m.Opens s.uris := ⟨options, hasks⟩
    have htakes : s.phase.Takes s.uris m := by
      rw [hphase]
      exact hopens
    rw [← hid]
    exact step_serve htakes hasks (by simp [Phase.after, hphase, hmethod, hopens])

theorem step_stop (hphase : s.phase = .running) (hmethod : m.method = "shutdown") :
    Step s m (s.stop m) := by
  have hrequest : m.request? s.uris =
      if m.id.isSome && m.params.isNone then some .stop else none := by
    simp [Message.request?, hmethod]
  have haway : m.request? s.uris = none → ¬ s.phase.Takes s.uris m := Phase.not_takes_of_request?
  have hafter : s.phase.after s.uris m = .closing := by simp [Phase.after, hphase, hmethod]
  -- the session is closed to requests, however the message is answered
  unfold stop
  dsimp only
  split
  · next hid =>
    exact .turnedAway (haway (by simp [hrequest, hid])) (by rw [hafter]) rfl
  · next id hid hparams =>
    have hasks : m.Asks s.uris .stop := Message.asks_of_request? (by simp [hrequest, hid, hparams])
    have htakes : s.phase.Takes s.uris m := by
      rw [hphase]
      exact ⟨.stop, hasks, by simp⟩
    rw [← hid]
    exact step_serve htakes hasks hafter
  · next id _ hid hparams =>
    exact .turnedAway (haway (by simp [hrequest, hparams])) (by rw [hafter]; rfl) rfl

theorem step_dispatch (hphase : s.phase = .running) {method : Method} (hexit : m.method ≠ "exit")
    (hstart : m.method ≠ "initialize") (hstop : m.method ≠ "shutdown")
    (hrequest : m.request? s.uris = method.request? s.uris m) :
    Step s m (s.dispatch method m) := by
  have hserved : ∀ request, method.request? s.uris m = some request →
      Step s m (s.serve m.id request) := by
    intro request hread
    have hasks : m.Asks s.uris request := Message.asks_of_request? (hrequest.trans hread)
    have htakes : s.phase.Takes s.uris m := by
      rw [hphase]
      refine ⟨request, hasks, ?_⟩
      rintro options rfl
      exact hstart hasks.method_eq_initialize
    exact step_serve htakes hasks (by simp [Phase.after, hphase, hexit, hstop])
  have haway : method.request? s.uris m = none → ¬ s.phase.Takes s.uris m :=
    fun hread => Phase.not_takes_of_request? (hrequest.trans hread)
  have hrefused : method.request? s.uris m = none → ∀ id reason,
      Step s m (.ok (s.refuse id reason)) :=
    fun hread => step_refuse (haway hread) hexit fun _ => hstop
  have hignored : method.request? s.uris m = none → Step s m (.ok { service := s }) :=
    fun hread => step_ignore (haway hread) hexit fun _ => hstop
  unfold dispatch
  split
  · next read hid => exact hignored (by simp [Method.request?, hid])
  · next read id hid =>
    split
    · next hparams => exact hrefused (by simp [Method.request?, hparams]) _ _
    · next request hparams =>
      rw [← hid]
      exact hserved request (by simp [Method.request?, hid, hparams])
  · next read id hid => exact hrefused (by simp [Method.request?, hid]) _ _
  · next read hid =>
    split
    · next hparams => exact hignored (by simp [Method.request?, hparams])
    · next request hparams =>
      rw [← hid]
      exact hserved request (by simp [Method.request?, hid, hparams])
  · split
    · exact hrefused rfl _ _
    · exact hrefused rfl _ _
  · exact hrefused rfl _ _

/-- What only an open session takes is refused in every other phase. -/
theorem step_whileRunning {answer : Checked ServiceOutcome} (hexit : m.method ≠ "exit")
    (hstart : m.method ≠ "initialize") (hrunning : s.phase = .running → Step s m answer) :
    Step s m (s.whileRunning m answer) := by
  have hopens : ¬ m.Opens s.uris := fun hopens => hstart hopens.method_eq
  unfold whileRunning
  split
  · next hphase => exact step_refuse (by rw [hphase]; exact hopens) hexit (by simp [hphase]) _ _
  · next hphase => exact hrunning hphase
  · next hphase => exact step_refuse (by rw [hphase]; exact id) hexit (by simp [hphase]) _ _
  · next hphase =>
    have htakes : ¬ s.phase.Takes s.uris m := by
      rw [hphase]
      exact id
    exact .turnedAway htakes (by rw [Phase.after_eq_self htakes hexit (by simp [hphase])]) rfl

theorem step_answer (s : Service) (m : Message) : Step s m (s.answer m) := by
  unfold answer
  split
  · next hmethod =>
    have htakes : ¬ s.phase.Takes s.uris m :=
      Phase.not_takes_of_request? (Message.request?_eq_none (Or.inl hmethod))
    have hafter : s.phase.after s.uris m = .ended := if_pos hmethod
    exact .turnedAway htakes (by rw [hafter]) rfl
  · next hmethod =>
    have htakes : ¬ s.phase.Takes s.uris m :=
      Phase.not_takes_of_request? (Message.request?_eq_none (Or.inr hmethod))
    exact step_refuse htakes (by simp [hmethod]) (by simp [hmethod]) _ _
  · next hmethod =>
    split
    · next hphase => exact step_start hphase hmethod
    · next hphase =>
      have htakes : ¬ s.phase.Takes s.uris m := by
        cases hs : s.phase with
        | waiting => exact absurd hs hphase
        | running => exact fun hconcerns => hconcerns.method_ne hmethod
        | closing => exact id
        | ended => exact id
      exact step_refuse htakes (by simp [hmethod]) (by simp [hmethod]) _ _
  · next hmethod =>
    exact step_whileRunning (by simp [hmethod]) (by simp [hmethod])
      fun hphase => step_stop hphase hmethod
  · next hexit _ hstart hstop =>
    have hrequest : m.request? s.uris = _ := Message.request?_of_ne hstart hstop
    split
    · next hfind =>
      rw [hfind] at hrequest
      have htakes : ¬ s.phase.Takes s.uris m := Phase.not_takes_of_request? hrequest
      unfold passOver
      split
      · exact step_ignore htakes hexit fun _ => hstop
      · exact step_refuse htakes hexit (fun _ => hstop) _ _
    · next method hfind =>
      rw [hfind] at hrequest
      exact step_whileRunning hexit hstart
        fun hphase => step_dispatch hphase hexit hstart hstop hrequest

/-- A message is passed on to the session, or it leaves the session alone. -/
theorem step_handle (s : Service) (m : Message) : Step s m (s.handle m) := by
  unfold handle
  split
  · next hended =>
    have htakes : ¬ s.phase.Takes s.uris m := by
      rw [hended]
      exact id
    have hafter : s.phase.after s.uris m = s.phase := by
      rw [hended]
      exact ite_self _
    exact .turnedAway htakes (by rw [hafter]) rfl
  · exact step_answer s m

end Service

end AsmLens
