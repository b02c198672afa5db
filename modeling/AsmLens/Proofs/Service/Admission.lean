import AsmLens.Proofs.Service.Meaning

/-!
The messages that reach a session. Which of the messages to a service are passed on to its session
is told from the messages alone (`admitted`): the first that opens the session properly, and after
it the ones that ask an open session for something, up to the first `shutdown` or `exit`. The phases
of a service follow the messages too, and what is admitted later is told by the phase that has been
reached (`Phase.admits_append`).
-/

namespace AsmLens

variable (uris : UriReader)

/-! ## Messages to a session -/

def Request.isStart : Request → Bool
  | .start _ => true
  | _ => false

theorem Request.isStart_iff {request : Request} :
    request.isStart ↔ ∃ options, request = .start options := by
  cases request <;> simp [isStart]

namespace Message

/-- The message opens a session. -/
def Opens (m : Message) : Prop := ∃ options, m.Asks uris (.start options)

/-- The message asks an open session for something. -/
def ConcernsSession (m : Message) : Prop :=
  ∃ request, m.Asks uris request ∧ ∀ options, request ≠ .start options

instance : DecidablePred (Opens uris) := fun m =>
  decidable_of_iff ((m.request? uris).any Request.isStart) <| by
    simp only [Option.any_eq_true, request?_eq_some_iff, Request.isStart_iff, Opens]
    grind

instance : DecidablePred (ConcernsSession uris) := fun m =>
  decidable_of_iff ((m.request? uris).any fun request => !request.isStart) <| by
    simp only [Option.any_eq_true, request?_eq_some_iff, Bool.not_eq_true', ConcernsSession,
      ← Bool.not_eq_true, Request.isStart_iff, not_exists]

variable {uris} {m : Message}

theorem Opens.method_eq (h : m.Opens uris) : m.method = "initialize" := by
  obtain ⟨options, h⟩ := h
  exact h.method_eq_initialize

theorem ConcernsSession.method_ne (h : m.ConcernsSession uris) : m.method ≠ "initialize" := by
  obtain ⟨request, h, hrequest⟩ := h
  exact h.method_ne_initialize hrequest

end Message

/-! ## Admission -/

/-- The messages that arrive before a service ends. -/
def beforeExit (messages : List Message) : List Message :=
  messages.takeWhile fun m => m.method ≠ "exit"

/-- The messages up to the one that closes the session, that one included. -/
def throughShutdown : List Message → List Message
  | [] => []
  | m :: more => if m.method = "shutdown" then [m] else m :: throughShutdown more

/-- What an open session is given of the messages that arrive before the service ends. -/
def served (messages : List Message) : List Message :=
  (throughShutdown messages).filter fun m => m.ConcernsSession uris

/-- The messages to a service that are passed on to its session. -/
def admitted (messages : List Message) : List Message :=
  match (beforeExit messages).dropWhile fun m => ¬ m.Opens uris with
  | [] => []
  | opening :: later => opening :: served uris later

section

variable {uris} {m : Message}

theorem beforeExit_of_exit (h : m.method = "exit") (more : List Message) :
    beforeExit (m :: more) = [] := by
  simp [beforeExit, h]

theorem beforeExit_cons (h : m.method ≠ "exit") (more : List Message) :
    beforeExit (m :: more) = m :: beforeExit more := by
  simp [beforeExit, h]

theorem served_cons (m : Message) (more : List Message) :
    served uris (m :: more) =
      (if m.ConcernsSession uris then [m] else []) ++
        if m.method = "shutdown" then [] else served uris more := by
  rw [served, throughShutdown]
  split
  · rw [List.append_nil, List.filter_cons, List.filter_nil]
    simp only [decide_eq_true_eq]
  · rw [List.filter_cons, served]
    simp only [decide_eq_true_eq]
    split <;> rfl

theorem admitted_of_exit (h : m.method = "exit") (more : List Message) :
    admitted uris (m :: more) = [] := by
  rw [admitted, beforeExit_of_exit h]
  rfl

theorem admitted_cons (h : m.method ≠ "exit") (more : List Message) :
    admitted uris (m :: more) =
      if m.Opens uris then m :: served uris (beforeExit more) else admitted uris more := by
  rw [admitted, beforeExit_cons h, List.dropWhile_cons]
  by_cases hopens : m.Opens uris
  · simp [hopens]
  · simp [hopens, admitted]

end

variable {uris} in
/-- The first of the messages that are passed on opens the session, and the others do not. -/
theorem admitted_eq_cons {messages later : List Message} {opening : Message}
    (h : admitted uris messages = opening :: later) :
    opening.Opens uris ∧ ∀ m ∈ later, m.ConcernsSession uris := by
  unfold admitted at h
  split at h
  · cases h
  · next hfound =>
    cases h
    constructor
    · have hopens := List.head?_dropWhile_not (fun m : Message => ¬ m.Opens uris)
        (beforeExit messages)
      rw [hfound] at hopens
      simpa using hopens
    · intro m hm
      simpa using (List.mem_filter.mp hm).2

namespace Phase

/-- A message that arrives in the phase is passed on. -/
def Takes (phase : Phase) (m : Message) : Prop :=
  match phase with
  | .waiting => m.Opens uris
  | .running => m.ConcernsSession uris
  | .closing => False
  | .ended => False

instance (phase : Phase) : DecidablePred (phase.Takes uris) := fun m =>
  match phase with
  | .waiting => inferInstanceAs (Decidable (m.Opens uris))
  | .running => inferInstanceAs (Decidable (m.ConcernsSession uris))
  | .closing => inferInstanceAs (Decidable False)
  | .ended => inferInstanceAs (Decidable False)

/-- The phase after a message. -/
def after (phase : Phase) (m : Message) : Phase :=
  if m.method = "exit" then .ended
  else
    match phase with
    | .waiting => if m.Opens uris then .running else .waiting
    | .running => if m.method = "shutdown" then .closing else .running
    | .closing => .closing
    | .ended => .ended

/-- The messages that are passed on of those that arrive from a phase on. -/
def admits (phase : Phase) (messages : List Message) : List Message :=
  match phase with
  | .waiting => admitted uris messages
  | .running => served uris (beforeExit messages)
  | .closing => []
  | .ended => []

variable {uris} {phase : Phase} {m : Message}

theorem exists_asks_of_takes (h : phase.Takes uris m) : ∃ request, m.Asks uris request := by
  cases phase with
  | waiting =>
      obtain ⟨options, h⟩ := h
      exact ⟨_, h⟩
  | running =>
      obtain ⟨request, h, -⟩ := h
      exact ⟨request, h⟩
  | closing => exact h.elim
  | ended => exact h.elim

theorem not_takes_of_request? (h : m.request? uris = none) : ¬ phase.Takes uris m := by
  intro htakes
  obtain ⟨request, hasks⟩ := exists_asks_of_takes htakes
  cases h.symm.trans hasks.request?_eq

/-- A message that is not passed on leaves the phase as it is, unless it closes the session or ends
the service. -/
theorem after_eq_self (htakes : ¬ phase.Takes uris m) (hexit : m.method ≠ "exit")
    (hstop : phase = .running → m.method ≠ "shutdown") : phase.after uris m = phase := by
  rw [after.eq_def, if_neg hexit]
  cases phase with
  | waiting => exact if_neg htakes
  | running => exact if_neg (hstop rfl)
  | closing => rfl
  | ended => rfl

theorem admits_nil (phase : Phase) : phase.admits uris [] = [] := by
  cases phase <;> rfl

theorem admits_cons (phase : Phase) (m : Message) (more : List Message) :
    phase.admits uris (m :: more) =
      (if phase.Takes uris m then [m] else []) ++ (phase.after uris m).admits uris more := by
  by_cases hexit : m.method = "exit"
  · have hended : phase.after uris m = .ended := if_pos hexit
    have htakes : ¬ phase.Takes uris m :=
      not_takes_of_request? (Message.request?_eq_none (Or.inl hexit))
    rw [if_neg htakes, hended]
    cases phase with
    | waiting => exact admitted_of_exit hexit more
    | running =>
        rw [admits, beforeExit_of_exit hexit]
        rfl
    | closing => rfl
    | ended => rfl
  · rw [after.eq_def, if_neg hexit]
    cases phase with
    | waiting =>
        rw [admits, admitted_cons hexit]
        by_cases hopens : m.Opens uris
        · have htakes : Phase.waiting.Takes uris m := hopens
          rw [if_pos hopens, if_pos htakes, if_pos hopens]
          rfl
        · have htakes : ¬ Phase.waiting.Takes uris m := hopens
          rw [if_neg hopens, if_neg htakes, if_neg hopens]
          rfl
    | running =>
        rw [admits, beforeExit_cons hexit, served_cons]
        by_cases hstop : m.method = "shutdown"
        · simp only [if_pos hstop]
          rfl
        · simp only [if_neg hstop]
          rfl
    | closing => rfl
    | ended => rfl

/-- What is admitted later goes on from the phase that has been reached. -/
theorem admits_append (phase : Phase) (past more : List Message) :
    phase.admits uris (past ++ more) =
      phase.admits uris past ++ (past.foldl (after uris) phase).admits uris more := by
  induction past generalizing phase with
  | nil => rw [List.nil_append, admits_nil, List.nil_append, List.foldl_nil]
  | cons m past ih =>
      rw [List.cons_append, admits_cons, ih, admits_cons, List.foldl_cons, List.append_assoc]

end Phase

end AsmLens
