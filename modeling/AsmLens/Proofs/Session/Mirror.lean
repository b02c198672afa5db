import AsmLens.Proofs.Session.Run

/-!
The arrays that an editor holds. An editor records the integers of each answer under the answer's
identifier; where the answer is an update, it makes the edits to the array that it has recorded
under the identifier it has sent. Offsets reach the editor as words, clamped where they are larger,
so that an array is what it should be unless an offset beyond the words is among those that led to
it (`Recording.exact`). What the offsets have been before only the session knows, so that the two
are looked at side by side (`Dialogue`).
-/

namespace AsmLens

open Protocol

/-! ## Recordings -/

/-- The integers of an answer as the editor keeps them. -/
structure Recording where
  uri : String
  resultId : String
  data : List Nat
  /-- Whether every offset of the edits that led to the array is a word, so that none has been
  clamped. -/
  exact : Bool
  deriving DecidableEq, Repr

namespace Protocol.TokensEdit

/-- An array with an edit made to it. -/
def splice (base : List Nat) (edit : TokensEdit) : List Nat :=
  base.take edit.start ++ flatten (edit.data.getD []) ++ base.drop (edit.start + edit.deleteCount)

end Protocol.TokensEdit

/-- Whether both offsets of an edit are words. -/
def Edit.inWords (edit : Edit) : Bool := edit.start ≤ Word.limit && edit.deleteCount ≤ Word.limit

/-- The edit by which a session answers a request, with its offsets as they are: the one between the
tokens that are kept under the identifier that is sent and those of the text. -/
def Session.edit? (s : Session) : Request → Option Edit
  | .tokenChanges uri previous => do
      let text ← s.texts.find? uri
      let found ← (analyze text).toOption
      let kept ← s.store.base? uri previous
      (Edit.between kept.data found.value.tokens TokenStream.stride).toOption.join
  | _ => none

/-- What an editor has recorded, the latest first. -/
structure Mirror where
  recordings : List Recording := []

namespace Mirror

/-- What is recorded for a document under an identifier. -/
def find? (m : Mirror) (uri resultId : String) : Option Recording :=
  m.recordings.find? fun r => r.uri = uri ∧ r.resultId = resultId

/-- What the editor makes of an answer: the array that comes with it, or an earlier array with the
edits made to it. The edit as it was found tells whether the array can be trusted, and nothing
else. -/
def received (m : Mirror) (exchange : Exchange) (edit : Option Edit) : Option Recording := do
  let uri ← exchange.request.tokensOf?
  match exchange.answer with
  | .tokens found =>
      let resultId ← found.resultId
      return ⟨uri, resultId, flatten found.data, true⟩
  | .update change =>
      let previous ← exchange.request.previous?
      let base ← m.find? uri previous
      return ⟨uri, change.resultId, change.edits.foldl TokensEdit.splice base.data,
        base.exact && edit.all Edit.inWords⟩
  | _ => none

/-- The recordings after one more answer. -/
def observe (m : Mirror) (exchange : Exchange) (edit : Option Edit) : Mirror :=
  ⟨(m.received exchange edit).toList ++ m.recordings⟩

/-- A word can tell how many integers any array has that is recorded for a document. -/
def Within (m : Mirror) (uri : String) : Prop :=
  ∀ r ∈ m.recordings, r.uri = uri → r.data.length ≤ Word.limit

variable {m : Mirror} {r : Recording} {uri : String} {edit : Option Edit}

theorem observe_of_received {exchange : Exchange} (h : m.received exchange edit = some r) :
    m.observe exchange edit = ⟨r :: m.recordings⟩ := by
  rw [observe, h]
  rfl

/-- An answer without an identifier is not recorded. -/
theorem observe_of_resultId?_eq_none {exchange : Exchange}
    (h : exchange.answer.resultId? = none) (edit : Option Edit) : m.observe exchange edit = m := by
  have hnone : m.received exchange edit = none := by
    unfold received
    cases exchange.request.tokensOf? with
    | none => rfl
    | some uri =>
        cases hanswer : exchange.answer with
        | tokens found =>
            rw [hanswer] at h
            have hid : found.resultId = none := h
            simp only [hid]
            rfl
        | update change =>
            rw [hanswer] at h
            cases h
        | _ => rfl
  rw [observe, hnone]
  rfl

theorem find?_cons_self (m : Mirror) (r : Recording) :
    find? ⟨r :: m.recordings⟩ r.uri r.resultId = some r :=
  List.find?_cons_of_pos (decide_eq_true ⟨rfl, rfl⟩)

theorem find?_cons_of_ne (m : Mirror) (h : r.uri ≠ uri) (resultId : String) :
    find? ⟨r :: m.recordings⟩ uri resultId = m.find? uri resultId := by
  refine List.find?_cons_of_neg ?_
  rw [decide_eq_true_eq]
  exact fun heq => h heq.1

theorem Within.of_cons (h : Within ⟨r :: m.recordings⟩ uri) : m.Within uri := by
  intro other hmem
  exact h other (List.mem_cons_of_mem r hmem)

/-- The array that is found is one of those recorded. -/
theorem Within.length_le (h : m.Within uri) {resultId : String}
    (hfind : m.find? uri resultId = some r) : r.data.length ≤ Word.limit := by
  have huri := List.find?_some hfind
  rw [decide_eq_true_eq] at huri
  exact h r (List.mem_of_find?_eq_some hfind) huri.1

end Mirror

/-- A session and the editor that it answers. -/
structure Dialogue where
  session : Session := {}
  mirror : Mirror := {}

namespace Dialogue

/-- The two after one more request. -/
def next (d : Dialogue) (request : Request) : Checked Dialogue := do
  let outcome ← d.session.handle request
  return ⟨outcome.session, d.mirror.observe ⟨request, outcome.answer⟩ (d.session.edit? request)⟩

/-- The two after a run of requests. -/
def run (requests : List Request) : Checked Dialogue := requests.foldlM next {}

theorem run_concat_eq_ok_iff {past : List Request} {request : Request} {d : Dialogue} :
    run (past ++ [request]) = .ok d ↔
      ∃ before outcome, run past = .ok before ∧ before.session.handle request = .ok outcome ∧
        d = ⟨outcome.session, before.mirror.observe ⟨request, outcome.answer⟩
          (before.session.edit? request)⟩ := by
  rw [run, Checked.foldlM_concat_eq_ok_iff]
  constructor
  · rintro ⟨before, hbefore, hnext⟩
    obtain ⟨outcome, houtcome, hd⟩ := Checked.bind_eq_ok_iff.mp hnext
    exact ⟨before, outcome, hbefore, houtcome, (Except.ok.inj hd).symm⟩
  · rintro ⟨before, outcome, hbefore, houtcome, rfl⟩
    exact ⟨before, hbefore, Checked.bind_eq_ok_iff.mpr ⟨outcome, houtcome, rfl⟩⟩

/-- The editor changes nothing about the session. -/
theorem exists_run_iff {requests : List Request} {s : Session} :
    (∃ d, run requests = .ok d ∧ d.session = s) ↔
      ∃ t, Transcript.run requests = .ok t ∧ t.session = s := by
  induction requests using List.reverseRecOn generalizing s with
  | nil =>
      constructor
      · rintro ⟨_, ⟨⟩, rfl⟩
        exact ⟨_, rfl, rfl⟩
      · rintro ⟨_, ⟨⟩, rfl⟩
        exact ⟨_, rfl, rfl⟩
  | append_singleton past request ih =>
      constructor
      · rintro ⟨d, hd, rfl⟩
        obtain ⟨before, outcome, hbefore, houtcome, rfl⟩ := run_concat_eq_ok_iff.mp hd
        obtain ⟨t, ht, hsame⟩ := ih.mp ⟨before, hbefore, rfl⟩
        rw [← hsame] at houtcome
        exact ⟨_, Transcript.run_concat_eq_ok_iff.mpr ⟨t, outcome, ht, houtcome, rfl⟩, rfl⟩
      · rintro ⟨t, ht, rfl⟩
        obtain ⟨before, outcome, hbefore, houtcome, rfl⟩ := Transcript.run_concat_eq_ok_iff.mp ht
        obtain ⟨d, hd, hsame⟩ := ih.mpr ⟨before, hbefore, rfl⟩
        rw [← hsame] at houtcome
        exact ⟨_, run_concat_eq_ok_iff.mpr ⟨d, outcome, hd, houtcome, rfl⟩, rfl⟩

/-- A run goes through, and one request more, if the texts can be analyzed and identifiers can
number the requests. -/
theorem exists_run_of_fits {requests : List Request} {request : Request}
    (hfit : ∀ r ∈ requests ++ [request], r.Fits)
    (hlength : (requests ++ [request]).length ≤ Word.doubleLimit) :
    ∃ d outcome, run requests = .ok d ∧ d.session.handle request = .ok outcome := by
  obtain ⟨t, ht⟩ := Transcript.exists_run hfit hlength
  obtain ⟨d, hd, -⟩ := exists_run_iff.mpr ⟨t, ht, rfl⟩
  obtain ⟨before, outcome, hbefore, houtcome, -⟩ := run_concat_eq_ok_iff.mp hd
  exact ⟨before, outcome, hbefore, houtcome⟩

theorem find?_texts_run {requests : List Request} {d : Dialogue} (h : run requests = .ok d)
    (uri : String) : d.session.texts.find? uri = heldText uri requests := by
  obtain ⟨t, ht, hsame⟩ := exists_run_iff.mp ⟨d, h, rfl⟩
  rw [← hsame, Transcript.find?_texts_run ht]

end Dialogue

/-! ## Edits on the way -/

namespace Edit

variable {base copy : List Nat} {edit : Edit}

/-- No integer is lost when the data of an edit of whole tuples is regrouped. -/
theorem flatten_data_ofEdit (h : TokenStream.stride ∣ edit.data.length) :
    flatten ((TokensEdit.ofEdit edit).data.getD []) = edit.data := by
  obtain ⟨n, hn⟩ := h
  show flatten ((if edit.data.isEmpty then none else some (regroup edit.data)).getD []) = _
  split
  · next hempty => exact (List.isEmpty_iff.mp hempty).symm
  · exact flatten_regroup hn

/-- Clamping moves an edit no further to the back. -/
theorem ofEdit_inside {n : Nat} (h : edit.start + edit.deleteCount ≤ n) :
    (TokensEdit.ofEdit edit).start + (TokensEdit.ofEdit edit).deleteCount ≤ n := by
  have hstart : (TokensEdit.ofEdit edit).start ≤ edit.start := Nat.min_le_left ..
  have hdelete : (TokensEdit.ofEdit edit).deleteCount ≤ edit.deleteCount := Nat.min_le_left ..
  omega

/-- No array is cut short: the editor takes out no more than the edit does. -/
theorem length_le_splice_ofEdit (hcopy : edit.start + edit.deleteCount ≤ copy.length)
    (hdata : TokenStream.stride ∣ edit.data.length) :
    copy.length + edit.data.length ≤
      ((TokensEdit.ofEdit edit).splice copy).length + edit.deleteCount := by
  have hinside := ofEdit_inside hcopy
  have hdelete : (TokensEdit.ofEdit edit).deleteCount ≤ edit.deleteCount := Nat.min_le_left ..
  simp only [TokensEdit.splice, flatten_data_ofEdit hdata, List.length_append, List.length_take,
    List.length_drop]
  omega

/-- Words are not clamped, so the editor makes the edit as it is. -/
theorem splice_ofEdit (hwords : edit.inWords) (hdata : TokenStream.stride ∣ edit.data.length) :
    (TokensEdit.ofEdit edit).splice base =
      base.take edit.start ++ edit.data ++ base.drop (edit.start + edit.deleteCount) := by
  rw [inWords, Bool.and_eq_true, decide_eq_true_iff, decide_eq_true_iff] at hwords
  have hstart : (TokensEdit.ofEdit edit).start = edit.start := Word.clamp_of_le hwords.1
  have hdelete : (TokensEdit.ofEdit edit).deleteCount = edit.deleteCount :=
    Word.clamp_of_le hwords.2
  rw [TokensEdit.splice, hstart, hdelete, flatten_data_ofEdit hdata]

end Edit

/-! ## The change of an array -/

section

variable {base current copy : List Nat} {edit : Option Edit}
  (hbetween : Edit.between base current TokenStream.stride = .ok edit)
  (hbase : TokenStream.stride ∣ base.length) (hcurrent : TokenStream.stride ∣ current.length)

include hbetween hbase hcurrent

/-- What the edit between two streams inserts comes through whole, and it lies inside every array
that is as long as the first of them. -/
theorem ofEdit_of_between (hcopy : base.length ≤ copy.length) :
    ∀ e ∈ edit.toList, flatten ((TokensEdit.ofEdit e).data.getD []) = e.data ∧
      (TokensEdit.ofEdit e).start + (TokensEdit.ofEdit e).deleteCount ≤ copy.length := by
  intro e he
  rw [Option.mem_toList] at he
  subst he
  obtain ⟨hinside, -⟩ := Edit.apply_between (by decide) hbetween
  obtain ⟨-, -, hdata⟩ := Edit.stride_dvd_between (by decide) hbetween hbase hcurrent
  exact ⟨Edit.flatten_data_ofEdit hdata, Edit.ofEdit_inside (Nat.le_trans hinside hcopy)⟩

/-- However long the streams are, the array that comes out is as long as the second one. -/
theorem length_le_splice_of_between (hcopy : base.length ≤ copy.length) :
    current.length ≤
      ((edit.toList.map TokensEdit.ofEdit).foldl TokensEdit.splice copy).length := by
  cases edit with
  | none =>
      rw [← Edit.eq_of_between_eq_none (by decide) hbetween]
      exact hcopy
  | some e =>
      obtain ⟨hinside, happly⟩ := Edit.apply_between (by decide) hbetween
      obtain ⟨-, -, hdata⟩ := Edit.stride_dvd_between (by decide) hbetween hbase hcurrent
      have hlength := Edit.length_le_splice_ofEdit (Nat.le_trans hinside hcopy) hdata
      have hcurrentLength := congrArg List.length happly
      simp only [List.length_append, List.length_take, List.length_drop] at hcurrentLength
      show current.length ≤ ((TokensEdit.ofEdit e).splice copy).length
      omega

/-- Where no offset has been clamped, the array that comes out of the first stream is the second. -/
theorem splice_of_between (hwords : edit.all Edit.inWords) :
    (edit.toList.map TokensEdit.ofEdit).foldl TokensEdit.splice base = current := by
  cases edit with
  | none => exact Edit.eq_of_between_eq_none (by decide) hbetween
  | some e =>
      obtain ⟨-, happly⟩ := Edit.apply_between (by decide) hbetween
      obtain ⟨-, -, hdata⟩ := Edit.stride_dvd_between (by decide) hbetween hbase hcurrent
      show (TokensEdit.ofEdit e).splice base = current
      rw [Edit.splice_ofEdit hwords hdata]
      exact happly

end

/-- The offsets of an edit of a stream that is not too long are words. -/
theorem inWords_of_between {base current : List Nat} {edit : Option Edit}
    (hbetween : Edit.between base current TokenStream.stride = .ok edit)
    (hlimit : base.length ≤ Word.limit) : edit.all Edit.inWords := by
  cases edit with
  | none => rfl
  | some e =>
      obtain ⟨hinside, -⟩ := Edit.apply_between (by decide) hbetween
      rw [Option.all_some, Edit.inWords, Bool.and_eq_true, decide_eq_true_iff, decide_eq_true_iff]
      omega

end AsmLens
