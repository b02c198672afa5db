import AsmLens.Proofs.History
import AsmLens.Proofs.Session.Run

/-!
Which documents are open, and with which text. The session keeps a table of texts beside the store,
and the two have the same documents after any run (`Session.Tracks`): they are changed together, and
no request reaches the store for a document without a text. The text of a document is the one that
is in force after the requests so far (`heldText_eq_some_iff`).
-/

namespace AsmLens

open Protocol

/-! ## The text in force -/

namespace Request

/-- The request gives the document this text: it opens the document with it, or it is the last of
the changes that the request brings. -/
def GivesText (uri text : String) : Request → Prop
  | .openDocument name new => name = uri ∧ new = text
  | .changeDocument name texts => name = uri ∧ texts.getLast? = some text
  | _ => False

/-- The request neither gives the document a text nor closes it. -/
def LeavesText (uri : String) : Request → Prop
  | .openDocument name _ => name ≠ uri
  | .changeDocument name texts => name = uri → texts = []
  | .closeDocument name => name ≠ uri
  | _ => True

theorem textAfter_eq_some_iff {uri text : String} {held : Option String} {request : Request} :
    request.textAfter uri held = some text ↔
      request.GivesText uri text ∨ held = some text ∧ request.LeavesText uri := by
  cases request with
  | openDocument name new => by_cases h : name = uri <;> simp [textAfter, GivesText, LeavesText, h]
  | changeDocument name texts =>
      by_cases h : name = uri
      · cases hlast : texts.getLast? with
        | none =>
            simp [textAfter, GivesText, LeavesText, h, List.getLast?_eq_none_iff.mp hlast]
        | some new =>
            have hne : texts ≠ [] := by
              rintro rfl
              cases hlast
            simp [textAfter, GivesText, LeavesText, h, hlast, hne]
      · simp [textAfter, GivesText, LeavesText, h]
  | closeDocument name => by_cases h : name = uri <;> simp [textAfter, GivesText, LeavesText, h]
  | _ => simp [textAfter, GivesText, LeavesText]

end Request

/-- The text that is held of a document is the latest that it has been given, unless the document
has been closed since. -/
theorem heldText_eq_some_iff {uri text : String} {requests : List Request} :
    heldText uri requests = some text ↔
      ∃ request,
        InForce (Request.GivesText uri text) (Request.LeavesText uri) requests request := by
  induction requests using List.reverseRecOn with
  | nil =>
      refine iff_of_false (fun h => by cases h) ?_
      rintro ⟨request, h⟩
      exact not_inForce_nil h
  | append_singleton past request ih =>
      rw [heldText_concat, Request.textAfter_eq_some_iff, ih]
      simp only [inForce_concat_iff]
      constructor
      · rintro (hgives | ⟨⟨earlier, hearlier⟩, hleaves⟩)
        · exact ⟨request, Or.inl ⟨rfl, hgives⟩⟩
        · exact ⟨earlier, Or.inr ⟨hearlier, hleaves⟩⟩
      · rintro ⟨earlier, ⟨-, hgives⟩ | ⟨hearlier, hleaves⟩⟩
        · exact Or.inl hgives
        · exact Or.inr ⟨⟨earlier, hearlier⟩, hleaves⟩

/-! ## The two tables -/

namespace Session

variable {s s' : Session} {request : Request} {answer : Answer} {uri text : String}

/-- The store has the documents whose texts are held. -/
def Tracks (s : Session) : Prop := ∀ uri, s.store.contains uri = s.texts.contains uri

theorem tracks_empty : Tracks {} := fun _ => rfl

/-- What is remembered of an open document may change as it likes. -/
theorem Tracks.of_open (hs : s.Tracks) (htext : s.texts.find? uri = some text) {store : Store}
    (hstore : ∀ name, store.contains name = (uri = name || s.store.contains name)) :
    Tracks { s with store } := by
  intro name
  rw [hstore, hs name]
  by_cases h : uri = name
  · subst h
    simp [Table.contains, htext]
  · simp [h]

theorem Step.tracks (h : Step s request s' answer) (hs : s.Tracks) : s'.Tracks := by
  cases h with
  | keeps htext hconfig hclosed hanswer => exact hs
  | configures hanswer => exact hs
  | gives hrequest hstale htext hfound hroom =>
      exact hs.of_open htext (Store.contains_renewed _ _ _)
  | updates htext hfound hbase hedit hroom =>
      exact hs.of_open htext (Store.contains_renewed _ _ _)
  | reports uri items htext => exact hs.of_open htext (Store.contains_fetched _ _)
  -- where a text comes or goes, both tables are changed
  | opens uri text =>
      intro name
      rw [Store.contains_begin, Table.contains_set, hs name]
  | changes uri hlast =>
      intro name
      rw [Store.contains_invalidate, Table.contains_set, hs name]
  | closes uri =>
      intro name
      rw [Store.contains_close, Table.contains_erase, hs name]

theorem tracks_run {requests : List Request} {t : Transcript}
    (h : Transcript.run requests = .ok t) : t.session.Tracks :=
  Transcript.run_induction (motive := fun _ t => t.session.Tracks) tracks_empty
    (fun _ _ _ _ _ ih hstep => hstep.tracks ih) h

/-! ## Documents that are not open -/

theorem text?_of_closed (h : s.texts.contains uri = false) :
    s.text? uri = .error (.documentNotFound uri) := by
  rw [Table.contains, Option.isSome_eq_false_iff, Option.isNone_iff_eq_none] at h
  rw [text?, h]

theorem handle_tokens_of_closed (h : s.texts.contains uri = false) :
    s.handle (.tokens uri) =
      .ok { session := s, answer := .tokens {}
            events := [.unknownDocument .tokens (.documentNotFound uri)] } := by
  simp only [handle, tokens, text?_of_closed h]

theorem handle_tokenChanges_of_closed (h : s.texts.contains uri = false) (previous : String) :
    s.handle (.tokenChanges uri previous) =
      .ok { session := s
            events := [.unknownDocument .tokenChanges (.documentNotFound uri)] } := by
  simp only [handle, tokenChanges, text?_of_closed h]

theorem handle_diagnostics_of_closed (h : s.texts.contains uri = false) :
    s.handle (.diagnostics uri) =
      .ok { session := s, answer := .report []
            events := [.unknownDocument .diagnostics (.documentNotFound uri)] } := by
  simp only [handle, diagnostics, text?_of_closed h]

end Session

/-- After any requests whatsoever the store has the documents whose texts are held, and the text
held of a document is the latest that it has been given, unless it has been closed since. A request
for the tokens, for changes or for the diagnostics of any other document gets an empty answer and
leaves the session as it is, and so does a change without content. Runs whose texts are not too
large go through. -/
theorem openDocuments_run (requests : List Request) :
    ((∀ r ∈ requests, r.Fits) → requests.length ≤ Word.doubleLimit →
      ∃ t, Transcript.run requests = .ok t) ∧
    ∀ t, Transcript.run requests = .ok t →
      (∀ uri, t.session.store.contains uri = t.session.texts.contains uri) ∧
      (∀ uri text, t.session.texts.find? uri = some text ↔
        ∃ request, InForce (Request.GivesText uri text) (Request.LeavesText uri) requests request) ∧
      (∀ uri, t.session.texts.contains uri = false →
        (∃ events, t.session.handle (.tokens uri) =
          .ok { session := t.session, answer := .tokens ⟨none, []⟩, events }) ∧
        (∀ previous, ∃ events, t.session.handle (.tokenChanges uri previous) =
          .ok { session := t.session, answer := .nothing, events }) ∧
        ∃ events, t.session.handle (.diagnostics uri) =
          .ok { session := t.session, answer := .report [], events }) ∧
      ∀ uri, t.session.handle (.changeDocument uri []) =
        .ok { session := t.session, answer := .nothing } := by
  refine ⟨Transcript.exists_run, ?_⟩
  intro t hrun
  refine ⟨Session.tracks_run hrun, ?_, ?_, fun uri => rfl⟩
  · intro uri text
    rw [Transcript.find?_texts_run hrun, heldText_eq_some_iff]
  · intro uri hclosed
    exact ⟨⟨_, Session.handle_tokens_of_closed hclosed⟩,
      fun previous => ⟨_, Session.handle_tokenChanges_of_closed hclosed previous⟩,
      ⟨_, Session.handle_diagnostics_of_closed hclosed⟩⟩

/-- A document that is closed after it has been looked at, and one that is changed though it has
never been opened. -/
theorem openDocuments_run_neverOpened :
    ∃ t, Transcript.run [.openDocument "a" "x:", .tokens "a", .changeDocument "b" ["", "y"],
        .closeDocument "a", .changeDocument "b" []] = .ok t ∧
      t.session.texts.find? "b" = some "y" ∧ t.session.store.contains "b" = true ∧
      t.session.texts.contains "a" = false ∧ t.session.store.contains "a" = false ∧
      ∃ events, t.session.handle (.tokens "a") =
        .ok { session := t.session, answer := .tokens ⟨none, []⟩, events } := by
  obtain ⟨htotal, hall⟩ := openDocuments_run [.openDocument "a" "x:", .tokens "a",
    .changeDocument "b" ["", "y"], .closeDocument "a", .changeDocument "b" []]
  have hfit : ∀ r ∈ [.openDocument "a" "x:", .tokens "a", .changeDocument "b" ["", "y"],
      .closeDocument "a", .changeDocument "b" []], Request.Fits r := by decide
  obtain ⟨t, hrun⟩ := htotal hfit (by decide)
  obtain ⟨htracks, htexts, hclosed, -⟩ := hall t hrun
  have hb : t.session.texts.find? "b" = some "y" :=
    (htexts "b" "y").mpr ⟨.changeDocument "b" ["", "y"], [.openDocument "a" "x:", .tokens "a"],
      [.closeDocument "a", .changeDocument "b" []], rfl, ⟨rfl, rfl⟩, by simp [Request.LeavesText]⟩
  have ha : t.session.texts.contains "a" = false := by
    rw [Table.contains, Transcript.find?_texts_run hrun]
    rfl
  refine ⟨t, hrun, hb, ?_, ha, ?_, (hclosed "a" ha).1⟩
  · rw [htracks, Table.contains, hb]
    rfl
  · rw [htracks, ha]

end AsmLens
