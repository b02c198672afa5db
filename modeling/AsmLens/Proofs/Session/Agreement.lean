import AsmLens.Proofs.Session.FreshDiagnostics
import AsmLens.Proofs.Session.OpenDocuments

/-!
Two sessions side by side. What a session answers to requests for the tokens of a document depends
on the text of the document and on the result that is kept of it. Sessions that agree on the two, up
to a relation between the results (`Session.AgreeOn`), give the same answers up to identifiers and
agree afterwards (`Session.AgreeOn.handle`), however they differ in everything else.
-/

namespace AsmLens

open Protocol

/-! ## Requests and answers up to identifiers -/

/-- Requests that are the same but for the result that changes are asked from, where the two results
are as `P` says. -/
inductive Request.Readdressed (P : String → String → Prop) : Request → Request → Prop
  | tokenChanges (uri : String) {previous previous' : String} (h : P previous previous') :
      Readdressed P (.tokenChanges uri previous) (.tokenChanges uri previous')
  | same {request : Request} (h : request.previous? = none) : Readdressed P request request

namespace Request.Readdressed

variable {P : String → String → Prop} {request request' : Request}

theorem tokensOf?_eq (h : Readdressed P request request') :
    request'.tokensOf? = request.tokensOf? := by
  cases h with
  | tokenChanges uri h => rfl
  | same h => rfl

theorem document?_eq (h : Readdressed P request request') :
    request'.document? = request.document? := by
  cases h with
  | tokenChanges uri h => rfl
  | same h => rfl

end Request.Readdressed

/-- What is kept stays related, since either both results are dropped or neither is. -/
theorem Request.rel_lastAfter {R : TokenResult → TokenResult → Prop} {uri : String}
    {last last' : Option TokenResult} (h : Option.Rel R last last') (request : Request) :
    Option.Rel R (request.lastAfter uri last) (request.lastAfter uri last') := by
  cases request with
  | openDocument name text =>
      rw [lastAfter, lastAfter]
      split
      · exact .none
      · exact h
  | closeDocument name =>
      rw [lastAfter, lastAfter]
      split
      · exact .none
      · exact h
  | _ => exact h

namespace Answer

/-- The answer without the text of the identifier that it comes under. -/
def withoutId : Answer → Answer
  | .tokens found => .tokens { found with resultId := found.resultId.map fun _ => "" }
  | .update change => .update { change with resultId := "" }
  | answer => answer

theorem eq_of_withoutId {answer answer' : Answer} (h : answer.withoutId = answer'.withoutId)
    (hid : answer.resultId? = answer'.resultId?) : answer = answer' := by
  cases answer with
  | tokens found =>
      cases answer' with
      | tokens found' =>
          obtain ⟨resultId, data⟩ := found
          obtain ⟨resultId', data'⟩ := found'
          simp only [withoutId, resultId?, tokens.injEq, SemanticTokens.mk.injEq] at h hid ⊢
          exact ⟨hid, h.2⟩
      | _ => cases h
  | update change =>
      cases answer' with
      | update change' =>
          obtain ⟨resultId, edits⟩ := change
          obtain ⟨resultId', edits'⟩ := change'
          simp only [withoutId, resultId?, update.injEq, TokensUpdate.mk.injEq] at h hid ⊢
          exact ⟨Option.some.inj hid, h.2⟩
      | _ => cases h
  | _ =>
      cases answer' with
      | tokens found' => cases h
      | update change' => cases h
      | _ => exact h

/-- Identifiers have no part in what else is answered. -/
theorem Gives.withoutId_eq {next next' : TokenResult} {base base' : Option TokenResult}
    {answer answer' : Answer} (h : Gives next base answer) (h' : Gives next' base' answer')
    (hnext : next.data = next'.data)
    (hbase : Option.Rel (fun base base' => base.data = base'.data) base base') :
    answer.withoutId = answer'.withoutId := by
  cases hbase with
  | none =>
      cases h
      cases h'
      simp only [withoutId, SemanticTokens.ofResult, hnext, Option.map_some]
  | some hdata =>
      cases h with
      | edit hedit =>
          cases h' with
          | edit hedit' =>
              rw [hdata, hnext, hedit'] at hedit
              cases hedit
              rfl

end Answer

namespace Session

variable {s s' t t' : Session} {request request' : Request} {answer answer' : Answer}
variable {uri : String}

/-- The empty answer for the tokens of a document that is not open. -/
theorem exists_answer_of_closed {P : String → String → Prop}
    (hrequest : request.Readdressed P request') (htokens : request.tokensOf? = some uri) :
    ∃ answer : Answer, answer.resultId? = none ∧ ∀ s : Session, s.texts.find? uri = none →
      (∃ events, s.handle request = .ok { session := s, answer, events }) ∧
        ∃ events, s.handle request' = .ok { session := s, answer, events } := by
  have hclosed : ∀ s : Session, s.texts.find? uri = none → s.texts.contains uri = false := by
    intro s h
    rw [Table.contains, h]
    rfl
  cases hrequest with
  | tokenChanges name hprevious =>
      cases htokens
      exact ⟨.nothing, rfl, fun s h => ⟨⟨_, handle_tokenChanges_of_closed (hclosed s h) _⟩,
        ⟨_, handle_tokenChanges_of_closed (hclosed s h) _⟩⟩⟩
  | same hnone =>
      cases request with
      | tokens name =>
          cases htokens
          exact ⟨.tokens {}, rfl, fun s h => ⟨⟨_, handle_tokens_of_closed (hclosed s h)⟩,
            ⟨_, handle_tokens_of_closed (hclosed s h)⟩⟩⟩
      | tokenChanges name previous => cases hnone
      | _ => cases htokens

/-! ## Agreement on a document -/

/-- Results that are related by `R` have the same tokens, and requests that are related by `P` name
both of them or neither. -/
structure Matching (R : TokenResult → TokenResult → Prop) (P : String → String → Prop) : Prop where
  data_eq : ∀ {base base'}, R base base' → base.data = base'.data
  named_iff : ∀ {base base' previous previous'}, R base base' → P previous previous' →
    (base.resultId = previous ↔ base'.resultId = previous')

/-- Two sessions have the same text of a document, and the results that they keep of it are related:
either both keep one or neither does. -/
structure AgreeOn (R : TokenResult → TokenResult → Prop) (uri : String) (s s' : Session) :
    Prop where
  text : s.texts.find? uri = s'.texts.find? uri
  last : Option.Rel R (s.store.state uri).last (s'.store.state uri).last

namespace AgreeOn

variable {R R' : TokenResult → TokenResult → Prop} {P : String → String → Prop}

theorem mono (h : AgreeOn R uri s s') (hR : ∀ base base', R base base' → R' base base') :
    AgreeOn R' uri s s' := by
  refine ⟨h.text, ?_⟩
  have hlast := h.last
  generalize (s.store.state uri).last = last, (s'.store.state uri).last = last' at hlast ⊢
  cases hlast with
  | none => exact .none
  | some hrel => exact .some (hR _ _ hrel)

/-- The agreement stays where one of the sessions leaves the document alone. -/
theorem of_leaves (h : AgreeOn R uri s s') (htext : t.texts.find? uri = s.texts.find? uri)
    (hlast : (t.store.state uri).last = (s.store.state uri).last) : AgreeOn R uri t s' := by
  refine ⟨htext.trans h.text, ?_⟩
  rw [hlast]
  exact h.last

/-- The agreement stays where a request is answered that asks for no tokens. -/
theorem step (h : AgreeOn R uri s s') (hs : Step s request t answer)
    (hs' : Step s' request t' answer') (hanswer : answer.resultId? = none)
    (hanswer' : answer'.resultId? = none) : AgreeOn R uri t t' := by
  constructor
  · rw [hs.find?_texts, hs'.find?_texts, h.text]
  · rw [hs.last_eq_lastAfter hanswer, hs'.last_eq_lastAfter hanswer']
    exact Request.rel_lastAfter h.last request

/-- The agreement stays where a document is renewed in both sessions after the same analysis. -/
theorem renewed (h : AgreeOn R uri s s') (name : String) {found : Analysis}
    (hnext : R (s.store.nextResult found) (s'.store.nextResult found)) :
    AgreeOn R uri { s with store := s.store.renewed name found }
      { s' with store := s'.store.renewed name found } := by
  refine ⟨h.text, ?_⟩
  rw [Store.last_renewed, Store.last_renewed]
  split
  · exact .some hnext
  · exact h.last

/-- Requests that name related results ask for changes from related results, or from none. -/
theorem kept (h : AgreeOn R uri s s') (hmatch : Matching R P)
    (hrequest : request.Readdressed P request') :
    Option.Rel (fun base base' => base.data = base'.data) (s.kept? request uri)
      (s'.kept? request' uri) := by
  have hlast := h.last
  cases hrequest with
  | same hnone =>
      rw [kept?, kept?, hnone]
      exact .none
  | tokenChanges name hprevious =>
      show Option.Rel _ ((s.store.state uri).last.filter _) ((s'.store.state uri).last.filter _)
      generalize (s.store.state uri).last = last, (s'.store.state uri).last = last' at hlast ⊢
      cases hlast with
      | none => exact .none
      | @some base base' hrel =>
          have hiff := hmatch.named_iff hrel hprevious
          rw [Option.filter_some, Option.filter_some]
          simp only [decide_eq_true_eq, hiff]
          split
          · exact .some (hmatch.data_eq hrel)
          · exact .none

/-- Two sessions that agree on a document give the same tokens of it, up to identifiers. Either the
document is not open and nothing happens, or it is renewed in both after the same analysis. -/
theorem handle (h : AgreeOn R uri s s') (hmatch : Matching R P)
    (hrequest : request.Readdressed P request') (htokens : request.tokensOf? = some uri)
    (hresults : s'.store.results ≤ s.store.results) {outcome : SessionOutcome}
    (hhandle : s.handle request = .ok outcome) :
    ∃ outcome', s'.handle request' = .ok outcome' ∧
      outcome.answer.withoutId = outcome'.answer.withoutId ∧
      (outcome.session = s ∧ outcome'.session = s' ∧ outcome.answer.resultId? = none ∧
          outcome'.answer.resultId? = none ∨
        ∃ found, outcome.session = { s with store := s.store.renewed uri found } ∧
          outcome'.session = { s' with store := s'.store.renewed uri found } ∧
          outcome.answer.resultId? = some (s.store.nextResult found).resultId ∧
          outcome'.answer.resultId? = some (s'.store.nextResult found).resultId) := by
  have htokens' : request'.tokensOf? = some uri := hrequest.tokensOf?_eq.trans htokens
  cases htext : s.texts.find? uri with
  | none =>
      have htext' : s'.texts.find? uri = none := h.text.symm.trans htext
      obtain ⟨answer, hanswer, hempty⟩ := exists_answer_of_closed hrequest htokens
      obtain ⟨events, hclosed⟩ := (hempty s htext).1
      obtain ⟨events', hclosed'⟩ := (hempty s' htext').2
      cases hhandle.symm.trans hclosed
      exact ⟨_, hclosed', rfl, Or.inl ⟨rfl, rfl, hanswer, hanswer⟩⟩
  | some text =>
      have htext' : s'.texts.find? uri = some text := h.text.symm.trans htext
      obtain ⟨found, hfound, hroom, hsession, hgives⟩ :=
        (step_of_handle hhandle).gives_of_open htokens htext
      obtain ⟨outcome', houtcome'⟩ :=
        handle_tokensOf?_total htokens' htext' hfound (Nat.lt_of_le_of_lt hresults hroom)
      obtain ⟨found', hfound', -, hsession', hgives'⟩ :=
        (step_of_handle houtcome').gives_of_open htokens' htext'
      cases hfound.symm.trans hfound'
      exact ⟨outcome', houtcome', hgives.withoutId_eq hgives' rfl (h.kept hmatch hrequest),
        Or.inr ⟨found.value, hsession, hsession', hgives.resultId?_eq, hgives'.resultId?_eq⟩⟩

end AgreeOn

end Session

end AsmLens
