import AsmLens.Proofs.Analysis.Totality
import AsmLens.Proofs.TokenStream.Splice
import AsmLens.Store
import Mathlib.Data.List.Nodup

/-!
What the operations of the store do. Whoever asks for tokens, all of them or a change, has the text
analyzed and the document renewed: its tokens stand under the next identifier and its diagnostics
wait (`Store.renewed`). The other operations only take away from what is remembered.
-/

namespace AsmLens

/-- What is logged when a document is analyzed. -/
def documentEvents (uri : String) (found : Traced Analysis) : List Event :=
  found.events ++ [.declaredLabels uri found.value.labels]

/-- The analysis of a document is that of its text. -/
theorem analyzeDocument_eq_ok_iff {uri text : String} {out : Traced Analysis} :
    analyzeDocument uri text = .ok out ↔
      ∃ found, analyze text = .ok found ∧
        out = { found with events := documentEvents uri found } := by
  rw [analyzeDocument, Checked.bind_eq_ok_iff]
  constructor
  · rintro ⟨found, hfound, hout⟩
    exact ⟨found, hfound, (Except.ok.inj hout).symm⟩
  · rintro ⟨found, hfound, rfl⟩
    exact ⟨found, hfound, rfl⟩

namespace Store

variable {s : Store} {uri text : String} {found : Traced Analysis}

/-- The result that an analysis makes: its tokens under the next identifier. -/
def nextResult (s : Store) (found : Analysis) : TokenResult :=
  ⟨resultId (s.results + 1), found.tokens⟩

/-- The store that keeps this result, with the diagnostics of the analysis waiting. -/
def renewed (s : Store) (uri : String) (found : Analysis) : Store :=
  { s with results := s.results + 1 }.keep uri (s.nextResult found) found.diagnostics

/-- The store where no diagnostics wait for a document. -/
def fetched (s : Store) (uri : String) : Store :=
  s.setState uri { s.state uri with pending := none }

/-- Results of different numbers have different identifiers. -/
theorem resultId_inj {m n : Nat} (h : resultId m = resultId n) : m = n := by
  rw [resultId, resultId, Nat.toString_eq_ofList_toDigits, Nat.toString_eq_ofList_toDigits] at h
  have hdigits : Nat.toDigits 10 m = Nat.toDigits 10 n := String.ofList_injective h
  calc m = Nat.ofDigitChars 10 (Nat.toDigits 10 m) 0 := Nat.ofDigitChars_ten_toDigits.symm
    _ = Nat.ofDigitChars 10 (Nat.toDigits 10 n) 0 := by rw [hdigits]
    _ = n := Nat.ofDigitChars_ten_toDigits

/-- The identifiers of so many results. -/
def resultIds (number : Nat) : List String := (List.range number).map fun j => resultId (j + 1)

theorem resultIds_succ (number : Nat) :
    resultIds (number + 1) = resultIds number ++ [resultId (number + 1)] := by
  rw [resultIds, List.range_succ, List.map_append]
  rfl

/-- No two results have the same identifier. -/
theorem nodup_resultIds (number : Nat) : (resultIds number).Nodup := by
  refine List.Nodup.map ?_ List.nodup_range
  intro m n hsame
  exact Nat.succ.inj (resultId_inj hsame)

/-! ## The state of each document -/

theorem state_begin (s : Store) (uri name : String) :
    (s.begin uri).state name = if uri = name then {} else s.state name :=
  state_setState s uri {} name

theorem state_invalidate (s : Store) (uri name : String) :
    (s.invalidate uri).state name =
      if uri = name then { s.state uri with pending := none } else s.state name :=
  state_setState s uri _ name

theorem state_fetched (s : Store) (uri name : String) :
    (s.fetched uri).state name =
      if uri = name then { s.state uri with pending := none } else s.state name :=
  state_setState s uri _ name

theorem state_renewed (s : Store) (uri : String) (found : Analysis) (name : String) :
    (s.renewed uri found).state name =
      if uri = name then ⟨some (s.nextResult found), some found.diagnostics⟩ else s.state name :=
  state_setState _ uri _ name

theorem state_close (s : Store) (uri name : String) :
    (s.close uri).store.state name = if uri = name then {} else s.state name := by
  show ((s.documents.erase uri).find? name).getD {} = _
  rw [Table.find?_erase]
  by_cases h : uri = name
  · rw [if_pos h, if_pos h]
    rfl
  · rw [if_neg h, if_neg h]
    rfl

/-! ## Which documents there are -/

theorem contains_begin (s : Store) (uri name : String) :
    (s.begin uri).contains name = (uri = name || s.contains name) :=
  contains_setState s uri {} name

theorem contains_invalidate (s : Store) (uri name : String) :
    (s.invalidate uri).contains name = (uri = name || s.contains name) :=
  contains_setState s uri _ name

theorem contains_fetched (s : Store) (uri name : String) :
    (s.fetched uri).contains name = (uri = name || s.contains name) :=
  contains_setState s uri _ name

theorem contains_renewed (s : Store) (uri : String) (found : Analysis) (name : String) :
    (s.renewed uri found).contains name = (uri = name || s.contains name) :=
  contains_setState _ uri _ name

/-! ## The result kept of each document -/

theorem last_begin (s : Store) (uri name : String) :
    ((s.begin uri).state name).last = if uri = name then none else (s.state name).last := by
  rw [state_begin, apply_ite DocumentState.last]

theorem last_invalidate (s : Store) (uri name : String) :
    ((s.invalidate uri).state name).last = (s.state name).last := by
  rw [state_invalidate]
  split
  · next h => rw [h]
  · rfl

theorem last_fetched (s : Store) (uri name : String) :
    ((s.fetched uri).state name).last = (s.state name).last := by
  rw [state_fetched]
  split
  · next h => rw [h]
  · rfl

theorem last_renewed (s : Store) (uri : String) (found : Analysis) (name : String) :
    ((s.renewed uri found).state name).last =
      if uri = name then some (s.nextResult found) else (s.state name).last := by
  rw [state_renewed, apply_ite DocumentState.last]

theorem last_close (s : Store) (uri name : String) :
    ((s.close uri).store.state name).last = if uri = name then none else (s.state name).last := by
  rw [state_close, apply_ite DocumentState.last]

/-! ## Operations -/

/-- Counting one more result takes an identifier that is left. -/
theorem countResult_eq_ok_iff {counted : Store} :
    s.countResult = .ok counted ↔
      s.results < Word.doubleLimit ∧ counted = { s with results := s.results + 1 } := by
  unfold countResult
  split
  · next h =>
    constructor
    · rintro ⟨⟩
      exact ⟨h, rfl⟩
    · rintro ⟨-, rfl⟩
      rfl
  · next h =>
    constructor
    · rintro ⟨⟩
    · rintro ⟨hroom, -⟩
      exact absurd hroom h

theorem allTokens_eq_ok_iff {out : StoreOutcome TokenResult} :
    s.allTokens uri text = .ok out ↔
      ∃ found, analyze text = .ok found ∧ s.results < Word.doubleLimit ∧
        out = ⟨s.renewed uri found.value, s.nextResult found.value, documentEvents uri found⟩ := by
  constructor
  · intro h
    obtain ⟨_, hanalysis, h⟩ := Checked.bind_eq_ok_iff.mp h
    obtain ⟨found, hfound, rfl⟩ := analyzeDocument_eq_ok_iff.mp hanalysis
    obtain ⟨_, hcount, h⟩ := Checked.bind_eq_ok_iff.mp h
    obtain ⟨hroom, rfl⟩ := countResult_eq_ok_iff.mp hcount
    cases h
    exact ⟨found, hfound, hroom, rfl⟩
  · rintro ⟨found, hfound, hroom, rfl⟩
    exact Checked.bind_eq_ok_iff.mpr ⟨_, analyzeDocument_eq_ok_iff.mpr ⟨found, hfound, rfl⟩,
      Checked.bind_eq_ok_iff.mpr ⟨_, countResult_eq_ok_iff.mpr ⟨hroom, rfl⟩, rfl⟩⟩

theorem allTokens_of_ok {out : StoreOutcome TokenResult} (h : s.allTokens uri text = .ok out) :
    ∃ found, analyze text = .ok found ∧ s.results < Word.doubleLimit ∧
      out.store = s.renewed uri found.value ∧ out.value = s.nextResult found.value := by
  obtain ⟨found, hfound, hroom, rfl⟩ := allTokens_eq_ok_iff.mp h
  exact ⟨found, hfound, hroom, rfl, rfl⟩

theorem allTokens_total (uri : String) (hfound : analyze text = .ok found)
    (hroom : s.results < Word.doubleLimit) : ∃ out, s.allTokens uri text = .ok out :=
  ⟨_, allTokens_eq_ok_iff.mpr ⟨found, hfound, hroom, rfl⟩⟩

theorem base?_eq_some_iff {previous : String} {base : TokenResult} :
    s.base? uri previous = some base ↔
      (s.state uri).last = some base ∧ base.resultId = previous := by
  rw [base?, Option.filter_eq_some_iff, decide_eq_true_iff]

/-- A request for changes renews the document as one for all tokens does. What is answered is the
edit from the tokens that are kept, where these are the ones that the editor has. -/
theorem tokensSince_eq_ok_iff {previous : String} {out : StoreOutcome TokensChange} :
    s.tokensSince uri text previous = .ok out ↔
      ∃ found, analyze text = .ok found ∧ s.results < Word.doubleLimit ∧
        (s.base? uri previous = none ∧
            out = ⟨s.renewed uri found.value, .all (s.nextResult found.value),
              documentEvents uri found ++ [.unknownPrevious uri previous]⟩ ∨
          ∃ base edit, s.base? uri previous = some base ∧
            Edit.between base.data found.value.tokens TokenStream.stride = .ok edit ∧
            out = ⟨s.renewed uri found.value,
              .edits (s.nextResult found.value).resultId edit.toList,
              documentEvents uri found⟩) := by
  constructor
  · intro h
    obtain ⟨_, hanalysis, h⟩ := Checked.bind_eq_ok_iff.mp h
    obtain ⟨found, hfound, rfl⟩ := analyzeDocument_eq_ok_iff.mp hanalysis
    obtain ⟨_, hcount, h⟩ := Checked.bind_eq_ok_iff.mp h
    obtain ⟨hroom, rfl⟩ := countResult_eq_ok_iff.mp hcount
    refine ⟨found, hfound, hroom, ?_⟩
    cases hbase : s.base? uri previous with
    | none =>
        rw [hbase] at h
        cases h
        exact Or.inl ⟨rfl, rfl⟩
    | some base =>
        rw [hbase] at h
        obtain ⟨edit, hedit, h⟩ := Checked.bind_eq_ok_iff.mp h
        cases h
        exact Or.inr ⟨base, edit, rfl, hedit, rfl⟩
  · rintro ⟨found, hfound, hroom, hout⟩
    refine Checked.bind_eq_ok_iff.mpr ⟨_, analyzeDocument_eq_ok_iff.mpr ⟨found, hfound, rfl⟩,
      Checked.bind_eq_ok_iff.mpr ⟨_, countResult_eq_ok_iff.mpr ⟨hroom, rfl⟩, ?_⟩⟩
    rcases hout with ⟨hbase, rfl⟩ | ⟨base, edit, hbase, hedit, rfl⟩
    · rw [hbase]
      rfl
    · rw [hbase]
      exact Checked.bind_eq_ok_iff.mpr ⟨edit, hedit, rfl⟩

theorem tokensSince_of_ok {previous : String} {out : StoreOutcome TokensChange}
    (h : s.tokensSince uri text previous = .ok out) :
    ∃ found, analyze text = .ok found ∧ s.results < Word.doubleLimit ∧
      out.store = s.renewed uri found.value ∧
      (s.base? uri previous = none ∧ out.value = .all (s.nextResult found.value) ∨
        ∃ base edit, s.base? uri previous = some base ∧
          Edit.between base.data found.value.tokens TokenStream.stride = .ok edit ∧
          out.value = .edits (s.nextResult found.value).resultId edit.toList) := by
  obtain ⟨found, hfound, hroom, ⟨hbase, rfl⟩ | ⟨base, edit, hbase, hedit, rfl⟩⟩ :=
    tokensSince_eq_ok_iff.mp h
  · exact ⟨found, hfound, hroom, rfl, Or.inl ⟨hbase, rfl⟩⟩
  · exact ⟨found, hfound, hroom, rfl, Or.inr ⟨base, edit, hbase, hedit, rfl⟩⟩

theorem tokensSince_total (uri previous : String) (hfound : analyze text = .ok found)
    (hroom : s.results < Word.doubleLimit) : ∃ out, s.tokensSince uri text previous = .ok out := by
  cases hbase : s.base? uri previous with
  | none =>
      exact ⟨_, tokensSince_eq_ok_iff.mpr ⟨found, hfound, hroom, Or.inl ⟨hbase, rfl⟩⟩⟩
  | some base =>
      obtain ⟨edit, hedit⟩ := Edit.between_total (by decide : 0 < TokenStream.stride) base.data
        found.value.tokens
      exact ⟨_, tokensSince_eq_ok_iff.mpr
        ⟨found, hfound, hroom, Or.inr ⟨base, edit, hbase, hedit, rfl⟩⟩⟩

/-- What is fetched has been waiting, or else is found now. -/
theorem fetchDiagnostics_eq_ok_iff {out : StoreOutcome (List Diagnostic)} :
    s.fetchDiagnostics uri text = .ok out ↔
      (∃ diagnostics, (s.state uri).pending = some diagnostics ∧
        out = ⟨s.fetched uri, diagnostics, []⟩) ∨
      (s.state uri).pending = none ∧ ∃ found, analyze text = .ok found ∧
        out = ⟨s.fetched uri, found.value.diagnostics,
          .analyzingEagerly uri :: documentEvents uri found⟩ := by
  unfold fetchDiagnostics
  cases hpending : (s.state uri).pending with
  | some diagnostics =>
      constructor
      · rintro ⟨⟩
        exact Or.inl ⟨diagnostics, rfl, rfl⟩
      · rintro (⟨_, hsame, rfl⟩ | ⟨hnone, -⟩)
        · cases hsame
          rfl
        · cases hnone
  | none =>
      constructor
      · intro h
        obtain ⟨_, hanalysis, h⟩ := Checked.bind_eq_ok_iff.mp h
        obtain ⟨found, hfound, rfl⟩ := analyzeDocument_eq_ok_iff.mp hanalysis
        cases h
        exact Or.inr ⟨rfl, found, hfound, rfl⟩
      · rintro (⟨_, hsome, -⟩ | ⟨-, found, hfound, rfl⟩)
        · cases hsome
        · exact Checked.bind_eq_ok_iff.mpr
            ⟨_, analyzeDocument_eq_ok_iff.mpr ⟨found, hfound, rfl⟩, rfl⟩

theorem fetchDiagnostics_of_ok {out : StoreOutcome (List Diagnostic)}
    (h : s.fetchDiagnostics uri text = .ok out) :
    out.store = s.fetched uri ∧
      ((s.state uri).pending = some out.value ∨
        (s.state uri).pending = none ∧
          ∃ found, analyze text = .ok found ∧ out.value = found.value.diagnostics) := by
  rcases fetchDiagnostics_eq_ok_iff.mp h with ⟨_, hpending, rfl⟩ | ⟨hpending, found, hfound, rfl⟩
  · exact ⟨rfl, Or.inl hpending⟩
  · exact ⟨rfl, Or.inr ⟨hpending, found, hfound, rfl⟩⟩

theorem fetchDiagnostics_total (s : Store) (uri : String) (hfound : analyze text = .ok found) :
    ∃ out, s.fetchDiagnostics uri text = .ok out := by
  cases hpending : (s.state uri).pending with
  | some diagnostics =>
      exact ⟨_, fetchDiagnostics_eq_ok_iff.mpr (Or.inl ⟨diagnostics, hpending, rfl⟩)⟩
  | none =>
      exact ⟨_, fetchDiagnostics_eq_ok_iff.mpr (Or.inr ⟨hpending, found, hfound, rfl⟩)⟩

end Store

end AsmLens
