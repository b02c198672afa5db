import AsmLens.Proofs.Session.Mirror

/-!
The tokens that a session keeps are those that the editor holds. Every step preserves that
(`Session.Step.mirrored`), since the tokens of a document are replaced exactly when the editor is
sent new ones, and so the array that an editor ends up with after any answer is the token stream of
the text. Clamped offsets are the exception: where an edit reaches beyond the words, the editor
keeps integers that it should have dropped.
-/

namespace AsmLens

open Protocol

/-! ## The invariant -/

/-- A recording that stands for a token stream: it is as long at least, it is the same where no
offset has been clamped, and none has been where the editor's arrays are not too long. -/
structure Recording.Follows (r : Recording) (m : Mirror) (tokens : List Nat) : Prop where
  length_le : tokens.length ≤ r.data.length
  eq_tokens : r.exact → r.data = tokens
  exact_of_within : m.Within r.uri → r.exact

/-- The editor has recorded tokens of a document under their identifier. -/
structure Mirror.Copied (m : Mirror) (uri : String) (kept : TokenResult) : Prop where
  whole : TokenStream.stride ∣ kept.data.length
  recorded : ∃ r : Recording, m.find? uri kept.resultId = some r ∧ r.uri = uri ∧
    r.Follows m kept.data

/-- The editor has recorded what the session keeps. -/
def Session.Mirrored (s : Session) (m : Mirror) : Prop :=
  ∀ uri kept, (s.store.state uri).last = some kept → m.Copied uri kept

theorem Recording.Follows.cons {r : Recording} {m : Mirror} {tokens : List Nat}
    (h : r.Follows m tokens) (other : Recording) : r.Follows ⟨other :: m.recordings⟩ tokens where
  length_le := h.length_le
  eq_tokens := h.eq_tokens
  exact_of_within := fun hwithin => h.exact_of_within hwithin.of_cons

namespace Mirror

variable {m : Mirror} {uri text : String} {found : Traced Analysis}

/-- Recording another document's array takes nothing away. -/
theorem Copied.cons_of_ne {kept : TokenResult} (h : m.Copied uri kept) {other : Recording}
    (hne : other.uri ≠ uri) : Copied ⟨other :: m.recordings⟩ uri kept where
  whole := h.whole
  recorded := by
    obtain ⟨r, hfind, huri, hfollows⟩ := h.recorded
    refine ⟨r, ?_, huri, hfollows.cons other⟩
    rw [find?_cons_of_ne m hne]
    exact hfind

/-- All tokens arrive as they are. -/
theorem received_all {request : Request} (hrequest : request.tokensOf? = some uri)
    (hfound : analyze text = .ok found) (resultId : String) (edit : Option Edit) :
    m.received ⟨request, .tokens (.ofResult ⟨resultId, found.value.tokens⟩)⟩ edit =
      some ⟨uri, resultId, found.value.tokens, true⟩ := by
  obtain ⟨n, hn⟩ := stride_dvd_tokens hfound
  have hflat : flatten (regroup found.value.tokens) = found.value.tokens := flatten_regroup hn
  show (do
    let uri ← request.tokensOf?
    return (⟨uri, resultId, flatten (regroup found.value.tokens), true⟩ : Recording)) = _
  rw [hrequest, hflat]
  rfl

/-- The edits of an update are made to the array recorded under the identifier that was sent. -/
theorem received_update {previous : String} {base : Recording}
    (hfind : m.find? uri previous = some base) (change : TokensUpdate) (edit : Option Edit) :
    m.received ⟨.tokenChanges uri previous, .update change⟩ edit =
      some ⟨uri, change.resultId, change.edits.foldl TokensEdit.splice base.data,
        base.exact && edit.all Edit.inWords⟩ := by
  show (m.find? uri previous >>= fun base => _) = _
  rw [hfind]
  rfl

/-- What an update makes of the editor's copy of the tokens that are kept follows the new ones. -/
theorem follows_update {kept : TokenResult} {edit : Option Edit} {base : Recording}
    {previous resultId : String} (hwhole : TokenStream.stride ∣ kept.data.length)
    (hfind : m.find? uri previous = some base) (huri : base.uri = uri)
    (hbase : base.Follows m kept.data) (hfound : analyze text = .ok found)
    (hedit : Edit.between kept.data found.value.tokens TokenStream.stride = .ok edit) :
    Recording.Follows ⟨uri, resultId,
      (edit.toList.map TokensEdit.ofEdit).foldl TokensEdit.splice base.data,
      base.exact && edit.all Edit.inWords⟩ m found.value.tokens where
  length_le := length_le_splice_of_between hedit hwhole (stride_dvd_tokens hfound) hbase.length_le
  eq_tokens := by
    intro hexact
    rw [Bool.and_eq_true] at hexact
    show (edit.toList.map TokensEdit.ofEdit).foldl TokensEdit.splice base.data = _
    rw [hbase.eq_tokens hexact.1]
    exact splice_of_between hedit hwhole (stride_dvd_tokens hfound) hexact.2
  exact_of_within := by
    intro hwithin
    -- the tokens that are kept are no longer than the editor's copy of them
    have hlimit : kept.data.length ≤ Word.limit :=
      Nat.le_trans hbase.length_le (hwithin.length_le hfind)
    subst huri
    rw [Bool.and_eq_true]
    exact ⟨hbase.exact_of_within hwithin, inWords_of_between hedit hlimit⟩

end Mirror

namespace Session

variable {s s' : Session} {request : Request} {answer : Answer} {m : Mirror}

/-- The edit that is found for an update is the one between the two streams. -/
theorem edit?_eq {uri previous text : String} {found : Traced Analysis} {kept : TokenResult}
    {edit : Option Edit} (htext : s.texts.find? uri = some text) (hfound : analyze text = .ok found)
    (hkept : s.store.base? uri previous = some kept)
    (hedit : Edit.between kept.data found.value.tokens TokenStream.stride = .ok edit) :
    s.edit? (.tokenChanges uri previous) = edit := by
  simp [edit?, htext, hfound, hkept, hedit, Except.toOption]

theorem mirrored_empty (m : Mirror) : Mirrored {} m := by
  intro uri kept h
  cases h

/-- The editor has recorded the tokens of a renewed document, and still those of the others. -/
theorem Mirrored.renewed (hs : s.Mirrored m) {uri text : String} {found : Traced Analysis}
    (hfound : analyze text = .ok found) {r : Recording} (huri : r.uri = uri)
    (hid : r.resultId = (s.store.nextResult found.value).resultId)
    (hfollows : r.Follows m found.value.tokens) :
    Mirrored { s with store := s.store.renewed uri found.value } ⟨r :: m.recordings⟩ := by
  intro name kept h
  rw [Store.state_renewed] at h
  split at h
  · next heq =>
    subst heq
    cases h
    refine ⟨stride_dvd_tokens hfound, r, ?_, huri, hfollows.cons r⟩
    rw [← hid, ← huri]
    exact Mirror.find?_cons_self m r
  · next hne =>
    rw [← huri] at hne
    exact (hs name kept h).cons_of_ne hne

namespace Step

/-- A request for the tokens of an open document renews it, and the editor gets an array that
follows the tokens of its text, under the identifier of the answer. If the answer is no update, it
is all of the tokens. -/
theorem renews (h : Step s request s' answer) (hs : s.Mirrored m) {uri text : String}
    (hrequest : request.tokensOf? = some uri) (htext : s.texts.find? uri = some text) :
    ∃ found r, analyze text = .ok found ∧
      s' = { s with store := s.store.renewed uri found.value } ∧
      r.uri = uri ∧ r.resultId = (s.store.nextResult found.value).resultId ∧
      answer.resultId? = some r.resultId ∧
      m.received ⟨request, answer⟩ (s.edit? request) = some r ∧
      r.Follows m found.value.tokens ∧ ((∀ change, answer ≠ .update change) → r.exact) := by
  obtain ⟨found, hfound, -, hs', hgives⟩ := h.gives_of_open hrequest htext
  generalize hbase : s.kept? request uri = base? at hgives
  cases hgives with
  | all =>
      exact ⟨found, _, hfound, hs', rfl, rfl, rfl, Mirror.received_all hrequest hfound _ _,
        ⟨Nat.le_refl _, fun _ => rfl, fun _ => rfl⟩, fun _ => rfl⟩
  | @edit kept edit hedit =>
      obtain ⟨rfl, hlast⟩ := kept?_eq_some hrequest hbase
      obtain ⟨base, hfind, huri, hfollows⟩ := (hs uri kept hlast).recorded
      rw [edit?_eq htext hfound (Store.base?_eq_some_iff.mpr ⟨hlast, rfl⟩) hedit]
      exact ⟨found, _, hfound, hs', rfl, rfl, rfl, Mirror.received_update hfind _ _,
        Mirror.follows_update (hs uri kept hlast).whole hfind huri hfollows hfound hedit,
        fun hno => absurd rfl (hno _)⟩

/-- A step keeps to what the editor has recorded when it has seen the answer. -/
theorem mirrored (h : Step s request s' answer) (hs : s.Mirrored m) :
    s'.Mirrored (m.observe ⟨request, answer⟩ (s.edit? request)) := by
  -- the answer has an identifier exactly where the document is renewed
  cases hanswer : answer.resultId? with
  | none =>
      rw [Mirror.observe_of_resultId?_eq_none hanswer]
      intro name kept hlast
      exact hs name kept (h.last_of_resultId?_eq_none hanswer hlast)
  | some resultId =>
      obtain ⟨uri, text, hrequest, htext⟩ := h.open_of_resultId?_eq_some hanswer
      obtain ⟨found, r, hfound, hs', huri, hid, -, hreceived, hfollows, -⟩ :=
        h.renews hs hrequest htext
      rw [Mirror.observe_of_received hreceived, hs']
      exact hs.renewed hfound huri hid hfollows

end Step

end Session

/-- After any run the editor has recorded what the session keeps. -/
theorem Dialogue.mirrored_run {requests : List Request} {d : Dialogue} (h : run requests = .ok d) :
    d.session.Mirrored d.mirror := by
  induction requests using List.reverseRecOn generalizing d with
  | nil =>
      cases h
      exact Session.mirrored_empty _
  | append_singleton past request ih =>
      obtain ⟨before, outcome, hbefore, houtcome, rfl⟩ := run_concat_eq_ok_iff.mp h
      exact (Session.step_of_handle houtcome).mirrored (ih hbefore)

/-- An update with the edit that the store has computed, which an editor can make to the array that
it has recorded under the identifier it has sent. -/
structure Mirror.Applicable (m : Mirror) (uri previous : String) (edit : Option Edit)
    (change : TokensUpdate) : Prop where
  sent : change.edits = edit.toList.map TokensEdit.ofEdit
  single : change.edits.length ≤ 1
  whole : ∀ e ∈ edit.toList, flatten ((TokensEdit.ofEdit e).data.getD []) = e.data
  inside : ∃ base, m.find? uri previous = some base ∧
    ∀ e ∈ change.edits, e.start + e.deleteCount ≤ base.data.length

/-- An update that a step answers can be made. -/
theorem Session.Step.applicable {s s' : Session} {request : Request} {change : TokensUpdate}
    {m : Mirror} (h : Step s request s' (.update change)) (hs : s.Mirrored m) :
    ∃ uri previous text found kept edit, request = .tokenChanges uri previous ∧
      s.texts.find? uri = some text ∧ analyze text = .ok found ∧
      s.store.base? uri previous = some kept ∧
      Edit.between kept.data found.value.tokens TokenStream.stride = .ok edit ∧
      m.Applicable uri previous edit change := by
  cases h with
  | keeps htext hconfig hclosed hanswer => cases hanswer
  | configures hanswer => cases hanswer
  | @updates uri previous text found kept edit htext hfound hbase hedit =>
      obtain ⟨hlast, rfl⟩ := Store.base?_eq_some_iff.mp hbase
      obtain ⟨base, hfind, -, hfollows⟩ := (hs uri kept hlast).recorded
      have hedits := ofEdit_of_between hedit (hs uri kept hlast).whole
        (stride_dvd_tokens hfound) hfollows.length_le
      refine ⟨uri, _, text, found, kept, edit, rfl, htext, hfound, hbase, hedit, rfl, ?_, ?_,
        base, hfind, ?_⟩
      · rw [List.length_map]
        cases edit <;> simp
      · exact fun e he => (hedits e he).1
      · intro e he
        obtain ⟨computed, hcomputed, rfl⟩ := List.mem_map.mp he
        exact (hedits computed hcomputed).2

/-! ## A text that is shown and emptied -/

/-- Requests by which a text is shown to the editor, and emptied. -/
def showAndEmpty (text : String) : List Request :=
  [.openDocument "a" text, .tokens "a", .changeDocument "a" [""]]

theorem fits_showAndEmpty {text : String} (hsize : text.utf8ByteSize ≤ Text.byteLimit) :
    ∀ r ∈ showAndEmpty text ++ [.tokenChanges "a" "1"], r.Fits := by
  intro r hr new hnew
  simp only [showAndEmpty, List.cons_append, List.nil_append, List.mem_cons, List.not_mem_nil,
    or_false] at hr
  rcases hr with rfl | rfl | rfl | rfl
  · cases hnew
    exact hsize
  · cases hnew
  · cases hnew
    decide
  · cases hnew

/-- The session then keeps the tokens of the text that was shown, and the editor has them. -/
theorem kept_of_run_showAndEmpty {text : String} {d : Dialogue}
    (hrun : Dialogue.run (showAndEmpty text) = .ok d) :
    ∃ found, analyze text = .ok found ∧
      d.session.store.base? "a" "1" = some ⟨"1", found.value.tokens⟩ ∧
      d.mirror.recordings = [⟨"a", "1", found.value.tokens, true⟩] := by
  obtain ⟨shown, changed, hshown, hchanged, rfl⟩ := Dialogue.run_concat_eq_ok_iff.mp
    (show Dialogue.run ([.openDocument "a" text, .tokens "a"] ++ [.changeDocument "a" [""]]) =
      .ok d from hrun)
  obtain ⟨opened, given, hopened, hgiven, rfl⟩ := Dialogue.run_concat_eq_ok_iff.mp
    (show Dialogue.run ([.openDocument "a" text] ++ [.tokens "a"]) = .ok shown from hshown)
  have htext : opened.session.texts.find? "a" = some text := Dialogue.find?_texts_run hopened "a"
  have hresults : opened.session.store.results = 0 := by
    cases hopened
    rfl
  have hnothing : opened.mirror.recordings = [] := by
    cases hopened
    rfl
  have hstep := Session.step_of_handle hgiven
  cases hchanged
  generalize given.answer = answer at hstep ⊢
  generalize given.session = s at hstep ⊢
  cases hstep with
  | keeps _ _ hclosed _ =>
      rw [hclosed "a" rfl] at htext
      cases htext
  | @gives _ uri held found hrequest _ hheld hfound =>
      cases hrequest
      cases htext.symm.trans hheld
      have hnext : opened.session.store.nextResult found.value = ⟨"1", found.value.tokens⟩ := by
        rw [Store.nextResult, hresults]
        rfl
      refine ⟨found, hfound, Store.base?_eq_some_iff.mpr ⟨?_, rfl⟩, ?_⟩
      · show (((opened.session.store.renewed "a" found.value).invalidate "a").state "a").last = _
        rw [Store.state_invalidate, if_pos rfl, Store.state_renewed, if_pos rfl, hnext]
      · rw [hnext, Mirror.observe_of_received (Mirror.received_all rfl hfound "1" _), hnothing,
          Mirror.observe_of_resultId?_eq_none rfl]

/-! ## Texts of colons

Every colon is a token, so that the stream of such a text is as long as one likes.
-/

def colons (n : Nat) : String := String.ofList (List.replicate n ':')

theorem Lexeme.scan_colons (n : Nat) :
    scan (List.replicate n ':') = List.replicate n ⟨.operator, [':']⟩ := by
  induction n with
  | zero => simp [scan]
  | succ n ih =>
      rw [List.replicate_succ, scan, ih]
      rfl

theorem Text.lines_colons (n : Nat) :
    lines (List.replicate n ':') = [List.replicate n ':'] := by
  have hnewline : '\n' ∉ List.replicate n ':' := by simp
  have hreturn : (List.replicate n ':').getLast? ≠ some '\r' := by
    rw [List.getLast?_replicate]
    split <;> simp
  rw [lines, pieces_of_not_mem hnewline, List.map_singleton, dropReturn, if_neg hreturn]

theorem utf8ByteSize_colons (n : Nat) : (colons n).utf8ByteSize = n := by
  rw [Text.utf8ByteSize_eq_byteCount, colons, String.toList_ofList]
  induction n with
  | zero => rfl
  | succ n ih =>
      rw [List.replicate_succ, Text.byteCount_cons, ih]
      exact Nat.add_comm 1 n

theorem length_tokens_colons {n : Nat} {found : Traced Analysis}
    (hsize : n ≤ Text.byteLimit) (hfound : analyze (colons n) = .ok found) :
    found.value.tokens.length = TokenStream.stride * n := by
  have hfits : Text.FitsWords (colons n).toList :=
    .of_utf8ByteSize (by rw [utf8ByteSize_colons]; exact hsize)
  obtain ⟨_, hanalysis, hencode, -⟩ := analyze_eq hfits
  cases hfound.symm.trans hanalysis
  have hsettled : (settledTokens 0 (Text.lines (colons n).toList)).length = n := by
    rw [colons, String.toList_ofList, Text.lines_colons]
    show ([judgedLine 0 (List.replicate n ':')].flatMap JudgedLine.settled).length = n
    rw [List.flatMap_singleton, JudgedLine.length_settled]
    show (Lexer.tokensFrom 0 0 (Lexeme.scan (List.replicate n ':'))).length = n
    rw [Lexeme.scan_colons, Lexer.length_tokensFrom, List.length_replicate]
    intro l hl
    rw [List.eq_of_mem_replicate hl]
    exact Option.some_ne_none _
  rw [TokenStream.length_encodeFrom hencode, hsettled]

/-! ## What an editor can rely on -/

/-- After any requests whatsoever, an update changes an array that the editor has recorded for that
document under the identifier it has sent, by at most one edit inside it, and with every integer
that the edit inserts. Whenever the tokens of an open document are asked for, or a change of them,
the editor ends up with an array under the identifier of the answer, which is the token stream of
the text if the offsets of the edits that led to it are words. They are if all tokens were answered,
and also if a word can tell the length of every array of the document. -/
theorem mirror_eq_tokens (requests : List Request) (request : Request) :
    ((∀ r ∈ requests ++ [request], r.Fits) →
      (requests ++ [request]).length ≤ Word.doubleLimit →
        ∃ d outcome, Dialogue.run requests = .ok d ∧ d.session.handle request = .ok outcome) ∧
    ∀ d outcome, Dialogue.run requests = .ok d → d.session.handle request = .ok outcome →
      (∀ change, outcome.answer = .update change →
        ∃ uri previous text found kept edit, request = .tokenChanges uri previous ∧
          heldText uri requests = some text ∧ analyze text = .ok found ∧
          d.session.store.base? uri previous = some kept ∧
          Edit.between kept.data found.value.tokens TokenStream.stride = .ok edit ∧
          d.mirror.Applicable uri previous edit change) ∧
      ∀ uri text, request.tokensOf? = some uri → heldText uri requests = some text →
        ∃ found r, analyze text = .ok found ∧ outcome.answer.resultId? = some r.resultId ∧
          (d.mirror.observe ⟨request, outcome.answer⟩ (d.session.edit? request)).find?
            uri r.resultId = some r ∧
          (r.exact → r.data = found.value.tokens) ∧
          ((∀ change, outcome.answer ≠ .update change) → r.exact) ∧
          (d.mirror.Within uri → r.exact) := by
  constructor
  · exact Dialogue.exists_run_of_fits
  · intro d outcome hrun houtcome
    have hmirrored := Dialogue.mirrored_run hrun
    have hstep := Session.step_of_handle houtcome
    constructor
    · intro change hanswer
      rw [hanswer] at hstep
      obtain ⟨uri, previous, text, found, kept, edit, hrequest, htext, h⟩ :=
        hstep.applicable hmirrored
      rw [Dialogue.find?_texts_run hrun] at htext
      exact ⟨uri, previous, text, found, kept, edit, hrequest, htext, h⟩
    · intro uri text hrequest htext
      rw [← Dialogue.find?_texts_run hrun] at htext
      obtain ⟨found, r, hfound, -, rfl, -, hid, hreceived, hfollows, hall⟩ :=
        hstep.renews hmirrored hrequest htext
      refine ⟨found, r, hfound, hid, ?_, hfollows.eq_tokens, hall, hfollows.exact_of_within⟩
      rw [Mirror.observe_of_received hreceived]
      exact Mirror.find?_cons_self _ r

/-- The stream of 858993459 colons has as many integers as a word can tell, and they are all taken
out again. -/
theorem mirror_eq_tokens_858993459_colons :
    ∃ d outcome found r, Dialogue.run (showAndEmpty (colons 858993459)) = .ok d ∧
      d.session.handle (.tokenChanges "a" "1") = .ok outcome ∧ analyze "" = .ok found ∧
      (d.mirror.observe ⟨.tokenChanges "a" "1", outcome.answer⟩
        (d.session.edit? (.tokenChanges "a" "1"))).find? "a" r.resultId = some r ∧
      r.data = found.value.tokens := by
  have hsize : (colons 858993459).utf8ByteSize ≤ Text.byteLimit := by
    rw [utf8ByteSize_colons]
    decide
  obtain ⟨htotal, hall⟩ :=
    mirror_eq_tokens (showAndEmpty (colons 858993459)) (.tokenChanges "a" "1")
  obtain ⟨d, outcome, hrun, houtcome⟩ :=
    htotal (fits_showAndEmpty hsize) (show 4 ≤ Word.doubleLimit by decide)
  obtain ⟨shown, hshown, -, hrecordings⟩ := kept_of_run_showAndEmpty hrun
  obtain ⟨found, r, hfound, -, hfind, hdata, -, hexact⟩ :=
    (hall d outcome hrun houtcome).2 "a" "" rfl rfl
  refine ⟨d, outcome, found, r, hrun, houtcome, hfound, hfind, hdata (hexact ?_)⟩
  intro earlier hmem _
  rw [hrecordings, List.mem_singleton] at hmem
  rw [hmem]
  show shown.value.tokens.length ≤ Word.limit
  rw [length_tokens_colons (by decide) hshown]
  decide

/-- More integers than a word can tell are not all taken out. -/
theorem splice_ofEdit_ne_nil {data : List Nat} (hlong : Word.limit < data.length) :
    (TokensEdit.ofEdit ⟨0, data.length, []⟩).splice data ≠ [] := by
  have hclamp : Word.clamp data.length = Word.limit := Nat.min_eq_right (Nat.le_of_lt hlong)
  intro hnil
  have hlength : (data.drop (Word.clamp 0 + Word.clamp data.length)).length = 0 := by
    rw [TokensEdit.splice, List.append_eq_nil_iff] at hnil
    exact congrArg List.length hnil.2
  rw [List.length_drop, hclamp, Word.clamp_of_le (Nat.zero_le _)] at hlength
  omega

/-- Too many colons are not: the editor keeps some of them, where the text has no token. -/
theorem mirror_ne_tokens {n : Nat} (hsize : n ≤ Text.byteLimit)
    (hlong : Word.limit < TokenStream.stride * n) :
    ∃ d outcome found r, Dialogue.run (showAndEmpty (colons n)) = .ok d ∧
      d.session.handle (.tokenChanges "a" "1") = .ok outcome ∧ analyze "" = .ok found ∧
      outcome.answer.resultId? = some r.resultId ∧
      (d.mirror.observe ⟨.tokenChanges "a" "1", outcome.answer⟩
        (d.session.edit? (.tokenChanges "a" "1"))).find? "a" r.resultId = some r ∧
      r.data ≠ found.value.tokens := by
  have hbytes : (colons n).utf8ByteSize ≤ Text.byteLimit := by
    rw [utf8ByteSize_colons]
    exact hsize
  obtain ⟨d, outcome, hrun, houtcome⟩ :=
    Dialogue.exists_run_of_fits (fits_showAndEmpty hbytes) (show 4 ≤ Word.doubleLimit by decide)
  obtain ⟨shown, hshown, hbase, hrecordings⟩ := kept_of_run_showAndEmpty hrun
  rw [← length_tokens_colons hsize hshown] at hlong
  have htext : d.session.texts.find? "a" = some "" := Dialogue.find?_texts_run hrun "a"
  have hfind : d.mirror.find? "a" "1" = some ⟨"a", "1", shown.value.tokens, true⟩ := by
    rw [Mirror.find?, hrecordings]
    rfl
  have hstep := Session.step_of_handle houtcome
  generalize hanswer : outcome.answer = answer at hstep
  generalize outcome.session = s at hstep
  -- the document is open and its base is kept, so the answer is an update
  cases hstep with
  | keeps _ _ hclosed _ =>
      rw [hclosed "a" rfl] at htext
      cases htext
  | gives hrequest hstale _ _ =>
      cases hrequest
      rw [hstale "1" rfl] at hbase
      cases hbase
  | @updates _ _ text found kept edit hheld hfound hkept hedit =>
      cases htext.symm.trans hheld
      cases hbase.symm.trans hkept
      have hnone : found.value.tokens = [] :=
        List.eq_nil_of_length_eq_zero (length_tokens_colons (Nat.zero_le _) hfound)
      have hne : shown.value.tokens ≠ [] := List.ne_nil_of_length_pos (Nat.zero_lt_of_lt hlong)
      rw [hnone, Edit.between_nil (by decide) hne] at hedit
      cases hedit
      let sent := TokensEdit.ofEdit ⟨0, shown.value.tokens.length, []⟩
      let resultId := (d.session.store.nextResult found.value).resultId
      have hreceived := Mirror.received_update hfind ⟨resultId, [sent]⟩
        (d.session.edit? (.tokenChanges "a" "1"))
      refine ⟨d, outcome, found, ⟨"a", resultId, sent.splice shown.value.tokens,
        true && (d.session.edit? (.tokenChanges "a" "1")).all Edit.inWords⟩, hrun, houtcome, hfound,
        ?_, ?_, ?_⟩
      · rw [hanswer]
        rfl
      · rw [hanswer]
        show (d.mirror.observe ⟨.tokenChanges "a" "1", .update ⟨resultId, [sent]⟩⟩ _).find?
          "a" resultId = _
        rw [Mirror.observe_of_received hreceived]
        exact Mirror.find?_cons_self _ ⟨"a", resultId, _, _⟩
      · rw [hnone]
        exact splice_ofEdit_ne_nil hlong

/-- The stream of 858993460 colons is five integers longer than a word can tell. -/
theorem mirror_ne_tokens_858993460_colons :
    ∃ d outcome found r, Dialogue.run (showAndEmpty (colons 858993460)) = .ok d ∧
      d.session.handle (.tokenChanges "a" "1") = .ok outcome ∧ analyze "" = .ok found ∧
      outcome.answer.resultId? = some r.resultId ∧
      (d.mirror.observe ⟨.tokenChanges "a" "1", outcome.answer⟩
        (d.session.edit? (.tokenChanges "a" "1"))).find? "a" r.resultId = some r ∧
      r.data ≠ found.value.tokens :=
  mirror_ne_tokens (by decide) (by decide)

end AsmLens
