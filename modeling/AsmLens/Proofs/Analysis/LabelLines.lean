import AsmLens.Proofs.Analysis.Verdicts
import AsmLens.Proofs.Lexer.Places

/-!
The lines that declare a label, as text: filler, a word of no vocabulary, filler, a colon, filler,
and then nothing or a comment (`LabelLine`). The lexer and the label rule see tokens only, but what
they accept are exactly these lines, and the labels of a document are the words of these lines in
their order (`labels_eq_labelNames`).
-/

namespace AsmLens

open Text

/-- A line that declares a label, with its name. -/
structure LabelLine (name line : List Char) : Prop where
  word : Lexeme.IsWord name
  free : ∀ v : Vocabulary, String.ofList name ∉ v.table
  shape : ∃ before between after rest,
    line = before ++ (name ++ (between ++ ':' :: (after ++ rest))) ∧
      (∀ c ∈ before, isFiller c) ∧ (∀ c ∈ between, isFiller c) ∧ (∀ c ∈ after, isFiller c) ∧
      (rest = [] ∨ rest.head? = some ';')

/-- The name that a line declares, if it declares one: the first run of letters, digits and
underscores, where it is a word of no vocabulary and the line goes on as it should. -/
def labelName? (line : List Char) : Option (List Char) :=
  let word := line.dropWhile isFiller
  let name := word.takeWhile Lexeme.isWordPart
  let behind := (word.dropWhile Lexeme.isWordPart).dropWhile isFiller
  if name.head?.any Lexeme.isWordStart ∧
      Vocabulary.categoryOf (String.ofList name) = .unknown ∧ behind.head? = some ':' ∧
      (behind.tail.dropWhile isFiller).head?.all (· = ';') then
    some name
  else none

/-! ## The name of a line -/

/-- What is filler carries no word on. -/
theorem isWordPart_of_isFiller {c : Char} (h : isFiller c) : Lexeme.isWordPart c = false := by
  simp only [isFiller, Bool.not_eq_true', Bool.or_eq_false_iff] at h
  exact h.1.1

theorem isFiller_colon : isFiller ':' = false := by decide

/-- Behind filler there is a colon, so no word goes on there. -/
theorem isWordPart_of_head?_gap {gap : List Char} (hgap : ∀ c ∈ gap, isFiller c)
    (rest : List Char) : ∀ c ∈ (gap ++ ':' :: rest).head?, Lexeme.isWordPart c = false := by
  intro c hc
  cases gap with
  | nil =>
      cases hc
      decide
  | cons d gap =>
      cases hc
      exact isWordPart_of_isFiller (hgap c List.mem_cons_self)

/-- A text is a run of a class of characters and what is left behind it. -/
theorem exists_run (p : Char → Bool) (text : List Char) :
    ∃ run rest, text.takeWhile p = run ∧ text.dropWhile p = rest ∧ text = run ++ rest ∧
      ∀ c ∈ run, p c :=
  ⟨_, _, rfl, rfl, List.takeWhile_append_dropWhile.symm, List.all_eq_true.mp List.all_takeWhile⟩

/-- The name is found where the line declares a label, and only there. -/
theorem labelName?_eq_some_iff {line name : List Char} :
    labelName? line = some name ↔ LabelLine name line := by
  constructor
  · intro h
    obtain ⟨before, word, -, hword, rfl, hbefore⟩ := exists_run isFiller line
    obtain ⟨first, behind, hfirst, hbehind, rfl, hparts⟩ := exists_run Lexeme.isWordPart word
    obtain ⟨between, colon, -, hcolon, rfl, hbetween⟩ := exists_run isFiller behind
    obtain ⟨after, rest, -, hrest, hend, hafter⟩ := exists_run isFiller colon.tail
    simp only [labelName?, hword, hfirst, hbehind, hcolon, hrest] at h
    obtain ⟨⟨hstart, hfree, hhead, hclosed⟩, hsame⟩ := Option.ite_none_right_eq_some.mp h
    cases hsame
    refine ⟨?_, Vocabulary.categoryOf_eq_unknown_iff.mp hfree, before, between, after, rest, ?_,
      hbefore, hbetween, hafter, ?_⟩
    · cases name with
      | nil => cases hstart
      | cons c parts => exact ⟨c, parts, rfl, hstart, (List.forall_mem_cons.mp hparts).2⟩
    · obtain ⟨tail, rfl⟩ := List.head?_eq_some_iff.mp hhead
      rw [← hend, List.tail_cons]
    · cases rest with
      | nil => exact Or.inl rfl
      | cons c comment => exact Or.inr (congrArg some (of_decide_eq_true hclosed))
  · rintro ⟨hword, hfree, before, between, after, rest, rfl, hbefore, hbetween, hafter, hrest⟩
    obtain ⟨c, parts, rfl, hstart, hparts⟩ := hword
    have hpart := Lexeme.isWordPart_of_isWordStart hstart
    have hcut := takeWhile_run (List.forall_mem_cons.mpr ⟨hpart, hparts⟩)
      (isWordPart_of_head?_gap hbetween (after ++ rest))
    have hopens : isFiller c = false := by simp [isFiller, hpart]
    have hcloses : ∀ d ∈ rest.head?, isFiller d = false := by
      rintro d hd
      rcases hrest with rfl | hhead
      · cases hd
      · rw [hhead] at hd
        cases hd
        exact isFiller_semicolon
    have hend : rest.head?.all (· = ';') = true := by
      rcases hrest with rfl | hhead
      · rfl
      · rw [hhead]
        rfl
    have hword := (takeWhile_run (s := c :: parts ++ (between ++ ':' :: (after ++ rest))) hbefore
      (by simpa using hopens)).2
    have hcolon := (takeWhile_run (s := ':' :: (after ++ rest)) hbetween
      (by simpa using isFiller_colon)).2
    simp only [labelName?, hword, hcut.1, hcut.2, hcolon, List.tail_cons,
      (takeWhile_run hafter hcloses).2]
    exact if_pos ⟨hstart, Vocabulary.categoryOf_eq_unknown_iff.mpr hfree, rfl, hend⟩

/-! ## The reading of a line -/

namespace LineReading

/-- The tokens of the reading, its comment left out. -/
def body (reading : LineReading) : List SpacedToken :=
  reading.tokens.filter (·.category ≠ .comment)

theorem body_cons {t : SpacedToken} {more : List SpacedToken} {lastGap unread : List Char}
    (h : t.category ≠ .comment) :
    body ⟨t :: more, lastGap, unread⟩ = t :: body ⟨more, lastGap, unread⟩ :=
  List.filter_cons_of_pos (decide_eq_true h)

/-- A reading of a word of no vocabulary and a colon, and of nothing else but a comment. -/
def Declares (reading : LineReading) (name : List Char) : Prop :=
  ∃ head colon, reading.body = [head, colon] ∧ head.text = name ∧ head.category = .unknown ∧
    colon.text = [':'] ∧ colon.category = .operator

end LineReading

theorem TokenGrammar.category_ne_comment {category : Category} {text following : List Char}
    (h : TokenGrammar category text following) : category ≠ .comment := by
  cases h with
  | number _ _ _ => simp
  | word _ _ _ => exact Vocabulary.categoryOf_ne_comment _
  | operator _ => simp

/-- A token without a vocabulary is a word that stands in none. -/
theorem TokenGrammar.word_of_unknown {category : Category} {text following : List Char}
    (h : TokenGrammar category text following) (hunknown : category = .unknown) :
    Lexeme.IsWord text ∧ ∀ v : Vocabulary, String.ofList text ∉ v.table := by
  cases h with
  | number _ _ _ => cases hunknown
  | word hstart hparts _ =>
      exact ⟨⟨_, _, rfl, hstart, hparts⟩, Vocabulary.categoryOf_eq_unknown_iff.mp hunknown⟩
  | operator _ => cases hunknown

namespace LineGrammar

variable {line : List Char} {reading : LineReading}

/-- A line without tokens is filler up to its end or to a comment. -/
theorem of_body_eq_nil (h : LineGrammar line reading) (hbody : reading.body = []) :
    ∃ gap rest, line = gap ++ rest ∧ (∀ c ∈ gap, isFiller c) ∧
      (rest = [] ∨ rest.head? = some ';') := by
  cases h with
  | finish hgap => exact ⟨line, [], (List.append_nil line).symm, hgap, Or.inl rfl⟩
  | comment hgap _ _ => exact ⟨_, _, rfl, hgap, Or.inr rfl⟩
  | token _ htoken _ =>
      rw [LineReading.body_cons htoken.category_ne_comment] at hbody
      cases hbody

/-- The first token of a line stands behind a gap, and what follows it is read for itself. -/
theorem of_body_eq_cons {t : SpacedToken} {more : List SpacedToken} (h : LineGrammar line reading)
    (hbody : reading.body = t :: more) :
    ∃ following later, line = t.gap ++ (t.text ++ following) ∧ (∀ c ∈ t.gap, isFiller c) ∧
      TokenGrammar t.category t.text following ∧ LineGrammar following later ∧
      later.body = more := by
  cases h with
  | finish _ => cases hbody
  | comment _ _ _ => cases hbody
  | token hgap htoken hfollowing =>
      rw [LineReading.body_cons htoken.category_ne_comment] at hbody
      obtain ⟨rfl, hmore⟩ := List.cons.inj hbody
      exact ⟨_, _, rfl, hgap, htoken, hfollowing, hmore⟩

/-- A line that is filler up to its end or to a comment is read without tokens. -/
theorem exists_body_eq_nil {gap rest : List Char} (hgap : ∀ c ∈ gap, isFiller c)
    (hrest : rest = [] ∨ rest.head? = some ';') :
    ∃ reading, LineGrammar (gap ++ rest) reading ∧ reading.body = [] := by
  rcases hrest with rfl | hhead
  · rw [List.append_nil]
    exact ⟨_, .finish hgap, rfl⟩
  · obtain ⟨text, rfl⟩ := List.head?_eq_some_iff.mp hhead
    exact ⟨_, .comment_of_semicolon hgap text, rfl⟩

/-- A line is read as the declaration of a label where it has the form of one. -/
theorem declares_iff (h : LineGrammar line reading) {name : List Char} :
    reading.Declares name ↔ LabelLine name line := by
  constructor
  · rintro ⟨head, colon, hbody, rfl, hunknown, hcolon, -⟩
    obtain ⟨behind, later, rfl, hbefore, hhead, hbehind, hlater⟩ := h.of_body_eq_cons hbody
    obtain ⟨closing, last, rfl, hbetween, -, hclosing, hlast⟩ := hbehind.of_body_eq_cons hlater
    obtain ⟨after, rest, rfl, hafter, hrest⟩ := hclosing.of_body_eq_nil hlast
    obtain ⟨hword, hfree⟩ := hhead.word_of_unknown hunknown
    refine ⟨hword, hfree, head.gap, colon.gap, after, rest, ?_, hbefore, hbetween, hafter, hrest⟩
    rw [hcolon]
    rfl
  · rintro ⟨⟨c, parts, rfl, hstart, hparts⟩, hfree, before, between, after, rest, rfl, hbefore,
      hbetween, hafter, hrest⟩
    obtain ⟨closing, hclosing, hnone⟩ := exists_body_eq_nil hafter hrest
    have hcolon := LineGrammar.token hbetween (.operator (c := ':') rfl) hclosing
    have hword := LineGrammar.token hbefore
      (.word hstart hparts (isWordPart_of_head?_gap hbetween _)) hcolon
    -- the line has no other reading than this one
    obtain rfl := h.unique hword
    have hunknown := Vocabulary.categoryOf_eq_unknown_iff.mpr hfree
    refine ⟨⟨before, c :: parts, _⟩, ⟨between, [':'], .operator⟩, ?_, rfl, hunknown, rfl, rfl⟩
    rw [LineReading.body_cons (Vocabulary.categoryOf_ne_comment _),
      LineReading.body_cons (by simp)]
    exact congrArg _ (congrArg _ hnone)

end LineGrammar

/-! ## The labels of a document -/

/-- The body of a lexed line is that of its reading. -/
theorem Lexer.Lexed.map_signature_body {number : Nat} {lexed : List Char × Scanned}
    (h : Lexer.Lexed number lexed) {reading : LineReading}
    (hreading : reading.ReadsOff (Lexeme.scan lexed.1)) :
    (Statement.body lexed.2.tokens).map Token.signature =
      reading.body.map (SpacedToken.signature number) := by
  obtain ⟨htokens, -, -⟩ := Lexer.place_of_ok h
  rw [hreading.tokens] at htokens
  rw [Statement.body_eq_filter h.wholeLine, LineReading.body]
  have hkept := congrArg (List.filter fun signature => signature.2.2.1 ≠ .comment) htokens
  rw [List.filter_map, List.filter_map] at hkept
  exact hkept

/-- Tokens declare a label where what they have been read as does. -/
theorem LineReading.declares_iff {number : Nat} {reading : LineReading} {body : List Token}
    (h : body.map Token.signature = reading.body.map (SpacedToken.signature number))
    {name : List Char} :
    reading.Declares name ↔ ∃ head colon, body = [head, colon] ∧
      head.text = String.ofList name ∧ head.category = .unknown ∧ colon.isColon := by
  -- token by token, the texts and the categories are the same
  have hspelled : ∀ {t : Token} {s : SpacedToken}, t.signature = s.signature number →
      t.text = String.ofList s.text ∧ t.category = s.category := by
    intro t s hsame
    exact ⟨congrArg (·.2.1) hsame, congrArg (·.2.2.1) hsame⟩
  constructor
  · rintro ⟨first, second, hbody, rfl, hunknown, hcolon, hoperator⟩
    rw [hbody, List.map_cons, List.map_singleton] at h
    obtain ⟨head, rest, rfl, hhead, hrest⟩ := List.map_eq_cons_iff.mp h
    obtain ⟨colon, rfl, hsecond⟩ := List.map_eq_singleton_iff.mp hrest
    obtain ⟨htext, hcategory⟩ := hspelled hhead
    obtain ⟨htext', hcategory'⟩ := hspelled hsecond
    refine ⟨head, colon, rfl, htext, hcategory.trans hunknown, ?_⟩
    rw [Token.isColon, hcategory', hoperator, htext', hcolon]
    rfl
  · rintro ⟨head, colon, rfl, hname, hunknown, hcolon⟩
    rw [List.map_cons, List.map_singleton] at h
    obtain ⟨first, rest, hbody, hhead, hrest⟩ := List.map_eq_cons_iff.mp h.symm
    obtain ⟨second, rfl, hsecond⟩ := List.map_eq_singleton_iff.mp hrest
    obtain ⟨htext, hcategory⟩ := hspelled hhead.symm
    obtain ⟨htext', hcategory'⟩ := hspelled hsecond.symm
    rw [Token.isColon, Bool.and_eq_true, decide_eq_true_eq, decide_eq_true_eq] at hcolon
    refine ⟨first, second, hbody, ?_, hcategory.symm.trans hunknown, ?_,
      hcategory'.symm.trans hcolon.1⟩
    · exact String.ofList_injective (htext.symm.trans hname)
    · exact String.ofList_injective (htext'.symm.trans hcolon.2)

/-- The label of a line is the name that its text declares. -/
theorem labels_judgedAs {number : Nat} {lexed : List Char × Scanned}
    (hlexed : Lexer.Lexed number lexed) (hline : (judgedAs lexed).Analyzed number) :
    (judgedAs lexed).labels = ((labelName? lexed.1).map String.ofList).toList := by
  obtain ⟨reading, hreading, hlexemes⟩ := exists_reading lexed.1
  have hbody := hlexed.map_signature_body hlexemes
  have hdeclares : ∀ {name : List Char}, (∃ head colon,
      Statement.body lexed.2.tokens = [head, colon] ∧ head.text = String.ofList name ∧
        head.category = .unknown ∧ colon.isColon) ↔ labelName? lexed.1 = some name := by
    intro name
    rw [← LineReading.declares_iff hbody, hreading.declares_iff, labelName?_eq_some_iff]
  rw [hline.labels_eq]
  rcases hline.declares_or with ⟨head, colon, rest, hd⟩ | ⟨-, hnone⟩
  · rw [hd.filter_headsLabel]
    have hname : labelName? lexed.1 = some head.text.toList :=
      hdeclares.mp ⟨head, colon, hd.body, String.ofList_toList.symm, hd.unknown, hd.isColon⟩
    rw [hname]
    simp
  · rw [List.filter_eq_nil_iff.mpr fun t _ => by simp [hnone t]]
    cases hname : labelName? lexed.1 with
    | none => rfl
    | some name =>
        obtain ⟨head, colon, htokens, -, hunknown, hcolon⟩ := hdeclares.mpr hname
        have hhead := hnone head
        have hhere : Statement.body (judgedAs lexed).tokens = [head, colon] := htokens
        simp [hhere, headsLabel, declaresLabel, hunknown, hcolon] at hhead

/-- The labels of a document are the names that its lines declare, in the order of the lines. A line
declares one where its text is filler, a word of no vocabulary, filler, a colon and filler up to its
end or to a comment, and nowhere else, so that every label is a word and none is a reserved one. A
source of at most 4294967293 bytes has an answer. -/
theorem labels_eq_labelNames (source : String) :
    (source.utf8ByteSize ≤ Text.byteLimit → ∃ found, analyze source = .ok found) ∧
    (∀ line name, labelName? line = some name ↔ LabelLine name line) ∧
    ∀ found, analyze source = .ok found →
      found.value.labels =
        ((Text.lines source.toList).filterMap labelName?).map String.ofList ∧
      ∀ label ∈ found.value.labels,
        Lexeme.IsWord label.toList ∧ ∀ v : Vocabulary, label ∉ v.table := by
  refine ⟨?_, fun _ _ => labelName?_eq_some_iff, ?_⟩
  · intro hsize
    obtain ⟨found, hfound, -⟩ := analyze_eq (.of_utf8ByteSize hsize)
    exact ⟨found, hfound⟩
  · intro found hfound
    obtain ⟨_, lexed, -, htexts, -, hlexed, hlines, -, hlabels, -, -⟩ := analyze_of_ok hfound
    have hnames : found.value.labels =
        ((Text.lines source.toList).filterMap labelName?).map String.ofList := by
      rw [hlabels, ← htexts, List.map_filterMap, List.filterMap_map, List.flatMap_map,
        List.filterMap_eq_flatMap_toList]
      apply List.flatMap_congr
      intro l hl
      obtain ⟨number, hnumber⟩ := List.mem_iff_getElem?.mp hl
      refine labels_judgedAs (hlexed.of_getElem?_eq_some hnumber) ?_
      exact hlines.of_getElem?_eq_some (by rw [List.getElem?_map, hnumber]; rfl)
    refine ⟨hnames, ?_⟩
    intro label hlabel
    rw [hnames] at hlabel
    obtain ⟨name, hname, rfl⟩ := List.mem_map.mp hlabel
    obtain ⟨line, -, hline⟩ := List.mem_filterMap.mp hname
    have hdeclared := labelName?_eq_some_iff.mp hline
    rw [String.toList_ofList]
    exact ⟨hdeclared.word, hdeclared.free⟩

/-- A reserved word declares no label, but a word is reserved only as it is spelled. -/
example :
    (analyze "«main»\t: ; entry\neax:\nnext 1:\nEax:").map (·.value.labels) =
      .ok ["main", "Eax"] := by
  cbv

end AsmLens
