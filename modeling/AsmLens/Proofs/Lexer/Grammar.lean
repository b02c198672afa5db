import AsmLens.Analysis
import AsmLens.Proofs.Lexer.Outcome

/-!
The grammar of a line. A line is read as tokens with gaps of filler between them (`LineGrammar`),
and every text can be read in exactly one way (`LineGrammar.unique`, `exists_reading`): a run of
digits and a word end where they cannot go on, a comment ends the reading, and nothing that starts a
token is passed over. The lexer finds the tokens of that reading and reports the characters of its
gaps (`line_eq_reading`).
-/

namespace AsmLens

open Text

/-! ## Readings -/

/-- A token of a line, with the gap in front of it. -/
structure SpacedToken where
  gap : List Char
  text : List Char
  category : Category
  deriving DecidableEq, Repr

/-- A line as tokens in gaps. -/
structure LineReading where
  tokens : List SpacedToken
  /-- The gap behind the last token. -/
  lastGap : List Char
  /-- What comes after a comment. -/
  unread : List Char
  deriving DecidableEq, Repr

/-- A character that stands in no token, unless it is a comment: all but letters, digits,
underscores, brackets, colons and semicolons. -/
def isFiller (c : Char) : Bool := !(Lexeme.isWordPart c || Lexeme.isOperator c || c = ';')

/-- The tokens other than comments. Whether a text is one depends on the text that follows it. -/
inductive TokenGrammar : Category → List Char → List Char → Prop
  | number {digits following : List Char} (hne : digits ≠ [])
      (hdigits : ∀ c ∈ digits, Lexeme.isDigit c)
      (hend : ∀ c ∈ following.head?, Lexeme.isDigit c = false) :
      TokenGrammar .number digits following
  | word {c : Char} {parts following : List Char} (hstart : Lexeme.isWordStart c)
      (hparts : ∀ d ∈ parts, Lexeme.isWordPart d)
      (hend : ∀ d ∈ following.head?, Lexeme.isWordPart d = false) :
      TokenGrammar (Vocabulary.categoryOf (String.ofList (c :: parts))) (c :: parts) following
  | operator {c : Char} {following : List Char} (hoperator : Lexeme.isOperator c) :
      TokenGrammar .operator [c] following

/-- The readings of a line. A comment takes all but what a line break holds off, and no token comes
after it; where there is no comment, nothing is left unread. -/
inductive LineGrammar : List Char → LineReading → Prop
  | finish {gap : List Char} (hgap : ∀ c ∈ gap, isFiller c) : LineGrammar gap ⟨[], gap, []⟩
  | comment {gap body unread : List Char} (hgap : ∀ c ∈ gap, isFiller c) (hbody : '\n' ∉ body)
      (hunread : unread = [] ∨ unread.head? = some '\n') :
      LineGrammar (gap ++ (';' :: body ++ unread)) ⟨[⟨gap, ';' :: body, .comment⟩], [], unread⟩
  | token {gap text following : List Char} {category : Category} {reading : LineReading}
      (hgap : ∀ c ∈ gap, isFiller c) (htoken : TokenGrammar category text following)
      (hfollowing : LineGrammar following reading) :
      LineGrammar (gap ++ (text ++ following))
        ⟨⟨gap, text, category⟩ :: reading.tokens, reading.lastGap, reading.unread⟩

/-! ## Classes of characters -/

namespace Lexeme

theorem isWordPart_of_isDigit {c : Char} (h : isDigit c) : isWordPart c := by
  simp_all [isDigit, isWordPart, Char.isAlphanum]

theorem isWordPart_of_isWordStart {c : Char} (h : isWordStart c) : isWordPart c := by
  rw [isWordStart, Bool.or_eq_true] at h
  rw [isWordPart, Char.isAlphanum, Bool.or_eq_true, Bool.or_eq_true]
  exact h.imp_left Or.inl

/-- Letters stand behind the digits. -/
theorem lt_toNat_of_isAlpha {c : Char} (h : c.isAlpha) : '9'.toNat < c.toNat := by
  have hle : 'A'.val ≤ c.val ∨ 'a'.val ≤ c.val := by
    rcases Bool.or_eq_true_iff.mp h with hupper | hlower
    · exact Or.inl (of_decide_eq_true hupper).1
    · exact Or.inr (of_decide_eq_true (Bool.and_eq_true_iff.mp hlower).1)
  rcases hle with hle | hle
  · exact Nat.lt_of_lt_of_le (by decide) (UInt32.le_iff_toNat_le.mp hle)
  · exact Nat.lt_of_lt_of_le (by decide) (UInt32.le_iff_toNat_le.mp hle)

theorem isWordStart_of_isDigit {c : Char} (h : isDigit c) : isWordStart c = false := by
  have hdigit := (Char.isDigit_iff_toNat.mp h).2
  rw [isWordStart, Bool.or_eq_false_iff]
  constructor
  · rw [Bool.eq_false_iff]
    intro hletter
    exact Nat.not_lt_of_le hdigit (lt_toNat_of_isAlpha hletter)
  · rw [decide_eq_false_iff_not]
    rintro rfl
    exact absurd hdigit (by decide)

theorem isWordPart_of_isOperator {c : Char} (h : isOperator c) : isWordPart c = false := by
  simp only [isOperator, Bool.or_eq_true, decide_eq_true_eq] at h
  rcases h with (rfl | rfl) | rfl <;> decide

end Lexeme

/-- What carries no word on opens no word and no number. -/
theorem Lexeme.not_open_of_not_isWordPart {c : Char} (h : isWordPart c = false) :
    ¬ isDigit c ∧ ¬ isWordStart c := by
  constructor
  · intro hdigit
    rw [isWordPart_of_isDigit hdigit] at h
    cases h
  · intro hstart
    rw [isWordPart_of_isWordStart hstart] at h
    cases h

/-- What opens no token is filler. -/
theorem isFiller_of_not_class {c : Char} (hsemicolon : ¬ c = ';')
    (hdigit : ¬ Lexeme.isDigit c) (hstart : ¬ Lexeme.isWordStart c)
    (hoperator : ¬ Lexeme.isOperator c) : isFiller c := by
  simp only [Lexeme.isDigit] at hdigit
  simp only [Lexeme.isWordStart, Bool.or_eq_true, not_or] at hstart
  simp [isFiller, Lexeme.isWordPart, Char.isAlphanum, hsemicolon, hdigit, hstart, hoperator]

/-! ## There is one reading -/

/-- A run of a class of characters that cannot go on is what is taken of that class. -/
theorem takeWhile_run {p : Char → Bool} {x s : List Char} (hx : ∀ c ∈ x, p c)
    (hs : ∀ c ∈ s.head?, p c = false) :
    (x ++ s).takeWhile p = x ∧ (x ++ s).dropWhile p = s := by
  rw [List.takeWhile_append_of_pos hx, List.dropWhile_append_of_pos hx]
  cases s with
  | nil => exact ⟨List.append_nil x, rfl⟩
  | cons c rest =>
      have hc : ¬ p c := by simp [hs c rfl]
      rw [List.takeWhile_cons_of_neg hc, List.dropWhile_cons_of_neg hc]
      exact ⟨List.append_nil x, rfl⟩

/-- A run of a class of characters that cannot go on is the only one. -/
theorem run_unique {p : Char → Bool} {x y s t : List Char} (hx : ∀ c ∈ x, p c)
    (hs : ∀ c ∈ s.head?, p c = false) (hy : ∀ c ∈ y, p c) (ht : ∀ c ∈ t.head?, p c = false)
    (h : x ++ s = y ++ t) : x = y ∧ s = t := by
  obtain ⟨hxtake, hxdrop⟩ := takeWhile_run hx hs
  obtain ⟨hytake, hydrop⟩ := takeWhile_run hy ht
  rw [h] at hxtake hxdrop
  exact ⟨hxtake.symm.trans hytake, hxdrop.symm.trans hydrop⟩

/-- A token that is no comment holds no filler and no semicolon. -/
theorem TokenGrammar.solid {category : Category} {text following : List Char}
    (h : TokenGrammar category text following) : ∀ c ∈ text, isFiller c = false ∧ c ≠ ';' := by
  have hpart : ∀ {c : Char}, Lexeme.isWordPart c → isFiller c = false ∧ c ≠ ';' := by
    intro c hc
    refine ⟨by simp [isFiller, hc], ?_⟩
    rintro rfl
    exact absurd hc (by decide)
  cases h with
  | number _ hdigits _ =>
      intro c hc
      exact hpart (Lexeme.isWordPart_of_isDigit (hdigits c hc))
  | word hstart hparts _ =>
      intro c hc
      rcases List.mem_cons.mp hc with rfl | hc
      · exact hpart (Lexeme.isWordPart_of_isWordStart hstart)
      · exact hpart (hparts c hc)
  | operator hoperator =>
      intro c hc
      obtain rfl := List.mem_singleton.mp hc
      refine ⟨by simp [isFiller, hoperator], ?_⟩
      rintro rfl
      exact absurd hoperator (by decide)

/-- What starts a token that is no comment is no filler and no semicolon. -/
theorem TokenGrammar.head {category : Category} {text following : List Char}
    (h : TokenGrammar category text following) :
    ∃ c rest, text = c :: rest ∧ isFiller c = false ∧ c ≠ ';' := by
  cases text with
  | nil =>
      cases h with
      | number hne _ _ => exact absurd rfl hne
  | cons c rest => exact ⟨c, rest, rfl, h.solid c List.mem_cons_self⟩

/-- One token at most stands in front of a text. -/
theorem TokenGrammar.unique {k l : Category} {x y s t : List Char} (hx : TokenGrammar k x s)
    (hy : TokenGrammar l y t) (h : x ++ s = y ++ t) : k = l ∧ x = y ∧ s = t := by
  -- tokens of different kinds start with characters of different classes
  have hdigit : ∀ {digits s : List Char}, digits ≠ [] → (∀ c ∈ digits, Lexeme.isDigit c) →
      ∀ c rest, c :: rest = digits ++ s → Lexeme.isDigit c := by
    intro digits s hne hdigits c rest hsame
    cases digits with
    | nil => exact absurd rfl hne
    | cons d more =>
        cases hsame
        exact hdigits c List.mem_cons_self
  cases hx with
  | number hne hdigits hend =>
      cases hy with
      | number hne' hdigits' hend' =>
          obtain ⟨rfl, rfl⟩ := run_unique hdigits hend hdigits' hend' h
          exact ⟨rfl, rfl, rfl⟩
      | word hstart' _ _ =>
          have hc := Lexeme.isWordStart_of_isDigit (hdigit hne hdigits _ _ h.symm)
          rw [hc] at hstart'
          cases hstart'
      | operator hoperator' =>
          have hc := Lexeme.isWordPart_of_isDigit (hdigit hne hdigits _ _ h.symm)
          rw [Lexeme.isWordPart_of_isOperator hoperator'] at hc
          cases hc
  | @word c parts _ hstart hparts hend =>
      cases hy with
      | number hne' hdigits' _ =>
          have hc := Lexeme.isWordStart_of_isDigit (hdigit hne' hdigits' _ _ h)
          rw [hc] at hstart
          cases hstart
      | @word c' parts' _ hstart' hparts' hend' =>
          rw [List.cons_append, List.cons_append, List.cons.injEq] at h
          obtain ⟨rfl, h⟩ := h
          obtain ⟨rfl, rfl⟩ := run_unique hparts hend hparts' hend' h
          exact ⟨rfl, rfl, rfl⟩
      | operator hoperator' =>
          cases h
          have hc := Lexeme.isWordPart_of_isWordStart hstart
          rw [Lexeme.isWordPart_of_isOperator hoperator'] at hc
          cases hc
  | operator hoperator =>
      cases hy with
      | number hne' hdigits' _ =>
          have hc := Lexeme.isWordPart_of_isDigit (hdigit hne' hdigits' _ _ h)
          rw [Lexeme.isWordPart_of_isOperator hoperator] at hc
          cases hc
      | word hstart' _ _ =>
          cases h
          have hc := Lexeme.isWordPart_of_isWordStart hstart'
          rw [Lexeme.isWordPart_of_isOperator hoperator] at hc
          cases hc
      | operator _ =>
          cases h
          exact ⟨rfl, rfl, rfl⟩

/-- Gaps in front of texts that do not start with filler are the same where the wholes are. -/
theorem gap_unique {x y s t : List Char} {c d : Char} (hx : ∀ c ∈ x, isFiller c)
    (hc : isFiller c = false) (hy : ∀ c ∈ y, isFiller c) (hd : isFiller d = false)
    (h : x ++ c :: s = y ++ d :: t) : x = y ∧ c = d ∧ s = t := by
  obtain ⟨hgap, hrest⟩ := run_unique hx (by simpa using hc) hy (by simpa using hd) h
  exact ⟨hgap, List.cons.inj hrest⟩

/-- Filler alone holds no character of another kind. -/
theorem ne_gap {x gap s : List Char} {c : Char} (hx : ∀ c ∈ x, isFiller c)
    (hc : isFiller c = false) : x ≠ gap ++ c :: s := by
  rintro rfl
  have hfiller := hx c (by simp)
  rw [hc] at hfiller
  cases hfiller

theorem isFiller_semicolon : isFiller ';' = false := by decide

/-- A comment is a run of what is no line break, and cannot go on. -/
theorem comment_run {body unread : List Char} (hbody : '\n' ∉ body)
    (hunread : unread = [] ∨ unread.head? = some '\n') :
    (∀ c ∈ body, decide (c ≠ '\n') = true) ∧ ∀ c ∈ unread.head?, decide (c ≠ '\n') = false := by
  constructor
  · intro c hc
    rw [decide_eq_true_eq]
    rintro rfl
    exact hbody hc
  · intro c hc
    rcases hunread with rfl | hhead
    · cases hc
    · rw [hhead] at hc
      cases hc
      rfl

/-- A line has one reading at most. -/
theorem LineGrammar.unique {line : List Char} {a b : LineReading} (ha : LineGrammar line a)
    (hb : LineGrammar line b) : a = b := by
  induction ha generalizing b with
  | @finish gap hgap =>
      generalize hline : gap = line at hb
      cases hb with
      | finish hgap' => rfl
      | comment hgap' _ _ => exact absurd hline (ne_gap hgap isFiller_semicolon)
      | token hgap' htoken' _ =>
          obtain ⟨c, rest, rfl, hc, -⟩ := htoken'.head
          exact absurd hline (ne_gap hgap hc)
  | @comment gap body unread hgap hbody hunread =>
      generalize hline : gap ++ (';' :: body ++ unread) = line at hb
      cases hb with
      | finish hgap' => exact absurd hline.symm (ne_gap hgap' isFiller_semicolon)
      | @comment gap' body' unread' hgap' hbody' hunread' =>
          obtain ⟨rfl, -, hrest⟩ :=
            gap_unique hgap isFiller_semicolon hgap' isFiller_semicolon hline
          -- both comments end at the first line break
          obtain ⟨hrun, hend⟩ := comment_run hbody hunread
          obtain ⟨hrun', hend'⟩ := comment_run hbody' hunread'
          obtain ⟨rfl, rfl⟩ := run_unique hrun hend hrun' hend' hrest
          rfl
      | token hgap' htoken' _ =>
          obtain ⟨c, rest, rfl, hc, hne⟩ := htoken'.head
          exact absurd (gap_unique hgap isFiller_semicolon hgap' hc hline).2.1.symm hne
  | @token gap text following category reading hgap htoken hfollowing ih =>
      obtain ⟨c, rest, rfl, hc, hne⟩ := htoken.head
      generalize hline : gap ++ (c :: rest ++ following) = line at hb
      cases hb with
      | finish hgap' => exact absurd hline.symm (ne_gap hgap' hc)
      | comment hgap' _ _ =>
          exact absurd (gap_unique hgap hc hgap' isFiller_semicolon hline).2.1 hne
      | @token gap' text' following' category' reading' hgap' htoken' hfollowing' =>
          obtain ⟨c', rest', rfl, hc', -⟩ := htoken'.head
          obtain ⟨rfl, rfl, hrest⟩ := gap_unique hgap hc hgap' hc' hline
          obtain ⟨rfl, hsame, rfl⟩ := htoken.unique htoken' (congrArg (c :: ·) hrest)
          cases hsame
          rw [ih hfollowing']

/-! ## The lexer reads the line -/

/-- The characters of a text with their byte offsets, the first of which is given. -/
def Text.charsFrom (offset : Nat) : List Char → List (Nat × Char)
  | [] => []
  | c :: rest => (offset, c) :: charsFrom (offset + c.utf8Size) rest

/-- What the token is apart from its column. -/
def SpacedToken.signature (number : Nat) (t : SpacedToken) :
    Nat × String × Category × Modifiers :=
  (number, String.ofList t.text, t.category, .none)

namespace LineReading

/-- The characters of the gaps with their byte offsets, where the reading starts at one. -/
def gapCharsFrom (lastGap : List Char) (offset : Nat) : List SpacedToken → List (Nat × Char)
  | [] => Text.charsFrom offset lastGap
  | t :: more =>
      Text.charsFrom offset t.gap ++
        gapCharsFrom lastGap (offset + byteCount t.gap + byteCount t.text) more

/-- The characters that are passed over with a remark, with their byte offsets. -/
def remarkedFrom (offset : Nat) (reading : LineReading) : List (Nat × Char) :=
  (gapCharsFrom reading.lastGap offset reading.tokens).filter fun (_, c) => !Lexeme.isBlank c

/-- The reading with one character more in its first gap. -/
def widen (c : Char) : LineReading → LineReading
  | ⟨[], lastGap, unread⟩ => ⟨[], c :: lastGap, unread⟩
  | ⟨t :: more, lastGap, unread⟩ => ⟨{ t with gap := c :: t.gap } :: more, lastGap, unread⟩

/-- Lexemes make the tokens of the reading, and the strays between them are those of its gaps. -/
structure ReadsOff (reading : LineReading) (lexemes : List Lexeme) : Prop where
  tokens : ∀ number, lexemes.filterMap (Lexeme.signature number) =
    reading.tokens.map (SpacedToken.signature number)
  strays : ∀ number offset, Lexer.straysFrom number offset lexemes =
    (reading.remarkedFrom offset).map fun (offset, _) => ⟨number, offset⟩

variable {reading : LineReading} {lexemes : List Lexeme}

/-- A character that is passed over widens the first gap. -/
theorem ReadsOff.widen (h : reading.ReadsOff lexemes) (c : Char) :
    (reading.widen c).ReadsOff
      (⟨if Lexeme.isBlank c then .blank else .stray, [c]⟩ :: lexemes) := by
  have hgaps : ∀ offset, gapCharsFrom (reading.widen c).lastGap offset (reading.widen c).tokens =
      (offset, c) :: gapCharsFrom reading.lastGap (offset + c.utf8Size) reading.tokens := by
    intro offset
    obtain ⟨tokens, lastGap, unread⟩ := reading
    cases tokens with
    | nil => rfl
    | cons t more =>
        simp only [LineReading.widen, gapCharsFrom, Text.charsFrom, List.cons_append,
          byteCount_cons, Nat.add_assoc]
  constructor
  · intro number
    have htokens : (reading.widen c).tokens.map (SpacedToken.signature number) =
        reading.tokens.map (SpacedToken.signature number) := by
      obtain ⟨tokens, lastGap, unread⟩ := reading
      cases tokens <;> rfl
    rw [htokens, ← h.tokens number]
    refine List.filterMap_cons_none ?_
    cases Lexeme.isBlank c <;> rfl
  · intro number offset
    rw [remarkedFrom, hgaps, Lexer.straysFrom, h.strays, remarkedFrom]
    cases hc : Lexeme.isBlank c with
    | true => simp [hc]
    | false => simp [hc]

/-- A token that is read stands in front of those after it, without a gap. -/
theorem ReadsOff.cons (h : reading.ReadsOff lexemes) {lexeme : Lexeme} {category : Category}
    (hcategory : lexeme.category = some category) :
    ReadsOff ⟨⟨[], lexeme.text, category⟩ :: reading.tokens, reading.lastGap, reading.unread⟩
      (lexeme :: lexemes) where
  tokens := by
    intro number
    simp only [List.filterMap_cons, Lexeme.signature, hcategory, Option.map_some, List.map_cons,
      SpacedToken.signature]
    exact congrArg _ (h.tokens number)
  strays := by
    intro number offset
    rw [Lexer.straysFrom, if_neg (Lexer.kind_ne_stray hcategory), h.strays]
    rfl

end LineReading

theorem LineGrammar.widen {line : List Char} {reading : LineReading} {c : Char}
    (h : LineGrammar line reading) (hc : isFiller c) :
    LineGrammar (c :: line) (reading.widen c) := by
  have hwider : ∀ {gap : List Char}, (∀ d ∈ gap, isFiller d) → ∀ d ∈ c :: gap, isFiller d := by
    intro gap hgap
    exact List.forall_mem_cons.mpr ⟨hc, hgap⟩
  cases h with
  | finish hgap => exact .finish (hwider hgap)
  | comment hgap hbody hunread => exact .comment (hwider hgap) hbody hunread
  | token hgap htoken hfollowing => exact .token (hwider hgap) htoken hfollowing

/-- What is left of a text behind a run does not go on with it. -/
theorem head?_dropWhile (p : Char → Bool) (text : List Char) :
    ∀ c ∈ (text.dropWhile p).head?, p c = false := by
  intro c hc
  rw [Option.mem_def] at hc
  simpa [hc] using List.head?_dropWhile_not p text

/-- From a semicolon behind a gap on, a line is a comment. -/
theorem LineGrammar.comment_of_semicolon {gap : List Char} (hgap : ∀ c ∈ gap, isFiller c)
    (rest : List Char) :
    LineGrammar (gap ++ ';' :: rest)
      ⟨[⟨gap, ';' :: rest.takeWhile (· ≠ '\n'), .comment⟩], [], rest.dropWhile (· ≠ '\n')⟩ := by
  have hbody : '\n' ∉ rest.takeWhile (· ≠ '\n') := by
    intro hmem
    simpa using List.all_eq_true.mp List.all_takeWhile '\n' hmem
  have hunread : rest.dropWhile (· ≠ '\n') = [] ∨
      (rest.dropWhile (· ≠ '\n')).head? = some '\n' := by
    cases hrest : (rest.dropWhile (· ≠ '\n')).head? with
    | none => exact Or.inl (List.head?_eq_none_iff.mp hrest)
    | some c =>
        have hc := head?_dropWhile (· ≠ '\n') rest c hrest
        simp only [ne_eq, decide_not, Bool.not_eq_false', decide_eq_true_eq] at hc
        exact Or.inr (congrArg some hc)
  have hcomment := LineGrammar.comment hgap hbody hunread
  rwa [List.cons_append, List.takeWhile_append_dropWhile] at hcomment

/-- Every line has a reading, and its lexemes are those of the reading. -/
theorem exists_reading (line : List Char) :
    ∃ reading, LineGrammar line reading ∧ reading.ReadsOff (Lexeme.scan line) := by
  have hgap : ∀ c ∈ ([] : List Char), isFiller c := fun _ hc => nomatch hc
  -- a character that is passed over is in no class, so it is filler
  have hpassed : ∀ {c : Char} {rest : List Char}, isFiller c →
      (∃ reading, LineGrammar rest reading ∧ reading.ReadsOff (Lexeme.scan rest)) →
      ∃ reading, LineGrammar (c :: rest) reading ∧ reading.ReadsOff
        (⟨if Lexeme.isBlank c then .blank else .stray, [c]⟩ :: Lexeme.scan rest) := by
    rintro c rest hc ⟨reading, hreading, hlexemes⟩
    exact ⟨reading.widen c, hreading.widen hc, hlexemes.widen c⟩
  have htaken : ∀ {line following : List Char} {lexeme : Lexeme} {category : Category},
      lexeme.category = some category → TokenGrammar category lexeme.text following →
      line = lexeme.text ++ following →
      (∃ reading, LineGrammar following reading ∧ reading.ReadsOff (Lexeme.scan following)) →
      ∃ reading, LineGrammar line reading ∧
        reading.ReadsOff (lexeme :: Lexeme.scan following) := by
    rintro line following lexeme category hcategory htoken rfl ⟨reading, hreading, hlexemes⟩
    exact ⟨_, .token hgap htoken hreading, hlexemes.cons hcategory⟩
  fun_induction Lexeme.scan line with
  | case1 => exact ⟨⟨[], [], []⟩, .finish hgap, fun _ => rfl, fun _ _ => rfl⟩
  | case2 rest =>
      exact ⟨_, .comment_of_semicolon hgap rest, fun _ => rfl, fun _ _ => rfl⟩
  | case3 c rest hsemicolon hdigit ih =>
      refine htaken rfl (.number (List.cons_ne_nil _ _) ?_ (head?_dropWhile _ _)) ?_ ih
      · exact List.forall_mem_cons.mpr ⟨hdigit, List.all_eq_true.mp List.all_takeWhile⟩
      · rw [List.cons_append, List.takeWhile_append_dropWhile]
  | case4 c rest hsemicolon hdigit hstart ih =>
      refine htaken rfl (.word hstart ?_ (head?_dropWhile _ _)) ?_ ih
      · exact List.all_eq_true.mp List.all_takeWhile
      · rw [List.cons_append, List.takeWhile_append_dropWhile]
  | case5 c rest hsemicolon hdigit hstart hoperator ih =>
      exact htaken rfl (.operator hoperator) rfl ih
  | case6 c rest hsemicolon hdigit hstart hoperator hblank ih =>
      have hlexemes := hpassed (isFiller_of_not_class hsemicolon hdigit hstart hoperator) ih
      rwa [if_pos hblank] at hlexemes
  | case7 c rest hsemicolon hdigit hstart hoperator hblank ih =>
      have hlexemes := hpassed (isFiller_of_not_class hsemicolon hdigit hstart hoperator) ih
      rwa [if_neg hblank] at hlexemes

/-- The tokens of a line are those of its one reading, each with the category of its class and words
with that of their vocabulary, and the log remarks on the characters of the gaps that are no blanks,
in order and each with its byte offset. A line whose columns are words is lexed. -/
theorem line_eq_reading (number : Nat) (text : List Char) :
    (unitCount text ≤ Word.limit → ∃ found, Lexer.line number text = .ok found) ∧
      ∃ reading, LineGrammar text reading ∧
        (∀ other, LineGrammar text other → other = reading) ∧
        ∀ found, Lexer.line number text = .ok found →
          found.tokens.map Token.signature =
              reading.tokens.map (SpacedToken.signature number) ∧
            found.events = (reading.remarkedFrom 0).map fun (offset, _) =>
              .skipped ⟨number, offset⟩ := by
  obtain ⟨reading, hreading, hlexemes⟩ := exists_reading text
  refine ⟨fun hfit => ⟨_, Lexer.line_eq number hfit⟩, reading, hreading,
    fun other hother => hother.unique hreading, ?_⟩
  intro found hfound
  obtain ⟨htokens, -, hstrays⟩ := Lexer.place_of_ok hfound
  refine ⟨htokens.trans (hlexemes.tokens number), ?_⟩
  rw [Scanned.events, hstrays, hlexemes.strays, List.map_map]
  rfl

end AsmLens
