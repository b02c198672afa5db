import AsmLens.Proofs.Lexer.Grammar
import AsmLens.Proofs.Vocabulary.Lookup

/-!
The places of a line's tokens. The lexer cuts a line where its reading does
(`LineGrammar.lineTokens_eq`): a token stands at the column at which the text in front of it ends,
its gap and those before it included, and the line holds its text there. What the tokens of a
reading are made of is collected in `SpacedToken.Proper`.
-/

namespace AsmLens

open Text

/-- The code units of a line from one column to another. -/
def Text.unitsBetween (line : List Char) (start finish : Nat) : List Nat :=
  ((codeUnits line).drop start).take (finish - start)

theorem Text.codeUnits_append (a b : List Char) :
    codeUnits (a ++ b) = codeUnits a ++ codeUnits b := List.flatMap_append

/-- Between the columns where a stretch of a line starts and ends are its code units. -/
theorem Text.unitsBetween_append (before covered after : List Char) :
    unitsBetween (before ++ (covered ++ after)) (unitCount before) (unitCount (before ++ covered)) =
      codeUnits covered := by
  have hwidth : unitCount (before ++ covered) - unitCount before = (codeUnits covered).length := by
    rw [unitCount_append]
    exact Nat.add_sub_cancel_left _ _
  rw [unitsBetween, hwidth, codeUnits_append, codeUnits_append, unitCount, List.drop_left,
    List.take_left]

/-- Every character takes up a column. -/
theorem Text.unitCount_pos {text : List Char} (h : text ≠ []) : 0 < unitCount text := by
  cases text with
  | nil => exact absurd rfl h
  | cons c rest =>
      have hunits : 0 < (charUnits c).length := by
        unfold charUnits
        split <;> simp
      rw [unitCount_cons]
      omega

/-! ## Tokens of a reading -/

/-- A letter or an underscore, with letters, digits and underscores after it. -/
def Lexeme.IsWord (text : List Char) : Prop :=
  ∃ c parts, text = c :: parts ∧ isWordStart c ∧ ∀ d ∈ parts, isWordPart d

namespace SpacedToken

/-- The text of tokens with their gaps. -/
def spelled (tokens : List SpacedToken) : List Char := tokens.flatMap fun t => t.gap ++ t.text

@[simp] theorem spelled_nil : spelled [] = [] := rfl

@[simp] theorem spelled_cons (t : SpacedToken) (more : List SpacedToken) :
    spelled (t :: more) = t.gap ++ (t.text ++ spelled more) := by
  simp [spelled]

theorem spelled_append (a b : List SpacedToken) : spelled (a ++ b) = spelled a ++ spelled b :=
  List.flatMap_append

/-- The token under a line number, where its text starts at a column. -/
def token (t : SpacedToken) (number column : Nat) : Token :=
  { line := number, column, text := String.ofList t.text, category := t.category }

/-- The tokens under a line number, where the first gap starts at a column. -/
def placed (number column : Nat) : List SpacedToken → List Token
  | [] => []
  | t :: more =>
      t.token number (column + unitCount t.gap)
        :: placed number (column + unitCount t.gap + unitCount t.text) more

theorem placed_append (number column : Nat) (a b : List SpacedToken) :
    placed number column (a ++ b) =
      placed number column a ++ placed number (column + unitCount (spelled a)) b := by
  induction a generalizing column with
  | nil => rfl
  | cons t more ih =>
      simp only [List.cons_append, placed, ih, spelled_cons, unitCount_append, Nat.add_assoc]

theorem length_placed (number column : Nat) (tokens : List SpacedToken) :
    (placed number column tokens).length = tokens.length := by
  induction tokens generalizing column with
  | nil => rfl
  | cons t more ih => simp [placed, ih]

theorem placed_concat (number column : Nat) (tokens : List SpacedToken) (last : SpacedToken) :
    placed number column (tokens ++ [last]) =
      placed number column tokens ++
        [last.token number (column + unitCount (spelled tokens) + unitCount last.gap)] :=
  placed_append number column tokens [last]

theorem exists_of_placed_eq_cons {number column : Nat} {tokens : List SpacedToken} {head : Token}
    {rest : List Token} (h : placed number column tokens = head :: rest) :
    ∃ t more, tokens = t :: more ∧ head = t.token number (column + unitCount t.gap) ∧
      rest = placed number (column + unitCount t.gap + unitCount t.text) more := by
  cases tokens with
  | nil => cases h
  | cons t more =>
      obtain ⟨hhead, hrest⟩ := List.cons.inj h
      exact ⟨t, more, rfl, hhead.symm, hrest.symm⟩

/-- Of three tokens or more, the first two and the last, each at the column that the text in front
of it ends at. -/
theorem exists_of_placed_eq_content {number : Nat} {tokens : List SpacedToken}
    {head second third : Token} {more : List Token}
    (h : placed number 0 tokens = head :: second :: third :: more) :
    ∃ s u inner w, tokens = s :: u :: (inner ++ [w]) ∧
      head = s.token number (unitCount s.gap) ∧
      second = u.token number (unitCount (s.gap ++ (s.text ++ u.gap))) ∧
      (third :: more).getLast? = some (w.token number
        (unitCount (s.gap ++ (s.text ++ u.gap) ++ (u.text ++ (spelled inner ++ w.gap))))) := by
  obtain ⟨s, others, rfl, hhead, hothers⟩ := exists_of_placed_eq_cons h
  obtain ⟨u, rest, rfl, hsecond, hrest⟩ := exists_of_placed_eq_cons hothers.symm
  rcases List.eq_nil_or_concat rest with rfl | ⟨inner, w, rfl⟩
  · cases hrest
  · rw [List.concat_eq_append, placed_concat] at hrest
    refine ⟨s, u, inner, w, by rw [List.concat_eq_append], ?_, ?_, ?_⟩
    · rw [hhead, Nat.zero_add]
    · rw [hsecond]
      simp only [unitCount_append, Nat.add_assoc, Nat.zero_add]
    · rw [hrest, List.getLast?_concat]
      simp only [unitCount_append, Nat.add_assoc, Nat.zero_add]

theorem map_category_placed (number column : Nat) (tokens : List SpacedToken) :
    (placed number column tokens).map Token.category = tokens.map SpacedToken.category := by
  induction tokens generalizing column with
  | nil => rfl
  | cons t more ih => simp [placed, token, ih]

/-- A token is as long as its text, if a word can tell. -/
theorem length_token {t : SpacedToken} (hfit : unitCount t.text ≤ Word.limit)
    (number column : Nat) : (t.token number column).length = unitCount t.text := by
  rw [token, Token.length, String.toList_ofList, width_eq, Word.clamp_of_le hfit]

/-- The first of the placed tokens are those of the first ones. -/
theorem exists_of_prefix_placed {number column : Nat} {tokens : List SpacedToken}
    {front : List Token} (h : front <+: placed number column tokens) :
    ∃ a b, tokens = a ++ b ∧ front = placed number column a := by
  refine ⟨tokens.take front.length, tokens.drop front.length,
    (List.take_append_drop _ _).symm, ?_⟩
  have hsplit := placed_append number column (tokens.take front.length) (tokens.drop front.length)
  rw [List.take_append_drop] at hsplit
  have hlength : (placed number column (tokens.take front.length)).length = front.length := by
    rw [length_placed, List.length_take, ← length_placed number column tokens]
    exact Nat.min_eq_left h.length_le
  rw [hsplit] at h
  exact (List.prefix_of_prefix_length_le h (List.prefix_append _ _)
    (Nat.le_of_eq hlength.symm)).eq_of_length hlength.symm

/-- Where a placed token comes from. -/
theorem exists_of_mem_placed {number column : Nat} {tokens : List SpacedToken} {t : Token}
    (h : t ∈ placed number column tokens) :
    ∃ a s b, tokens = a ++ s :: b ∧
      t = s.token number (column + unitCount (spelled a ++ s.gap)) := by
  induction tokens generalizing column with
  | nil => cases h
  | cons s more ih =>
      rcases List.mem_cons.mp h with rfl | h
      · exact ⟨[], s, more, rfl, rfl⟩
      · obtain ⟨a, u, b, rfl, rfl⟩ := ih h
        refine ⟨s :: a, u, b, rfl, ?_⟩
        simp only [spelled_cons, unitCount_append, Nat.add_assoc]

/-- What a token of a reading and its gap are made of. -/
structure Proper (t : SpacedToken) : Prop where
  gap : ∀ c ∈ t.gap, isFiller c
  nonempty : t.text ≠ []
  /-- Only comments hold filler and semicolons. -/
  solid : t.category ≠ .comment → ∀ c ∈ t.text, isFiller c = false ∧ c ≠ ';'
  /-- What has no category is a word of no vocabulary. -/
  word : t.category = .unknown →
    Lexeme.IsWord t.text ∧ ∀ v : Vocabulary, String.ofList t.text ∉ v.table

/-- Up to the end of a token that is no comment there is no semicolon, if there is no comment
before it. -/
theorem not_mem_spelled {tokens : List SpacedToken} (hproper : ∀ t ∈ tokens, t.Proper)
    (hcategory : ∀ t ∈ tokens, t.category ≠ .comment) : ';' ∉ spelled tokens := by
  intro hmem
  obtain ⟨t, ht, hmem⟩ := List.mem_flatMap.mp hmem
  rcases List.mem_append.mp hmem with hgap | htext
  · have hfiller := (hproper t ht).gap ';' hgap
    rw [isFiller_semicolon] at hfiller
    cases hfiller
  · exact ((hproper t ht).solid (hcategory t ht) ';' htext).2 rfl

end SpacedToken

/-! ## The tokens of the grammar -/

namespace TokenGrammar

variable {category : Category} {text following : List Char}

theorem proper (h : TokenGrammar category text following) {gap : List Char}
    (hgap : ∀ c ∈ gap, isFiller c) : SpacedToken.Proper ⟨gap, text, category⟩ where
  gap := hgap
  nonempty := by
    obtain ⟨c, rest, rfl, -, -⟩ := h.head
    exact List.cons_ne_nil c rest
  solid := fun _ => h.solid
  word := by
    rintro rfl
    generalize hcategory : Category.unknown = category at h
    cases h with
    | number _ _ _ => cases hcategory
    | word hstart hparts _ =>
        exact ⟨⟨_, _, rfl, hstart, hparts⟩,
          Vocabulary.categoryOf_eq_unknown_iff.mp hcategory.symm⟩
    | operator _ => cases hcategory

/-- The scan takes a token that stands in front of a text. -/
theorem scan_append (h : TokenGrammar category text following) :
    ∃ kind, Lexeme.scan (text ++ following) = ⟨kind, text⟩ :: Lexeme.scan following ∧
      Lexeme.category ⟨kind, text⟩ = some category := by
  obtain ⟨c, rest, hsame, -, hsemicolon⟩ := h.head
  cases h with
  | number _ hdigits hend =>
      subst hsame
      obtain ⟨hdigit, hrest⟩ := List.forall_mem_cons.mp hdigits
      obtain ⟨htake, hdrop⟩ := takeWhile_run hrest hend
      refine ⟨.number, ?_, rfl⟩
      rw [List.cons_append, Lexeme.scan, if_neg hsemicolon, if_pos hdigit, htake, hdrop]
  | word hstart hparts hend =>
      cases hsame
      obtain ⟨htake, hdrop⟩ := takeWhile_run hparts hend
      have hdigit : ¬ Lexeme.isDigit c := by
        intro hdigit
        rw [Lexeme.isWordStart_of_isDigit hdigit] at hstart
        cases hstart
      refine ⟨.word, ?_, rfl⟩
      rw [List.cons_append, Lexeme.scan, if_neg hsemicolon, if_neg hdigit, if_pos hstart, htake,
        hdrop]
  | operator hoperator =>
      cases hsame
      obtain ⟨hdigit, hstart⟩ :=
        Lexeme.not_open_of_not_isWordPart (Lexeme.isWordPart_of_isOperator hoperator)
      refine ⟨.operator, ?_, rfl⟩
      rw [List.cons_append, Lexeme.scan, if_neg hsemicolon, if_neg hdigit, if_neg hstart,
        if_pos hoperator]
      rfl

end TokenGrammar

/-- The scan passes over filler one character at a time. -/
theorem Lexeme.scan_filler {c : Char} (h : isFiller c) (rest : List Char) :
    ∃ kind, scan (c :: rest) = ⟨kind, [c]⟩ :: scan rest ∧ category ⟨kind, [c]⟩ = none := by
  simp only [isFiller, Bool.not_eq_true', Bool.or_eq_false_iff, decide_eq_false_iff_not] at h
  obtain ⟨⟨hpart, hoperator⟩, hsemicolon⟩ := h
  obtain ⟨hdigit, hstart⟩ := not_open_of_not_isWordPart hpart
  rw [scan, if_neg hsemicolon, if_neg hdigit, if_neg hstart, if_neg (by simp [hoperator])]
  split
  · exact ⟨.blank, rfl, rfl⟩
  · exact ⟨.stray, rfl, rfl⟩

/-- Filler moves the tokens behind it. -/
theorem Lexer.tokensFrom_scan_gap {gap : List Char} (hgap : ∀ c ∈ gap, isFiller c)
    (number column : Nat) (rest : List Char) :
    tokensFrom number column (Lexeme.scan (gap ++ rest)) =
      tokensFrom number (column + unitCount gap) (Lexeme.scan rest) := by
  induction gap generalizing column with
  | nil => rfl
  | cons c gap ih =>
      obtain ⟨hc, hgap⟩ := List.forall_mem_cons.mp hgap
      obtain ⟨kind, hscan, hcategory⟩ := Lexeme.scan_filler hc (gap ++ rest)
      rw [List.cons_append, hscan, tokensFrom, hcategory]
      show tokensFrom number (column + unitCount [c]) (Lexeme.scan (gap ++ rest)) = _
      rw [ih hgap, Nat.add_assoc, ← unitCount_append]
      rfl

namespace LineGrammar

variable {line : List Char} {reading : LineReading}

/-- A reading spells its line. -/
theorem spelled_append (h : LineGrammar line reading) :
    SpacedToken.spelled reading.tokens ++ (reading.lastGap ++ reading.unread) = line := by
  induction h with
  | finish hgap => simp
  | comment hgap hbody hunread => simp
  | token hgap htoken hfollowing ih =>
      rw [SpacedToken.spelled_cons, List.append_assoc, List.append_assoc, ih]

theorem proper (h : LineGrammar line reading) : ∀ t ∈ reading.tokens, t.Proper := by
  induction h with
  | finish hgap => exact fun _ ht => nomatch ht
  | comment hgap hbody hunread =>
      intro t ht
      obtain rfl := List.mem_singleton.mp ht
      exact ⟨hgap, List.cons_ne_nil _ _, fun hno => absurd rfl hno, fun hno => nomatch hno⟩
  | token hgap htoken hfollowing ih => exact List.forall_mem_cons.mpr ⟨htoken.proper hgap, ih⟩

/-- The scan cuts a line where its reading does. -/
theorem tokensFrom_scan (h : LineGrammar line reading) (number column : Nat) :
    Lexer.tokensFrom number column (Lexeme.scan line) =
      SpacedToken.placed number column reading.tokens := by
  induction h generalizing column with
  | @finish gap hgap =>
      have hscan := Lexer.tokensFrom_scan_gap hgap number column []
      rw [List.append_nil, Lexeme.scan] at hscan
      exact hscan
  | comment hgap hbody hunread =>
      obtain ⟨hrun, hend⟩ := comment_run hbody hunread
      rw [Lexer.tokensFrom_scan_gap hgap, List.cons_append, Lexeme.scan, if_pos rfl,
        (takeWhile_run hrun hend).1]
      rfl
  | token hgap htoken hfollowing ih =>
      obtain ⟨kind, hscan, hcategory⟩ := htoken.scan_append
      rw [Lexer.tokensFrom_scan_gap hgap, hscan, Lexer.tokensFrom, hcategory]
      simp only [SpacedToken.placed, SpacedToken.token, ih]

/-- The tokens of a line are those of its reading, each where its text stands. -/
theorem lineTokens_eq (h : LineGrammar line reading) (number : Nat) :
    Lexer.lineTokens number line = SpacedToken.placed number 0 reading.tokens :=
  h.tokensFrom_scan number 0

end LineGrammar

/-- A token of a line stands where the line holds its text, which is not empty. -/
theorem Lexer.exists_text_of_mem {number : Nat} {line : List Char} {t : Token}
    (h : t ∈ lineTokens number line) :
    t.line = number ∧ t.modifiers = .none ∧ t.text.toList ≠ [] ∧
      ∃ before after, line = before ++ (t.text.toList ++ after) ∧ t.column = unitCount before := by
  obtain ⟨reading, hreading, -⟩ := exists_reading line
  rw [hreading.lineTokens_eq] at h
  obtain ⟨a, s, b, hsplit, rfl⟩ := SpacedToken.exists_of_mem_placed h
  have hspelled := hreading.spelled_append
  rw [hsplit, SpacedToken.spelled_append, SpacedToken.spelled_cons] at hspelled
  refine ⟨rfl, rfl, ?_, SpacedToken.spelled a ++ s.gap,
    SpacedToken.spelled b ++ (reading.lastGap ++ reading.unread), ?_, ?_⟩
  · rw [SpacedToken.token, String.toList_ofList]
    exact (hreading.proper s (by rw [hsplit]; simp)).nonempty
  · rw [SpacedToken.token, String.toList_ofList, ← hspelled]
    simp only [List.append_assoc]
  · exact Nat.zero_add _

end AsmLens
