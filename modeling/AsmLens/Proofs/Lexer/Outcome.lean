import AsmLens.Proofs.Lexer.Numbering

/-!
What the lexer has found where it has not broken off. Whatever the columns have come to, the tokens
of a line are those of its lexemes and the strays are those between them (`Lexer.place_of_ok`), and
the tokens of a document are those of its lines, each lexed under its number
(`Lexer.linesFrom_of_ok`). No bound on the text is asked for.
-/

namespace AsmLens

/-- What a token is apart from its column. -/
def Token.signature (t : Token) : Nat × String × Category × Modifiers :=
  (t.line, t.text, t.category, t.modifiers)

/-- What the token of a lexeme is, if it makes one. -/
def Lexeme.signature (number : Nat) (lexeme : Lexeme) :
    Option (Nat × String × Category × Modifiers) :=
  lexeme.category.map fun category => (number, String.ofList lexeme.text, category, .none)

/-- No reserved word is a declared label. -/
theorem Vocabulary.categoryOf_ne_label (word : String) : categoryOf word ≠ .label := by
  unfold categoryOf
  split
  · next v _ => cases v <;> simp [Vocabulary.category]
  · simp

/-- No lexeme makes a declared label. -/
theorem Lexeme.category_ne_label (lexeme : Lexeme) : lexeme.category ≠ some .label := by
  unfold Lexeme.category
  cases lexeme.kind with
  | word =>
      intro h
      exact Vocabulary.categoryOf_ne_label _ (Option.some.inj h)
  | comment => simp
  | number => simp
  | operator => simp
  | blank => simp
  | stray => simp

/-- A column that is answered is a word. -/
theorem ColumnCursor.moveTo_le {cursor next : ColumnCursor} {offset column : Nat}
    (h : cursor.moveTo offset = .ok (column, next)) : column ≤ Word.limit := by
  unfold moveTo at h
  split at h
  · cases h
  · split at h
    · cases h
      exact Word.clamp_le _
    · split at h
      · cases h
      · obtain ⟨sum, hsum, h⟩ := Checked.bind_eq_ok_iff.mp h
        cases h
        obtain ⟨hle, rfl⟩ := Word.add_eq_ok_iff.mp hsum
        exact hle

namespace Lexer

/-! ## Lines -/

/-- The tokens and the strays that lexemes have been given places as. -/
theorem place_of_ok {number offset : Nat} {cursor : ColumnCursor} {lexemes : List Lexeme}
    {found : Scanned} (h : place number cursor offset lexemes = .ok found) :
    found.tokens.map Token.signature = lexemes.filterMap (Lexeme.signature number) ∧
      (∀ t ∈ found.tokens, t.column ≤ Word.limit) ∧
      found.strays = straysFrom number offset lexemes := by
  induction lexemes generalizing cursor offset found with
  | nil =>
      cases h
      exact ⟨rfl, (fun _ ht => nomatch ht), rfl⟩
  | cons lexeme more ih =>
      simp only [place] at h
      cases hc : lexeme.category with
      | some category =>
          simp only [hc] at h
          obtain ⟨⟨column, next⟩, hmove, h⟩ := Checked.bind_eq_ok_iff.mp h
          obtain ⟨later, hlater, h⟩ := Checked.bind_eq_ok_iff.mp h
          cases h
          obtain ⟨htokens, hcolumns, hstrays⟩ := ih hlater
          refine ⟨?_, ?_, ?_⟩
          · simp only [List.map_cons, Token.signature, List.filterMap_cons, Lexeme.signature, hc,
              Option.map_some, List.cons.injEq, true_and]
            exact htokens
          · intro t ht
            rcases List.mem_cons.mp ht with rfl | ht
            · exact ColumnCursor.moveTo_le hmove
            · exact hcolumns t ht
          · rw [straysFrom, if_neg (kind_ne_stray hc)]
            exact hstrays
      | none =>
          simp only [hc] at h
          obtain ⟨later, hlater, h⟩ := Checked.bind_eq_ok_iff.mp h
          obtain ⟨htokens, hcolumns, hstrays⟩ := ih hlater
          simp only [List.filterMap_cons, Lexeme.signature, hc, Option.map_none, straysFrom]
          split at h
          · next hstray =>
            cases h
            rw [if_pos hstray]
            exact ⟨htokens, hcolumns, congrArg _ hstrays⟩
          · next hstray =>
            cases h
            rw [if_neg hstray]
            exact ⟨htokens, hcolumns, hstrays⟩

/-- A line that has been lexed, with what has been found on it. -/
def Lexed (number : Nat) (lexed : List Char × Scanned) : Prop :=
  line number lexed.1 = .ok lexed.2

/-- A token of a lexed line is on the line, and nothing about it has been settled yet. -/
structure Unsettled (number : Nat) (t : Token) : Prop where
  onLine : t.line = number
  inWords : t.column ≤ Word.limit
  unlabelled : t.category ≠ .label
  unmodified : t.modifiers = .none

theorem Lexed.unsettled {number : Nat} {lexed : List Char × Scanned} (h : Lexed number lexed) :
    ∀ t ∈ lexed.2.tokens, Unsettled number t := by
  intro t ht
  obtain ⟨htokens, hcolumns, -⟩ := place_of_ok h
  have hsignature : t.signature ∈ lexed.2.tokens.map Token.signature := List.mem_map_of_mem ht
  rw [htokens, List.mem_filterMap] at hsignature
  obtain ⟨lexeme, -, hlexeme⟩ := hsignature
  obtain ⟨category, hcategory, hsame⟩ := Option.map_eq_some_iff.mp hlexeme
  simp only [Token.signature, Prod.mk.injEq] at hsame
  obtain ⟨hline, -, hkind, hmodifiers⟩ := hsame
  refine ⟨hline.symm, hcolumns t ht, ?_, hmodifiers.symm⟩
  rintro hlabel
  rw [← hkind] at hlabel
  subst hlabel
  exact lexeme.category_ne_label hcategory

theorem Lexed.wholeLine {number : Nat} {lexed : List Char × Scanned} (h : Lexed number lexed) :
    WholeLine number lexed.2.tokens where
  onLine := fun t ht => (h.unsettled t ht).onLine
  commentLast := by
    obtain ⟨htokens, -, -⟩ := place_of_ok h
    have hpairs : (lexed.2.tokens.map Token.signature).Pairwise fun a _ => a.2.2.1 ≠ .comment := by
      rw [htokens, List.pairwise_filterMap]
      refine (Lexeme.scan_comment_last lexed.1).imp ?_
      -- a comment in front would come from a lexeme that is one
      intro a _ hkind signature hsignature _ _ hcomment
      obtain ⟨category, hcategory, rfl⟩ := Option.map_eq_some_iff.mp hsignature
      have hcategory' : a.category = some .comment := by
        rw [hcategory]
        exact congrArg some hcomment
      exact hkind (Lexeme.kind_of_category_comment hcategory')
    exact List.pairwise_map.mp hpairs

/-! ## Documents -/

theorem exists_lexed_of_lineByLine {number : Nat} {texts : List (List Char)}
    {founds : List Scanned} (h : lineByLine number texts = .ok founds) :
    ∃ lexed : List (List Char × Scanned), lexed.map Prod.fst = texts ∧
      lexed.map Prod.snd = founds ∧ Consecutive Lexed number lexed := by
  induction texts generalizing number founds with
  | nil =>
      cases h
      exact ⟨[], rfl, rfl, trivial⟩
  | cons text more ih =>
      obtain ⟨here, later, hhere, hlater, rfl⟩ := lineByLine_cons_eq_ok_iff.mp h
      obtain ⟨lexed, rfl, rfl, hlexed⟩ := ih hlater
      exact ⟨(text, here) :: lexed, rfl, rfl, hhere, hlexed⟩

/-- What has been found in lines, the first of which has a number, and that there was a number for
each of them. -/
theorem linesFrom_of_ok {number : Nat} {texts : List (List Char)} {found : Scanned}
    (h : linesFrom number texts = .ok found) :
    number + texts.length + 1 ≤ Word.limit ∧
      ∃ lexed : List (List Char × Scanned), lexed.map Prod.fst = texts ∧
        Consecutive Lexed number lexed ∧
        found.tokens = lexed.flatMap (fun l => l.2.tokens) ∧
        found.strays = lexed.flatMap (fun l => l.2.strays) := by
  obtain ⟨hnumber, founds, hfounds, rfl⟩ := linesFrom_eq_ok_iff.mp h
  obtain ⟨lexed, htexts, rfl, hlexed⟩ := exists_lexed_of_lineByLine hfounds
  exact ⟨hnumber, lexed, htexts, hlexed, List.flatMap_map Prod.snd Scanned.tokens lexed,
    List.flatMap_map Prod.snd Scanned.strays lexed⟩

end Lexer

end AsmLens
