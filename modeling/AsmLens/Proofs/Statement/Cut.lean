import AsmLens.Statement

/-!
The cut of a document into statements. A token list that is made of whole lines, one after another,
is cut back into those lines (`ofTokensFrom_flatten`): the statement of a line holds its tokens
without the comment, and its offset counts the tokens of the lines before it, blank lines included.
-/

namespace AsmLens

/-- `P` holds of every item, with the numbers from `number` on. -/
def Consecutive {α : Type} (P : Nat → α → Prop) : Nat → List α → Prop
  | _, [] => True
  | number, item :: more => P number item ∧ Consecutive P (number + 1) more

theorem Consecutive.mono {α : Type} {P Q : Nat → α → Prop}
    (hPQ : ∀ number item, P number item → Q number item) {number : Nat} {items : List α}
    (h : Consecutive P number items) : Consecutive Q number items := by
  induction items generalizing number with
  | nil => trivial
  | cons item more ih => exact ⟨hPQ number item h.1, ih h.2⟩

theorem Consecutive.forall_mem {α : Type} {P : Nat → α → Prop} {Q : α → Prop}
    (hPQ : ∀ number item, P number item → Q item) {number : Nat} {items : List α}
    (h : Consecutive P number items) : ∀ item ∈ items, Q item := by
  induction items generalizing number with
  | nil =>
      intro item hitem
      cases hitem
  | cons first more ih =>
      intro item hitem
      rcases List.mem_cons.mp hitem with rfl | hitem
      · exact hPQ number item h.1
      · exact ih h.2 item hitem

theorem Consecutive.of_getElem?_eq_some {α : Type} {P : Nat → α → Prop} {number k : Nat}
    {items : List α} {item : α} (h : Consecutive P number items) (hk : items[k]? = some item) :
    P (number + k) item := by
  induction items generalizing number k with
  | nil => cases hk
  | cons first more ih =>
      cases k with
      | zero =>
          cases hk
          exact h.1
      | succ k =>
          have hmore := ih h.2 hk
          rwa [Nat.add_assoc, Nat.add_comm 1 k] at hmore

theorem Consecutive.of_forall {α β : Type} {P : Nat → β → Prop} {Q : α → Prop} (f : Nat → α → β)
    (hf : ∀ number item, Q item → P number (f number item)) {items : List α}
    (h : ∀ item ∈ items, Q item) (number : Nat) :
    Consecutive P number ((items.zipIdx number).map fun (item, i) => f i item) := by
  induction items generalizing number with
  | nil => trivial
  | cons item more ih =>
      refine ⟨hf number item (h item List.mem_cons_self), ?_⟩
      exact ih (fun other hother => h other (List.mem_cons_of_mem item hother)) (number + 1)

theorem Consecutive.map {α β : Type} {P : Nat → α → Prop} {Q : Nat → β → Prop} {f : α → β}
    {items : List α} (hf : ∀ number, ∀ item ∈ items, P number item → Q number (f item))
    {number : Nat} (h : Consecutive P number items) : Consecutive Q number (items.map f) := by
  induction items generalizing number with
  | nil => trivial
  | cons item more ih =>
      refine ⟨hf number item List.mem_cons_self h.1, ?_⟩
      exact ih (fun i other hother => hf i other (List.mem_cons_of_mem item hother)) h.2

/-- All tokens stand on one line, and its comment stands behind the others. -/
structure WholeLine (number : Nat) (tokens : List Token) : Prop where
  onLine : ∀ t ∈ tokens, t.line = number
  commentLast : tokens.Pairwise fun a _ => a.category ≠ .comment

namespace Statement

/-- The body of a whole line is what of it is no comment. -/
theorem body_eq_filter {number : Nat} {tokens : List Token} (h : WholeLine number tokens) :
    body tokens = tokens.filter (·.category ≠ .comment) := by
  cases hlast : tokens.getLast? with
  | none =>
      rw [List.getLast?_eq_none_iff] at hlast
      subst hlast
      rfl
  | some last =>
      obtain ⟨front, rfl⟩ := List.getLast?_eq_some_iff.mp hlast
      have hfront : front.filter (·.category ≠ .comment) = front := by
        rw [List.filter_eq_self]
        intro t ht
        have hpairs := (List.pairwise_append.mp h.commentLast).2.2
        exact decide_eq_true (hpairs t ht last List.mem_cons_self)
      rw [body, hlast, List.filter_append, hfront, List.dropLast_concat]
      show (if last.category = .comment then front else front ++ [last]) = _
      by_cases hc : last.category = .comment
      · rw [if_pos hc, List.filter_cons_of_neg (by simp [hc]), List.filter_nil, List.append_nil]
      · rw [if_neg hc, List.filter_cons_of_pos (by simp [hc]), List.filter_nil]

theorem body_no_comment {number : Nat} {tokens : List Token} (h : WholeLine number tokens) :
    (body tokens).any (·.category = .comment) = false := by
  rw [body_eq_filter h, List.any_eq_false]
  intro t ht
  simpa using (List.mem_filter.mp ht).2

/-- The statements of lines whose tokens are given line by line. -/
def ofLines (number offset : Nat) : List (List Token) → List Statement
  | [] => []
  | here :: more => ⟨number, offset, body here⟩ :: ofLines (number + 1) (offset + here.length) more

/-- No line has tokens of an earlier one. -/
theorem le_line_of_mem_flatten {number : Nat} {blocks : List (List Token)}
    (h : Consecutive WholeLine number blocks) {t : Token} (ht : t ∈ blocks.flatten) :
    number ≤ t.line := by
  induction blocks generalizing number with
  | nil => cases ht
  | cons here more ih =>
      rw [List.flatten_cons, List.mem_append] at ht
      rcases ht with ht | ht
      · exact Nat.le_of_eq (h.1.onLine t ht).symm
      · exact Nat.le_of_succ_le (ih h.2 ht)

/-- The first of consecutive lines is what the cut takes off the document. -/
theorem takeWhile_flatten {number : Nat} {here : List Token} {more : List (List Token)}
    (h : Consecutive WholeLine number (here :: more)) :
    (here ++ more.flatten).takeWhile (·.line = number) = here ∧
      (here ++ more.flatten).dropWhile (·.line = number) = more.flatten := by
  have hhere : ∀ t ∈ here, decide (t.line = number) = true := by
    intro t ht
    exact decide_eq_true (h.1.onLine t ht)
  rw [List.takeWhile_append_of_pos hhere, List.dropWhile_append_of_pos hhere]
  -- blank lines may come between, but the next token is on a later line in any case
  cases hmore : more.flatten with
  | nil => exact ⟨List.append_nil here, rfl⟩
  | cons t rest =>
      have hlater : number + 1 ≤ t.line := le_line_of_mem_flatten h.2 (by rw [hmore]; simp)
      have hother : t.line ≠ number := by omega
      simp [hother]

/-- Consecutive whole lines are cut where they were joined. -/
theorem ofTokensFrom_flatten {number : Nat} (offset : Nat) {blocks : List (List Token)}
    (h : Consecutive WholeLine number blocks) :
    ofTokensFrom number offset blocks.flatten blocks.length =
      .ok (ofLines number offset blocks) := by
  induction blocks generalizing number offset with
  | nil => rfl
  | cons here more ih =>
      obtain ⟨htake, hdrop⟩ := takeWhile_flatten h
      have hmore := ih (offset + here.length) h.2
      simp only [List.flatten_cons, List.length_cons, ofTokensFrom, htake, hdrop,
        body_no_comment h.1, hmore, bind, Except.bind]
      rfl

end Statement

end AsmLens
