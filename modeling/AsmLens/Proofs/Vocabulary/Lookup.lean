import AsmLens.Vocabulary
import Mathlib.Data.List.Chain
import Mathlib.Data.List.Pairwise

/-!
Looking a word up. The tables are sorted, so the half that a search leaves aside cannot hold the
word: a vocabulary holds the words of its table and no others (`contains_iff`), and a word without a
vocabulary is one that stands in no table (`categoryOf_eq_unknown_iff`). No word stands in two
tables, so the order in which they are tried decides nothing (`lookup_exact`).
-/

namespace AsmLens.Vocabulary

/-- The words of a table stand in byte order, and none of them stands there twice. -/
theorem sorted_table (v : Vocabulary) : v.table.toList.Pairwise (· < ·) := by
  have hneighbours : v.table.toList.IsChain (· < ·) := by
    cases v <;> decide +kernel
  exact (List.isChain_iff_pairwise (R := (· < ·))).mp hneighbours

/-- In a sorted table a word at an earlier place comes before one at a later place. -/
theorem lt_of_getElem? {table : Array String} (hsorted : table.toList.Pairwise (· < ·)) {i j : Nat}
    {a b : String} (ha : table[i]? = some a) (hb : table[j]? = some b) (hij : i < j) : a < b := by
  obtain ⟨hi, rfl⟩ := Array.getElem?_eq_some_iff.mp ha
  obtain ⟨hj, rfl⟩ := Array.getElem?_eq_some_iff.mp hb
  exact List.pairwise_iff_getElem.mp hsorted i j (by simpa using hi) (by simpa using hj) hij

/-- The search finds a word where it stands in the part of the table that is searched. -/
theorem search_eq_true_iff {table : Array String} (hsorted : table.toList.Pairwise (· < ·))
    {word : String} {lo hi : Nat} (hhi : hi ≤ table.size) :
    search table word lo hi = true ↔ ∃ i, lo ≤ i ∧ i < hi ∧ table[i]? = some word := by
  fun_induction search table word lo hi with
  | case1 lo hi hlt hnone =>
      -- the middle lies in the table
      rw [Array.getElem?_eq_none_iff] at hnone
      omega
  | case2 lo hi hlt hentry => exact iff_of_true rfl ⟨_, by omega, by omega, hentry⟩
  | case3 lo hi hlt entry hentry hother hbefore ih =>
      rw [ih hhi]
      constructor
      · rintro ⟨i, hfrom, hto, hword⟩
        exact ⟨i, by omega, hto, hword⟩
      · rintro ⟨i, hfrom, hto, hword⟩
        refine ⟨i, ?_, hto, hword⟩
        -- the word comes after the middle entry, so it does not stand at or before its place
        by_contra hmiddle
        rcases Nat.eq_or_lt_of_le (show i ≤ lo + (hi - lo) / 2 by omega) with rfl | hless
        · exact hother (Option.some.inj (hentry.symm.trans hword))
        · exact String.lt_asymm hbefore (lt_of_getElem? hsorted hword hentry hless)
  | case4 lo hi hlt entry hentry hother hafter ih =>
      rw [ih (by omega)]
      constructor
      · rintro ⟨i, hfrom, hto, hword⟩
        exact ⟨i, hfrom, by omega, hword⟩
      · rintro ⟨i, hfrom, hto, hword⟩
        refine ⟨i, hfrom, ?_, hword⟩
        by_contra hmiddle
        rcases Nat.eq_or_lt_of_le (show lo + (hi - lo) / 2 ≤ i by omega) with rfl | hless
        · exact hother (Option.some.inj (hentry.symm.trans hword))
        · exact hafter (lt_of_getElem? hsorted hentry hword hless)
  | case5 lo hi hempty =>
      refine iff_of_false (by simp) ?_
      rintro ⟨i, hfrom, hto, -⟩
      omega

/-- A vocabulary holds the words of its table. -/
theorem contains_iff {v : Vocabulary} {word : String} :
    v.contains word = true ↔ word ∈ v.table := by
  rw [contains, search_eq_true_iff v.sorted_table (Nat.le_refl _), Array.mem_iff_getElem?]
  constructor
  · rintro ⟨i, -, -, hword⟩
    exact ⟨i, hword⟩
  · rintro ⟨i, hword⟩
    exact ⟨i, Nat.zero_le i, (Array.getElem?_eq_some_iff.mp hword).1, hword⟩

theorem mem_all (v : Vocabulary) : v ∈ all := by
  cases v <;> simp [all]

theorem category_ne_unknown (v : Vocabulary) : v.category ≠ .unknown := by
  cases v <;> simp [category]

/-! ## One vocabulary to a word -/

/-- No table holds a word of a table that is tried after it. -/
theorem table_apart_later :
    all.Pairwise fun v w => ∀ word ∈ w.table.toList, v.contains word = false := by
  decide +kernel

/-- No word stands in both of two vocabularies. -/
def Apart (v w : Vocabulary) : Prop := ∀ word, word ∈ v.table → word ∉ w.table

instance : Std.Symm Apart where
  symm _ _ h word hw hv := h word hv hw

/-- No word stands in two tables. -/
theorem eq_of_mem_table {v w : Vocabulary} {word : String} (hv : word ∈ v.table)
    (hw : word ∈ w.table) : v = w := by
  have hapart : all.Pairwise Apart := by
    refine table_apart_later.imp ?_
    intro v w hnone word hv hw
    have hmissing : v.contains word = false := hnone word (Array.mem_toList_iff.mpr hw)
    rw [contains_iff.mpr hv] at hmissing
    cases hmissing
  by_contra hother
  exact hapart.forall v.mem_all w.mem_all hother word hv hw

theorem category_inj {v w : Vocabulary} (h : v.category = w.category) : v = w := by
  cases v <;> cases w <;> cases h <;> rfl

/-- The category of a word when the vocabularies are tried in an order of one's own. -/
def categoryIn (order : List Vocabulary) (word : String) : Category :=
  match order.find? (·.contains word) with
  | some v => v.category
  | none => .unknown

/-- A vocabulary at which a look-up ends holds the word. -/
theorem mem_table_of_find? {order : List Vocabulary} {v : Vocabulary} {word : String}
    (h : order.find? (·.contains word) = some v) : word ∈ v.table :=
  contains_iff.mp (List.find?_some (p := fun v : Vocabulary => v.contains word) h)

/-- In every order a word of a table gets the category of that table. -/
theorem categoryIn_of_mem {order : List Vocabulary} (hall : ∀ v, v ∈ order) {v : Vocabulary}
    {word : String} (h : word ∈ v.table) : categoryIn order word = v.category := by
  unfold categoryIn
  split
  · next w hfound => rw [eq_of_mem_table (mem_table_of_find? hfound) h]
  · next hnone => exact absurd (contains_iff.mpr h) (List.find?_eq_none.mp hnone v (hall v))

/-- In every order a word of no table gets no category. -/
theorem categoryIn_of_not_mem {order : List Vocabulary} {word : String}
    (h : ∀ v : Vocabulary, word ∉ v.table) : categoryIn order word = .unknown := by
  unfold categoryIn
  split
  · next v hfound => exact absurd (mem_table_of_find? hfound) (h v)
  · rfl

/-- The words without a category are those that stand in no table. -/
theorem categoryOf_eq_unknown_iff {word : String} :
    categoryOf word = .unknown ↔ ∀ v : Vocabulary, word ∉ v.table := by
  constructor
  · intro hunknown v hword
    exact v.category_ne_unknown ((categoryIn_of_mem mem_all hword).symm.trans hunknown)
  · exact categoryIn_of_not_mem

/-- A word has the category of a vocabulary where it stands in the table, and nowhere else. -/
theorem categoryOf_eq_category_iff {v : Vocabulary} {word : String} :
    categoryOf word = v.category ↔ word ∈ v.table := by
  constructor
  · intro hcategory
    by_cases hnone : ∀ w : Vocabulary, word ∉ w.table
    · rw [categoryOf_eq_unknown_iff.mpr hnone] at hcategory
      exact absurd hcategory.symm v.category_ne_unknown
    · obtain ⟨w, hw⟩ := not_forall_not.mp hnone
      have hsame : w.category = v.category :=
        (categoryIn_of_mem mem_all hw).symm.trans hcategory
      rwa [← category_inj hsame]
  · exact categoryIn_of_mem mem_all

/-- Looking a word up by halving finds it in the tables that hold it and in no others; there is one
such table at most, the word has the category of that one, or `unknown` if there is none, and so it
has in whatever order the vocabularies are tried. -/
theorem lookup_exact (word : String) :
    (∀ v : Vocabulary, v.contains word = true ↔ word ∈ v.table) ∧
      (∀ v w : Vocabulary, v.contains word = true → w.contains word = true → v = w) ∧
      (∀ v : Vocabulary, categoryOf word = v.category ↔ word ∈ v.table) ∧
      (categoryOf word = .unknown ↔ ∀ v : Vocabulary, word ∉ v.table) ∧
      ∀ order : List Vocabulary, (∀ v, v ∈ order) → categoryIn order word = categoryOf word := by
  refine ⟨fun _ => contains_iff, ?_, fun _ => categoryOf_eq_category_iff,
    categoryOf_eq_unknown_iff, ?_⟩
  · intro v w hv hw
    exact eq_of_mem_table (contains_iff.mp hv) (contains_iff.mp hw)
  · intro order hall
    by_cases hnone : ∀ v : Vocabulary, word ∉ v.table
    · rw [categoryIn_of_not_mem hnone, categoryOf_eq_unknown_iff.mpr hnone]
    · obtain ⟨v, hv⟩ := not_forall_not.mp hnone
      rw [categoryIn_of_mem hall hv, categoryOf_eq_category_iff.mpr hv]

/-- A word of a table and one that goes on behind it, with the vocabularies tried from the last. -/
theorem lookup_exact_reversed :
    (∀ v : Vocabulary, v ∈ all.reverse) ∧ categoryIn all.reverse "rep" = .keyword ∧
      categoryIn all.reverse "repé" = .unknown := by
  have hall : ∀ v : Vocabulary, v ∈ all.reverse := fun v => List.mem_reverse.mpr v.mem_all
  obtain ⟨-, -, hcategory, -, hrep⟩ := lookup_exact "rep"
  obtain ⟨-, -, -, hunknown, hlonger⟩ := lookup_exact "repé"
  have hword : "rep" ∈ mnemonics.table := by decide +kernel
  have hnone : ∀ v : Vocabulary, "repé" ∉ v.table := by
    intro v
    cases v <;> decide +kernel
  exact ⟨hall, (hrep _ hall).trans ((hcategory mnemonics).mpr hword),
    (hlonger _ hall).trans (hunknown.mpr hnone)⟩

end AsmLens.Vocabulary
