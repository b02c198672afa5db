import Mathlib.Data.List.Induction

/-!
What is in force after a history: the latest entry that gives something, as long as every later one
keeps it. One entry more either takes its place or leaves it as it is (`inForce_concat_iff`), so
what a state remembers of its history is compared with it one step at a time.
-/

namespace AsmLens

variable {α : Type} {gives keeps : α → Prop} {history : List α} {a b : α}

/-- The entry gives something that all later ones keep. -/
def InForce (gives keeps : α → Prop) (history : List α) (a : α) : Prop :=
  ∃ earlier later, history = earlier ++ a :: later ∧ gives a ∧ ∀ b ∈ later, keeps b

theorem not_inForce_nil : ¬ InForce gives keeps [] a := by
  rintro ⟨earlier, later, hsplit, -⟩
  simp at hsplit

theorem inForce_concat_iff :
    InForce gives keeps (history ++ [b]) a ↔
      a = b ∧ gives b ∨ InForce gives keeps history a ∧ keeps b := by
  constructor
  · rintro ⟨earlier, later, hsplit, hgives, hlater⟩
    rcases List.eq_nil_or_concat later with rfl | ⟨front, final, rfl⟩
    · obtain ⟨-, hsame⟩ := List.append_inj' hsplit rfl
      cases hsame
      exact Or.inl ⟨rfl, hgives⟩
    · rw [List.concat_eq_append] at hsplit hlater
      rw [← List.cons_append, ← List.append_assoc] at hsplit
      obtain ⟨hfront, hsame⟩ := List.append_inj' hsplit rfl
      cases hsame
      refine Or.inr ⟨⟨earlier, front, hfront, hgives, ?_⟩, ?_⟩
      · intro c hc
        exact hlater c (List.mem_append_left _ hc)
      · exact hlater b (List.mem_append_right _ List.mem_cons_self)
  · rintro (⟨rfl, hgives⟩ | ⟨⟨earlier, later, rfl, hgives, hlater⟩, hkeeps⟩)
    · exact ⟨history, [], rfl, hgives, by simp⟩
    · refine ⟨earlier, later ++ [b], by simp, hgives, ?_⟩
      intro c hc
      rcases List.mem_append.mp hc with hc | hc
      · exact hlater c hc
      · rw [List.mem_singleton.mp hc]
        exact hkeeps

/-- Where whatever gives something ends what was in force, there is one such entry at most. -/
theorem InForce.unique (hends : ∀ c, gives c → ¬ keeps c) (ha : InForce gives keeps history a)
    (hb : InForce gives keeps history b) : a = b := by
  induction history using List.reverseRecOn with
  | nil => exact absurd ha not_inForce_nil
  | append_singleton past c ih =>
      rcases inForce_concat_iff.mp ha with ⟨rfl, hgives⟩ | ⟨ha, hkeeps⟩
      · rcases inForce_concat_iff.mp hb with ⟨rfl, -⟩ | ⟨-, hkeeps⟩
        · rfl
        · exact absurd hkeeps (hends a hgives)
      · rcases inForce_concat_iff.mp hb with ⟨rfl, hgives⟩ | ⟨hb, -⟩
        · exact absurd hkeeps (hends b hgives)
        · exact ih ha hb

end AsmLens
