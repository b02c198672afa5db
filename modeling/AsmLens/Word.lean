import AsmLens.Fault

/-!
Positions, lengths and token data are 32-bit words. They are kept as natural numbers; this module
holds the bound and the three ways in which a result is brought within it: `clamp` takes the nearest
word, `add` and `sub` break off when there is no exact one.
-/

namespace AsmLens.Word

/-- The largest word. -/
def limit : Nat := 4294967295

/-- The largest double word, the bound of stream offsets and result identifiers. -/
def doubleLimit : Nat := 18446744073709551615

/-- The word nearest to `n`. -/
def clamp (n : Nat) : Nat := min n limit

/-- The sum of two words, if it is a word. -/
def add (broken : Fault) (a b : Nat) : Checked Nat :=
  if a + b ≤ limit then .ok (a + b) else .error broken

/-- The difference of two words, if it is a word. -/
def sub (broken : Fault) (a b : Nat) : Checked Nat :=
  if b ≤ a then .ok (a - b) else .error broken

theorem clamp_le (n : Nat) : clamp n ≤ limit := Nat.min_le_right n limit

theorem clamp_of_le {n : Nat} (h : n ≤ limit) : clamp n = n := Nat.min_eq_left h

theorem add_of_le {a b : Nat} (broken : Fault) (h : a + b ≤ limit) :
    add broken a b = .ok (a + b) := if_pos h

/-- A sum that is given is a word. -/
theorem add_eq_ok_iff {broken : Fault} {a b c : Nat} :
    add broken a b = .ok c ↔ a + b ≤ limit ∧ c = a + b := by
  unfold add
  split
  · next h =>
      constructor
      · rintro ⟨⟩
        exact ⟨h, rfl⟩
      · rintro ⟨-, rfl⟩
        rfl
  · next h =>
      constructor
      · rintro ⟨⟩
      · rintro ⟨hle, -⟩
        exact absurd hle h

theorem sub_of_le {a b : Nat} (broken : Fault) (h : b ≤ a) :
    sub broken a b = .ok (a - b) := if_pos h

theorem sub_eq_ok_iff {broken : Fault} {a b c : Nat} :
    sub broken a b = .ok c ↔ b ≤ a ∧ c = a - b := by
  unfold sub
  split
  · next h =>
      constructor
      · rintro ⟨⟩
        exact ⟨h, rfl⟩
      · rintro ⟨-, rfl⟩
        rfl
  · next h =>
      constructor
      · rintro ⟨⟩
      · rintro ⟨hle, -⟩
        exact absurd hle h

end AsmLens.Word
