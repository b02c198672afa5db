import AsmLens.Word

/-!
The change from one integer stream to another as a single edit. What the streams share in front is
kept, then what they share behind and have left over; the stretch between is replaced. Both shared
parts are cut down to a multiple of a stride, so with the stride of a tuple no tuple is cut.
-/

namespace AsmLens

/-- Replaces `deleteCount` integers from `start` on by `data`. -/
structure Edit where
  start : Nat
  deleteCount : Nat
  data : List Nat
  deriving DecidableEq, Repr

namespace Edit

/-- How many leading entries two streams share. -/
def sharedLength : List Nat → List Nat → Nat
  | a :: as, b :: bs => if a = b then sharedLength as bs + 1 else 0
  | _, _ => 0

/-- The largest multiple of `stride` up to `n`. -/
def roundDown (n stride : Nat) : Nat := n - n % stride

/-- How much of two streams is kept in front. -/
def keptFront (previous current : List Nat) (stride : Nat) : Nat :=
  roundDown (sharedLength previous current) stride

/-- How much of two streams is kept behind, when `room` entries of the shorter one are left. -/
def keptBack (previous current : List Nat) (stride room : Nat) : Nat :=
  roundDown (sharedLength (previous.reverse.take room) current.reverse) stride

/-- The edit that turns `previous` into `current`, if they differ. -/
def between (previous current : List Nat) (stride : Nat) : Checked (Option Edit) :=
  if stride = 0 then .error .emptyStride
  else if previous = current then .ok none
  else do
    let front := keptFront previous current stride
    let room ← Word.sub .editOutOfRange (min previous.length current.length) front
    let back := keptBack previous current stride room
    let changed ← Word.sub .editOutOfRange previous.length front
    let deleteCount ← Word.sub .editOutOfRange changed back
    let dataEnd ← Word.sub .editOutOfRange current.length back
    let dataLength ← Word.sub .editOutOfRange dataEnd front
    return some ⟨front, deleteCount, (current.drop front).take dataLength⟩

/-- The stream after an edit, which has to lie inside it. -/
def apply (previous : List Nat) (edit : Edit) : Checked (List Nat) :=
  if edit.start + edit.deleteCount ≤ previous.length then
    .ok (previous.take edit.start ++ edit.data ++ previous.drop (edit.start + edit.deleteCount))
  else .error .editOutOfRange

theorem sharedLength_le_left (a b : List Nat) : sharedLength a b ≤ a.length := by
  fun_induction sharedLength a b with
  | case1 a as bs ih => simpa using ih
  | case2 => simp
  | case3 => simp

theorem sharedLength_le_right (a b : List Nat) : sharedLength a b ≤ b.length := by
  fun_induction sharedLength a b with
  | case1 a as bs ih => simpa using ih
  | case2 => simp
  | case3 => simp

/-- Streams agree as far as their shared length. -/
theorem take_eq_take_of_le_sharedLength {a b : List Nat} {n : Nat} (h : n ≤ sharedLength a b) :
    a.take n = b.take n := by
  fun_induction sharedLength a b generalizing n with
  | case1 a as bs ih =>
      cases n with
      | zero => rfl
      | succ n => simp [ih (Nat.le_of_succ_le_succ h)]
  | case2 =>
      rw [Nat.le_zero.mp h]
      rfl
  | case3 =>
      rw [Nat.le_zero.mp h]
      rfl

theorem roundDown_le (n stride : Nat) : roundDown n stride ≤ n := Nat.sub_le n (n % stride)

theorem dvd_roundDown (n stride : Nat) : stride ∣ roundDown n stride := Nat.dvd_sub_mod n

end Edit

end AsmLens
