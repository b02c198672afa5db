import AsmLens.TokenStream.Edit

/-!
The edit between two streams. The parts it keeps are shared by both streams and never overlap, so
that cutting out the stretch between them and putting the new one in gives the second stream
(`apply_between`); and since both parts are whole tuples, an edit between streams of whole tuples
cuts no tuple.
-/

namespace AsmLens.Edit

variable {previous current : List Nat} {stride : Nat}

/-! ## What is kept -/

theorem take_keptFront (previous current : List Nat) (stride : Nat) :
    previous.take (keptFront previous current stride) =
      current.take (keptFront previous current stride) :=
  take_eq_take_of_le_sharedLength (roundDown_le _ _)

theorem keptFront_le (previous current : List Nat) (stride : Nat) :
    keptFront previous current stride ≤ min previous.length current.length := by
  have hround := roundDown_le (sharedLength previous current) stride
  have hleft := sharedLength_le_left previous current
  have hright := sharedLength_le_right previous current
  unfold keptFront
  omega

theorem keptBack_le (previous current : List Nat) (stride room : Nat) :
    keptBack previous current stride room ≤ room := by
  have hround := roundDown_le (sharedLength (previous.reverse.take room) current.reverse) stride
  have hleft := sharedLength_le_left (previous.reverse.take room) current.reverse
  rw [List.length_take] at hleft
  unfold keptBack
  omega

/-- The part kept behind ends both streams. -/
theorem drop_keptBack (previous current : List Nat) (stride room : Nat) :
    previous.drop (previous.length - keptBack previous current stride room) =
      current.drop (current.length - keptBack previous current stride room) := by
  have hshared := take_eq_take_of_le_sharedLength
    (roundDown_le (sharedLength (previous.reverse.take room) current.reverse) stride)
  have hroom := keptBack_le previous current stride room
  change (previous.reverse.take room).take (keptBack previous current stride room) =
    current.reverse.take (keptBack previous current stride room) at hshared
  generalize keptBack previous current stride room = back at hshared hroom ⊢
  rw [List.take_take, Nat.min_eq_left hroom, List.take_reverse, List.take_reverse,
    List.reverse_inj] at hshared
  exact hshared

/-! ## The edit -/

/-- Between different streams there is an edit, and it replaces what is kept on neither side. -/
theorem between_of_ne (hstride : 0 < stride) (hne : previous ≠ current) :
    ∃ front back, front + back ≤ previous.length ∧ front + back ≤ current.length ∧
      stride ∣ front ∧ stride ∣ back ∧
      previous.take front = current.take front ∧
      previous.drop (previous.length - back) = current.drop (current.length - back) ∧
      between previous current stride = .ok (some ⟨front, previous.length - front - back,
        (current.drop front).take (current.length - back - front)⟩) := by
  have hfront := keptFront_le previous current stride
  generalize hf : keptFront previous current stride = front at hfront
  have hback := keptBack_le previous current stride (min previous.length current.length - front)
  have hdrop := drop_keptBack previous current stride (min previous.length current.length - front)
  have hdvd := dvd_roundDown (sharedLength (previous.reverse.take
    (min previous.length current.length - front)) current.reverse) stride
  generalize hb : keptBack previous current stride (min previous.length current.length - front) =
    back at hback hdrop
  refine ⟨front, back, by omega, by omega, ?_, ?_, ?_, hdrop, ?_⟩
  · rw [← hf]
    exact dvd_roundDown _ _
  · rw [← hb]
    exact hdvd
  · rw [← hf]
    exact take_keptFront previous current stride
  · -- of the differences that the edit is computed from none goes below zero
    simp only [between, if_neg (Nat.ne_of_gt hstride), if_neg hne, hf, bind, Except.bind,
      Word.sub_of_le _ hfront, hb]
    rw [Word.sub_of_le _ (show front ≤ previous.length by omega)]
    simp only
    rw [Word.sub_of_le _ (show back ≤ previous.length - front by omega),
      Word.sub_of_le _ (show back ≤ current.length by omega)]
    simp only
    rw [Word.sub_of_le _ (show front ≤ current.length - back by omega)]
    rfl

theorem between_self (hstride : 0 < stride) (stream : List Nat) :
    between stream stream stride = .ok none := by
  rw [between, if_neg (Nat.ne_of_gt hstride), if_pos rfl]

/-- To empty a stream, all of it is taken out. -/
theorem between_nil (hstride : 0 < stride) (hne : previous ≠ []) :
    between previous [] stride = .ok (some ⟨0, previous.length, []⟩) := by
  obtain ⟨front, back, -, hcurrent, -, -, -, -, hbetween⟩ := between_of_ne hstride hne
  rw [List.length_nil, Nat.le_zero, Nat.add_eq_zero_iff] at hcurrent
  obtain ⟨rfl, rfl⟩ := hcurrent
  exact hbetween

/-- Any two streams have a difference. -/
theorem between_total (hstride : 0 < stride) (previous current : List Nat) :
    ∃ edit, between previous current stride = .ok edit := by
  by_cases h : previous = current
  · subst h
    exact ⟨none, between_self hstride previous⟩
  · obtain ⟨front, back, -, -, -, -, -, -, hbetween⟩ := between_of_ne hstride h
    exact ⟨_, hbetween⟩

theorem eq_of_between_eq_none (hstride : 0 < stride)
    (h : between previous current stride = .ok none) : previous = current := by
  by_cases heq : previous = current
  · exact heq
  · obtain ⟨front, back, -, -, -, -, -, -, hbetween⟩ := between_of_ne hstride heq
    rw [hbetween] at h
    cases h

/-- The edit is what is kept on neither side. -/
theorem eq_of_between {edit : Edit} (h : between previous current stride = .ok (some edit)) :
    ∃ room back, room = min previous.length current.length - keptFront previous current stride ∧
      back = keptBack previous current stride room ∧
      edit.start = keptFront previous current stride ∧
      edit.deleteCount = previous.length - edit.start - back ∧
      edit.data = (current.drop edit.start).take (current.length - back - edit.start) := by
  unfold between at h
  split at h
  · cases h
  · split at h
    · cases h
    · obtain ⟨room, hroom, h⟩ := Checked.bind_eq_ok_iff.mp h
      obtain ⟨changed, hchanged, h⟩ := Checked.bind_eq_ok_iff.mp h
      obtain ⟨deleteCount, hdelete, h⟩ := Checked.bind_eq_ok_iff.mp h
      obtain ⟨dataEnd, hend, h⟩ := Checked.bind_eq_ok_iff.mp h
      obtain ⟨dataLength, hlength, h⟩ := Checked.bind_eq_ok_iff.mp h
      cases h
      obtain ⟨-, rfl⟩ := Word.sub_eq_ok_iff.mp hroom
      obtain ⟨-, rfl⟩ := Word.sub_eq_ok_iff.mp hchanged
      obtain ⟨-, rfl⟩ := Word.sub_eq_ok_iff.mp hdelete
      obtain ⟨-, rfl⟩ := Word.sub_eq_ok_iff.mp hend
      obtain ⟨-, rfl⟩ := Word.sub_eq_ok_iff.mp hlength
      exact ⟨_, _, rfl, rfl, rfl, rfl, rfl⟩

/-- The edit between two streams lies inside the first and turns it into the second. -/
theorem apply_between {edit : Edit} (hstride : 0 < stride)
    (h : between previous current stride = .ok (some edit)) :
    edit.start + edit.deleteCount ≤ previous.length ∧
      previous.take edit.start ++ edit.data ++ previous.drop (edit.start + edit.deleteCount) =
        current := by
  have hne : previous ≠ current := by
    rintro rfl
    rw [between_self hstride] at h
    cases h
  obtain ⟨front, back, hprevious, hcurrent, -, -, htake, hdrop, hbetween⟩ :=
    between_of_ne hstride hne
  rw [hbetween] at h
  cases h
  have hend : front + (previous.length - front - back) = previous.length - back := by omega
  refine ⟨by simp only; omega, ?_⟩
  simp only [hend, hdrop, htake]
  -- the three stretches of `current`: before the edit, its data, behind it
  have hsplit : current.drop (current.length - back) =
      (current.drop front).drop (current.length - back - front) := by
    rw [List.drop_drop, Nat.add_sub_cancel' (by omega)]
  rw [hsplit, List.append_assoc, List.take_append_drop, List.take_append_drop]

/-- An edit between streams of whole tuples takes out and puts in whole tuples. -/
theorem stride_dvd_between {edit : Edit} (hstride : 0 < stride)
    (h : between previous current stride = .ok (some edit))
    (hprevious : stride ∣ previous.length) (hcurrent : stride ∣ current.length) :
    stride ∣ edit.start ∧ stride ∣ edit.deleteCount ∧ stride ∣ edit.data.length := by
  have hne : previous ≠ current := by
    rintro rfl
    rw [between_self hstride] at h
    cases h
  obtain ⟨front, back, -, -, hfront, hback, -, -, hbetween⟩ := between_of_ne hstride hne
  rw [hbetween] at h
  cases h
  have hinserted : stride ∣ current.length - back - front :=
    Nat.dvd_sub (Nat.dvd_sub hcurrent hback) hfront
  refine ⟨hfront, Nat.dvd_sub (Nat.dvd_sub hprevious hfront) hback, ?_⟩
  simp only [List.length_take, List.length_drop]
  rwa [Nat.min_eq_left (by omega)]

/-- The lengths that an edit is computed from: `room` is what the front leaves of the shorter
stream, and `back` is kept behind. They are told as sums, since each of the differences is a whole
one. -/
structure Measured (previous current : List Nat) (stride room back : Nat) (edit : Edit) : Prop where
  front : edit.start + sharedLength previous current % stride = sharedLength previous current
  shorter : room + edit.start = min previous.length current.length
  behind : back + sharedLength (previous.reverse.take room) current.reverse % stride =
    sharedLength (previous.reverse.take room) current.reverse
  deleted : edit.deleteCount + edit.start + back = previous.length
  inserted : edit.data.length + edit.start + back = current.length

theorem roundDown_add_mod (n stride : Nat) : roundDown n stride + n % stride = n :=
  Nat.sub_add_cancel (Nat.mod_le n stride)

/-- Nothing that an edit is computed from goes below zero. -/
theorem measured_of_between {edit : Edit}
    (h : between previous current stride = .ok (some edit)) :
    ∃ room back, stride ∣ back ∧ Measured previous current stride room back edit := by
  obtain ⟨room, back, hroom, hback, hstart, hdelete, hdata⟩ := eq_of_between h
  have hfrontLe := keptFront_le previous current stride
  have hbackLe := keptBack_le previous current stride room
  rw [← hstart] at hroom hfrontLe
  rw [← hback] at hbackLe
  have hdataLength := congrArg List.length hdata
  rw [List.length_take, List.length_drop] at hdataLength
  refine ⟨room, back, ?_, ?_, by omega, ?_, by omega, by omega⟩
  · rw [hback]
    exact dvd_roundDown _ _
  · rw [hstart]
    exact roundDown_add_mod _ _
  · rw [hback]
    exact roundDown_add_mod _ _

/-- Between any streams there is a difference, and it is none exactly where they are the same.
Otherwise it is an edit inside the first stream that turns it into the second. It starts after whole
tuples and leaves whole tuples behind; between streams of whole tuples it takes out and puts in
whole tuples. No difference of lengths on the way to it goes below zero. -/
theorem between_splices (hstride : 0 < stride) (previous current : List Nat) :
    (between previous current stride = .ok none ↔ previous = current) ∧
    (previous ≠ current → ∃ edit,
      between previous current stride = .ok (some edit) ∧
      stride ∣ edit.start ∧
      edit.start + edit.deleteCount ≤ previous.length ∧
      stride ∣ previous.length - edit.start - edit.deleteCount ∧
      apply previous edit = .ok current ∧
      (stride ∣ previous.length → stride ∣ current.length →
        stride ∣ edit.deleteCount ∧ stride ∣ edit.data.length) ∧
      ∃ room back, Measured previous current stride room back edit) := by
  constructor
  · constructor
    · exact eq_of_between_eq_none hstride
    · rintro rfl
      exact between_self hstride previous
  · intro hne
    obtain ⟨_, _, -, -, hfront, -, -, -, hbetween⟩ := between_of_ne hstride hne
    obtain ⟨hinside, hspliced⟩ := apply_between hstride hbetween
    obtain ⟨room, back, hback, hmeasured⟩ := measured_of_between hbetween
    refine ⟨_, hbetween, hfront, hinside, ?_, ?_, ?_, room, back, hmeasured⟩
    · -- what an edit leaves behind is what is kept there
      have hdeleted := hmeasured.deleted
      have hleft : ∀ start deleteCount : Nat, deleteCount + start + back = previous.length →
          previous.length - start - deleteCount = back := by omega
      rw [hleft _ _ hdeleted]
      exact hback
    · rw [apply, if_pos hinside, hspliced]
    · intro hprevious hcurrent
      exact (stride_dvd_between hstride hbetween hprevious hcurrent).2

/-- Repeated values, for which both walks compete, in streams that are no multiples of the stride.
-/
theorem between_splices_repeated :
    0 < 2 ∧ [7, 7, 7, 7, 7, 7, 7] ≠ [7, 7, 7, 7, 7] ∧
      ∃ edit, between [7, 7, 7, 7, 7, 7, 7] [7, 7, 7, 7, 7] 2 = .ok (some edit) ∧
        2 ∣ edit.start ∧ edit.start + edit.deleteCount ≤ 7 ∧
        2 ∣ 7 - edit.start - edit.deleteCount ∧
        apply [7, 7, 7, 7, 7, 7, 7] edit = .ok [7, 7, 7, 7, 7] := by
  obtain ⟨edit, hbetween, hstart, hinside, hbehind, happly, -⟩ :=
    (between_splices (show 0 < 2 by decide) [7, 7, 7, 7, 7, 7, 7] [7, 7, 7, 7, 7]).2 (by decide)
  exact ⟨by decide, by decide, edit, hbetween, hstart, hinside, hbehind, happly⟩

end AsmLens.Edit
