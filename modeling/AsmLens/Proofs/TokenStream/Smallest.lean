import AsmLens.Proofs.TokenStream.Splice

/-!
No aligned edit is smaller. Whatever two streams share in front and behind in whole tuples, the edit
between them replaces no more than what lies in the middle, on either side (`length_le_of_between`).
Where tuples repeat, the walk from the front may run past the middle and leave the walk from behind
less room than there is to share; then that walk uses up the shorter stream, and what is left over
of it is less than a tuple. Every edit that keeps whole tuples on either side has such a middle, so
the edit that is computed is the smallest of them all (`between_smallest`).
-/

namespace AsmLens.Edit

variable {previous current : List Nat} {stride : Nat}

/-! ## What is shared is kept -/

theorem le_roundDown {k n : Nat} (hk : stride ∣ k) (h : k ≤ n) : k ≤ roundDown n stride := by
  have hround : roundDown n stride = stride * (n / stride) := by
    have hsplit := Nat.div_add_mod n stride
    unfold roundDown
    omega
  obtain ⟨q, rfl⟩ := hk
  rw [hround]
  rcases Nat.eq_zero_or_pos stride with rfl | hpos
  · simp
  · have hq : q ≤ n / stride := by
      rw [Nat.le_div_iff_mul_le hpos, Nat.mul_comm]
      exact h
    exact Nat.mul_le_mul_left stride hq

/-- What two streams begin with, they share. -/
theorem length_le_sharedLength {front a b : List Nat} (ha : front <+: a) (hb : front <+: b) :
    front.length ≤ sharedLength a b := by
  obtain ⟨x, rfl⟩ := ha
  obtain ⟨y, rfl⟩ := hb
  induction front with
  | nil => exact Nat.zero_le _
  | cons n front ih =>
      simp only [List.cons_append, sharedLength, if_true, List.length_cons]
      exact Nat.succ_le_succ ih

theorem length_le_keptFront {front : List Nat} (hprevious : front <+: previous)
    (hcurrent : front <+: current) (hfront : stride ∣ front.length) :
    front.length ≤ keptFront previous current stride :=
  le_roundDown hfront (length_le_sharedLength hprevious hcurrent)

/-- As much of a shared end is kept as there is room for. -/
theorem le_keptBack {back : List Nat} {k room : Nat} (hprevious : back <:+ previous)
    (hcurrent : back <:+ current) (hk : stride ∣ k) (hback : k ≤ back.length) (hroom : k ≤ room) :
    k ≤ keptBack previous current stride room := by
  refine le_roundDown hk ?_
  have hshared : (back.reverse.take k).length ≤
      sharedLength (previous.reverse.take room) current.reverse := by
    refine length_le_sharedLength ?_ ?_
    · have hbegins : back.reverse <+: previous.reverse := List.reverse_prefix.mpr hprevious
      rw [List.prefix_take_iff]
      refine ⟨(List.take_prefix k back.reverse).trans hbegins, ?_⟩
      rw [List.length_take]
      omega
    · exact (List.take_prefix k back.reverse).trans (List.reverse_prefix.mpr hcurrent)
  rwa [List.length_take, List.length_reverse, Nat.min_eq_left hback] at hshared

/-! ## The edit -/

/-- Nothing of whole tuples that both streams have in front or behind is replaced. -/
theorem length_le_of_between {front middle middle' back : List Nat} {edit : Edit}
    (hfront : stride ∣ front.length) (hback : stride ∣ back.length)
    (h : between (front ++ middle ++ back) (front ++ middle' ++ back) stride = .ok (some edit)) :
    front.length ≤ edit.start ∧ edit.deleteCount ≤ middle.length ∧
      edit.data.length ≤ middle'.length := by
  obtain ⟨room, kept, hroom, hkept, hstart, hdelete, hdata⟩ := eq_of_between h
  have hbegins : ∀ l : List Nat, front <+: front ++ l ++ back := fun l => by
    rw [List.append_assoc]
    exact List.prefix_append front _
  have hends : ∀ l : List Nat, back <:+ front ++ l ++ back := fun l => List.suffix_append _ back
  have hstartLe : front.length ≤ edit.start := by
    rw [hstart]
    exact length_le_keptFront (hbegins middle) (hbegins middle') hfront
  have hwhole : stride ∣ edit.start := by
    rw [hstart]
    exact dvd_roundDown _ _
  -- any whole tuples of the shared end are kept for which the front has left room
  have hkeptLe : ∀ k, stride ∣ k → k ≤ back.length → k ≤ room → k ≤ kept := by
    intro k hk hle hroomLe
    rw [hkept]
    exact le_keptBack (hends middle) (hends middle') hk hle hroomLe
  rw [← hstart] at hroom
  have hdataLength := congrArg List.length hdata
  simp only [List.length_append, List.length_take, List.length_drop] at hroom hdelete hdataLength
  refine ⟨hstartLe, ?_⟩
  by_cases hfits : back.length ≤ room
  · have hall := hkeptLe back.length hback (Nat.le_refl _) hfits
    omega
  · have hround := hkeptLe (roundDown room stride) (dvd_roundDown _ _)
      (Nat.le_trans (roundDown_le _ _) (Nat.le_of_not_le hfits)) (roundDown_le _ _)
    -- what the shorter stream has left over is no more than what it has in the middle
    have hleft : room % stride ≤ min middle.length middle'.length := by
      by_cases hpast : edit.start ≤ front.length + back.length
      · have hmod : room % stride = min middle.length middle'.length % stride := by
          have hdvd : stride ∣ front.length + back.length - edit.start :=
            Nat.dvd_sub (Nat.dvd_add hfront hback) hwhole
          have hsum : room = front.length + back.length - edit.start +
              min middle.length middle'.length := by omega
          rw [hsum, Nat.add_mod, Nat.mod_eq_zero_of_dvd hdvd, Nat.zero_add, Nat.mod_mod]
        rw [hmod]
        exact Nat.mod_le _ _
      · have hle := Nat.mod_le room stride
        omega
    unfold roundDown at hround
    omega

/-! ## All aligned edits -/

/-- An edit that turns one stream into another and keeps whole tuples of the first on either side.
Of what it replaces nothing is asked: either stream may have less than a tuple left over. -/
structure Aligned (previous current : List Nat) (stride : Nat) (edit : Edit) : Prop where
  front : stride ∣ edit.start
  inside : edit.start + edit.deleteCount ≤ previous.length
  behind : stride ∣ previous.length - edit.start - edit.deleteCount
  applied : apply previous edit = .ok current

/-- What an aligned edit keeps, both streams have. -/
theorem Aligned.exists_split {edit : Edit} (h : Aligned previous current stride edit) :
    ∃ front middle back, previous = front ++ middle ++ back ∧ current = front ++ edit.data ++ back ∧
      front.length = edit.start ∧ middle.length = edit.deleteCount ∧ stride ∣ back.length := by
  have hinside := h.inside
  have happlied := h.applied
  rw [apply, if_pos hinside] at happlied
  refine ⟨previous.take edit.start, (previous.drop edit.start).take edit.deleteCount,
    previous.drop (edit.start + edit.deleteCount), ?_, (Except.ok.inj happlied).symm, ?_, ?_, ?_⟩
  · rw [List.append_assoc, ← List.drop_drop, List.take_append_drop, List.take_append_drop]
  · rw [List.length_take]
    omega
  · rw [List.length_take, List.length_drop]
    omega
  · rw [List.length_drop, ← Nat.sub_sub]
    exact h.behind

/-- The edit between two streams is aligned. -/
theorem aligned_of_between {edit : Edit} (hstride : 0 < stride)
    (h : between previous current stride = .ok (some edit)) :
    Aligned previous current stride edit := by
  obtain ⟨hinside, hspliced⟩ := apply_between hstride h
  obtain ⟨_, _, -, -, hstart, -, -⟩ := eq_of_between h
  obtain ⟨room, back, hback, hmeasured⟩ := measured_of_between h
  have hdeleted := hmeasured.deleted
  have hleft : previous.length - edit.start - edit.deleteCount = back := by omega
  constructor
  case front =>
    rw [hstart]
    exact dvd_roundDown _ _
  case inside => exact hinside
  case behind =>
    rw [hleft]
    exact hback
  case applied => rw [apply, if_pos hinside, hspliced]

/-- No aligned edit is smaller than the one that is computed, and none starts later. -/
theorem Aligned.le_of_between {edit other : Edit} (hother : Aligned previous current stride other)
    (h : between previous current stride = .ok (some edit)) :
    edit.deleteCount ≤ other.deleteCount ∧ edit.data.length ≤ other.data.length ∧
      other.start ≤ edit.start := by
  obtain ⟨front, middle, back, hprevious, hcurrent, hfront, hmiddle, hback⟩ := hother.exists_split
  have hwhole : stride ∣ front.length := by
    rw [hfront]
    exact hother.front
  rw [hprevious, hcurrent] at h
  obtain ⟨hstart, hdelete, hdata⟩ := length_le_of_between hwhole hback h
  rw [hfront] at hstart
  rw [hmiddle] at hdelete
  exact ⟨hdelete, hdata, hstart⟩

/-- Between different streams there is a smallest aligned edit, and it is the one that is computed:
it takes out no more than any other, puts in no more and starts no earlier. So nothing is lost by
first sharing as much as there is in front, although that may leave less to share behind. -/
theorem between_smallest (hstride : 0 < stride) (hne : previous ≠ current) :
    ∃ edit, between previous current stride = .ok (some edit) ∧
      Aligned previous current stride edit ∧
      ∀ other, Aligned previous current stride other →
        edit.deleteCount ≤ other.deleteCount ∧ edit.data.length ≤ other.data.length ∧
          other.start ≤ edit.start := by
  obtain ⟨_, _, -, -, -, -, -, -, hbetween⟩ := between_of_ne hstride hne
  exact ⟨_, hbetween, aligned_of_between hstride hbetween,
    fun _ hother => hother.le_of_between hbetween⟩

/-- Streams of no whole tuples, and an edit at their very front that is as small as the one after
the tuples that they share: the walk from the front costs the walk from behind all of its room. -/
theorem between_smallest_leftover :
    0 < 2 ∧ [1, 2, 1, 2, 3] ≠ [1, 2, 1, 2, 1, 2, 3] ∧
      Aligned [1, 2, 1, 2, 3] [1, 2, 1, 2, 1, 2, 3] 2 ⟨0, 1, [1, 2, 1]⟩ ∧
      ∃ edit, between [1, 2, 1, 2, 3] [1, 2, 1, 2, 1, 2, 3] 2 = .ok (some edit) ∧
        Aligned [1, 2, 1, 2, 3] [1, 2, 1, 2, 1, 2, 3] 2 edit ∧
        edit.deleteCount ≤ 1 ∧ edit.data.length ≤ 3 := by
  have hother : Aligned [1, 2, 1, 2, 3] [1, 2, 1, 2, 1, 2, 3] 2 ⟨0, 1, [1, 2, 1]⟩ :=
    ⟨by decide, by decide, by decide, rfl⟩
  obtain ⟨edit, hbetween, haligned, hsmallest⟩ :=
    between_smallest (show 0 < 2 by decide)
      (show [1, 2, 1, 2, 3] ≠ [1, 2, 1, 2, 1, 2, 3] by decide)
  obtain ⟨hdelete, hdata, -⟩ := hsmallest _ hother
  exact ⟨by decide, by decide, hother, edit, hbetween, haligned, hdelete, hdata⟩

end AsmLens.Edit
