import AsmLens.Diagnostic.Collected

/-!
The order in which diagnostics are handed out. It is that of their starts, and those that start at
one place stand as they were found. These two facts leave one list only (`eq_of_startingAt`), so
diagnostics found in order are handed out as they are, and two passes that find the same two
sequences in turns of their own hand out the same list (`sorted_stable`).
-/

namespace AsmLens

/-- Diagnostics of which none starts before one that stands in front of it. -/
def InOrder (ds : List Diagnostic) : Prop := ds.Pairwise fun a b => a.span.start ≤ b.span.start

/-- The diagnostics that start at a place, as they stand. -/
def startingAt (p : Position) (ds : List Diagnostic) : List Diagnostic :=
  ds.filter (·.span.start = p)

theorem mem_startingAt {p : Position} {ds : List Diagnostic} {d : Diagnostic} :
    d ∈ startingAt p ds ↔ d ∈ ds ∧ d.span.start = p := by
  simp [startingAt]

theorem startingAt_cons_self (d : Diagnostic) (ds : List Diagnostic) :
    startingAt d.span.start (d :: ds) = d :: startingAt d.span.start ds := by
  simp [startingAt]

theorem startingAt_cons_of_ne {p : Position} {d : Diagnostic} (h : d.span.start ≠ p)
    (ds : List Diagnostic) : startingAt p (d :: ds) = startingAt p ds := by
  simp [startingAt, h]

/-! ## What the order leaves open -/

/-- Nothing in an ordered list starts before its first diagnostic. -/
theorem InOrder.start_le {first d : Diagnostic} {more : List Diagnostic}
    (h : InOrder (first :: more)) (hd : d ∈ first :: more) :
    first.span.start ≤ d.span.start := by
  rcases List.mem_cons.mp hd with rfl | hd
  · exact Position.le_refl _
  · exact (List.pairwise_cons.mp h).1 d hd

/-- Ordered lists with the same diagnostics at every place, in the same order there, are the same. -/
theorem eq_of_startingAt {as bs : List Diagnostic} (has : InOrder as) (hbs : InOrder bs)
    (h : ∀ p, startingAt p as = startingAt p bs) : as = bs := by
  induction as generalizing bs with
  | nil =>
      cases bs with
      | nil => rfl
      | cons b bs =>
          have hplace := h b.span.start
          rw [startingAt_cons_self] at hplace
          cases hplace
  | cons a as ih =>
      cases bs with
      | nil =>
          have hplace := h a.span.start
          rw [startingAt_cons_self] at hplace
          cases hplace
      | cons b bs =>
          -- each of the two first diagnostics stands in the other list
          have ha : a ∈ b :: bs := by
            have hself : a ∈ startingAt a.span.start (a :: as) := by simp [mem_startingAt]
            rw [h] at hself
            exact (mem_startingAt.mp hself).1
          have hb : b ∈ a :: as := by
            have hself : b ∈ startingAt b.span.start (b :: bs) := by simp [mem_startingAt]
            rw [← h] at hself
            exact (mem_startingAt.mp hself).1
          have hstart : a.span.start = b.span.start :=
            Position.le_antisymm (has.start_le hb) (hbs.start_le ha)
          have hplace := h a.span.start
          rw [startingAt_cons_self, hstart, startingAt_cons_self, List.cons.injEq] at hplace
          obtain ⟨rfl, hrest⟩ := hplace
          refine congrArg (a :: ·) (ih (List.pairwise_cons.mp has).2 (List.pairwise_cons.mp hbs).2 ?_)
          intro p
          by_cases hp : a.span.start = p
          · subst hp
            exact hrest
          · have hothers := h p
            rwa [startingAt_cons_of_ne hp, startingAt_cons_of_ne hp] at hothers

/-! ## Sequences taken in turns -/

/-- Two sequences of diagnostics taken in turns of any kind, each in its own order. -/
inductive Interleaving : List Diagnostic → List Diagnostic → List Diagnostic → Prop
  | nil : Interleaving [] [] []
  | left {d : Diagnostic} {as bs ds : List Diagnostic} :
      Interleaving as bs ds → Interleaving (d :: as) bs (d :: ds)
  | right {d : Diagnostic} {as bs ds : List Diagnostic} :
      Interleaving as bs ds → Interleaving as (d :: bs) (d :: ds)

namespace Interleaving

variable {as bs ds : List Diagnostic}

theorem symm (h : Interleaving as bs ds) : Interleaving bs as ds := by
  induction h with
  | nil => exact .nil
  | left _ ih => exact .right ih
  | right _ ih => exact .left ih

/-- Where the second sequence has nothing, the first one stands as it did. -/
theorem startingAt_eq_left {p : Position} (h : Interleaving as bs ds)
    (hbs : ∀ d ∈ bs, d.span.start ≠ p) : startingAt p ds = startingAt p as := by
  induction h with
  | nil => rfl
  | @left d as bs ds _ ih =>
      by_cases hd : d.span.start = p
      · subst hd
        rw [startingAt_cons_self, startingAt_cons_self, ih hbs]
      · rw [startingAt_cons_of_ne hd, startingAt_cons_of_ne hd, ih hbs]
  | @right d as bs ds _ ih =>
      rw [startingAt_cons_of_ne (hbs d List.mem_cons_self)]
      exact ih fun e he => hbs e (List.mem_cons_of_mem d he)

/-- Where no place is the start of diagnostics of both sequences, the turns in which they are taken
do not show at any place. -/
theorem startingAt_eq {others : List Diagnostic} (h : Interleaving as bs ds)
    (hother : Interleaving as bs others)
    (hapart : ∀ a ∈ as, ∀ b ∈ bs, a.span.start ≠ b.span.start) (p : Position) :
    startingAt p ds = startingAt p others := by
  by_cases hp : ∀ b ∈ bs, b.span.start ≠ p
  · rw [h.startingAt_eq_left hp, hother.startingAt_eq_left hp]
  · have hnone : ∀ a ∈ as, a.span.start ≠ p := by
      rintro a ha rfl
      exact hp fun b hb => (hapart a ha b hb).symm
    rw [h.symm.startingAt_eq_left hnone, hother.symm.startingAt_eq_left hnone]

end Interleaving

/-! ## What is handed out -/

namespace CollectedDiagnostics

/-- The diagnostics of a pass that finds these, one after another. -/
def ofFound (ds : List Diagnostic) : CollectedDiagnostics := ds.foldl push {}

theorem toList_items_ofFound (ds : List Diagnostic) : (ofFound ds).items.toList = ds :=
  toList_items_foldl_push {} ds

theorem sorted_perm (q : CollectedDiagnostics) : q.sorted.Perm q.items.toList :=
  List.mergeSort_perm _ _

section

variable (a b c : Diagnostic)

theorem start_le_trans (hab : decide (a.span.start ≤ b.span.start) = true)
    (hbc : decide (b.span.start ≤ c.span.start) = true) :
    decide (a.span.start ≤ c.span.start) = true :=
  decide_eq_true (Position.le_trans (of_decide_eq_true hab) (of_decide_eq_true hbc))

theorem start_le_total :
    (decide (a.span.start ≤ b.span.start) || decide (b.span.start ≤ a.span.start)) = true := by
  simpa using Position.le_total a.span.start b.span.start

end

theorem sorted_inOrder (q : CollectedDiagnostics) : InOrder q.sorted :=
  (List.pairwise_mergeSort start_le_trans start_le_total q.items.toList).imp of_decide_eq_true

/-- The diagnostics that start at a place are handed out as they were found. -/
theorem startingAt_sorted (p : Position) (q : CollectedDiagnostics) :
    startingAt p q.sorted = startingAt p q.items.toList := by
  have hpairs : (startingAt p q.items.toList).Pairwise fun a b =>
      decide (a.span.start ≤ b.span.start) = true := by
    refine List.pairwise_of_forall_mem_list ?_
    intro a ha b hb
    rw [(mem_startingAt.mp ha).2, (mem_startingAt.mp hb).2]
    exact decide_eq_true (Position.le_refl p)
  -- the sort keeps every part of the list that is in order already
  have hkept : (startingAt p q.items.toList).Sublist q.sorted :=
    List.sublist_mergeSort start_le_trans start_le_total hpairs List.filter_sublist
  have hthere : (startingAt p q.items.toList).Sublist (startingAt p q.sorted) := by
    simpa [startingAt, List.filter_filter] using hkept.filter (·.span.start = p)
  have hlength : (startingAt p q.items.toList).length = (startingAt p q.sorted).length :=
    (q.sorted_perm.filter _).length_eq.symm
  exact (hthere.eq_of_length hlength).symm

/-- The diagnostics of a pass are handed out as a permutation of what was found, in the order of
their starts, by line and then by column, and those of one start as they were found. So what is
found in order is handed out as it was found, and of two sequences without a start in common every
interleaving is handed out alike. -/
theorem sorted_stable (ds : List Diagnostic) :
    (ofFound ds).sorted.Perm ds ∧
      ((ofFound ds).sorted.Pairwise fun a b =>
        a.span.start.line < b.span.start.line ∨
          a.span.start.line = b.span.start.line ∧ a.span.start.column ≤ b.span.start.column) ∧
      (∀ p, startingAt p (ofFound ds).sorted = startingAt p ds) ∧
      (InOrder ds → (ofFound ds).sorted = ds) ∧
      ∀ as bs others, Interleaving as bs ds → Interleaving as bs others →
        (∀ a ∈ as, ∀ b ∈ bs, a.span.start ≠ b.span.start) →
          (ofFound others).sorted = (ofFound ds).sorted := by
  have hplaces (found : List Diagnostic) (p : Position) :
      startingAt p (ofFound found).sorted = startingAt p found := by
    rw [startingAt_sorted, toList_items_ofFound]
  refine ⟨?_, (ofFound ds).sorted_inOrder, hplaces ds, ?_, ?_⟩
  · have hperm := (ofFound ds).sorted_perm
    rwa [toList_items_ofFound] at hperm
  · intro hordered
    exact eq_of_startingAt (sorted_inOrder _) hordered (hplaces ds)
  · intro as bs others hds hothers hapart
    refine eq_of_startingAt (sorted_inOrder _) (sorted_inOrder _) ?_
    intro p
    rw [hplaces, hplaces]
    exact hothers.startingAt_eq hds hapart p

/-- Two findings of one start keep their order behind a finding that comes later in the text. -/
theorem sorted_stable_late :
    let first : Diagnostic := { code := .contentAfterLabel, span := ⟨⟨0, 4⟩, ⟨0, 7⟩⟩ }
    let second : Diagnostic := { code := .missingColon, span := ⟨⟨0, 4⟩, ⟨0, 7⟩⟩ }
    let late : Diagnostic := { code := .missingColon, span := ⟨⟨3, 0⟩, ⟨3, 4⟩⟩ }
    InOrder [first, second, late] ∧
      Interleaving [first, second] [late] [first, second, late] ∧
      Interleaving [first, second] [late] [late, first, second] ∧
      (∀ a ∈ [first, second], ∀ b ∈ [late], a.span.start ≠ b.span.start) ∧
      (ofFound [late, first, second]).sorted = [first, second, late] := by
  intro first second late
  have hordered : InOrder [first, second, late] := by
    unfold InOrder
    decide
  have hlast : Interleaving [first, second] [late] [first, second, late] :=
    .left (.left (.right .nil))
  have hfirst : Interleaving [first, second] [late] [late, first, second] :=
    .right (.left (.left .nil))
  have hapart : ∀ a ∈ [first, second], ∀ b ∈ [late], a.span.start ≠ b.span.start := by decide
  obtain ⟨-, -, -, hidentity, hturns⟩ := sorted_stable [first, second, late]
  exact ⟨hordered, hlast, hfirst, hapart,
    (hturns _ _ _ hlast hfirst hapart).trans (hidentity hordered)⟩

end CollectedDiagnostics

end AsmLens
