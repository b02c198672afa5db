import AsmLens.Diagnostic

/-!
The diagnostics of one pass, collected in the order in which they are found and handed out in the
order of the text. Diagnostics that start at one place keep the order in which they were found.
-/

namespace AsmLens

/-- The diagnostics found so far. -/
structure CollectedDiagnostics where
  items : Array Diagnostic := #[]
  deriving DecidableEq, Repr

namespace CollectedDiagnostics

/-- Adds a diagnostic behind the others. -/
def push (q : CollectedDiagnostics) (d : Diagnostic) : CollectedDiagnostics := ⟨q.items.push d⟩

/-- The diagnostics in the order of their starts. -/
def sorted (q : CollectedDiagnostics) : List Diagnostic :=
  q.items.toList.mergeSort fun a b => a.span.start ≤ b.span.start

@[simp] theorem toList_items_push (q : CollectedDiagnostics) (d : Diagnostic) :
    (q.push d).items.toList = q.items.toList ++ [d] := by
  simp [push]

/-- Pushing diagnostics one after another lists them in that order. -/
theorem toList_items_foldl_push (q : CollectedDiagnostics) (ds : List Diagnostic) :
    (ds.foldl push q).items.toList = q.items.toList ++ ds := by
  induction ds generalizing q with
  | nil => simp
  | cons d ds ih => simp [ih]

/-- Diagnostics that have been found in the order of the text are handed out as they were found. -/
theorem sorted_of_pairwise {q : CollectedDiagnostics}
    (h : q.items.toList.Pairwise fun a b => a.span.start ≤ b.span.start) :
    q.sorted = q.items.toList :=
  List.mergeSort_of_pairwise (h.imp fun hab => decide_eq_true hab)

end CollectedDiagnostics

end AsmLens
