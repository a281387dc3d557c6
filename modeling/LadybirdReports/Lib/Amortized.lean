import LadybirdReports.Lib.Run
import Mathlib.Algebra.BigOperators.Group.List.Defs
import Mathlib.Algebra.Order.Monoid.Defs

/-!
# Amortized costs of runs

A potential is a number for each state. Where every step costs at most what it takes off the
potential, the cost of a whole run is at most what the run takes off it (`Run.cost_le`).
-/

namespace Transition

section

variable {σ α M : Type} {step : σ → α → σ → Prop} {s t : σ} {as : List α}

/-- What the labels of a run cost together, with the potential left at its end, is at most the
potential it started with. -/
theorem Run.cost_le [AddCommMonoid M] [PartialOrder M] [IsOrderedAddMonoid M] {I : σ → Prop}
    {cost : α → M} {potential : σ → M} (hI : ∀ s a t, I s → step s a t → I t)
    (hstep : ∀ s a t, I s → step s a t → cost a + potential t ≤ potential s)
    (h : Run step s as t) (hs : I s) : (as.map cost).sum + potential t ≤ potential s := by
  induction h with
  | nil => rw [List.map_nil, List.sum_nil, zero_add]
  | @snoc t u as a run last ih =>
    calc ((as ++ [a]).map cost).sum + potential u
        = (as.map cost).sum + (cost a + potential u) := by
          rw [List.map_append, List.sum_append, List.map_singleton, List.sum_singleton, add_assoc]
      _ ≤ (as.map cost).sum + potential t := by
          gcongr
          exact hstep _ _ _ (run.invariant hI hs) last
      _ ≤ potential s := ih

end

end Transition
