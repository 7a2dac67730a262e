import Mathlib.Algebra.BigOperators.Group.Finset.Piecewise
import Mathlib.Tactic.Abel

/-!
# Totals that track a sum of shares

Accounting code often keeps a running total next to per-account shares, and
promises that the total is the sum of the shares.  An operation then changes
one account and moves the total by the same amount.  This module states the
one rule such proofs need: a total that moves as one share moves stays the
sum, in any commutative group (machine words with wrap-around included).
-/

namespace Ledger

variable {ι α M : Type*} [Fintype ι] [DecidableEq ι] [AddCommGroup M]

/-- Changing the term of one index changes a sum by the difference. -/
theorem sum_update_eq (f : ι → α) (i : ι) (v : α) (g : α → M) :
    ∑ j, g (Function.update f i v j) = ∑ j, g (f j) + (g v - g (f i)) := by
  have pointwise : ∀ j, g (Function.update f i v j) =
      Function.update (fun k => g (f k)) i (g v) j := by
    intro j
    by_cases atI : j = i
    · subst atI
      simp
    · simp [Function.update_of_ne atI]
  simp only [pointwise]
  rw [Finset.sum_update_of_mem (Finset.mem_univ i),
    Finset.sum_eq_add_sum_sdiff_singleton_of_mem (Finset.mem_univ i) (fun k => g (f k))]
  abel

/-- A total that moved by as much as the share of account `i` is still the
sum of the shares. -/
theorem total_eq_sum_update (g : α → M) {total total' : M} {f : ι → α} {i : ι} {v : α}
    (agree : total = ∑ j, g (f j)) (moved : total' - total = g v - g (f i)) :
    total' = ∑ j, g (Function.update f i v j) := by
  rw [sum_update_eq, ← agree, ← moved]
  abel

end Ledger
