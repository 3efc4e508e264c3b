import Mathlib.Algebra.BigOperators.Group.List.Basic
import Mathlib.Algebra.Order.Ring.Int
import Mathlib.Tactic.Linarith
import Mathlib.Tactic.Positivity

/-!
# Rounded proportions

A proportion of an amount is rounded down. It grows with the amount and with the rate,
and the proportions of several amounts together fall short of that of their sum by less
than one each (`sum_portion_le`, `portion_sum_lt`).
-/

set_option autoImplicit false

namespace Foundations

/-- The proportion of an amount at a rate, out of a whole. -/
def portion (amount rate whole : ℤ) : ℤ := amount * rate / whole

variable {amount amount' rate rate' whole : ℤ}

theorem portion_mono (nonneg : 0 ≤ amount) (rated : 0 ≤ rate) (positive : 0 < whole)
    (more : amount ≤ amount') (higher : rate ≤ rate') :
    portion amount rate whole ≤ portion amount' rate' whole :=
  Int.ediv_le_ediv positive (mul_le_mul more higher rated (nonneg.trans more))

/-- Rounding down each proportion takes at most what rounding down their sum takes. -/
theorem sum_portion_le (rate : ℤ) (positive : 0 < whole) (amounts : List ℤ) :
    (amounts.map fun amount => portion amount rate whole).sum ≤ portion amounts.sum rate whole := by
  refine (Int.le_ediv_iff_mul_le positive).mpr ?_
  induction amounts with
  | nil => simp
  | cons amount rest ih =>
      have here : portion amount rate whole * whole ≤ amount * rate :=
        Int.ediv_mul_le _ positive.ne'
      rw [List.map_cons, List.sum_cons, List.sum_cons, add_mul, add_mul]
      exact add_le_add here ih

/-- What it leaves is less than one for each amount. -/
theorem portion_sum_lt (rate : ℤ) (positive : 0 < whole) {amounts : List ℤ}
    (filled : amounts ≠ []) :
    portion amounts.sum rate whole <
      (amounts.map fun amount => portion amount rate whole).sum + amounts.length := by
  refine Int.ediv_lt_of_lt_mul positive ?_
  induction amounts with
  | nil => contradiction
  | cons amount rest ih =>
      have here : amount * rate < (portion amount rate whole + 1) * whole :=
        Int.lt_ediv_add_one_mul_self _ positive
      rw [List.map_cons, List.sum_cons, List.sum_cons, List.length_cons, add_mul]
      rcases rest with _ | ⟨next, rest⟩
      · simpa using here
      · have later := ih (by simp)
        push_cast at later ⊢
        linarith

end Foundations
