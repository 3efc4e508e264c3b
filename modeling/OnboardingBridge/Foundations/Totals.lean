import Mathlib.Algebra.BigOperators.Group.Finset.Basic
import Mathlib.Data.Fintype.EquivFin
import Mathlib.Tactic.Abel

/-!
# Totals over a finite index

A total changes by what the one entry that changes does.
-/

set_option autoImplicit false

namespace Foundations

instance fintypeUInt64 : Fintype UInt64 :=
  Fintype.ofEquiv (Fin (2 ^ 64))
    { toFun := UInt64.ofFin, invFun := UInt64.toFin, left_inv := fun _ => rfl,
      right_inv := fun _ => rfl }

/-- Two families that differ at one index only have totals that differ by the two
entries there. -/
theorem total_eq_of_eq_off {ι M : Type} [Fintype ι] [DecidableEq ι] [AddCommGroup M]
    {before after : ι → M} (i : ι) (others : ∀ j, j ≠ i → after j = before j) :
    ∑ j, after j = ∑ j, before j + (after i - before i) := by
  have rest : ∑ j ∈ Finset.univ.erase i, after j = ∑ j ∈ Finset.univ.erase i, before j :=
    Finset.sum_congr rfl fun j member => others j (Finset.ne_of_mem_erase member)
  rw [← Finset.add_sum_erase _ after (Finset.mem_univ i),
    ← Finset.add_sum_erase _ before (Finset.mem_univ i), rest]
  abel

end Foundations
