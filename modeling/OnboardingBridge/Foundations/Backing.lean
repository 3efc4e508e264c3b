import Mathlib.Algebra.BigOperators.Group.List.Basic
import Mathlib.Algebra.Order.BigOperators.Group.List
import Mathlib.Algebra.Order.Ring.Int

/-!
# Payments backed by deposits

Every payment is backed by a deposit that is worth it, and no deposit backs two
payments; then the payments come to no more than the deposits
(`sum_le_of_backed`).
-/

set_option autoImplicit false

namespace Foundations

section Backing

variable {Payment Deposit : Type} {backs : Deposit → Payment → Prop} {cost : Payment → ℤ}
  {worth : Deposit → ℤ}

/-- The payments that cost anything come to no more than the deposits that back them. -/
theorem sum_le_of_backed (nonneg : ∀ deposit, 0 ≤ worth deposit) {payments : List Payment}
    {deposits : List Deposit}
    (backed : ∀ payment ∈ payments, cost payment ≤ 0 ∨
      ∃ deposit ∈ deposits, backs deposit payment ∧ cost payment ≤ worth deposit)
    (once : ∀ deposit, payments.Pairwise fun earlier later =>
      ¬ (backs deposit earlier ∧ backs deposit later)) :
    (payments.map cost).sum ≤ (deposits.map worth).sum := by
  induction payments generalizing deposits with
  | nil =>
      have all : ∀ value ∈ deposits.map worth, 0 ≤ value := by
        rintro value member
        obtain ⟨deposit, -, rfl⟩ := List.mem_map.mp member
        exact nonneg deposit
      simpa using List.sum_nonneg all
  | cons payment rest ih =>
      obtain ⟨here, later⟩ := List.forall_mem_cons.mp backed
      have apart : ∀ deposit, ∀ other ∈ rest, ¬ (backs deposit payment ∧ backs deposit other) :=
        fun deposit => (List.pairwise_cons.mp (once deposit)).1
      have onceLater : ∀ deposit, rest.Pairwise fun earlier later =>
          ¬ (backs deposit earlier ∧ backs deposit later) :=
        fun deposit => (List.pairwise_cons.mp (once deposit)).2
      rw [List.map_cons, List.sum_cons]
      rcases here with free | ⟨deposit, member, backing, covered⟩
      · have sums := ih later onceLater
        omega
      · -- the others are backed by what is left when the deposit is taken out
        obtain ⟨front, back, rfl⟩ := List.append_of_mem member
        have others : ∀ other ∈ rest, cost other ≤ 0 ∨
            ∃ deposit ∈ front ++ back, backs deposit other ∧ cost other ≤ worth deposit := by
          intro other among
          rcases later other among with free | ⟨second, listed, backing', covered'⟩
          · exact .inl free
          · refine .inr ⟨second, ?_, backing', covered'⟩
            have different : second ≠ deposit := by
              rintro rfl
              exact apart second other among ⟨backing, backing'⟩
            simpa [different] using listed
        have sums := ih others onceLater
        simp only [List.map_append, List.sum_append, List.map_cons, List.sum_cons] at sums ⊢
        omega

end Backing

end Foundations
