import Mathlib.Algebra.BigOperators.Group.Finset.Basic
import Mathlib.Algebra.BigOperators.Pi
import Mathlib.Algebra.Order.Group.Defs
import Mathlib.Algebra.Order.Group.Unbundled.Basic

/-!
# Books of a custodian

A custodian holds assets and earmarks parts of what it holds in buckets. Its
books give the amount of every asset in every account. Books form an additive
group: a movement is itself a value of books, and the books after a list of
movements are the books before plus their sum.

The surplus of an asset, what is held less what is earmarked, is additive, so
what a list of movements does to it is the sum of what each of them does
(`surplus_add_sum`). A custodian is solvent when no surplus is negative.
-/

set_option autoImplicit false

namespace Foundations

/-- An account of the books: what is held, or what one bucket earmarks. -/
inductive Account (Bucket : Type) where
  | held
  | earmarked (bucket : Bucket)
deriving DecidableEq

/-- The amount of every asset in every account. -/
abbrev Books (Asset Bucket R : Type) : Type := Account Bucket → Asset → R

namespace Books

variable {Asset Bucket R : Type}

section Group

variable [AddCommGroup R]

/-- A single entry: one amount of one asset in one account. -/
def entry [DecidableEq Asset] [DecidableEq Bucket] (account : Account Bucket) (asset : Asset)
    (amount : R) : Books Asset Bucket R :=
  fun account' asset' => if account' = account ∧ asset' = asset then amount else 0

@[simp] theorem entry_zero [DecidableEq Asset] [DecidableEq Bucket] (account : Account Bucket)
    (asset : Asset) : entry account asset (0 : R) = 0 := by
  funext account' asset'
  simp [entry]

variable [Fintype Bucket]

/-- What is held of an asset and not earmarked. -/
def surplus : Books Asset Bucket R →+ (Asset → R) where
  toFun books asset := books .held asset - ∑ bucket, books (.earmarked bucket) asset
  map_zero' := by
    funext asset
    simp
  map_add' first second := by
    funext asset
    simp only [Pi.add_apply, Finset.sum_add_distrib, add_sub_add_comm]

theorem surplus_apply (books : Books Asset Bucket R) (asset : Asset) :
    surplus books asset = books .held asset - ∑ bucket, books (.earmarked bucket) asset := rfl

/-- An entry of what is held raises the surplus by its amount. -/
@[simp] theorem surplus_entry_held [DecidableEq Asset] [DecidableEq Bucket] (asset asset' : Asset)
    (amount : R) : surplus (entry .held asset amount : Books Asset Bucket R) asset' =
      if asset' = asset then amount else 0 := by
  simp [surplus_apply, entry]

/-- An entry in a bucket lowers the surplus by its amount. -/
@[simp] theorem surplus_entry_earmarked [DecidableEq Asset] [DecidableEq Bucket]
    (bucket : Bucket) (asset asset' : Asset) (amount : R) :
    surplus (entry (.earmarked bucket) asset amount) asset' =
      if asset' = asset then -amount else 0 := by
  by_cases same : asset' = asset
  · simp [surplus_apply, entry, same]
  · simp [surplus_apply, entry, same]

/-- The surplus after a list of movements is the surplus before plus what each
of them does to it. -/
theorem surplus_add_sum (books : Books Asset Bucket R) (movements : List (Books Asset Bucket R))
    (asset : Asset) : surplus (books + movements.sum) asset =
      surplus books asset + (movements.map fun movement => surplus movement asset).sum := by
  rw [map_add, Pi.add_apply, map_list_sum]
  congr 1
  induction movements with
  | nil => rfl
  | cons movement rest ih =>
      simp only [List.map_cons, List.sum_cons, Pi.add_apply]
      rw [ih]

end Group

section Solvency

variable [AddCommGroup R] [PartialOrder R] [IsOrderedAddMonoid R] [Fintype Bucket]

/-- What is held of every asset covers what is earmarked of it. -/
def Solvent (books : Books Asset Bucket R) : Prop := ∀ asset, 0 ≤ surplus books asset

/-- Movements that together lower no surplus keep a custodian solvent. -/
theorem Solvent.add {books change : Books Asset Bucket R} (solvent : Solvent books)
    (gains : ∀ asset, 0 ≤ surplus change asset) : Solvent (books + change) := by
  intro asset
  rw [map_add, Pi.add_apply]
  exact add_nonneg (solvent asset) (gains asset)

/-- A custodian is solvent exactly when it holds what its buckets earmark. -/
theorem solvent_iff {books : Books Asset Bucket R} :
    Solvent books ↔ ∀ asset, ∑ bucket, books (.earmarked bucket) asset ≤ books .held asset := by
  refine forall_congr' fun asset => ?_
  rw [surplus_apply, sub_nonneg]

end Solvency

end Books

end Foundations
