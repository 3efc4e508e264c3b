import Mathlib.Data.Nat.Bitwise
import Mathlib.Tactic.Ring

/-!
# Blocks of numbers with a common prefix

A block holds the numbers of a width that begin with the same bits as its base. Masking the last
bits away compares a number with a block.
-/

set_option autoImplicit false

namespace Foundations

/-- The numbers of a width that begin with the first bits of a base. -/
structure PrefixBlock where
  base : ℕ
  prefixLength : ℕ

/-- The first bits of a number and of the base are the same. -/
def PrefixBlock.Contains (width : ℕ) (block : PrefixBlock) (value : ℕ) : Prop :=
  value / 2 ^ (width - block.prefixLength) = block.base / 2 ^ (width - block.prefixLength)

instance (width : ℕ) (block : PrefixBlock) (value : ℕ) : Decidable (block.Contains width value) :=
  inferInstanceAs (Decidable (_ = _))

/-- A number of some bits, of which the last ones are masked away. -/
theorem and_mask {value low high : ℕ} (bound : value < 2 ^ (low + high)) :
    value &&& ((2 ^ high - 1) * 2 ^ low) = value / 2 ^ low * 2 ^ low := by
  have quotient : (value &&& ((2 ^ high - 1) * 2 ^ low)) / 2 ^ low = value / 2 ^ low := by
    have above : value / 2 ^ low < 2 ^ high := by
      refine Nat.div_lt_of_lt_mul ?_
      rwa [← Nat.pow_add]
    rw [Nat.and_div_two_pow, Nat.mul_div_cancel _ (Nat.two_pow_pos low),
      Nat.and_two_pow_sub_one_eq_mod, Nat.mod_eq_of_lt above]
  have remainder : (value &&& ((2 ^ high - 1) * 2 ^ low)) % 2 ^ low = 0 := by
    rw [Nat.and_mod_two_pow, Nat.mul_mod_left, Nat.and_zero]
  have split := Nat.div_add_mod (value &&& ((2 ^ high - 1) * 2 ^ low)) (2 ^ low)
  rw [quotient, remainder, Nat.add_zero, Nat.mul_comm] at split
  exact split.symm

end Foundations
