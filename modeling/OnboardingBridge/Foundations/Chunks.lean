import Mathlib.Algebra.Order.Floor.Div
import Mathlib.Data.List.Range

/-!
# A list in chunks

A list is cut into chunks of a size, the last of them shorter. There are as many as the
quotient of the lengths, rounded up (`lt_ceilDiv_iff`), and the first of them together are
the list up to where they end (`flatMap_chunk`).
-/

set_option autoImplicit false

namespace Foundations

variable {α : Type} {size : ℕ} (items : List α)

/-- The chunk with a number, counted from zero. -/
def chunk (size : ℕ) (items : List α) (number : ℕ) : List α :=
  (items.drop (size * number)).take size

theorem length_chunk (number : ℕ) :
    (chunk size items number).length = min size (items.length - size * number) := by
  rw [chunk, List.length_take, List.length_drop]

theorem length_chunk_le (number : ℕ) : (chunk size items number).length ≤ size := by
  rw [length_chunk]
  exact Nat.min_le_left _ _

theorem lt_ceilDiv_iff {number total : ℕ} (positive : 0 < size) :
    number < total ⌈/⌉ size ↔ size * number < total := by
  rw [lt_iff_not_ge, ceilDiv_le_iff_le_mul positive, not_le]

/-- The chunks up to a number are the front of the list. -/
theorem flatMap_chunk (number : ℕ) :
    (List.range number).flatMap (chunk size items) = items.take (size * number) := by
  induction number with
  | zero => rw [List.range_zero, List.flatMap_nil, Nat.mul_zero, List.take_zero]
  | succ number ih =>
      rw [List.range_succ, List.flatMap_append, ih, List.flatMap_singleton, chunk, Nat.mul_succ,
        List.take_add]

end Foundations
