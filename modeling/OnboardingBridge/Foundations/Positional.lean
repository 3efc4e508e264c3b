import Mathlib.Data.List.Induction
import Mathlib.Data.List.TakeWhile
import Mathlib.Data.Nat.Digits.Lemmas

/-!
# Positional notation with leading zeros

Digits in a base, the most significant first, denote a number. The number and how many
zeros lead give the digits back (`eq_zeros_append_digits`), and every number has digits
with any number of leading zeros (`leadingZeros_digits`, `positional_digits`).
-/

set_option autoImplicit false

namespace Foundations

/-- The number that digits denote. -/
def positional (base : ℕ) (digits : List ℕ) : ℕ :=
  digits.foldl (fun value digit => value * base + digit) 0

/-- How many zeros come first. -/
def leadingZeros (digits : List ℕ) : ℕ := (digits.takeWhile fun digit => digit = 0).length

variable {base : ℕ}

theorem positional_eq (base : ℕ) (digits : List ℕ) :
    positional base digits = Nat.ofDigits base digits.reverse := by
  induction digits using List.reverseRecOn with
  | nil => rfl
  | append_singleton digits digit ih =>
      rw [List.reverse_append, List.reverse_singleton, List.singleton_append, Nat.ofDigits_cons,
        ← ih, positional, List.foldl_append]
      simp only [List.foldl_cons, List.foldl_nil]
      rw [Nat.add_comm, Nat.mul_comm, positional]

/-- Leading zeros denote nothing. -/
theorem positional_zeros (base zeros : ℕ) (digits : List ℕ) :
    positional base (List.replicate zeros 0 ++ digits) = positional base digits := by
  rw [positional_eq, positional_eq, List.reverse_append, List.reverse_replicate,
    Nat.ofDigits_append_replicate_zero]

theorem digits_positional (large : 1 < base) {digits : List ℕ}
    (below : ∀ digit ∈ digits, digit < base) (leading : ∀ digit ∈ digits.head?, digit ≠ 0) :
    Nat.digits base (positional base digits) = digits.reverse := by
  rw [positional_eq]
  refine Nat.digits_ofDigits base large _ (fun digit member => below digit (List.mem_reverse.mp member))
    fun nonempty => ?_
  rw [List.getLast_reverse]
  exact leading _ (List.head?_eq_some_head _)

/-- Digits are their leading zeros and those of the number that they denote. -/
theorem eq_zeros_append_digits (large : 1 < base) {digits : List ℕ}
    (below : ∀ digit ∈ digits, digit < base) :
    digits = List.replicate (leadingZeros digits) 0 ++
      (Nat.digits base (positional base digits)).reverse := by
  have zeros : digits.takeWhile (fun digit => digit = 0) =
      List.replicate (leadingZeros digits) 0 := by
    refine List.eq_replicate_iff.mpr ⟨rfl, fun digit member => ?_⟩
    simpa using List.mem_takeWhile_imp member
  have split : digits = List.replicate (leadingZeros digits) 0 ++
      digits.dropWhile fun digit => digit = 0 := by
    conv_lhs => rw [← List.takeWhile_append_dropWhile (p := fun digit => digit = 0) (l := digits)]
    rw [zeros]
  have value : positional base digits =
      positional base (digits.dropWhile fun digit => digit = 0) := by
    conv_lhs => rw [split]
    exact positional_zeros ..
  have rest : Nat.digits base (positional base (digits.dropWhile fun digit => digit = 0)) =
      (digits.dropWhile fun digit => digit = 0).reverse := by
    refine digits_positional large
      (fun digit member => below digit ((List.dropWhile_sublist _).mem member)) ?_
    intro digit first nothing
    have stops := List.head?_dropWhile_not (fun digit => decide (digit = 0)) digits
    rw [first] at stops
    simp [nothing] at stops
  rw [value, rest, List.reverse_reverse]
  exact split

theorem leadingZeros_digits (base zeros value : ℕ) :
    leadingZeros (List.replicate zeros 0 ++ (Nat.digits base value).reverse) = zeros := by
  have stops : (Nat.digits base value).reverse.takeWhile (fun digit => digit = 0) = [] := by
    cases digits : (Nat.digits base value).reverse with
    | nil => rfl
    | cons digit rest =>
        have nonempty : Nat.digits base value ≠ [] := by
          intro empty
          rw [empty] at digits
          cases digits
        have last := Nat.getLast_digit_ne_zero base (Nat.digits_ne_nil_iff_ne_zero.mp nonempty)
        have first : (Nat.digits base value).getLast nonempty = digit := by
          rw [← List.head_reverse (by simpa using nonempty)]
          simp [digits]
        rw [first] at last
        simp [last]
  rw [leadingZeros, List.takeWhile_append_of_pos (by simp), stops, List.append_nil,
    List.length_replicate]

theorem positional_digits (base zeros value : ℕ) :
    positional base (List.replicate zeros 0 ++ (Nat.digits base value).reverse) = value := by
  rw [positional_zeros, positional_eq, List.reverse_reverse, Nat.ofDigits_digits]

end Foundations
