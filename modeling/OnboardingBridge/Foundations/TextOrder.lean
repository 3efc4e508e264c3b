import Mathlib.Data.List.Lex
import Mathlib.Data.Nat.Basic
import Mathlib.Tactic.Positivity

/-!
# Texts that are ordered like numbers

The lexicographic order of texts of one length compares them part by part. Numerals of one
width are ordered like the numbers they denote, and texts that are put together from such parts
are ordered like the numbers in the mixed radix of the parts (`Ranks`).
-/

set_option autoImplicit false

namespace Foundations

variable {α ι : Type} [LinearOrder α]

/-! ## Comparing part by part -/

theorem append_lt_append_iff {first second : List α} (rest others : List α)
    (length : first.length = second.length) :
    first ++ rest < second ++ others ↔ first < second ∨ first = second ∧ rest < others := by
  induction first generalizing second with
  | nil =>
      obtain rfl := List.length_eq_zero_iff.mp length.symm
      simp
  | cons a first ih =>
      cases second with
      | nil => simp at length
      | cons b second =>
          have length : first.length = second.length := by simpa using length
          rw [List.cons_append, List.cons_append, List.cons_lt_cons_iff, List.cons_lt_cons_iff,
            ih length, List.cons.injEq]
          tauto

/-- Numbers are compared by their quotients, and by their remainders where those are the same. -/
theorem div_mod_lt_iff (n m base : ℕ) :
    n / base < m / base ∨ n / base = m / base ∧ n % base < m % base ↔ n < m := by
  have splitN := Nat.div_add_mod n base
  have splitM := Nat.div_add_mod m base
  constructor
  · rintro (less | ⟨equal, less⟩)
    · exact Nat.lt_of_div_lt_div less
    · rw [equal] at splitN
      omega
  · intro less
    have order : n / base ≤ m / base := Nat.div_le_div_right less.le
    rcases Nat.lt_or_eq_of_le order with before | equal
    · exact .inl before
    · refine .inr ⟨equal, ?_⟩
      rw [equal] at splitN
      omega

/-! ## Numerals -/

/-- The numeral of a number in a width, its leading digits cut off. -/
def numeral (digit : ℕ → α) (base : ℕ) : (width : ℕ) → ℕ → List α
  | 0, _ => []
  | width + 1, n => numeral digit base width (n / base) ++ [digit (n % base)]

section Numerals

variable {digit : ℕ → α} {base : ℕ}

omit [LinearOrder α] in
@[simp] theorem length_numeral (width n : ℕ) : (numeral digit base width n).length = width := by
  induction width generalizing n with
  | zero => rfl
  | succ width ih => rw [numeral, List.length_append, ih, List.length_singleton]

omit [LinearOrder α] in
/-- A numeral is that of its leading digits and then that of the others. -/
theorem numeral_add (high low n : ℕ) : numeral digit base (high + low) n =
    numeral digit base high (n / base ^ low) ++ numeral digit base low n := by
  induction low generalizing n with
  | zero => simp [numeral]
  | succ low ih =>
      rw [← Nat.add_assoc, numeral, ih, numeral, List.append_assoc, Nat.div_div_eq_div_mul,
        ← Nat.pow_succ']

omit [LinearOrder α] in
/-- Only the digits of the width matter. -/
theorem numeral_mod (width n : ℕ) :
    numeral digit base width (n % base ^ width) = numeral digit base width n := by
  induction width generalizing n with
  | zero => rfl
  | succ width ih =>
      rw [numeral, numeral, Nat.pow_succ', Nat.mod_mul_right_mod, Nat.mod_mul_right_div_self, ih]

theorem numeral_lt_iff (increasing : ∀ a b, a < b → b < base → digit a < digit b) {width n m : ℕ}
    (boundN : n < base ^ width) (boundM : m < base ^ width) :
    numeral digit base width n < numeral digit base width m ↔ n < m := by
  induction width generalizing n m with
  | zero =>
      rw [pow_zero] at boundN boundM
      obtain rfl : n = m := by omega
      simp
  | succ width ih =>
      have positive : 0 < base := Nat.pos_of_ne_zero fun zero => by simp [zero] at boundN
      have above : ∀ k, k < base ^ (width + 1) → k / base < base ^ width := fun k bound =>
        Nat.div_lt_of_lt_mul (by rwa [← Nat.pow_succ'])
      have leading := ih (above n boundN) (above m boundM)
      have following := ih (above m boundM) (above n boundN)
      have same : numeral digit base width (n / base) = numeral digit base width (m / base) ↔
          n / base = m / base := by
        constructor
        · intro equal
          rw [equal] at leading following
          have notLess := mt leading.mpr (lt_irrefl _)
          have notMore := mt following.mpr (lt_irrefl _)
          omega
        · exact fun equal => by rw [equal]
      have last : [digit (n % base)] < [digit (m % base)] ↔ n % base < m % base := by
        rw [List.cons_lt_cons_iff]
        have below := Nat.mod_lt m positive
        constructor
        · rintro (less | ⟨-, less⟩)
          · by_contra notLess
            rcases Nat.lt_or_ge (m % base) (n % base) with more | notMore
            · exact lt_asymm less (increasing _ _ more (Nat.mod_lt n positive))
            · rw [Nat.le_antisymm notMore (not_lt.mp notLess)] at less
              exact lt_irrefl _ less
          · simp at less
        · exact fun less => .inl (increasing _ _ less below)
      rw [numeral, numeral, append_lt_append_iff _ _ (by simp), leading, same, last]
      exact div_mod_lt_iff n m base

end Numerals

/-! ## Texts and their ranks -/

/-- Texts of one length that are ordered like numbers. -/
structure Ranks (text : ι → List α) (rank : ι → ℕ) : Prop where
  length : ∀ i j, (text i).length = (text j).length
  lt_iff : ∀ i j, text i < text j ↔ rank i < rank j

namespace Ranks

variable {text other : ι → List α} {rank least : ι → ℕ}

theorem eq_iff (ranks : Ranks text rank) (i j : ι) : text i = text j ↔ rank i = rank j := by
  constructor
  · intro same
    have notLess := mt (ranks.lt_iff i j).mpr (same ▸ lt_irrefl _)
    have notMore := mt (ranks.lt_iff j i).mpr (same ▸ lt_irrefl _)
    omega
  · intro same
    have notLess := mt (ranks.lt_iff i j).mp (by omega)
    have notMore := mt (ranks.lt_iff j i).mp (by omega)
    exact le_antisymm (not_lt.mp notMore) (not_lt.mp notLess)

/-- What follows the texts decides where the texts are the same. -/
theorem append_lt_iff (ranks : Ranks text rank) (i j : ι) (rest others : List α) :
    text i ++ rest < text j ++ others ↔ rank i < rank j ∨ rank i = rank j ∧ rest < others := by
  rw [append_lt_append_iff _ _ (ranks.length i j), ranks.lt_iff, ranks.eq_iff]

theorem const (fixed : List α) : Ranks (fun _ : ι => fixed) fun _ => 0 where
  length _ _ := rfl
  lt_iff i j := by simp

theorem numeral {digit : ℕ → α} {base : ℕ}
    (increasing : ∀ a b, a < b → b < base → digit a < digit b) {width : ℕ}
    (bound : ∀ i, rank i < base ^ width) :
    Ranks (fun i => numeral digit base width (rank i)) rank where
  length i j := by simp
  lt_iff i j := numeral_lt_iff increasing (bound i) (bound j)

/-- Two parts rank in the mixed radix. -/
theorem append (first : Ranks text rank) (second : Ranks other least) {radix : ℕ}
    (bound : ∀ i, least i < radix) :
    Ranks (fun i => text i ++ other i) fun i => rank i * radix + least i where
  length i j := by rw [List.length_append, List.length_append, first.length i j, second.length i j]
  lt_iff i j := by
    rw [first.append_lt_iff, second.lt_iff]
    have boundI := bound i
    have boundJ := bound j
    constructor
    · rintro (less | ⟨equal, less⟩)
      · have next : rank i * radix + radix ≤ rank j * radix := by
          rw [← Nat.succ_mul]
          exact Nat.mul_le_mul_right radix less
        omega
      · rw [equal]
        omega
    · intro less
      rcases Nat.lt_trichotomy (rank i) (rank j) with before | equal | after
      · exact .inl before
      · rw [equal] at less
        exact .inr ⟨equal, by omega⟩
      · have next : rank j * radix + radix ≤ rank i * radix := by
          rw [← Nat.succ_mul]
          exact Nat.mul_le_mul_right radix after
        omega

/-- A fixed text between the parts does not matter. -/
theorem followed (ranks : Ranks text rank) (fixed : List α) :
    Ranks (fun i => text i ++ fixed) rank := by
  have both := @append _ _ _ _ _ _ _ ranks (const fixed) 1 fun _ => Nat.one_pos
  simpa using both

/-- Only the order of the ranks matters. -/
theorem congr {rank' : ι → ℕ} (ranks : Ranks text rank)
    (same : ∀ i j, rank i < rank j ↔ rank' i < rank' j) : Ranks text rank' where
  length := ranks.length
  lt_iff i j := (ranks.lt_iff i j).trans (same i j)

end Ranks

theorem numeral_append_lt_iff {digit : ℕ → α} {base : ℕ}
    (increasing : ∀ a b, a < b → b < base → digit a < digit b) {width n m : ℕ}
    (boundN : n < base ^ width) (boundM : m < base ^ width) (rest others : List α) :
    numeral digit base width n ++ rest < numeral digit base width m ++ others ↔
      n < m ∨ n = m ∧ rest < others := by
  have ranks : Ranks (fun i : { n // n < base ^ width } => numeral digit base width i.1) fun i => i.1 :=
    .numeral increasing fun i => i.2
  exact ranks.append_lt_iff ⟨n, boundN⟩ ⟨m, boundM⟩ rest others

/-! ## Zeros -/

/-- Zeros come before all other lists of their length. -/
theorem not_lt_zeros {others zeros : List ℕ} (length : others.length = zeros.length)
    (zero : ∀ value ∈ zeros, value = 0) : ¬ others < zeros := by
  induction zeros generalizing others with
  | nil => simp
  | cons value zeros ih =>
      cases others with
      | nil => simp at length
      | cons other others =>
          obtain ⟨rfl, later⟩ := List.forall_mem_cons.mp zero
          have length : others.length = zeros.length := by simpa using length
          rw [List.cons_lt_cons_iff]
          rintro (less | ⟨-, less⟩)
          · exact Nat.not_lt_zero _ less
          · exact ih length later less

theorem eq_of_zeros {zeros others : List ℕ} (length : zeros.length = others.length)
    (zero : ∀ value ∈ zeros, value = 0) (zero' : ∀ value ∈ others, value = 0) : zeros = others := by
  rw [List.eq_replicate_iff.mpr ⟨rfl, zero⟩, List.eq_replicate_iff.mpr ⟨rfl, zero'⟩, length]

end Foundations
