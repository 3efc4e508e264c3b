import Mathlib.Algebra.Order.Group.Int
import Mathlib.Algebra.Order.Ring.Int
import Mathlib.Data.Int.Basic
import Mathlib.Data.List.Induction
import Mathlib.Tactic.NormNum

/-!
# Fixed-width big-endian encodings

A number is written in `width` bytes, most significant byte first, and a
signed number as its two's complement in that width. Within the range of the
width both encodings are injective (`bigEndian_injOn`, `signedBigEndian_injOn`).
A wide encoding is that of its high bytes followed by that of its low bytes
(`bigEndian_add`), and the number can be read back (`bigEndian_ofBigEndian`).

Strings of bytes are put together from parts of known length. Equal
concatenations whose first parts have equal length have equal parts
(`List.append_inj`), so a concatenation of fixed-width parts can be taken
apart from the left.
-/

set_option autoImplicit false

namespace Foundations

/-- The lowest `width` bytes of a number, most significant first. -/
def bigEndian : (width : Nat) → (value : Nat) → List UInt8
  | 0, _ => []
  | width + 1, value => bigEndian width (value / 256) ++ [UInt8.ofNat value]

@[simp] theorem length_bigEndian (width value : Nat) :
    (bigEndian width value).length = width := by
  induction width generalizing value with
  | zero => rfl
  | succ width ih => simp [bigEndian, ih]

theorem bigEndian_injOn {width a b : Nat} (boundA : a < 256 ^ width) (boundB : b < 256 ^ width)
    (same : bigEndian width a = bigEndian width b) : a = b := by
  induction width generalizing a b with
  | zero =>
      simp only [Nat.pow_zero] at boundA boundB
      omega
  | succ width ih =>
      rw [Nat.pow_succ] at boundA boundB
      obtain ⟨high, low⟩ := List.append_inj same (by simp)
      have quotients : a / 256 = b / 256 := by
        refine ih ?_ ?_ high <;> omega
      have remainders : a % 256 = b % 256 := by
        simpa using congrArg UInt8.toNat (List.cons.inj low).1
      omega

/-- The high bytes come first. -/
theorem bigEndian_add (high low value : Nat) :
    bigEndian (high + low) value = bigEndian high (value / 256 ^ low) ++ bigEndian low value := by
  induction low generalizing value with
  | zero => simp [bigEndian]
  | succ low ih =>
      rw [← Nat.add_assoc, bigEndian, ih, bigEndian, Nat.div_div_eq_div_mul, Nat.pow_succ',
        List.append_assoc]

/-- Only the lowest bytes are encoded. -/
theorem bigEndian_mod (width value : Nat) :
    bigEndian width (value % 256 ^ width) = bigEndian width value := by
  induction width generalizing value with
  | zero => rfl
  | succ width ih =>
      have byte : UInt8.ofNat (value % 256 ^ (width + 1)) = UInt8.ofNat value := by
        rw [← UInt8.toNat_inj, UInt8.toNat_ofNat', UInt8.toNat_ofNat', Nat.pow_succ',
          Nat.mod_mul_right_mod]
      rw [bigEndian, bigEndian, byte, Nat.pow_succ', Nat.mod_mul_right_div_self, ih]

/-- The number that bytes encode, the most significant first. -/
def ofBigEndian (bytes : List UInt8) : Nat :=
  bytes.foldl (fun value byte => value * 256 + byte.toNat) 0

theorem ofBigEndian_append (bytes : List UInt8) (byte : UInt8) :
    ofBigEndian (bytes ++ [byte]) = ofBigEndian bytes * 256 + byte.toNat := by
  simp [ofBigEndian]

theorem bigEndian_ofBigEndian (bytes : List UInt8) :
    bigEndian bytes.length (ofBigEndian bytes) = bytes := by
  induction bytes using List.reverseRecOn with
  | nil => rfl
  | append_singleton bytes byte ih =>
      have below := byte.toNat_lt
      have high : (ofBigEndian bytes * 256 + byte.toNat) / 256 = ofBigEndian bytes := by omega
      have low : UInt8.ofNat (ofBigEndian bytes * 256 + byte.toNat) = byte := by
        rw [← UInt8.toNat_inj, UInt8.toNat_ofNat']
        omega
      rw [ofBigEndian_append, List.length_append, List.length_singleton, bigEndian, high, low, ih]

theorem ofBigEndian_lt (bytes : List UInt8) : ofBigEndian bytes < 256 ^ bytes.length := by
  induction bytes using List.reverseRecOn with
  | nil => exact Nat.one_pos
  | append_singleton bytes byte ih =>
      have below := byte.toNat_lt
      rw [ofBigEndian_append, List.length_append, List.length_singleton, Nat.pow_succ]
      omega

theorem ofBigEndian_bigEndian {width value : Nat} (bound : value < 256 ^ width) :
    ofBigEndian (bigEndian width value) = value := by
  induction width generalizing value with
  | zero =>
      rw [Nat.pow_zero] at bound
      exact (Nat.lt_one_iff.mp bound).symm
  | succ width ih =>
      rw [Nat.pow_succ] at bound
      rw [bigEndian, ofBigEndian_append, ih (by omega), UInt8.toNat_ofNat']
      omega

/-- A signed number as its two's complement in `width` bytes. -/
def signedBigEndian (width : Nat) (value : Int) : List UInt8 :=
  bigEndian width (value % 256 ^ width).toNat

@[simp] theorem length_signedBigEndian (width : Nat) (value : Int) :
    (signedBigEndian width value).length = width :=
  length_bigEndian ..

theorem signedBigEndian_injOn {width : Nat} {a b : Int} (span : |a - b| < 256 ^ width)
    (same : signedBigEndian width a = signedBigEndian width b) : a = b := by
  have positive : (0 : Int) < 256 ^ width := Int.pow_pos (by decide)
  have lowerA := Int.emod_nonneg a (ne_of_gt positive)
  have lowerB := Int.emod_nonneg b (ne_of_gt positive)
  have upperA := Int.emod_lt_of_pos a positive
  have upperB := Int.emod_lt_of_pos b positive
  have naturals : (a % 256 ^ width).toNat = (b % 256 ^ width).toNat := by
    refine bigEndian_injOn ?_ ?_ same
    · exact (Int.toNat_lt lowerA).mpr (by exact_mod_cast upperA)
    · exact (Int.toNat_lt lowerB).mpr (by exact_mod_cast upperB)
  have residues : a % 256 ^ width = b % 256 ^ width := by omega
  have divides : (256 : Int) ^ width ∣ a - b :=
    Int.dvd_of_emod_eq_zero (Int.emod_eq_emod_iff_emod_sub_eq_zero.mp residues)
  exact Int.sub_eq_zero.mp (Int.eq_zero_of_abs_lt_dvd divides span)

end Foundations
