import Mathlib.Data.List.Basic
import Mathlib.Data.Nat.Notation

/-!
# Base64

Three bytes are written as four characters of six bits each, and what is left of the bytes as
two or three characters that are filled up with `=`. Reading stops at the first `=`, passes over
characters that are none of the alphabet, and takes the URL-safe characters too.
-/

set_option autoImplicit false

namespace Foundations.Base64

def alphabet : List Char :=
  "ABCDEFGHIJKLMNOPQRSTUVWXYZabcdefghijklmnopqrstuvwxyz0123456789+/".toList

/-- The character of six bits. -/
def letter (sextet : ℕ) : Char := alphabet.getD sextet '='

/-- The six bits of a character. -/
def sextet (c : Char) : Option ℕ :=
  if c = '-' then some 62 else if c = '_' then some 63 else alphabet.idxOf? c

def encode : List UInt8 → List Char
  | a :: b :: c :: rest =>
      letter (a.toNat / 4) :: letter (a.toNat % 4 * 16 + b.toNat / 16) ::
        letter (b.toNat % 16 * 4 + c.toNat / 64) :: letter (c.toNat % 64) :: encode rest
  | [a, b] =>
      [letter (a.toNat / 4), letter (a.toNat % 4 * 16 + b.toNat / 16), letter (b.toNat % 16 * 4),
        '=']
  | [a] => [letter (a.toNat / 4), letter (a.toNat % 4 * 16), '=', '=']
  | [] => []

/-- The bytes of six bits each; a single sextet at the end is no byte. -/
def bytesOf : List ℕ → List UInt8
  | p :: q :: r :: s :: rest =>
      UInt8.ofNat (p * 4 + q / 16) :: UInt8.ofNat (q % 16 * 16 + r / 4) ::
        UInt8.ofNat (r % 4 * 64 + s) :: bytesOf rest
  | [p, q, r] => [UInt8.ofNat (p * 4 + q / 16), UInt8.ofNat (q % 16 * 16 + r / 4)]
  | [p, q] => [UInt8.ofNat (p * 4 + q / 16)]
  | _ => []

def decode (text : List Char) : List UInt8 :=
  bytesOf ((text.takeWhile fun c => c ≠ '=').filterMap sextet)

theorem letter_spec : ∀ value : Fin 64, letter value ≠ '=' ∧ sextet (letter value) = some value.val := by
  decide +kernel

/-- The sextets that a text begins with are read first. -/
theorem sextets_cons {value : ℕ} (small : value < 64) (text : List Char) :
    ((letter value :: text).takeWhile fun c => c ≠ '=').filterMap sextet =
      value :: (text.takeWhile fun c => c ≠ '=').filterMap sextet := by
  obtain ⟨solid, read⟩ := letter_spec ⟨value, small⟩
  rw [List.takeWhile_cons_of_pos (by simpa using solid), List.filterMap_cons_some read]

theorem sextets_stop (text : List Char) :
    (('=' :: text).takeWhile fun c => c ≠ '=').filterMap sextet = [] := by
  rw [List.takeWhile_cons_of_neg (by simp)]
  rfl

/-- Bytes are read back. -/
theorem decode_encode (bytes : List UInt8) : decode (encode bytes) = bytes := by
  have back (byte : UInt8) {value : ℕ} (same : value = byte.toNat) : UInt8.ofNat value = byte := by
    rw [same, UInt8.ofNat_toNat]
  induction bytes using encode.induct with
  | case1 a b c rest ih =>
      have boundA := a.toNat_lt
      have boundB := b.toNat_lt
      have boundC := c.toNat_lt
      rw [decode] at ih
      rw [encode, decode, sextets_cons (by omega), sextets_cons (by omega), sextets_cons (by omega),
        sextets_cons (by omega), bytesOf, ih, back a (by omega), back b (by omega),
        back c (by omega)]
  | case2 a b =>
      have boundA := a.toNat_lt
      have boundB := b.toNat_lt
      rw [encode, decode, sextets_cons (by omega), sextets_cons (by omega), sextets_cons (by omega),
        sextets_stop, bytesOf, back a (by omega), back b (by omega)]
  | case3 a =>
      have boundA := a.toNat_lt
      rw [encode, decode, sextets_cons (by omega), sextets_cons (by omega), sextets_stop, bytesOf,
        back a (by omega)]
  | case4 => rfl

end Foundations.Base64
