import OnboardingBridge.Foundations.Positional
import OnboardingBridge.Relayer.SolanaLogs

/-!
# Base58

The Solana listener reads signatures in base58. A byte string is written with a `1` for
each zero byte that leads it, followed by the digits of its value, and is read back
from that. What is no such text is refused.
-/

set_option autoImplicit false

namespace OnboardingBridge.Relayer

open Foundations

/-! ## Digits -/

theorem base58_digit {c : Char} {digit : ℕ} (found : base58Alphabet.idxOf? c = some digit) :
    digit < 58 ∧ (c = '1' ↔ digit = 0) ∧ base58Alphabet.getD digit '1' = c := by
  obtain ⟨below, here, first⟩ := List.idxOf?_eq_some_iff.mp found
  refine ⟨below, ⟨?_, ?_⟩, ?_⟩
  · rintro rfl
    by_contra later
    exact first 0 (Nat.pos_of_ne_zero later) rfl
  · rintro rfl
    exact here.symm
  · rw [List.getD_eq_getElem?_getD, List.getElem?_eq_getElem below, here, Option.getD_some]

/-- What the digits of an input tell of it. -/
theorem base58_digits {input : Text} {digits : List ℕ}
    (read : input.mapM (fun c => base58Alphabet.idxOf? c) = some digits) :
    (∀ digit ∈ digits, digit < 58) ∧
      (input.takeWhile fun c => c = '1').length = leadingZeros digits ∧
      digits.map (fun digit => base58Alphabet.getD digit '1') = input := by
  induction input generalizing digits with
  | nil =>
      obtain rfl : [] = digits := by simpa using read
      exact ⟨fun digit member => absurd member List.not_mem_nil, rfl, rfl⟩
  | cons c rest ih =>
      rw [List.mapM_cons] at read
      obtain ⟨digit, found, read⟩ := Option.bind_eq_some_iff.mp read
      obtain ⟨digits, foundRest, read⟩ := Option.bind_eq_some_iff.mp read
      obtain rfl := Option.some.inj read
      obtain ⟨below, one, back⟩ := base58_digit found
      obtain ⟨belowRest, zeros, backRest⟩ := ih foundRest
      refine ⟨List.forall_mem_cons.mpr ⟨below, belowRest⟩, ?_, ?_⟩
      · rw [leadingZeros] at zeros ⊢
        by_cases leads : c = '1'
        · simp [leads, one.mp leads, zeros]
        · simp [leads, mt one.mpr leads]
      · rw [List.map_cons, back, backRest]

/-! ## Decoding -/

/-- What a decoded input is made of. -/
theorem base58Decode_eq_some {input : Text} {bytes : List UInt8}
    (decoded : base58Decode input = some bytes) : ∃ digits,
      input.mapM (fun c => base58Alphabet.idxOf? c) = some digits ∧
      bytes.map UInt8.toNat = List.replicate (leadingZeros digits) 0 ++
        (Nat.digits 256 (positional 58 digits)).reverse := by
  unfold base58Decode at decoded
  split at decoded
  · cases decoded
  · obtain ⟨digits, read, decoded⟩ := Option.bind_eq_some_iff.mp decoded
    obtain rfl := Option.some.inj decoded
    have bytewise : ∀ digit ∈ (Nat.digits 256 (positional 58 digits)).reverse,
        (UInt8.toNat ∘ UInt8.ofNat) digit = id digit := fun digit member =>
      Nat.mod_eq_of_lt (Nat.digits_lt_base (by decide) (List.mem_reverse.mp member))
    refine ⟨digits, read, ?_⟩
    rw [List.map_append, List.map_replicate, List.map_map, (base58_digits read).2.1]
    exact congrArg _ ((List.map_congr_left bytewise).trans (List.map_id _))

/-- Inputs that decode to the same bytes are the same. -/
theorem base58Decode_inj {input input' : Text} {bytes : List UInt8}
    (decoded : base58Decode input = some bytes) (decoded' : base58Decode input' = some bytes) :
    input = input' := by
  obtain ⟨digits, read, written⟩ := base58Decode_eq_some decoded
  obtain ⟨digits', read', written'⟩ := base58Decode_eq_some decoded'
  obtain ⟨below, -, back⟩ := base58_digits read
  obtain ⟨below', -, back'⟩ := base58_digits read'
  have zeros : leadingZeros digits = leadingZeros digits' := by
    rw [← leadingZeros_digits 256 (leadingZeros digits) (positional 58 digits), ← written, written',
      leadingZeros_digits]
  have value : positional 58 digits = positional 58 digits' := by
    rw [← positional_digits 256 (leadingZeros digits) (positional 58 digits), ← written, written',
      positional_digits]
  rw [← back, ← back', eq_zeros_append_digits (by decide) below,
    eq_zeros_append_digits (by decide) below', zeros, value]

theorem base58_unread {input : Text} :
    input.mapM (fun c => base58Alphabet.idxOf? c) = none ↔ ∃ c ∈ input, c ∉ base58Alphabet := by
  induction input with
  | nil => simp
  | cons c rest ih =>
      rw [List.mapM_cons, List.exists_mem_cons_iff, ← ih]
      cases found : base58Alphabet.idxOf? c with
      | none => simp [List.idxOf?_eq_none_iff.mp found]
      | some digit =>
          have listed : c ∈ base58Alphabet := by
            rw [← (base58_digit found).2.2, List.getD_eq_getElem?_getD]
            have inside := (List.idxOf?_eq_some_iff.mp found).1
            rw [List.getElem?_eq_getElem inside]
            exact List.getElem_mem inside
          cases rest.mapM (fun c => base58Alphabet.idxOf? c) <;> simp [listed]

/-- Exactly the empty input and one with another character are refused. -/
theorem base58Decode_eq_none {input : Text} :
    base58Decode input = none ↔ input = [] ∨ ∃ c ∈ input, c ∉ base58Alphabet := by
  rw [base58Decode, ← base58_unread]
  split
  · next empty => exact ⟨fun _ => .inl empty, fun _ => rfl⟩
  · next filled =>
    rw [or_iff_right filled]
    cases input.mapM (fun c => base58Alphabet.idxOf? c) <;> simp

/-! ## Encoding -/

/-- The standard encoding of bytes. -/
def base58Encode (bytes : List UInt8) : Text :=
  List.replicate (leadingZeros (bytes.map UInt8.toNat)) '1' ++
    (Nat.digits 58 (positional 256 (bytes.map UInt8.toNat))).reverse.map
      fun digit => base58Alphabet.getD digit '1'

theorem base58_letter {digit : ℕ} (below : digit < 58) :
    base58Alphabet.idxOf? (base58Alphabet.getD digit '1') = some digit := by
  have all : ∀ digit < 58, base58Alphabet.idxOf? (base58Alphabet.getD digit '1') = some digit := by
    decide +kernel
  exact all digit below

theorem base58_letters {digits : List ℕ} (below : ∀ digit ∈ digits, digit < 58) :
    (digits.map fun digit => base58Alphabet.getD digit '1').mapM
      (fun c => base58Alphabet.idxOf? c) = some digits := by
  induction digits with
  | nil => rfl
  | cons digit rest ih =>
      obtain ⟨here, later⟩ := List.forall_mem_cons.mp below
      rw [List.map_cons, List.mapM_cons, base58_letter here, ih later]
      rfl

theorem base58Encode_eq (bytes : List UInt8) :
    base58Encode bytes =
      (List.replicate (leadingZeros (bytes.map UInt8.toNat)) 0 ++
        (Nat.digits 58 (positional 256 (bytes.map UInt8.toNat))).reverse).map
          fun digit => base58Alphabet.getD digit '1' := by
  rw [List.map_append, List.map_replicate]
  rfl

/-- What was encoded is decoded. -/
theorem base58Decode_base58Encode {bytes : List UInt8} (filled : bytes ≠ []) :
    base58Decode (base58Encode bytes) = some bytes := by
  let zeros := leadingZeros (bytes.map UInt8.toNat)
  let value := positional 256 (bytes.map UInt8.toNat)
  have whole : bytes.map UInt8.toNat = List.replicate zeros 0 ++ (Nat.digits 256 value).reverse :=
    eq_zeros_append_digits (by decide) fun digit member => by
      obtain ⟨byte, -, rfl⟩ := List.mem_map.mp member
      exact byte.toNat_lt
  have written : base58Encode bytes ≠ [] := by
    intro empty
    rw [base58Encode_eq, List.map_eq_nil_iff, List.append_eq_nil_iff, List.reverse_eq_nil_iff,
      Nat.digits_eq_nil_iff_eq_zero] at empty
    refine filled (List.map_eq_nil_iff.mp (whole.trans ?_))
    rw [show value = 0 from empty.2, show List.replicate zeros 0 = [] from empty.1]
    rfl
  let digits := List.replicate zeros 0 ++ (Nat.digits 58 value).reverse
  have below : ∀ digit ∈ digits, digit < 58 := by
    intro digit member
    rcases List.mem_append.mp member with leading | later
    · rw [List.eq_of_mem_replicate leading]
      decide
    · exact Nat.digits_lt_base (by decide) (List.mem_reverse.mp later)
  have read : (base58Encode bytes).mapM (fun c => base58Alphabet.idxOf? c) = some digits := by
    rw [base58Encode_eq]
    exact base58_letters below
  have decoded : base58Decode (base58Encode bytes) =
      some (List.replicate (leadingZeros digits) 0 ++
        (Nat.digits 256 (positional 58 digits)).reverse.map UInt8.ofNat) := by
    rw [base58Decode, if_neg written, read, ← (base58_digits read).2.1]
    rfl
  have back : (bytes.map UInt8.toNat).map UInt8.ofNat = bytes := by
    rw [List.map_map]
    exact (List.map_congr_left fun byte _ => UInt8.ofNat_toNat).trans (List.map_id _)
  rw [decoded, leadingZeros_digits, positional_digits, ← back, whole, List.map_append,
    List.map_replicate]
  rfl

/-- Decoding inverts the standard encoding, throws for exactly the texts that encode nothing, and
reads different texts differently. -/
theorem base58_inverse :
    (∀ bytes : List UInt8, bytes ≠ [] → base58Decode (base58Encode bytes) = some bytes) ∧
      (∀ input, base58Decode input = none ↔ input = [] ∨ ∃ c ∈ input, c ∉ base58Alphabet) ∧
      ∀ input input' bytes, base58Decode input = some bytes → base58Decode input' = some bytes →
        input = input' :=
  ⟨fun _ => base58Decode_base58Encode, fun _ => base58Decode_eq_none,
    fun _ _ _ => base58Decode_inj⟩

theorem base58_inverse_rehearsed : base58Decode (base58Encode [0, 1]) = some [0, 1] :=
  base58_inverse.1 _ (by decide)

end OnboardingBridge.Relayer
