import OnboardingBridge.Relayer.PayloadAgreement
import OnboardingBridge.Relayer.SolanaLogs

/-!
# Hexadecimal texts

What is written in hexadecimal is read back, in lower case and with two digits a byte.
-/

set_option autoImplicit false

namespace OnboardingBridge.Relayer

open Foundations Contract

/-- `toLowerCase` of a text of which only hexadecimal digits matter. -/
def toLowerCase (text : Text) : Text := text.map Char.toLower

/-- Whether a text matches `/^[0-9a-f]{n}$/i`. -/
def isHex (length : Nat) (text : Text) : Bool :=
  text.length = length && text.all (isDigitIn 16)

/-- The digit of a number is read back, and is in lower case. -/
theorem hexDigit_spec : ∀ value : Fin 16,
    isDigitIn 16 (hexDigits.getD value '0') = true ∧
      digitValue (hexDigits.getD value '0') = some value.val ∧
      (hexDigits.getD value '0').toLower = hexDigits.getD value '0' := by decide

theorem hexText_length (bytes : List UInt8) : (hexText bytes).length = 2 * bytes.length := by
  induction bytes with
  | nil => rfl
  | cons byte bytes ih =>
      rw [hexText, List.flatMap_cons, List.length_append, ← hexText, ih]
      simp only [List.length_cons, List.length_nil]
      omega

theorem hexBytes_hexText (bytes : List UInt8) : hexBytes (hexText bytes) = bytes := by
  induction bytes with
  | nil => rfl
  | cons byte bytes ih =>
      have within : byte.toNat < 256 := byte.toNat_lt
      obtain ⟨high, highValue, -⟩ := hexDigit_spec ⟨byte.toNat / 16, by omega⟩
      obtain ⟨low, lowValue, -⟩ := hexDigit_spec ⟨byte.toNat % 16, by omega⟩
      have joined : 16 * (byte.toNat / 16) + byte.toNat % 16 = byte.toNat := by omega
      rw [hexText, List.flatMap_cons, ← hexText]
      simp only [List.cons_append, List.nil_append, hexBytes]
      rw [high, low, highValue, lowValue, ih]
      simp [joined]

theorem hexText_digits (bytes : List UInt8) : (hexText bytes).all (isDigitIn 16) = true := by
  induction bytes with
  | nil => rfl
  | cons byte bytes ih =>
      have within : byte.toNat < 256 := byte.toNat_lt
      obtain ⟨high, -, -⟩ := hexDigit_spec ⟨byte.toNat / 16, by omega⟩
      obtain ⟨low, -, -⟩ := hexDigit_spec ⟨byte.toNat % 16, by omega⟩
      rw [hexText, List.flatMap_cons, ← hexText, List.all_append, ih]
      simp only [List.all_cons, List.all_nil, high, low, Bool.and_self]

theorem toLowerCase_hexText (bytes : List UInt8) : toLowerCase (hexText bytes) = hexText bytes := by
  induction bytes with
  | nil => rfl
  | cons byte bytes ih =>
      have within : byte.toNat < 256 := byte.toNat_lt
      obtain ⟨-, -, high⟩ := hexDigit_spec ⟨byte.toNat / 16, by omega⟩
      obtain ⟨-, -, low⟩ := hexDigit_spec ⟨byte.toNat % 16, by omega⟩
      rw [toLowerCase] at ih
      rw [hexText, List.flatMap_cons, ← hexText, toLowerCase, List.map_append, ih]
      simp only [List.map_cons, List.map_nil, high, low]

theorem isHex_hexText {n length : ℕ} (bytes : BytesN n) (twice : length = 2 * n) :
    isHex length (hexText bytes.toList) = true := by
  rw [isHex, hexText_length, BytesN.length_toList, hexText_digits, twice]
  simp

theorem toBytesN_hexText {n : ℕ} (bytes : BytesN n) :
    toBytesN n (hexBytes (hexText bytes.toList)) = some bytes := by
  obtain ⟨value, read, same⟩ := toBytesN_toList (BytesN.length_toList bytes)
  rw [hexBytes_hexText, read, BytesN.toList_injective same]

/-! ## Parts of a text of digits -/

theorem digitValue_lt {c : Char} (digit : isDigitIn 16 c = true) : (digitValue c).getD 0 < 16 := by
  unfold isDigitIn at digit
  cases value : digitValue c with
  | none => simp
  | some value' => simpa [value] using digit

theorem hexBytes_cons {high low : Char} {rest : List Char}
    (digits : (high :: low :: rest).all (isDigitIn 16) = true) :
    hexBytes (high :: low :: rest) =
        UInt8.ofNat (16 * (digitValue high).getD 0 + (digitValue low).getD 0) :: hexBytes rest ∧
      rest.all (isDigitIn 16) = true := by
  simp only [List.all_cons, Bool.and_eq_true] at digits
  rw [hexBytes, if_pos (by simp [digits.1, digits.2.1])]
  exact ⟨rfl, digits.2.2⟩

theorem all_drop {text : List Char} (digits : text.all (isDigitIn 16) = true) (n : ℕ) :
    (text.drop n).all (isDigitIn 16) = true :=
  List.all_eq_true.mpr fun c member => List.all_eq_true.mp digits c (List.mem_of_mem_drop member)

theorem all_take {text : List Char} (digits : text.all (isDigitIn 16) = true) (n : ℕ) :
    (text.take n).all (isDigitIn 16) = true :=
  List.all_eq_true.mpr fun c member => List.all_eq_true.mp digits c (List.mem_of_mem_take member)

/-- Two digits are dropped with every byte. -/
theorem hexBytes_drop {text : List Char} (digits : text.all (isDigitIn 16) = true) (n : ℕ) :
    hexBytes (text.drop (2 * n)) = (hexBytes text).drop n := by
  induction n generalizing text with
  | zero => rfl
  | succ n ih =>
      match text with
      | [] => rfl
      | [c] => simp [hexBytes, Nat.mul_succ]
      | high :: low :: rest =>
          obtain ⟨first, later⟩ := hexBytes_cons digits
          rw [first, List.drop_succ_cons, Nat.mul_succ, List.drop_succ_cons, List.drop_succ_cons,
            ih later]

theorem hexBytes_take {text : List Char} (digits : text.all (isDigitIn 16) = true) (n : ℕ) :
    hexBytes (text.take (2 * n)) = (hexBytes text).take n := by
  induction n generalizing text with
  | zero => rfl
  | succ n ih =>
      match text with
      | [] => rfl
      | [c] => simp [hexBytes, Nat.mul_succ]
      | high :: low :: rest =>
          obtain ⟨first, later⟩ := hexBytes_cons digits
          have taken := all_take digits (2 * (n + 1))
          rw [Nat.mul_succ, List.take_succ_cons, List.take_succ_cons] at taken ⊢
          rw [(hexBytes_cons taken).1, first, List.take_succ_cons, ih later]

theorem foldl_hexBytes {text : List Char} (digits : text.all (isDigitIn 16) = true)
    (even : text.length % 2 = 0) (value : ℕ) :
    text.foldl (fun value c => value * 16 + (digitValue c).getD 0) value =
      (hexBytes text).foldl (fun value byte => value * 256 + byte.toNat) value := by
  match text with
  | [] => rfl
  | [c] => simp at even
  | high :: low :: rest =>
      have here : isDigitIn 16 high = true ∧ isDigitIn 16 low = true := by
        simp only [List.all_cons, Bool.and_eq_true] at digits
        exact ⟨digits.1, digits.2.1⟩
      have highBound := digitValue_lt here.1
      have lowBound := digitValue_lt here.2
      obtain ⟨first, later⟩ := hexBytes_cons digits
      have byte : (UInt8.ofNat (16 * (digitValue high).getD 0 + (digitValue low).getD 0)).toNat =
          16 * (digitValue high).getD 0 + (digitValue low).getD 0 := by
        rw [UInt8.toNat_ofNat']
        omega
      rw [first, List.foldl_cons, List.foldl_cons, List.foldl_cons, byte,
        foldl_hexBytes later (by simpa [Nat.add_assoc] using even)]
      congr 1
      ring

/-- The number that digits denote is that of their bytes. -/
theorem naturalIn_hexBytes {text : List Char} (digits : text.all (isDigitIn 16) = true)
    (even : text.length % 2 = 0) (some' : text ≠ []) :
    naturalIn 16 text = some (ofBigEndian (hexBytes text)) := by
  rw [naturalIn, if_pos ⟨some', digits⟩, foldl_hexBytes digits even, ofBigEndian]

theorem hexText_injective {n : ℕ} {bytes bytes' : BytesN n}
    (same : hexText bytes.toList = hexText bytes'.toList) : bytes = bytes' := by
  have read := congrArg hexBytes same
  rw [hexBytes_hexText, hexBytes_hexText] at read
  exact BytesN.toList_injective read

end OnboardingBridge.Relayer
