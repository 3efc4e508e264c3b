import OnboardingBridge.Foundations.AbiPayload
import OnboardingBridge.Relayer.ReplayKeys

/-!
# The data of Ethereum logs

The data of a log carries a target, an asset and an amount as the ABI encodes them. The
listener reads what the offsets and the lengths designate, wherever the two strings lie,
and gives back the strings that were encoded (`abi_round_trip`).
-/

set_option autoImplicit false

namespace OnboardingBridge.Relayer

open Foundations Contract

/-! ## Texts in UTF-8 -/

namespace Utf8Decoder

/-- A byte that goes on with a character. -/
theorem decode_continue {codePoint needed lower upper byte : ℕ} {rest : List UInt8}
    (small : byte < 256) (between : lower ≤ byte ∧ byte ≤ upper) :
    decode ⟨codePoint, needed + 2, lower, upper⟩ (UInt8.ofNat byte :: rest) =
      decode ⟨codePoint * 64 + byte % 64, needed + 1, 0x80, 0xbf⟩ rest := by
  have value : (UInt8.ofNat byte).toNat = byte := by
    rw [UInt8.toNat_ofNat']
    omega
  rw [decode, value, push, if_neg (by simp), if_neg (by simp; omega)]
  simp

/-- A byte that ends a character. -/
theorem decode_end {codePoint lower upper byte : ℕ} {rest : List UInt8}
    (small : byte < 256) (between : lower ≤ byte ∧ byte ≤ upper) :
    decode ⟨codePoint, 1, lower, upper⟩ (UInt8.ofNat byte :: rest) =
      Char.ofNat (codePoint * 64 + byte % 64) :: decode start rest := by
  have value : (UInt8.ofNat byte).toNat = byte := by
    rw [UInt8.toNat_ofNat']
    omega
  rw [decode, value, push, if_neg (by simp), if_neg (by simp; omega)]
  simp

theorem decode_lead {byte : ℕ} {rest : List UInt8} (small : byte < 256) :
    decode start (UInt8.ofNat byte :: rest) = (lead byte).1 ++ (lead byte).2.decode rest := by
  have value : (UInt8.ofNat byte).toNat = byte := by
    rw [UInt8.toNat_ofNat']
    omega
  rw [decode, value, push, if_pos (by rfl)]

/-- The bytes of a character are read as the character. -/
theorem decode_char (c : Char) (rest : List UInt8) :
    decode start (String.utf8EncodeChar c ++ rest) = c :: decode start rest := by
  have valid : c.toNat < 0xd800 ∨ 0xdfff < c.toNat ∧ c.toNat < 0x110000 := c.valid
  have back {n : ℕ} (same : n = c.toNat) : Char.ofNat n = c := same ▸ Char.ofNat_toNat c
  unfold String.utf8EncodeChar
  simp only [show c.val.toNat = c.toNat from rfl]
  split
  · rw [List.singleton_append, decode_lead (by omega), lead, if_pos (by omega), back rfl]
    rfl
  split
  · rw [List.cons_append, List.singleton_append, decode_lead (by omega), lead, if_neg (by omega),
      if_pos (by omega), List.nil_append, decode_end (by omega) (by omega), back (by omega)]
  split
  · rw [List.cons_append, List.cons_append, List.singleton_append, decode_lead (by omega), lead,
      if_neg (by omega), if_neg (by omega), if_pos (by omega), List.nil_append,
      decode_continue (by omega) (by split <;> split <;> omega),
      decode_end (by omega) (by omega), back (by omega)]
  · rw [List.cons_append, List.cons_append, List.cons_append, List.singleton_append,
      decode_lead (by omega), lead, if_neg (by omega), if_neg (by omega), if_neg (by omega),
      if_pos (by omega), List.nil_append, decode_continue (by omega) (by split <;> split <;> omega),
      decode_continue (by omega) (by omega), decode_end (by omega) (by omega), back (by omega)]

end Utf8Decoder

/-- A string is read back from its bytes. -/
theorem utf8Text_utf8Bytes (text : String) : utf8Text (utf8Bytes text) = text.toList := by
  have chars (characters : List Char) :
      Utf8Decoder.start.decode (characters.flatMap String.utf8EncodeChar) = characters := by
    induction characters with
    | nil => rfl
    | cons c rest ih => rw [List.flatMap_cons, Utf8Decoder.decode_char, ih]
  have bytes : utf8Bytes text = text.toList.flatMap String.utf8EncodeChar := by
    have encoded := congrArg (fun array : ByteArray => array.data.toList)
      (String.utf8Encode_toList (b := text))
    rw [utf8Bytes, String.toUTF8_eq_toByteArray, ← encoded]
    simp [List.utf8Encode]
  rw [utf8Text, bytes, chars]

/-! ## Words in hexadecimal -/

theorem isDigitIn_range {c : Char} (digit : isDigitIn 16 c = true) :
    48 ≤ c.toNat ∧ c.toNat ≤ 57 ∨ 65 ≤ c.toNat ∧ c.toNat ≤ 70 ∨ 97 ≤ c.toNat ∧ c.toNat ≤ 102 := by
  have le (d : Char) : d ≤ c ↔ d.toNat ≤ c.toNat := Iff.rfl
  have ge (d : Char) : c ≤ d ↔ c.toNat ≤ d.toNat := Iff.rfl
  unfold isDigitIn digitValue at digit
  simp only [le, ge] at digit
  change (if 48 ≤ c.toNat ∧ c.toNat ≤ 57 then some (c.toNat - 48)
    else if 97 ≤ c.toNat ∧ c.toNat ≤ 122 then some (c.toNat - 97 + 10)
    else if 65 ≤ c.toNat ∧ c.toNat ≤ 90 then some (c.toNat - 65 + 10)
    else none).any (fun value => decide (value < 16)) = true at digit
  split at digit
  · omega
  split at digit
  · have small : c.toNat - 97 + 10 < 16 := of_decide_eq_true digit
    omega
  split at digit
  · have small : c.toNat - 65 + 10 < 16 := of_decide_eq_true digit
    omega
  · cases digit

theorem isSpace_digit {c : Char} (digit : isDigitIn 16 c = true) : isSpace c = false := by
  have range := isDigitIn_range digit
  simp only [isSpace, List.mem_cons, List.not_mem_nil, or_false, Bool.or_eq_false_iff,
    decide_eq_false_iff_not, Bool.and_eq_false_iff, not_or]
  omega

/-- Digits begin with no sign, no space and no `0x`. -/
theorem parseHex_digits {text : Text} (digits : text.all (isDigitIn 16) = true)
    (even : text.length % 2 = 0) (nonempty : text ≠ []) :
    parseHex text = some (ofBigEndian (hexBytes text) : ℤ) := by
  have value := naturalIn_hexBytes digits even nonempty
  have whole : text.takeWhile (isDigitIn 16) = text :=
    List.takeWhile_eq_self_iff.mpr (List.all_eq_true.mp digits)
  match text with
  | [] => cases nonempty rfl
  | c :: rest =>
      have digit : ∀ d ∈ c :: rest, isDigitIn 16 d = true := List.all_eq_true.mp digits
      have range := isDigitIn_range (digit c List.mem_cons_self)
      have noSpace : (c :: rest).dropWhile isSpace = c :: rest := by
        rw [List.dropWhile_cons, isSpace_digit (digit c List.mem_cons_self)]
        rfl
      have unmarked (d : Char) (letter : isDigitIn 16 d = false) (digits : Text) :
          c :: rest ≠ '0' :: d :: digits := by
        intro same
        obtain ⟨-, same⟩ := List.cons.inj same
        have member : d ∈ c :: rest := by simp [same]
        rw [digit d member] at letter
        cases letter
      rw [parseHex, noSpace]
      split
      · next signed =>
        obtain ⟨rfl, -⟩ := List.cons.inj signed
        exact absurd range (by decide)
      · next signed =>
        obtain ⟨rfl, -⟩ := List.cons.inj signed
        exact absurd range (by decide)
      · simp only
        split
        · next same => exact absurd same (unmarked 'x' (by decide) _)
        · next same => exact absurd same (unmarked 'X' (by decide) _)
        · rw [whole, value]
          rfl

theorem trim_solid {text : Text} (solid : ∀ c ∈ text, isSpace c = false) : trim text = text := by
  have kept {text : Text} (solid : ∀ c ∈ text, isSpace c = false) :
      text.dropWhile isSpace = text := by
    cases text with
    | nil => rfl
    | cons c rest => rw [List.dropWhile_cons, solid c List.mem_cons_self]; rfl
  rw [trim, kept solid, kept fun c member => solid c (List.mem_reverse.mp member),
    List.reverse_reverse]

theorem bigInt_digits {text : Text} (digits : text.all (isDigitIn 16) = true)
    (even : text.length % 2 = 0) (nonempty : text ≠ []) :
    bigInt ("0x" ++ String.ofList text) = some (ofBigEndian (hexBytes text) : ℤ) := by
  have characters : ("0x" ++ String.ofList text).toList = '0' :: 'x' :: text := by simp
  have solid : ∀ c ∈ '0' :: 'x' :: text, isSpace c = false := by
    simp only [List.forall_mem_cons]
    exact ⟨by decide, by decide, fun c member => isSpace_digit (List.all_eq_true.mp digits c member)⟩
  rw [bigInt, characters, trim_solid solid]
  simp [naturalIn_hexBytes digits even nonempty]

section Payloads

variable {data : Text} (digits : data.all (isDigitIn 16) = true)
include digits

theorem wordAt_digits {offset value : ℕ} (read : wordAt (hexBytes data) offset = some value) :
    parseHex ((data.drop (2 * offset)).take 64) = some (value : ℤ) ∧
      2 * offset + 64 ≤ data.length := by
  unfold wordAt at read
  split at read
  · next within =>
    rw [hexBytes_length digits] at within
    have fits : 2 * offset + 64 ≤ data.length := by omega
    have long : ((data.drop (2 * offset)).take 64).length = 64 := by
      rw [List.length_take, List.length_drop]
      omega
    have nonempty : (data.drop (2 * offset)).take 64 ≠ [] := by
      intro none
      rw [none] at long
      cases long
    have bytes : hexBytes ((data.drop (2 * offset)).take 64) =
        ((hexBytes data).drop offset).take 32 := by
      rw [← hexBytes_drop digits, ← hexBytes_take (all_drop digits _)]
    rw [parseHex_digits (all_take (all_drop digits _) _) (by rw [long]) nonempty, bytes]
    obtain rfl := Option.some.inj read
    exact ⟨rfl, fits⟩
  · cases read

theorem wordAt_none {offset : ℕ} (short : wordAt (hexBytes data) offset = none) :
    data.length < 2 * offset + 64 := by
  unfold wordAt at short
  rw [hexBytes_length digits] at short
  split at short
  · cases short
  · omega

/-- `decodeString` reads the tail at an offset. -/
theorem decodeString_digits (offset : ℕ) :
    decodeString data ((offset : ℤ) * 2) = (contentAt (hexBytes data) offset).map utf8Text := by
  have doubled : ((offset : ℤ) * 2).toNat = 2 * offset := by omega
  rw [decodeString, contentAt, doubled]
  cases read : wordAt (hexBytes data) offset with
  | none =>
      have short := wordAt_none digits read
      rw [if_pos (by omega)]
      rfl
  | some length =>
      obtain ⟨parsed, fits⟩ := wordAt_digits digits read
      have bytes : hexBytes ((data.drop (2 * offset + 64)).take (2 * length)) =
          ((hexBytes data).drop (offset + 32)).take length := by
        rw [hexBytes_take (all_drop digits _), ← hexBytes_drop digits]
        rfl
      have count : ((length : ℤ) * 2).toNat = 2 * length := by omega
      rw [if_neg (by omega), parsed, Option.bind_eq_bind, Option.bind_some, Option.bind_eq_bind,
        Option.bind_some]
      simp only [count, bytes, hexBytes_length digits, List.length_take, List.length_drop]
      by_cases within : offset + 32 + length ≤ data.length / 2
      · rw [if_neg (by omega), if_pos within]
        rfl
      · rw [if_pos (by omega), if_neg within]
        rfl

end Payloads

/-! ## Targets, assets and amounts -/

/-- A payload that designates a target, an asset and an amount: the first two words are offsets of
the tails that hold the target and the asset, and the third is the amount. -/
structure Designates (payload target asset : List UInt8) (amount : ℕ) : Prop where
  target : ∃ offset, wordAt payload 0 = some offset ∧ contentAt payload offset = some target
  asset : ∃ offset, wordAt payload 32 = some offset ∧ contentAt payload offset = some asset
  amount : wordAt payload 64 = some amount

theorem Designates.unique {payload target asset target' asset' : List UInt8} {amount amount' : ℕ}
    (designates : Designates payload target asset amount)
    (designates' : Designates payload target' asset' amount') :
    target = target' ∧ asset = asset' ∧ amount = amount' := by
  obtain ⟨⟨_, word, content⟩, ⟨_, assetWord, assetContent⟩, amountWord⟩ := designates
  obtain ⟨⟨_, word', content'⟩, ⟨_, assetWord', assetContent'⟩, amountWord'⟩ := designates'
  rw [word] at word'
  rw [assetWord] at assetWord'
  obtain rfl := Option.some.inj word'
  obtain rfl := Option.some.inj assetWord'
  exact ⟨Option.some.inj (content.symm.trans content'),
    Option.some.inj (assetContent.symm.trans assetContent'),
    Option.some.inj (amountWord.symm.trans amountWord')⟩

/-- The listener reads what the payload designates. -/
theorem decodeData_eq_some {data : Text} (digits : data.all (isDigitIn 16) = true)
    {fields : Text × Text × ℤ} :
    decodeData data = some fields ↔ ∃ target asset amount,
      Designates (hexBytes data) target asset amount ∧
        fields = (utf8Text target, utf8Text asset, (amount : ℤ)) := by
  by_cases short : data.length < 64 * 3
  · rw [decodeData, if_pos short]
    constructor
    · rintro ⟨⟩
    · rintro ⟨_, _, _, designates, -⟩
      have fits := (wordAt_digits digits designates.amount).2
      omega
  · have words (n : ℕ) (below : n < 3) : ∃ value, wordAt (hexBytes data) (32 * n) = some value ∧
        parseHex ((data.drop (n * 64)).take 64) = some (value : ℤ) := by
      cases read : wordAt (hexBytes data) (32 * n) with
      | none =>
          have tooShort := wordAt_none digits read
          omega
      | some value =>
          refine ⟨value, rfl, ?_⟩
          rw [show n * 64 = 2 * (32 * n) by omega]
          exact (wordAt_digits digits read).1
    obtain ⟨targetOffset, targetWord, targetParsed⟩ := words 0 (by omega)
    obtain ⟨assetOffset, assetWord, assetParsed⟩ := words 1 (by omega)
    obtain ⟨amount, amountWord, amountParsed⟩ := words 2 (by omega)
    have long : ((data.drop (2 * 64)).take 64).length = 64 := by
      rw [List.length_take, List.length_drop]
      omega
    have nonempty : (data.drop (2 * 64)).take 64 ≠ [] := by
      intro none
      rw [none] at long
      cases long
    have inside := all_take (all_drop digits (2 * 64)) 64
    have value : bigInt ("0x" ++ String.ofList ((data.drop (2 * 64)).take 64)) =
        some (amount : ℤ) := by
      rw [bigInt_digits inside (by rw [long]) nonempty, ← amountParsed,
        parseHex_digits inside (by rw [long]) nonempty]
    rw [decodeData, if_neg short]
    simp only [targetParsed, assetParsed, Option.bind_eq_bind, Option.bind_some, long, ne_eq,
      not_true_eq_false, if_false, decodeString_digits digits, value, Option.bind_eq_some_iff,
      Option.map_eq_some_iff, Option.pure_def, Option.some.injEq]
    constructor
    · rintro ⟨_, ⟨target, held, rfl⟩, _, ⟨asset, assetHeld, rfl⟩, rfl⟩
      exact ⟨target, asset, amount,
        ⟨⟨targetOffset, targetWord, held⟩, ⟨assetOffset, assetWord, assetHeld⟩, amountWord⟩, rfl⟩
    · rintro ⟨target, asset, amount', ⟨⟨_, word, held⟩, ⟨_, word', assetHeld⟩, word''⟩, rfl⟩
      obtain rfl := Option.some.inj (targetWord.symm.trans word)
      obtain rfl := Option.some.inj (assetWord.symm.trans word')
      obtain rfl := Option.some.inj (amountWord.symm.trans word'')
      exact ⟨_, ⟨target, held, rfl⟩, _, ⟨asset, assetHeld, rfl⟩, rfl⟩

/-! ## Placements -/

/-- A payload that begins with the offsets of the tails of a target and of an asset and with an
amount, and that holds the two tails at these offsets. The tails may lie in either order, overlap
and leave bytes out. -/
structure Places (payload target asset : List UInt8) (amount targetOffset assetOffset : ℕ) :
    Prop where
  words : ∀ word ∈ [targetOffset, assetOffset, amount, target.length, asset.length],
    word < 2 ^ 256
  head : HoldsAt payload 0
    (bigEndian 32 targetOffset ++ (bigEndian 32 assetOffset ++ bigEndian 32 amount))
  target : HoldsAt payload targetOffset (tailOf target)
  asset : HoldsAt payload assetOffset (tailOf asset)

theorem Places.designates {payload target asset : List UInt8} {amount targetOffset assetOffset : ℕ}
    (places : Places payload target asset amount targetOffset assetOffset) :
    Designates payload target asset amount := by
  have words : ∀ word ∈ [targetOffset, assetOffset, amount, target.length, asset.length],
      word < 256 ^ 32 := places.words
  simp only [List.forall_mem_cons, List.not_mem_nil, false_imp_iff, implies_true, and_true] at words
  obtain ⟨targetFits, assetFits, amountFits, targetLength, assetLength⟩ := words
  obtain ⟨first, rest⟩ := holdsAt_append.mp places.head
  obtain ⟨second, third⟩ := holdsAt_append.mp rest
  simp only [length_bigEndian] at second third
  exact ⟨⟨targetOffset, wordAt_eq_some.mpr ⟨targetFits, first⟩,
      contentAt_eq_some.mpr ⟨targetLength, places.target⟩⟩,
    ⟨assetOffset, wordAt_eq_some.mpr ⟨assetFits, second⟩,
      contentAt_eq_some.mpr ⟨assetLength, places.asset⟩⟩,
    wordAt_eq_some.mpr ⟨amountFits, third⟩⟩

/-- A content in a tail that is filled up to whole words. -/
def paddedTail (content : List UInt8) : List UInt8 :=
  tailOf content ++ List.replicate ((32 - content.length % 32) % 32) 0

/-- `abi.encode` of a target, an asset and an amount. -/
def abiEncode (target asset : List UInt8) (amount : ℕ) : List UInt8 :=
  bigEndian 32 96 ++ bigEndian 32 (96 + (paddedTail target).length) ++ bigEndian 32 amount ++
    paddedTail target ++ paddedTail asset

theorem abiEncode_places {target asset : List UInt8} {amount : ℕ} (amountFits : amount < 2 ^ 256)
    (targetFits : target.length + 159 < 2 ^ 256) (assetFits : asset.length < 2 ^ 256) :
    Places (abiEncode target asset amount) target asset amount 96
      (96 + (paddedTail target).length) where
  head := ⟨[], paddedTail target ++ paddedTail asset, by simp [abiEncode], rfl⟩
  target := ⟨bigEndian 32 96 ++ bigEndian 32 (96 + (paddedTail target).length) ++
    bigEndian 32 amount, List.replicate ((32 - target.length % 32) % 32) 0 ++ paddedTail asset,
    by simp [abiEncode, paddedTail], by simp⟩
  asset := ⟨bigEndian 32 96 ++ bigEndian 32 (96 + (paddedTail target).length) ++
    bigEndian 32 amount ++ paddedTail target, List.replicate ((32 - asset.length % 32) % 32) 0,
    by simp [abiEncode, paddedTail], by simp; omega⟩
  words := by
    have long : (paddedTail target).length < target.length + 64 := by
      simp only [paddedTail, tailOf, List.length_append, length_bigEndian, List.length_replicate]
      omega
    simp only [List.forall_mem_cons, List.not_mem_nil, false_imp_iff, implies_true, and_true]
    omega

/-! ## Logs -/

/-- A log of a transaction at an index that carries a payload, all in hexadecimal. -/
structure EthLog.Carries (log : EthLog) (transaction : BytesN 32) (index : ℕ)
    (payload : List UInt8) : Prop where
  hash : ∃ digits, log.transactionHash = some ('0' :: 'x' :: digits) ∧
    digits.all (isDigitIn 16) = true ∧ digits.length = 64 ∧ hexBytes digits = transaction.toList
  position : log.logIndex.toNumber = some (index : ℚ)
  data : ∃ digits, log.data = some ('0' :: 'x' :: digits) ∧ digits.all (isDigitIn 16) = true ∧
    hexBytes digits = payload

theorem EthLog.Carries.hashed {log : EthLog} {transaction : BytesN 32} {index : ℕ}
    {payload : List UInt8} (carries : log.Carries transaction index payload)
    (fits : index < 2 ^ 32) :
    log.hashedBytes = some (positionBytes transaction.toList index) := by
  obtain ⟨digits, hash, -, length, decoded⟩ := carries.hash
  have stripped : after0x ('0' :: 'x' :: digits) = some digits := rfl
  have written : writeIndexBE (index : ℚ) = some (bigEndian 4 index) := by
    have below : (index : ℚ) ≤ 0xffffffff := by exact_mod_cast (by omega : index ≤ 0xffffffff)
    rw [writeIndexBE, if_pos ⟨Nat.cast_nonneg _, below⟩, Int.floor_natCast, Int.toNat_natCast]
  have nonneg : ¬ (index : ℚ) < 0 := not_lt.mpr (Nat.cast_nonneg _)
  simp [EthLog.hashedBytes, hash, carries.position, stripped, decoded, length, written, nonneg,
    positionBytes]

/-- The strings and the amount that an ABI payload encodes are decoded from the log that carries
it, wherever the strings lie in it. What is decoded from the hexadecimal data of any log is what
the offsets and lengths in the data designate. -/
theorem abi_round_trip (sha256 : List UInt8 → BytesN 32) (chainId : Number) :
    (∀ (log : EthLog) (transaction : BytesN 32) (index : ℕ) (payload : List UInt8)
      (target asset : String) (amount targetOffset assetOffset : ℕ),
      log.Carries transaction index payload → index < 2 ^ 32 →
      Places payload (utf8Bytes target) (utf8Bytes asset) amount targetOffset assetOffset →
        log.decode sha256 chainId = some {
          chainId
          txHash := replayKey sha256 (positionBytes transaction.toList index)
          target
          asset
          amount := toString amount }) ∧
    ∀ (log : EthLog) (digits : Text) (event : BridgeEvent),
      log.data = some ('0' :: 'x' :: digits) → digits.all (isDigitIn 16) = true →
      log.decode sha256 chainId = some event →
        ∃ target asset amount, Designates (hexBytes digits) target asset amount ∧
          event.target = String.ofList (utf8Text target) ∧
          event.asset = String.ofList (utf8Text asset) ∧ event.amount = toString amount := by
  have stripped (digits : Text) : after0x ('0' :: 'x' :: digits) = some digits := rfl
  refine ⟨?_, ?_⟩
  · intro log transaction index payload target asset amount targetOffset assetOffset carries fits
      places
    obtain ⟨digits, data, hex, bytes⟩ := carries.data
    have fields := (decodeData_eq_some hex).mpr
      ⟨_, _, _, bytes ▸ places.designates, rfl⟩
    simp only [EthLog.decode, carries.hashed fits, data, stripped, fields, Option.bind_eq_bind,
      Option.bind_some, utf8Text_utf8Bytes, String.ofList_toList, Option.pure_def]
    rfl
  · intro log digits event data hex decoded
    simp only [EthLog.decode, data, stripped, Option.bind_eq_bind, Option.bind_some,
      Option.bind_eq_some_iff, Option.pure_def, Option.some.injEq] at decoded
    obtain ⟨_, -, fields, read, rfl⟩ := decoded
    obtain ⟨target, asset, amount, designates, rfl⟩ := (decodeData_eq_some hex).mp read
    exact ⟨target, asset, amount, designates, rfl, rfl, rfl⟩

namespace Rehearsal

/-- The payload of a deposit of 123456789. -/
def encodedPayload : List UInt8 :=
  abiEncode (utf8Bytes "GDESTINATION") (utf8Bytes "CASSET") 123456789

def encodedLog : EthLog := { logAt ['0', 'x', '0'] with
  data := some ('0' :: 'x' :: hexText encodedPayload) }

theorem encodedLog_carries : encodedLog.Carries logTransaction 0 encodedPayload where
  hash := ⟨hexText logTransaction.toList, rfl, hexText_digits _,
    by rw [hexText_length, BytesN.length_toList], hexBytes_hexText _⟩
  position := by
    have parsed : parseHex ['0', 'x', '0'] = some ((0 : ℕ) : ℤ) := by decide
    exact (logAt_at parsed).position
  data := ⟨hexText encodedPayload, rfl, hexText_digits _, hexBytes_hexText _⟩

end Rehearsal

open Rehearsal in
theorem abi_round_trip_rehearsed :
    encodedLog.decode digesting.sha256 (.integer 1) = some {
      chainId := .integer 1
      txHash := replayKey digesting.sha256 (positionBytes logTransaction.toList 0)
      target := "GDESTINATION"
      asset := "CASSET"
      amount := "123456789" } := by
  have places : Places encodedPayload (utf8Bytes "GDESTINATION") (utf8Bytes "CASSET") 123456789 96
      (96 + (paddedTail (utf8Bytes "GDESTINATION")).length) :=
    abiEncode_places (by norm_num) (by decide +kernel) (by decide +kernel)
  exact (abi_round_trip digesting.sha256 (.integer 1)).1 encodedLog logTransaction 0 encodedPayload
    "GDESTINATION" "CASSET" 123456789 _ _ encodedLog_carries (by norm_num) places

end OnboardingBridge.Relayer
