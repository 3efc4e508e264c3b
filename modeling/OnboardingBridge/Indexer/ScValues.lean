import Mathlib.Tactic.IntervalCases
import OnboardingBridge.Indexer.FundingLabels

/-!
# Decoding Soroban values

A value is encoded as its kind and its body. The decoder reads back what was encoded, but for the
account addresses: it takes the kind of an account's public key for the first four bytes of the key,
and leaves the last four out (`scval_decoding`).
-/

set_option autoImplicit false

namespace OnboardingBridge.Indexer

open Foundations Contract Relayer

/-! ## Values -/

/-- The values whose kinds the decoder knows. -/
inductive ScValue where
  | bool (value : Bool)
  | void
  | u32 (value : UInt32)
  | i32 (value : Int32)
  | u64 (value : UInt64)
  | i64 (value : Int64)
  | timepoint (value : UInt64)
  | duration (value : UInt64)
  | bytes (value : { bytes : List UInt8 // bytes.length < 256 ^ 4 })
  | string (value : { text : String // (utf8Bytes text).length < 256 ^ 4 })
  | symbol (value : { text : String // (utf8Bytes text).length < 256 ^ 4 })
  | address (value : Address)

namespace ScValue

def kind : ScValue → ℕ
  | bool _ => 0
  | void => 1
  | u32 _ => 3
  | i32 _ => 4
  | u64 _ => 5
  | i64 _ => 6
  | timepoint _ => 7
  | duration _ => 8
  | bytes _ => 13
  | string _ => 14
  | symbol _ => 15
  | address _ => 18

/-- What follows the kind. -/
def body : ScValue → List UInt8
  | bool value => bigEndian 4 value.toNat
  | void => []
  | u32 value => bigEndian 4 value.toNat
  | i32 value => bigEndian 4 value.toUInt32.toNat
  | u64 value | timepoint value | duration value => bigEndian 8 value.toNat
  | i64 value => bigEndian 8 value.toUInt64.toNat
  | bytes value => opaqueXdr value.1
  | string value | symbol value => opaqueXdr (utf8Bytes value.1)
  | address value => addressXdr value

def xdr (value : ScValue) : List UInt8 := bigEndian 4 value.kind ++ value.body

end ScValue

/-- The kind of an address and its whole identifier. -/
def identifierText : Address → String
  | .account publicKey => "scaddress:0:" ++ String.ofList (hexText publicKey.toList)
  | .contract contractId => "scaddress:1:" ++ String.ofList (hexText contractId.toList)

/-- The form that the decoder gives to a value. -/
def ScValue.json : ScValue → Json
  | bool value => .bool value
  | void => .null
  | u32 value => .number value.toNat
  | i32 value => .number value.toInt
  | u64 value | timepoint value | duration value => .number value.toNat
  | i64 value => .number value.toInt
  | bytes value => .string ("0x" ++ String.ofList (hexText value.1))
  | string value | symbol value => .string value.1
  | address value => .string (identifierText value)

theorem ScValue.kind_lt (value : ScValue) : value.kind < 256 ^ 4 := by
  cases value <;> simp [ScValue.kind]

/-! ## Reading back -/

theorem readU64_append (before rest : List UInt8) {value : ℕ} (bound : value < 256 ^ 8) :
    readU64 (before ++ (bigEndian 8 value ++ rest)) before.length =
      .ok (value, before.length + 8) := by
  have found := getRange_append before (bigEndian 8 value) rest
  rw [length_bigEndian] at found
  rw [readU64, found]
  simp only [ofBigEndian_bigEndian bound]

/-- A body that is a word of four bytes. -/
theorem readU32_body (kind : ℕ) {value : ℕ} (bound : value < 256 ^ 4) :
    readU32 (bigEndian 4 kind ++ bigEndian 4 value) 4 = .ok (value, 8) := by
  have read := readU32_append (bigEndian 4 kind) [] bound
  rwa [List.append_nil, length_bigEndian] at read

/-- A body that is a word of eight bytes. -/
theorem readU64_body (kind : ℕ) {value : ℕ} (bound : value < 256 ^ 8) :
    readU64 (bigEndian 4 kind ++ bigEndian 8 value) 4 = .ok (value, 12) := by
  have read := readU64_append (bigEndian 4 kind) [] bound
  rwa [List.append_nil, length_bigEndian] at read

theorem asSigned_32 (value : Int32) : asSigned 32 value.toUInt32.toNat = value.toInt := by
  change asSigned 32 value.toBitVec.toNat = value.toBitVec.toInt
  have bound := value.toBitVec.isLt
  rw [BitVec.toInt_eq_toNat_cond, asSigned]
  split <;> split <;> omega

theorem asSigned_64 (value : Int64) : asSigned 64 value.toUInt64.toNat = value.toInt := by
  change asSigned 64 value.toBitVec.toNat = value.toBitVec.toInt
  have bound := value.toBitVec.isLt
  rw [BitVec.toInt_eq_toNat_cond, asSigned]
  split <;> split <;> omega

/-- What the decoder does after the kind. -/
def decodeBody (bytes : List UInt8) (kind cursor : ℕ) : Except String Json := do
  match kind with
  | 0 => return .bool ((← readU32 bytes cursor).1 ≠ 0)
  | 1 => return .null
  | 3 => return .number (← readU32 bytes cursor).1
  | 4 => return .number (asSigned 32 (← readU32 bytes cursor).1)
  | 5 | 7 | 8 => return .number (← readU64 bytes cursor).1
  | 6 => return .number (asSigned 64 (← readU64 bytes cursor).1)
  | 13 => return .string ("0x" ++ String.ofList (hexText (← readOpaque bytes cursor).1))
  | 14 | 15 =>
      match String.fromUTF8? ⟨(← readOpaque bytes cursor).1.toArray⟩ with
      | some text => return .string text
      | none => throw "invalid ScVal text"
  | 18 =>
      let (addressKind, cursor) ← readU32 bytes cursor
      let (address, _) ← readBytes bytes cursor 32
      return .string ("scaddress:" ++ toString addressKind ++ ":" ++ String.ofList (hexText address))
  | _ => throw "unsupported ScVal type"

theorem decodeScval_eq (bytes : List UInt8) : decodeScval bytes =
    if bytes.length < 4 then throw "missing ScVal type"
    else readU32 bytes 0 >>= fun read => decodeBody bytes read.1 read.2 := rfl

theorem decodeScval_kind {kind : ℕ} (bound : kind < 256 ^ 4) (body : List UInt8) :
    decodeScval (bigEndian 4 kind ++ body) = decodeBody (bigEndian 4 kind ++ body) kind 4 := by
  rw [decodeScval_eq, if_neg (by simp [length_bigEndian]), readU32_first bound]
  rfl

/-- Every value but an account address is read back. -/
theorem decodeScval_xdr {value : ScValue} (noAccount : ∀ key, value ≠ .address (.account key)) :
    decodeScval value.xdr = .ok value.json := by
  rw [ScValue.xdr, decodeScval_kind value.kind_lt]
  cases value with
  | bool value =>
    have bound : value.toNat < 256 ^ 4 := by cases value <;> decide
    rw [ScValue.kind, ScValue.body, decodeBody, readU32_body 0 bound]
    cases value <;> rfl
  | void => rfl
  | u32 value =>
    rw [ScValue.kind, ScValue.body, decodeBody, readU32_body 3 value.toNat_lt]
    rfl
  | i32 value =>
    rw [ScValue.kind, ScValue.body, decodeBody, readU32_body 4 value.toUInt32.toNat_lt, ScValue.json,
      ← asSigned_32]
    rfl
  | u64 value =>
    rw [ScValue.kind, ScValue.body, decodeBody, readU64_body 5 value.toNat_lt]
    rfl
  | i64 value =>
    rw [ScValue.kind, ScValue.body, decodeBody, readU64_body 6 value.toUInt64.toNat_lt, ScValue.json,
      ← asSigned_64]
    rfl
  | timepoint value =>
    rw [ScValue.kind, ScValue.body, decodeBody, readU64_body 7 value.toNat_lt]
    rfl
  | duration value =>
    rw [ScValue.kind, ScValue.body, decodeBody, readU64_body 8 value.toNat_lt]
    rfl
  | bytes value =>
    obtain ⟨last, opened⟩ := readOpaque_append (bigEndian 4 13) value.1 [] value.2
    rw [List.append_nil, length_bigEndian] at opened
    rw [ScValue.kind, ScValue.body, decodeBody, opened]
    rfl
  | string value =>
    rw [← decodeScval_kind (ScValue.kind_lt _)]
    exact decodeScval_text (.inl rfl) value.2
  | symbol value =>
    rw [← decodeScval_kind (ScValue.kind_lt _)]
    exact decodeScval_text (.inr rfl) value.2
  | address value =>
    rw [← decodeScval_kind (ScValue.kind_lt _)]
    cases value with
    | account key => exact absurd rfl (noAccount key)
    | contract id => exact decodeScval_address 18 (.contract id)

/-! ## Account addresses -/

/-- Of an account, the first 28 bytes of its key are read, behind four zeros. -/
theorem decodeScval_account (key : BytesN 32) : decodeScval (ScValue.address (.account key)).xdr =
    .ok (.string ("scaddress:0:" ++ String.ofList (hexText (bigEndian 4 0 ++ key.toList.take 28)))) := by
  have read := decodeScval_address 18 (.account key)
  rwa [addressText, List.take_append, length_bigEndian, List.take_of_length_le (by simp)] at read

theorem scaddress_inj {label label' : String} {bytes bytes' : List UInt8} (labels : label = label')
    (same : label ++ String.ofList (hexText bytes) = label' ++ String.ofList (hexText bytes')) :
    bytes = bytes' := by
  subst labels
  have texts := congrArg String.toList same
  rw [String.toList_append, String.toList_append, String.toList_ofList, String.toList_ofList] at texts
  rw [← hexBytes_hexText bytes, List.append_cancel_left texts, hexBytes_hexText]

/-- Bytes that are the same when they are moved by four zeros are zeros. -/
theorem shifted_zeros {bytes : List UInt8} (width : bytes.length = 32)
    (shifted : bigEndian 4 0 ++ bytes.take 28 = bytes) : bytes = List.replicate 32 0 := by
  have zero : ∀ i, i < 32 → bytes[i]? = some 0 := by
    intro i
    induction i using Nat.strong_induction_on with
    | _ i ih =>
      intro inside
      by_cases first : i < 4
      · rw [← shifted, List.getElem?_append_left (by simpa [length_bigEndian] using first)]
        interval_cases i <;> rfl
      · have before := ih (i - 4) (by omega) (by omega)
        rw [← shifted, List.getElem?_append_right (by simpa [length_bigEndian] using first),
          length_bigEndian, List.getElem?_take_of_lt (by omega), before]
  refine List.ext_getElem? fun i => ?_
  by_cases inside : i < 32
  · rw [zero i inside, List.getElem?_replicate, if_pos inside]
  · rw [List.getElem?_eq_none (by omega), List.getElem?_eq_none (by simp; omega)]

/-- An account is read back only if its key is zero. -/
theorem decodeScval_account_iff (key : BytesN 32) :
    decodeScval (ScValue.address (.account key)).xdr = .ok (ScValue.address (.account key)).json ↔
      key = 0 := by
  have zeros : (0 : BytesN 32).toList = List.replicate 32 0 := by decide
  rw [decodeScval_account]
  constructor
  · intro same
    have texts := Json.string.inj (Except.ok.inj same)
    have shifted := scaddress_inj rfl texts
    exact BytesN.toList_injective ((shifted_zeros (by simp) shifted).trans zeros.symm)
  · rintro rfl
    rw [zeros]
    rfl

/-- Two addresses are decoded to the same text if they are two accounts whose keys have the same
first 28 bytes. -/
theorem decodeScval_same_iff (a b : Address) :
    (decodeScval (ScValue.address a).xdr = decodeScval (ScValue.address b).xdr → a = b) ↔
      ∀ key key', a = .account key → b = .account key' →
        key.toList.take 28 = key'.toList.take 28 → key = key' := by
  have apart (first second : String) : "scaddress:0:" ++ first ≠ "scaddress:1:" ++ second := by
    intro same
    have tenth := congrArg (fun text : String => text.toList[10]?) same
    simp [String.toList_append] at tenth
  cases a with
  | account key =>
    cases b with
    | account key' =>
      rw [decodeScval_account, decodeScval_account]
      constructor
      · rintro distinct _ _ ⟨⟩ ⟨⟩ same
        exact Address.account.inj (distinct (by rw [same]))
      · intro distinct same
        have read := scaddress_inj rfl (Json.string.inj (Except.ok.inj same))
        rw [distinct key key' rfl rfl (List.append_cancel_left read)]
    | contract id =>
      refine iff_of_true (fun same => ?_) (by rintro _ _ - ⟨⟩)
      rw [decodeScval_account, decodeScval_xdr (by rintro _ ⟨⟩)] at same
      exact absurd (Json.string.inj (Except.ok.inj same)) (apart _ _)
  | contract id =>
    cases b with
    | account key =>
      refine iff_of_true (fun same => ?_) (by rintro _ _ ⟨⟩)
      rw [decodeScval_account, decodeScval_xdr (by rintro _ ⟨⟩)] at same
      exact absurd (Json.string.inj (Except.ok.inj same)).symm (apart _ _)
    | contract id' =>
      refine iff_of_true (fun same => ?_) (by rintro _ _ ⟨⟩)
      rw [decodeScval_xdr (by rintro _ ⟨⟩), decodeScval_xdr (by rintro _ ⟨⟩)] at same
      have read := scaddress_inj rfl (Json.string.inj (Except.ok.inj same))
      rw [BytesN.toList_injective read]

/-! ## Reading any bytes -/

/-- The errors of the decoder. -/
def scvalErrors : List String :=
  ["missing ScVal type", "truncated u32", "truncated u64", "truncated bytes", "invalid ScVal text",
    "unsupported ScVal type"]

/-- What is read is there: it is read alike whatever follows. What is not there is an error. -/
structure Reads {α : Type} (read : List UInt8 → Except String α) : Prop where
  within : ∀ bytes value, read bytes = .ok value → ∀ rest, read (bytes ++ rest) = .ok value
  failing : ∀ bytes reason, read bytes = .error reason → reason ∈ scvalErrors

namespace Reads

variable {α β : Type}

theorem pure (value : α) : Reads fun _ => (.ok value : Except String α) where
  within _ _ same _ := same
  failing _ _ none := by cases none

theorem throw {reason : String} (known : reason ∈ scvalErrors) :
    Reads fun _ => (.error reason : Except String α) where
  within _ _ none := by cases none
  failing _ _ same := by
    obtain rfl := Except.error.inj same
    exact known

theorem bind {first : List UInt8 → Except String α} {next : α → List UInt8 → Except String β}
    (reads : Reads first) (later : ∀ value, Reads (next value)) :
    Reads fun bytes => first bytes >>= fun value => next value bytes where
  within bytes value ran rest := by
    cases began : first bytes with
    | error reason =>
      rw [began] at ran
      cases ran
    | ok read =>
      rw [began] at ran
      rw [reads.within bytes read began rest]
      exact (later read).within bytes value ran rest
  failing bytes reason failed := by
    cases began : first bytes with
    | error reason' =>
      rw [began] at failed
      exact Except.error.inj failed ▸ reads.failing bytes reason' began
    | ok read =>
      rw [began] at failed
      exact (later read).failing bytes reason failed

end Reads

theorem getRange_within {bytes part : List UInt8} {cursor last : ℕ}
    (found : getRange bytes cursor last = some part) (rest : List UInt8) :
    getRange (bytes ++ rest) cursor last = some part := by
  unfold getRange at found ⊢
  split at found
  · next inside =>
    rw [if_pos (inside.trans (by simp)), List.take_append_of_le_length inside]
    exact found
  · cases found

/-- A read of a range that is an error when it is not there. -/
theorem getRange_reads {α : Type} {cursor last : ℕ} {reason : String}
    (known : reason ∈ scvalErrors) (value : List UInt8 → α) :
    Reads fun bytes => match getRange bytes cursor last with
      | some part => .ok (value part)
      | none => .error reason where
  within bytes read ran rest := by
    cases found : getRange bytes cursor last with
    | none => simp [found] at ran
    | some part =>
      simp only [found] at ran
      simp only [getRange_within found rest]
      exact ran
  failing bytes reason' failed := by
    cases found : getRange bytes cursor last with
    | none =>
      simp only [found] at failed
      exact Except.error.inj failed ▸ known
    | some part => simp [found] at failed

theorem readU32_reads (cursor : ℕ) : Reads fun bytes => readU32 bytes cursor :=
  getRange_reads (by decide) fun part => (ofBigEndian part, cursor + 4)

theorem readU64_reads (cursor : ℕ) : Reads fun bytes => readU64 bytes cursor :=
  getRange_reads (by decide) fun part => (ofBigEndian part, cursor + 8)

theorem readBytes_reads (cursor length : ℕ) : Reads fun bytes => readBytes bytes cursor length :=
  getRange_reads (by decide) fun part => (part, cursor + length)

theorem readOpaque_reads (cursor : ℕ) : Reads fun bytes => readOpaque bytes cursor := by
  refine .bind (readU32_reads cursor) fun counted => ?_
  refine .bind (readBytes_reads counted.2 counted.1) fun opened => ?_
  exact .bind (readBytes_reads _ _) fun _ => .pure _

theorem readText_reads (cursor : ℕ) : Reads fun bytes => (do
    match String.fromUTF8? ⟨(← readOpaque bytes cursor).1.toArray⟩ with
    | some text => return Json.string text
    | none => throw "invalid ScVal text" : Except String Json) := by
  refine .bind (readOpaque_reads cursor) fun opened => ?_
  cases String.fromUTF8? ⟨opened.1.toArray⟩ with
  | none => exact .throw (by decide)
  | some text => exact .pure _

theorem decodeBody_reads (kind cursor : ℕ) : Reads fun bytes => decodeBody bytes kind cursor := by
  unfold decodeBody
  split
  · exact .bind (readU32_reads cursor) fun _ => .pure _
  · exact .pure _
  · exact .bind (readU32_reads cursor) fun _ => .pure _
  · exact .bind (readU32_reads cursor) fun _ => .pure _
  · exact .bind (readU64_reads cursor) fun _ => .pure _
  · exact .bind (readU64_reads cursor) fun _ => .pure _
  · exact .bind (readU64_reads cursor) fun _ => .pure _
  · exact .bind (readU64_reads cursor) fun _ => .pure _
  · exact .bind (readOpaque_reads cursor) fun _ => .pure _
  · exact readText_reads cursor
  · exact readText_reads cursor
  · refine .bind (readU32_reads cursor) fun kind => ?_
    exact .bind (readBytes_reads _ _) fun _ => .pure _
  · exact .throw (by decide)

theorem decodeScval_reads : Reads decodeScval := by
  have opened : Reads fun bytes =>
      readU32 bytes 0 >>= fun read => decodeBody bytes read.1 read.2 :=
    .bind (readU32_reads 0) fun read => decodeBody_reads read.1 read.2
  refine ⟨fun bytes value ran rest => ?_, fun bytes reason failed => ?_⟩
  · rw [decodeScval_eq] at ran ⊢
    split at ran
    · cases ran
    · next long =>
      rw [if_neg (by simp only [List.length_append]; omega)]
      exact opened.within bytes value ran rest
  · rw [decodeScval_eq] at failed
    split at failed
    · obtain rfl := Except.error.inj failed
      decide
    · exact opened.failing bytes reason failed

/-! ## What the decoder promises -/

/-- A value is decoded from its encoding unless it is an account with a key other than zero, and
two addresses are told apart unless they are accounts whose keys differ only after the first 28
bytes. Any bytes are decoded within their bounds, or fail with a known error. -/
theorem scval_decoding (value : ScValue) (a b : Address) (bytes : List UInt8) :
    (decodeScval value.xdr = .ok value.json ↔
      ∀ key, value = .address (.account key) → key = 0) ∧
    ((decodeScval (ScValue.address a).xdr = decodeScval (ScValue.address b).xdr → a = b) ↔
      ∀ key key', a = .account key → b = .account key' →
        key.toList.take 28 = key'.toList.take 28 → key = key') ∧
    ((∃ value, decodeScval bytes = .ok value ∧
        ∀ rest, decodeScval (bytes ++ rest) = .ok value) ∨
      ∃ reason ∈ scvalErrors, decodeScval bytes = .error reason) := by
  refine ⟨?_, decodeScval_same_iff a b, ?_⟩
  · by_cases account : ∃ key, value = .address (.account key)
    · obtain ⟨key, rfl⟩ := account
      rw [decodeScval_account_iff]
      constructor
      · rintro zero _ ⟨⟩
        exact zero
      · exact fun zero => zero key rfl
    · have none : ∀ key, value ≠ .address (.account key) := fun key same => account ⟨key, same⟩
      exact iff_of_true (decodeScval_xdr none) fun key same => absurd same (none key)
  · cases decoded : decodeScval bytes with
    | ok value => exact .inl ⟨value, rfl, decodeScval_reads.within bytes value decoded⟩
    | error reason => exact .inr ⟨reason, decodeScval_reads.failing bytes reason decoded, rfl⟩

/-- The key that ends with a one is decoded like the key that is zero. -/
theorem account_cut_off : ∃ key key' : BytesN 32, key ≠ key' ∧
    decodeScval (ScValue.address (.account key)).xdr ≠
      .ok (ScValue.address (.account key)).json ∧
    decodeScval (ScValue.address (.account key)).xdr =
      decodeScval (ScValue.address (.account key')).xdr := by
  refine ⟨1, 0, by decide, fun read => ?_, ?_⟩
  · exact absurd ((decodeScval_account_iff 1).mp read) (by decide)
  · rw [decodeScval_account, decodeScval_account]
    rfl

end OnboardingBridge.Indexer
