import OnboardingBridge.Relayer.Events

/-!
# The relayer and the contract sign and check the same hash

For every event that passes the check, the hash the relayer signs is the hash
the contract works out for the call the SDK submits (`payload_agreement`).
-/

set_option autoImplicit false

namespace OnboardingBridge.Relayer

open Foundations Foundations.Tx Contract

/-! ## Accepted events -/

/-- What the check of an event establishes. -/
structure Accepted (sdk : StellarSdk) (event : BridgeEvent) : Prop where
  chainId : ∃ value : Nat, event.chainId = .integer value ∧ value < 2 ^ 32
  txHash : event.txHash.toList.length = 64 ∧ event.txHash.toList.all (isDigitIn 16) = true
  amount : ∃ value : Nat, bigInt event.amount = some (value : Int) ∧ 0 < value ∧ value < 2 ^ 127
  target : sdk.isValidEd25519PublicKey event.target = true ∨ sdk.isValidContract event.target = true
  asset : sdk.isValidContract event.asset = true

theorem accepted_of_validate {sdk : StellarSdk} {event : BridgeEvent}
    (valid : validateBridgeEvent sdk event = .ok ()) : Accepted sdk event := by
  simp only [validateBridgeEvent, bind, Except.bind, pure, Except.pure, throw, throwThe,
    MonadExceptOf.throw] at valid
  split at valid
  · cases valid
  next u32 =>
  split at valid
  · cases valid
  next hash =>
  split at valid
  · next amount parsed =>
    split at valid
    · cases valid
    next within =>
    split at valid
    · cases valid
    next target =>
    split at valid
    · cases valid
    next asset =>
    obtain ⟨-, bounds⟩ := not_or.mp within
    obtain ⟨positive, fits⟩ := not_or.mp bounds
    have natural : (amount.toNat : Int) = amount := Int.toNat_of_nonneg (by omega)
    refine ⟨?_, not_not.mp hash, ⟨amount.toNat, natural ▸ parsed, by omega, by omega⟩, ?_, ?_⟩
    · cases chain : event.chainId with
      | integer value =>
        simp only [chain, Number.isU32, Bool.not_eq_false, Bool.and_eq_true,
          decide_eq_true_eq] at u32
        exact ⟨value.toNat, by rw [Int.toNat_of_nonneg u32.1], by omega⟩
      | other => simp [chain, Number.isU32] at u32
    · simpa [or_iff_not_and_not] using target
    · exact Bool.eq_true_of_not_eq_false asset
  · cases valid

/-! ## Encodings -/

theorem hexBytes_length {text : List Char} (digits : text.all (isDigitIn 16) = true) :
    (hexBytes text).length = text.length / 2 := by
  induction text using hexBytes.induct with
  | case1 high low rest both ih =>
    simp only [List.all_cons, Bool.and_eq_true] at digits
    rw [hexBytes, if_pos both, List.length_cons, ih digits.2.2]
    simp only [List.length_cons]
    omega
  | case2 high low rest broken =>
    simp only [List.all_cons, Bool.and_eq_true] at digits
    exact absurd (by simp [digits.1, digits.2.1]) broken
  | case3 text short =>
    rw [hexBytes]
    · cases text with
      | nil => rfl
      | cons c rest =>
        cases rest with
        | nil => simp
        | cons d rest => exact absurd rfl (short c d rest)
    · exact short

/-- A string of digits contains no `0x`. -/
theorem dropPrefix0x_digits {text : List Char} (digits : text.all (isDigitIn 16) = true) :
    dropPrefix0x text = text := by
  induction text using dropPrefix0x.induct with
  | case1 rest =>
    exact absurd digits (by simp [isDigitIn, digitValue])
  | case2 c rest other ih =>
    simp only [List.all_cons, Bool.and_eq_true] at digits
    rw [dropPrefix0x, ih digits.2]
    exact other
  | case3 => rfl

theorem toBytesN_toList {n : Nat} {bytes : List UInt8} (length : bytes.length = n) :
    ∃ value, toBytesN n bytes = some value ∧ value.toList = bytes := by
  subst length
  refine ⟨_, if_pos rfl, ?_⟩
  have width : 2 ^ (8 * bytes.length) = 256 ^ bytes.length := by rw [Nat.pow_mul]
  rw [BytesN.toList, BitVec.toNat_ofNat, width, bigEndian_mod, bigEndian_ofBigEndian]

/-- The two halves of a positive amount are its sixteen bytes. -/
theorem amount_halves {amount : I128} {value : Nat} (same : amount.val = value)
    (fits : value < 2 ^ 127) : ∃ high low,
      writeBigUInt64BE ((value : Int) / 0x10000000000000000) = some high ∧
      writeBigUInt64BE ((value : Int) % 0x10000000000000000) = some low ∧
      high ++ low = amount.toBeBytes := by
  have natural : ((value : Int) % 256 ^ 16).toNat = value := by omega
  have high : ((value : Int) / 0x10000000000000000).toNat = value / 256 ^ 8 := by omega
  have low : ((value : Int) % 0x10000000000000000).toNat = value % 256 ^ 8 := by omega
  refine ⟨_, _, if_pos (by omega), if_pos (by omega), ?_⟩
  rw [I128.toBeBytes, signedBigEndian, same, natural, high, low, bigEndian_mod]
  exact (bigEndian_add 8 8 value).symm

/-! ## Agreement -/

/-- The SDK makes the address of a valid key, and the host writes that key for
the address. -/
def StellarSdk.ReadsKeys (sdk : StellarSdk) (host : Host) : Prop :=
  ∀ text, sdk.isValidEd25519PublicKey text = true ∨ sdk.isValidContract text = true →
    ∃ address, sdk.address text = some address ∧ host.strkey address = utf8Bytes text

/-- For every accepted event the SDK submits a call, the relayer signs the hash
the contract works out for that call, and signatures that attest the signed hash
pass the check of the contract. -/
theorem payload_agreement {sdk : StellarSdk} {host : Host} {event : BridgeEvent}
    (reads : sdk.ReadsKeys host) (valid : validateBridgeEvent sdk event = .ok ()) :
    ∃ call payloadHash, crosschainCall sdk event = some call ∧
      computePayloadHash host.sha256 event = some payloadHash ∧
      payloadHash = call.payloadHash host ∧
      ∀ (env : Env) (w : World) (sigs : List RelayerSig), env.host = host →
        Attested host w payloadHash sigs →
        (verifyRelayerSigs env (call.payloadHash host) [] sigs).run w
          = .ok (sigs.map RelayerSig.pubkey, w) := by
  obtain ⟨⟨chainId, integer, u32⟩, ⟨length, digits⟩, ⟨value, parsed, positive, fits⟩, target,
    asset⟩ := accepted_of_validate valid
  obtain ⟨targetAddress, readTarget, targetKey⟩ := reads event.target target
  obtain ⟨assetAddress, readAsset, assetKey⟩ := reads event.asset (.inr asset)
  obtain ⟨txHash, hashBytes, hashList⟩ := toBytesN_toList
    (by rw [hexBytes_length digits, length] : (hexBytes event.txHash.toList).length = 32)
  obtain ⟨amount, amountValue⟩ := I128.exists_natural fits
  obtain ⟨high, low, writesHigh, writesLow, halves⟩ := amount_halves amountValue fits
  have chainBytes : bigEndian 4 chainId = u32ToBeBytes (UInt32.ofNat chainId) := by
    rw [u32ToBeBytes, UInt32.toNat_ofNat_of_lt' u32]
  have writesChain : writeUInt32BE event.chainId = some (u32ToBeBytes (UInt32.ofNat chainId)) := by
    rw [integer, writeUInt32BE, if_pos (by omega), Int.toNat_natCast, chainBytes]
  have nonce : computeNonce host.sha256 event.chainId event.txHash =
      some (host.crosschainNonce (UInt32.ofNat chainId) txHash) := by
    rw [computeNonce, writesChain, ← hashList]
    rfl
  refine ⟨⟨UInt32.ofNat chainId, txHash, targetAddress, assetAddress, amount⟩, _, ?_, ?_, rfl, ?_⟩
  · have chain : toU32 event.chainId = some (UInt32.ofNat chainId) := by
      rw [integer, toU32, if_pos (by omega), Int.toNat_natCast]
    have within : I128.ofInt? (value : Int) = some amount :=
      BoundedInt.ofInt?_eq_some.mpr amountValue
    simp only [crosschainCall, dropPrefix0x_digits digits, hashBytes, chain, readTarget, readAsset,
      parsed, within, Option.bind_eq_bind, Option.bind_some, Option.pure_def]
  · simp only [computePayloadHash, writesChain, parsed, writesHigh, writesLow, nonce, halves,
      Option.bind_eq_bind, Option.bind_some, Option.pure_def, ← hashList]
    simp only [Attestation.payloadHash, Host.crosschainPayloadHash, Host.crosschainPayload,
      Host.addressHash, targetKey, assetKey, encodeAddress]
  · rintro env w sigs rfl attested
    exact verifyRelayerSigs_ok.mpr ⟨⟨attested, by simp, rfl⟩, rfl⟩

namespace Rehearsal

/-- The keys of the contracts with the identifiers zero and one. -/
def keyOf (id : Nat) : String :=
  if id = 0 then "CAAAAAAAAAAAAAAAAAAAAAAAAAAAAAAAAAAAAAAAAAAAAAAAAAAABSC4"
  else "CAAAAAAAAAAAAAAAAAAAAAAAAAAAAAAAAAAAAAAAAAAAAAAAAAAAD2KM"

/-- An SDK that knows two keys. -/
def sdk : StellarSdk where
  isValidEd25519PublicKey _ := false
  isValidContract text := text = keyOf 0 || text = keyOf 1
  address text := if text = keyOf 0 then some (.contract 0) else some (.contract 1)

/-- A host that writes these keys. -/
def keyedHost : Host :=
  { Contract.Rehearsal.host with
    strkey := fun address => utf8Bytes (if address = .contract 0 then keyOf 0 else keyOf 1) }

theorem sdk_reads : sdk.ReadsKeys keyedHost := by
  rintro text (account | valid)
  · simp [sdk] at account
  · have known : text = keyOf 0 ∨ text = keyOf 1 := by simpa [sdk] using valid
    rcases known with rfl | rfl
    · exact ⟨.contract 0, rfl, rfl⟩
    · exact ⟨.contract 1, rfl, rfl⟩

/-- An event with capital letters in its hash and a leading zero in its amount. -/
def event : BridgeEvent where
  chainId := .integer 1
  txHash := "aBaBaBaBaBaBaBaBaBaBaBaBaBaBaBaBaBaBaBaBaBaBaBaBaBaBaBaBaBaBaBaB"
  target := keyOf 0
  asset := keyOf 1
  amount := "01000"

end Rehearsal

theorem payload_agreement_rehearsed : ∃ call payloadHash,
    crosschainCall Rehearsal.sdk Rehearsal.event = some call ∧
      computePayloadHash Rehearsal.keyedHost.sha256 Rehearsal.event = some payloadHash ∧
      payloadHash = call.payloadHash Rehearsal.keyedHost := by
  have valid : validateBridgeEvent Rehearsal.sdk Rehearsal.event = .ok () := by decide +kernel
  obtain ⟨call, payloadHash, submits, signs, same, -⟩ :=
    payload_agreement Rehearsal.sdk_reads valid
  exact ⟨call, payloadHash, submits, signs, same⟩

end OnboardingBridge.Relayer
