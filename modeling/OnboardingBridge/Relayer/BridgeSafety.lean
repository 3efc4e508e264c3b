import OnboardingBridge.Foundations.Backing
import OnboardingBridge.Relayer.Deposits

/-!
# The contract pays out deposits

A payout is attested by the threshold of relayers. As long as fewer than that are
dishonest and the honest ones sign for some deposits only, such as the confirmed ones,
every payout is that of one of these deposits, with its target, asset and amount;
different payouts are those of different deposits, and in every asset no more is paid out
than these deposits hold (`payouts_backed`). Nothing else uses a deposit's nonce up: it is
used exactly when that deposit has been paid out (`nonce_used_iff_paid`).
-/

set_option autoImplicit false

namespace OnboardingBridge.Relayer

open Foundations Foundations.Tx Contract

/-! ## What a signed hash tells -/

/-- What is attested is what an event says. -/
structure Tells (host : Host) (attestation : Attestation) (event : BridgeEvent) : Prop where
  chainId : event.chainId = .integer attestation.chainId.toNat
  txHash : hexBytes event.txHash.toList = attestation.txHash.toList
  target : host.strkey attestation.target = utf8Bytes event.target
  asset : host.strkey attestation.asset = utf8Bytes event.asset
  amount : bigInt event.amount = some attestation.amount.val

/-- The bytes that the signed hash of an event is worked out from. -/
def payload (sha256 : List UInt8 → BytesN 32) (event : BridgeEvent) : Option (List UInt8) := do
  let chainIdBuf ← writeUInt32BE event.chainId
  let amountBig ← bigInt event.amount
  let high ← writeBigUInt64BE (amountBig / 0x10000000000000000)
  let low ← writeBigUInt64BE (amountBig % 0x10000000000000000)
  let nonce ← computeNonce sha256 event.chainId event.txHash
  return chainIdBuf ++ hexBytes event.txHash.toList ++ (encodeAddress sha256 event.target).toList ++
    (encodeAddress sha256 event.asset).toList ++ (high ++ low) ++ nonce.toList

theorem computePayloadHash_eq (sha256 : List UInt8 → BytesN 32) (event : BridgeEvent) :
    computePayloadHash sha256 event = (payload sha256 event).map sha256 := by
  simp only [computePayloadHash, payload, Option.bind_eq_bind, Option.pure_def, Option.map_bind,
    Function.comp_def, Option.map_some]

/-- The bytes that the replay nonce of an event is the hash of. -/
def noncePreimage (event : BridgeEvent) : Option (List UInt8) :=
  (writeUInt32BE event.chainId).map fun chainIdBuf => chainIdBuf ++ hexBytes event.txHash.toList

/-- The byte strings that are hashed for a deposit. -/
def Deposit.hashed (sha256 : List UInt8 → BytesN 32) (deposit : Deposit) : Set (List UInt8) :=
  {bytes | bytes = deposit.position.bytes ∨ bytes = utf8Bytes deposit.event.target ∨
    bytes = utf8Bytes deposit.event.asset ∨ noncePreimage deposit.event = some bytes ∨
    payload sha256 deposit.event = some bytes}

/-- The byte strings that are hashed for a payout. -/
def payoutHashed (host : Host) (attestation : Attestation) : Set (List UInt8) :=
  insert (Host.crosschainNoncePreimage attestation.chainId attestation.txHash)
    (attestation.hashed host)

/-- The payload of an event is laid out as that of an attestation. -/
theorem payload_eq_some {sha256 : List UInt8 → BytesN 32} {event : BridgeEvent}
    {bytes : List UInt8} (laid : payload sha256 event = some bytes) :
    ∃ (chainId value : ℕ) (nonce : BytesN 32), event.chainId = .integer chainId ∧
      chainId < 2 ^ 32 ∧ bigInt event.amount = some (value : ℤ) ∧ value < 2 ^ 128 ∧
      bytes = bigEndian 4 chainId ++ hexBytes event.txHash.toList ++
        (encodeAddress sha256 event.target).toList ++ (encodeAddress sha256 event.asset).toList ++
        bigEndian 16 value ++ nonce.toList := by
  simp only [payload, Option.bind_eq_bind, Option.bind_eq_some_iff, Option.pure_def,
    Option.some.injEq] at laid
  obtain ⟨chain, writesChain, amount, parsed, high, writesHigh, low, writesLow, nonce, -, rfl⟩ := laid
  obtain ⟨chainId, integer, fits, rfl⟩ : ∃ chainId : ℕ, event.chainId = .integer chainId ∧
      chainId < 2 ^ 32 ∧ chain = bigEndian 4 chainId := by
    cases number : event.chainId with
    | other => simp [number, writeUInt32BE] at writesChain
    | integer value =>
      rw [number, writeUInt32BE] at writesChain
      split at writesChain
      · next within =>
        refine ⟨value.toNat, by rw [Int.toNat_of_nonneg within.1], by omega, ?_⟩
        exact (Option.some.inj writesChain).symm
      · cases writesChain
  obtain ⟨withinHigh, rfl⟩ : (0 ≤ amount / 0x10000000000000000 ∧
      amount / 0x10000000000000000 ≤ 0xffffffffffffffff) ∧
      high = bigEndian 8 (amount / 0x10000000000000000).toNat := by
    unfold writeBigUInt64BE at writesHigh
    split at writesHigh
    · next within => exact ⟨within, (Option.some.inj writesHigh).symm⟩
    · cases writesHigh
  obtain rfl : low = bigEndian 8 (amount % 0x10000000000000000).toNat := by
    unfold writeBigUInt64BE at writesLow
    split at writesLow
    · exact (Option.some.inj writesLow).symm
    · cases writesLow
  obtain ⟨value, rfl⟩ : ∃ value : ℕ, amount = value := ⟨amount.toNat, by omega⟩
  refine ⟨chainId, value, nonce, integer, fits, parsed, by omega, ?_⟩
  have high : ((value : ℤ) / 0x10000000000000000).toNat = value / 256 ^ 8 := by omega
  have low : ((value : ℤ) % 0x10000000000000000).toNat = value % 256 ^ 8 := by omega
  rw [high, low, bigEndian_mod, ← bigEndian_add 8 8 value]

/-- When the hash of the event of a deposit is attested, what is attested is what the event says. -/
theorem tells_of_hash {sdk : StellarSdk} {host : Host} {hashed : Set (List UInt8)}
    {attestation : Attestation} {deposit : Deposit} (unique : Set.InjOn host.sha256 hashed)
    (attested : payoutHashed host attestation ⊆ hashed)
    (said : deposit.hashed host.sha256 ⊆ hashed)
    (valid : validateBridgeEvent sdk deposit.event = .ok ())
    (signed : computePayloadHash host.sha256 deposit.event =
      some (attestation.payloadHash host)) :
    Tells host attestation deposit.event := by
  obtain ⟨-, ⟨length, digits⟩, ⟨value, parsed, -, fits⟩, -, -⟩ := accepted_of_validate valid
  have width : (hexBytes deposit.event.txHash.toList).length = 32 := by rw [hexBytes_length digits, length]
  rw [computePayloadHash_eq] at signed
  obtain ⟨bytes, laid, same⟩ := Option.map_eq_some_iff.mp signed
  have here : bytes ∈ hashed := said (.inr (.inr (.inr (.inr laid))))
  have there : host.crosschainPayload attestation.chainId attestation.txHash attestation.target
      attestation.asset attestation.amount ∈ hashed := attested (.inr (by simp [Attestation.hashed]))
  have equal := unique here there same
  obtain ⟨chainId, value', nonce, integer, small, parsed', -, rfl⟩ := payload_eq_some laid
  simp only [Host.crosschainPayload, List.append_assoc] at equal
  obtain ⟨chains, equal⟩ := List.append_inj equal (by simp)
  obtain ⟨hashes, equal⟩ := List.append_inj equal (by simp [width])
  obtain ⟨targets, equal⟩ := List.append_inj equal (by simp)
  obtain ⟨assets, equal⟩ := List.append_inj equal (by simp)
  obtain ⟨amounts, -⟩ := List.append_inj equal (by simp)
  have texts : ∀ {text : String} {address : Address}, utf8Bytes text ∈ hashed →
      host.strkey address ∈ hashed →
      (encodeAddress host.sha256 text).toList = (host.addressHash address).toList →
      host.strkey address = utf8Bytes text := by
    intro text address known known' same
    exact unique known' known (BytesN.toList_injective same).symm
  refine ⟨?_, hashes, ?_, ?_, ?_⟩
  · have numbers : chainId = attestation.chainId.toNat :=
      bigEndian_injOn (by simpa using small) (by simpa using attestation.chainId.toNat_lt) chains
    rw [integer, numbers]
  · exact texts (said (.inr (.inl rfl))) (attested (.inr (by simp [Attestation.hashed]))) targets
  · exact texts (said (.inr (.inr (.inl rfl)))) (attested (.inr (by simp [Attestation.hashed]))) assets
  · have natural : value = value' := Int.ofNat.inj (Option.some.inj (parsed.symm.trans parsed'))
    have lower := attestation.amount.lower
    have upper := attestation.amount.upper
    have residue : ((value' : ℤ) % 256 ^ 16).toNat = value' := by omega
    have written : signedBigEndian 16 (value' : ℤ) = attestation.amount.toBeBytes := by
      rw [signedBigEndian, residue]
      exact amounts
    have span : |(value' : ℤ) - attestation.amount.val| < 256 ^ 16 := by
      rw [abs_lt]
      omega
    rw [parsed', signedBigEndian_injOn span written]

/-! ## Payouts -/

/-- What a step pays out for, if it is a payout. -/
def payout? : Label → Option Attestation
  | .success call => call.request.attestation?.map Prod.fst
  | .failure .. | .external _ => none

theorem payout?_eq_some {label : Label} {attestation : Attestation} :
    payout? label = some attestation ↔
      ∃ call sigs, label = .success call ∧ call.request.attestation? = some (attestation, sigs) := by
  cases label with
  | success call =>
    simp only [payout?, Option.map_eq_some_iff, Prod.exists, exists_and_right, exists_eq_right,
      Label.success.injEq]
    constructor
    · rintro ⟨sigs, attested⟩
      exact ⟨call, sigs, rfl, attested⟩
    · rintro ⟨_, sigs, rfl, attested⟩
      exact ⟨sigs, attested⟩
  | failure => simp [payout?]
  | external => simp [payout?]

/-- What is relied on, when honest relayers sign for some deposits of the chains only: the hash
collides on none of the byte strings in question, at every payout fewer than the threshold of the
registered relayers are dishonest, and the signatures of honest ones are for these deposits. -/
structure Trust (host : Host) (chains : SourceChains) (deposits : Set Deposit) (sdk : StellarSdk)
    (honest : BytesN 32 → Prop) (hashed : Set (List UInt8)) (labels : List Label) : Prop where
  held : ∀ deposit ∈ deposits, chains.Holds deposit
  digest : chains.config.sha256 = host.sha256
  unique : Set.InjOn host.sha256 hashed
  attested : ∀ label ∈ labels, ∀ attestation, payout? label = some attestation →
    payoutHashed host attestation ⊆ hashed
  said : ∀ deposit ∈ deposits, deposit.hashed host.sha256 ⊆ hashed
  minority : ∀ call, .success call ∈ labels → call.request.attestation?.isSome →
    ∀ keys : List (BytesN 32), keys.Nodup →
      (∀ key ∈ keys, call.before.isRelayer key = true ∧ ¬ honest key) →
        keys.length < call.before.relayerThreshold.toNat
  faithful : ∀ call attestation sigs, .success call ∈ labels →
    call.request.attestation? = some (attestation, sigs) → ∀ sig ∈ sigs, honest sig.pubkey →
      host.verifyStrict sig.pubkey (attestation.payloadHash host) sig.signature = true →
        Vouched host.sha256 sdk deposits (attestation.payloadHash host)

section Backing

variable {host : Host} {chains : SourceChains} {deposits : Set Deposit} {sdk : StellarSdk}
  {honest : BytesN 32 → Prop} {hashed : Set (List UInt8)} {labels : List Label} {w w' : World}

/-- Among the relayers that attest a payout is an honest one, so the payout is that of one of the
deposits. -/
theorem Trust.backed (trust : Trust host chains deposits sdk honest hashed labels)
    (run : Run (Step host) w labels w') {label : Label} (member : label ∈ labels)
    {attestation : Attestation} (pays : payout? label = some attestation) :
    ∃ deposit ∈ deposits, validateBridgeEvent sdk deposit.event = .ok () ∧
      Tells host attestation deposit.event := by
  obtain ⟨call, sigs, rfl, attested⟩ := payout?_eq_some.mp pays
  obtain ⟨deployed, ran, -⟩ := successful_of_run run member
  rw [Request.attestation?_eq_some attested] at ran
  obtain ⟨_, ran, -⟩ := replying_ok.mp ran
  obtain ⟨-, signatures, reached, -⟩ := fundCAddressCrosschain_ok.mp ran
  rw [deployed] at signatures
  obtain ⟨sig, listed, honestly⟩ : ∃ sig ∈ sigs, honest sig.pubkey := by
    by_contra none
    push Not at none
    have few := trust.minority call member (by simp [attested]) (sigs.map RelayerSig.pubkey)
      signatures.distinct fun key among => by
        obtain ⟨sig, listed, rfl⟩ := List.mem_map.mp among
        exact ⟨signatures.registered sig listed, none sig listed⟩
    rw [List.length_map] at few
    exact absurd reached (not_le.mpr few)
  obtain ⟨deposit, holds, valid, signed⟩ := trust.faithful call attestation sigs member attested sig
    listed honestly (signatures.signed sig listed).2
  exact ⟨deposit, holds, valid, tells_of_hash trust.unique (trust.attested _ member _ pays)
    (trust.said deposit holds) valid signed⟩

/-! ## Deposits are paid out once -/

/-- A step pays a deposit out. -/
def PaysOut (host : Host) (deposit : Deposit) (label : Label) : Prop :=
  ∃ attestation, payout? label = some attestation ∧ Tells host attestation deposit.event

/-- The nonce of a deposit is used. -/
def NonceUsed (host : Host) (deposit : Deposit) (w : World) : Prop :=
  ∃ (chainId : UInt32) (txHash : BytesN 32), deposit.event.chainId = .integer chainId.toNat ∧
    hexBytes deposit.event.txHash.toList = txHash.toList ∧
    w.nonceUsed (host.crosschainNonce chainId txHash) = true

theorem PaysOut.takes {deposit : Deposit} {label : Label} (taken : Step host w label w')
    (pays : PaysOut host deposit label) : ¬ NonceUsed host deposit w ∧ NonceUsed host deposit w' := by
  obtain ⟨attestation, paid, tells⟩ := pays
  obtain ⟨call, sigs, rfl, attested⟩ := payout?_eq_some.mp paid
  have claimed : Label.paysOut attestation.chainId attestation.txHash (.success call) :=
    ⟨call, attestation, sigs, rfl, attested, rfl, rfl⟩
  obtain ⟨unused, used⟩ := Label.paysOut_takes taken claimed
  refine ⟨?_, attestation.chainId, attestation.txHash, tells.chainId, tells.txHash, used⟩
  rintro ⟨chainId, txHash, integer, hash, before⟩
  have number := UInt32.toNat_inj.mp
    (Int.ofNat.inj (Number.integer.inj (integer.symm.trans tells.chainId)))
  have bytes := BytesN.toList_injective (hash.symm.trans tells.txHash)
  exact unused (number ▸ bytes ▸ before)

theorem NonceUsed.stays {deposit : Deposit} {label : Label} (taken : Step host w label w')
    (used : NonceUsed host deposit w) : NonceUsed host deposit w' := by
  obtain ⟨chainId, txHash, integer, hash, before⟩ := used
  exact ⟨chainId, txHash, integer, hash, taken.nonceUsed before⟩

theorem paid_once (run : Run (Step host) w labels w') (deposit : Deposit) :
    labels.Pairwise fun earlier later =>
      ¬ (PaysOut host deposit earlier ∧ PaysOut host deposit later) :=
  run.atMostOnce (NonceUsed host deposit) (PaysOut host deposit)
    (fun _ _ _ taken pays => pays.takes taken) (fun _ _ _ taken used => used.stays taken)

/-! ## What is paid out and what was deposited -/

/-- What a step pays out in an asset, the fee included. -/
def paidIn (asset : Address) (label : Label) : ℤ :=
  match payout? label with
  | some attestation => if attestation.asset = asset then attestation.amount.val else 0
  | none => 0

/-- What a deposit that passes the check is worth in an asset. -/
def Deposit.worth (host : Host) (sdk : StellarSdk) (asset : Address) (deposit : Deposit) : ℤ :=
  if (validateBridgeEvent sdk deposit.event).isOk = true ∧
      utf8Bytes deposit.event.asset = host.strkey asset then
    (bigInt deposit.event.amount).getD 0
  else 0

theorem isOk_of_valid {event : BridgeEvent} (valid : validateBridgeEvent sdk event = .ok ()) :
    (validateBridgeEvent sdk event).isOk = true := by
  rw [valid]
  rfl

theorem valid_of_isOk {event : BridgeEvent} (checked : (validateBridgeEvent sdk event).isOk = true) :
    validateBridgeEvent sdk event = .ok () := by
  cases result : validateBridgeEvent sdk event with
  | error message => rw [result] at checked; cases checked
  | ok u => rfl

theorem Deposit.worth_nonneg (asset : Address) (deposit : Deposit) :
    0 ≤ deposit.worth host sdk asset := by
  unfold Deposit.worth
  split
  · next counts =>
    obtain ⟨value, parsed, -, -⟩ := (accepted_of_validate (valid_of_isOk counts.1)).amount
    rw [parsed, Option.getD_some]
    exact Int.natCast_nonneg value
  · exact le_refl 0

theorem Tells.paidIn_le {attestation : Attestation} {deposit : Deposit} {label : Label}
    (tells : Tells host attestation deposit.event) (paid : payout? label = some attestation)
    (valid : validateBridgeEvent sdk deposit.event = .ok ()) (asset : Address) :
    paidIn asset label ≤ deposit.worth host sdk asset := by
  simp only [paidIn, paid]
  split
  · next same =>
    subst same
    rw [Deposit.worth, if_pos ⟨isOk_of_valid valid, tells.asset.symm⟩, tells.amount,
      Option.getD_some]
  · exact deposit.worth_nonneg asset

/-- When honest relayers sign for some deposits only, such as those that the source chains confirm:
every payout of a run is that of one of these deposits, which passes the check, to its target and
in its asset and amount; no two are those of one deposit; and in every asset what is paid out, fees
included, is no more than these deposits hold. -/
theorem payouts_backed (trust : Trust host chains deposits sdk honest hashed labels)
    (run : Run (Step host) w labels w') {listed : List Deposit}
    (complete : ∀ deposit ∈ deposits, deposit ∈ listed) :
    (∀ label ∈ labels, ∀ attestation, payout? label = some attestation →
      ∃ deposit ∈ deposits, validateBridgeEvent sdk deposit.event = .ok () ∧
        Tells host attestation deposit.event) ∧
    (∀ deposit, labels.Pairwise fun earlier later =>
      ¬ (PaysOut host deposit earlier ∧ PaysOut host deposit later)) ∧
    ∀ asset, (labels.map (paidIn asset)).sum ≤ (listed.map (Deposit.worth host sdk asset)).sum := by
  refine ⟨fun label member attestation paid => trust.backed run member paid, paid_once run, ?_⟩
  intro asset
  refine sum_le_of_backed (Deposit.worth_nonneg asset) ?_ (paid_once run)
  intro label member
  cases paid : payout? label with
  | none => exact .inl (by simp [paidIn, paid])
  | some attestation =>
    obtain ⟨deposit, among, valid, tells⟩ := trust.backed run member paid
    exact .inr ⟨deposit, complete deposit among, ⟨attestation, paid, tells⟩,
      tells.paidIn_le paid valid asset⟩

/-! ## Nonces -/

/-- A call that uses a nonce up is a payout. -/
theorem Step.nonceUsed_before {label : Label} (taken : Step host w label w') {nonce : BytesN 32}
    (used : w'.nonceUsed nonce = true) :
    w.nonceUsed nonce = true ∨ ∃ attestation, payout? label = some attestation ∧
      host.crosschainNonce attestation.chainId attestation.txHash = nonce := by
  cases taken with
  | failure => exact .inl used
  | external => exact .inl used
  | @success call deployed ran =>
    cases attested : call.request.attestation? with
    | some entry =>
      obtain ⟨attestation, sigs⟩ := entry
      rw [Request.attestation?_eq_some attested] at ran
      obtain ⟨_, ran, -⟩ := replying_ok.mp ran
      rw [(fundCAddressCrosschain_marks ran).2, Bool.or_eq_true, decide_eq_true_eq, deployed] at used
      rcases used with rfl | before
      · exact .inr ⟨attestation, by simp [payout?, attested], rfl⟩
      · exact .inl before
    | none =>
      have outside : ∀ nonce, .crossChainNonce nonce ∉ call.request.writes := by
        intro nonce writes
        revert attested writes
        cases call.request <;> simp [Request.attestation?, Request.writes, dailyUsages]
      exact .inl (((execute_frame call.env call.request ran).nonceUsed outside nonce) ▸ used)

/-- From a fresh deployment only payouts use nonces up. -/
theorem nonceUsed_of_run (fresh : Genesis host w) (run : Run (Step host) w labels w')
    {nonce : BytesN 32} (used : w'.nonceUsed nonce = true) :
    ∃ label ∈ labels, ∃ attestation, payout? label = some attestation ∧
      host.crosschainNonce attestation.chainId attestation.txHash = nonce := by
  let paid : List Label → World → Prop := fun past w => w.nonceUsed nonce = true →
    ∃ label ∈ past, ∃ attestation, payout? label = some attestation ∧
      host.crosschainNonce attestation.chainId attestation.txHash = nonce
  have keeps : ∀ ⦃past s label t⦄, paid past s → Step host s label t → paid (past ++ [label]) t := by
    intro past s label t sofar taken used
    rcases Step.nonceUsed_before taken used with before | ⟨attestation, pays, same⟩
    · obtain ⟨earlier, member, rest⟩ := sofar before
      exact ⟨earlier, List.mem_append_left _ member, rest⟩
    · exact ⟨label, List.mem_append_right _ List.mem_cons_self, attestation, pays, same⟩
  have start : paid [] w := by
    intro used
    simp [World.nonceUsed, fresh.store] at used
  exact run.traced keeps start used

theorem noncePreimage_eq {event : BridgeEvent} {chainId : UInt32} {txHash : BytesN 32}
    (integer : event.chainId = .integer chainId.toNat)
    (hash : hexBytes event.txHash.toList = txHash.toList) :
    noncePreimage event = some (Host.crosschainNoncePreimage chainId txHash) := by
  have fits := chainId.toNat_lt
  rw [noncePreimage, integer, writeUInt32BE, if_pos (by omega), Int.toNat_natCast, hash]
  rfl

/-- A nonce tells the deposit, so what uses up the nonce of a deposit is its own payout. -/
theorem Trust.pays_of_nonce (trust : Trust host chains deposits sdk honest hashed labels)
    (positioned : chains.Positioned) (run : Run (Step host) w labels w') {deposit : Deposit}
    (among : deposit ∈ deposits) {chainId : UInt32} {txHash : BytesN 32}
    (integer : deposit.event.chainId = .integer chainId.toNat)
    (hash : hexBytes deposit.event.txHash.toList = txHash.toList) {label : Label}
    (member : label ∈ labels) {attestation : Attestation}
    (paid : payout? label = some attestation)
    (same : host.crosschainNonce attestation.chainId attestation.txHash =
      host.crosschainNonce chainId txHash) : PaysOut host deposit label := by
  obtain ⟨other, among', -, tells⟩ := trust.backed run member paid
  have holds : chains.Holds deposit := trust.held deposit among
  have holds' : chains.Holds other := trust.held other among'
  have preimages := trust.unique (trust.attested label member attestation paid (.inl rfl))
    (trust.said deposit among (.inr (.inr (.inr (.inl (noncePreimage_eq integer hash)))))) same
  obtain ⟨-, hashes⟩ := List.append_inj preimages (by simp)
  have digests : (chains.config.sha256 other.position.bytes).toList =
      (chains.config.sha256 deposit.position.bytes).toList := by
    have texts := tells.txHash.trans (hashes.trans hash.symm)
    rwa [holds'.txHash, holds.txHash, replayKey, replayKey, String.toList_ofList,
      String.toList_ofList, hexBytes_hexText, hexBytes_hexText] at texts
  have keys : other.event.txHash = deposit.event.txHash := by
    rw [holds'.txHash, holds.txHash, replayKey, replayKey, digests]
  have known : ∀ deposit ∈ deposits, deposit.position.bytes ∈ hashed :=
    fun deposit among => trust.said deposit among (.inl rfl)
  have positions := (holds'.keys (trust.digest ▸ trust.unique) holds (known other among')
    (known deposit among)).mp keys
  obtain rfl := holds'.unique positioned holds positions
  exact ⟨attestation, paid, tells⟩

/-- Over a run from a fresh deployment the nonce of one of the deposits is used exactly when that
very deposit has been paid out: no payout of another deposit stands in its way, and a relayer that is
told of a replayed nonce is told the truth. -/
theorem nonce_used_iff_paid (trust : Trust host chains deposits sdk honest hashed labels)
    (positioned : chains.Positioned) (fresh : Genesis host w) (run : Run (Step host) w labels w')
    {deposit : Deposit} (among : deposit ∈ deposits) :
    NonceUsed host deposit w' ↔ ∃ label ∈ labels, PaysOut host deposit label := by
  constructor
  · rintro ⟨chainId, txHash, integer, hash, used⟩
    obtain ⟨label, member, attestation, paid, same⟩ := nonceUsed_of_run fresh run used
    exact ⟨label, member,
      trust.pays_of_nonce positioned run among integer hash member paid same⟩
  · rintro ⟨label, member, pays⟩
    obtain ⟨earlier, later, rfl⟩ := List.append_of_mem member
    obtain ⟨t, v, -, taken, after⟩ := run.around
    exact after.stays (NonceUsed host deposit) (fun _ _ _ taken used => used.stays taken)
      (pays.takes taken).2

end Backing

namespace Rehearsal

/-- Another bridge, on a network with the keys of the deposit. -/
def fundHost : Host :=
  { Contract.Rehearsal.host with
    contractAddress := .contract 2
    strkey := keyedHost.strkey }

def fundEnv : Env :=
  { Contract.Rehearsal.env 0 with
    host := fundHost
    authorizes := fun address => decide (address ≠ .contract 2)
    self_unauthorized := by simp [fundHost] }

def fundDeposit : Deposit := ⟨.solana zeroSignature 0, fundEvent⟩

/-- What the call for the deposit attests. -/
def fundPayout : Attestation where
  chainId := 101
  txHash := 0x5496f352f85ac6997787413166b98ae646a1a6cb3db7c14d38ff3badf4cce644
  target := .contract 1
  asset := .contract 0
  amount := Contract.Rehearsal.amount 1000 Contract.Rehearsal.thousand_small

/-- A bridge with one relayer is set up and pays the deposit out. -/
def payingOut : List (Env × Request) := [
  (fundEnv, .initializeContract (Contract.Rehearsal.address 1) (Contract.Rehearsal.address 2) 100
    none),
  (fundEnv, .addAsset (.contract 0) none),
  (fundEnv, .fundCrosschainReserve (.contract 0)
    (Contract.Rehearsal.amount 5000 Contract.Rehearsal.fiveThousand_small)),
  (fundEnv, .addRelayer 7 none),
  (fundEnv, .fundCAddressCrosschain fundPayout.chainId fundPayout.txHash fundPayout.target
    fundPayout.asset fundPayout.amount
    [⟨7, Contract.Rehearsal.sign 7 (fundPayout.payloadHash fundHost)⟩])]

/-- The byte strings that are hashed for the deposit and the payout. -/
def fundHashed : List (List UInt8) := [
  fundDeposit.position.bytes, utf8Bytes (keyOf 1), utf8Bytes (keyOf 0),
  Host.crosschainNoncePreimage fundPayout.chainId fundPayout.txHash,
  fundHost.crosschainPayload fundPayout.chainId fundPayout.txHash fundPayout.target
    fundPayout.asset fundPayout.amount]

/-- The source chains confirm the one deposit. -/
theorem sources_confirm {deposit : Deposit} :
    sources.Confirms deposit ↔ deposit = fundDeposit := by
  have genuine : Genuine sources.config zeroSignature sources.bridge (fundEntries.take 1)
      (.message .log fundLine) fundEvent :=
    ⟨by decide +kernel, ⟨[], by decide⟩, by decide +kernel⟩
  have lines : fundTx.logs =
      linesOf (fundEntries.take 1 ++ .message .log fundLine :: fundEntries.drop 2) := rfl
  have placed : DepositAt sources.config zeroSignature fundTx.logs 0 fundEvent :=
    lines ▸ SourceChains.depositAt_of_genuine genuine
  constructor
  · intro confirms
    cases confirms.holds with
    | ethereum logged => cases logged
    | @solana tx position event finalised here =>
      have below := here.lt_count
      rcases List.mem_cons.mp finalised with rfl | finalised
      · exact absurd below (Nat.not_lt_zero _)
      · obtain rfl := List.mem_singleton.mp finalised
        have one : fundTx.logs.countP isDepositLine = 1 := by decide +kernel
        obtain rfl : position = 0 := by omega
        rw [here.unique placed]
        rfl
  · rintro rfl
    have finalised : fundTx ∈ sources.solana := List.mem_cons_of_mem _ List.mem_cons_self
    exact .solana finalised rfl rfl genuine

theorem payingOut_run :
    Run (Step fundHost) Contract.Rehearsal.fresh
      ((rehearse Contract.Rehearsal.fresh payingOut).map .success)
      (rehearsed Contract.Rehearsal.fresh payingOut) := by
  refine rehearse_run ?_ (by decide +kernel)
  simp [payingOut, fundEnv]

/-- The call of the script that pays out. -/
theorem payingOut_pays {label : Label}
    (member : label ∈ (rehearse Contract.Rehearsal.fresh payingOut).map .success)
    {attestation : Attestation} (paid : payout? label = some attestation) :
    attestation = fundPayout := by
  obtain ⟨call, rehearsed, rfl⟩ := List.mem_map.mp member
  have asked := mem_rehearse rehearsed
  simp only [payingOut, List.mem_cons, Prod.mk.injEq, List.not_mem_nil, or_false] at asked
  rcases asked with ⟨-, asked⟩ | ⟨-, asked⟩ | ⟨-, asked⟩ | ⟨-, asked⟩ | ⟨-, asked⟩ <;>
    rw [payout?, asked] at paid
  all_goals try (cases paid; done)
  exact (Option.some.inj paid).symm

theorem payingOut_trust :
    Trust fundHost sources {deposit | sources.Confirms deposit} sdk (fun _ => True)
      {bytes | bytes ∈ fundHashed} ((rehearse Contract.Rehearsal.fresh payingOut).map .success) where
  held deposit confirms := confirms.holds
  digest := rfl
  unique := Contract.Rehearsal.checksum_injOn fundHashed (by decide +kernel) fun _ member => member
  attested label member attestation paid := by
    obtain rfl := payingOut_pays member paid
    have texts : fundHost.strkey fundPayout.target = utf8Bytes (keyOf 1) ∧
        fundHost.strkey fundPayout.asset = utf8Bytes (keyOf 0) := by decide +kernel
    intro bytes hashed
    simp only [payoutHashed, Attestation.hashed, Set.mem_insert_iff, Set.mem_singleton_iff,
      texts.1, texts.2] at hashed
    change bytes ∈ fundHashed
    simp only [fundHashed, List.mem_cons]
    rcases hashed with same | same | same | same
    · exact .inr (.inr (.inr (.inl same)))
    · exact .inr (.inl same)
    · exact .inr (.inr (.inl same))
    · exact .inr (.inr (.inr (.inr (.inl same))))
  said deposit holds := by
    obtain rfl := sources_confirm.mp holds
    have nonce : noncePreimage fundDeposit.event =
        some (Host.crosschainNoncePreimage fundPayout.chainId fundPayout.txHash) := by decide +kernel
    have laid : payload fundHost.sha256 fundDeposit.event =
        some (fundHost.crosschainPayload fundPayout.chainId fundPayout.txHash fundPayout.target
          fundPayout.asset fundPayout.amount) := by decide +kernel
    intro bytes hashed
    change bytes ∈ fundHashed
    simp only [fundHashed, List.mem_cons]
    simp only [Deposit.hashed, Set.mem_ofPred_eq, nonce, laid, Option.some.injEq] at hashed
    rcases hashed with same | same | same | same | same
    · exact .inl same
    · exact .inr (.inl same)
    · exact .inr (.inr (.inl same))
    · exact .inr (.inr (.inr (.inl same.symm)))
    · exact .inr (.inr (.inr (.inr (.inl same.symm))))
  minority call member attested keys _ dishonest := by
    have positive : ∀ call ∈ rehearse Contract.Rehearsal.fresh payingOut,
        0 < call.before.relayerThreshold.toNat := by decide +kernel
    have none : keys = [] := List.eq_nil_iff_forall_not_mem.mpr fun key listed =>
      (dishonest key listed).2 trivial
    obtain ⟨call', rehearsed, same⟩ := List.mem_map.mp member
    obtain rfl := Label.success.inj same
    rw [none]
    exact positive call' rehearsed
  faithful call attestation sigs member attested _ _ _ _ := by
    have paid : payout? (.success call) = some attestation := by simp [payout?, attested]
    obtain rfl := payingOut_pays member paid
    refine ⟨fundDeposit, sources_confirm.mpr rfl, ?_, ?_⟩
    · decide +kernel
    · decide +kernel

end Rehearsal

/-- One deposit of a thousand, and one payout of it. -/
theorem payouts_backed_rehearsed :
    let labels := (rehearse Contract.Rehearsal.fresh Rehearsal.payingOut).map Label.success
    (∀ label ∈ labels, ∀ attestation, payout? label = some attestation →
      ∃ deposit, Rehearsal.sources.Confirms deposit ∧
        Tells Rehearsal.fundHost attestation deposit.event) ∧
      (labels.Pairwise fun earlier later =>
        ¬ (PaysOut Rehearsal.fundHost Rehearsal.fundDeposit earlier ∧
          PaysOut Rehearsal.fundHost Rehearsal.fundDeposit later)) ∧
      (labels.map (paidIn (.contract 0))).sum = 1000 ∧
      Rehearsal.fundDeposit.worth Rehearsal.fundHost Rehearsal.sdk (.contract 0) = 1000 ∧
      (labels.map (paidIn (.contract 0))).sum ≤
        ([Rehearsal.fundDeposit].map
          (Deposit.worth Rehearsal.fundHost Rehearsal.sdk (.contract 0))).sum := by
  intro labels
  have complete : ∀ deposit, Rehearsal.sources.Confirms deposit →
      deposit ∈ [Rehearsal.fundDeposit] :=
    fun deposit confirms => List.mem_singleton.mpr (Rehearsal.sources_confirm.mp confirms)
  obtain ⟨backed, once, covered⟩ :=
    payouts_backed Rehearsal.payingOut_trust Rehearsal.payingOut_run complete
  refine ⟨fun label member attestation paid => ?_, once _, by decide +kernel, by decide +kernel,
    covered _⟩
  obtain ⟨deposit, confirms, -, tells⟩ := backed label member attestation paid
  exact ⟨deposit, confirms, tells⟩

theorem nonce_used_iff_paid_rehearsed :
    NonceUsed Rehearsal.fundHost Rehearsal.fundDeposit
        (rehearsed Contract.Rehearsal.fresh Rehearsal.payingOut) ↔
      ∃ label ∈ (rehearse Contract.Rehearsal.fresh Rehearsal.payingOut).map .success,
        PaysOut Rehearsal.fundHost Rehearsal.fundDeposit label := by
  have positioned : Rehearsal.sources.Positioned :=
    { ethereum := fun logged => absurd logged List.not_mem_nil, solana := by decide +kernel }
  have fresh : Genesis Rehearsal.fundHost Contract.Rehearsal.fresh :=
    ⟨rfl, fun _ => by simp [Contract.Rehearsal.fresh, Contract.Rehearsal.amount]⟩
  exact nonce_used_iff_paid Rehearsal.payingOut_trust positioned fresh Rehearsal.payingOut_run
    (Rehearsal.sources_confirm.mpr rfl)

end OnboardingBridge.Relayer
