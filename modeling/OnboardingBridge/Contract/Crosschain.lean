import OnboardingBridge.Contract.Invariants
import OnboardingBridge.Contract.Rewards

/-!
# Cross-chain payouts

Over any run a source-chain deposit is paid out at most once, and every payout
is attested by as many registered relayers as the threshold asks for
(`payouts_attested_once`).

An attestation does not name the instance it is meant for, unlike a commitment
and a meta-transaction. Signatures that one instance has accepted are accepted
by every other instance with the same relayers whose other gates are open
(`replayed_iff_payable`).
-/

set_option autoImplicit false

namespace OnboardingBridge.Contract

open Foundations Foundations.Tx

/-! ## Replay nonces -/

/-- Whether a key is a replay nonce. -/
abbrev DataKey.isCrossChainNonce : DataKey → Bool
  | .crossChainNonce _ => true
  | _ => false

/-- The keys that are not replay nonces. -/
def otherThanCrossChainNonces : Set DataKey := {key | key.isCrossChainNonce = false}

@[simp] theorem mem_otherThanCrossChainNonces {key : DataKey} :
    key ∈ otherThanCrossChainNonces ↔ key.isCrossChainNonce = false := Iff.rfl

theorem Frame.nonceUsed {keys : Set DataKey} {moves : Prop} {w w' : World}
    (frame : Frame keys moves w w') (outside : ∀ nonce, .crossChainNonce nonce ∉ keys)
    (nonce : BytesN 32) : w'.nonceUsed nonce = w.nonceUsed nonce := by
  rw [World.nonceUsed, World.nonceUsed, frame.store _ (outside nonce)]

/-- A payout finds its nonce unused and marks it, and changes no other. -/
theorem fundCAddressCrosschain_marks {env : Env} {chainId : UInt32} {txHash : BytesN 32}
    {target asset : Address} {amount : I128} {sigs : List RelayerSig} {w w' : World} {u : Unit}
    (ran : (fundCAddressCrosschain env chainId txHash target asset amount sigs).run w
      = .ok (u, w')) :
    w.nonceUsed (env.host.crosschainNonce chainId txHash) = false ∧
      ∀ nonce, w'.nonceUsed nonce =
        (decide (nonce = env.host.crosschainNonce chainId txHash) || w.nonceUsed nonce) := by
  obtain ⟨gates, -, -, fee, netAmount, -, -, reserved, paid, counted, rewarded, decremented,
    payment, updated, minted, rfl⟩ := fundCAddressCrosschain_ok.mp ran
  refine ⟨gates.fresh, fun nonce => ?_⟩
  have decrements : Touches otherThanCrossChainNonces True
      (decrementCrosschainReserve asset netAmount) :=
    decrementCrosschainReserve_touches _ _ (by simp)
  have pays : Touches otherThanCrossChainNonces True
      (onlyIf (0 < netAmount.val) (transfer env asset env.self target netAmount)) :=
    .onlyIf (transfer_touches ..)
  have counts : Touches otherThanCrossChainNonces True
      (updateAssetCountersSplit asset 0 0 netAmount) :=
    updateAssetCountersSplit_touches _ _ _ _ (by simp)
  have rewards : Touches otherThanCrossChainNonces True (mintLoyaltyTokens env target) :=
    mintLoyaltyTokens_touches ..
  have after := trans_of (Frame otherThanCrossChainNonces True) (pays payment)
    (trans_of (Frame otherThanCrossChainNonces True) (counts updated) (rewards minted))
  have before := (decrements decremented).nonceUsed (by simp) nonce
  have later := after.nonceUsed (by simp) nonce
  simp only [World.nonceUsed, World.erase_store, World.emit_store, World.put_store] at before later ⊢
  rw [KeyedStore.remove_of_ne _ (by simp), later]
  by_cases same : nonce = env.host.crosschainNonce chainId txHash
  · subst same
    simp
  · rw [KeyedStore.set_of_ne _ (by simpa using same), before]
    simp [same]

/-- No call clears a replay nonce. -/
theorem execute_nonceUsed {env : Env} {request : Request} {reply : Reply} {w w' : World}
    (ran : (execute env request).run w = .ok (reply, w')) {nonce : BytesN 32}
    (used : w.nonceUsed nonce = true) : w'.nonceUsed nonce = true := by
  by_cases writes : ∃ nonce, .crossChainNonce nonce ∈ request.writes
  · cases request
    all_goals try (simp [Request.writes, dailyUsages] at writes; done)
    obtain ⟨_, ran, -⟩ := replying_ok.mp ran
    rw [(fundCAddressCrosschain_marks ran).2, used, Bool.or_true]
  · rw [(execute_frame env request ran).nonceUsed (not_exists.mp writes), used]

/-! ## Attestations -/

/-- What the relayers attest. -/
structure Attestation where
  chainId : UInt32
  txHash : BytesN 32
  target : Address
  asset : Address
  amount : I128

namespace Attestation

/-- The hash the relayers sign. -/
def payloadHash (host : Host) (attestation : Attestation) : BytesN 32 :=
  host.crosschainPayloadHash attestation.chainId attestation.txHash attestation.target
    attestation.asset attestation.amount

/-- The byte strings the payload hash is worked out from. -/
def hashed (host : Host) (attestation : Attestation) : Set (List UInt8) :=
  {host.strkey attestation.target, host.strkey attestation.asset,
    host.crosschainPayload attestation.chainId attestation.txHash attestation.target
      attestation.asset attestation.amount}

/-- Without collisions the hash determines the attestation. -/
theorem payloadHash_injective {host : Host} {first second : Attestation}
    (collisionFree : Set.InjOn host.sha256 (first.hashed host ∪ second.hashed host))
    (strkeys : Function.Injective host.strkey)
    (same : first.payloadHash host = second.payloadHash host) : first = second := by
  obtain ⟨chainId, txHash, target, asset, amount⟩ := first
  obtain ⟨chainId', txHash', target', asset', amount'⟩ := second
  have payloads := collisionFree (by simp [hashed]) (by simp [hashed]) same
  obtain ⟨rfl, rfl, targets, assets, rfl⟩ := Host.crosschainPayload_injective payloads
  obtain rfl := strkeys (collisionFree (by simp [hashed]) (by simp [hashed]) targets)
  obtain rfl := strkeys (collisionFree (by simp [hashed]) (by simp [hashed]) assets)
  rfl

end Attestation

/-- What a request is attested with, and the signatures it brings. -/
def Request.attestation? : Request → Option (Attestation × List RelayerSig)
  | .fundCAddressCrosschain chainId txHash target asset amount sigs =>
      some (⟨chainId, txHash, target, asset, amount⟩, sigs)
  | _ => none

theorem Request.attestation?_eq_some {request : Request} {attestation : Attestation}
    {sigs : List RelayerSig} (attested : request.attestation? = some (attestation, sigs)) :
    request = .fundCAddressCrosschain attestation.chainId attestation.txHash attestation.target
      attestation.asset attestation.amount sigs := by
  cases request
  case fundCAddressCrosschain =>
    obtain ⟨rfl, rfl⟩ := Prod.mk.inj (Option.some.inj attested)
    rfl
  all_goals simp [Request.attestation?] at attested

/-- A step that pays out a source-chain deposit. -/
def Label.paysOut (chainId : UInt32) (txHash : BytesN 32) (label : Label) : Prop :=
  ∃ call attestation sigs, label = .success call ∧
    call.request.attestation? = some (attestation, sigs) ∧
    attestation.chainId = chainId ∧ attestation.txHash = txHash

/-- A payout finds its nonce unused and leaves it used. -/
theorem Label.paysOut_takes {host : Host} {chainId : UInt32} {txHash : BytesN 32} {w w' : World}
    {label : Label} (taken : Step host w label w') (pays : label.paysOut chainId txHash) :
    ¬ w.nonceUsed (host.crosschainNonce chainId txHash) = true ∧
      w'.nonceUsed (host.crosschainNonce chainId txHash) = true := by
  obtain ⟨call, attestation, sigs, rfl, attested, rfl, rfl⟩ := pays
  cases taken with
  | success deployed ran =>
    rw [Request.attestation?_eq_some attested] at ran
    obtain ⟨_, ran, -⟩ := replying_ok.mp ran
    obtain ⟨unused, marks⟩ := fundCAddressCrosschain_marks ran
    rw [deployed] at unused marks
    have fresh : call.before.nonceUsed
        (host.crosschainNonce attestation.chainId attestation.txHash) = false := unused
    simp [fresh, marks]

/-- No step clears a replay nonce. -/
theorem Step.nonceUsed {host : Host} {w w' : World} {label : Label} (taken : Step host w label w')
    {nonce : BytesN 32} (used : w.nonceUsed nonce = true) : w'.nonceUsed nonce = true := by
  cases taken with
  | success _ ran => exact execute_nonceUsed ran used
  | failure => exact used
  | external => exact used

/-- Every deposit is paid out at most once over any run. Each payout is attested
by at least as many registered relayers, no two the same, as the stored
threshold, which is positive; and without collisions no two payouts are attested
by the same hash. -/
theorem payouts_attested_once {host : Host} {w w' : World} {labels : List Label}
    (run : Run (Step host) w labels w') :
    (∀ chainId txHash, labels.Pairwise fun earlier later =>
      ¬ (earlier.paysOut chainId txHash ∧ later.paysOut chainId txHash)) ∧
    (∀ call attestation sigs, .success call ∈ labels →
      call.request.attestation? = some (attestation, sigs) →
      1 ≤ call.before.relayerThreshold.toNat ∧
        call.before.relayerThreshold.toNat ≤ sigs.length ∧
        Attested host call.before (attestation.payloadHash host) sigs) ∧
    (Function.Injective host.strkey → ∀ first second : Attestation,
      Set.InjOn host.sha256 (first.hashed host ∪ second.hashed host) →
      first.payloadHash host = second.payloadHash host → first = second) := by
  refine ⟨fun chainId txHash => ?_, fun call attestation sigs member attested => ?_, ?_⟩
  · exact run.atMostOnce
      (fun w => w.nonceUsed (host.crosschainNonce chainId txHash) = true)
      (Label.paysOut chainId txHash) (fun _ _ _ taken pays => Label.paysOut_takes taken pays)
      (fun _ _ _ taken used => taken.nonceUsed used)
  · obtain ⟨deployed, ran, -⟩ := successful_of_run run member
    rw [Request.attestation?_eq_some attested] at ran
    obtain ⟨_, ran, -⟩ := replying_ok.mp ran
    obtain ⟨gates, signatures, reached, -⟩ := fundCAddressCrosschain_ok.mp ran
    rw [deployed] at signatures
    refine ⟨?_, reached, signatures.registered, signatures.signed, signatures.distinct⟩
    have nonzero : call.before.relayerThreshold ≠ 0 := (not_or.mp gates.governed).1
    exact Nat.one_le_iff_ne_zero.mpr fun zero => nonzero (UInt32.toNat_inj.mp zero)
  · exact fun strkeys first second collisionFree same =>
      Attestation.payloadHash_injective collisionFree strkeys same

namespace Rehearsal

/-- What is attested for two deposits. -/
def firstDeposit : Attestation := ⟨1, 11, address 4, address 3, amount 1000 thousand_small⟩

def secondDeposit : Attestation := ⟨1, 12, address 5, address 3, amount 1000 thousand_small⟩

/-- A payout that is attested with the key 7. -/
def attestedBy7 (attestation : Attestation) : Request :=
  .fundCAddressCrosschain attestation.chainId attestation.txHash attestation.target
    attestation.asset attestation.amount [⟨7, sign 7 (attestation.payloadHash host)⟩]

/-- An instance with one relayer and with something in its cross-chain reserve. -/
def readyToPay : List Request := [
  .initializeContract (address 1) (address 2) 100 none,
  .addAsset (address 3) none,
  .fundCrosschainReserve (address 3) (amount 5000 fiveThousand_small),
  .addRelayer 7 none]

/-- Both deposits are paid out. -/
def payingTwice : List (UInt64 × Request) :=
  readyToPay.map (0, ·) ++ [(0, attestedBy7 firstDeposit), (0, attestedBy7 secondDeposit)]

/-- The byte strings that are hashed for them. -/
def attestedStrings : List (List UInt8) := [
  strkey (address 3), strkey (address 4), strkey (address 5),
  host.crosschainPayload 1 11 (address 4) (address 3) (amount 1000 thousand_small),
  host.crosschainPayload 1 12 (address 5) (address 3) (amount 1000 thousand_small)]

theorem attested_collisionFree :
    Set.InjOn host.sha256 (firstDeposit.hashed host ∪ secondDeposit.hashed host) := by
  refine checksum_injOn attestedStrings (by decide +kernel) ?_
  rintro bytes ((rfl | rfl | rfl) | rfl | rfl | rfl) <;> decide +kernel

end Rehearsal

/-- Two deposits are paid out, each attested by the relayer for itself. -/
theorem payouts_attested_once_rehearsed :
    let labels := (Rehearsal.calls Rehearsal.payingTwice).map Label.success
    (∀ chainId txHash, labels.Pairwise fun earlier later =>
      ¬ (earlier.paysOut chainId txHash ∧ later.paysOut chainId txHash)) ∧
    (∀ call ∈ Rehearsal.calls Rehearsal.payingTwice, ∀ attestation sigs,
      call.request.attestation? = some (attestation, sigs) →
        call.before.relayerThreshold.toNat ≤ sigs.length ∧
          Attested Rehearsal.host call.before (attestation.payloadHash Rehearsal.host) sigs) ∧
    Rehearsal.firstDeposit.payloadHash Rehearsal.host ≠
      Rehearsal.secondDeposit.payloadHash Rehearsal.host := by
  intro labels
  obtain ⟨once, attested, unique⟩ :=
    payouts_attested_once (Rehearsal.run Rehearsal.payingTwice (by decide +kernel))
  refine ⟨once, fun call member attestation sigs asked => ?_, fun same => ?_⟩
  · exact (attested call attestation sigs (List.mem_map_of_mem member) asked).2
  · have equal := unique Rehearsal.strkey_injective _ _ Rehearsal.attested_collisionFree same
    exact absurd (congrArg Attestation.txHash equal) (by decide)

/-! ## Replays on another instance -/

/-- The payout itself can be made: the fee can be worked out, the reserve and the
balance cover the rest, the counters have room, and so has the receiver; and
after the payment the reward step can be taken. None of it looks at the
signatures. -/
def World.CanPayOut (w : World) (env : Env) (target asset : Address) (amount : I128) : Prop :=
  ∃ fee netAmount : I128, w.feeOf asset amount = some fee ∧
    netAmount.val = amount.val - fee.val ∧
    netAmount.val ≤ (w.crosschainReserve asset).val ∧
    (w.counters asset).totalBridged.val + netAmount.val ≤ I128.maxValue ∧
    ∃ paid, w.tokens.PaysOut env asset target netAmount paid ∧
      ({ w with tokens := paid }).RewardPayable env target

/-- The reward step reads the tokens, the reward settings and two of the
buckets. -/
theorem World.rewardPayable_congr {env : Env} {recipient : Address} {w w' : World}
    (tokens : w'.tokens = w.tokens) (reward : w'.loyaltyReward = w.loyaltyReward)
    (accrued : ∀ token, (w'.counters token).accruedFees = (w.counters token).accruedFees)
    (locked : ∀ token, (w'.counters token).lockedTimelock = (w.counters token).lockedTimelock) :
    w'.RewardPayable env recipient ↔ w.RewardPayable env recipient := by
  simp only [World.RewardPayable, World.Payable, World.rewardFigure, tokens, reward, accrued,
    locked]

/-- After the steps before it, the reward step finds what the call found, but for
the tokens. -/
theorem rewardPayable_payout {env : Env} {chainId : UInt32} {txHash : BytesN 32}
    {target asset : Address} {netAmount : I128} {w reserved paid counted : World}
    (decremented : (decrementCrosschainReserve asset netAmount).run (w.put .entered true)
      = .ok ((), reserved))
    (payment : (onlyIf (0 < netAmount.val) (transfer env asset env.self target netAmount)).run
      (reserved.put (.crossChainNonce (env.host.crosschainNonce chainId txHash)) true)
      = .ok ((), paid))
    (updated : (updateAssetCountersSplit asset 0 0 netAmount).run paid = .ok ((), counted)) :
    counted.RewardPayable env target ↔ ({ w with tokens := paid.tokens }).RewardPayable env target := by
  have silent : Silent (markNonceUsed (env.host.crosschainNonce chainId txHash)) :=
    save_touches _ (by simp)
  have sofar := (enter_recorded env.self w).trans (decrementCrosschainReserve_records _ _ decremented)
  have sofar := sofar.trans (.of_frame (silent rfl))
  have sofar := sofar.trans (payout_records _ _ _ _ payment)
  have recorded := sofar.trans (updateAssetCountersSplit_records _ _ _ _ updated)
  refine World.rewardPayable_congr ?_ recorded.loyaltyReward (fun token => ?_) (fun token => ?_)
  · obtain ⟨_, _, _, -, -, -, rfl⟩ := updateAssetCountersSplit_ok.mp updated
    rfl
  · have kept := recorded.earmarked .accruedFees token
    simp at kept
    exact BoundedInt.ext kept
  · have kept := recorded.earmarked .lockedTimelock token
    simp at kept
    exact BoundedInt.ext kept

/-- A payout after its signatures goes through exactly when it can be made. -/
theorem paidOut_iff {env : Env} {chainId : UInt32} {txHash : BytesN 32} {target asset : Address}
    {amount : I128} {w : World}
    (bounds : ∀ fee, w.feeOf asset amount = some fee → 0 ≤ fee.val ∧ fee.val ≤ amount.val) :
    (∃ w', PaidOut env chainId txHash target asset amount w w') ↔
      w.CanPayOut env target asset amount := by
  have counters (reserve : I128) {paid : World} (store : paid.store =
      (((w.put .entered true).put (.crossChainReserve asset) reserve).put
        (.crossChainNonce (env.host.crosschainNonce chainId txHash)) true).store) :
      paid.counters asset = w.counters asset := by
    simp [World.counters, store]
  constructor
  · rintro ⟨w', fee, netAmount, charged, net, reserved, paid, counted, rewarded, decremented,
      payment, updated, minted, -⟩
    have payable := (rewardPayable_payout decremented payment updated).mp
      (mintLoyaltyTokens_succeeds.mp ⟨_, minted⟩)
    obtain ⟨covered, reserve, -, rfl⟩ := decrementCrosschainReserve_ok.mp decremented
    obtain ⟨store, pays⟩ := payout_leaves payment
    obtain ⟨accrued, total, fees, -, bridges, -, -⟩ := updateAssetCountersSplit_ok.mp updated
    rw [counters reserve store] at bridges
    have covered : netAmount.val ≤ (w.crosschainReserve asset).val := by
      simpa [World.crosschainReserve] using covered
    exact ⟨fee, netAmount, charged, net, covered, bridges ▸ total.upper, _, pays, payable⟩
  · rintro ⟨fee, netAmount, charged, net, covered, room, tokens, pays, payable⟩
    obtain ⟨feeNonneg, feeLe⟩ := bounds fee charged
    have netNonneg : 0 ≤ netAmount.val := by omega
    obtain ⟨reserve, decreased⟩ := I128.exists_sub netNonneg covered
    obtain ⟨total, bridges⟩ := I128.exists_add netNonneg room
    have same : ((w.put .entered true).crosschainReserve asset) = w.crosschainReserve asset := by
      simp [World.crosschainReserve]
    have decremented : (decrementCrosschainReserve asset netAmount).run (w.put .entered true)
        = .ok ((), (w.put .entered true).put (.crossChainReserve asset) reserve) := by
      refine decrementCrosschainReserve_ok.mpr ⟨?_, reserve, ?_, rfl⟩
      · rwa [same]
      · rwa [same]
    obtain ⟨paid, payment, store, rfl⟩ := pays.made (w := ((w.put .entered true).put
      (.crossChainReserve asset) reserve).put
        (.crossChainNonce (env.host.crosschainNonce chainId txHash)) true)
    obtain ⟨counted, updated⟩ : ∃ counted,
        (updateAssetCountersSplit asset 0 0 netAmount).run paid = .ok ((), counted) := by
      refine ⟨_, updateAssetCountersSplit_ok.mpr ⟨_, total, _, (add_zero _).symm, ?_,
        (add_zero _).symm, rfl⟩⟩
      rwa [counters reserve store]
    obtain ⟨rewarded, minted⟩ := mintLoyaltyTokens_succeeds.mpr
      ((rewardPayable_payout decremented payment updated).mpr payable)
    exact ⟨_, fee, netAmount, charged, net, _, paid, counted, rewarded, decremented, payment,
      updated, minted, rfl⟩

/-- Two instances whose networks use the same hash function, signature scheme and
textual addresses. -/
structure Host.SamePrimitives (host other : Host) : Prop where
  sha256 : other.sha256 = host.sha256
  verifyingKey : other.verifyingKey = host.verifyingKey
  verifyStrict : other.verifyStrict = host.verifyStrict
  strkey : other.strkey = host.strkey

/-- The attested hash does not depend on the instance. -/
theorem Host.SamePrimitives.payloadHash {host other : Host} (same : host.SamePrimitives other)
    (chainId : UInt32) (txHash : BytesN 32) (target asset : Address) (amount : I128) :
    other.crosschainPayloadHash chainId txHash target asset amount =
      host.crosschainPayloadHash chainId txHash target asset amount := by
  simp only [Host.crosschainPayloadHash, Host.crosschainPayload, Host.addressHash,
    Host.crosschainNonce, same.sha256, same.strkey]

/-- Signatures that attest on one instance attest on another with the same
relayers. -/
theorem Host.SamePrimitives.attested {host other : Host} (same : host.SamePrimitives other)
    {w v : World} (relayers : ∀ pubkey, v.isRelayer pubkey = w.isRelayer pubkey)
    {payloadHash : BytesN 32} {sigs : List RelayerSig}
    (attested : Attested host w payloadHash sigs) : Attested other v payloadHash sigs where
  registered sig member := (relayers sig.pubkey).trans (attested.registered sig member)
  signed sig member := by
    rw [same.verifyingKey, same.verifyStrict]
    exact attested.signed sig member
  distinct := attested.distinct

theorem succeeds_crosschain {env : Env} {chainId : UInt32} {txHash : BytesN 32}
    {target asset : Address} {amount : I128} {sigs : List RelayerSig} {w : World} :
    succeeds env (.fundCAddressCrosschain chainId txHash target asset amount sigs) w = true ↔
      ∃ w', (fundCAddressCrosschain env chainId txHash target asset amount sigs).run w.begin
        = .ok ((), w') := by
  rw [succeeds_iff]
  constructor
  · rintro ⟨reply, w', ran⟩
    obtain ⟨_, ran, -⟩ := replying_ok.mp ran
    exact ⟨w', ran⟩
  · rintro ⟨w', ran⟩
    exact ⟨_, w', replying_ok.mpr ⟨(), ran, rfl⟩⟩

/-- Signatures that make a payout succeed on one instance fail on another, with
another address or on another network and with the same relayers, exactly when
that instance turns the payout down for a reason other than the signatures. -/
theorem replayed_iff_payable {host other : Host} {w v : World} {env env' : Env}
    {chainId : UInt32} {txHash : BytesN 32} {target asset : Address} {amount : I128}
    {sigs : List RelayerSig}
    (distinct : host.contractAddress ≠ other.contractAddress ∨ host.networkId ≠ other.networkId)
    (same : host.SamePrimitives other) (reachable : Reachable host w)
    (reachableOther : Reachable other v)
    (relayers : ∀ pubkey, v.isRelayer pubkey = w.isRelayer pubkey)
    (deployed : env.host = host) (deployedOther : env'.host = other)
    (accepted : succeeds env
      (.fundCAddressCrosschain chainId txHash target asset amount sigs) w = true) :
    succeeds env' (.fundCAddressCrosschain chainId txHash target asset amount sigs) v = false ↔
      ¬ (v.begin.OpenToPayout env' chainId txHash target asset amount ∧
        v.begin.relayerThreshold.toNat ≤ sigs.length ∧
        v.begin.CanPayOut env' target asset amount) := by
  subst deployed deployedOther
  obtain ⟨w', ran⟩ := succeeds_crosschain.mp accepted
  obtain ⟨-, attested, -, -⟩ := fundCAddressCrosschain_ok.mp ran
  have signed : Attested env'.host v.begin
      (env'.host.crosschainPayloadHash chainId txHash target asset amount) sigs := by
    rw [same.payloadHash]
    have sameRelayers : ∀ pubkey, v.begin.isRelayer pubkey = w.begin.isRelayer pubkey := relayers
    exact same.attested sameRelayers attested
  rw [← Bool.not_eq_true, succeeds_crosschain, not_iff_not]
  simp only [fundCAddressCrosschain_ok, exists_and_left, signed, true_and]
  refine and_congr_right fun gates => and_congr_right fun _ => paidOut_iff fun fee charged => ?_
  have sound : v.begin.Sound env'.self := reachableOther.sound.of_store rfl
  exact feeOf_bounds sound.fees (not_le.mp (not_or.mp gates.enough).1).le charged

namespace Rehearsal

/-- A second instance with another address on the network of the first. -/
def otherHost : Host := { host with contractAddress := .contract 1 }

/-- A call of the second instance. -/
def otherEnv : Env :=
  { env 0 with
    host := otherHost
    authorizes := fun address => decide (address ≠ .contract 1)
    self_unauthorized := by decide }

/-- The first instance when it is ready to pay. -/
def readyHere : World := rehearsed fresh (readyToPay.map (env 0, ·))

/-- The second instance when it is ready to pay. -/
def readyThere : World := rehearsed fresh (readyToPay.map (otherEnv, ·))

theorem readyHere_reachable : Reachable host readyHere := by
  refine ⟨fresh, _, fresh_genesis, rehearse_run (fun call member => ?_) ?_⟩
  · obtain ⟨request, -, rfl⟩ := List.mem_map.mp member
    rfl
  · decide +kernel

theorem readyThere_reachable : Reachable otherHost readyThere := by
  have genesis : Genesis otherHost fresh := ⟨rfl, fun _ => by simp [fresh, amount]⟩
  refine ⟨fresh, _, genesis, rehearse_run (fun call member => ?_) ?_⟩
  · obtain ⟨request, -, rfl⟩ := List.mem_map.mp member
    rfl
  · decide +kernel

theorem same_relayers (pubkey : BytesN 32) :
    readyThere.isRelayer pubkey = readyHere.isRelayer pubkey := by
  rfl

end Rehearsal

/-- A payout that is accepted here is turned down there exactly when it cannot be made
there. -/
theorem replayed_iff_payable_rehearsed :
    succeeds Rehearsal.otherEnv (Rehearsal.attestedBy7 Rehearsal.firstDeposit)
        Rehearsal.readyThere = false ↔
      ¬ (Rehearsal.readyThere.begin.OpenToPayout Rehearsal.otherEnv 1 11 (Rehearsal.address 4)
          (Rehearsal.address 3) (Rehearsal.amount 1000) ∧
        Rehearsal.readyThere.begin.relayerThreshold.toNat ≤ 1 ∧
        Rehearsal.readyThere.begin.CanPayOut Rehearsal.otherEnv (Rehearsal.address 4)
          (Rehearsal.address 3) (Rehearsal.amount 1000)) := by
  have distinct : Rehearsal.host.contractAddress ≠ Rehearsal.otherHost.contractAddress ∨
    Rehearsal.host.networkId ≠ Rehearsal.otherHost.networkId := .inl (by decide)
  have accepted : succeeds (Rehearsal.env 0) (Rehearsal.attestedBy7 Rehearsal.firstDeposit)
    Rehearsal.readyHere = true := by decide +kernel
  exact replayed_iff_payable distinct ⟨rfl, rfl, rfl, rfl⟩ Rehearsal.readyHere_reachable
    Rehearsal.readyThere_reachable Rehearsal.same_relayers rfl rfl accepted

/-- Two instances with different addresses and the same relayers accept the same
signatures, although no signature is for two messages, and the hash tells the two addresses
apart. -/
theorem payout_replayed : ∃ (host other : Host) (w v : World) (env env' : Env) (payout : Request),
    host.contractAddress ≠ other.contractAddress ∧ host.SamePrimitives other ∧
      (∀ pubkey message message' signature, host.verifyStrict pubkey message signature = true →
        host.verifyStrict pubkey message' signature = true → message = message') ∧
      host.addressHash host.contractAddress ≠ host.addressHash other.contractAddress ∧
      Reachable host w ∧ Reachable other v ∧
      (∀ pubkey, v.isRelayer pubkey = w.isRelayer pubkey) ∧
      env.host = host ∧ env'.host = other ∧ payout.attestation?.isSome = true ∧
      succeeds env payout w = true ∧ succeeds env' payout v = true := by
  have bound : ∀ pubkey message message' signature,
      Rehearsal.host.verifyStrict pubkey message signature = true →
        Rehearsal.host.verifyStrict pubkey message' signature = true → message = message' := by
    intro pubkey message message' signature first second
    exact Rehearsal.sign_injective pubkey
      ((of_decide_eq_true first).symm.trans (of_decide_eq_true second))
  exact ⟨Rehearsal.host, Rehearsal.otherHost, Rehearsal.readyHere, Rehearsal.readyThere,
    Rehearsal.env 0, Rehearsal.otherEnv, Rehearsal.attestedBy7 Rehearsal.firstDeposit, by decide,
    ⟨rfl, rfl, rfl, rfl⟩, bound, by decide +kernel, Rehearsal.readyHere_reachable,
    Rehearsal.readyThere_reachable, Rehearsal.same_relayers, rfl, rfl, rfl, by decide +kernel,
    by decide +kernel⟩

end OnboardingBridge.Contract
