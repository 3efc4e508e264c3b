import OnboardingBridge.Contract.Settlement

/-!
# What a cross-chain payout needs

A payout succeeds exactly when its gates are open, its signatures attest the
payload, there are enough of them, and the payout itself goes through
(`fundCAddressCrosschain_ok`). The gates and the payout do not look at the
signatures.
-/

set_option autoImplicit false

namespace OnboardingBridge.Contract

open Foundations Foundations.Tx

/-! ## Signatures -/

/-- Each signature is valid under the key of a registered relayer, and no key
signs twice. -/
structure Attested (host : Host) (w : World) (payloadHash : BytesN 32) (sigs : List RelayerSig) :
    Prop where
  registered : ∀ sig ∈ sigs, w.isRelayer sig.pubkey = true
  signed : ∀ sig ∈ sigs, host.verifyingKey sig.pubkey = true ∧
    host.verifyStrict sig.pubkey payloadHash sig.signature = true
  distinct : (sigs.map RelayerSig.pubkey).Nodup

theorem verifySignature_ok {env : Env} {pubkey message : BytesN 32} {signature : BytesN 64}
    {w w' : World} {u : Unit} :
    (verifySignature env pubkey message signature).run w = .ok (u, w') ↔
      (env.host.verifyingKey pubkey = true ∧
        env.host.verifyStrict pubkey message signature = true) ∧ w' = w := by
  rw [verifySignature, run_rejectIf_bind_ok, run_rejectIf_ok, Bool.not_eq_false, Bool.not_eq_false,
    and_assoc]

/-- The loop accepts the signatures that attest the payload with keys not seen
before, and returns all keys in order. -/
theorem verifyRelayerSigs_ok {env : Env} {payloadHash : BytesN 32} {sigs : List RelayerSig}
    {seen seen' : List (BytesN 32)} {w w' : World} :
    (verifyRelayerSigs env payloadHash seen sigs).run w = .ok (seen', w') ↔
      (Attested env.host w payloadHash sigs ∧ (∀ sig ∈ sigs, sig.pubkey ∉ seen) ∧
        seen' = seen ++ sigs.map RelayerSig.pubkey) ∧ w' = w := by
  induction sigs generalizing seen w with
  | nil =>
      rw [verifyRelayerSigs, run_pure_ok]
      constructor
      · rintro ⟨rfl, rfl⟩
        exact ⟨⟨⟨by simp, by simp, by simp⟩, by simp, by simp⟩, rfl⟩
      · rintro ⟨⟨-, -, rfl⟩, rfl⟩
        exact ⟨by simp, rfl⟩
  | cons sig rest ih =>
      rw [verifyRelayerSigs, run_read_bind, run_rejectIf_bind_ok, run_rejectIf_bind_ok,
        run_bind_ok]
      simp only [verifySignature_ok, ih, Bool.not_eq_false]
      constructor
      · rintro ⟨registered, unseen, _, _, ⟨valid, rfl⟩, ⟨attested, later, rfl⟩, rfl⟩
        have distinct : sig.pubkey ∉ rest.map RelayerSig.pubkey := by
          intro member
          obtain ⟨other, member, same⟩ := List.mem_map.mp member
          exact later other member (by simp [same])
        refine ⟨⟨⟨?_, ?_, ?_⟩, ?_, by simp⟩, rfl⟩
        · exact List.forall_mem_cons.mpr ⟨registered, attested.registered⟩
        · exact List.forall_mem_cons.mpr ⟨valid, attested.signed⟩
        · exact List.nodup_cons.mpr ⟨distinct, attested.distinct⟩
        · refine List.forall_mem_cons.mpr ⟨unseen, fun other member seen => ?_⟩
          exact later other member (List.mem_append_left _ seen)
      · rintro ⟨⟨⟨registered, signed, distinct⟩, unseen, rfl⟩, rfl⟩
        obtain ⟨registered, registeredRest⟩ := List.forall_mem_cons.mp registered
        obtain ⟨valid, signedRest⟩ := List.forall_mem_cons.mp signed
        obtain ⟨distinct, distinctRest⟩ := List.nodup_cons.mp distinct
        obtain ⟨unseen, unseenRest⟩ := List.forall_mem_cons.mp unseen
        refine ⟨registered, unseen, (), _, ⟨valid, rfl⟩,
          ⟨⟨registeredRest, signedRest, distinctRest⟩, fun other member => ?_, by simp⟩, rfl⟩
        intro seen
        rcases List.mem_append.mp seen with seen | same
        · exact unseenRest other member seen
        · exact distinct (List.mem_map.mpr ⟨other, member, List.mem_singleton.mp same⟩)

/-! ## The payout -/

/-- The gates of a payout that come before its signatures. -/
structure World.OpenToPayout (w : World) (env : Env) (chainId : UInt32) (txHash : BytesN 32)
    (target asset : Address) (amount : I128) : Prop where
  idle : (w.store .entered).getD false = false
  initialized : w.initialized = true
  running : w.running
  enough : ¬ belowMinimum amount w.minimumAmount
  admitted : w.admits target = true
  whitelisted : w.isAssetWhitelisted asset = true
  governed : ¬ (w.relayerThreshold = 0 ∨ w.relayerCount = 0)
  fresh : w.nonceUsed (env.host.crosschainNonce chainId txHash) = false
  targetFits : ¬ strkeyTooLong env target
  assetFits : ¬ strkeyTooLong env asset

/-- What a payout does after its signatures are accepted, step by step. -/
def PaidOut (env : Env) (chainId : UInt32) (txHash : BytesN 32) (target asset : Address)
    (amount : I128) (w w' : World) : Prop :=
  ∃ fee netAmount : I128, w.feeOf asset amount = some fee ∧
    netAmount.val = amount.val - fee.val ∧ ∃ reserved paid counted rewarded,
      (decrementCrosschainReserve asset netAmount).run (w.put .entered true)
        = .ok ((), reserved) ∧
      (onlyIf (0 < netAmount.val) (transfer env asset env.self target netAmount)).run
        (reserved.put (.crossChainNonce (env.host.crosschainNonce chainId txHash)) true)
        = .ok ((), paid) ∧
      (updateAssetCountersSplit asset 0 0 netAmount).run paid = .ok ((), counted) ∧
      (mintLoyaltyTokens env target).run counted = .ok ((), rewarded) ∧
      w' = (rewarded.emit (.crossChainFunded target chainId txHash amount fee asset)).erase .entered

theorem fundCAddressCrosschain_ok {env : Env} {chainId : UInt32} {txHash : BytesN 32}
    {target asset : Address} {amount : I128} {sigs : List RelayerSig} {w w' : World} {u : Unit} :
    (fundCAddressCrosschain env chainId txHash target asset amount sigs).run w = .ok (u, w') ↔
      w.OpenToPayout env chainId txHash target asset amount ∧
      Attested env.host w (env.host.crosschainPayloadHash chainId txHash target asset amount)
        sigs ∧
      w.relayerThreshold.toNat ≤ sigs.length ∧
      PaidOut env chainId txHash target asset amount w w' := by
  have entered := enter_recorded env.self w
  have initialized := entered.initialized
  have running := entered.running
  have minimum := entered.minimumAmount
  have admitted := entered.admits
  have configured := entered.bridgeConfig?
  have whitelisted := entered.isAssetWhitelisted
  have threshold := entered.relayerThreshold
  have count := entered.relayerCount
  have used : ∀ nonce, (w.put .entered true).nonceUsed nonce = w.nonceUsed nonce := by
    simp [World.nonceUsed]
  have attested (hash : BytesN 32) : Attested env.host (w.put .entered true) hash sigs ↔
      Attested env.host w hash sigs := by
    constructor
    · rintro ⟨registered, signed, distinct⟩
      exact ⟨fun sig member => entered.isRelayer sig.pubkey ▸ registered sig member, signed,
        distinct⟩
    · rintro ⟨registered, signed, distinct⟩
      exact ⟨fun sig member => (entered.isRelayer sig.pubkey).trans (registered sig member), signed,
        distinct⟩
  have feeOf := entered.feeOf
  rw [fundCAddressCrosschain, nonReentrant_ok_iff]
  simp only [run_view_bind_ok checkInitialized_ok, run_view_bind_ok checkNotPaused_ok,
    run_read_bind, run_rejectIf_bind_ok, run_view_bind_ok checkAccess_ok,
    run_view_bind_ok checkAssetWhitelisted_ok, run_view_bind_ok verifyRelayerSigs_ok,
    charged_untiered_ok, markNonceUsed, save, publish, initialized, running, minimum, admitted,
    configured, whitelisted, threshold, count, used, attested, feeOf]
  simp only [run_bind_ok, run_modify_ok]
  constructor
  · rintro ⟨idle, _, ⟨_, opened, _, runs, enough, _, ⟨admits, -⟩, _, listed, governed, fresh,
      targetFits, assetFits, _, ⟨attests, -, rfl⟩, reached, fee, netAmount, charged, net, _,
      reserved, decremented, _, _, rfl, _, paid, payment, _, counted, updated, _, rewarded,
      minted, rfl⟩, rfl⟩
    refine ⟨⟨idle, opened, runs, enough, admits, listed, governed, Bool.not_eq_true _ ▸ fresh,
      targetFits, assetFits⟩, attests, ?_, fee, netAmount, charged, net, reserved, paid, counted,
      rewarded, decremented, payment, updated, minted, rfl⟩
    simpa using reached
  · rintro ⟨gates, attests, reached, fee, netAmount, charged, net, reserved, paid, counted,
      rewarded, decremented, payment, updated, minted, rfl⟩
    obtain ⟨-, config, found, -⟩ := gates.running
    refine ⟨gates.idle, _, ⟨(), gates.initialized, (), gates.running, gates.enough, (),
      ⟨gates.admitted, config, found⟩, (), gates.whitelisted, gates.governed,
      by simp [gates.fresh], gates.targetFits, gates.assetFits, _, ⟨attests, by simp, rfl⟩, ?_,
      fee, netAmount, charged, net, (), reserved, decremented, (), _, rfl, (), paid, payment, (),
      counted, updated, (), rewarded, minted, rfl⟩, rfl⟩
    simpa using reached

end OnboardingBridge.Contract
