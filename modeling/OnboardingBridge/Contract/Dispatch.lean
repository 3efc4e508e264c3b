import OnboardingBridge.Contract.Custody
import OnboardingBridge.Contract.SignedFunding

/-!
# Calls of the contract

A request names an entry point that changes the contract and carries its
arguments; `execute` runs it. The entry points that only read are left out.
-/

set_option autoImplicit false

namespace OnboardingBridge.Contract

open Foundations Foundations.Tx

/-- A call of an entry point, in the order of the source. -/
inductive Request where
  | initializeContract (admin feeCollector : Address) (feeBps : UInt32) (nonce : Option UInt64)
  | initializeWithWasmHash (admin feeCollector : Address) (feeBps : UInt32)
      (nonce : Option UInt64) (wasmHash : BytesN 32)
  | fundCAddress (source target asset : Address) (amount : I128)
      (nonce deadline : Option UInt64)
  | batchFundCAddress (source : Address) (targets : List Address) (amounts : List I128)
      (asset : Address) (nonce deadline : Option UInt64)
  | setFeeBps (newFeeBps : UInt32) (nonce : Option UInt64)
  | setSourceDailyLimit (source asset : Address) (limitAmount : I128) (nonce : Option UInt64)
  | setAssetFeeCap (asset : Address) (maxFee : UInt32) (nonce : Option UInt64)
  | setFeeCollector (newFeeCollector : Address) (nonce : Option UInt64)
  | proposeNewFeeCollector (newCollector : Address) (nonce : Option UInt64)
  | acceptFeeCollector
  | setAdmin (newAdmin : Address) (nonce : Option UInt64)
  | proposeNewAdmin (newAdmin : Address) (nonce : Option UInt64)
  | acceptAdmin
  | clearPendingAdmin (nonce : Option UInt64)
  | clearPendingFeeCollector (nonce : Option UInt64)
  | setMinimumAmount (amount : I128) (nonce : Option UInt64)
  | withdrawFees (asset : Address) (amount : I128) (nonce : Option UInt64)
  | setMaxWithdrawPerTx (amount : I128) (nonce : Option UInt64)
  | setReferralRate (bps : UInt32) (nonce : Option UInt64)
  | fundCAddressWithReferral (source target asset : Address) (amount : I128)
      (referrer : Option Address) (nonce deadline : Option UInt64)
  | pause (nonce : Option UInt64)
  | unpause (nonce : Option UInt64)
  | upgrade (newWasmHash : BytesN 32) (nonce : Option UInt64)
  | scheduleUpgrade (newWasmHash : BytesN 32) (nonce : Option UInt64)
  | executeUpgrade (expectedHash : BytesN 32) (nonce : Option UInt64)
  | cancelUpgrade (nonce : Option UInt64)
  | emergencyMigrate (newContract : Address) (migrateData : Bool) (nonce : Option UInt64)
  | addToBlocklist (address : Address) (nonce : Option UInt64)
  | removeFromBlocklist (address : Address) (nonce : Option UInt64)
  | addToAllowlist (address : Address) (nonce : Option UInt64)
  | removeFromAllowlist (address : Address) (nonce : Option UInt64)
  | setAllowlistMode (enabled : Bool) (nonce : Option UInt64)
  | reclaimTokens (asset : Address) (amount : I128) (destination : Address)
      (nonce : Option UInt64)
  | addAsset (asset : Address) (nonce : Option UInt64)
  | removeAsset (asset : Address) (nonce : Option UInt64)
  | addSwapPool (pool : Address) (nonce : Option UInt64)
  | removeSwapPool (pool : Address) (nonce : Option UInt64)
  | setLoyaltyToken (token : Address) (amountPerFund : I128) (nonce : Option UInt64)
  | setFeeTiers (tiers : List FeeTier) (nonce : Option UInt64)
  | fundCrosschainReserve (asset : Address) (amount : I128)
  | withdrawCrosschainReserve (asset : Address) (amount : I128)
  | fundCAddressCrosschain (chainId : UInt32) (txHash : BytesN 32) (target asset : Address)
      (amount : I128) (sigs : List RelayerSig)
  | addRelayer (pubkey : BytesN 32) (nonce : Option UInt64)
  | removeRelayer (pubkey : BytesN 32) (nonce : Option UInt64)
  | setRelayerThreshold (threshold : UInt32) (nonce : Option UInt64)
  | fundCAddressTimelocked (source target asset : Address) (amount : I128)
      (releaseTime cliffTime : UInt64) (nonce deadline : Option UInt64)
  | claimTimelocked (id : UInt64)
  | extendInstanceTtl (ttl : UInt32) (nonce : Option UInt64)
  | extendPersistentTtl (keyAsset : Address) (ttl : UInt32) (nonce : Option UInt64)
  | extendTimelockTtl (id : UInt64) (ttl : UInt32)
  | extendCommitmentTtl (id : UInt64) (ttl : UInt32)
  | extendRelayerTtl (pubkey : BytesN 32) (ttl : UInt32)
  | extendSourcePersistentTtl (source asset : Address) (ttl : UInt32) (nonce : Option UInt64)
  | setMaxInstanceTtl (ttl : UInt32) (nonce : Option UInt64)
  | setMaxPersistentTtl (ttl : UInt32) (nonce : Option UInt64)
  | verifyAuthEntry (source : Address) (nonce : UInt64)
      (validAfterLedger validBeforeLedger : UInt32)
  | commitFund (source target asset : Address) (amountHash : BytesN 32) (deadline : UInt64)
  | revealFund (commitmentId : UInt64) (source target asset : Address) (amount : I128)
      (nonce : UInt64)
  | cancelCommitment (commitmentId : UInt64)
  | fundCAddressWithSwap (source target sourceAsset targetAsset : Address)
      (sourceAmount minTargetAmount : I128) (swapRoute : List Address)
      (nonce deadline : Option UInt64)
  | registerMetaSigner (source : Address) (pubkey : BytesN 32)
  | unregisterMetaSigner (source : Address)
  | executeMetaFund (params : MetaFundParams) (pubkey : BytesN 32) (signature : BytesN 64)

/-- What a call returns: nothing, an identifier or a ledger number. -/
inductive Reply where
  | done
  | id (value : UInt64)
  | ledger (value : UInt32)
deriving DecidableEq

/-- Run a part of a call and wrap what it returns. -/
def replying {α : Type} (body : Call α) (reply : α → Reply) : Call Reply := do
  let result ← body
  return reply result

theorem replying_ok {α : Type} {body : Call α} {reply : α → Reply} {w w' : World} {r : Reply} :
    (replying body reply).run w = .ok (r, w') ↔
      ∃ result, body.run w = .ok (result, w') ∧ r = reply result := by
  simp only [replying, run_bind_ok, run_pure_ok]
  constructor
  · rintro ⟨result, _, ran, rfl, rfl⟩
    exact ⟨result, ran, rfl⟩
  · rintro ⟨result, ran, rfl⟩
    exact ⟨result, w', ran, rfl, rfl⟩

/-- The transaction a request runs. -/
def execute (env : Env) : Request → Call Reply
  | .initializeContract admin feeCollector feeBps nonce =>
      replying (initializeContract env admin feeCollector feeBps nonce) fun _ => .done
  | .initializeWithWasmHash admin feeCollector feeBps nonce wasmHash =>
      replying (initializeWithWasmHash env admin feeCollector feeBps nonce wasmHash) fun _ => .done
  | .fundCAddress source target asset amount nonce deadline =>
      replying (fundCAddress env source target asset amount nonce deadline) fun _ => .done
  | .batchFundCAddress source targets amounts asset nonce deadline =>
      replying (batchFundCAddress env source targets amounts asset nonce deadline) fun _ => .done
  | .setFeeBps newFeeBps nonce => replying (setFeeBps env newFeeBps nonce) fun _ => .done
  | .setSourceDailyLimit source asset limitAmount nonce =>
      replying (setSourceDailyLimit env source asset limitAmount nonce) fun _ => .done
  | .setAssetFeeCap asset maxFee nonce =>
      replying (setAssetFeeCap env asset maxFee nonce) fun _ => .done
  | .setFeeCollector newFeeCollector nonce =>
      replying (setFeeCollector env newFeeCollector nonce) fun _ => .done
  | .proposeNewFeeCollector newCollector nonce =>
      replying (proposeNewFeeCollector env newCollector nonce) fun _ => .done
  | .acceptFeeCollector => replying (acceptFeeCollector env) fun _ => .done
  | .setAdmin newAdmin nonce => replying (setAdmin env newAdmin nonce) fun _ => .done
  | .proposeNewAdmin newAdmin nonce =>
      replying (proposeNewAdmin env newAdmin nonce) fun _ => .done
  | .acceptAdmin => replying (acceptAdmin env) fun _ => .done
  | .clearPendingAdmin nonce => replying (clearPendingAdmin env nonce) fun _ => .done
  | .clearPendingFeeCollector nonce =>
      replying (clearPendingFeeCollector env nonce) fun _ => .done
  | .setMinimumAmount amount nonce => replying (setMinimumAmount env amount nonce) fun _ => .done
  | .withdrawFees asset amount nonce =>
      replying (withdrawFees env asset amount nonce) fun _ => .done
  | .setMaxWithdrawPerTx amount nonce =>
      replying (setMaxWithdrawPerTx env amount nonce) fun _ => .done
  | .setReferralRate bps nonce => replying (setReferralRate env bps nonce) fun _ => .done
  | .fundCAddressWithReferral source target asset amount referrer nonce deadline =>
      replying (fundCAddressWithReferral env source target asset amount referrer nonce deadline)
        fun _ => .done
  | .pause nonce => replying (pause env nonce) fun _ => .done
  | .unpause nonce => replying (unpause env nonce) fun _ => .done
  | .upgrade newWasmHash nonce => replying (upgrade env newWasmHash nonce) fun _ => .done
  | .scheduleUpgrade newWasmHash nonce =>
      replying (scheduleUpgrade env newWasmHash nonce) .ledger
  | .executeUpgrade expectedHash nonce =>
      replying (executeUpgrade env expectedHash nonce) fun _ => .done
  | .cancelUpgrade nonce => replying (cancelUpgrade env nonce) fun _ => .done
  | .emergencyMigrate newContract migrateData nonce =>
      replying (emergencyMigrate env newContract migrateData nonce) fun _ => .done
  | .addToBlocklist address nonce => replying (addToBlocklist env address nonce) fun _ => .done
  | .removeFromBlocklist address nonce =>
      replying (removeFromBlocklist env address nonce) fun _ => .done
  | .addToAllowlist address nonce => replying (addToAllowlist env address nonce) fun _ => .done
  | .removeFromAllowlist address nonce =>
      replying (removeFromAllowlist env address nonce) fun _ => .done
  | .setAllowlistMode enabled nonce =>
      replying (setAllowlistMode env enabled nonce) fun _ => .done
  | .reclaimTokens asset amount destination nonce =>
      replying (reclaimTokens env asset amount destination nonce) fun _ => .done
  | .addAsset asset nonce => replying (addAsset env asset nonce) fun _ => .done
  | .removeAsset asset nonce => replying (removeAsset env asset nonce) fun _ => .done
  | .addSwapPool pool nonce => replying (addSwapPool env pool nonce) fun _ => .done
  | .removeSwapPool pool nonce => replying (removeSwapPool env pool nonce) fun _ => .done
  | .setLoyaltyToken token amountPerFund nonce =>
      replying (setLoyaltyToken env token amountPerFund nonce) fun _ => .done
  | .setFeeTiers tiers nonce => replying (setFeeTiers env tiers nonce) fun _ => .done
  | .fundCrosschainReserve asset amount =>
      replying (fundCrosschainReserve env asset amount) fun _ => .done
  | .withdrawCrosschainReserve asset amount =>
      replying (withdrawCrosschainReserve env asset amount) fun _ => .done
  | .fundCAddressCrosschain chainId txHash target asset amount sigs =>
      replying (fundCAddressCrosschain env chainId txHash target asset amount sigs) fun _ => .done
  | .addRelayer pubkey nonce => replying (addRelayer env pubkey nonce) fun _ => .done
  | .removeRelayer pubkey nonce => replying (removeRelayer env pubkey nonce) fun _ => .done
  | .setRelayerThreshold threshold nonce =>
      replying (setRelayerThreshold env threshold nonce) fun _ => .done
  | .fundCAddressTimelocked source target asset amount releaseTime cliffTime nonce deadline =>
      replying (fundCAddressTimelocked env source target asset amount releaseTime cliffTime nonce
        deadline) .id
  | .claimTimelocked id => replying (claimTimelocked env id) fun _ => .done
  | .extendInstanceTtl ttl nonce => replying (extendInstanceTtl env ttl nonce) fun _ => .done
  | .extendPersistentTtl keyAsset ttl nonce =>
      replying (extendPersistentTtl env keyAsset ttl nonce) fun _ => .done
  | .extendTimelockTtl id ttl => replying (extendTimelockTtl id ttl) fun _ => .done
  | .extendCommitmentTtl id ttl => replying (extendCommitmentTtl id ttl) fun _ => .done
  | .extendRelayerTtl pubkey ttl => replying (extendRelayerTtl pubkey ttl) fun _ => .done
  | .extendSourcePersistentTtl source asset ttl nonce =>
      replying (extendSourcePersistentTtl env source asset ttl nonce) fun _ => .done
  | .setMaxInstanceTtl ttl nonce => replying (setMaxInstanceTtl env ttl nonce) fun _ => .done
  | .setMaxPersistentTtl ttl nonce =>
      replying (setMaxPersistentTtl env ttl nonce) fun _ => .done
  | .verifyAuthEntry source nonce validAfterLedger validBeforeLedger =>
      replying (verifyAuthEntry env source nonce validAfterLedger validBeforeLedger)
        fun _ => .done
  | .commitFund source target asset amountHash deadline =>
      replying (commitFund env source target asset amountHash deadline) .id
  | .revealFund commitmentId source target asset amount nonce =>
      replying (revealFund env commitmentId source target asset amount nonce) fun _ => .done
  | .cancelCommitment commitmentId =>
      replying (cancelCommitment env commitmentId) fun _ => .done
  | .fundCAddressWithSwap source target sourceAsset targetAsset sourceAmount minTargetAmount
      swapRoute nonce deadline =>
      replying (fundCAddressWithSwap env source target sourceAsset targetAsset sourceAmount
        minTargetAmount swapRoute nonce deadline) fun _ => .done
  | .registerMetaSigner source pubkey =>
      replying (registerMetaSigner env source pubkey) fun _ => .done
  | .unregisterMetaSigner source => replying (unregisterMetaSigner env source) fun _ => .done
  | .executeMetaFund params pubkey signature =>
      replying (executeMetaFund env params pubkey signature) fun _ => .done

end OnboardingBridge.Contract
