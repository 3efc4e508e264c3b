import Mathlib.Data.Set.Insert
import OnboardingBridge.Contract.Dispatch

/-!
# What a call leaves alone

Every request has a footprint: the storage keys it may write, and whether it
may move tokens. A successful call changes no key outside its footprint
(`execute_frame`), and a call that may not move tokens calls no token contract
and leaves every ledger as it was.

A part of a call touches a set of keys when its successful runs change no other
key. The lemmas about the private helpers are tagged for `grind`, and the footprint of
an entry point follows the text of its definition.
-/

set_option autoImplicit false

namespace OnboardingBridge.Contract

open Foundations Foundations.Tx

/-- Whether an event reports a loyalty reward that was not paid. -/
abbrev Event.isLoyaltySkip : Event → Bool
  | .loyaltyMintSkipped .. => true
  | _ => false

/-- The rewards the current call has skipped so far. -/
def World.loyaltySkips (w : World) : List Event := w.events.filter Event.isLoyaltySkip

/-- The second world differs from the first at the given keys only, in its code only
when the key that records the code is among them, and in its tokens, token calls
and skipped rewards only when tokens may move. -/
structure Frame (keys : Set DataKey) (moves : Prop) (w w' : World) : Prop where
  store : ∀ key, key ∉ keys → w'.store key = w.store key
  wasm : .currentWasmHash ∉ keys → w'.wasm = w.wasm
  tokens : ¬ moves → w'.tokens = w.tokens
  invocations : ¬ moves → w'.invocations = w.invocations
  loyaltySkips : ¬ moves → w'.loyaltySkips = w.loyaltySkips

instance (keys : Set DataKey) (moves : Prop) : IsPreorder World (Frame keys moves) where
  refl _ := ⟨fun _ _ => rfl, fun _ => rfl, fun _ => rfl, fun _ => rfl, fun _ => rfl⟩
  trans _ _ _ first second :=
    ⟨fun key outside => (second.store key outside).trans (first.store key outside),
      fun outside => (second.wasm outside).trans (first.wasm outside),
      fun still => (second.tokens still).trans (first.tokens still),
      fun still => (second.invocations still).trans (first.invocations still),
      fun still => (second.loyaltySkips still).trans (first.loyaltySkips still)⟩

/-- The successful runs of a part of a call stay within a frame. -/
abbrev Touches (keys : Set DataKey) (moves : Prop) {α : Type} (body : Call α) : Prop :=
  Preserves (Frame keys moves) body

/-- What stays within a frame stays within a wider one. -/
theorem Frame.widen {keys wider : Set DataKey} {moves : Prop} {w w' : World}
    (frame : Frame keys moves w w') (subset : keys ⊆ wider) : Frame wider moves w w' where
  store key outside := frame.store key fun inside => outside (subset inside)
  wasm outside := frame.wasm fun inside => outside (subset inside)
  tokens := frame.tokens
  invocations := frame.invocations
  loyaltySkips := frame.loyaltySkips

/-- A part of a call that stays within the frame so far may be passed over. -/
theorem Frame.skip {keys : Set DataKey} {moves : Prop} {w w' w'' : World} {α β : Type}
    {body : Call α} {rest : α → Call β} {b : β} {goal : Prop} (sofar : Frame keys moves w w')
    (ran : (body >>= rest).run w' = .ok (b, w'')) (touches : Touches keys moves body)
    (next : ∀ a t, Frame keys moves w t → (rest a).run t = .ok (b, w'') → goal) : goal := by
  obtain ⟨a, t, first, ran⟩ := run_bind_ok.mp ran
  exact next a t (trans_of (Frame keys moves) sofar (touches first)) ran

/-! ## The host's operations -/

section Helpers

variable {keys : Set DataKey} {moves : Prop}

@[simp, grind ←] theorem save_touches {key : DataKey} (value : key.Value) (inside : key ∈ keys) :
    Touches keys moves (save key value) := by
  refine Preserves.modify fun w =>
    ⟨fun other outside => ?_, fun _ => rfl, fun _ => rfl, fun _ => rfl, fun _ => rfl⟩
  have different : other ≠ key := fun same => outside (same ▸ inside)
  simp [different]

@[simp, grind ←] theorem remove_touches {key : DataKey} (inside : key ∈ keys) :
    Touches keys moves (remove key) := by
  refine Preserves.modify fun w =>
    ⟨fun other outside => ?_, fun _ => rfl, fun _ => rfl, fun _ => rfl, fun _ => rfl⟩
  have different : other ≠ key := fun same => outside (same ▸ inside)
  simp [different]

@[simp, grind ←] theorem publish_touches {event : Event} (plain : event.isLoyaltySkip = false) :
    Touches keys moves (publish event) :=
  Preserves.modify fun _ =>
    ⟨fun _ _ => rfl, fun _ => rfl, fun _ => rfl, fun _ => rfl,
      fun _ => by simp [World.loyaltySkips, plain]⟩

@[simp, grind ←] theorem updateWasm_touches (hash : BytesN 32) (inside : .currentWasmHash ∈ keys) :
    Touches keys moves (updateCurrentContractWasm hash) :=
  Preserves.modify fun _ =>
    ⟨fun _ _ => rfl, fun outside => absurd inside outside, fun _ => rfl, fun _ => rfl, fun _ => rfl⟩

@[grind ←] theorem requireAuth_touches (env : Env) (address : Address) :
    Touches keys moves (requireAuth env address) := by
  grind [requireAuth]

@[simp, grind ←] theorem transfer_touches (env : Env) (asset src dst : Address) (amount : I128) :
    Touches keys True (transfer env asset src dst amount) := by
  intro w _ w' ran
  obtain ⟨moved, -, rfl⟩ := transfer_ok ran
  exact ⟨fun _ _ => rfl, fun _ => rfl, by simp, by simp, by simp⟩

@[simp, grind ←] theorem transferFrom_touches (env : Env) (asset src dst : Address) (amount : I128) :
    Touches keys True (transferFrom env asset src dst amount) := by
  intro w _ w' ran
  obtain ⟨_, moved, -, -, -, rfl⟩ := transferFrom_ok ran
  exact ⟨fun _ _ => rfl, fun _ => rfl, by simp, by simp, by simp⟩

@[simp, grind ←] theorem invokeSwap_touches (env : Env) (pool : Address) (minAmountOut : I128) :
    Touches keys True (invokeSwap env pool minAmountOut) := by
  intro w amountOut w' ran
  obtain ⟨-, swapped, -, rfl⟩ := invokeSwap_ok ran
  exact ⟨fun _ _ => rfl, fun _ => rfl, by simp, by simp, by simp⟩

/-! ## The private helpers -/

@[simp, grind ←] theorem incrementU64_touches (n : UInt64) : Touches keys moves (incrementU64 n) := by
  grind [incrementU64]

@[simp, grind ←] theorem incrementU32_touches (n : UInt32) : Touches keys moves (incrementU32 n) := by
  grind [incrementU32]

@[simp, grind ←] theorem readBridgeConfig_touches : Touches keys moves readBridgeConfig := by
  grind [readBridgeConfig]

@[simp, grind ←] theorem readConfig_touches : Touches keys moves readConfig := by
  grind [readConfig]

@[simp, grind ←] theorem readAdmin_touches : Touches keys moves readAdmin := by
  grind [readAdmin]

@[simp, grind ←] theorem readFeeCollector_touches : Touches keys moves readFeeCollector := by
  grind [readFeeCollector]

@[grind ←] theorem readFeeBps_touches : Touches keys moves readFeeBps := by
  grind [readFeeBps]

@[simp, grind ←] theorem allowlistMode_touches : Touches keys moves allowlistMode := by
  grind [allowlistMode]

@[simp, grind ←] theorem readPaused_touches : Touches keys moves readPaused := by
  grind [readPaused]

@[simp, grind ←] theorem saveConfig_touches (config : BridgeConfig) (inside : .bridgeConfig ∈ keys) :
    Touches keys moves (saveConfig config) := by
  grind [saveConfig]

@[simp, grind ←] theorem saveFeeBps_touches (feeBps : UInt32) (inside : .bridgeConfig ∈ keys) :
    Touches keys moves (saveFeeBps feeBps) := by
  grind [saveFeeBps]

@[simp, grind ←] theorem setPaused_touches (paused : Bool) (inside : .bridgeConfig ∈ keys) :
    Touches keys moves (setPaused paused) := by
  grind [setPaused]

@[simp, grind ←] theorem setAllowlistModeFlag_touches (enabled : Bool)
    (inside : .bridgeConfig ∈ keys) : Touches keys moves (setAllowlistModeFlag enabled) := by
  grind [setAllowlistModeFlag]

@[simp, grind ←] theorem saveAdmin_touches (admin : Address) (legacy : .admin ∈ keys)
    (inside : .bridgeConfig ∈ keys) : Touches keys moves (saveAdmin admin) := by
  refine Preserves.bind (save_touches _ legacy) fun _ => Preserves.bind (.read _) fun config => ?_
  cases config <;> grind

@[simp, grind ←] theorem saveFeeCollector_touches (feeCollector : Address) (legacy : .feeCollector ∈ keys)
    (inside : .bridgeConfig ∈ keys) : Touches keys moves (saveFeeCollector feeCollector) := by
  refine Preserves.bind (save_touches _ legacy) fun _ => Preserves.bind (.read _) fun config => ?_
  cases config <;> grind

@[simp, grind ←] theorem checkInitialized_touches : Touches keys moves checkInitialized := by
  grind [checkInitialized]

@[simp, grind ←] theorem checkNotDeactivated_touches : Touches keys moves checkNotDeactivated := by
  grind [checkNotDeactivated]

@[simp, grind ←] theorem checkNotPaused_touches : Touches keys moves checkNotPaused := by
  grind [checkNotPaused]

@[simp, grind ←] theorem checkRecoveryAllowed_touches : Touches keys moves checkRecoveryAllowed := by
  grind [checkRecoveryAllowed]

@[simp, grind ←] theorem accessError_touches (target : Address) :
    Touches keys moves (accessError target) := by
  grind [accessError]

@[simp, grind ←] theorem checkAccess_touches (target : Address) :
    Touches keys moves (checkAccess target) := by
  refine Preserves.bind (accessError_touches target) fun error => ?_
  cases error <;> grind

@[simp, grind ←] theorem checkAssetWhitelisted_touches (asset : Address) :
    Touches keys moves (checkAssetWhitelisted asset) := by
  grind [checkAssetWhitelisted]

@[grind ←] theorem checkPoolWhitelisted_touches (pool : Address) :
    Touches keys moves (checkPoolWhitelisted pool) := by
  grind [checkPoolWhitelisted]

@[simp, grind ←] theorem updateAssetCountersSplit_touches (asset : Address)
    (accruedFees totalFees bridged : I128) (inside : .assetStats asset ∈ keys) :
    Touches keys moves (updateAssetCountersSplit asset accruedFees totalFees bridged) := by
  grind [updateAssetCountersSplit]

@[simp, grind ←] theorem updateAssetCounters_touches (asset : Address) (fees bridged : I128)
    (inside : .assetStats asset ∈ keys) :
    Touches keys moves (updateAssetCounters asset fees bridged) := by
  grind [updateAssetCounters]

@[simp, grind ←] theorem readAccruedFees_touches (asset : Address) :
    Touches keys moves (readAccruedFees asset) := by
  grind [readAccruedFees]

@[simp, grind ←] theorem incrementLockedTimelock_touches (asset : Address) (amount : I128)
    (inside : .assetStats asset ∈ keys) :
    Touches keys moves (incrementLockedTimelock asset amount) := by
  grind [incrementLockedTimelock]

@[simp, grind ←] theorem decrementLockedTimelock_touches (asset : Address) (amount : I128)
    (inside : .assetStats asset ∈ keys) :
    Touches keys moves (decrementLockedTimelock asset amount) := by
  grind [decrementLockedTimelock]

@[simp, grind ←] theorem decrementAccruedFees_touches (asset : Address) (amount : I128)
    (inside : .assetStats asset ∈ keys) :
    Touches keys moves (decrementAccruedFees asset amount) := by
  grind [decrementAccruedFees]

@[simp, grind ←] theorem incrementCrosschainReserve_touches (asset : Address) (amount : I128)
    (inside : .crossChainReserve asset ∈ keys) :
    Touches keys moves (incrementCrosschainReserve asset amount) := by
  grind [incrementCrosschainReserve]

@[simp, grind ←] theorem decrementCrosschainReserve_touches (asset : Address) (amount : I128)
    (inside : .crossChainReserve asset ∈ keys) :
    Touches keys moves (decrementCrosschainReserve asset amount) := by
  grind [decrementCrosschainReserve]

@[simp, grind ←] theorem incrementUserDeposit_touches (source asset : Address) (amount : I128)
    (inside : .userDeposit source asset ∈ keys) :
    Touches keys moves (incrementUserDeposit source asset amount) := by
  grind [incrementUserDeposit]

@[simp, grind ←] theorem incrementSourceBridgedVolume_touches (source asset : Address) (amount : I128)
    (inside : .sourceBridgedVolume source asset ∈ keys) :
    Touches keys moves (incrementSourceBridgedVolume source asset amount) := by
  grind [incrementSourceBridgedVolume]

@[simp, grind ←] theorem consumeNonce_touches (caller : Address) (nonce : Option UInt64)
    (inside : .nonce caller ∈ keys) : Touches keys moves (consumeNonce caller nonce) := by
  cases nonce <;> grind [consumeNonce]

@[simp, grind ←] theorem markAuthNonceUsed_touches (source : Address) (nonce : UInt64)
    (used : .usedAuthNonce source nonce ∈ keys) (next : .authNonce source ∈ keys) :
    Touches keys moves (markAuthNonceUsed source nonce) := by
  grind [markAuthNonceUsed]

@[simp, grind ←] theorem consumeAuthNonce_touches (env : Env) (source : Address) (nonce : UInt64)
    (validAfterLedger validBeforeLedger : UInt32) (used : .usedAuthNonce source nonce ∈ keys)
    (next : .authNonce source ∈ keys) :
    Touches keys moves (consumeAuthNonce env source nonce validAfterLedger validBeforeLedger) := by
  unfold consumeAuthNonce
  repeat' with_reducible refine Preserves.bind ?_ fun _ => ?_
  all_goals simp [used, next]

@[simp, grind ←] theorem authorizeAdmin_touches (env : Env) (nonce : Option UInt64)
    (inside : ∀ caller, .nonce caller ∈ keys) :
    Touches keys moves (authorizeAdmin env nonce) := by
  grind [authorizeAdmin]

@[simp, grind ←] theorem checkDailyLimit_touches (env : Env) (source asset : Address) (amount : I128)
    (inside : .dailyUsage source asset (currentDay env) ∈ keys) :
    Touches keys moves (checkDailyLimit env source asset amount) := by
  grind [checkDailyLimit]

@[simp, grind ←] theorem getEffectiveFeeBps_touches (asset : Address) (globalFeeBps : UInt32) :
    Touches keys moves (getEffectiveFeeBps asset globalFeeBps) := by
  grind [getEffectiveFeeBps]

@[simp, grind ←] theorem getTieredFeeBps_touches (source asset : Address) (fallbackBps : UInt32) :
    Touches keys moves (getTieredFeeBps source asset fallbackBps) := by
  refine Preserves.bind (.read _) fun tiers => Preserves.bind (.read _) fun volume => ?_
  cases tiers.bind (·.find? (·.contains volume)) <;> grind

@[simp, grind ←] theorem mintLoyaltyTokens_touches (env : Env) (recipient : Address) :
    Touches keys True (mintLoyaltyTokens env recipient) := by
  have reports (event : Event) : Touches keys True (publish event) :=
    Preserves.modify fun _ => ⟨fun _ _ => rfl, fun _ => rfl, by simp, by simp, by simp⟩
  refine Preserves.bind (.read _) fun loyaltyToken => ?_
  cases loyaltyToken <;> grind

@[simp, grind ←] theorem nextTimelockId_touches (inside : .timelockId ∈ keys) :
    Touches keys moves nextTimelockId := by
  grind [nextTimelockId]

@[simp, grind ←] theorem nextCommitmentId_touches (inside : .commitmentId ∈ keys) :
    Touches keys moves nextCommitmentId := by
  grind [nextCommitmentId]

@[simp, grind ←] theorem registerRelayer_touches (pubkey : BytesN 32) (entry : .relayer pubkey ∈ keys)
    (set : .relayerSet ∈ keys) (count : .relayerCount ∈ keys) :
    Touches keys moves (registerRelayer pubkey) := by
  grind [registerRelayer]

@[simp, grind ←] theorem unregisterRelayer_touches (pubkey : BytesN 32) (entry : .relayer pubkey ∈ keys)
    (set : .relayerSet ∈ keys) (count : .relayerCount ∈ keys) :
    Touches keys moves (unregisterRelayer pubkey) := by
  grind [unregisterRelayer]

@[simp, grind ←] theorem nonReentrant_touches {α : Type} {body : Call α} (inside : .entered ∈ keys)
    (inner : Touches keys moves body) : Touches keys moves (nonReentrant body) := by
  grind [nonReentrant]

@[simp, grind ←] theorem replying_touches {α : Type} {body : Call α} {reply : α → Reply}
    (inner : Touches keys moves body) : Touches keys moves (replying body reply) := by
  grind [replying]

/-! ## Parts of entry points -/

@[grind ←] theorem validateAmounts_touches (minimum total : I128) (amounts : List I128) :
    Touches keys moves (validateAmounts minimum total amounts) := by
  induction amounts generalizing total with
  | nil => grind [validateAmounts]
  | cons amount rest ih => grind [validateAmounts]

@[simp, grind ←] theorem accessibleTotal_touches (total : I128) (entries : List (Address × I128)) :
    Touches keys moves (accessibleTotal total entries) := by
  induction entries generalizing total with
  | nil => grind [accessibleTotal]
  | cons entry rest ih => grind [accessibleTotal]

@[simp, grind ←] theorem deliverBatch_touches (env : Env) (source asset : Address)
    (effectiveFeeBps : UInt32) (progress : BatchProgress) (entries : List (Address × I128))
    (inside : .assetStats asset ∈ keys) :
    Touches keys True (deliverBatch env source asset effectiveFeeBps progress entries) := by
  induction entries generalizing progress with
  | nil => grind [deliverBatch]
  | cons entry rest ih =>
      refine Preserves.bind (accessError_touches _) fun error => Preserves.ite ?_ ?_
      · grind
      · grind

@[simp, grind ←] theorem payReferral_touches (env : Env) (source asset : Address) (fee : I128)
    (referrer : Option Address) : Touches keys True (payReferral env source asset fee referrer) := by
  cases referrer <;> grind [payReferral]

@[simp, grind ←] theorem checkReferrerAccess_touches (referrer : Option Address) :
    Touches keys moves (checkReferrerAccess referrer) := by
  cases referrer <;> grind [checkReferrerAccess]

@[simp, grind ←] theorem verifySignature_touches (env : Env) (pubkey message : BytesN 32)
    (signature : BytesN 64) : Touches keys moves (verifySignature env pubkey message signature) := by
  grind [verifySignature]

@[simp, grind ←] theorem verifyRelayerSigs_touches (env : Env) (payloadHash : BytesN 32)
    (seen : List (BytesN 32)) (sigs : List RelayerSig) :
    Touches keys moves (verifyRelayerSigs env payloadHash seen sigs) := by
  induction sigs generalizing seen with
  | nil => grind [verifyRelayerSigs]
  | cons sig rest ih => grind [verifyRelayerSigs]

@[simp, grind ←] theorem validateFeeTiers_touches (previousMax : Option I128) (tiers : List FeeTier) :
    Touches keys moves (validateFeeTiers previousMax tiers) := by
  induction tiers generalizing previousMax with
  | nil => grind [validateFeeTiers]
  | cons tier rest ih => grind [validateFeeTiers]

@[simp, grind ←] theorem publishMigrationData_touches : Touches keys moves publishMigrationData := by
  unfold publishMigrationData
  repeat' with_reducible refine Preserves.bind ?_ fun _ => ?_
  all_goals grind

@[simp, grind ←] theorem extendEntryTtl_touches (key : DataKey) (missing : BridgeError) (ttl : UInt32)
    (extended : UInt32 → Event) (inside : .entered ∈ keys)
    (plain : ∀ maxTtl, (extended maxTtl).isLoyaltySkip = false) :
    Touches keys moves (extendEntryTtl key missing ttl extended) := by
  grind [extendEntryTtl]

end Helpers

/-! ## The footprint of a request -/

/-- The daily usage counters of a source in an asset. -/
def dailyUsages (source asset : Address) : Set DataKey := Set.range (.dailyUsage source asset)

/-- The keys a request may write. The nonce an administrative request spends is
that of the admin, whoever that is. -/
def Request.writes : Request → Set DataKey
  | .initializeContract .. | .initializeWithWasmHash .. =>
      Set.range .nonce ∪
        {.bridgeConfig, .admin, .feeCollector, .feeBps, .currentWasmHash, .initialized, .entered}
  | .fundCAddress source _ asset _ _ _ | .batchFundCAddress source _ _ asset _ _ =>
      dailyUsages source asset ∪
        {.nonce source, .assetStats asset, .sourceBridgedVolume source asset, .entered}
  | .setFeeBps .. | .setAllowlistMode .. | .pause _ | .unpause _ =>
      Set.range .nonce ∪ {.bridgeConfig}
  | .setSourceDailyLimit source asset _ _ =>
      Set.range .nonce ∪ {.sourceDailyLimit source asset}
  | .setAssetFeeCap asset _ _ => Set.range .nonce ∪ {.assetFeeCap asset}
  | .setFeeCollector .. => Set.range .nonce ∪ {.feeCollector, .bridgeConfig, .entered}
  | .proposeNewFeeCollector .. | .clearPendingFeeCollector _ =>
      Set.range .nonce ∪ {.pendingFeeCollector, .entered}
  | .acceptFeeCollector => {.feeCollector, .bridgeConfig, .pendingFeeCollector, .entered}
  | .setAdmin .. => Set.range .nonce ∪ {.admin, .bridgeConfig, .entered}
  | .proposeNewAdmin .. | .clearPendingAdmin _ => Set.range .nonce ∪ {.pendingAdmin, .entered}
  | .acceptAdmin => {.admin, .bridgeConfig, .pendingAdmin, .entered}
  | .setMinimumAmount .. => Set.range .nonce ∪ {.minimumAmount}
  | .withdrawFees asset _ _ => Set.range .nonce ∪ {.assetStats asset}
  | .setMaxWithdrawPerTx .. => Set.range .nonce ∪ {.maxWithdrawPerTx}
  | .setReferralRate .. => Set.range .nonce ∪ {.referralRate}
  | .fundCAddressWithReferral source _ asset _ _ _ _ =>
      dailyUsages source asset ∪
        {.nonce source, .userDeposit source asset, .assetStats asset,
          .sourceBridgedVolume source asset, .entered}
  | .upgrade .. => Set.range .nonce ∪ {.currentWasmHash}
  | .scheduleUpgrade .. | .cancelUpgrade _ => Set.range .nonce ∪ {.pendingUpgrade, .entered}
  | .executeUpgrade .. => Set.range .nonce ∪ {.pendingUpgrade, .currentWasmHash}
  | .emergencyMigrate .. => Set.range .nonce ∪ {.deactivated}
  | .addToBlocklist address _ | .removeFromBlocklist address _ =>
      Set.range .nonce ∪ {.blocked address}
  | .addToAllowlist address _ | .removeFromAllowlist address _ =>
      Set.range .nonce ∪ {.allowlisted address}
  | .reclaimTokens .. => Set.range .nonce ∪ {.entered}
  | .addAsset .. | .removeAsset .. => Set.range .nonce ∪ {.assetWhitelist, .entered}
  | .addSwapPool .. | .removeSwapPool .. => Set.range .nonce ∪ {.poolWhitelist, .entered}
  | .setLoyaltyToken .. => Set.range .nonce ∪ {.loyaltyToken, .loyaltyAmountPerFund}
  | .setFeeTiers .. => Set.range .nonce ∪ {.feeTiers}
  | .fundCrosschainReserve asset _ | .withdrawCrosschainReserve asset _ =>
      {.crossChainReserve asset, .entered}
  | .fundCAddressCrosschain _ _ _ asset _ _ =>
      Set.range .crossChainNonce ∪ {.crossChainReserve asset, .assetStats asset, .entered}
  | .addRelayer pubkey _ =>
      Set.range .nonce ∪ {.relayer pubkey, .relayerSet, .relayerCount, .entered}
  | .removeRelayer pubkey _ => Set.range .nonce ∪ {.relayer pubkey, .relayerSet, .relayerCount}
  | .setRelayerThreshold .. => Set.range .nonce ∪ {.relayerThreshold}
  | .fundCAddressTimelocked source _ asset _ _ _ _ _ =>
      dailyUsages source asset ∪ Set.range .timelock ∪
        {.nonce source, .timelockId, .assetStats asset, .userDeposit source asset, .entered}
  | .claimTimelocked id => Set.range .assetStats ∪ {.timelock id, .entered}
  | .extendInstanceTtl .. | .extendPersistentTtl .. | .extendSourcePersistentTtl .. =>
      Set.range .nonce
  | .extendTimelockTtl .. | .extendCommitmentTtl .. | .extendRelayerTtl .. => {.entered}
  | .setMaxInstanceTtl .. => Set.range .nonce ∪ {.maxInstanceTtl}
  | .setMaxPersistentTtl .. => Set.range .nonce ∪ {.maxPersistentTtl}
  | .verifyAuthEntry source nonce _ _ => {.usedAuthNonce source nonce, .authNonce source}
  | .commitFund .. => Set.range .commitment ∪ {.commitmentId, .entered}
  | .revealFund commitmentId source _ asset _ _ =>
      dailyUsages source asset ∪
        {.commitment commitmentId, .assetStats asset, .sourceBridgedVolume source asset, .entered}
  | .cancelCommitment commitmentId => {.commitment commitmentId, .entered}
  | .fundCAddressWithSwap source _ sourceAsset targetAsset _ _ _ _ _ =>
      dailyUsages source sourceAsset ∪
        {.nonce source, .assetStats targetAsset, .sourceBridgedVolume source targetAsset, .entered}
  | .registerMetaSigner source _ | .unregisterMetaSigner source => {.metaSigner source, .entered}
  | .executeMetaFund params _ _ =>
      dailyUsages params.source params.asset ∪
        {.metaTxNonce params.source params.nonce, .userDeposit params.source params.asset,
          .assetStats params.asset, .sourceBridgedVolume params.source params.asset, .entered}

/-- The requests that may call a token contract. -/
def Request.movesTokens : Request → Prop
  | .fundCAddress .. | .batchFundCAddress .. | .withdrawFees .. | .fundCAddressWithReferral ..
  | .reclaimTokens .. | .fundCrosschainReserve .. | .withdrawCrosschainReserve ..
  | .fundCAddressCrosschain .. | .fundCAddressTimelocked .. | .claimTimelocked _
  | .revealFund .. | .fundCAddressWithSwap .. | .executeMetaFund .. => True
  | _ => False

/-- A funding call stays within its footprint. -/
theorem execute_funding_frame (env : Env) {request : Request} (moving : request.movesTokens) :
    Touches request.writes True (execute env request) := by
  cases request
  all_goals first | exact moving.elim | skip
  all_goals
    simp only [execute, Request.writes, fundCAddress, batchFundCAddress, withdrawFees,
      fundCAddressWithReferral, reclaimTokens, fundCrosschainReserve, withdrawCrosschainReserve,
      fundCAddressCrosschain, fundCAddressTimelocked, claimTimelocked, revealFund,
      fundCAddressWithSwap, executeMetaFund]
    refine replying_touches ?_
    repeat' first
      | with_reducible refine Preserves.bind ?_ fun _ => ?_
      | with_reducible refine nonReentrant_touches (by simp) ?_
  all_goals
    simp [dailyUsages, Preserves.ofExcept, requireAuth_touches, readFeeBps_touches,
      checkPoolWhitelisted_touches, validateAmounts_touches]

/-- An administrative call stays within its footprint and moves no tokens. -/
theorem execute_administration_frame (env : Env) {request : Request}
    (still : ¬ request.movesTokens) : Touches request.writes False (execute env request) := by
  cases request
  all_goals first | exact (still trivial).elim | skip
  all_goals
    simp only [execute, Request.writes, initializeContract,
      initializeWithWasmHash, initializeInner, setFeeBps,
      setSourceDailyLimit, setAssetFeeCap, setFeeCollector, proposeNewFeeCollector,
      acceptFeeCollector, setAdmin, proposeNewAdmin, acceptAdmin, clearPendingAdmin,
      clearPendingFeeCollector, setMinimumAmount, setMaxWithdrawPerTx,
      setReferralRate, pause, unpause, upgrade, scheduleUpgrade,
      executeUpgrade, cancelUpgrade, emergencyMigrate, addToBlocklist, removeFromBlocklist,
      addToAllowlist, removeFromAllowlist, setAllowlistMode, addAsset, removeAsset,
      addSwapPool, removeSwapPool, setLoyaltyToken, setFeeTiers, addRelayer, removeRelayer,
      setRelayerThreshold, extendInstanceTtl,
      extendPersistentTtl, extendTimelockTtl, extendCommitmentTtl, extendRelayerTtl,
      extendSourcePersistentTtl, setMaxInstanceTtl, setMaxPersistentTtl, verifyAuthEntry,
      commitFund, cancelCommitment, registerMetaSigner, unregisterMetaSigner]
    refine replying_touches ?_
    repeat' first
      | with_reducible refine Preserves.bind ?_ fun _ => ?_
      | with_reducible refine nonReentrant_touches (by simp) ?_
  all_goals simp [Preserves.ofExcept, requireAuth_touches, readFeeBps_touches]

/-- A successful call stays within the footprint of its request. -/
theorem execute_frame (env : Env) (request : Request) :
    Touches request.writes request.movesTokens (execute env request) := by
  by_cases moving : request.movesTokens
  · simpa only [moving] using execute_funding_frame env moving
  · simpa only [moving] using execute_administration_frame env moving

end OnboardingBridge.Contract
