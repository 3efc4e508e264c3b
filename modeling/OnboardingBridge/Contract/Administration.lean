import OnboardingBridge.Contract.Storage

/-!
# Administrative entry points

Every entry point that changes the configuration and moves no token: the
initialisation, the roles, the fee and limit settings, the pause, the upgrades
and the migration, the access lists, the relayer set, the lifetimes of entries
and the authorisation nonces.

Most of them ask the admin for an authorisation and take an optional nonce of
the admin (`authorizeAdmin`). What is checked before that, what after, and
which of them hold the re-entrancy guard differs from one to the next.
-/

set_option autoImplicit false

namespace OnboardingBridge.Contract

open Foundations Foundations.Tx

/-- The admin authorises the call and, when it gave a nonce, spends it. -/
def authorizeAdmin (env : Env) (nonce : Option UInt64) : Call Address := do
  let admin ← readAdmin
  requireAuth env admin
  consumeNonce admin nonce
  return admin

/-! ## Initialisation -/

def initializeInner (env : Env) (admin feeCollector : Address) (feeBps : UInt32)
    (nonce : Option UInt64) (wasmHash : BytesN 32) : Call Unit := nonReentrant do
  let initialized ← .read World.initialized
  reject (initialized = true) .alreadyInitialized
  reject (maxFeeBps < feeBps) .feeTooHigh
  requireAuth env admin
  consumeNonce admin nonce
  saveBridgeConfig { admin, feeCollector, feeBps, paused := false, allowlistMode := false }
  save .admin admin
  save .feeCollector feeCollector
  save .feeBps feeBps
  saveCurrentWasmHash wasmHash
  markInitialized
  publish (.initialized admin feeCollector feeBps)

/-- `initialize` of the source. -/
def initializeContract (env : Env) (admin feeCollector : Address) (feeBps : UInt32)
    (nonce : Option UInt64) : Call Unit :=
  initializeInner env admin feeCollector feeBps nonce 0

def initializeWithWasmHash (env : Env) (admin feeCollector : Address) (feeBps : UInt32)
    (nonce : Option UInt64) (wasmHash : BytesN 32) : Call Unit :=
  initializeInner env admin feeCollector feeBps nonce wasmHash

/-! ## Fees and limits -/

def setFeeBps (env : Env) (newFeeBps : UInt32) (nonce : Option UInt64) : Call Unit := do
  checkInitialized
  checkNotPaused
  reject (maxFeeBps < newFeeBps) .feeTooHigh
  let admin ← authorizeAdmin env nonce
  let oldFeeBps ← readFeeBps
  saveFeeBps newFeeBps
  publish (.feeBpsChanged oldFeeBps newFeeBps admin)

def setSourceDailyLimit (env : Env) (source asset : Address) (limitAmount : I128)
    (nonce : Option UInt64) : Call Unit := do
  checkInitialized
  reject (limitAmount.val < 0) .invalidAmount
  checkAssetWhitelisted asset
  let admin ← authorizeAdmin env nonce
  let oldLimit ← readSourceDailyLimit source asset
  saveSourceDailyLimit source asset limitAmount
  publish (.sourceDailyLimitChanged oldLimit limitAmount admin source asset)

def setAssetFeeCap (env : Env) (asset : Address) (maxFee : UInt32) (nonce : Option UInt64) :
    Call Unit := do
  checkInitialized
  reject (maxFeeBps < maxFee) .feeTooHigh
  let admin ← authorizeAdmin env nonce
  let oldFeeCap ← readAssetFeeCap asset
  saveAssetFeeCap asset maxFee
  publish (.assetFeeCapChanged oldFeeCap maxFee admin asset)

/-! ## Roles -/

def setFeeCollector (env : Env) (newFeeCollector : Address) (nonce : Option UInt64) :
    Call Unit := nonReentrant do
  checkInitialized
  checkNotPaused
  let admin ← authorizeAdmin env nonce
  let oldCollector ← readFeeCollector
  saveFeeCollector newFeeCollector
  let config ← readBridgeConfig
  saveBridgeConfig { config with feeCollector := newFeeCollector }
  publish (.feeCollectorChanged oldCollector newFeeCollector admin)

def proposeNewFeeCollector (env : Env) (newCollector : Address) (nonce : Option UInt64) :
    Call Unit := nonReentrant do
  checkInitialized
  checkNotDeactivated
  let admin ← authorizeAdmin env nonce
  savePendingFeeCollector newCollector
  publish (.feeCollectorTransferProposed admin newCollector)

def acceptFeeCollector (env : Env) : Call Unit := nonReentrant do
  checkInitialized
  checkNotDeactivated
  let found ← readPendingFeeCollector
  let pending ← okOr found .unauthorized
  requireAuth env pending
  let oldCollector ← readFeeCollector
  saveFeeCollector pending
  let config ← readBridgeConfig
  saveBridgeConfig { config with feeCollector := pending }
  removePendingFeeCollector
  publish (.feeCollectorTransferred oldCollector pending)

def setAdmin (env : Env) (newAdmin : Address) (nonce : Option UInt64) :
    Call Unit := nonReentrant do
  checkInitialized
  checkNotPaused
  let admin ← authorizeAdmin env nonce
  saveAdmin newAdmin
  let config ← readBridgeConfig
  saveBridgeConfig { config with admin := newAdmin }
  publish (.adminChanged admin newAdmin)

def proposeNewAdmin (env : Env) (newAdmin : Address) (nonce : Option UInt64) :
    Call Unit := nonReentrant do
  checkInitialized
  checkNotDeactivated
  let admin ← authorizeAdmin env nonce
  savePendingAdmin newAdmin
  publish (.adminProposed admin newAdmin)

def acceptAdmin (env : Env) : Call Unit := nonReentrant do
  checkInitialized
  checkNotDeactivated
  let found ← readPendingAdmin
  let pending ← okOr found .unauthorized
  requireAuth env pending
  let oldAdmin ← readAdmin
  saveAdmin pending
  let config ← readBridgeConfig
  saveBridgeConfig { config with admin := pending }
  removePendingAdmin
  publish (.adminTransferred oldAdmin pending)

def clearPendingAdmin (env : Env) (nonce : Option UInt64) : Call Unit := nonReentrant do
  checkInitialized
  checkNotDeactivated
  let admin ← authorizeAdmin env nonce
  let found ← readPendingAdmin
  let _ ← okOr found .unauthorized
  removePendingAdmin
  publish (.adminTransferCancelled admin)

def clearPendingFeeCollector (env : Env) (nonce : Option UInt64) : Call Unit := nonReentrant do
  checkInitialized
  checkNotDeactivated
  let admin ← authorizeAdmin env nonce
  let found ← readPendingFeeCollector
  let _ ← okOr found .unauthorized
  removePendingFeeCollector
  publish (.feeCollectorTransferCancelled admin)

def setMinimumAmount (env : Env) (amount : I128) (nonce : Option UInt64) : Call Unit := do
  checkInitialized
  reject (amount.val < 0) .invalidAmount
  let admin ← authorizeAdmin env nonce
  let oldAmount ← readMinimumAmount
  saveMinimumAmount amount
  publish (.minimumAmountChanged oldAmount amount admin)

def setMaxWithdrawPerTx (env : Env) (amount : I128) (nonce : Option UInt64) : Call Unit := do
  checkInitialized
  reject (amount.val < 0) .invalidAmount
  let admin ← authorizeAdmin env nonce
  let oldAmount ← readMaxWithdrawPerTx
  saveMaxWithdrawPerTx amount
  publish (.maxWithdrawPerTxChanged oldAmount amount admin)

def setReferralRate (env : Env) (bps : UInt32) (nonce : Option UInt64) : Call Unit := do
  checkInitialized
  let _ ← authorizeAdmin env nonce
  reject (feeDenominator.val < bps.toNat) .feeTooHigh
  saveReferralRate bps
  publish (.referralRateChanged bps)

/-! ## Pause -/

def pause (env : Env) (nonce : Option UInt64) : Call Unit := do
  checkInitialized
  let admin ← authorizeAdmin env nonce
  setPaused true
  publish (.contractPaused admin)

def unpause (env : Env) (nonce : Option UInt64) : Call Unit := do
  checkInitialized
  let admin ← authorizeAdmin env nonce
  setPaused false
  publish (.contractUnpaused admin)

/-! ## Upgrades and migration -/

def upgrade (env : Env) (newWasmHash : BytesN 32) (nonce : Option UInt64) : Call Unit := do
  checkInitialized
  checkNotDeactivated
  let admin ← authorizeAdmin env nonce
  let oldHash ← readCurrentWasmHash
  saveCurrentWasmHash newWasmHash
  updateCurrentContractWasm newWasmHash
  publish (.contractUpgraded oldHash newWasmHash admin)

def scheduleUpgrade (env : Env) (newWasmHash : BytesN 32) (nonce : Option UInt64) :
    Call UInt32 := nonReentrant do
  checkInitialized
  checkNotDeactivated
  let admin ← authorizeAdmin env nonce
  let executableAfterLedger := saturatingAddU32 env.sequence upgradeTimelockLedgers
  let expiresAfterLedger := saturatingAddU32 executableAfterLedger upgradeExecutionWindowLedgers
  savePendingUpgrade { newWasmHash, executableAfterLedger, expiresAfterLedger }
  publish (.upgradeScheduled newWasmHash executableAfterLedger admin)
  return executableAfterLedger

def executeUpgrade (env : Env) (expectedHash : BytesN 32) (nonce : Option UInt64) :
    Call Unit := do
  checkInitialized
  checkNotDeactivated
  let admin ← authorizeAdmin env nonce
  let found ← readPendingUpgrade
  let pending ← okOr found .upgradeNotScheduled
  reject (pending.newWasmHash ≠ expectedHash) .upgradeHashMismatch
  reject (env.sequence < pending.executableAfterLedger) .upgradeTimelockActive
  reject (pending.expiresAfterLedger ≤ env.sequence) .upgradeTimelockExpired
  clearPendingUpgrade
  let oldHash ← readCurrentWasmHash
  saveCurrentWasmHash expectedHash
  updateCurrentContractWasm expectedHash
  publish (.contractUpgraded oldHash expectedHash admin)

def cancelUpgrade (env : Env) (nonce : Option UInt64) : Call Unit := nonReentrant do
  checkInitialized
  checkNotDeactivated
  let admin ← authorizeAdmin env nonce
  let found ← readPendingUpgrade
  let pending ← okOr found .upgradeNotScheduled
  clearPendingUpgrade
  publish (.upgradeCancelled pending.newWasmHash admin)

/-- The state of the enabled assets of a whitelist, as a migration reports it. -/
def migrationAssets (w : World) (whitelist : OrderedMap Address Bool) :
    List MigrationAssetState :=
  (whitelist.entries.filter Prod.snd).map fun entry => {
    asset := entry.1
    counters := w.counters entry.1
    feeCapBps := w.assetFeeCap entry.1
    crosschainReserve := w.crosschainReserve entry.1 }

/-- Report the state that a successor contract needs. -/
def publishMigrationData : Call Unit := do
  let config ← readConfig
  publish (.emergencyMigrateConfig config.feeBps config.paused config.allowlistMode)
  let feeCollector ← readFeeCollector
  publish (.emergencyMigrateCollector feeCollector)
  let assetWhitelist ← readWhitelist
  let poolWhitelist ← readPoolWhitelist
  let assets ← .read fun w => migrationAssets w assetWhitelist
  publish (.emergencyMigrateAssets assetWhitelist poolWhitelist assets)
  let feeTiers ← readFeeTiers
  let referralRate ← readReferralRate
  let loyaltyToken ← readLoyaltyToken
  let loyaltyAmountPerFund ← readLoyaltyAmountPerFund
  publish (.emergencyMigrateFees feeTiers referralRate loyaltyToken loyaltyAmountPerFund)
  let relayers ← readRelayerSet
  let threshold ← relayerThreshold
  publish (.emergencyMigrateRelayers relayers threshold)

def emergencyMigrate (env : Env) (newContract : Address) (migrateData : Bool)
    (nonce : Option UInt64) : Call Unit := do
  checkInitialized
  let admin ← readAdmin
  requireAuth env admin
  checkNotDeactivated
  consumeNonce admin nonce
  onlyIf (migrateData = true) publishMigrationData
  save .deactivated true
  publish (.emergencyMigrated admin newContract)

/-! ## Access lists -/

def addToBlocklist (env : Env) (address : Address) (nonce : Option UInt64) : Call Unit := do
  checkInitialized
  let admin ← authorizeAdmin env nonce
  save (.blocked address) true
  publish (.addressBlocklisted address admin)

def removeFromBlocklist (env : Env) (address : Address) (nonce : Option UInt64) :
    Call Unit := do
  checkInitialized
  let admin ← authorizeAdmin env nonce
  remove (.blocked address)
  publish (.addressUnblocklisted address admin)

def addToAllowlist (env : Env) (address : Address) (nonce : Option UInt64) : Call Unit := do
  checkInitialized
  let admin ← authorizeAdmin env nonce
  save (.allowlisted address) true
  publish (.addressAllowlisted address admin)

def removeFromAllowlist (env : Env) (address : Address) (nonce : Option UInt64) :
    Call Unit := do
  checkInitialized
  let admin ← authorizeAdmin env nonce
  remove (.allowlisted address)
  publish (.addressUnallowlisted address admin)

def setAllowlistMode (env : Env) (enabled : Bool) (nonce : Option UInt64) : Call Unit := do
  checkInitialized
  let admin ← authorizeAdmin env nonce
  let oldEnabled ← allowlistMode
  setAllowlistModeFlag enabled
  publish (.allowlistModeChanged oldEnabled enabled admin)

/-! ## Assets and pools -/

def addAsset (env : Env) (asset : Address) (nonce : Option UInt64) :
    Call Unit := nonReentrant do
  checkInitialized
  let admin ← authorizeAdmin env nonce
  let whitelist ← readWhitelist
  saveWhitelist (whitelist.set asset true)
  publish (.assetAdded admin asset ((whitelist.get asset).getD false))

def removeAsset (env : Env) (asset : Address) (nonce : Option UInt64) :
    Call Unit := nonReentrant do
  checkInitialized
  let admin ← authorizeAdmin env nonce
  let whitelist ← readWhitelist
  saveWhitelist (whitelist.remove asset)
  publish (.assetRemoved admin asset ((whitelist.get asset).getD false))

def addSwapPool (env : Env) (pool : Address) (nonce : Option UInt64) :
    Call Unit := nonReentrant do
  checkInitialized
  let admin ← authorizeAdmin env nonce
  let whitelist ← readPoolWhitelist
  savePoolWhitelist (whitelist.set pool true)
  publish (.swapPoolAdded admin pool ((whitelist.get pool).getD false))

def removeSwapPool (env : Env) (pool : Address) (nonce : Option UInt64) :
    Call Unit := nonReentrant do
  checkInitialized
  let admin ← authorizeAdmin env nonce
  let whitelist ← readPoolWhitelist
  savePoolWhitelist (whitelist.remove pool)
  publish (.swapPoolRemoved admin pool ((whitelist.get pool).getD false))

/-! ## Loyalty rewards and fee tiers -/

def setLoyaltyToken (env : Env) (token : Address) (amountPerFund : I128)
    (nonce : Option UInt64) : Call Unit := do
  checkInitialized
  reject (amountPerFund.val < 0) .invalidAmount
  let admin ← authorizeAdmin env nonce
  saveLoyaltyToken token
  saveLoyaltyAmountPerFund amountPerFund
  publish (.loyaltyTokenSet admin token amountPerFund)

/-- Check the tiers in order; each starts above the end of the one before. -/
def validateFeeTiers : (previousMax : Option I128) → List FeeTier → Call Unit
  | _, [] => return ()
  | previousMax, tier :: rest => do
      reject (tier.minVolume.val < 0 ∨ tier.maxVolume.val < tier.minVolume.val ∨
        (previousMax.any fun max => decide (tier.minVolume.val ≤ max.val)) = true) .invalidAmount
      reject (maxFeeBps < tier.feeBps) .feeTooHigh
      validateFeeTiers (some tier.maxVolume) rest

def setFeeTiers (env : Env) (tiers : List FeeTier) (nonce : Option UInt64) : Call Unit := do
  checkInitialized
  checkNotPaused
  reject (maxFeeTiers < tiers.length) .batchTooLarge
  validateFeeTiers none tiers
  let admin ← authorizeAdmin env nonce
  saveFeeTiers tiers
  publish (.feeTiersSet admin (UInt32.ofNat tiers.length))

/-! ## Relayers -/

def addRelayer (env : Env) (pubkey : BytesN 32) (nonce : Option UInt64) :
    Call Unit := nonReentrant do
  checkInitialized
  let admin ← authorizeAdmin env nonce
  registerRelayer pubkey
  publish (.relayerAdded admin pubkey)

/-- The source tests an undefined name `was_registered` before it publishes the
event; it is read as whether the key was registered when the call began. -/
def removeRelayer (env : Env) (pubkey : BytesN 32) (nonce : Option UInt64) : Call Unit := do
  checkInitialized
  let admin ← authorizeAdmin env nonce
  let wasRegistered ← isRelayer pubkey
  let count ← readRelayerCount
  let threshold ← relayerThreshold
  reject (wasRegistered = true ∧ (count ≤ 1 ∨ count.toNat - 1 < threshold.toNat)) .belowThreshold
  unregisterRelayer pubkey
  onlyIf (wasRegistered = true) (publish (.relayerRemoved admin pubkey))

def setRelayerThreshold (env : Env) (threshold : UInt32) (nonce : Option UInt64) :
    Call Unit := do
  checkInitialized
  let admin ← authorizeAdmin env nonce
  let count ← readRelayerCount
  reject (threshold = 0 ∨ count < threshold) .thresholdExceedsRelayers
  let oldThreshold ← relayerThreshold
  saveRelayerThreshold threshold
  publish (.relayerThresholdChanged admin oldThreshold threshold)

/-! ## Lifetimes of entries -/

def extendInstanceTtl (env : Env) (ttl : UInt32) (nonce : Option UInt64) : Call Unit := do
  checkInitialized
  let admin ← authorizeAdmin env nonce
  let configuredMax ← readMaxInstanceTtl
  let (maxTtl, _) ← liftResult (persistentTtlRequest ttl configuredMax)
  publish (.instanceTtlExtended admin maxTtl)

def extendPersistentTtl (env : Env) (keyAsset : Address) (ttl : UInt32)
    (nonce : Option UInt64) : Call Unit := do
  checkInitialized
  let admin ← authorizeAdmin env nonce
  let configuredMax ← readMaxPersistentTtl
  let (maxTtl, _) ← liftResult (persistentTtlRequest ttl configuredMax)
  publish (.persistentTtlExtended admin keyAsset maxTtl)

/-- Extend the lifetime of an entry that anyone may extend. -/
def extendEntryTtl (key : DataKey) (missing : BridgeError) (ttl : UInt32)
    (extended : UInt32 → Event) : Call Unit := nonReentrant do
  checkInitialized
  let stored ← .read fun w => w.has key
  reject (stored = false) missing
  let configuredMax ← readMaxPersistentTtl
  let (maxTtl, _) ← liftResult (persistentTtlRequest ttl configuredMax)
  publish (extended maxTtl)

def extendTimelockTtl (id : UInt64) (ttl : UInt32) : Call Unit :=
  extendEntryTtl (.timelock id) .timelockNotFound ttl (.timelockTtlExtended id)

def extendCommitmentTtl (id : UInt64) (ttl : UInt32) : Call Unit :=
  extendEntryTtl (.commitment id) .commitmentNotFound ttl (.commitmentTtlExtended id)

def extendRelayerTtl (pubkey : BytesN 32) (ttl : UInt32) : Call Unit :=
  extendEntryTtl (.relayer pubkey) .notRelayer ttl (.relayerTtlExtended pubkey)

def extendSourcePersistentTtl (env : Env) (source asset : Address) (ttl : UInt32)
    (nonce : Option UInt64) : Call Unit := do
  checkInitialized
  let admin ← authorizeAdmin env nonce
  let configuredMax ← readMaxPersistentTtl
  let (maxTtl, _) ← liftResult (persistentTtlRequest ttl configuredMax)
  publish (.sourcePersistentTtlExtended admin source asset maxTtl)

def setMaxInstanceTtl (env : Env) (ttl : UInt32) (nonce : Option UInt64) : Call Unit := do
  checkInitialized
  let admin ← authorizeAdmin env nonce
  reject (ttl < minAllowedTtl) .invalidTtl
  let oldTtl ← readMaxInstanceTtl
  save .maxInstanceTtl (min ttl maxAllowedTtl)
  publish (.maxInstanceTtlChanged admin oldTtl (min ttl maxAllowedTtl))

/-- The lifetime is checked before the admin is asked, unlike in
`setMaxInstanceTtl`. -/
def setMaxPersistentTtl (env : Env) (ttl : UInt32) (nonce : Option UInt64) : Call Unit := do
  checkInitialized
  reject (ttl < minAllowedTtl) .invalidTtl
  let admin ← authorizeAdmin env nonce
  let oldTtl ← readMaxPersistentTtl
  save .maxPersistentTtl (min ttl maxAllowedTtl)
  publish (.maxPersistentTtlChanged oldTtl (min ttl maxAllowedTtl) admin)

/-! ## Authorisation entries -/

def verifyAuthEntry (env : Env) (source : Address) (nonce : UInt64)
    (validAfterLedger validBeforeLedger : UInt32) : Call Unit := do
  checkInitialized
  checkNotPaused
  requireAuth env source
  consumeAuthNonce env source nonce validAfterLedger validBeforeLedger

end OnboardingBridge.Contract
