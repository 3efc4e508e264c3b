import OnboardingBridge.Contract.Host

/-!
# Private helpers of the contract

The storage accessors, checks and counters that the entry points share, in the
order of the source. What a helper reads is a view of the world (`World.counters`,
`World.crosschainReserve`, …); the helper itself is the transaction that
returns it.
-/

set_option autoImplicit false

namespace OnboardingBridge.Contract

open Foundations Foundations.Tx

/-! ## Overflow-safe arithmetic -/

def safeAdd (a b : I128) : Except BridgeError I128 :=
  match a.checkedAdd b with
  | some c => .ok c
  | none => .error .overflow

def safeSub (a b : I128) : Except BridgeError I128 :=
  match a.checkedSub b with
  | some c => .ok c
  | none => .error .overflow

def safeMul (a b : I128) : Except BridgeError I128 :=
  match a.checkedMul b with
  | some c => .ok c
  | none => .error .overflow

def safeDiv (a b : I128) : Except BridgeError I128 :=
  match a.checkedDiv b with
  | some c => .ok c
  | none => .error .overflow

theorem safeAdd_ok {a b c : I128} : safeAdd a b = .ok c ↔ c.val = a.val + b.val := by
  rw [← BoundedInt.checkedAdd_eq_some, safeAdd]
  cases a.checkedAdd b <;> simp

theorem safeSub_ok {a b c : I128} : safeSub a b = .ok c ↔ c.val = a.val - b.val := by
  rw [← BoundedInt.checkedSub_eq_some, safeSub]
  cases a.checkedSub b <;> simp

theorem safeMul_ok {a b c : I128} : safeMul a b = .ok c ↔ c.val = a.val * b.val := by
  rw [← BoundedInt.checkedMul_eq_some, safeMul]
  cases a.checkedMul b <;> simp

theorem safeDiv_ok {a b c : I128} :
    safeDiv a b = .ok c ↔ b.val ≠ 0 ∧ c.val = a.val.tdiv b.val := by
  rw [← BoundedInt.checkedDiv_eq_some, safeDiv]
  cases a.checkedDiv b <;> simp

/-- The next `u64`; overflow checks are on, so the last one has none. -/
def incrementU64 (n : UInt64) : Call UInt64 :=
  ofOption (if n.toNat + 1 < 2 ^ 64 then some (n + 1) else none) .trap

/-- The next `u32`; overflow checks are on, so the last one has none. -/
def incrementU32 (n : UInt32) : Call UInt32 :=
  ofOption (if n.toNat + 1 < 2 ^ 32 then some (n + 1) else none) .trap

/-- `u32` addition that stops at the largest value. -/
def saturatingAddU32 (a b : UInt32) : UInt32 :=
  if a.toNat + b.toNat < 2 ^ 32 then a + b else UInt32.ofNat (2 ^ 32 - 1)

/-- What is not below the sum is not below its parts together, or is the largest
value. -/
theorem add_le_of_saturatingAddU32 {a b c : UInt32} (above : ¬ c < saturatingAddU32 a b) :
    a.toNat + b.toNat ≤ c.toNat ∨ c.toNat + 1 = 2 ^ 32 := by
  rw [saturatingAddU32, UInt32.lt_iff_toNat_lt] at above
  have bound := c.toNat_lt
  split at above
  · next fits =>
    rw [UInt32.toNat_add, Nat.mod_eq_of_lt fits] at above
    omega
  · rw [UInt32.toNat_ofNat_of_lt' (by decide)] at above
    omega

/-! ## Configuration and roles -/

abbrev readCurrentWasmHash : Call (BytesN 32) :=
  .read fun w => (w.store .currentWasmHash).getD 0

abbrev saveCurrentWasmHash (hash : BytesN 32) : Call Unit := save .currentWasmHash hash

abbrev readPendingUpgrade : Call (Option PendingUpgrade) := .read fun w => w.store .pendingUpgrade

abbrev savePendingUpgrade (pending : PendingUpgrade) : Call Unit := save .pendingUpgrade pending

abbrev clearPendingUpgrade : Call Unit := remove .pendingUpgrade

abbrev savePendingAdmin (address : Address) : Call Unit := save .pendingAdmin address

abbrev readPendingAdmin : Call (Option Address) := .read fun w => w.store .pendingAdmin

abbrev removePendingAdmin : Call Unit := remove .pendingAdmin

abbrev savePendingFeeCollector (address : Address) : Call Unit := save .pendingFeeCollector address

abbrev readPendingFeeCollector : Call (Option Address) :=
  .read fun w => w.store .pendingFeeCollector

abbrev removePendingFeeCollector : Call Unit := remove .pendingFeeCollector

abbrev saveMaxWithdrawPerTx (amount : I128) : Call Unit := save .maxWithdrawPerTx amount

abbrev readMaxWithdrawPerTx : Call I128 := .read fun w => (w.store .maxWithdrawPerTx).getD 0

/-- The configuration record, or the legacy entries when there is none. -/
def World.bridgeConfig? (w : World) : Option BridgeConfigData :=
  match w.store .bridgeConfig with
  | some config => some config
  | none => do
      let admin ← w.store .admin
      let feeCollector ← w.store .feeCollector
      return {
        admin, feeCollector
        feeBps := (w.store .feeBps).getD 0
        paused := false
        allowlistMode := false }

def readBridgeConfig : Call BridgeConfigData := do
  let config ← .read World.bridgeConfig?
  okOr config .notInitialized

abbrev saveBridgeConfig (config : BridgeConfigData) : Call Unit := save .bridgeConfig config

abbrev readMaxInstanceTtl : Call UInt32 :=
  .read fun w => (w.store .maxInstanceTtl).getD maxAllowedTtl

abbrev readMaxPersistentTtl : Call UInt32 :=
  .read fun w => (w.store .maxPersistentTtl).getD maxAllowedTtl

/-- The lifetime to extend to and the threshold below which to do it. -/
def persistentTtlRequest (ttl configuredMax : UInt32) : Except BridgeError (UInt32 × UInt32) :=
  if ttl < minAllowedTtl then .error .invalidTtl
  else .ok (min ttl configuredMax, min ttl configuredMax / 4)

def saveAdmin (admin : Address) : Call Unit := do
  save .admin admin
  let config ← .read fun w => w.store .bridgeConfig
  match config with
  | some config => saveBridgeConfig { config with admin }
  | none => return ()

/-- The admin of the configuration record, or of the legacy entry. -/
def World.admin? (w : World) : Option Address :=
  ((w.store .bridgeConfig).map BridgeConfigData.admin).or (w.store .admin)

def readAdmin : Call Address := do
  let admin ← .read World.admin?
  okOr admin .notInitialized

def saveFeeCollector (feeCollector : Address) : Call Unit := do
  save .feeCollector feeCollector
  let config ← .read fun w => w.store .bridgeConfig
  match config with
  | some config => saveBridgeConfig { config with feeCollector }
  | none => return ()

def World.feeCollector? (w : World) : Option Address :=
  ((w.store .bridgeConfig).map BridgeConfigData.feeCollector).or (w.store .feeCollector)

def readFeeCollector : Call Address := do
  let feeCollector ← .read World.feeCollector?
  okOr feeCollector .notInitialized

def readConfig : Call BridgeConfig := do
  let config ← readBridgeConfig
  return {
    feeBps := config.feeBps
    paused := config.paused
    allowlistMode := config.allowlistMode }

def saveConfig (config : BridgeConfig) : Call Unit := do
  let bridgeConfig ← readBridgeConfig
  saveBridgeConfig { bridgeConfig with
    feeBps := config.feeBps
    paused := config.paused
    allowlistMode := config.allowlistMode }

def saveFeeBps (feeBps : UInt32) : Call Unit := do
  let config ← readConfig
  saveConfig { config with feeBps }

def readFeeBps : Call UInt32 := do
  let config ← readBridgeConfig
  return config.feeBps

def World.initialized (w : World) : Bool := w.has .initialized

abbrev markInitialized : Call Unit := save .initialized true

abbrev saveMinimumAmount (amount : I128) : Call Unit := save .minimumAmount amount

def World.minimumAmount (w : World) : I128 := (w.store .minimumAmount).getD 0

abbrev readMinimumAmount : Call I128 := .read World.minimumAmount

def checkInitialized : Call Unit := do
  let initialized ← .read World.initialized
  reject (initialized = false) .notInitialized

def readPaused : Call Bool := do
  let config ← readConfig
  return config.paused

def setPaused (paused : Bool) : Call Unit := do
  let config ← readConfig
  saveConfig { config with paused }

def World.deactivated (w : World) : Bool := w.has .deactivated

abbrev isDeactivated : Call Bool := .read World.deactivated

def checkNotDeactivated : Call Unit := do
  let deactivated ← isDeactivated
  reject (deactivated = true) .contractDeactivated

def checkNotPaused : Call Unit := do
  checkNotDeactivated
  let paused ← readPaused
  reject (paused = true) .contractPaused

/-- `!is_deactivated(env) && read_paused(env)`: the paused flag is read only
when the contract is not deactivated. -/
def checkRecoveryAllowed : Call Unit := do
  let deactivated ← isDeactivated
  if deactivated = true then return ()
  let paused ← readPaused
  reject (paused = true) .contractPaused

/-! ## Fees and access -/

def calculateFee (amount : I128) (feeBps : UInt32) : Except BridgeError I128 :=
  if feeBps = 0 then .ok 0
  else
    match safeMul amount (I128.ofU32 feeBps) with
    | .ok product => safeDiv product feeDenominator
    | .error reason => .error reason

def World.isBlocked (w : World) (address : Address) : Bool :=
  (w.store (.blocked address)).getD false

def World.isAllowlisted (w : World) (address : Address) : Bool :=
  (w.store (.allowlisted address)).getD false

def allowlistMode : Call Bool := do
  let config ← readConfig
  return config.allowlistMode

def setAllowlistModeFlag (enabled : Bool) : Call Unit := do
  let config ← readConfig
  saveConfig { config with allowlistMode := enabled }

/-- The error of `check_access`, if it has one. -/
def accessError (target : Address) : Call (Option BridgeError) := do
  let blocked ← .read fun w => w.isBlocked target
  if blocked = true then return some .addressBlocked
  let restricted ← allowlistMode
  let allowlisted ← .read fun w => w.isAllowlisted target
  if restricted = true ∧ allowlisted = false then return some .addressNotAllowlisted
  return none

def checkAccess (target : Address) : Call Unit := do
  let error ← accessError target
  match error with
  | some reason => .fail (.error reason)
  | none => return ()

abbrev readWhitelist : Call (OrderedMap Address Bool) :=
  .read fun w => (w.store .assetWhitelist).getD .empty

abbrev saveWhitelist (whitelist : OrderedMap Address Bool) : Call Unit :=
  save .assetWhitelist whitelist

def checkAssetWhitelisted (asset : Address) : Call Unit := do
  let whitelist ← readWhitelist
  reject ((whitelist.get asset).getD false = false) .assetNotWhitelisted

abbrev readPoolWhitelist : Call (OrderedMap Address Bool) :=
  .read fun w => (w.store .poolWhitelist).getD .empty

abbrev savePoolWhitelist (whitelist : OrderedMap Address Bool) : Call Unit :=
  save .poolWhitelist whitelist

def checkPoolWhitelisted (pool : Address) : Call Unit := do
  let whitelist ← readPoolWhitelist
  reject ((whitelist.get pool).getD false = false) .poolNotWhitelisted

/-! ## Asset counters and the cross-chain reserve -/

def World.counters (w : World) (asset : Address) : AssetCounters :=
  (w.store (.assetStats asset)).getD ⟨0, 0, 0, 0⟩

abbrev readAssetCounters (asset : Address) : Call AssetCounters := .read fun w => w.counters asset

abbrev saveAssetCounters (asset : Address) (counters : AssetCounters) : Call Unit :=
  save (.assetStats asset) counters

def incrementLockedTimelock (asset : Address) (amount : I128) : Call Unit := do
  let counters ← readAssetCounters asset
  let lockedTimelock ← liftResult (safeAdd counters.lockedTimelock amount)
  saveAssetCounters asset { counters with lockedTimelock }

def decrementLockedTimelock (asset : Address) (amount : I128) : Call Unit := do
  let counters ← readAssetCounters asset
  let lockedTimelock ← liftResult (safeSub counters.lockedTimelock amount)
  saveAssetCounters asset { counters with lockedTimelock }

def readAccruedFees (asset : Address) : Call I128 := do
  let counters ← readAssetCounters asset
  return counters.accruedFees

def World.crosschainReserve (w : World) (asset : Address) : I128 :=
  (w.store (.crossChainReserve asset)).getD 0

abbrev readCrosschainReserve (asset : Address) : Call I128 :=
  .read fun w => w.crosschainReserve asset

abbrev writeCrosschainReserve (asset : Address) (amount : I128) : Call Unit :=
  save (.crossChainReserve asset) amount

def incrementCrosschainReserve (asset : Address) (amount : I128) : Call Unit := do
  let reserve ← readCrosschainReserve asset
  let increased ← liftResult (safeAdd reserve amount)
  writeCrosschainReserve asset increased

def decrementCrosschainReserve (asset : Address) (amount : I128) : Call Unit := do
  let reserve ← readCrosschainReserve asset
  reject (reserve.val < amount.val) .insufficientCrossChainReserve
  let decreased ← liftResult (safeSub reserve amount)
  writeCrosschainReserve asset decreased

def decrementAccruedFees (asset : Address) (amount : I128) : Call Unit := do
  let counters ← readAssetCounters asset
  let accruedFees ← liftResult (safeSub counters.accruedFees amount)
  saveAssetCounters asset { counters with accruedFees }

def updateAssetCountersSplit (asset : Address) (accruedFees totalFees bridged : I128) :
    Call Unit := do
  let counters ← readAssetCounters asset
  let accruedFees ← liftResult (safeAdd counters.accruedFees accruedFees)
  let totalBridged ← liftResult (safeAdd counters.totalBridged bridged)
  let totalFeesCollected ← liftResult (safeAdd counters.totalFeesCollected totalFees)
  saveAssetCounters asset { counters with accruedFees, totalBridged, totalFeesCollected }

def updateAssetCounters (asset : Address) (fees bridged : I128) : Call Unit :=
  updateAssetCountersSplit asset fees fees bridged

def incrementUserDeposit (source asset : Address) (amount : I128) : Call Unit := do
  let current ← .read fun w => (w.store (.userDeposit source asset)).getD 0
  let updated ← liftResult (safeAdd current amount)
  save (.userDeposit source asset) updated

/-! ## Nonces -/

def World.nonceOf (w : World) (caller : Address) : UInt64 := (w.store (.nonce caller)).getD 0

abbrev readNonce (caller : Address) : Call UInt64 := .read fun w => w.nonceOf caller

def consumeNonce (caller : Address) : (nonce : Option UInt64) → Call Unit
  | none => return ()
  | some n => do
      let stored ← readNonce caller
      reject (n ≠ stored) .duplicateNonce
      let next ← incrementU64 stored
      save (.nonce caller) next

def World.authNonceOf (w : World) (source : Address) : UInt64 :=
  (w.store (.authNonce source)).getD 0

abbrev readAuthNonce (source : Address) : Call UInt64 := .read fun w => w.authNonceOf source

def World.authNonceUsed (w : World) (source : Address) (nonce : UInt64) : Bool :=
  (w.store (.usedAuthNonce source nonce)).getD false

abbrev isAuthNonceUsed (source : Address) (nonce : UInt64) : Call Bool :=
  .read fun w => w.authNonceUsed source nonce

def markAuthNonceUsed (source : Address) (nonce : UInt64) : Call Unit := do
  save (.usedAuthNonce source nonce) true
  let current ← readAuthNonce source
  if current ≤ nonce then
    let next ← okOr (if nonce.toNat + 1 < 2 ^ 64 then some (nonce + 1) else none) .overflow
    save (.authNonce source) next
  else return ()

def consumeAuthNonce (env : Env) (source : Address) (nonce : UInt64)
    (validAfterLedger validBeforeLedger : UInt32) : Call Unit := do
  reject (env.sequence < validAfterLedger ∨ validBeforeLedger ≤ env.sequence) .authNonceExpired
  let expected ← readAuthNonce source
  reject (nonce ≠ expected) .duplicateNonce
  let used ← isAuthNonceUsed source nonce
  reject (used = true) .authNonceAlreadyUsed
  markAuthNonceUsed source nonce
  publish (.authUsed source nonce)

/-! ## Referral rate and relayers -/

abbrev saveReferralRate (bps : UInt32) : Call Unit := save .referralRate bps

abbrev readReferralRate : Call UInt32 := .read fun w => (w.store .referralRate).getD 0

def World.relayerCount (w : World) : UInt32 := (w.store .relayerCount).getD 0

abbrev readRelayerCount : Call UInt32 := .read World.relayerCount

def World.isRelayer (w : World) (pubkey : BytesN 32) : Bool :=
  (w.store (.relayer pubkey)).getD false

abbrev isRelayer (pubkey : BytesN 32) : Call Bool := .read fun w => w.isRelayer pubkey

def World.relayerSet (w : World) : List (BytesN 32) := (w.store .relayerSet).getD []

abbrev readRelayerSet : Call (List (BytesN 32)) := .read World.relayerSet

/-- The storage part of registering a relayer. -/
def registerRelayer (pubkey : BytesN 32) : Call Unit := do
  let registered ← isRelayer pubkey
  if registered = true then return ()
  save (.relayer pubkey) true
  let relayers ← readRelayerSet
  save .relayerSet (relayers ++ [pubkey])
  let count ← readRelayerCount
  let next ← incrementU32 count
  save .relayerCount next

/-- The storage part of removing a relayer. -/
def unregisterRelayer (pubkey : BytesN 32) : Call Unit := do
  let registered ← isRelayer pubkey
  if registered = false then return ()
  remove (.relayer pubkey)
  let relayers ← readRelayerSet
  save .relayerSet (relayers.erase pubkey)
  save .relayerCount (UInt32.ofNat (relayers.erase pubkey).length)

abbrev saveMetaSigner (source : Address) (pubkey : BytesN 32) : Call Unit :=
  save (.metaSigner source) pubkey

abbrev clearMetaSigner (source : Address) : Call Unit := remove (.metaSigner source)

abbrev readMetaSigner (source : Address) : Call (Option (BytesN 32)) :=
  .read fun w => w.store (.metaSigner source)

def World.relayerThreshold (w : World) : UInt32 := (w.store .relayerThreshold).getD 1

abbrev relayerThreshold : Call UInt32 := .read World.relayerThreshold

abbrev saveRelayerThreshold (threshold : UInt32) : Call Unit := save .relayerThreshold threshold

def World.nonceUsed (w : World) (nonce : BytesN 32) : Bool :=
  (w.store (.crossChainNonce nonce)).getD false

abbrev isNonceUsed (nonce : BytesN 32) : Call Bool := .read fun w => w.nonceUsed nonce

abbrev markNonceUsed (nonce : BytesN 32) : Call Unit := save (.crossChainNonce nonce) true

/-! ## Daily limits, fee caps and fee tiers -/

abbrev saveSourceDailyLimit (source asset : Address) (limit : I128) : Call Unit :=
  save (.sourceDailyLimit source asset) limit

def World.sourceDailyLimit (w : World) (source asset : Address) : I128 :=
  (w.store (.sourceDailyLimit source asset)).getD 0

abbrev readSourceDailyLimit (source asset : Address) : Call I128 :=
  .read fun w => w.sourceDailyLimit source asset

def currentDay (env : Env) : UInt64 := env.timestamp / 86400

def checkDailyLimit (env : Env) (source asset : Address) (amount : I128) : Call Unit := do
  let limit ← readSourceDailyLimit source asset
  if limit.val = 0 then return ()
  let used ← .read fun w => (w.store (.dailyUsage source asset (currentDay env))).getD 0
  let updated ← liftResult (safeAdd used amount)
  reject (limit.val < updated.val) .dailyLimitExceeded
  save (.dailyUsage source asset (currentDay env)) updated

abbrev saveAssetFeeCap (asset : Address) (maxFee : UInt32) : Call Unit :=
  save (.assetFeeCap asset) maxFee

def World.assetFeeCap (w : World) (asset : Address) : UInt32 :=
  (w.store (.assetFeeCap asset)).getD maxFeeBps

abbrev readAssetFeeCap (asset : Address) : Call UInt32 := .read fun w => w.assetFeeCap asset

def getEffectiveFeeBps (asset : Address) (globalFeeBps : UInt32) : Call UInt32 := do
  if globalFeeBps = 0 then return 0
  let cap ← readAssetFeeCap asset
  return min globalFeeBps cap

abbrev saveFeeTiers (tiers : List FeeTier) : Call Unit := save .feeTiers tiers

abbrev readFeeTiers : Call (Option (List FeeTier)) := .read fun w => w.store .feeTiers

def World.sourceBridgedVolume (w : World) (source asset : Address) : I128 :=
  (w.store (.sourceBridgedVolume source asset)).getD 0

abbrev readSourceBridgedVolume (source asset : Address) : Call I128 :=
  .read fun w => w.sourceBridgedVolume source asset

def incrementSourceBridgedVolume (source asset : Address) (amount : I128) : Call Unit := do
  let current ← readSourceBridgedVolume source asset
  let updated ← liftResult (safeAdd current amount)
  save (.sourceBridgedVolume source asset) updated

/-- Whether a volume lies in a tier. -/
def FeeTier.contains (tier : FeeTier) (volume : I128) : Bool :=
  decide (tier.minVolume.val ≤ volume.val ∧ volume.val ≤ tier.maxVolume.val)

/-- The first tier that contains the volume caps the rate. -/
def getTieredFeeBps (source asset : Address) (fallbackBps : UInt32) : Call UInt32 := do
  let tiers ← readFeeTiers
  let volume ← readSourceBridgedVolume source asset
  match tiers.bind (·.find? (·.contains volume)) with
  | some tier => return min fallbackBps tier.feeBps
  | none => return fallbackBps

/-! ## Loyalty rewards -/

abbrev saveLoyaltyToken (token : Address) : Call Unit := save .loyaltyToken token

abbrev readLoyaltyToken : Call (Option Address) := .read fun w => w.store .loyaltyToken

abbrev saveLoyaltyAmountPerFund (amount : I128) : Call Unit := save .loyaltyAmountPerFund amount

def World.loyaltyAmountPerFund (w : World) : I128 := (w.store .loyaltyAmountPerFund).getD 0

abbrev readLoyaltyAmountPerFund : Call I128 := .read World.loyaltyAmountPerFund

/-- Pay the loyalty reward out of the bridge's balance less the accrued fees
and the timelocked deposits. The cross-chain reserve is not subtracted here,
unlike in `reclaimTokens`. -/
def mintLoyaltyTokens (env : Env) (recipient : Address) : Call Unit := do
  let loyaltyToken ← readLoyaltyToken
  match loyaltyToken with
  | none => return ()
  | some loyaltyToken => do
      let amount ← readLoyaltyAmountPerFund
      if amount.val ≤ 0 then return ()
      let held ← balance loyaltyToken env.self
      let counters ← readAssetCounters loyaltyToken
      let reserve := (held.saturatingSub counters.accruedFees).saturatingSub
        counters.lockedTimelock
      if reserve.val < amount.val then publish (.loyaltyMintSkipped recipient amount reserve)
      else transfer env loyaltyToken env.self recipient amount

/-! ## Identifiers of timelocks and commitments -/

def nextTimelockId : Call UInt64 := do
  let id ← .read fun w => (w.store .timelockId).getD 0
  let next ← incrementU64 id
  save .timelockId next
  return id

abbrev saveTimelockEntry (id : UInt64) (entry : TimelockEntry) : Call Unit :=
  save (.timelock id) entry

abbrev readTimelockEntry (id : UInt64) : Call (Option TimelockEntry) :=
  .read fun w => w.store (.timelock id)

def nextCommitmentId : Call UInt64 := do
  let id ← .read fun w => (w.store .commitmentId).getD 0
  let next ← incrementU64 id
  save .commitmentId next
  return id

abbrev saveCommitment (id : UInt64) (entry : CommitmentEntry) : Call Unit :=
  save (.commitment id) entry

abbrev readCommitment (id : UInt64) : Call (Option CommitmentEntry) :=
  .read fun w => w.store (.commitment id)

/-! ## The re-entrancy guard -/

/-- Run the body of a call between setting and removing the `Entered` flag. -/
def nonReentrant {α : Type} (body : Call α) : Call α := do
  let entered ← .read fun w => (w.store .entered).getD false
  reject (entered = true) .reentrant
  save .entered true
  let result ← body
  remove .entered
  return result

end OnboardingBridge.Contract
