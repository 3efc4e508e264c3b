import OnboardingBridge.Contract.Payloads

/-!
# Funding entry points authorised by the source

The entry points that pull tokens from a source that authorised the call:
single, batch, referral and swap funding, the commit and reveal pair, and the
timelocked deposit with its claim.
-/

set_option autoImplicit false

namespace OnboardingBridge.Contract

open Foundations Foundations.Tx

/-- The deadline, if there is one, has passed. -/
def expired (env : Env) (deadline : Option UInt64) : Prop :=
  (deadline.any fun last => decide (last < env.timestamp)) = true

instance (env : Env) (deadline : Option UInt64) : Decidable (expired env deadline) :=
  inferInstanceAs (Decidable (_ = _))

/-- An amount that is not positive or below the configured minimum. -/
def belowMinimum (amount minimum : I128) : Prop :=
  amount.val ≤ 0 ∨ amount.val < minimum.val

instance (amount minimum : I128) : Decidable (belowMinimum amount minimum) :=
  inferInstanceAs (Decidable (_ ∨ _))

/-! ## Single funding -/

def fundCAddress (env : Env) (source target asset : Address) (amount : I128)
    (nonce deadline : Option UInt64) : Call Unit := nonReentrant do
  checkInitialized
  checkNotPaused
  reject (expired env deadline) .transactionExpired
  let minimum ← readMinimumAmount
  reject (belowMinimum amount minimum) .invalidAmount
  checkAccess target
  checkAssetWhitelisted asset
  checkDailyLimit env source asset amount
  requireAuth env source
  consumeNonce source nonce
  let globalFeeBps ← readFeeBps
  let tieredFeeBps ← getTieredFeeBps source asset globalFeeBps
  let effectiveFeeBps ← getEffectiveFeeBps asset tieredFeeBps
  let fee ← liftResult (calculateFee amount effectiveFeeBps)
  let netAmount ← liftResult (safeSub amount fee)
  transfer env asset source env.self amount
  onlyIf (0 < netAmount.val) (transfer env asset env.self target netAmount)
  updateAssetCounters asset fee netAmount
  incrementSourceBridgedVolume source asset amount
  mintLoyaltyTokens env source
  publish (.cAddressFunded asset source target amount fee)

/-! ## Batch funding -/

/-- Check every amount and add them up. -/
def validateAmounts (minimum : I128) : (total : I128) → List I128 → Call I128
  | total, [] => return total
  | total, amount :: rest => do
      reject (belowMinimum amount minimum) .invalidAmount
      let total ← liftResult (safeAdd total amount)
      validateAmounts minimum total rest

/-- Add up the amounts of the entries whose target passes the access check. -/
def accessibleTotal : (total : I128) → List (Address × I128) → Call I128
  | total, [] => return total
  | total, (target, amount) :: rest => do
      let error ← accessError target
      if error.isNone then
        let total ← liftResult (safeAdd total amount)
        accessibleTotal total rest
      else accessibleTotal total rest

/-- The running counts of the delivery loop. -/
structure BatchProgress where
  successes : UInt32
  failures : UInt32
  refundTotal : I128

/-- Deliver the entries one by one; entries whose target is refused are counted
for the refund. -/
def deliverBatch (env : Env) (source asset : Address) (effectiveFeeBps : UInt32) :
    BatchProgress → List (Address × I128) → Call BatchProgress
  | progress, [] => return progress
  | progress, (target, amount) :: rest => do
      let error ← accessError target
      if error.isSome then
        let failures ← incrementU32 progress.failures
        let refundTotal ← liftResult (safeAdd progress.refundTotal amount)
        publish (.batchTransferFailed source target amount)
        deliverBatch env source asset effectiveFeeBps { progress with failures, refundTotal } rest
      else
        let fee ← liftResult (calculateFee amount effectiveFeeBps)
        let netAmount ← liftResult (safeSub amount fee)
        onlyIf (0 < netAmount.val) (transfer env asset env.self target netAmount)
        updateAssetCounters asset fee netAmount
        let successes ← incrementU32 progress.successes
        publish (.cAddressFunded asset source target amount fee)
        deliverBatch env source asset effectiveFeeBps { progress with successes } rest

/-- An oversized batch is refused with the error of an oversized tier list. -/
def batchFundCAddress (env : Env) (source : Address) (targets : List Address)
    (amounts : List I128) (asset : Address) (nonce deadline : Option UInt64) :
    Call Unit := nonReentrant do
  checkInitialized
  checkNotPaused
  reject (maxBatchSize < targets.length) .tooManyFeeTiers
  reject (targets.isEmpty = true) .invalidAmount
  reject (expired env deadline) .transactionExpired
  reject (targets.length ≠ amounts.length) .mismatchedArrays
  checkAssetWhitelisted asset
  let minimum ← readMinimumAmount
  let total ← validateAmounts minimum 0 amounts
  let successfulTotal ← accessibleTotal 0 (targets.zip amounts)
  checkDailyLimit env source asset successfulTotal
  requireAuth env source
  consumeNonce source nonce
  transfer env asset source env.self total
  let globalFeeBps ← readFeeBps
  let tieredFeeBps ← getTieredFeeBps source asset globalFeeBps
  let effectiveFeeBps ← getEffectiveFeeBps asset tieredFeeBps
  let progress ← deliverBatch env source asset effectiveFeeBps ⟨0, 0, 0⟩ (targets.zip amounts)
  onlyIf (0 < progress.refundTotal.val)
    (transfer env asset env.self source progress.refundTotal)
  incrementSourceBridgedVolume source asset successfulTotal
  onlyIf (0 < progress.successes) (mintLoyaltyTokens env source)
  publish (.batchCompleted source progress.successes progress.failures)

/-! ## Referral funding -/

/-- Pay the referrer its share of the fee and return what is left of it. -/
def payReferral (env : Env) (source asset : Address) (fee : I128) :
    (referrer : Option Address) → Call I128
  | none => return fee
  | some referrer => do
      let referralRate ← readReferralRate
      let referralFee ← liftResult (calculateFee fee referralRate)
      if 0 < referralFee.val then
        transfer env asset env.self referrer referralFee
        let protocolFee ← liftResult (safeSub fee referralFee)
        publish (.referralPaid source referrer referralFee asset)
        return protocolFee
      else return fee

/-- `check_access` of the referrer, when there is one. -/
def checkReferrerAccess : (referrer : Option Address) → Call Unit
  | none => return ()
  | some referrer => checkAccess referrer

def fundCAddressWithReferral (env : Env) (source target asset : Address) (amount : I128)
    (referrer : Option Address) (nonce deadline : Option UInt64) : Call Unit := nonReentrant do
  checkInitialized
  checkNotPaused
  reject (expired env deadline) .transactionExpired
  reject (amount.val ≤ 0) .invalidAmount
  let minimum ← readMinimumAmount
  reject (amount.val < minimum.val) .invalidAmount
  checkAccess target
  checkReferrerAccess referrer
  checkAssetWhitelisted asset
  checkDailyLimit env source asset amount
  reject (referrer = some source ∨ referrer = some target) .invalidReferrer
  requireAuth env source
  consumeNonce source nonce
  transfer env asset source env.self amount
  let globalFeeBps ← readFeeBps
  let tieredFeeBps ← getTieredFeeBps source asset globalFeeBps
  let effectiveFeeBps ← getEffectiveFeeBps asset tieredFeeBps
  let fee ← liftResult (calculateFee amount effectiveFeeBps)
  let netAmount ← liftResult (safeSub amount fee)
  onlyIf (0 < netAmount.val) (transfer env asset env.self target netAmount)
  let protocolFee ← payReferral env source asset fee referrer
  incrementUserDeposit source asset amount
  updateAssetCountersSplit asset protocolFee fee netAmount
  incrementSourceBridgedVolume source asset amount
  mintLoyaltyTokens env source
  publish (.cAddressFunded asset source target amount fee)

/-! ## Swap and fund -/

def fundCAddressWithSwap (env : Env) (source target sourceAsset targetAsset : Address)
    (sourceAmount minTargetAmount : I128) (swapRoute : List Address)
    (nonce deadline : Option UInt64) : Call Unit := nonReentrant do
  checkInitialized
  checkNotPaused
  reject (expired env deadline) .transactionExpired
  reject (sourceAmount.val ≤ 0 ∨ minTargetAmount.val ≤ 0) .invalidAmount
  let minimum ← readMinimumAmount
  reject (sourceAmount.val < minimum.val) .invalidAmount
  checkAccess target
  checkAssetWhitelisted sourceAsset
  checkAssetWhitelisted targetAsset
  checkDailyLimit env source sourceAsset sourceAmount
  reject (swapRoute.length ≠ 1) .multiHopNotSupported
  let pool ← ofOption swapRoute.head? .trap
  checkPoolWhitelisted pool
  requireAuth env source
  consumeNonce source nonce
  transfer env sourceAsset source env.self sourceAmount
  transfer env sourceAsset env.self pool sourceAmount
  let balanceBefore ← balance targetAsset env.self
  let amountOut ← invokeSwap env pool minTargetAmount
  reject (amountOut.val ≤ 0) .swapFailed
  let balanceAfter ← balance targetAsset env.self
  reject (balanceAfter.val < balanceBefore.val) .swapFailed
  let receivedAmount ← liftResult (safeSub balanceAfter balanceBefore)
  reject (receivedAmount.val ≤ 0) .swapFailed
  reject (receivedAmount.val < minTargetAmount.val) .slippageExceeded
  let globalFeeBps ← readFeeBps
  let tieredFeeBps ← getTieredFeeBps source targetAsset globalFeeBps
  let effectiveFeeBps ← getEffectiveFeeBps targetAsset tieredFeeBps
  let fee ← liftResult (calculateFee receivedAmount effectiveFeeBps)
  let netAmount ← liftResult (safeSub receivedAmount fee)
  onlyIf (0 < netAmount.val) (transfer env targetAsset env.self target netAmount)
  updateAssetCounters targetAsset fee netAmount
  incrementSourceBridgedVolume source targetAsset receivedAmount
  mintLoyaltyTokens env source
  publish (.swapAndFunded sourceAsset targetAsset source target sourceAmount receivedAmount fee)

/-! ## Commit and reveal -/

def commitFund (env : Env) (source target asset : Address) (amountHash : BytesN 32)
    (deadline : UInt64) : Call UInt64 := nonReentrant do
  checkInitialized
  checkNotPaused
  reject (deadline ≤ env.timestamp) .transactionExpired
  checkAccess target
  checkAssetWhitelisted asset
  requireAuth env source
  let id ← nextCommitmentId
  saveCommitment id {
    source, target, asset, amountHash, deadline
    committedAtLedger := env.sequence
    revealed := false }
  publish (.commitFund source target id amountHash asset deadline)
  return id

/-- `append_address_to_bytes` copies each address into a buffer of fixed size,
so a longer address traps. -/
def revealFund (env : Env) (commitmentId : UInt64) (source target asset : Address)
    (amount : I128) (nonce : UInt64) : Call Unit := nonReentrant do
  checkInitialized
  checkNotPaused
  let found ← readCommitment commitmentId
  let entry ← okOr found .commitmentNotFound
  reject (entry.revealed = true) .commitmentAlreadyRevealed
  reject (entry.deadline < env.timestamp) .commitmentExpired
  reject (env.sequence < saturatingAddU32 entry.committedAtLedger commitRevealMinDelayLedgers)
    .commitmentNotMatured
  reject (entry.source ≠ source ∨ entry.target ≠ target ∨ entry.asset ≠ asset) .unauthorized
  rejectIf (strkeyTooLong env env.self ∨ strkeyTooLong env source ∨ strkeyTooLong env target ∨
    strkeyTooLong env asset) .trap
  reject (env.host.sha256 (env.host.commitmentPreimage source target asset amount nonce)
    ≠ entry.amountHash) .commitmentHashMismatch
  reject (amount.val ≤ 0) .invalidAmount
  let minimum ← readMinimumAmount
  reject (amount.val < minimum.val) .invalidAmount
  checkAccess target
  checkAssetWhitelisted asset
  checkDailyLimit env source asset amount
  requireAuth env source
  saveCommitment commitmentId { entry with revealed := true }
  transfer env asset source env.self amount
  let globalFeeBps ← readFeeBps
  let tieredFeeBps ← getTieredFeeBps source asset globalFeeBps
  let effectiveFeeBps ← getEffectiveFeeBps asset tieredFeeBps
  let fee ← liftResult (calculateFee amount effectiveFeeBps)
  let netAmount ← liftResult (safeSub amount fee)
  onlyIf (0 < netAmount.val) (transfer env asset env.self target netAmount)
  updateAssetCounters asset fee netAmount
  incrementSourceBridgedVolume source asset amount
  mintLoyaltyTokens env source
  publish (.commitRevealFunded asset source target commitmentId amount fee)

def cancelCommitment (env : Env) (commitmentId : UInt64) : Call Unit := nonReentrant do
  checkInitialized
  checkNotPaused
  let found ← readCommitment commitmentId
  let entry ← okOr found .commitmentNotFound
  reject (entry.revealed = true) .commitmentAlreadyRevealed
  requireAuth env entry.source
  remove (.commitment commitmentId)
  publish (.commitmentCancelled commitmentId entry.source)

/-! ## Timelocks -/

def fundCAddressTimelocked (env : Env) (source target asset : Address) (amount : I128)
    (releaseTime cliffTime : UInt64) (nonce deadline : Option UInt64) :
    Call UInt64 := nonReentrant do
  checkInitialized
  checkNotPaused
  reject (expired env deadline) .transactionExpired
  let minimum ← readMinimumAmount
  reject (belowMinimum amount minimum) .invalidAmount
  reject (releaseTime ≤ env.timestamp ∨ (0 < cliffTime ∧ releaseTime < cliffTime))
    .invalidReleaseTime
  checkAccess target
  checkAssetWhitelisted asset
  checkDailyLimit env source asset amount
  requireAuth env source
  consumeNonce source nonce
  transfer env asset source env.self amount
  let id ← nextTimelockId
  saveTimelockEntry id {
    source, target, asset, amount, releaseTime, cliffTime
    claimed := false }
  incrementLockedTimelock asset amount
  incrementUserDeposit source asset amount
  mintLoyaltyTokens env source
  publish (.timelockCreated source target id amount asset releaseTime cliffTime)
  return id

/-- The fee is worked out here, at the rate in force at the claim. -/
def claimTimelocked (env : Env) (id : UInt64) : Call Unit := nonReentrant do
  checkInitialized
  checkRecoveryAllowed
  let found ← readTimelockEntry id
  let entry ← okOr found .timelockNotFound
  reject (entry.claimed = true) .unauthorized
  reject (env.timestamp < entry.releaseTime) .timelockNotMatured
  requireAuth env entry.target
  saveTimelockEntry id { entry with claimed := true }
  let globalFeeBps ← readFeeBps
  let effectiveFeeBps ← getEffectiveFeeBps entry.asset globalFeeBps
  let fee ← liftResult (calculateFee entry.amount effectiveFeeBps)
  let netAmount ← liftResult (safeSub entry.amount fee)
  decrementLockedTimelock entry.asset entry.amount
  onlyIf (0 < netAmount.val) (transfer env entry.asset env.self entry.target netAmount)
  updateAssetCounters entry.asset fee netAmount
  publish (.timelockClaimed entry.target id netAmount fee entry.asset)

end OnboardingBridge.Contract
