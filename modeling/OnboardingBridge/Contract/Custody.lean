import OnboardingBridge.Contract.Administration

/-!
# Entry points that move tokens of the bridge itself

The withdrawal of accrued fees, the reclaim of what no bucket accounts for, and
the deposit to and withdrawal from the cross-chain reserve.
-/

set_option autoImplicit false

namespace OnboardingBridge.Contract

open Foundations Foundations.Tx

/-- The fee collector, not the admin, authorises and spends the nonce. -/
def withdrawFees (env : Env) (asset : Address) (amount : I128) (nonce : Option UInt64) :
    Call Unit := do
  checkInitialized
  checkRecoveryAllowed
  let feeCollector ← readFeeCollector
  requireAuth env feeCollector
  consumeNonce feeCollector nonce
  reject (amount.val ≤ 0) .invalidAmount
  let maxWithdrawPerTx ← readMaxWithdrawPerTx
  reject (maxWithdrawPerTx.val ≠ 0 ∧ maxWithdrawPerTx.val < amount.val) .withdrawExceedsLimit
  let accrued ← readAccruedFees asset
  reject (accrued.val < amount.val) .insufficientReclaimable
  transfer env asset env.self feeCollector amount
  decrementAccruedFees asset amount
  publish (.feesWithdrawn feeCollector amount asset)

def reclaimTokens (env : Env) (asset : Address) (amount : I128) (destination : Address)
    (nonce : Option UInt64) : Call Unit := nonReentrant do
  checkInitialized
  reject (amount.val ≤ 0) .invalidAmount
  let admin ← authorizeAdmin env nonce
  let contractBalance ← balance asset env.self
  let counters ← readAssetCounters asset
  let unaccrued ← liftResult (safeSub contractBalance counters.accruedFees)
  let unlocked ← liftResult (safeSub unaccrued counters.lockedTimelock)
  let reserve ← readCrosschainReserve asset
  let reclaimable ← liftResult (safeSub unlocked reserve)
  reject (reclaimable.val < amount.val) .insufficientReclaimable
  transfer env asset env.self destination amount
  publish (.tokensReclaimed admin asset amount destination)

def fundCrosschainReserve (env : Env) (asset : Address) (amount : I128) :
    Call Unit := nonReentrant do
  checkInitialized
  reject (amount.val ≤ 0) .invalidAmount
  checkAssetWhitelisted asset
  let admin ← readAdmin
  requireAuth env admin
  transfer env asset admin env.self amount
  incrementCrosschainReserve asset amount
  publish (.crossChainReserveFunded asset admin amount)

def withdrawCrosschainReserve (env : Env) (asset : Address) (amount : I128) :
    Call Unit := nonReentrant do
  checkInitialized
  reject (amount.val ≤ 0) .invalidAmount
  let admin ← readAdmin
  requireAuth env admin
  decrementCrosschainReserve asset amount
  transfer env asset env.self admin amount
  publish (.crossChainReserveWithdrawn asset admin amount)

end OnboardingBridge.Contract
