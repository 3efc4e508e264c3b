import OnboardingBridge.Contract.Funding

/-!
# Funding entry points authorised by signatures

The cross-chain payout, attested by relayers, and the meta-transaction, signed
by the source. Neither asks the host for an authorisation.
-/

set_option autoImplicit false

namespace OnboardingBridge.Contract

open Foundations Foundations.Tx

/-! ## Cross-chain payouts -/

/-- Check the signatures in order and return the public keys seen. -/
def verifyRelayerSigs (env : Env) (payloadHash : BytesN 32) :
    (seen : List (BytesN 32)) → List RelayerSig → Call (List (BytesN 32))
  | seen, [] => return seen
  | seen, sig :: rest => do
      let registered ← isRelayer sig.pubkey
      reject (registered = false) .notRelayer
      reject (sig.pubkey ∈ seen) .duplicateRelayerSignature
      verifySignature env sig.pubkey payloadHash sig.signature
      verifyRelayerSigs env payloadHash (seen ++ [sig.pubkey]) rest

def fundCAddressCrosschain (env : Env) (chainId : UInt32) (txHash : BytesN 32)
    (target asset : Address) (amount : I128) (sigs : List RelayerSig) :
    Call Unit := nonReentrant do
  checkInitialized
  checkNotPaused
  let minimum ← readMinimumAmount
  reject (belowMinimum amount minimum) .invalidAmount
  checkAccess target
  checkAssetWhitelisted asset
  let threshold ← relayerThreshold
  let count ← readRelayerCount
  reject (threshold = 0 ∨ count = 0) .belowThreshold
  let used ← isNonceUsed (env.host.crosschainNonce chainId txHash)
  reject (used = true) .replayedNonce
  reject (strkeyTooLong env target) .invalidAddress
  reject (strkeyTooLong env asset) .invalidAddress
  let seen ← verifyRelayerSigs env
    (env.host.crosschainPayloadHash chainId txHash target asset amount) [] sigs
  reject (seen.length < threshold.toNat) .belowThreshold
  let globalFeeBps ← readFeeBps
  let effectiveFeeBps ← getEffectiveFeeBps asset globalFeeBps
  let fee ← liftResult (calculateFee amount effectiveFeeBps)
  let netAmount ← liftResult (safeSub amount fee)
  decrementCrosschainReserve asset netAmount
  markNonceUsed (env.host.crosschainNonce chainId txHash)
  onlyIf (0 < netAmount.val) (transfer env asset env.self target netAmount)
  updateAssetCountersSplit asset 0 0 netAmount
  mintLoyaltyTokens env target
  publish (.crossChainFunded target chainId txHash amount fee asset)

/-! ## Meta-transactions -/

def registerMetaSigner (env : Env) (source : Address) (pubkey : BytesN 32) :
    Call Unit := nonReentrant do
  checkInitialized
  checkNotPaused
  requireAuth env source
  saveMetaSigner source pubkey
  publish (.metaSignerRegistered source pubkey)

def unregisterMetaSigner (env : Env) (source : Address) : Call Unit := nonReentrant do
  checkInitialized
  checkNotPaused
  requireAuth env source
  clearMetaSigner source
  publish (.metaSignerUnregistered source)

def World.metaNonceUsed (w : World) (source : Address) (nonce : UInt64) : Bool :=
  (w.store (.metaTxNonce source nonce)).getD false

def executeMetaFund (env : Env) (params : MetaFundParams) (pubkey : BytesN 32)
    (signature : BytesN 64) : Call Unit := nonReentrant do
  checkInitialized
  checkNotPaused
  reject (params.deadline < env.timestamp) .metaTxExpired
  let alreadyUsed ← .read fun w => w.metaNonceUsed params.source params.nonce
  reject (alreadyUsed = true) .metaTxNonceAlreadyUsed
  reject (params.amount.val ≤ 0) .invalidAmount
  let minimum ← readMinimumAmount
  reject (params.amount.val < minimum.val) .invalidAmount
  checkAccess params.target
  checkAssetWhitelisted params.asset
  checkDailyLimit env params.source params.asset params.amount
  let registered ← readMetaSigner params.source
  reject (registered ≠ some pubkey) .metaTxPubkeySourceMismatch
  reject (params.networkId ≠ env.host.networkId) .metaTxInvalidSignature
  reject (strkeyTooLong env env.self) .invalidAddress
  reject (strkeyTooLong env params.source) .invalidAddress
  reject (strkeyTooLong env params.target) .invalidAddress
  reject (strkeyTooLong env params.asset) .invalidAddress
  verifySignature env pubkey (env.host.sha256 (env.host.metaFundPayload params)) signature
  save (.metaTxNonce params.source params.nonce) true
  transferFrom env params.asset params.source env.self params.amount
  let globalFeeBps ← readFeeBps
  let tieredFeeBps ← getTieredFeeBps params.source params.asset globalFeeBps
  let effectiveFeeBps ← getEffectiveFeeBps params.asset tieredFeeBps
  let fee ← liftResult (calculateFee params.amount effectiveFeeBps)
  let netAmount ← liftResult (safeSub params.amount fee)
  onlyIf (0 < netAmount.val) (transfer env params.asset env.self params.target netAmount)
  incrementUserDeposit params.source params.asset params.amount
  updateAssetCounters params.asset fee netAmount
  incrementSourceBridgedVolume params.source params.asset params.amount
  mintLoyaltyTokens env params.source
  publish (.metaFundExecuted params.asset params.source params.target params.amount fee
    params.nonce)

end OnboardingBridge.Contract
