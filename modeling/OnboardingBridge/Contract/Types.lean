import Mathlib.Data.BitVec
import OnboardingBridge.Foundations.BigEndian
import OnboardingBridge.Foundations.BoundedInt
import OnboardingBridge.Foundations.KeyedStore
import OnboardingBridge.Foundations.OrderedMap

/-!
# Data types of the bridge contract

The errors, storage keys, stored records and events of the contract, under the
names of its source. A `u32` or `u64` is a machine word, an `i128` an integer
that carries its bounds, and a `BytesN<n>` a bit vector of `n` bytes.

A key of the storage determines the type of the value stored at it
(`DataKey.Value`). Keys the contract declares and never reads or writes are
left out.
-/

set_option autoImplicit false

namespace OnboardingBridge.Contract

open Foundations

/-! ## Primitive types -/

/-- A signed 128-bit integer. -/
abbrev I128 : Type := BoundedInt (-2 ^ 127) (2 ^ 127 - 1)

namespace I128

/-- The largest `i128`. -/
def maxValue : Int := 2 ^ 127 - 1

instance : Zero I128 := ⟨⟨0, by decide, by decide⟩⟩

@[simp] theorem zero_val : (0 : I128).val = 0 := rfl

instance : Inhabited I128 := ⟨0⟩

/-- The integers that are the value of an `i128`. -/
theorem exists_val {x : Int} : (∃ value : I128, value.val = x) ↔ -2 ^ 127 ≤ x ∧ x ≤ maxValue := by
  constructor
  · rintro ⟨value, rfl⟩
    exact ⟨value.lower, value.upper⟩
  · rintro ⟨lower, upper⟩
    exact ⟨⟨x, lower, upper⟩, rfl⟩

/-- An integer as an `i128`, when it is one. -/
def ofInt? (x : Int) : Option I128 := BoundedInt.ofInt? _ _ x

theorem exists_natural {n : Nat} (fits : n < 2 ^ 127) : ∃ value : I128, value.val = n :=
  exists_val.mpr ⟨by omega, by simp only [maxValue]; omega⟩

/-- What fits can be added. -/
theorem exists_add {value : I128} {more : Int} (nonneg : 0 ≤ more)
    (fits : value.val + more ≤ maxValue) : ∃ sum : I128, sum.val = value.val + more := by
  have lower := value.lower
  exact exists_val.mpr ⟨by omega, fits⟩

/-- A part can be taken away. -/
theorem exists_sub {value : I128} {less : Int} (nonneg : 0 ≤ less) (part : less ≤ value.val) :
    ∃ rest : I128, rest.val = value.val - less := by
  have upper : value.val ≤ maxValue := value.upper
  exact exists_val.mpr ⟨by omega, by omega⟩

/-- A machine word as an `i128`. -/
def ofU32 (word : UInt32) : I128 where
  val := word.toNat
  lower := by have := word.toNat_lt; omega
  upper := by have := word.toNat_lt; omega

@[simp] theorem ofU32_val (word : UInt32) : (ofU32 word).val = word.toNat := rfl

/-- The sixteen big-endian bytes of an `i128`. -/
def toBeBytes (value : I128) : List UInt8 := signedBigEndian 16 value.val

end I128

/-- A byte string of fixed length. -/
abbrev BytesN (n : Nat) : Type := BitVec (8 * n)

/-- The bytes of a fixed-length byte string. -/
def BytesN.toList {n : Nat} (bytes : BytesN n) : List UInt8 := bigEndian n bytes.toNat

def u32ToBeBytes (word : UInt32) : List UInt8 := bigEndian 4 word.toNat

def u64ToBeBytes (word : UInt64) : List UInt8 := bigEndian 8 word.toNat

/-- An account or a contract of the network. -/
inductive Address where
  | account (publicKey : BytesN 32)
  | contract (contractId : BytesN 32)
deriving DecidableEq

namespace Address

/-- Accounts before contracts, each by their identifiers. -/
def rank : Address → Nat
  | account publicKey => publicKey.toNat
  | contract contractId => 2 ^ 256 + contractId.toNat

theorem rank_injective : Function.Injective rank := by
  intro first second same
  cases first with
  | account a =>
    cases second with
    | account b => exact congrArg account (BitVec.eq_of_toNat_eq same)
    | contract b =>
      have := a.isLt
      simp only [rank] at same
      omega
  | contract a =>
    cases second with
    | account b =>
      have := b.isLt
      simp only [rank] at same
      omega
    | contract b =>
      exact congrArg contract (BitVec.eq_of_toNat_eq (Nat.add_left_cancel same))

instance : LinearOrder Address := LinearOrder.lift' rank rank_injective

end Address

/-! ## Errors -/

inductive BridgeError where
  | notInitialized
  | alreadyInitialized
  | invalidAmount
  | feeTooHigh
  | mismatchedArrays
  | contractPaused
  | addressBlocked
  | addressNotAllowlisted
  | insufficientReclaimable
  | assetNotWhitelisted
  | dailyLimitExceeded
  | duplicateNonce
  | transactionExpired
  | loyaltyTokenNotSet
  | replayedNonce
  | notRelayer
  | belowThreshold
  | thresholdExceedsRelayers
  | timelockNotFound
  | timelockNotMatured
  | invalidReleaseTime
  | unauthorized
  | authNonceAlreadyUsed
  | authNonceExpired
  | upgradeNotScheduled
  | upgradeHashMismatch
  | upgradeTimelockActive
  | upgradeTimelockExpired
  | withdrawExceedsLimit
  | overflow
  | commitmentNotFound
  | commitmentAlreadyRevealed
  | commitmentExpired
  | commitmentHashMismatch
  | commitmentNotMatured
  | slippageExceeded
  | swapFailed
  | metaTxInvalidSignature
  | metaTxExpired
  | metaTxNonceAlreadyUsed
  | contractDeactivated
  | batchTooLarge
  | invalidAddress
  | duplicateRelayerSignature
  | poolNotWhitelisted
  | multiHopNotSupported
  | reentrant
  | invalidReferrer
  | invalidTtl
  | metaTxPubkeySourceMismatch
  | tooManyFeeTiers
  | insufficientCrossChainReserve
deriving DecidableEq

/-- Why a call fails: with an error of the contract, or because the host traps. -/
inductive Failure where
  | error (reason : BridgeError)
  | trap
deriving DecidableEq

/-! ## Constants -/

def maxFeeBps : UInt32 := 1000
def feeDenominator : I128 := ⟨10000, by decide, by decide⟩
def maxBatchSize : Nat := 100
def maxFeeTiers : Nat := 50
def maxAllowedTtl : UInt32 := 3110400
def minAllowedTtl : UInt32 := 120960
def upgradeTimelockLedgers : UInt32 := 17280
def upgradeExecutionWindowLedgers : UInt32 := upgradeTimelockLedgers
def commitRevealMinDelayLedgers : UInt32 := 5
def maxStrkeyLen : Nat := 64

/-! ## Stored records -/

/-- The authoritative contract-wide configuration. -/
structure BridgeConfigData where
  admin : Address
  feeCollector : Address
  feeBps : UInt32
  paused : Bool
  allowlistMode : Bool
deriving DecidableEq

/-- The view of the configuration without its two roles. -/
structure BridgeConfig where
  feeBps : UInt32
  paused : Bool
  allowlistMode : Bool
deriving DecidableEq

/-- The counters of one asset. -/
structure AssetCounters where
  accruedFees : I128
  totalBridged : I128
  totalFeesCollected : I128
  lockedTimelock : I128
deriving DecidableEq

structure MigrationAssetState where
  asset : Address
  counters : AssetCounters
  feeCapBps : UInt32
  crosschainReserve : I128
deriving DecidableEq

/-- A volume range, both bounds included, and the fee rate in it. -/
structure FeeTier where
  minVolume : I128
  maxVolume : I128
  feeBps : UInt32
deriving DecidableEq

/-- A signature of a relayer over a payload hash. -/
structure RelayerSig where
  pubkey : BytesN 32
  signature : BytesN 64
deriving DecidableEq

structure TimelockEntry where
  source : Address
  target : Address
  asset : Address
  amount : I128
  releaseTime : UInt64
  cliffTime : UInt64
  claimed : Bool
deriving DecidableEq

structure PendingUpgrade where
  newWasmHash : BytesN 32
  executableAfterLedger : UInt32
  expiresAfterLedger : UInt32
deriving DecidableEq

structure CommitmentEntry where
  source : Address
  target : Address
  asset : Address
  amountHash : BytesN 32
  deadline : UInt64
  committedAtLedger : UInt32
  revealed : Bool
deriving DecidableEq

/-- The parameters of a meta-transaction, as the user signs them. -/
structure MetaFundParams where
  networkId : BytesN 32
  source : Address
  target : Address
  asset : Address
  amount : I128
  nonce : UInt64
  deadline : UInt64
deriving DecidableEq

/-! ## Storage keys -/

inductive DataKey where
  | admin
  | feeCollector
  | feeBps
  | initialized
  | blocked (address : Address)
  | allowlisted (address : Address)
  | assetWhitelist
  | sourceDailyLimit (source asset : Address)
  | assetFeeCap (asset : Address)
  | nonce (caller : Address)
  | referralRate
  | assetStats (asset : Address)
  | relayer (pubkey : BytesN 32)
  | relayerCount
  | relayerThreshold
  | crossChainNonce (nonce : BytesN 32)
  | dailyUsage (source asset : Address) (day : UInt64)
  | feeTiers
  | sourceBridgedVolume (source asset : Address)
  | loyaltyToken
  | loyaltyAmountPerFund
  | timelockId
  | timelock (id : UInt64)
  | userDeposit (source asset : Address)
  | maxInstanceTtl
  | maxPersistentTtl
  | bridgeConfig
  | authNonce (source : Address)
  | usedAuthNonce (source : Address) (nonce : UInt64)
  | pendingUpgrade
  | currentWasmHash
  | pendingAdmin
  | pendingFeeCollector
  | maxWithdrawPerTx
  | entered
  | minimumAmount
  | commitmentId
  | commitment (id : UInt64)
  | metaTxNonce (source : Address) (nonce : UInt64)
  | metaSigner (source : Address)
  | deactivated
  | poolWhitelist
  | relayerSet
  | crossChainReserve (asset : Address)
deriving DecidableEq

/-- The type of the value stored at a key. -/
abbrev DataKey.Value : DataKey → Type
  | admin | feeCollector | pendingAdmin | pendingFeeCollector | loyaltyToken => Address
  | feeBps | assetFeeCap _ | referralRate | relayerCount | relayerThreshold | maxInstanceTtl
  | maxPersistentTtl => UInt32
  | initialized | blocked _ | allowlisted _ | relayer _ | crossChainNonce _ | usedAuthNonce _ _
  | entered | metaTxNonce _ _ | deactivated => Bool
  | assetWhitelist | poolWhitelist => OrderedMap Address Bool
  | sourceDailyLimit _ _ | dailyUsage _ _ _ | sourceBridgedVolume _ _ | loyaltyAmountPerFund
  | userDeposit _ _ | maxWithdrawPerTx | minimumAmount | crossChainReserve _ => I128
  | nonce _ | timelockId | authNonce _ | commitmentId => UInt64
  | assetStats _ => AssetCounters
  | feeTiers => List FeeTier
  | timelock _ => TimelockEntry
  | bridgeConfig => BridgeConfigData
  | pendingUpgrade => PendingUpgrade
  | currentWasmHash | metaSigner _ => BytesN 32
  | commitment _ => CommitmentEntry
  | relayerSet => List (BytesN 32)

/-! ## Events -/

inductive Event where
  | initialized (admin feeCollector : Address) (feeBps : UInt32)
  | cAddressFunded (asset source target : Address) (amount fee : I128)
  | batchTransferFailed (source target : Address) (amount : I128)
  | batchCompleted (source : Address) (successes failures : UInt32)
  | feeBpsChanged (oldFeeBps newFeeBps : UInt32) (admin : Address)
  | sourceDailyLimitChanged (oldLimit newLimit : I128) (admin source asset : Address)
  | assetFeeCapChanged (oldCap newCap : UInt32) (admin asset : Address)
  | feeCollectorChanged (oldCollector newCollector admin : Address)
  | feeCollectorTransferProposed (admin newCollector : Address)
  | feeCollectorTransferred (oldCollector newCollector : Address)
  | feeCollectorTransferCancelled (admin : Address)
  | adminChanged (oldAdmin newAdmin : Address)
  | adminProposed (admin newAdmin : Address)
  | adminTransferred (oldAdmin newAdmin : Address)
  | adminTransferCancelled (admin : Address)
  | minimumAmountChanged (oldAmount newAmount : I128) (admin : Address)
  | feesWithdrawn (feeCollector : Address) (amount : I128) (asset : Address)
  | maxWithdrawPerTxChanged (oldAmount newAmount : I128) (admin : Address)
  | referralRateChanged (bps : UInt32)
  | referralPaid (source referrer : Address) (referralFee : I128) (asset : Address)
  | contractPaused (admin : Address)
  | contractUnpaused (admin : Address)
  | contractUpgraded (oldHash newHash : BytesN 32) (admin : Address)
  | upgradeScheduled (newHash : BytesN 32) (executableAfterLedger : UInt32) (admin : Address)
  | upgradeCancelled (newHash : BytesN 32) (admin : Address)
  | emergencyMigrateConfig (feeBps : UInt32) (paused allowlistMode : Bool)
  | emergencyMigrateCollector (feeCollector : Address)
  | emergencyMigrateAssets (assetWhitelist poolWhitelist : OrderedMap Address Bool)
      (assets : List MigrationAssetState)
  | emergencyMigrateFees (feeTiers : Option (List FeeTier)) (referralRate : UInt32)
      (loyaltyToken : Option Address) (loyaltyAmountPerFund : I128)
  | emergencyMigrateRelayers (relayerSet : List (BytesN 32)) (threshold : UInt32)
  | emergencyMigrated (admin newContract : Address)
  | addressBlocklisted (address admin : Address)
  | addressUnblocklisted (address admin : Address)
  | addressAllowlisted (address admin : Address)
  | addressUnallowlisted (address admin : Address)
  | allowlistModeChanged (oldEnabled newEnabled : Bool) (admin : Address)
  | tokensReclaimed (admin asset : Address) (amount : I128) (destination : Address)
  | assetAdded (admin asset : Address) (wasWhitelisted : Bool)
  | assetRemoved (admin asset : Address) (wasPresent : Bool)
  | swapPoolAdded (admin pool : Address) (wasPresent : Bool)
  | swapPoolRemoved (admin pool : Address) (wasPresent : Bool)
  | loyaltyTokenSet (admin token : Address) (amountPerFund : I128)
  | loyaltyMintSkipped (recipient : Address) (amount reserve : I128)
  | feeTiersSet (admin : Address) (count : UInt32)
  | crossChainReserveFunded (asset admin : Address) (amount : I128)
  | crossChainReserveWithdrawn (asset admin : Address) (amount : I128)
  | crossChainFunded (target : Address) (chainId : UInt32) (txHash : BytesN 32)
      (amount fee : I128) (asset : Address)
  | relayerAdded (admin : Address) (pubkey : BytesN 32)
  | relayerRemoved (admin : Address) (pubkey : BytesN 32)
  | relayerThresholdChanged (admin : Address) (oldThreshold newThreshold : UInt32)
  | timelockCreated (source target : Address) (id : UInt64) (amount : I128) (asset : Address)
      (releaseTime cliffTime : UInt64)
  | timelockClaimed (target : Address) (id : UInt64) (netAmount fee : I128) (asset : Address)
  | instanceTtlExtended (admin : Address) (ttl : UInt32)
  | persistentTtlExtended (admin asset : Address) (ttl : UInt32)
  | timelockTtlExtended (id : UInt64) (ttl : UInt32)
  | commitmentTtlExtended (id : UInt64) (ttl : UInt32)
  | relayerTtlExtended (pubkey : BytesN 32) (ttl : UInt32)
  | sourcePersistentTtlExtended (admin source asset : Address) (ttl : UInt32)
  | maxInstanceTtlChanged (admin : Address) (oldTtl newTtl : UInt32)
  | maxPersistentTtlChanged (oldTtl newTtl : UInt32) (admin : Address)
  | authUsed (source : Address) (nonce : UInt64)
  | commitFund (source target : Address) (id : UInt64) (amountHash : BytesN 32)
      (asset : Address) (deadline : UInt64)
  | commitRevealFunded (asset source target : Address) (id : UInt64) (amount fee : I128)
  | commitmentCancelled (id : UInt64) (source : Address)
  | swapAndFunded (sourceAsset targetAsset source target : Address)
      (sourceAmount receivedAmount fee : I128)
  | metaSignerRegistered (source : Address) (pubkey : BytesN 32)
  | metaSignerUnregistered (source : Address)
  | metaFundExecuted (asset source target : Address) (amount fee : I128) (nonce : UInt64)

end OnboardingBridge.Contract
