import OnboardingBridge.Indexer.ScVal

/-!
# Indexed events

The events that the indexer recognises, and what it makes of an event that the RPC
returns: the decoded topics and value, and an id that is a hash of the ledger, the
transaction, the type, the first topic and an index. Every recognised type has its
source and its target at the same two topics.
-/

set_option autoImplicit false

namespace OnboardingBridge.Indexer

open Foundations Contract Relayer

/-! ## Types -/

inductive BridgeEventType where
  | cAddressFunded
  | feesWithdrawn
  | adminProposed
  | adminTransferred
  | feeCollectorTransferProposed
  | feeCollectorTransferred
  | feeBpsChanged
  | contractPaused
  | contractUnpaused
  | emergencyWithdrawal
  | batchCompleted
  | crossChainFunded
  | timelockCreated
  | timelockClaimed
  | assetAdded
  | assetFeeCapChanged
  | sourceDailyLimitChanged
  | minimumAmountChanged
  | maxWithdrawPerTxChanged
  | maxPersistentTtlChanged
  | addressBlocklisted
  | addressUnblocklisted
  | addressAllowlisted
  | addressUnallowlisted
  | allowlistModeChanged
  | initialized
  | upgradeScheduled
  | upgradeCancelled
  | contractUpgraded
  | emergencyMigrated
  | referralRateChanged
deriving DecidableEq

def BridgeEventType.fromTopic : String → Option BridgeEventType
  | "CAddressFunded" => some .cAddressFunded
  | "FeesWithdrawn" => some .feesWithdrawn
  | "AdminProposed" => some .adminProposed
  | "AdminTransferred" => some .adminTransferred
  | "FeeCollectorTransferProposed" => some .feeCollectorTransferProposed
  | "FeeCollectorTransferred" => some .feeCollectorTransferred
  | "FeeBpsChanged" => some .feeBpsChanged
  | "ContractPaused" => some .contractPaused
  | "ContractUnpaused" => some .contractUnpaused
  | "TokensReclaimed" => some .emergencyWithdrawal
  | "BatchCompleted" => some .batchCompleted
  | "CrossChainFunded" => some .crossChainFunded
  | "TimelockCreated" => some .timelockCreated
  | "TimelockClaimed" => some .timelockClaimed
  | "AssetAdded" => some .assetAdded
  | "AssetFeeCapChanged" => some .assetFeeCapChanged
  | "SourceDailyLimitChanged" => some .sourceDailyLimitChanged
  | "MinimumAmountChanged" => some .minimumAmountChanged
  | "MaxWithdrawPerTxChanged" => some .maxWithdrawPerTxChanged
  | "MaxPersistentTtlChanged" => some .maxPersistentTtlChanged
  | "AddressBlocklisted" => some .addressBlocklisted
  | "AddressUnblocklisted" => some .addressUnblocklisted
  | "AddressAllowlisted" => some .addressAllowlisted
  | "AddressUnallowlisted" => some .addressUnallowlisted
  | "AllowlistModeChanged" => some .allowlistModeChanged
  | "Initialized" => some .initialized
  | "UpgradeScheduled" => some .upgradeScheduled
  | "UpgradeCancelled" => some .upgradeCancelled
  | "ContractUpgraded" => some .contractUpgraded
  | "EmergencyMigrated" => some .emergencyMigrated
  | "ReferralRateChanged" => some .referralRateChanged
  | _ => none

def BridgeEventType.asStr : BridgeEventType → String
  | .cAddressFunded => "CAddressFunded"
  | .feesWithdrawn => "FeesWithdrawn"
  | .adminProposed => "AdminProposed"
  | .adminTransferred => "AdminTransferred"
  | .feeCollectorTransferProposed => "FeeCollectorTransferProposed"
  | .feeCollectorTransferred => "FeeCollectorTransferred"
  | .feeBpsChanged => "FeeBpsChanged"
  | .contractPaused => "ContractPaused"
  | .contractUnpaused => "ContractUnpaused"
  | .emergencyWithdrawal => "EmergencyWithdrawal"
  | .batchCompleted => "BatchCompleted"
  | .crossChainFunded => "CrossChainFunded"
  | .timelockCreated => "TimelockCreated"
  | .timelockClaimed => "TimelockClaimed"
  | .assetAdded => "AssetAdded"
  | .assetFeeCapChanged => "AssetFeeCapChanged"
  | .sourceDailyLimitChanged => "SourceDailyLimitChanged"
  | .minimumAmountChanged => "MinimumAmountChanged"
  | .maxWithdrawPerTxChanged => "MaxWithdrawPerTxChanged"
  | .maxPersistentTtlChanged => "MaxPersistentTtlChanged"
  | .addressBlocklisted => "AddressBlocklisted"
  | .addressUnblocklisted => "AddressUnblocklisted"
  | .addressAllowlisted => "AddressAllowlisted"
  | .addressUnallowlisted => "AddressUnallowlisted"
  | .allowlistModeChanged => "AllowlistModeChanged"
  | .initialized => "Initialized"
  | .upgradeScheduled => "UpgradeScheduled"
  | .upgradeCancelled => "UpgradeCancelled"
  | .contractUpgraded => "ContractUpgraded"
  | .emergencyMigrated => "EmergencyMigrated"
  | .referralRateChanged => "ReferralRateChanged"

/-! ## Events -/

/-- An event as the RPC returns it. The indexer does not read its `id`. -/
structure RawEvent where
  id : String
  ledger : Option Int
  txHash : Option String
  topic : Option (List Json)
  createdAt : Option String
  value : Option Json

def RawEvent.ledgerSequence (raw : RawEvent) : Int := raw.ledger.getD 0

def RawEvent.transaction (raw : RawEvent) : String := raw.txHash.getD ""

structure IndexedEvent where
  id : String
  eventType : String
  ledgerSequence : Int
  contractId : String
  txHash : String
  timestamp : String
  data : Json

/-- The decoded topics of an event; nothing when it has none. -/
def RawEvent.decodedTopics (raw : RawEvent) : Option (List Json) := do
  let topics ← raw.topic
  if topics.isEmpty = true then none else some (topics.map decodeRpcScval)

def firstTopicOf (decodedTopics : List Json) : String :=
  (decodedTopics.head?.bind Json.asStr).getD ""

/-- The type of an event, with its first topic. -/
def RawEvent.recognised (raw : RawEvent) : Option (BridgeEventType × String) := do
  let decodedTopics ← raw.decodedTopics
  let eventType ← BridgeEventType.fromTopic (firstTopicOf decodedTopics)
  return (eventType, firstTopicOf decodedTopics)

/-- `insert_topic_str`: label a topic when it is a text. -/
def insertTopicStr (topics : List Json) (idx : Nat) (key : String) : List (String × Json) :=
  match topics[idx]?.bind Json.asStr with
  | some value => [(key, .string value)]
  | none => []

/-- The bytes that the id of an event is the hash of. -/
def idBytes (raw : RawEvent) (eventType : BridgeEventType) (firstTopic : String)
    (eventIndex : Nat) : List UInt8 :=
  (signedBigEndian 8 raw.ledgerSequence).reverse ++ utf8Bytes raw.transaction ++
    (utf8Bytes eventType.asStr ++ utf8Bytes firstTopic) ++ (bigEndian 8 eventIndex).reverse

section Parsing

variable (sha256 : List UInt8 → BytesN 32)

def eventId (raw : RawEvent) (eventType : BridgeEventType) (firstTopic : String)
    (eventIndex : Nat) : String :=
  String.ofList (hexText (sha256 (idBytes raw eventType firstTopic eventIndex)).toList)

/-- The time is what an event without one is stamped with. -/
def parseContractEvent (now contractId : String) (raw : RawEvent) (eventIndex : Nat) :
    Option IndexedEvent := do
  let decodedTopics ← raw.decodedTopics
  let firstTopic := firstTopicOf decodedTopics
  let eventType ← BridgeEventType.fromTopic firstTopic
  let value := raw.value.elim [] fun value => [("value", decodeRpcScval value)]
  return {
    id := eventId sha256 raw eventType firstTopic eventIndex
    eventType := eventType.asStr
    ledgerSequence := raw.ledgerSequence
    contractId
    txHash := raw.transaction
    timestamp := raw.createdAt.getD now
    data := .object ([("topics", .array decodedTopics)] ++ value ++
      insertTopicStr decodedTopics 1 "source" ++ insertTopicStr decodedTopics 2 "target") }

end Parsing

end OnboardingBridge.Indexer
