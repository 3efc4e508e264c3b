import OnboardingBridge.Contract.System
import OnboardingBridge.Contract.FundingSettlement
import OnboardingBridge.Contract.Solvency
import OnboardingBridge.Contract.Crosschain
import OnboardingBridge.Contract.MetaTransactions
import OnboardingBridge.Contract.TimelockClaims
import OnboardingBridge.Contract.Commitments
import OnboardingBridge.Contract.RelayerSet
import OnboardingBridge.Contract.Roles
import OnboardingBridge.Contract.Modes
import OnboardingBridge.Contract.DailyLimits
import OnboardingBridge.Contract.Upgrades
import OnboardingBridge.Contract.FundingGates
import OnboardingBridge.Contract.CounterHistory
import OnboardingBridge.Contract.Migration
import OnboardingBridge.Contract.ConfigHistory
import OnboardingBridge.Contract.Nonces
import OnboardingBridge.Contract.AuthNonces
import OnboardingBridge.Contract.SignedFormats
import OnboardingBridge.Relayer.PayloadAgreement
import OnboardingBridge.Relayer.Service
import OnboardingBridge.Relayer.Finality
import OnboardingBridge.Relayer.EthListener
import OnboardingBridge.Relayer.AbiLogs
import OnboardingBridge.Relayer.SolanaDeposits
import OnboardingBridge.Relayer.SolanaListener
import OnboardingBridge.Relayer.ReplayKeys
import OnboardingBridge.Relayer.Signing
import OnboardingBridge.Indexer.Cursor
import OnboardingBridge.Indexer.DeliveryOrder
import OnboardingBridge.Sdk.CommitmentHash
import OnboardingBridge.Sdk.EventDispatch
import OnboardingBridge.Sdk.CacheCoherence
import OnboardingBridge.Indexer.FundingLabels
import OnboardingBridge.Contract.QuotedCharges
import OnboardingBridge.Sdk.WhitelistPages
import OnboardingBridge.Sdk.BatchSplitting
import OnboardingBridge.Indexer.Timestamps
import OnboardingBridge.Indexer.ScValues
import OnboardingBridge.Indexer.WebhookUrls
import OnboardingBridge.Contract.Bystanders
import OnboardingBridge.Contract.BatchRefinement
import OnboardingBridge.Contract.FundingPaths
import OnboardingBridge.Contract.ReferralSplit
import OnboardingBridge.Sdk.CacheRetention
import OnboardingBridge.Sdk.SendOutcomes
import OnboardingBridge.Relayer.Deposits
import OnboardingBridge.Relayer.BridgeSafety
import OnboardingBridge.Contract.AccessControl
import OnboardingBridge.Contract.EventLedger
import OnboardingBridge.Indexer.Service
import OnboardingBridge.Indexer.Provenance
