import OnboardingBridge.Contract.Commitments
import OnboardingBridge.Contract.RevealFailures
import OnboardingBridge.Relayer.Hexadecimal

/-!
# Commitment hashes of the SDK

The SDK works out the hash of a commitment before it is made. The contract works it out
again from the arguments of a reveal. Both put the same bytes together
(`computeCommitmentHash_preimage`), so a commitment that was made with the hash of the
SDK is not turned down for its hash.
-/

set_option autoImplicit false

namespace OnboardingBridge.Sdk

open Foundations Contract Relayer

/-! ## The hash -/

/-- An argument that may be a text, a number or a big integer. -/
inductive Numeric where
  | text (value : String)
  | number (value : Number)
  | bigint (value : Int)
deriving DecidableEq

/-- `BigInt` of an argument; nothing when it throws. -/
def Numeric.toBigInt : Numeric → Option Int
  | .text value => bigInt value
  | .number (.integer value) => some value
  | .number .other => none
  | .bigint value => some value

structure CommitmentHashOptions where
  contractId : String
  networkPassphrase : String
  source : String
  target : String
  asset : String
  amount : Numeric
  nonce : Numeric

section Hashing

variable (sha256 : List UInt8 → BytesN 32)

/-- The amount is written as two unsigned halves. The text of what `BigInt` and the writes throw
is not modelled. -/
def computeCommitmentHash (options : CommitmentHashOptions) : Except String String := do
  let some amount := options.amount.toBigInt | throw "Cannot convert to a BigInt"
  let some nonce := options.nonce.toBigInt | throw "Cannot convert to a BigInt"
  if amount ≤ 0 ∨ 2 ^ 127 - 1 < amount then throw "amount must fit a positive i128"
  if nonce < 0 ∨ 2 ^ 64 - 1 < nonce then throw "nonce must fit a u64"
  let some high := writeBigUInt64BE (amount / 0x10000000000000000) | throw "out of range"
  let some low := writeBigUInt64BE (amount % 0x10000000000000000) | throw "out of range"
  let some nonceBytes := writeBigUInt64BE nonce | throw "out of range"
  let networkId := sha256 (utf8Bytes options.networkPassphrase)
  return String.ofList (hexText (sha256 (utf8Bytes "onboarding_bridge_commitment_v1" ++
    utf8Bytes options.contractId ++ networkId.toList ++ utf8Bytes options.source ++
    utf8Bytes options.target ++ utf8Bytes options.asset ++ (high ++ low) ++ nonceBytes)).toList)

end Hashing

/-- The bytes that `commitFund` makes of a hash; nothing when there are not 32. -/
def commitFundArgument (amountHash : String) : Option (BytesN 32) :=
  toBytesN 32 (hexBytes (match amountHash.toList with
    | '0' :: 'x' :: rest => rest
    | text => text))

theorem commitFundArgument_hexText (hash : BytesN 32) :
    commitFundArgument (String.ofList (hexText hash.toList)) = some hash := by
  have digits := hexText_digits hash.toList
  rw [commitFundArgument, String.toList_ofList]
  split
  · next rest starts =>
    rw [starts] at digits
    exact absurd digits (by simp [isDigitIn, digitValue])
  · exact toBytesN_hexText hash

/-! ## Agreement -/

/-- The arguments of the SDK are those of a contract and of a reveal: the keys are the textual
forms of the addresses, and the network is the one with the passphrase. -/
structure CommitmentHashOptions.Denotes (options : CommitmentHashOptions) (host : Host)
    (source target asset : Address) (amount : I128) (nonce : UInt64) : Prop where
  contract : utf8Bytes options.contractId = host.strkey host.contractAddress
  network : host.sha256 (utf8Bytes options.networkPassphrase) = host.networkId
  source : utf8Bytes options.source = host.strkey source
  target : utf8Bytes options.target = host.strkey target
  asset : utf8Bytes options.asset = host.strkey asset
  amount : options.amount.toBigInt = some amount.val
  nonce : options.nonce.toBigInt = some (nonce.toNat : Int)

section Agreement

variable {host : Host} {options : CommitmentHashOptions} {source target asset : Address}
  {amount : I128} {nonce : UInt64}

theorem nonce_bytes (nonce : UInt64) :
    writeBigUInt64BE (nonce.toNat : Int) = some (u64ToBeBytes nonce) := by
  have below : nonce.toNat < 2 ^ 64 := nonce.toNat_lt
  rw [writeBigUInt64BE, if_pos (by omega), Int.toNat_natCast]
  rfl

/-- The SDK takes every positive amount, and hashes what the contract hashes. -/
theorem computeCommitmentHash_preimage
    (denotes : options.Denotes host source target asset amount nonce) (positive : 0 < amount.val) :
    computeCommitmentHash host.sha256 options = .ok (String.ofList (hexText
      (host.sha256 (host.commitmentPreimage source target asset amount nonce)).toList)) := by
  have tag : utf8Bytes "onboarding_bridge_commitment_v1" =
      asciiBytes "onboarding_bridge_commitment_v1" := by decide
  have upper : amount.val ≤ 2 ^ 127 - 1 := amount.upper
  have below : nonce.toNat < 2 ^ 64 := nonce.toNat_lt
  obtain ⟨value, same⟩ := Int.eq_ofNat_of_zero_le positive.le
  obtain ⟨high, low, writtenHigh, writtenLow, halves⟩ := amount_halves same (by omega)
  have accepted : ¬ (amount.val ≤ 0 ∨ 2 ^ 127 - 1 < amount.val) := by omega
  have fits : ¬ ((nonce.toNat : Int) < 0 ∨ 2 ^ 64 - 1 < (nonce.toNat : Int)) := by omega
  rw [← same] at writtenHigh writtenLow
  simp only [computeCommitmentHash, denotes.amount, denotes.nonce, if_neg accepted, if_neg fits,
    writtenHigh, writtenLow, nonce_bytes, halves, denotes.network, denotes.contract, denotes.source,
    denotes.target, denotes.asset, tag]
  rfl

/-- The SDK returns no hash for an amount that is not positive. -/
theorem computeCommitmentHash_positive {text : String}
    (denotes : options.Denotes host source target asset amount nonce)
    (computed : computeCommitmentHash host.sha256 options = .ok text) : 0 < amount.val := by
  by_contra refused
  have turned : amount.val ≤ 0 ∨ 2 ^ 127 - 1 < amount.val := .inl (not_lt.mp refused)
  simp only [computeCommitmentHash, denotes.amount, denotes.nonce, if_pos turned] at computed
  cases computed

/-- The commitment that is stored under an identifier is the one that a call made under it. -/
theorem Run.stored_commitment {start w : World} {labels : List Label} (fresh : Genesis host start)
    (run : Run (Step host) start labels w) {commit : Success} {id deadline : UInt64}
    {amountHash : BytesN 32} {entry : CommitmentEntry} (made : .success commit ∈ labels)
    (asked : commit.request = .commitFund source target asset amountHash deadline)
    (replied : commit.reply = .id id) (stored : w.store (.commitment id) = some entry) :
    entry.amountHash = amountHash := by
  obtain ⟨-, other, madeOther, askedOther, repliedOther, -⟩ :=
    Run.commitmentsRecorded fresh run id entry stored
  have commits : Label.commits id (.success commit) :=
    ⟨commit, source, target, asset, amountHash, deadline, rfl, replied, asked⟩
  have commitsOther : Label.commits id (.success other) :=
    ⟨other, _, _, _, _, _, rfl, repliedOther, askedOther⟩
  have symmetric : Std.Symm fun earlier later : Label =>
      ¬ (earlier.commits id ∧ later.commits id) := ⟨fun _ _ never both => never both.symm⟩
  have same : Label.success other = Label.success commit := by
    by_contra different
    exact (Run.commits_once run id).forall madeOther made different ⟨commitsOther, commits⟩
  obtain rfl := Label.success.inj same
  rw [askedOther] at asked
  cases asked
  rfl

end Agreement

/-- The SDK returns a hash exactly for the positive amounts, it is the one that the contract works
out for the same values, and in no run does a commitment that was made with it fail to be revealed
with them for its hash. -/
theorem commitment_agreement {host : Host} {options : CommitmentHashOptions}
    {source target asset : Address} {amount : I128} {nonce : UInt64}
    (denotes : options.Denotes host source target asset amount nonce) :
    ((∃ text, computeCommitmentHash host.sha256 options = .ok text) ↔ 0 < amount.val) ∧
    ∀ text, computeCommitmentHash host.sha256 options = .ok text →
      text = String.ofList (hexText
        (host.sha256 (host.commitmentPreimage source target asset amount nonce)).toList) ∧
      ∀ start labels w commit payer beneficiary token amountHash deadline id env,
        Genesis host start → Run (Step host) start labels w → .success commit ∈ labels →
        commitFundArgument text = some amountHash →
        commit.request = .commitFund payer beneficiary token amountHash deadline →
        commit.reply = .id id → env.host = host →
        (execute env (.revealFund id source target asset amount nonce)).run w.begin ≠
          .error (.error .commitmentHashMismatch) := by
  refine ⟨⟨?_, fun positive => ⟨_, computeCommitmentHash_preimage denotes positive⟩⟩, ?_⟩
  · rintro ⟨text, computed⟩
    exact computeCommitmentHash_positive denotes computed
  · intro text computed
    have positive := computeCommitmentHash_positive denotes computed
    rw [computeCommitmentHash_preimage denotes positive] at computed
    obtain rfl := Except.ok.inj computed
    refine ⟨rfl, ?_⟩
    intro start labels w commit payer beneficiary token amountHash deadline id env fresh run made
      decoded asked replied deployed failed
    obtain ⟨entry, stored, different⟩ := revealFund_mismatch failed
    rw [Run.stored_commitment fresh run made asked replied stored, deployed] at different
    rw [commitFundArgument_hexText] at decoded
    exact different (Option.some.inj decoded)

namespace Rehearsal

/-- The keys of some addresses. -/
def keyText (address : Address) : String :=
  if address = .contract 0 then "CAAAAAAAAAAAAAAAAAAAAAAAAAAAAAAAAAAAAAAAAAAAAAAAAAAABSC4"
  else if address = .account 1 then "GAAAAAAAAAAAAAAAAAAAAAAAAAAAAAAAAAAAAAAAAAAAAAAAAAAAC6PV"
  else if address = .contract 1 then "CAAAAAAAAAAAAAAAAAAAAAAAAAAAAAAAAAAAAAAAAAAAAAAAAAAAD2KM"
  else "CAAAAAAAAAAAAAAAAAAAAAAAAAAAAAAAAAAAAAAAAAAAAAAAAAAAFCT4"

/-- The hash of the preimage below. -/
def digest : BytesN 32 := 0xebdcaac4f1bfcce87cc83e514158502239f356fcc527e08808855101363ce574

/-- A bridge on the test network, with the hashes of its passphrase and of the preimage. -/
def testHost : Host :=
  { Contract.Rehearsal.host with
    networkId := 0xcee0302d59844d32bdca915c8203dd44b33fbb7edc19051ea37abedf28ecd472
    strkey := fun address => utf8Bytes (keyText address)
    sha256 := fun bytes =>
      if bytes.length = 33 then 0xcee0302d59844d32bdca915c8203dd44b33fbb7edc19051ea37abedf28ecd472
      else digest }

def testEnv : Env := { Contract.Rehearsal.env 0 with host := testHost, self_unauthorized := by decide }

def options : CommitmentHashOptions where
  contractId := keyText (.contract 0)
  networkPassphrase := "Test SDF Network ; September 2015"
  source := keyText (.account 1)
  target := keyText (.contract 1)
  asset := keyText (.contract 2)
  amount := .text "0x3e8"
  nonce := .number (.integer 7)

def preparing : List (Env × Request) := [
  (testEnv, .initializeContract (Contract.Rehearsal.address 1) (Contract.Rehearsal.address 2) 100
    none),
  (testEnv, .addAsset (.contract 2) none)]

/-- A commitment with the hash. -/
def commit : Request := .commitFund (.account 1) (.contract 1) (.contract 2) digest 100

def committing : List (Env × Request) := preparing ++ [(testEnv, commit)]

end Rehearsal

open Rehearsal in
theorem commitment_agreement_rehearsed :
    computeCommitmentHash testHost.sha256 options =
      .ok "ebdcaac4f1bfcce87cc83e514158502239f356fcc527e08808855101363ce574" ∧
    (execute testEnv (.revealFund 0 (.account 1) (.contract 1) (.contract 2)
      (Contract.Rehearsal.amount 1000) 7)).run
        (rehearsed Contract.Rehearsal.fresh committing).begin ≠
      .error (.error .commitmentHashMismatch) := by
  have denotes : options.Denotes testHost (.account 1) (.contract 1) (.contract 2)
      (Contract.Rehearsal.amount 1000) 7 := by
    constructor <;> decide +kernel
  obtain ⟨accepts, agrees⟩ := commitment_agreement denotes
  obtain ⟨text, computed⟩ := accepts.mpr (by decide)
  obtain ⟨same, reveals⟩ := agrees text computed
  have written : text = "ebdcaac4f1bfcce87cc83e514158502239f356fcc527e08808855101363ce574" := by
    rw [same]
    decide +kernel
  have run : Run (Step testHost) Contract.Rehearsal.fresh
      ((rehearse Contract.Rehearsal.fresh committing).map .success)
      (rehearsed Contract.Rehearsal.fresh committing) := by
    refine rehearse_run (by simp [committing, preparing, testEnv]) (List.all_eq_true.mp ?_)
    decide +kernel
  have fresh : Genesis testHost Contract.Rehearsal.fresh :=
    ⟨rfl, fun _ => by simp [Contract.Rehearsal.fresh, Contract.Rehearsal.amount]⟩
  have decoded : commitFundArgument text = some digest := by
    rw [written]
    decide +kernel
  have made : attempt testEnv commit (rehearsed Contract.Rehearsal.fresh preparing) ∈
      rehearse Contract.Rehearsal.fresh committing := by
    simp [committing, preparing, rehearse, rehearsed]
  refine ⟨written ▸ computed, ?_⟩
  exact reveals _ _ _ _ _ _ _ _ _ 0 testEnv fresh run (List.mem_map_of_mem made) decoded
    (attempt_call ..).2.1 (by decide +kernel) rfl

end OnboardingBridge.Sdk
