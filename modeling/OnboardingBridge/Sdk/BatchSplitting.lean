import OnboardingBridge.Contract.Dispatch
import OnboardingBridge.Foundations.Chunks
import OnboardingBridge.Relayer.PayloadAgreement
import OnboardingBridge.Relayer.Service
import OnboardingBridge.Sdk.CommitmentHash

/-!
# Large batches in the SDK

The SDK funds a long list of targets with one transaction for each 100 of them. With a nonce
the transactions build on one another, and the next is sent when the one before is confirmed.
The list is cut as it should be, and each result is that of its chunk (`splitFrom_returned`).
But a nonce is read and encoded where nothing catches its error, one beyond its type is not
carried, and a transaction that never becomes known is waited for without end
(`batch_splitting`).
-/

set_option autoImplicit false

namespace OnboardingBridge.Sdk

open Foundations Contract Relayer

/-! ## Requests -/

/-- The most targets of one transaction. -/
abbrev batchTxLimit : Nat := 100

structure BatchFundCOptions where
  source : String
  targets : List String
  amounts : List String
  asset : String
  nonce : Option Numeric
  deadline : Option Numeric

/-- `nativeToScVal` of a big integer and a type. -/
structure NativeToScVal where
  u64 : Int → Except String UInt64
  i128 : Int → Except String I128

/-- A number of the type is encoded as it is. What becomes of other numbers is left open. -/
def NativeToScVal.Exact (native : NativeToScVal) : Prop :=
  ∀ value : UInt64, native.u64 value.toNat = .ok value

/-- The status the RPC returns for a transaction that is looked up. -/
inductive GetStatus where
  | success
  | notFound
  | failed
deriving DecidableEq

/-- What the RPC answers for the transaction of one chunk, or the text of what is thrown. Building
and signing the transaction belong to its preparation. -/
structure ChunkRpc where
  account : Except String Unit
  prepared : Except String Unit
  sent : Except String (String × Relayer.SendStatus)
  /-- The answers to the requests for the transaction, in their order. -/
  polls : Nat → Except String GetStatus

/-- What the method is called with, and what it is answered. -/
structure BatchClient where
  sdk : StellarSdk
  native : NativeToScVal
  rpc : Nat → ChunkRpc
  /-- The callback, with the text of what it throws. -/
  onProgress : Option (Nat → Nat → Option String → Except String Unit)
  options : BatchFundCOptions

/-- One turn of the loop, as it is begun. -/
structure Attempt where
  offset : Nat
  targets : List String
  amounts : List String
  nonce : Option UInt64
deriving DecidableEq

/-- What the method does, step by step. -/
inductive BatchStep where
  | attempted (attempt : Attempt)
  | sent (call : Request)
  | progressed (completed total : Nat) (txHash : Option String)
  | observed (offset : Nat) (hash : String) (status : GetStatus)

/-- How far a call came. -/
inductive Progress where
  | waiting
  | threw (message : String)
  | returned (results : List TransactionResult)
deriving DecidableEq

structure BatchRun where
  log : List BatchStep
  progress : Progress

/-! ## Checks -/

/-- `BigInt` of an argument. -/
def Numeric.bigIntOrThrow (value : Numeric) : Except String Int :=
  match value.toBigInt with
  | some value => .ok value
  | none => .error "Cannot convert to a BigInt"

def assertAccountAddress (sdk : StellarSdk) (address field : String) : Except String Unit :=
  if sdk.isValidEd25519PublicKey address = true then .ok ()
  else .error ("Invalid account address for \"" ++ field ++
    "\": expected a G-address (ed25519 public key), got \"" ++ address ++ "\"")

def assertContractAddress (sdk : StellarSdk) (address field : String) : Except String Unit :=
  if sdk.isValidContract address = true then .ok ()
  else .error ("Invalid contract address for \"" ++ field ++
    "\": expected a C-address (contract), got \"" ++ address ++ "\"")

/-- The targets are checked in their order, each under its index. -/
def assertTargets (sdk : StellarSdk) : Nat → List String → Except String Unit
  | _, [] => .ok ()
  | index, target :: rest => do
      assertContractAddress sdk target ("targets[" ++ toString index ++ "]")
      assertTargets sdk (index + 1) rest

def assertOptions (sdk : StellarSdk) (options : BatchFundCOptions) : Except String Unit := do
  assertAccountAddress sdk options.source "source"
  if options.targets.length ≠ options.amounts.length then
    throw ("targets and amounts must have the same length (got " ++
      toString options.targets.length ++ " targets vs " ++
      toString options.amounts.length ++ " amounts)")
  assertTargets sdk 0 options.targets
  assertContractAddress sdk options.asset "asset"

/-! ## The method -/

/-- `new Address` of a key. -/
def newAddress (sdk : StellarSdk) (key : String) : Except String Address :=
  match sdk.address key with
  | some address => .ok address
  | none => .error ("Unsupported address type: " ++ key)

def bigIntOfAmount (amount : String) : Except String Int :=
  match bigInt amount with
  | some value => .ok value
  | none => .error ("Cannot convert " ++ amount ++ " to a BigInt")

/-- The text of an error, or another one when it is empty. -/
def messageOr (message otherwise : String) : String :=
  if message = "" then otherwise else message

/-- The call of a chunk. -/
def BatchClient.call (c : BatchClient) (deadline : Option UInt64) (attempt : Attempt) :
    Except String Request := do
  let source ← newAddress c.sdk c.options.source
  let targets ← attempt.targets.mapM (newAddress c.sdk)
  let values ← attempt.amounts.mapM bigIntOfAmount
  let asset ← newAddress c.sdk c.options.asset
  let amounts ← values.mapM c.native.i128
  return .batchFundCAddress source targets amounts asset attempt.nonce deadline

/-- The call of a chunk when it comes to sending it. -/
def BatchClient.sentCall (c : BatchClient) (deadline : Option UInt64) (attempt : Attempt) :
    Except String Request := do
  (c.rpc (attempt.offset / batchTxLimit)).account
  let call ← c.call deadline attempt
  (c.rpc (attempt.offset / batchTxLimit)).prepared
  return call

/-- How the submission of a chunk goes. -/
def BatchClient.outcome (c : BatchClient) (deadline : Option UInt64) (attempt : Attempt) :
    RpcOutcome :=
  match c.sentCall deadline attempt with
  | .error message => .threw message
  | .ok _ =>
      match (c.rpc (attempt.offset / batchTxLimit)).sent with
      | .error message => .threw message
      | .ok (hash, status) => .sent hash status

/-- The result of a chunk, which is made as that of any other transaction. -/
def BatchClient.result (c : BatchClient) (deadline : Option UInt64) (attempt : Attempt) :
    TransactionResult :=
  fundCrosschain (c.outcome deadline attempt)

/-- What is done for a chunk until its result is known. -/
def BatchClient.submission (c : BatchClient) (deadline : Option UInt64) (attempt : Attempt) :
    List BatchStep :=
  .attempted attempt ::
    match c.sentCall deadline attempt with
    | .ok call => [.sent call]
    | .error _ => []

/-- The request for a transaction is made again while it is not found, as long as the caller has
patience. -/
def awaitConfirmation (polls : Nat → Except String GetStatus) (turn : Nat) :
    Nat → List GetStatus × Option (Except String GetStatus)
  | 0 => ([], none)
  | patience + 1 =>
      match polls turn with
      | .error message => ([], some (.error message))
      | .ok .notFound =>
          let (seen, last) := awaitConfirmation polls (turn + 1) patience
          (.notFound :: seen, last)
      | .ok status => ([status], some (.ok status))

/-- The results of the chunks that are not tried. -/
def notSubmitted (left : Nat) (error : String) : List TransactionResult :=
  List.replicate ((left + (batchTxLimit - 1)) / batchTxLimit)
    { hash := "", status := .failed, error := some error }

/-- The nonce of the chunk at an offset. Its error is not caught. -/
def BatchClient.nonceScVal (c : BatchClient) (baseNonce : Option Int) (offset : Nat) :
    Except String (Option UInt64) :=
  match baseNonce with
  | none => .ok none
  | some base => (c.native.u64 (base + (offset / batchTxLimit : Nat))).map some

/-- The hash is handed over unless it is empty. -/
def txHash (result : TransactionResult) : Option String :=
  if result.hash = "" then none else some result.hash

def BatchClient.callback (c : BatchClient) (completed : Nat) (result : TransactionResult) :
    List BatchStep × Except String Unit :=
  match c.onProgress with
  | none => ([], .ok ())
  | some onProgress =>
      ([.progressed completed c.options.targets.length (txHash result)],
        onProgress completed c.options.targets.length (txHash result))

/-- The loop over the chunks, from an offset on. -/
def BatchClient.splitFrom (c : BatchClient) (baseNonce : Option Int) (deadline : Option UInt64)
    (patience : Nat) : Nat → Nat → List BatchStep → List TransactionResult → BatchRun
  | 0, _, log, _ => { log, progress := .waiting }
  | turns + 1, offset, log, results =>
      let total := c.options.targets.length
      if total ≤ offset then { log, progress := .returned results }
      else
        match c.nonceScVal baseNonce offset with
        | .error message => { log, progress := .threw message }
        | .ok nonce =>
            let attempt : Attempt :=
              { offset
                targets := (c.options.targets.drop offset).take batchTxLimit
                amounts := (c.options.amounts.drop offset).take batchTxLimit
                nonce }
            let result := c.result deadline attempt
            let completed := offset + attempt.targets.length
            let (progressed, called) := c.callback completed result
            let log := log ++ c.submission deadline attempt ++ progressed
            match called with
            | .error message => { log, progress := .threw message }
            | .ok () =>
                let left := total - offset - attempt.targets.length
                if baseNonce.isSome = true ∧ offset + batchTxLimit < total then
                  if result.status = .failed then
                    { log
                      progress := .returned (results ++ result :: notSubmitted left
                        "Not submitted because an earlier nonce transaction failed") }
                  else
                    let (seen, confirmation) := awaitConfirmation
                      (c.rpc (offset / batchTxLimit)).polls 0 patience
                    let log := log ++ seen.map (BatchStep.observed offset result.hash)
                    match confirmation with
                    | none => { log, progress := .waiting }
                    | some (.error message) =>
                        { log
                          progress := .returned (results ++
                            { result with
                              status := .failed
                              error := some
                                (messageOr message "Unable to confirm nonce transaction") } ::
                            notSubmitted left ("Not submitted because an earlier nonce " ++
                              "transaction could not be confirmed")) }
                    | some (.ok .failed) =>
                        { log
                          progress := .returned (results ++
                            { result with
                              status := .failed
                              error := some "Transaction failed on-chain" } ::
                            notSubmitted left
                              "Not submitted because an earlier nonce transaction failed") }
                    | some (.ok _) =>
                        c.splitFrom baseNonce deadline patience turns (offset + batchTxLimit) log
                          (results ++ [result])
                else
                  c.splitFrom baseNonce deadline patience turns (offset + batchTxLimit) log
                    (results ++ [result])

def BatchClient.baseNonce (c : BatchClient) : Except String (Option Int) :=
  match c.options.nonce with
  | none => .ok none
  | some nonce => nonce.bigIntOrThrow.map some

def BatchClient.deadlineScVal (c : BatchClient) : Except String (Option UInt64) :=
  match c.options.deadline with
  | none => .ok none
  | some deadline => (deadline.bigIntOrThrow.bind c.native.u64).map some

/-- A call with some patience. No more turns are taken than there are targets. -/
def BatchClient.batchFundCAddresses (c : BatchClient) (patience : Nat) : BatchRun :=
  match assertOptions c.sdk c.options with
  | .error message =>
      { log := []
        progress := .returned
          [{ hash := "", status := .failed, error := some (messageOr message "Unknown error") }] }
  | .ok () =>
      match c.baseNonce with
      | .error message => { log := [], progress := .threw message }
      | .ok baseNonce =>
          match c.deadlineScVal with
          | .error message => { log := [], progress := .threw message }
          | .ok deadline =>
              c.splitFrom baseNonce deadline patience (c.options.targets.length + 1) 0 [] []

/-! ## How a batch is split -/

/-- The attempts of a log, in their order. -/
def attempts (log : List BatchStep) : List Attempt :=
  log.filterMap fun
    | .attempted attempt => some attempt
    | _ => none

/-- The calls that were sent, in their order. -/
def calls (log : List BatchStep) : List Request :=
  log.filterMap fun
    | .sent call => some call
    | _ => none

section Splitting

variable (c : BatchClient) (baseNonce : Option Int) (deadline : Option UInt64)

/-- The number of transactions that a batch takes. -/
def BatchClient.chunks : ℕ := c.options.targets.length ⌈/⌉ batchTxLimit

/-- The attempt of the chunk with a number. -/
def BatchClient.attempt (number : ℕ) : Attempt where
  offset := batchTxLimit * number
  targets := chunk batchTxLimit c.options.targets number
  amounts := chunk batchTxLimit c.options.amounts number
  nonce := (c.nonceScVal baseNonce (batchTxLimit * number)).toOption.getD none

/-- What is returned of a chunk as soon as it was tried. -/
def BatchClient.submitted (number : ℕ) : TransactionResult :=
  c.result deadline (c.attempt baseNonce number)

/-- The transaction of a chunk was sent and looked up until it was known, and had not failed. -/
def BatchClient.Confirmed (number : ℕ) : Prop :=
  (c.submitted baseNonce deadline number).status = .pending ∧
    ∃ turn, (c.rpc number).polls turn = .ok .success ∧
      ∀ earlier < turn, (c.rpc number).polls earlier = .ok .notFound

/-- The chunk after this one is tried. -/
def BatchClient.Passes (number : ℕ) : Prop :=
  baseNonce = none ∨ c.Confirmed baseNonce deadline number

/-- How a batch is to be split, when a number of its chunks was tried. -/
structure BatchClient.Splits (attempted : ℕ) (log : List BatchStep)
    (results : List TransactionResult) : Prop where
  bounded : attempted ≤ c.chunks
  /-- The attempts are the first chunks, each once and in order. -/
  chunked : attempts log = (List.range attempted).map (c.attempt baseNonce)
  targets : (attempts log).flatMap Attempt.targets =
    c.options.targets.take (batchTxLimit * attempted)
  amounts : (attempts log).flatMap Attempt.amounts =
    c.options.amounts.take (batchTxLimit * attempted)
  sizes : ∀ attempt ∈ attempts log, attempt.targets.length ≤ batchTxLimit ∧
    attempt.amounts.length = attempt.targets.length
  /-- What is sent are the calls of the attempts that come to it. -/
  sent : calls log = (attempts log).filterMap fun attempt =>
    (c.sentCall deadline attempt).toOption
  nonces : ∀ number < attempted,
    (c.attempt baseNonce number).nonce.map (fun nonce => (nonce.toNat : ℤ)) =
      baseNonce.map (· + (number : ℤ))
  count : results.length = c.chunks
  /-- A chunk that was tried has its own result, but for the failure to confirm it. -/
  own : ∀ number < attempted, ∃ result, results[number]? = some result ∧
    result.hash = (c.submitted baseNonce deadline number).hash ∧
    (result = c.submitted baseNonce deadline number ∨
      number + 1 = attempted ∧ attempted < c.chunks ∧ result.status = .failed)
  starts : 0 < c.chunks → 0 < attempted
  /-- The next chunk is tried just when there is no nonce or this one is confirmed. -/
  goesOn : ∀ number < attempted, number + 1 < c.chunks →
    (number + 1 < attempted ↔ c.Passes baseNonce deadline number)
  /-- With a nonce the transaction before was seen on chain, and seen not to have failed. -/
  ordered : baseNonce ≠ none → ∀ before number after,
    log = before ++ .attempted (c.attempt baseNonce (number + 1)) :: after →
      .observed (batchTxLimit * number) (c.submitted baseNonce deadline number).hash .success ∈
        before
  /-- From the chunk on that the call stops at, all are reported as failed. -/
  failed : attempted < c.chunks → ∀ number < c.chunks, attempted ≤ number + 1 →
    ∃ result, results[number]? = some result ∧ result.status = .failed
  unsent : ∀ number < c.chunks, attempted ≤ number →
    ∃ result, results[number]? = some result ∧ result.hash = ""
  whole : baseNonce = none → attempted = c.chunks

/-- A chunk comes to its turn when those before it let the call go on. -/
def BatchClient.Reached (number : ℕ) : Prop :=
  ∀ earlier < number, c.Passes baseNonce deadline earlier

/-- The callback for a chunk throws nothing. -/
def BatchClient.CalledBack (number : ℕ) : Prop :=
  (c.callback (batchTxLimit * number + (c.attempt baseNonce number).targets.length)
    (c.submitted baseNonce deadline number)).2 = .ok ()

/-- The nonces of the chunks that come to their turn are in their range, the callback throws
nothing, and each transaction that is waited for becomes known. -/
structure BatchClient.Settles : Prop where
  fits : ∀ number < c.chunks, c.Reached baseNonce deadline number →
    ∀ base ∈ baseNonce, 0 ≤ base + number ∧ base + number < 2 ^ 64
  calledBack : ∀ number < c.chunks, c.Reached baseNonce deadline number →
    c.CalledBack baseNonce deadline number
  known : ∀ number, number + 1 < c.chunks → c.Reached baseNonce deadline number →
    baseNonce ≠ none → (c.submitted baseNonce deadline number).status = .pending →
    ∃ turn, (c.rpc number).polls turn ≠ .ok .notFound

/-! ## Courses of the loop -/

/-- A chunk is begun: it has a nonce, and the callback returns. -/
structure BatchClient.Begins (number : ℕ) : Prop where
  more : number < c.chunks
  encoded : c.nonceScVal baseNonce (batchTxLimit * number) =
    .ok (c.attempt baseNonce number).nonce
  calledBack : c.CalledBack baseNonce deadline number

/-- The steps of one turn, with what was seen of the transaction. -/
def BatchClient.turn (number : ℕ) (seen : List GetStatus) : List BatchStep :=
  c.submission deadline (c.attempt baseNonce number) ++
    (c.callback (batchTxLimit * number + (c.attempt baseNonce number).targets.length)
      (c.submitted baseNonce deadline number)).1 ++
    seen.map (.observed (batchTxLimit * number) (c.submitted baseNonce deadline number).hash)

/-- The steps and the results from a chunk on, until a number of chunks was tried. -/
inductive BatchClient.Course : ℕ → ℕ → List BatchStep → List TransactionResult → Prop
  | done {number : ℕ} (all : c.chunks ≤ number) : Course number number [] []
  | onward {number attempted : ℕ} {seen : List GetStatus} {log : List BatchStep}
      {results : List TransactionResult} (begun : c.Begins baseNonce deadline number)
      (passes : number + 1 < c.chunks → c.Passes baseNonce deadline number)
      (observed : number + 1 < c.chunks → baseNonce ≠ none → .success ∈ seen)
      (rest : Course (number + 1) attempted log results) :
      Course number attempted (c.turn baseNonce deadline number seen ++ log)
        (c.submitted baseNonce deadline number :: results)
  | stopped {number : ℕ} {seen : List GetStatus} {result : TransactionResult} {error : String}
      (begun : c.Begins baseNonce deadline number) (more : number + 1 < c.chunks)
      (unconfirmed : ¬ c.Passes baseNonce deadline number)
      (known : (c.submitted baseNonce deadline number).status = .pending →
        ∃ turn, (c.rpc number).polls turn ≠ .ok .notFound)
      (own : result.hash = (c.submitted baseNonce deadline number).hash)
      (failed : result.status = .failed) :
      Course number (number + 1) (c.turn baseNonce deadline number seen)
        (result :: List.replicate (c.chunks - (number + 1))
          { hash := "", status := .failed, error := some error })

variable {c baseNonce deadline}

theorem attempts_append (log log' : List BatchStep) :
    attempts (log ++ log') = attempts log ++ attempts log' := List.filterMap_append

theorem calls_append (log log' : List BatchStep) :
    calls (log ++ log') = calls log ++ calls log' := List.filterMap_append

theorem attempts_observed (offset : ℕ) (hash : String) (seen : List GetStatus) :
    attempts (seen.map (.observed offset hash)) = [] := by
  rw [attempts, List.filterMap_map]
  exact List.filterMap_eq_nil_iff.mpr fun _ _ => rfl

theorem calls_observed (offset : ℕ) (hash : String) (seen : List GetStatus) :
    calls (seen.map (.observed offset hash)) = [] := by
  rw [calls, List.filterMap_map]
  exact List.filterMap_eq_nil_iff.mpr fun _ _ => rfl

theorem attempts_turn (number : ℕ) (seen : List GetStatus) :
    attempts (c.turn baseNonce deadline number seen) = [c.attempt baseNonce number] := by
  rw [BatchClient.turn, attempts_append, attempts_append, attempts_observed, BatchClient.submission,
    BatchClient.callback]
  split <;> split <;> rfl

theorem calls_turn (number : ℕ) (seen : List GetStatus) :
    calls (c.turn baseNonce deadline number seen) =
      [c.attempt baseNonce number].filterMap fun attempt =>
        (c.sentCall deadline attempt).toOption := by
  rw [BatchClient.turn, calls_append, calls_append, calls_observed, BatchClient.submission,
    BatchClient.callback]
  match sent : c.sentCall deadline (c.attempt baseNonce number) with
  | .ok call =>
      simp only [List.filterMap_cons, sent]
      split <;> rfl
  | .error message =>
      simp only [List.filterMap_cons, sent]
      split <;> rfl

/-- An entry that is not in the front of a list stands behind it. -/
theorem split_of_not_mem {α : Type} {front back before after : List α} {entry : α}
    (split : front ++ back = before ++ entry :: after) (apart : entry ∉ front) :
    ∃ between, before = front ++ between ∧ back = between ++ entry :: after := by
  rcases List.append_eq_append_iff.mp split with ⟨between, ahead, within⟩ | ⟨between, inside, rest⟩
  · exact ⟨between, ahead, within⟩
  · cases between with
    | nil => exact ⟨[], by simpa using inside.symm, rest.symm⟩
    | cons first between =>
        obtain ⟨rfl, -⟩ := List.cons.inj rest
        exact absurd (inside ▸ List.mem_append_right _ List.mem_cons_self) apart

namespace BatchClient.Course

variable {number attempted : ℕ} {log : List BatchStep} {results : List TransactionResult}

theorem le (course : c.Course baseNonce deadline number attempted log results) :
    number ≤ attempted := by
  induction course with
  | done all => exact Nat.le_refl _
  | onward begun passes observed rest ih => exact Nat.le_of_succ_le ih
  | stopped begun more unconfirmed known own failed => exact Nat.le_succ _

theorem bounded (course : c.Course baseNonce deadline number attempted log results)
    (within : number ≤ c.chunks) : attempted ≤ c.chunks := by
  induction course with
  | done all => exact within
  | onward begun passes observed rest ih => exact ih begun.more
  | stopped begun more unconfirmed known own failed => exact begun.more

theorem chunked (course : c.Course baseNonce deadline number attempted log results) :
    attempts log = (List.range' number (attempted - number)).map (c.attempt baseNonce) := by
  induction course with
  | done all => rw [Nat.sub_self]; rfl
  | @onward number attempted seen log results begun passes observed rest ih =>
      have later := rest.le
      rw [attempts_append, attempts_turn, ih,
        (by omega : attempted - number = attempted - (number + 1) + 1), List.range'_succ]
      rfl
  | stopped begun more unconfirmed known own failed =>
      rw [attempts_turn, Nat.add_sub_cancel_left]
      rfl

theorem sent (course : c.Course baseNonce deadline number attempted log results) :
    calls log = (attempts log).filterMap fun attempt =>
      (c.sentCall deadline attempt).toOption := by
  induction course with
  | done all => rfl
  | onward begun passes observed rest ih =>
      rw [calls_append, attempts_append, attempts_turn, calls_turn, ih, List.filterMap_append]
  | stopped begun more unconfirmed known own failed => rw [attempts_turn, calls_turn]

theorem count (course : c.Course baseNonce deadline number attempted log results) :
    results.length = c.chunks - number := by
  induction course with
  | done all => rw [Nat.sub_eq_zero_of_le all]; rfl
  | onward begun passes observed rest ih =>
      rw [List.length_cons, ih]
      have more := begun.more
      omega
  | stopped begun more unconfirmed known own failed =>
      rw [List.length_cons, List.length_replicate]
      omega

theorem own (course : c.Course baseNonce deadline number attempted log results) {later : ℕ}
    (from_start : number ≤ later) (tried : later < attempted) :
    ∃ result, results[later - number]? = some result ∧
      result.hash = (c.submitted baseNonce deadline later).hash ∧
      (result = c.submitted baseNonce deadline later ∨
        later + 1 = attempted ∧ attempted < c.chunks ∧ result.status = .failed) := by
  induction course with
  | done all => omega
  | @onward number attempted seen log results begun passes observed rest ih =>
      rcases Nat.eq_or_lt_of_le from_start with rfl | after
      · rw [Nat.sub_self]
        exact ⟨_, rfl, rfl, .inl rfl⟩
      · rw [(by omega : later - number = later - (number + 1) + 1), List.getElem?_cons_succ]
        exact ih after tried
  | @stopped number seen result error begun more unconfirmed known own failed =>
      obtain rfl : later = number := by omega
      rw [Nat.sub_self]
      exact ⟨_, rfl, own, .inr ⟨rfl, more, failed⟩⟩

theorem unsent (course : c.Course baseNonce deadline number attempted log results) {later : ℕ}
    (untried : attempted ≤ later) (within : later < c.chunks) :
    ∃ result, results[later - number]? = some result ∧ result.hash = "" ∧
      result.status = .failed := by
  induction course with
  | done all => omega
  | @onward number attempted seen log results begun passes observed rest ih =>
      have further := rest.le
      rw [(by omega : later - number = later - (number + 1) + 1), List.getElem?_cons_succ]
      exact ih untried
  | @stopped number seen result error begun more unconfirmed known own failed =>
      rw [(by omega : later - number = later - (number + 1) + 1), List.getElem?_cons_succ,
        List.getElem?_replicate, if_pos (by omega)]
      exact ⟨_, rfl, rfl, rfl⟩

/-- The chunk the call stops at has a result that failed. -/
theorem stopped_failed (course : c.Course baseNonce deadline number attempted log results)
    (before : number < attempted) (stops : attempted < c.chunks) :
    ∃ result, results[attempted - 1 - number]? = some result ∧ result.status = .failed := by
  induction course with
  | done all => omega
  | @onward number attempted seen log results begun passes observed rest ih =>
      rcases Nat.eq_or_lt_of_le rest.le with rfl | further
      · cases rest with
        | done all => omega
        | onward begun passes observed rest => exact absurd rest.le (by omega)
      · rw [(by omega : attempted - 1 - number = attempted - 1 - (number + 1) + 1),
          List.getElem?_cons_succ]
        exact ih further stops
  | stopped begun more unconfirmed known own failed =>
      rw [Nat.add_sub_cancel, Nat.sub_self]
      exact ⟨_, rfl, failed⟩

theorem starts (course : c.Course baseNonce deadline number attempted log results)
    (more : number < c.chunks) : number < attempted := by
  cases course with
  | done all => omega
  | onward begun passes observed rest => exact rest.le
  | stopped begun more unconfirmed known own failed => exact Nat.lt_succ_self _

theorem goesOn (course : c.Course baseNonce deadline number attempted log results) {later : ℕ}
    (from_start : number ≤ later) (tried : later < attempted) (more : later + 1 < c.chunks) :
    later + 1 < attempted ↔ c.Passes baseNonce deadline later := by
  induction course with
  | done all => omega
  | onward begun passes observed rest ih =>
      rcases Nat.eq_or_lt_of_le from_start with rfl | after
      · exact ⟨fun _ => passes more, fun _ => rest.starts more⟩
      · exact ih after tried
  | @stopped number seen result error begun _ unconfirmed known own failed =>
      obtain rfl : later = number := by omega
      exact ⟨fun further => absurd further (Nat.lt_irrefl _),
        fun passes => absurd passes unconfirmed⟩

/-- A chunk that comes to its turn is tried. -/
theorem tried (course : c.Course baseNonce deadline 0 attempted log results) {later : ℕ}
    (more : later < c.chunks) (reached : c.Reached baseNonce deadline later) :
    later < attempted := by
  induction later with
  | zero => exact course.starts more
  | succ later ih =>
      have before : later < attempted :=
        ih (Nat.lt_of_succ_lt more) fun earlier early => reached earlier (Nat.lt_succ_of_lt early)
      exact (course.goesOn (Nat.zero_le _) before more).mpr (reached later (Nat.lt_succ_self _))

/-- What is tried was begun, and its transaction becomes known if it is waited for. -/
theorem begins (course : c.Course baseNonce deadline number attempted log results) {later : ℕ}
    (from_start : number ≤ later) (tried : later < attempted) :
    c.Begins baseNonce deadline later ∧
      (later + 1 < c.chunks → baseNonce ≠ none →
        (c.submitted baseNonce deadline later).status = .pending →
        ∃ turn, (c.rpc later).polls turn ≠ .ok .notFound) := by
  induction course with
  | done all => omega
  | onward begun passes observed rest ih =>
      rcases Nat.eq_or_lt_of_le from_start with rfl | after
      · refine ⟨begun, fun more given _ => ?_⟩
        obtain ⟨-, turn, success, -⟩ := (passes more).resolve_left given
        exact ⟨turn, success ▸ fun same => by cases same⟩
      · exact ih after tried
  | @stopped number seen result error begun more unconfirmed known own failed =>
      obtain rfl : later = number := by omega
      exact ⟨begun, fun _ _ => known⟩

/-- The first attempt of a turn is that of its chunk. -/
theorem attempted_of_mem_turn {seen : List GetStatus} {attempt : Attempt}
    (member : .attempted attempt ∈ c.turn baseNonce deadline number seen) :
    attempt = c.attempt baseNonce number := by
  have among : attempt ∈ attempts (c.turn baseNonce deadline number seen) :=
    List.mem_filterMap.mpr ⟨_, member, rfl⟩
  rwa [attempts_turn, List.mem_singleton] at among

theorem ordered (course : c.Course baseNonce deadline number attempted log results)
    (given : baseNonce ≠ none) {before after : List BatchStep} {later : ℕ}
    (from_start : number ≤ later)
    (split : log = before ++ .attempted (c.attempt baseNonce (later + 1)) :: after) :
    .observed (batchTxLimit * later) (c.submitted baseNonce deadline later).hash .success ∈
      before := by
  have apart {number : ℕ} (seen : List GetStatus) (from_start : number ≤ later) :
      .attempted (c.attempt baseNonce (later + 1)) ∉
        c.turn baseNonce deadline number seen := by
    intro member
    have same := Nat.eq_of_mul_eq_mul_left (by decide)
      (congrArg Attempt.offset (attempted_of_mem_turn member))
    omega
  induction course generalizing before with
  | done all => simp at split
  | @onward number attempted seen log results begun passes observed rest ih =>
      obtain ⟨between, rfl, within⟩ := split_of_not_mem split (apart seen from_start)
      rcases Nat.eq_or_lt_of_le from_start with rfl | further
      · have more : number + 1 < c.chunks := by
          cases rest with
          | done all => simp at within
          | onward begun passes observed rest => exact begun.more
          | stopped begun more unconfirmed known own failed => exact begun.more
        refine List.mem_append_left _ (List.mem_append_right _ ?_)
        exact List.mem_map_of_mem (observed more given)
      · exact List.mem_append_right _ (ih further within)
  | @stopped number seen result error begun more unconfirmed known own failed =>
      exact absurd (split ▸ List.mem_append_right _ List.mem_cons_self) (apart seen from_start)

end BatchClient.Course

/-- A whole course splits the batch, if the nonces of its chunks are encoded as they are. -/
theorem BatchClient.Course.splits {attempted : ℕ} {log : List BatchStep}
    {results : List TransactionResult} (same : c.options.targets.length = c.options.amounts.length)
    (course : c.Course baseNonce deadline 0 attempted log results)
    (nonces : ∀ number < attempted,
      (c.attempt baseNonce number).nonce.map (fun nonce => (nonce.toNat : ℤ)) =
        baseNonce.map (· + (number : ℤ))) :
    c.Splits baseNonce deadline attempted log results := by
  have chunked : attempts log = (List.range attempted).map (c.attempt baseNonce) := by
    rw [course.chunked, Nat.sub_zero, List.range_eq_range']
  exact
    { bounded := course.bounded (Nat.zero_le _)
      chunked
      targets := by
        rw [chunked, List.flatMap_map]
        exact flatMap_chunk c.options.targets attempted
      amounts := by
        rw [chunked, List.flatMap_map]
        exact flatMap_chunk c.options.amounts attempted
      sizes := by
        intro attempt member
        rw [chunked] at member
        obtain ⟨number, -, rfl⟩ := List.mem_map.mp member
        refine ⟨length_chunk_le _ _, ?_⟩
        simp only [BatchClient.attempt, length_chunk, same]
      sent := course.sent
      nonces
      count := course.count
      own := fun number tried => course.own (Nat.zero_le _) tried
      starts := course.starts
      goesOn := fun number tried more => course.goesOn (Nat.zero_le _) tried more
      ordered := fun given before number after split =>
        course.ordered given (Nat.zero_le _) split
      failed := by
        intro stops number within behind
        rcases Nat.lt_or_ge number attempted with tried | untried
        · obtain ⟨result, found, failed⟩ := course.stopped_failed (Nat.zero_lt_of_lt tried) stops
          rw [(by omega : attempted - 1 - 0 = number)] at found
          exact ⟨result, found, failed⟩
        · obtain ⟨result, found, -, failed⟩ := course.unsent untried within
          exact ⟨result, found, failed⟩
      unsent := by
        intro number within untried
        obtain ⟨result, found, hash, -⟩ := course.unsent untried within
        exact ⟨result, found, hash⟩
      whole := by
        intro without
        by_contra short
        have bounded := course.bounded (Nat.zero_le _)
        have started := course.starts (by omega)
        have further : attempted - 1 + 1 < attempted :=
          (course.goesOn (Nat.zero_le _) (by omega) (by omega)).mpr (.inl without)
        omega }

/-! ## The loop -/

/-- A transaction that is known is looked up once. -/
theorem awaitConfirmation_now {polls : ℕ → Except String GetStatus} {start : ℕ} (patience : ℕ)
    (known : polls start ≠ .ok .notFound) :
    awaitConfirmation polls start (patience + 1) =
      ((polls start).toOption.toList, some (polls start)) := by
  rw [awaitConfirmation]
  match poll : polls start with
  | .error message => rfl
  | .ok .success => rfl
  | .ok .failed => rfl
  | .ok .notFound => exact absurd poll known

theorem awaitConfirmation_later {polls : ℕ → Except String GetStatus} {start : ℕ} (patience : ℕ)
    (unknown : polls start = .ok .notFound) :
    awaitConfirmation polls start (patience + 1) =
      (.notFound :: (awaitConfirmation polls (start + 1) patience).1,
        (awaitConfirmation polls (start + 1) patience).2) := by
  rw [awaitConfirmation, unknown]

/-- What waiting for a transaction comes to. -/
theorem awaitConfirmation_spec {polls : ℕ → Except String GetStatus} {patience start : ℕ}
    {last : Except String GetStatus}
    (waited : (awaitConfirmation polls start patience).2 = some last) :
    ∃ turn, polls (start + turn) = last ∧ last ≠ .ok .notFound ∧
      (∀ earlier < turn, polls (start + earlier) = .ok .notFound) ∧
      ∀ status, last = .ok status → status ∈ (awaitConfirmation polls start patience).1 := by
  induction patience generalizing start with
  | zero => cases waited
  | succ patience ih =>
      by_cases unknown : polls start = .ok .notFound
      · rw [awaitConfirmation_later patience unknown] at waited ⊢
        obtain ⟨turn, found, known, before, among⟩ := ih waited
        refine ⟨turn + 1, by rw [← found, Nat.add_right_comm, Nat.add_assoc], known, ?_,
          fun status same => List.mem_cons_of_mem _ (among status same)⟩
        intro earlier early
        cases earlier with
        | zero => exact unknown
        | succ earlier =>
            have step := before earlier (Nat.lt_of_succ_lt_succ early)
            rwa [Nat.add_right_comm, Nat.add_assoc] at step
      · rw [awaitConfirmation_now patience unknown] at waited ⊢
        obtain rfl := Option.some.inj waited
        refine ⟨0, rfl, unknown, fun _ early => absurd early (Nat.not_lt_zero _), ?_⟩
        intro status same
        rw [same]
        exact List.mem_singleton_self _

/-- A transaction that becomes known is not waited for longer. -/
theorem awaitConfirmation_known {polls : ℕ → Except String GetStatus} {patience start turn : ℕ}
    (early : turn < patience) (known : polls (start + turn) ≠ .ok .notFound) :
    (awaitConfirmation polls start patience).2 ≠ none := by
  induction patience generalizing start turn with
  | zero => exact absurd early (Nat.not_lt_zero _)
  | succ patience ih =>
      by_cases unknown : polls start = .ok .notFound
      · rw [awaitConfirmation_later patience unknown]
        cases turn with
        | zero => exact absurd unknown known
        | succ turn =>
            rw [Nat.add_comm turn, ← Nat.add_assoc] at known
            exact ih (Nat.lt_of_succ_lt_succ early) known
      · rw [awaitConfirmation_now patience unknown]
        exact Option.some_ne_none _

/-- There is one first answer that a transaction is known. -/
theorem first_known {polls : ℕ → Except String GetStatus} {turn turn' : ℕ}
    (before : ∀ earlier < turn, polls earlier = .ok .notFound)
    (before' : ∀ earlier < turn', polls earlier = .ok .notFound)
    (known : polls turn ≠ .ok .notFound) (known' : polls turn' ≠ .ok .notFound) :
    polls turn = polls turn' := by
  rcases Nat.lt_trichotomy turn turn' with less | rfl | more
  · exact absurd (before' turn less) known
  · rfl
  · exact absurd (before turn' more) known'

/-- How one turn of the loop ends. -/
inductive BatchClient.Turns (c : BatchClient) (baseNonce : Option Int) (deadline : Option UInt64)
    (patience turns number : ℕ) (log : List BatchStep) (results : List TransactionResult) :
    BatchRun → Prop
  | done (all : c.chunks ≤ number) :
      Turns c baseNonce deadline patience turns number log results
        { log, progress := .returned results }
  | threw {thrown : List BatchStep} {message : String} (more : number < c.chunks)
      (unfit : ¬ c.Begins baseNonce deadline number) :
      Turns c baseNonce deadline patience turns number log results
        { log := thrown, progress := .threw message }
  | onward {seen : List GetStatus} (begun : c.Begins baseNonce deadline number)
      (passes : number + 1 < c.chunks → c.Passes baseNonce deadline number)
      (observed : number + 1 < c.chunks → baseNonce ≠ none → .success ∈ seen) :
      Turns c baseNonce deadline patience turns number log results
        (c.splitFrom baseNonce deadline patience turns (batchTxLimit * (number + 1))
          (log ++ c.turn baseNonce deadline number seen)
          (results ++ [c.submitted baseNonce deadline number]))
  | stopped {seen : List GetStatus} {result : TransactionResult} {error : String}
      (begun : c.Begins baseNonce deadline number) (more : number + 1 < c.chunks)
      (unconfirmed : ¬ c.Passes baseNonce deadline number)
      (known : (c.submitted baseNonce deadline number).status = .pending →
        ∃ turn, (c.rpc number).polls turn ≠ .ok .notFound)
      (own : result.hash = (c.submitted baseNonce deadline number).hash)
      (failed : result.status = .failed) :
      Turns c baseNonce deadline patience turns number log results
        { log := log ++ c.turn baseNonce deadline number seen
          progress := .returned (results ++ result ::
            List.replicate (c.chunks - (number + 1))
              { hash := "", status := .failed, error := some error }) }
  | waits {waiting : List BatchStep} (begun : c.Begins baseNonce deadline number)
      (more : number + 1 < c.chunks) (given : baseNonce ≠ none)
      (pending : (c.submitted baseNonce deadline number).status = .pending)
      (unknown : (awaitConfirmation (c.rpc number).polls 0 patience).2 = none) :
      Turns c baseNonce deadline patience turns number log results
        { log := waiting, progress := .waiting }

theorem pending_of_not_failed {status : Relayer.TransactionStatus}
    (other : ¬ status = .failed) : status = .pending := by
  cases status with
  | pending => rfl
  | failed => exact absurd rfl other

theorem notSubmitted_eq {number : ℕ} (more : number + 1 < c.chunks) (error : String) :
    notSubmitted (c.options.targets.length - batchTxLimit * number -
        (c.attempt baseNonce number).targets.length) error =
      List.replicate (c.chunks - (number + 1))
        { hash := "", status := .failed, error := some error } := by
  have long := (lt_ceilDiv_iff (by decide)).mp more
  rw [notSubmitted, BatchClient.attempt, length_chunk, BatchClient.chunks,
    Nat.ceilDiv_eq_add_pred_div]
  congr 1
  simp only [batchTxLimit] at long ⊢
  omega

theorem splitFrom_turns (patience turns number : ℕ) (log : List BatchStep)
    (results : List TransactionResult) :
    c.Turns baseNonce deadline patience turns number log results
      (c.splitFrom baseNonce deadline patience (turns + 1) (batchTxLimit * number) log
        results) := by
  have index : batchTxLimit * number / batchTxLimit = number :=
    Nat.mul_div_cancel_left number (by decide)
  have next : batchTxLimit * number + batchTxLimit = batchTxLimit * (number + 1) :=
    (Nat.mul_succ _ _).symm
  have another : batchTxLimit * (number + 1) < c.options.targets.length ↔
      number + 1 < c.chunks := (lt_ceilDiv_iff (by decide)).symm
  rw [BatchClient.splitFrom]
  by_cases all : c.options.targets.length ≤ batchTxLimit * number
  · rw [if_pos all]
    exact .done ((ceilDiv_le_iff_le_mul (by decide)).mpr all)
  · rw [if_neg all]
    have more : number < c.chunks := (lt_ceilDiv_iff (by decide)).mpr (not_le.mp all)
    match encoded : c.nonceScVal baseNonce (batchTxLimit * number) with
    | .error message =>
        exact .threw more fun begun => by cases encoded.symm.trans begun.encoded
    | .ok nonce =>
        have attempt : (⟨batchTxLimit * number,
            (c.options.targets.drop (batchTxLimit * number)).take batchTxLimit,
            (c.options.amounts.drop (batchTxLimit * number)).take batchTxLimit, nonce⟩ : Attempt) =
              c.attempt baseNonce number := by
          rw [BatchClient.attempt, encoded]
          rfl
        have targets : (c.options.targets.drop (batchTxLimit * number)).take batchTxLimit =
            (c.attempt baseNonce number).targets := rfl
        have submitted : c.result deadline (c.attempt baseNonce number) =
            c.submitted baseNonce deadline number := rfl
        have quiet : log ++ c.submission deadline (c.attempt baseNonce number) ++
            (c.callback (batchTxLimit * number + (c.attempt baseNonce number).targets.length)
              (c.submitted baseNonce deadline number)).1 =
            log ++ c.turn baseNonce deadline number [] := by
          rw [BatchClient.turn, List.map_nil, List.append_nil, List.append_assoc]
        have turn (seen : List GetStatus) : log ++ c.turn baseNonce deadline number [] ++
            seen.map (.observed (batchTxLimit * number)
              (c.submitted baseNonce deadline number).hash) =
            log ++ c.turn baseNonce deadline number seen := by
          rw [List.append_assoc, BatchClient.turn, BatchClient.turn, List.map_nil, List.append_nil]
        simp only [attempt, index, next, another]
        simp only [targets, submitted]
        match called : (c.callback (batchTxLimit * number + (c.attempt baseNonce number).targets.length)
            (c.submitted baseNonce deadline number)).2 with
        | .error message =>
            exact .threw more fun begun => by cases called.symm.trans begun.calledBack
        | .ok () =>
            have begun : c.Begins baseNonce deadline number :=
              { more, encoded := by rw [encoded, ← attempt], calledBack := called }
            simp only [quiet, turn]
            split
            · next given =>
              have present : baseNonce ≠ none := Option.isSome_iff_ne_none.mp given.1
              simp only [notSubmitted_eq given.2]
              split
              · next refused =>
                refine .stopped begun given.2 ?_ ?_ rfl refused
                · rintro (absent | ⟨pending, -⟩)
                  · exact present absent
                  · cases refused.symm.trans pending
                · exact fun pending => by cases refused.symm.trans pending
              · next accepted =>
                have pending := pending_of_not_failed accepted
                match waited : (awaitConfirmation (c.rpc number).polls 0 patience).2 with
                | none => exact .waits begun given.2 present pending waited
                | some last =>
                    obtain ⟨turn, found, known, before, among⟩ := awaitConfirmation_spec waited
                    rw [Nat.zero_add] at found
                    simp only [Nat.zero_add] at before
                    have unconfirmed (other : last ≠ .ok .success) :
                        ¬ c.Passes baseNonce deadline number := by
                      rintro (absent | ⟨-, turn', success, before'⟩)
                      · exact present absent
                      · have same := first_known before before' (found ▸ known)
                          (success ▸ fun same => by cases same)
                        exact other (found.symm.trans (same.trans success))
                    match last with
                    | .error message =>
                        exact .stopped begun given.2 (unconfirmed fun same => by cases same)
                          (fun _ => ⟨turn, found ▸ known⟩) rfl rfl
                    | .ok .failed =>
                        exact .stopped begun given.2 (unconfirmed fun same => by cases same)
                          (fun _ => ⟨turn, found ▸ known⟩) rfl rfl
                    | .ok .success =>
                        exact .onward begun (fun _ => .inr ⟨pending, turn, found, before⟩)
                          fun _ _ => among _ rfl
                    | .ok .notFound => exact absurd rfl known
            · next last =>
              refine .onward begun (fun more => .inl ?_) fun more present => ?_
              · by_contra present
                exact last ⟨Option.isSome_iff_ne_none.mpr present, more⟩
              · exact absurd ⟨Option.isSome_iff_ne_none.mpr present, more⟩ last

/-- A call that returns ran through a course. -/
theorem splitFrom_returned {patience turns number : ℕ} {log before : List BatchStep}
    {results earlier : List TransactionResult}
    (run : c.splitFrom baseNonce deadline patience turns (batchTxLimit * number) before earlier =
      { log, progress := .returned results }) :
    ∃ attempted steps own, log = before ++ steps ∧ results = earlier ++ own ∧
      c.Course baseNonce deadline number attempted steps own := by
  induction turns generalizing number before earlier with
  | zero => cases run
  | succ turns ih =>
      have turn : c.Turns baseNonce deadline patience turns number before earlier _ :=
        splitFrom_turns patience turns number before earlier
      generalize c.splitFrom baseNonce deadline patience (turns + 1) (batchTxLimit * number) before
        earlier = reached at run turn
      cases turn with
      | done all =>
          obtain ⟨rfl, rfl⟩ := run
          exact ⟨number, [], [], (List.append_nil _).symm, (List.append_nil _).symm, .done all⟩
      | threw more unfit => cases run
      | waits begun more given pending unknown => cases run
      | onward begun passes observed =>
          obtain ⟨attempted, steps, own, rfl, rfl, rest⟩ := ih run
          exact ⟨attempted, _, _, List.append_assoc .., List.append_assoc ..,
            .onward begun passes observed rest⟩
      | stopped begun more unconfirmed known own failed =>
          obtain ⟨rfl, rfl⟩ := run
          exact ⟨number + 1, _, _, rfl, rfl, .stopped begun more unconfirmed known own failed⟩

/-- A nonce in its range is encoded as it is. -/
theorem nonceScVal_exact (faithful : c.native.Exact) {number : ℕ}
    (fits : ∀ base ∈ baseNonce, 0 ≤ base + number ∧ base + number < 2 ^ 64) :
    c.nonceScVal baseNonce (batchTxLimit * number) = .ok (c.attempt baseNonce number).nonce ∧
      (c.attempt baseNonce number).nonce.map (fun nonce => (nonce.toNat : ℤ)) =
        baseNonce.map (· + (number : ℤ)) := by
  cases baseNonce with
  | none => exact ⟨rfl, rfl⟩
  | some base =>
      obtain ⟨positive, small⟩ := fits base rfl
      obtain ⟨value, same⟩ := Int.eq_ofNat_of_zero_le positive
      have bounded : value < 2 ^ 64 := by omega
      have word : (UInt64.ofNat value).toNat = value := UInt64.toNat_ofNat_of_lt' bounded
      have encoded : c.nonceScVal (some base) (batchTxLimit * number) =
          .ok (some (UInt64.ofNat value)) := by
        rw [BatchClient.nonceScVal, Nat.mul_div_cancel_left number (by decide), same]
        have value_exact := faithful (UInt64.ofNat value)
        rw [word] at value_exact
        exact congrArg (Except.map some) value_exact
      rw [BatchClient.attempt, encoded]
      refine ⟨rfl, ?_⟩
      simp only [Except.toOption, Option.getD_some, Option.map_some, word, same]

theorem BatchClient.Settles.begins (settles : c.Settles baseNonce deadline)
    (faithful : c.native.Exact) {number : ℕ} (more : number < c.chunks)
    (reached : c.Reached baseNonce deadline number) : c.Begins baseNonce deadline number where
  more
  encoded := (nonceScVal_exact faithful (settles.fits number more reached)).1
  calledBack := settles.calledBack number more reached

/-- With enough patience a batch that settles returns. -/
theorem splitFrom_returns (settles : c.Settles baseNonce deadline) (faithful : c.native.Exact)
    (patience : ℕ) (patient : ∀ number, number + 1 < c.chunks →
      c.Reached baseNonce deadline number → baseNonce ≠ none →
      (c.submitted baseNonce deadline number).status = .pending →
      ∃ turn < patience, (c.rpc number).polls turn ≠ .ok .notFound)
    (turns number : ℕ) (reached : number < c.chunks → c.Reached baseNonce deadline number)
    (enough : c.chunks - number < turns) (log : List BatchStep)
    (results : List TransactionResult) :
    ∃ log' results', c.splitFrom baseNonce deadline patience turns (batchTxLimit * number) log
      results = { log := log', progress := .returned results' } := by
  induction turns generalizing number log results with
  | zero => exact absurd enough (Nat.not_lt_zero _)
  | succ turns ih =>
      have turn : c.Turns baseNonce deadline patience turns number log results _ :=
        splitFrom_turns patience turns number log results
      generalize c.splitFrom baseNonce deadline patience (turns + 1) (batchTxLimit * number) log
        results = run at turn
      cases turn with
      | done all => exact ⟨_, _, rfl⟩
      | threw more unfit => exact absurd (settles.begins faithful more (reached more)) unfit
      | stopped begun more unconfirmed known own failed => exact ⟨_, _, rfl⟩
      | waits begun more given pending unknown =>
          obtain ⟨turn, early, known⟩ := patient number more (reached begun.more) given pending
          rw [← Nat.zero_add turn] at known
          exact absurd unknown (awaitConfirmation_known early known)
      | onward begun passes observed =>
          have more := begun.more
          refine ih (number + 1) (fun more earlier before => ?_) (by omega) _ _
          rcases Nat.eq_or_lt_of_le (Nat.le_of_lt_succ before) with rfl | further
          · exact passes more
          · exact reached begun.more earlier further

/-! ## Which batches are split -/

theorem assertTargets_ok {sdk : StellarSdk} {targets : List String}
    (valid : ∀ target ∈ targets, sdk.isValidContract target = true) (index : ℕ) :
    assertTargets sdk index targets = .ok () := by
  induction targets generalizing index with
  | nil => rfl
  | cons target rest ih =>
      rw [assertTargets, assertContractAddress, if_pos (valid target List.mem_cons_self)]
      exact ih (fun other member => valid other (List.mem_cons_of_mem _ member)) (index + 1)

/-- The source, the targets and the asset have the forms they should have, and each target has its
amount. -/
structure BatchClient.Valid (c : BatchClient) : Prop where
  source : c.sdk.isValidEd25519PublicKey c.options.source = true
  targets : ∀ target ∈ c.options.targets, c.sdk.isValidContract target = true
  asset : c.sdk.isValidContract c.options.asset = true
  amounts : c.options.targets.length = c.options.amounts.length

theorem BatchClient.Valid.accepted (valid : c.Valid) : assertOptions c.sdk c.options = .ok () := by
  rw [assertOptions, assertAccountAddress, if_pos valid.source,
    if_neg (fun unlike => unlike valid.amounts), assertTargets_ok valid.targets,
    assertContractAddress, if_pos valid.asset]
  rfl

/-- The call returns, and splits the batch as it should. -/
def BatchClient.SplitsBatch (c : BatchClient) : Prop :=
  ∃ baseNonce deadline patience attempted log results,
    c.baseNonce = .ok baseNonce ∧ c.deadlineScVal = .ok deadline ∧
      c.batchFundCAddresses patience = { log, progress := .returned results } ∧
      c.Splits baseNonce deadline attempted log results

/-- The nonce and the deadline can be read, and the loop settles. -/
def BatchClient.SettlesBatch (c : BatchClient) : Prop :=
  ∃ baseNonce deadline, c.baseNonce = .ok baseNonce ∧ c.deadlineScVal = .ok deadline ∧
    c.Settles baseNonce deadline

theorem batchFundCAddresses_eq (valid : c.Valid) (nonce : c.baseNonce = .ok baseNonce)
    (encoded : c.deadlineScVal = .ok deadline) (patience : ℕ) :
    c.batchFundCAddresses patience = c.splitFrom baseNonce deadline patience
      (c.options.targets.length + 1) (batchTxLimit * 0) [] [] := by
  rw [BatchClient.batchFundCAddresses, valid.accepted, nonce, encoded, Nat.mul_zero]

/-- What splits the batch settles: a nonce out of its range is not carried. -/
theorem BatchClient.SplitsBatch.settles (valid : c.Valid) (splits : c.SplitsBatch) :
    c.SettlesBatch := by
  obtain ⟨baseNonce, deadline, patience, attempted, log, results, nonce, encoded, run, splits⟩ :=
    splits
  rw [batchFundCAddresses_eq valid nonce encoded] at run
  obtain ⟨attempted', steps, own, rfl, rfl, course⟩ := splitFrom_returned run
  have same : attempted' = attempted := by
    have chunked := splits.chunked
    rw [course.chunked] at chunked
    simpa using congrArg List.length chunked
  subst same
  refine ⟨baseNonce, deadline, nonce, encoded, ?_, fun number more reached => ?_,
    fun number more reached => ?_⟩
  · intro number more reached base given
    have carried := splits.nonces number (course.tried more reached)
    rw [Option.mem_def.mp given, Option.map_some] at carried
    obtain ⟨value, -, same⟩ := Option.map_eq_some_iff.mp carried
    have bounded := value.toNat_lt
    omega
  · exact (course.begins (Nat.zero_le _) (course.tried more reached)).1.calledBack
  · exact (course.begins (Nat.zero_le _)
      (course.tried (Nat.lt_of_succ_lt more) reached)).2 more

/-- What settles splits the batch. -/
theorem BatchClient.SettlesBatch.splits (valid : c.Valid) (faithful : c.native.Exact)
    (settles : c.SettlesBatch) : c.SplitsBatch := by
  obtain ⟨baseNonce, deadline, nonce, encoded, settles⟩ := settles
  have becomesKnown (number : ℕ) : ∃ turn, number + 1 < c.chunks →
      c.Reached baseNonce deadline number → baseNonce ≠ none →
      (c.submitted baseNonce deadline number).status = .pending →
      (c.rpc number).polls turn ≠ .ok .notFound := by
    by_cases awaited : number + 1 < c.chunks ∧ c.Reached baseNonce deadline number ∧
        baseNonce ≠ none ∧ (c.submitted baseNonce deadline number).status = .pending
    · obtain ⟨more, reached, given, pending⟩ := awaited
      obtain ⟨turn, known⟩ := settles.known number more reached given pending
      exact ⟨turn, fun _ _ _ _ => known⟩
    · exact ⟨0, fun more reached given pending =>
        absurd ⟨more, reached, given, pending⟩ awaited⟩
  choose turn known using becomesKnown
  -- One patience is enough for all the transactions.
  let patience := (Finset.range c.chunks).sup turn + 1
  have bounded : c.chunks ≤ c.options.targets.length :=
    (ceilDiv_le_iff_le_mul (by decide)).mpr (Nat.le_mul_of_pos_left _ (by decide))
  obtain ⟨log, results, run⟩ := splitFrom_returns settles faithful patience
    (fun number more reached given pending => ⟨turn number, Nat.lt_succ_of_le
      (Finset.le_sup (Finset.mem_range.mpr (Nat.lt_of_succ_lt more))),
      known number more reached given pending⟩)
    (c.options.targets.length + 1) 0 (fun _ earlier early => absurd early (Nat.not_lt_zero _))
    (by omega) [] []
  obtain ⟨attempted, steps, own, rfl, rfl, course⟩ := splitFrom_returned run
  refine ⟨baseNonce, deadline, patience, attempted, _, _, nonce, encoded,
    (batchFundCAddresses_eq valid nonce encoded patience).trans run,
    course.splits valid.amounts fun number before => ?_⟩
  have begun := (course.begins (Nat.zero_le _) before).1
  refine (nonceScVal_exact faithful (settles.fits number begun.more ?_)).2
  intro earlier early
  exact (course.goesOn (Nat.zero_le _) (early.trans before)
    (lt_of_le_of_lt early begun.more)).mp (lt_of_le_of_lt early before)

/-- A batch is split as it should be just when it settles. -/
theorem batch_splitting (valid : c.Valid) (faithful : c.native.Exact) :
    c.SplitsBatch ↔ c.SettlesBatch :=
  ⟨fun splits => splits.settles valid, fun settles => settles.splits valid faithful⟩

end Splitting

namespace Rehearsal

/-- The key of the account with the identifier zero. -/
def accountKey : String := "GAAAAAAAAAAAAAAAAAAAAAAAAAAAAAAAAAAAAAAAAAAAAAAAAAAAAWHF"

/-- An SDK that knows the keys of an account and of two contracts. -/
def batchSdk : StellarSdk where
  isValidEd25519PublicKey text := text = accountKey
  isValidContract := Relayer.Rehearsal.sdk.isValidContract
  address text :=
    if text = accountKey then some (.account 0) else Relayer.Rehearsal.sdk.address text

/-- A number that is none of the type loses its upper bits, but a negative one is no `u64`. -/
def native : NativeToScVal where
  u64 value := if value < 0 then .error "expected a positive value"
    else .ok (UInt64.ofNat value.toNat)
  i128 value := match BoundedInt.ofInt? _ _ (value.bmod (2 ^ 128)) with
    | some value => .ok value
    | none => .error "out of range"

theorem native_exact : native.Exact := by
  intro value
  rw [native]
  simp only
  rw [if_neg (Int.not_lt.mpr (Int.natCast_nonneg _)), Int.toNat_natCast, UInt64.ofNat_toNat]

/-- One target more than a transaction takes. Each transaction is accepted. -/
def batch (nonce : Numeric) (polls : Nat → Except String GetStatus) : BatchClient where
  sdk := batchSdk
  native := native
  rpc _ :=
    { account := .ok ()
      prepared := .ok ()
      sent := .ok ("5f3c", .pending)
      polls }
  onProgress := none
  options :=
    { source := accountKey
      targets := List.replicate 101 (Relayer.Rehearsal.keyOf 0)
      amounts := List.replicate 101 "100"
      asset := Relayer.Rehearsal.keyOf 1
      nonce := some nonce
      deadline := none }

/-- A transaction that the first request does not find, and the next one does. -/
def foundLater (turn : Nat) : Except String GetStatus :=
  .ok (if turn = 0 then .notFound else .success)

theorem batch_valid (nonce : Numeric) (polls : Nat → Except String GetStatus) :
    (batch nonce polls).Valid where
  source := rfl
  targets := by
    intro target member
    obtain ⟨-, rfl⟩ := List.mem_replicate.mp member
    rfl
  asset := rfl
  amounts := rfl

/-- The first transaction of the batch is accepted, whatever the requests for it find. -/
theorem batch_submitted (polls : Nat → Except String GetStatus) :
    ((batch (.bigint 7) polls).submitted (some 7) none 0).status = .pending := by
  have submitted : ((batch (.bigint 7) foundLater).submitted (some 7) none 0).status = .pending := by
    decide +kernel
  exact submitted

end Rehearsal

theorem batch_splitting_rehearsed :
    (Rehearsal.batch (.bigint 7) Rehearsal.foundLater).SplitsBatch := by
  refine (batch_splitting (Rehearsal.batch_valid _ _) Rehearsal.native_exact).mpr
    ⟨some 7, none, rfl, rfl, ?_, fun _ _ _ => rfl,
      fun _ _ _ _ _ => ⟨1, fun same => by cases same⟩⟩
  intro number more reached base given
  have chunks : number < 2 := more
  obtain rfl := Option.some.inj given
  omega

/-- A transaction that is never found is waited for without end, and a nonce that cannot be read
leaves the method with an error. -/
theorem batch_splitting_fails :
    ¬ (Rehearsal.batch (.bigint 7) fun _ => .ok .notFound).SplitsBatch ∧
      ¬ (Rehearsal.batch (.text "x") Rehearsal.foundLater).SplitsBatch := by
  constructor
  · intro splits
    obtain ⟨baseNonce, deadline, nonce, encoded, settles⟩ :=
      splits.settles (Rehearsal.batch_valid _ _)
    obtain rfl := Except.ok.inj nonce
    obtain rfl := Except.ok.inj encoded
    obtain ⟨turn, known⟩ := settles.known 0 (by decide)
      (fun earlier early => absurd early (Nat.not_lt_zero _)) (fun same => by cases same)
      (Rehearsal.batch_submitted _)
    exact known rfl
  · rintro ⟨baseNonce, deadline, patience, attempted, log, results, nonce, -⟩
    have unread : (Rehearsal.batch (.text "x") Rehearsal.foundLater).baseNonce =
        .error "Cannot convert to a BigInt" := by decide +kernel
    cases unread.symm.trans nonce

end OnboardingBridge.Sdk
