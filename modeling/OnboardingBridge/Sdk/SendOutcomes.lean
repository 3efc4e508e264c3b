import OnboardingBridge.Relayer.Service
import OnboardingBridge.Sdk.Retry

/-!
# What a funding reports after its attempts

The SDK sends a signed transaction a second time when the first attempt fails for a reason that
may pass. The network may have accepted it then, and answers that it is a duplicate. The SDK
reports that answer as a failure (`send_outcomes`).
-/

set_option autoImplicit false

namespace OnboardingBridge.Sdk

open Relayer

/-! ## Attempts -/

/-- One attempt to send the transaction: whether the network takes it in with this attempt, and
what the attempt comes to. -/
structure Exchange where
  accepted : Bool
  outcome : Except (Option RpcError) (String × Relayer.SendStatus)

/-- A transaction that is taken in is answered as pending, and one that was taken in before as a
duplicate, where there is an answer. -/
structure Deduplicates (exchanges : ℕ → Exchange) : Prop where
  fresh : ∀ attempt hash status, (exchanges attempt).accepted = true →
    (exchanges attempt).outcome = .ok (hash, status) → status = .pending
  again : ∀ attempt later hash status, attempt < later → (exchanges attempt).accepted = true →
    (exchanges later).outcome = .ok (hash, status) → status = .duplicate

/-! ## Results -/

/-- What the SDK makes of the attempts. An error that is `undefined` or `null` has no message to
read, which is an error that the method passes on. -/
def sendResult : Except (Option (Option RpcError)) (String × Relayer.SendStatus) →
    Except String Relayer.TransactionResult
  | .ok (hash, status) => .ok (fundCrosschain (.sent hash status))
  | .error (some (some error)) => .ok (fundCrosschain (.threw (error.message.getD "")))
  | .error (some none) => .error "Cannot read properties of null (reading 'message')"
  | .error none => .error "Cannot read properties of undefined (reading 'message')"

/-- What was done for a funding: the attempts to send and the result. -/
structure FundingRun where
  calls : List ℕ
  result : Except String Relayer.TransactionResult

/-- The end of `fundCAddress` and of `fundCrosschain`: what is thrown before the transaction is
signed, or the attempts to send it. -/
def sendFunding (options : RpcRetryOptions) (prepared : Except String Unit)
    (exchanges : ℕ → Exchange) (random : ℕ → ℚ) (fuel : ℕ) : Option FundingRun :=
  match prepared with
  | .error message => some ⟨[], .ok (fundCrosschain (.threw message))⟩
  | .ok () =>
      (withRpcRetry options "sendTransaction" (fun attempt => (exchanges attempt).outcome) random
        fuel).map fun run => ⟨run.calls, sendResult run.result⟩

/-- When some attempt was accepted and the last one was answered, no failure is reported. -/
def NoFalseFailure (exchanges : ℕ → Exchange) (run : FundingRun) : Prop :=
  (∃ attempt < run.calls.length, (exchanges attempt).accepted = true) →
    (∃ last response, run.calls.length = last + 1 ∧ (exchanges last).outcome = .ok response) →
      ∀ result, run.result = .ok result → result.status ≠ .failed

/-- The transaction is sent again although the first attempt was accepted, and is answered. -/
def AnsweredAgain (options : RpcRetryOptions) (exchanges : ℕ → Exchange) : Prop :=
  SendsAgain options (fun attempt => (exchanges attempt).outcome) ∧
    (exchanges 0).accepted = true ∧ ∃ response, (exchanges 1).outcome = .ok response

section Results

variable {exchanges : ℕ → Exchange} {options : RpcRetryOptions}

/-- An attempt that was accepted and answered is reported as pending. -/
theorem accepted_pending {last : ℕ} (network : Deduplicates exchanges)
    (accepted : (exchanges last).accepted = true) {response : String × Relayer.SendStatus}
    (answered : (exchanges last).outcome = .ok response) {reported : Relayer.TransactionResult}
    (isResult : sendResult ((exchanges last).outcome.mapError some) = .ok reported) :
    reported.status ≠ .failed := by
  obtain ⟨hash, status⟩ := response
  obtain rfl := network.fresh last hash status accepted answered
  rw [answered] at isResult
  obtain rfl := Except.ok.inj isResult
  rintro ⟨⟩

/-- An attempt that was answered as a duplicate is reported as failed. -/
theorem duplicate_failed {attempt later : ℕ} (network : Deduplicates exchanges)
    (order : attempt < later) (accepted : (exchanges attempt).accepted = true)
    {response : String × Relayer.SendStatus} (answered : (exchanges later).outcome = .ok response) :
    ∃ reported, sendResult ((exchanges later).outcome.mapError some) = .ok reported ∧
      reported.status = .failed := by
  obtain ⟨hash, status⟩ := response
  obtain rfl := network.again attempt later hash status order accepted answered
  rw [answered]
  exact ⟨_, rfl, rfl⟩

/-- **A funding sends its transaction at most twice, and it reports no failure after an acceptance,
unless the first attempt was accepted without an answer and the second one is answered.** -/
theorem send_outcomes (options : RpcRetryOptions) (prepared : Except String Unit)
    (random : ℕ → ℚ) (network : Deduplicates exchanges) :
    ∃ run, (∀ fuel, 3 ≤ fuel →
        sendFunding options prepared exchanges random fuel = some run) ∧
      run.calls.length ≤ 2 ∧
      (NoFalseFailure exchanges run ↔ ¬ (prepared = .ok () ∧ AnsweredAgain options exchanges)) := by
  cases prepared with
  | error message =>
      refine ⟨⟨[], _⟩, fun fuel _ => rfl, Nat.zero_le 2, fun _ => ?_, fun _ => ?_⟩
      · rintro ⟨isPrepared, -⟩
        cases isPrepared
      · rintro ⟨attempt, before, -⟩
        cases before
  | ok prepared =>
      obtain ⟨⟨calls, retries, result⟩, returns, parts⟩ :=
        send_run options (fun attempt => (exchanges attempt).outcome) random
      refine ⟨⟨calls, sendResult result⟩, fun fuel enough => ?_, ?_⟩
      · simp only [sendFunding, returns fuel enough, Option.map_some]
      rcases parts with ⟨rfl, once, -⟩ | ⟨rfl, once, rfl⟩ | ⟨rfl, again, rfl⟩
      · refine ⟨Nat.zero_le 2, fun _ answered => once answered.2.1, fun _ => ?_⟩
        rintro ⟨attempt, before, -⟩
        cases before
      · refine ⟨Nat.le_succ 1, fun _ answered => once answered.2.1, fun _ => ?_⟩
        rintro ⟨attempt, before, accepted⟩ ⟨last, response, isLast, answered⟩ reported isResult
        obtain rfl : attempt = 0 := Nat.lt_one_iff.mp before
        obtain rfl : 0 = last := Nat.succ_inj.mp isLast
        exact accepted_pending network accepted answered isResult
      · refine ⟨le_rfl, fun safe answeredAgain => ?_, fun honest => ?_⟩
        · obtain ⟨-, -, accepted, response, answered⟩ := answeredAgain
          obtain ⟨reported, isResult, failed⟩ :=
            duplicate_failed network Nat.zero_lt_one accepted answered
          exact safe ⟨0, Nat.zero_lt_two, accepted⟩ ⟨1, response, rfl, answered⟩ reported isResult
            failed
        · rintro ⟨attempt, before, accepted⟩ ⟨last, response, isLast, answered⟩ reported isResult
          obtain rfl : 1 = last := Nat.succ_inj.mp isLast
          rcases Nat.lt_succ_iff_lt_or_eq.mp before with earlier | rfl
          · obtain rfl : attempt = 0 := Nat.lt_one_iff.mp earlier
            exact absurd ⟨rfl, again, accepted, response, answered⟩ honest
          · exact accepted_pending network accepted answered isResult

end Results

/-- The first attempt times out after the network took the transaction in; the second one is answered
as a duplicate. -/
def timedOut : ℕ → Exchange
  | 0 => ⟨true, .error (some ⟨none, none, none, none, some "timeout of 30000ms exceeded", ""⟩)⟩
  | _ + 1 => ⟨false, .ok ("c0ffee", .duplicate)⟩

theorem timedOut_deduplicates : Deduplicates timedOut := by
  constructor
  · intro attempt hash status accepted answered
    cases attempt with
    | zero => cases answered
    | succ attempt => cases accepted
  · intro attempt later hash status order accepted answered
    cases later with
    | zero => cases order
    | succ later =>
        cases answered
        rfl

/-- The duplicate is reported as failed, although the transaction was accepted. -/
theorem duplicate_reported_failed :
    ∃ run, sendFunding ⟨none, none, none, some false⟩ (.ok ()) timedOut (fun _ => 0) 3 = some run ∧
      Deduplicates timedOut ∧ ¬ NoFalseFailure timedOut run := by
  have returns : sendFunding ⟨none, none, none, some false⟩ (.ok ()) timedOut (fun _ => 0) 3 =
      some ⟨[1, 2], .ok ⟨"c0ffee", .failed, none⟩⟩ := rfl
  refine ⟨_, returns, timedOut_deduplicates, fun safe => ?_⟩
  exact safe ⟨0, Nat.zero_lt_two, rfl⟩ ⟨1, _, rfl, rfl⟩ _ rfl rfl

/-- Two attempts, of which the second is taken in. -/
theorem send_outcomes_rehearsed :
    let exchanges : ℕ → Exchange
      | 0 => ⟨false, .error (some ⟨some (.text "ECONNRESET"), none, none, none, none, ""⟩)⟩
      | 1 => ⟨true, .ok ("c0ffee", .pending)⟩
      | _ + 2 => ⟨false, .ok ("c0ffee", .duplicate)⟩
    ∃ run, sendFunding ⟨none, none, none, none⟩ (.ok ()) exchanges (fun _ => 0) 3 = some run ∧
      run.calls.length ≤ 2 ∧ NoFalseFailure exchanges run := by
  intro exchanges
  have network : Deduplicates exchanges := by
    constructor
    · intro attempt hash status accepted answered
      match attempt with
      | 0 => cases answered
      | 1 =>
          cases answered
          rfl
      | _ + 2 => cases accepted
    · intro attempt later hash status order accepted answered
      match attempt, later with
      | 0, _ => cases accepted
      | 1, _ + 2 =>
          cases answered
          rfl
      | 1, 0 => cases order
      | 1, 1 => exact absurd order (lt_irrefl 1)
      | _ + 2, _ => cases accepted
  obtain ⟨run, returns, few, safe⟩ :=
    send_outcomes ⟨none, none, none, none⟩ (.ok ()) (fun _ => 0) network
  refine ⟨run, returns 3 le_rfl, few, safe.mpr ?_⟩
  rintro ⟨-, -, accepted, -⟩
  cases accepted

end OnboardingBridge.Sdk
