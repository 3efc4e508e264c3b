import OnboardingBridge.Contract.Invariants

/-!
# The gates of the entry points

Every entry point but the initialisation needs an initialized contract, and
most check a gate after that: that the contract is running (neither paused nor
deactivated), that it is active (not deactivated), or that it lets funds be
recovered. `Request.gate` is the table of these gates, and a successful call
passed the gate of its request (`execute_admitted`).
-/

set_option autoImplicit false

namespace OnboardingBridge.Contract

open Foundations Foundations.Tx

/-! ## Gates -/

/-- What a call checks of the mode of the contract. -/
inductive Gate where
  | always
  | recovery
  | active
  | running
deriving DecidableEq

/-- Whether a gate lets calls through. -/
def Gate.Admits : Gate → World → Prop
  | .always, _ => True
  | .recovery, w => w.recoveryAllowed
  | .active, w => w.deactivated = false
  | .running, w => w.running

/-- The gate of each entry point. -/
def Request.gate : Request → Gate
  | .fundCAddress .. | .batchFundCAddress .. | .fundCAddressWithReferral ..
  | .fundCAddressWithSwap .. | .fundCAddressTimelocked .. | .fundCAddressCrosschain ..
  | .commitFund .. | .revealFund .. | .cancelCommitment _ | .executeMetaFund ..
  | .registerMetaSigner .. | .unregisterMetaSigner _ | .verifyAuthEntry .. | .setFeeBps ..
  | .setFeeCollector .. | .setAdmin .. | .setFeeTiers .. => .running
  | .proposeNewFeeCollector .. | .acceptFeeCollector | .clearPendingFeeCollector _
  | .proposeNewAdmin .. | .acceptAdmin | .clearPendingAdmin _ | .upgrade .. | .scheduleUpgrade ..
  | .executeUpgrade .. | .cancelUpgrade _ | .emergencyMigrate .. => .active
  | .withdrawFees .. | .claimTimelocked _ => .recovery
  | _ => .always

/-- The requests that open the contract. -/
def Request.initializes : Request → Bool
  | .initializeContract .. | .initializeWithWasmHash .. => true
  | _ => false

/-- The state of the contract lets the request through. -/
structure Request.Admitted (request : Request) (w : World) : Prop where
  initialized : w.initialized = !request.initializes
  gate : request.gate.Admits w

theorem checkNotDeactivated_ok {w w' : World} {u : Unit} :
    checkNotDeactivated.run w = .ok (u, w') ↔ w.deactivated = false ∧ w' = w := by
  rw [checkNotDeactivated, isDeactivated, run_read_bind, run_rejectIf_ok, Bool.not_eq_true]

/-! ## Calls -/

/-- A call needs an initialized contract and an open gate. -/
abbrev Passes (gate : Gate) {α : Type} (body : Call α) : Prop :=
  Requires (fun w => w.initialized = true ∧ gate.Admits w) body

theorem passes_always {α : Type} {rest : Unit → Call α} :
    Passes .always (checkInitialized >>= rest) :=
  .bind fun _ _ _ ran => ⟨(checkInitialized_ok.mp ran).1, trivial⟩

/-- The check of the gate follows the check that the contract is initialized. -/
theorem passes_next {gate : Gate} {α : Type} {rest : Unit → Call α}
    (next : ∀ u, Requires gate.Admits (rest u)) : Passes gate (checkInitialized >>= rest) := by
  intro w a w' ran
  obtain ⟨u, opened, ran⟩ := (run_view_bind_ok checkInitialized_ok).mp ran
  exact ⟨opened, next u ran⟩

theorem passes_recovery {α : Type} {rest : Unit → Call α} :
    Passes .recovery (checkInitialized >>= fun _ => checkRecoveryAllowed >>= rest) :=
  passes_next fun _ => .bind fun _ _ _ ran => (checkRecoveryAllowed_ok.mp ran).1

theorem passes_active {α : Type} {rest : Unit → Call α} :
    Passes .active (checkInitialized >>= fun _ => checkNotDeactivated >>= rest) :=
  passes_next fun _ => .bind fun _ _ _ ran => (checkNotDeactivated_ok.mp ran).1

theorem passes_running {α : Type} {rest : Unit → Call α} :
    Passes .running (checkInitialized >>= fun _ => checkNotPaused >>= rest) :=
  passes_next fun _ => .bind fun _ _ _ ran => (checkNotPaused_ok.mp ran).1

/-- The re-entrancy flag does not matter to the gates. -/
theorem Passes.nonReentrant {gate : Gate} {α : Type} {body : Call α} (inner : Passes gate body) :
    Passes gate (nonReentrant body) := by
  intro w a w' ran
  obtain ⟨mid, ran, -⟩ := nonReentrant_ok ran
  obtain ⟨opened, admitted⟩ := inner ran
  -- nothing is recorded, so it does not matter for which bridge
  have entered := enter_recorded (.contract 0) w
  refine ⟨entered.initialized ▸ opened, ?_⟩
  cases gate with
  | always => trivial
  | recovery => exact entered.recoveryAllowed.mp admitted
  | active => exact entered.deactivated.symm.trans admitted
  | running => exact entered.running.mp admitted

/-- The admin is asked before the gate is checked. -/
theorem emergencyMigrate_passes (env : Env) (newContract : Address) (migrateData : Bool)
    (nonce : Option UInt64) :
    Passes .active (emergencyMigrate env newContract migrateData nonce) := by
  refine passes_next fun _ => .after (fun w admin w' ran => ?_) fun admin => ?_
  · rw [(readAdmin_ok.mp ran).2]
    exact fun admitted => admitted
  · intro w _ w' ran
    obtain ⟨-, ran⟩ := requireAuth_bind_ok.mp ran
    obtain ⟨_, active, -⟩ := (run_view_bind_ok checkNotDeactivated_ok).mp ran
    exact active

theorem replying_requires {condition : World → Prop} {α : Type} {body : Call α} {reply : α → Reply}
    (inner : Requires condition body) : Requires condition (replying body reply) := .bind inner

/-- A successful call other than the initialisation passed the gate of its request. -/
theorem execute_passes (env : Env) {request : Request} (later : request.initializes = false) :
    Passes request.gate (execute env request) := by
  cases request
  case initializeContract | initializeWithWasmHash => cases later
  all_goals refine replying_requires ?_
  case fundCAddress | batchFundCAddress | fundCAddressWithReferral | fundCAddressWithSwap |
      fundCAddressTimelocked | fundCAddressCrosschain | commitFund | revealFund |
      cancelCommitment | executeMetaFund | registerMetaSigner | unregisterMetaSigner |
      setFeeCollector | setAdmin =>
    exact Passes.nonReentrant passes_running
  case verifyAuthEntry | setFeeBps | setFeeTiers => exact passes_running
  case proposeNewFeeCollector | acceptFeeCollector | clearPendingFeeCollector | proposeNewAdmin |
      acceptAdmin | clearPendingAdmin | scheduleUpgrade | cancelUpgrade =>
    exact Passes.nonReentrant passes_active
  case upgrade | executeUpgrade => exact passes_active
  case emergencyMigrate => exact emergencyMigrate_passes ..
  case withdrawFees => exact passes_recovery
  case claimTimelocked => exact Passes.nonReentrant passes_recovery
  case reclaimTokens | addAsset | removeAsset | addSwapPool | removeSwapPool |
      fundCrosschainReserve | withdrawCrosschainReserve | addRelayer | extendTimelockTtl |
      extendCommitmentTtl | extendRelayerTtl =>
    exact Passes.nonReentrant passes_always
  all_goals exact passes_always

/-- A successful call passed the gate of its request. -/
theorem execute_admitted (env : Env) (request : Request) :
    Requires request.Admitted (execute env request) := by
  intro w reply w' ran
  cases later : request.initializes with
  | false =>
    obtain ⟨opened, admitted⟩ := execute_passes env later ran
    exact ⟨by simp [opened, later], admitted⟩
  | true =>
    cases request
    case initializeContract | initializeWithWasmHash =>
      obtain ⟨_, ran, -⟩ := replying_ok.mp ran
      exact ⟨initializeInner_first ran, trivial⟩
    all_goals cases later

end OnboardingBridge.Contract
