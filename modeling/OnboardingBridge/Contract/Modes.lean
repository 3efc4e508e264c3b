import OnboardingBridge.Contract.Settings
import OnboardingBridge.Contract.TimelockEntries

/-!
# What a migrated and a paused contract still do

The gate of a call says in which mode of the contract it may succeed. A migrated
contract is deactivated: the gates `running` and `active` are closed for good, so
what the calls behind them write is frozen, and tokens move in the calls that
recover funds only. A paused contract that is not deactivated neither takes
deposits nor pays out claims and fees (`mode_safety`).
-/

set_option autoImplicit false

namespace OnboardingBridge.Contract

open Foundations Foundations.Tx

/-! ## Calls to a deactivated contract -/

/-- The calls that move tokens and work on a deactivated contract. -/
def Request.recovers : Request → Bool
  | .claimTimelocked _ | .withdrawFees .. | .reclaimTokens .. | .withdrawCrosschainReserve ..
  | .fundCrosschainReserve .. => true
  | _ => false

/-- The eight entry points that fund a target. -/
def Request.funds : Request → Bool
  | .fundCAddress .. | .batchFundCAddress .. | .fundCAddressWithReferral ..
  | .fundCAddressWithSwap .. | .fundCAddressTimelocked .. | .fundCAddressCrosschain ..
  | .revealFund .. | .executeMetaFund .. => true
  | _ => false

/-- Whether a key stays as it is once the contract is deactivated. -/
abbrev DataKey.isFrozen : DataKey → Bool
  | .deactivated | .currentWasmHash | .timelockId | .commitmentId | .commitment _
  | .metaSigner _ => true
  | _ => false

/-- The keys that may still change. -/
def otherThanFrozen : Set DataKey := {key | key.isFrozen = false}

@[simp] theorem mem_otherThanFrozen {key : DataKey} :
    key ∈ otherThanFrozen ↔ key.isFrozen = false := Iff.rfl

/-- The requests whose gate is open on a deactivated contract. -/
def Request.outlives (request : Request) : Prop :=
  request.initializes = false ∧ request.gate ≠ .running ∧ request.gate ≠ .active

theorem Request.Admitted.outlives {request : Request} {w : World} (admitted : request.Admitted w)
    (opened : w.initialized = true) (closed : w.deactivated = true) : request.outlives := by
  refine ⟨?_, fun running => ?_, fun active => ?_⟩
  · have same := admitted.initialized
    rw [opened] at same
    exact (Bool.not_eq_true' _).mp same.symm
  · have gate : Gate.Admits .running w := running ▸ admitted.gate
    exact Bool.false_ne_true (gate.1.symm.trans closed)
  · have gate : Gate.Admits .active w := active ▸ admitted.gate
    have gate : w.deactivated = false := gate
    exact Bool.false_ne_true (gate.symm.trans closed)

theorem Request.outlives.writes {request : Request} (outlives : request.outlives) :
    request.writes ⊆ otherThanFrozen := by
  obtain ⟨later, running, active⟩ := outlives
  cases request
  all_goals first
    | cases later; done
    | exact absurd rfl running
    | exact absurd rfl active
    | simp [Request.writes, Set.insert_subset_iff, Set.range_subset_iff]

theorem Request.outlives.recovers {request : Request} (outlives : request.outlives)
    (moves : request.movesTokens) : request.recovers = true := by
  obtain ⟨-, running, -⟩ := outlives
  cases request
  all_goals first
    | exact moves.elim
    | rfl
    | exact absurd rfl running

theorem Request.outlives.settings {env : Env} {request : Request} {w w' : World}
    (outlives : request.outlives) (step : SettingsStep env request w w') :
    w'.settings = w.settings := by
  obtain ⟨later, running, active⟩ := outlives
  cases step with
  | kept _ _ settings => exact settings
  | opened asked => exact absurd (asked.symm.trans later) (by simp)
  | rated asked =>
    cases request
    case setFeeBps => exact absurd rfl running
    all_goals simp [Request.rates] at asked
  | assigned role asked =>
    cases request
    case setAdmin | setFeeCollector => exact absurd rfl running
    all_goals simp [Request.assigns] at asked
  | accepted role asked =>
    cases request
    case acceptAdmin | acceptFeeCollector => exact absurd rfl active
    all_goals simp [Request.accepts] at asked

/-- What does not change any more: the roles and the fee rate, the code, and which
timelocks, commitments and meta-transaction signers there are. -/
structure Frozen (w w' : World) : Prop where
  settings : w'.settings = w.settings
  wasm : w'.wasm = w.wasm
  store : ∀ key, key.isFrozen = true → w'.store key = w.store key
  timelocks : ∀ id, w.store (.timelock id) = none → w'.store (.timelock id) = none

instance : IsPreorder World Frozen where
  refl _ := ⟨rfl, rfl, fun _ _ => rfl, fun _ absent => absent⟩
  trans _ _ _ first second :=
    ⟨second.settings.trans first.settings, second.wasm.trans first.wasm,
      fun key frozen => (second.store key frozen).trans (first.store key frozen),
      fun id absent => second.timelocks id (first.timelocks id absent)⟩

theorem Frozen.deactivated {w w' : World} (frozen : Frozen w w') :
    w'.deactivated = w.deactivated := by
  rw [World.deactivated, World.deactivated, World.has, frozen.store .deactivated rfl]
  rfl

theorem execute_frozen {env : Env} {request : Request} {reply : Reply} {w w' : World}
    (opened : w.initialized = true) (closed : w.deactivated = true)
    (ran : (execute env request).run w = .ok (reply, w')) : Frozen w w' := by
  have outlives := (execute_admitted env request ran).outlives opened closed
  have frame := execute_frame env request ran
  have kept := frame.widen outlives.writes
  refine ⟨outlives.settings (execute_settings ran), kept.wasm (by simp),
    fun key frozen => kept.store key (by simp [frozen]), fun id absent => ?_⟩
  by_cases writes : .timelock id ∈ request.writes
  · cases request
    case claimTimelocked claimed =>
      obtain ⟨_, ran, -⟩ := replying_ok.mp ran
      obtain ⟨entry, found, -⟩ := claimTimelocked_stores ran
      obtain rfl : id = claimed := by simpa [Request.writes] using writes
      exact absurd absent (by simp [found])
    case fundCAddressTimelocked => exact absurd rfl outlives.2.1
    all_goals simp [Request.writes, dailyUsages] at writes
  · rw [frame.store _ writes, absent]

theorem emergencyMigrate_deactivates (env : Env) (newContract : Address) (migrateData : Bool)
    (nonce : Option UInt64) : Ensures (fun w => w.deactivated = true)
      (emergencyMigrate env newContract migrateData nonce) := by
  iterate 6 refine .bind fun _ => ?_
  refine Ensures.before (.modify fun w => ?_) fun _ => ?_
  · simp [World.deactivated, World.has]
  · refine Preserves.mono (publish_touches rfl : Touches ∅ True _) fun w w' frame closed => ?_
    rw [World.deactivated, World.has, frame.store _ (Set.notMem_empty _)]
    exact closed

/-- The admin pays for the reserve. -/
theorem fundCrosschainReserve_pulls {env : Env} {asset : Address} {amount : I128} {w w' : World}
    {u : Unit} (ran : (fundCrosschainReserve env asset amount).run w = .ok (u, w')) :
    ∃ admin, w.holder .admin = some admin ∧ env.authorizes admin = true ∧
      w.tokens.move asset admin env.self amount = some w'.tokens := by
  obtain ⟨mid, ran, left⟩ := nonReentrant_ok ran
  have sofar : Frame otherThanSettings False w (w.put .entered true) := by
    have touches : Touches otherThanSettings False (save .entered true) := save_touches _ (by simp)
    exact touches rfl
  iterate 3 (refine sofar.skip ran ?_ fun _ _ sofar ran => ?_; focus simp)
  obtain ⟨admin, asking, read, asks⟩ := run_bind_ok.mp ran
  obtain ⟨holder, rfl⟩ := readAdmin_ok.mp read
  obtain ⟨authorized, ran⟩ := requireAuth_bind_ok.mp asks
  obtain ⟨_, paid, transfers, ran⟩ := run_bind_ok.mp ran
  obtain ⟨moved, moves, settles⟩ := transfer_ok transfers
  have rest : Touches Set.univ False (do
      incrementCrosschainReserve asset amount
      publish (.crossChainReserveFunded asset admin amount)) :=
    .bind (incrementCrosschainReserve_touches _ _ (Set.mem_univ _)) fun _ => publish_touches rfl
  have tokens : w'.tokens = moved := by
    rw [left, World.erase_tokens, (rest ran).tokens id, settles]
    rfl
  have same : w.holder .admin = some admin :=
    (congrArg (Settings.holder · .admin) sofar.settings).symm.trans holder
  exact ⟨admin, same, authorized, by rw [tokens, ← sofar.tokens id, moves]⟩

/-! ## Runs -/

theorem Step.frozen {host : Host} {w w' : World} {label : Label} (taken : Step host w label w')
    (opened : w.initialized = true) (closed : w.deactivated = true) :
    w'.initialized = true ∧ Frozen w w' := by
  cases taken with
  | @success call _ ran =>
    have opened : call.before.begin.initialized = true := opened
    have closed : call.before.begin.deactivated = true := closed
    have frozen := execute_frozen opened closed ran
    exact ⟨execute_initialized opened ran, frozen.settings, frozen.wasm, frozen.store,
      frozen.timelocks⟩
  | failure => exact ⟨opened, refl_of Frozen _⟩
  | external => exact ⟨opened, rfl, rfl, fun _ _ => rfl, fun _ absent => absent⟩

/-- What a call on a deactivated contract does with tokens: nothing, unless it recovers
funds, or pays tokens of the admin into a reserve. -/
def Success.MovesRecovered (call : Success) : Prop :=
  (call.request.recovers = true ∨ call.after.tokens = call.before.tokens) ∧
    ∀ asset amount, call.request = .fundCrosschainReserve asset amount →
      ∃ admin, call.before.holder .admin = some admin ∧ call.env.authorizes admin = true ∧
        call.before.tokens.move asset admin call.env.self amount = some call.after.tokens

theorem Success.movesRecovered {call : Success} (opened : call.before.initialized = true)
    (closed : call.before.deactivated = true)
    (ran : (execute call.env call.request).run call.before.begin = .ok (call.reply, call.after)) :
    call.MovesRecovered := by
  refine ⟨?_, fun asset amount asked => ?_⟩
  · have outlives : call.request.outlives := (execute_admitted _ _ ran).outlives opened closed
    by_cases moves : call.request.movesTokens
    · exact .inl (outlives.recovers moves)
    · exact .inr ((execute_frame _ _ ran).tokens moves)
  · rw [asked] at ran
    obtain ⟨_, ran, -⟩ := replying_ok.mp ran
    obtain ⟨admin, holder, authorized, moved⟩ := fundCrosschainReserve_pulls ran
    exact ⟨admin, holder, authorized, moved⟩

/-- The contract is paused. -/
def World.paused (w : World) : Prop :=
  ∃ config, w.bridgeConfig? = some config ∧ config.paused = true

/-- A contract that is paused and not deactivated neither runs nor lets funds be recovered. -/
theorem World.paused.closed {w : World} (paused : w.paused) (active : w.deactivated = false) :
    ¬ w.running ∧ ¬ w.recoveryAllowed := by
  obtain ⟨config, found, set⟩ := paused
  have clash : ¬ ∃ config, w.bridgeConfig? = some config ∧ config.paused = false := by
    rintro ⟨config', found', clear⟩
    obtain rfl := Option.some.inj (found.symm.trans found')
    exact Bool.false_ne_true (clear.symm.trans set)
  refine ⟨fun running => clash running.2, ?_⟩
  rintro (closed | running)
  · exact Bool.false_ne_true (active.symm.trans closed)
  · exact clash running

/-- The requests that a pause turns down. -/
def Request.pausable : Request → Bool
  | .claimTimelocked _ | .withdrawFees .. => true
  | request => request.funds

theorem execute_unpaused {env : Env} {request : Request} {reply : Reply} {w w' : World}
    (paused : w.paused) (active : w.deactivated = false)
    (ran : (execute env request).run w = .ok (reply, w')) : request.pausable = false := by
  obtain ⟨idle, shut⟩ := paused.closed active
  have gate := (execute_admitted env request ran).gate
  cases request
  all_goals first
    | rfl
    | exact absurd gate idle
    | exact absurd gate shut

/-- After a migration the contract stays deactivated, its roles, fee rate and code stay
as they are, no timelock, commitment or signer is added, and tokens move only
where funds are recovered; and while the contract is paused and not deactivated no
funding call, claim or withdrawal of fees succeeds. -/
theorem mode_safety {host : Host} {start w : World} {labels : List Label}
    (run : Run (Step host) start labels w) :
    (∀ earlier migrate later newContract migrateData nonce,
      labels = earlier ++ .success migrate :: later →
      migrate.request = .emergencyMigrate newContract migrateData nonce →
      w.deactivated = true ∧ Frozen migrate.after w ∧
        ∀ call, .success call ∈ later → call.MovesRecovered) ∧
    ∀ call, .success call ∈ labels → call.before.paused → call.before.deactivated = false →
      call.request.pausable = false := by
  refine ⟨?_, fun call member paused active => ?_⟩
  · rintro earlier migrate later newContract migrateData nonce rfl asked
    obtain ⟨t, v, -, taken, rest⟩ := run.around
    cases taken with
    | success deployed ran =>
      have opened : migrate.before.begin.initialized = true := by
        rw [(execute_admitted _ _ ran).initialized, asked]
        rfl
      have opened := execute_initialized opened ran
      rw [asked] at ran
      obtain ⟨_, ran, -⟩ := replying_ok.mp ran
      have closed : migrate.after.deactivated = true := emergencyMigrate_deactivates _ _ _ _ ran
      let inv (t : World) : Prop := t.initialized = true ∧ Frozen migrate.after t
      have shut {t : World} (frozen : Frozen migrate.after t) : t.deactivated = true :=
        frozen.deactivated.trans closed
      have keeps : ∀ ⦃s label t⦄, inv s → Step host s label t → inv t := by
        rintro s label t ⟨opened, frozen⟩ taken
        obtain ⟨still, further⟩ := taken.frozen opened (shut frozen)
        exact ⟨still, trans_of Frozen frozen further⟩
      have base : inv migrate.after := ⟨opened, refl_of Frozen _⟩
      obtain ⟨-, frozen⟩ := rest.stays inv (fun _ _ _ taken held => keeps held taken) base
      refine ⟨shut frozen, frozen, fun call member => ?_⟩
      have moves : ∀ label ∈ later, ∀ call, label = .success call → call.MovesRecovered := by
        refine rest.forall_labels keeps ?_ base
        rintro s label t ⟨opened, frozen⟩ taken call rfl
        cases taken with
        | success _ ran => exact Success.movesRecovered opened (shut frozen) ran
      exact moves _ member call rfl
  · obtain ⟨-, ran, -⟩ := successful_of_run run member
    have paused : call.before.begin.paused := paused
    exact execute_unpaused paused active ran

/-- After a migration an unpaused contract still lets its fees be withdrawn. -/
theorem mode_safety_rehearsed :
    let script := [(0, .initializeContract (Rehearsal.address 1) (Rehearsal.address 2) 100 none),
      (0, .addAsset (Rehearsal.address 3) none),
      (0, .fundCAddress (Rehearsal.address 4) (Rehearsal.address 5) (Rehearsal.address 3)
        (Rehearsal.amount 1000) none none)]
    let migrate := attempt (Rehearsal.env 0) (.emergencyMigrate (Rehearsal.address 6) true none)
      (Rehearsal.outcome script)
    let withdraw := attempt (Rehearsal.env 0)
      (.withdrawFees (Rehearsal.address 3) (Rehearsal.amount 10) none) migrate.after
    withdraw.after.deactivated = true ∧ Frozen migrate.after withdraw.after ∧
      withdraw.MovesRecovered := by
  intro script migrate withdraw
  have success : Rehearsal.goesThrough (script ++
    [(0, .emergencyMigrate (Rehearsal.address 6) true none),
      (0, .withdrawFees (Rehearsal.address 3) (Rehearsal.amount 10) none)]) = true := by
    decide +kernel
  have run := Rehearsal.run _ success
  obtain ⟨closed, frozen, moves⟩ := (mode_safety run).1 ((Rehearsal.calls script).map .success)
    migrate [.success withdraw] _ _ _ rfl (attempt_call ..).2.1
  exact ⟨closed, frozen, moves withdraw (by simp)⟩

end OnboardingBridge.Contract
