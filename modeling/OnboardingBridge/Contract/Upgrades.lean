import OnboardingBridge.Contract.Commitments
import OnboardingBridge.Contract.Modes

/-!
# Timelocked upgrades

A scheduled upgrade waits in a slot until it is executed, cancelled or replaced
(`execute_upgrades`). Whatever waits there was scheduled last, and nothing was
cancelled or executed since (`ScheduleStanding`). So an upgrade is executed only
within the window of the schedule that stands, and never on a migrated contract
(`upgrade_timelock`).
-/

set_option autoImplicit false

namespace OnboardingBridge.Contract

open Foundations Foundations.Tx

/-! ## The window of a schedule -/

theorem saturatingAddU32_toNat (a b : UInt32) :
    (saturatingAddU32 a b).toNat = min (a.toNat + b.toNat) (2 ^ 32 - 1) := by
  unfold saturatingAddU32
  split
  · next fits => rw [UInt32.toNat_add, Nat.mod_eq_of_lt fits, min_eq_left (by omega)]
  · next beyond => rw [UInt32.toNat_ofNat_of_lt' (by decide), min_eq_right (by omega)]

/-- What scheduling an upgrade stores. -/
def scheduledAt (sequence : UInt32) (newWasmHash : BytesN 32) : PendingUpgrade where
  newWasmHash
  executableAfterLedger := saturatingAddU32 sequence upgradeTimelockLedgers
  expiresAfterLedger :=
    saturatingAddU32 (saturatingAddU32 sequence upgradeTimelockLedgers)
      upgradeExecutionWindowLedgers

/-- The ledgers at which an upgrade scheduled at a ledger may be executed. -/
def InUpgradeWindow (scheduled ledger : UInt32) : Prop :=
  min (scheduled.toNat + 17280) (2 ^ 32 - 1) ≤ ledger.toNat ∧
    ledger.toNat < min (scheduled.toNat + 34560) (2 ^ 32 - 1)

/-- Two sums that saturate one after the other saturate as one sum does. -/
theorem inUpgradeWindow_iff {scheduled ledger : UInt32} {newWasmHash : BytesN 32} :
    InUpgradeWindow scheduled ledger ↔
      ¬ ledger < (scheduledAt scheduled newWasmHash).executableAfterLedger ∧
      ¬ (scheduledAt scheduled newWasmHash).expiresAfterLedger ≤ ledger := by
  have timelock : upgradeTimelockLedgers.toNat = 17280 := rfl
  have window : upgradeExecutionWindowLedgers.toNat = 17280 := rfl
  simp only [InUpgradeWindow, scheduledAt, UInt32.lt_iff_toNat_lt, UInt32.le_iff_toNat_le,
    saturatingAddU32_toNat, timelock, window]
  omega

/-! ## What calls do to the schedule -/

namespace Request

/-- Whether a call schedules, cancels or executes an upgrade. -/
def writesUpgrade : Request → Bool
  | .scheduleUpgrade .. | .cancelUpgrade _ | .executeUpgrade .. => true
  | _ => false

/-- Whether a call cancels or executes an upgrade. -/
def usesUpgrade : Request → Bool
  | .cancelUpgrade _ | .executeUpgrade .. => true
  | _ => false

/-- Whether a call migrates the contract away. -/
def migrates : Request → Bool
  | .emergencyMigrate .. => true
  | _ => false

end Request

/-- What a call does to the upgrade that waits. -/
inductive UpgradeStep (env : Env) (request : Request) (w w' : World) : Prop where
  | kept (other : request.writesUpgrade = false)
      (same : w'.store .pendingUpgrade = w.store .pendingUpgrade)
  | scheduled {newWasmHash : BytesN 32} {nonce : Option UInt64}
      (asked : request = .scheduleUpgrade newWasmHash nonce)
      (stored : w'.store .pendingUpgrade = some (scheduledAt env.sequence newWasmHash))
  | executed {expectedHash : BytesN 32} {nonce : Option UInt64} {pending : PendingUpgrade}
      (asked : request = .executeUpgrade expectedHash nonce)
      (found : w.store .pendingUpgrade = some pending)
      (hash : pending.newWasmHash = expectedHash)
      (matured : ¬ env.sequence < pending.executableAfterLedger)
      (inTime : ¬ pending.expiresAfterLedger ≤ env.sequence)
      (usedUp : w'.store .pendingUpgrade = none)
  | cancelled {nonce : Option UInt64} (asked : request = .cancelUpgrade nonce)
      (usedUp : w'.store .pendingUpgrade = none)

section Ensures

variable {key : DataKey} {value : Option key.Value} {α : Type}

theorem nonReentrant_stores {body : Call α} (other : key ≠ .entered)
    (inner : Ensures (fun w => w.store key = value) body) :
    Ensures (fun w => w.store key = value) (nonReentrant body) := by
  intro w a w' ran
  obtain ⟨mid, ran, left⟩ := nonReentrant_ok ran
  rw [left, World.erase_store, KeyedStore.remove_of_ne _ other, inner ran]

/-- What is stored stays when the rest does not write the key. -/
theorem stores_before {β : Type} {keys : Set DataKey} {body : Call α} {rest : α → Call β}
    (first : Ensures (fun w => w.store key = value) body) (outside : key ∉ keys)
    (touches : ∀ a, Touches keys True (rest a)) :
    Ensures (fun w => w.store key = value) (body >>= rest) := by
  refine first.before fun a w b w' ran stored => ?_
  rw [(touches a ran).store key outside, stored]

end Ensures

theorem scheduleUpgrade_stores (env : Env) (newWasmHash : BytesN 32) (nonce : Option UInt64) :
    Ensures (fun w => w.store .pendingUpgrade = some (scheduledAt env.sequence newWasmHash))
      (scheduleUpgrade env newWasmHash nonce) := by
  refine nonReentrant_stores (by simp) (.bind fun _ => .bind fun _ => .bind fun _ => ?_)
  refine stores_before (.modify fun w => by simp [scheduledAt]) (Set.notMem_empty _) fun _ => ?_
  exact .bind (publish_touches rfl) fun _ => .pure _

theorem cancelUpgrade_stores (env : Env) (nonce : Option UInt64) :
    Ensures (fun w => w.store .pendingUpgrade = none) (cancelUpgrade env nonce) := by
  refine nonReentrant_stores (by simp) (.bind fun _ => .bind fun _ => .bind fun _ => ?_)
  refine .bind fun _ => .bind fun _ => ?_
  exact stores_before (.modify fun w => by simp) (Set.notMem_empty _) fun _ => publish_touches rfl

theorem executeUpgrade_step {env : Env} {expectedHash : BytesN 32} {nonce : Option UInt64}
    {w w' : World} {u : Unit} (ran : (executeUpgrade env expectedHash nonce).run w = .ok (u, w')) :
    UpgradeStep env (.executeUpgrade expectedHash nonce) w w' := by
  obtain ⟨_, -, ran⟩ := (run_view_bind_ok checkInitialized_ok).mp ran
  obtain ⟨_, -, ran⟩ := (run_view_bind_ok checkNotDeactivated_ok).mp ran
  obtain ⟨admin, asked, asks, ran⟩ := run_bind_ok.mp ran
  have asking : Touches (Set.range .nonce) True (authorizeAdmin env nonce) := by simp
  have same : asked.store .pendingUpgrade = w.store .pendingUpgrade :=
    (asking asks).store _ (by simp)
  rw [run_read_bind] at ran
  obtain ⟨pending, found, ran⟩ := run_ofOption_bind_ok.mp ran
  obtain ⟨hash, ran⟩ := run_rejectIf_bind_ok.mp ran
  obtain ⟨matured, ran⟩ := run_rejectIf_bind_ok.mp ran
  obtain ⟨inTime, ran⟩ := run_rejectIf_bind_ok.mp ran
  refine .executed rfl (same ▸ found) (not_not.mp hash) matured inTime ?_
  have keys : DataKey.pendingUpgrade ∉ ({.currentWasmHash} : Set DataKey) := by simp
  refine stores_before (.modify fun w => by simp) keys (fun _ => ?_) ran
  refine .bind (.read _) fun _ => .bind (save_touches _ (by simp)) fun _ => ?_
  exact .bind (updateWasm_touches _ (by simp)) fun _ => publish_touches rfl

theorem execute_upgrades {env : Env} {request : Request} {reply : Reply} {w w' : World}
    (ran : (execute env request).run w = .ok (reply, w')) : UpgradeStep env request w w' := by
  by_cases writes : DataKey.pendingUpgrade ∈ request.writes
  · cases request
    all_goals try (simp [Request.writes, dailyUsages] at writes; done)
    all_goals obtain ⟨_, ran, -⟩ := replying_ok.mp ran
    case scheduleUpgrade => exact .scheduled rfl (scheduleUpgrade_stores _ _ _ ran)
    case executeUpgrade => exact executeUpgrade_step ran
    case cancelUpgrade => exact .cancelled rfl (cancelUpgrade_stores _ _ ran)
  · refine .kept ?_ ((execute_frame env request ran).store _ writes)
    cases request
    case scheduleUpgrade | executeUpgrade | cancelUpgrade => simp [Request.writes] at writes
    all_goals rfl

/-! ## Runs -/

namespace Label

/-- A successful call for which a condition on the request holds. -/
def asks (condition : Request → Bool) : Label → Prop
  | .success call => condition call.request = true
  | _ => False

/-- An upgrade is scheduled, and this is what waits then. -/
def Schedules (pending : PendingUpgrade) : Label → Prop
  | .success call => ∃ newWasmHash nonce, call.request = .scheduleUpgrade newWasmHash nonce ∧
      pending = scheduledAt call.env.sequence newWasmHash
  | _ => False

/-- An upgrade to the hash is scheduled that may be executed at the ledger. -/
def SchedulesFor (hash : BytesN 32) (ledger : UInt32) : Label → Prop
  | .success call => (∃ nonce, call.request = .scheduleUpgrade hash nonce) ∧
      InUpgradeWindow call.env.sequence ledger
  | _ => False

end Label

/-- The upgrade that waits was scheduled, and since then none was scheduled, executed or
cancelled. -/
def ScheduleStanding (past : List Label) (w : World) : Prop :=
  ∀ pending, w.store .pendingUpgrade = some pending →
    Since (Label.Schedules pending) (fun label => ¬ label.asks Request.writesUpgrade) past

theorem Step.scheduleStanding {host : Host} {past : List Label} {w w' : World} {label : Label}
    (standing : ScheduleStanding past w) (taken : Step host w label w') :
    ScheduleStanding (past ++ [label]) w' := by
  intro pending waits
  cases taken with
  | @success call deployed ran =>
    cases execute_upgrades ran with
    | kept other same =>
      have waited : call.before.store .pendingUpgrade = some pending := same.symm.trans waits
      exact (standing pending waited).still fun writes =>
        Bool.false_ne_true (other.symm.trans writes)
    | scheduled asked stored =>
      obtain rfl := Option.some.inj (stored.symm.trans waits)
      exact .now ⟨_, _, asked, rfl⟩
    | executed _ _ _ _ _ usedUp => exact absurd (usedUp.symm.trans waits) (by simp)
    | cancelled _ usedUp => exact absurd (usedUp.symm.trans waits) (by simp)
  | failure => exact (standing pending waits).still id
  | external => exact (standing pending waits).still id

theorem Run.scheduleStanding {host : Host} {start w : World} {labels : List Label}
    (fresh : Genesis host start) (run : Run (Step host) start labels w) :
    ScheduleStanding labels w := by
  have nothing : ScheduleStanding [] start := by
    intro pending waits
    simp [fresh.store] at waits
  exact Run.traced (fun _ _ _ _ => Step.scheduleStanding) run nothing

/-- An upgrade is executed within the window of the schedule that stands. -/
theorem Run.executesStanding {host : Host} {start w : World} {labels : List Label}
    (fresh : Genesis host start) (run : Run (Step host) start labels w) {execute : Success}
    {after : World} (taken : Step host w (.success execute) after) {hash : BytesN 32}
    {nonce : Option UInt64} (asked : execute.request = .executeUpgrade hash nonce) :
    Since (Label.SchedulesFor hash execute.env.sequence)
      (fun label => ¬ label.asks Request.writesUpgrade) labels := by
  have standing := Run.scheduleStanding fresh run
  cases taken with
  | success deployed ran =>
    cases execute_upgrades ran with
    | kept other => exact absurd other (by simp [asked, Request.writesUpgrade])
    | scheduled other => exact absurd (asked.symm.trans other) (by simp)
    | cancelled other => exact absurd (asked.symm.trans other) (by simp)
    | @executed expectedHash _ pending same found names matured inTime =>
      obtain ⟨rfl, -⟩ : hash = expectedHash ∧ _ := by simpa [asked] using same
      refine (standing pending found).mono fun label schedules => ?_
      cases label with
      | success call =>
        obtain ⟨newWasmHash, nonce, asked, rfl⟩ := schedules
        have named : newWasmHash = hash := names
        exact ⟨⟨nonce, named ▸ asked⟩, inUpgradeWindow_iff.mpr ⟨matured, inTime⟩⟩
      | failure => exact schedules.elim
      | external => exact schedules.elim

/-- After a migration no upgrade is scheduled, executed or cancelled. -/
theorem Run.migratedForGood {host : Host} {start w : World} {labels : List Label}
    (run : Run (Step host) start labels w) : labels.Pairwise fun earlier later =>
      ¬ (earlier.asks Request.migrates ∧ later.asks Request.writesUpgrade) := by
  refine run.neverAfter (fun w => w.initialized = true ∧ w.deactivated = true) _ _ ?_ ?_ ?_
  · intro w label w' taken migrates
    cases taken with
    | @success call deployed ran =>
      have opened := (execute_admitted _ _ ran).initialized
      obtain ⟨env, request, before, reply, after⟩ := call
      cases request
      case emergencyMigrate =>
        have opened := execute_initialized opened ran
        obtain ⟨_, ran, -⟩ := replying_ok.mp ran
        exact ⟨opened, emergencyMigrate_deactivates _ _ _ _ ran⟩
      all_goals exact absurd migrates Bool.false_ne_true
    | failure => exact migrates.elim
    | external => exact migrates.elim
  · rintro w label w' taken writes ⟨opened, closed⟩
    cases taken with
    | @success call deployed ran =>
      have outlives := (execute_admitted _ _ ran).outlives opened closed
      refine outlives.2.2 ?_
      obtain ⟨env, request, before, reply, after⟩ := call
      cases request
      case scheduleUpgrade | executeUpgrade | cancelUpgrade => rfl
      all_goals exact absurd writes Bool.false_ne_true
    | failure => exact writes.elim
    | external => exact writes.elim
  · rintro w label w' taken ⟨opened, closed⟩
    obtain ⟨still, frozen⟩ := taken.frozen opened closed
    exact ⟨still, frozen.deactivated.trans closed⟩

/-- Over any run of a fresh contract: an upgrade is executed only within the window of a
schedule for its hash, after which no upgrade was scheduled, executed or cancelled; after
an execution or a cancellation an upgrade is executed only when it was scheduled
again; and none is executed after a migration. -/
theorem upgrade_timelock {host : Host} {start w : World} {labels : List Label}
    (fresh : Genesis host start) (run : Run (Step host) start labels w) :
    (∀ earlier execute later hash nonce, labels = earlier ++ .success execute :: later →
      execute.request = .executeUpgrade hash nonce →
      Since (Label.SchedulesFor hash execute.env.sequence)
        (fun label => ¬ label.asks Request.writesUpgrade) earlier) ∧
    (∀ earlier use between execute later hash nonce,
      labels = earlier ++ use :: (between ++ .success execute :: later) →
      use.asks Request.usesUpgrade → execute.request = .executeUpgrade hash nonce →
      ∃ schedule ∈ between, schedule.SchedulesFor hash execute.env.sequence) ∧
    labels.Pairwise fun earlier later =>
      ¬ (earlier.asks Request.migrates ∧ later.asks Request.writesUpgrade) := by
  have within : ∀ earlier execute later hash nonce, labels = earlier ++ .success execute :: later →
      execute.request = .executeUpgrade hash nonce →
      Since (Label.SchedulesFor hash execute.env.sequence)
        (fun label => ¬ label.asks Request.writesUpgrade) earlier := by
    rintro earlier execute later hash nonce rfl asked
    obtain ⟨t, v, before, taken, -⟩ := run.around
    exact Run.executesStanding fresh before taken asked
  refine ⟨within, ?_, Run.migratedForGood run⟩
  rintro earlier use between execute later hash nonce rfl uses asked
  have since := within (earlier ++ use :: between) execute later hash nonce (by simp) asked
  refine since.reopened (fun keeps => keeps ?_) fun schedules => ?_
  · cases use with
    | success call =>
      obtain ⟨env, request, before, reply, after⟩ := call
      cases request
      case cancelUpgrade | executeUpgrade => rfl
      all_goals exact absurd uses Bool.false_ne_true
    | failure => exact uses.elim
    | external => exact uses.elim
  · cases use with
    | success call =>
      obtain ⟨⟨_, asked⟩, -⟩ := schedules
      simp [Label.asks, asked, Request.usesUpgrade] at uses
    | failure => exact uses.elim
    | external => exact uses.elim

namespace Rehearsal

/-- An upgrade is scheduled at ledger 10. -/
def upgrading : List (Env × Request) := [
  (env 0, .initializeContract (address 1) (address 2) 100 none),
  (atLedger 10, .scheduleUpgrade 7 none)]

/-- It is executed at ledger 17290, and another one is scheduled. -/
def upgraded : List (Env × Request) :=
  upgrading ++ [(atLedger 17290, .executeUpgrade 7 none), (atLedger 17300, .scheduleUpgrade 8 none)]

/-- The other one is executed, and the contract is migrated. -/
def migrated : List (Env × Request) :=
  upgraded ++ [(atLedger 34580, .executeUpgrade 8 none),
    (atLedger 34590, .emergencyMigrate (address 6) false none)]

end Rehearsal

/-- Two upgrades are scheduled and executed before a migration. -/
theorem upgrade_timelock_rehearsed :
    let labels := (rehearse Rehearsal.fresh Rehearsal.migrated).map Label.success
    Since (Label.SchedulesFor 7 17290) (fun label => ¬ label.asks Request.writesUpgrade)
      ((rehearse Rehearsal.fresh Rehearsal.upgrading).map .success) ∧
    (∃ schedule ∈ [Label.success (attempt (Rehearsal.atLedger 17300) (.scheduleUpgrade 8 none)
        (attempt (Rehearsal.atLedger 17290) (.executeUpgrade 7 none)
          (rehearsed Rehearsal.fresh Rehearsal.upgrading)).after)],
      schedule.SchedulesFor 8 34580) ∧
    labels.Pairwise fun earlier later =>
      ¬ (earlier.asks Request.migrates ∧ later.asks Request.writesUpgrade) := by
  intro labels
  have success : (rehearse Rehearsal.fresh Rehearsal.migrated).all
      (fun call => succeeds call.env call.request call.before) = true := by decide +kernel
  have deployed : ∀ call ∈ Rehearsal.migrated, call.1.host = Rehearsal.host := by
    simp [Rehearsal.migrated, Rehearsal.upgraded, Rehearsal.upgrading, Rehearsal.atLedger,
      Rehearsal.env]
  obtain ⟨within, again, closed⟩ := upgrade_timelock Rehearsal.fresh_genesis
    (rehearse_run deployed (List.all_eq_true.mp success))
  refine ⟨?_, ?_, closed⟩
  · have first := within ((rehearse Rehearsal.fresh Rehearsal.upgrading).map .success)
      (attempt (Rehearsal.atLedger 17290) (.executeUpgrade 7 none)
        (rehearsed Rehearsal.fresh Rehearsal.upgrading)) _ 7 none rfl (attempt_call ..).2.1
    rwa [(attempt_call ..).1] at first
  · have second := again ((rehearse Rehearsal.fresh Rehearsal.upgrading).map .success)
      (.success (attempt (Rehearsal.atLedger 17290) (.executeUpgrade 7 none)
        (rehearsed Rehearsal.fresh Rehearsal.upgrading)))
      [.success (attempt (Rehearsal.atLedger 17300) (.scheduleUpgrade 8 none)
        (attempt (Rehearsal.atLedger 17290) (.executeUpgrade 7 none)
          (rehearsed Rehearsal.fresh Rehearsal.upgrading)).after)]
      (attempt (Rehearsal.atLedger 34580) (.executeUpgrade 8 none)
        (rehearsed Rehearsal.fresh Rehearsal.upgraded)) _ 8 none rfl ?_ (attempt_call ..).2.1
    · rwa [(attempt_call ..).1] at second
    · rw [Label.asks, (attempt_call ..).2.1]
      rfl

end OnboardingBridge.Contract
