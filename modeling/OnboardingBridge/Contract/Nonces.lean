import OnboardingBridge.Contract.Gates
import OnboardingBridge.Contract.Settings

/-!
# The nonces of the callers

More than forty calls take an optional nonce and spend it for the address that
authorises them: a source, the fee collector or the admin in office. Over a whole
run the nonces that an address spent are zero, one, two and so on
(`nonces_sequential`).
-/

set_option autoImplicit false

namespace OnboardingBridge.Contract

open Foundations Foundations.Tx

/-! ## Who spends a nonce -/

/-- The address that authorises a call: one that the call names, or the holder of a role. -/
inductive Caller where
  | named (address : Address)
  | holds (role : Role)

def World.resolve (w : World) : Caller → Option Address
  | .named address => some address
  | .holds role => w.holder role

namespace Request

/-- Whose nonce a call spends, when it takes one. -/
def caller : Request → Option Caller
  | .initializeContract admin .. | .initializeWithWasmHash admin .. => some (.named admin)
  | .fundCAddress source .. | .batchFundCAddress source .. | .fundCAddressWithReferral source ..
  | .fundCAddressTimelocked source .. | .fundCAddressWithSwap source .. => some (.named source)
  | .withdrawFees .. => some (.holds .feeCollector)
  | .acceptFeeCollector | .acceptAdmin | .fundCrosschainReserve .. | .withdrawCrosschainReserve ..
  | .fundCAddressCrosschain .. | .claimTimelocked .. | .extendTimelockTtl ..
  | .extendCommitmentTtl .. | .extendRelayerTtl .. | .verifyAuthEntry .. | .commitFund ..
  | .revealFund .. | .cancelCommitment .. | .registerMetaSigner .. | .unregisterMetaSigner ..
  | .executeMetaFund .. => none
  | _ => some (.holds .admin)

/-- The nonce that a call carries. -/
def nonce : Request → Option UInt64
  | .initializeContract _ _ _ nonce | .initializeWithWasmHash _ _ _ nonce _
  | .fundCAddress _ _ _ _ nonce _ | .batchFundCAddress _ _ _ _ nonce _
  | .setFeeBps _ nonce | .setSourceDailyLimit _ _ _ nonce | .setAssetFeeCap _ _ nonce
  | .setFeeCollector _ nonce | .proposeNewFeeCollector _ nonce | .setAdmin _ nonce
  | .proposeNewAdmin _ nonce | .clearPendingAdmin nonce | .clearPendingFeeCollector nonce
  | .setMinimumAmount _ nonce | .withdrawFees _ _ nonce | .setMaxWithdrawPerTx _ nonce
  | .setReferralRate _ nonce | .fundCAddressWithReferral _ _ _ _ _ nonce _ | .pause nonce
  | .unpause nonce | .upgrade _ nonce | .scheduleUpgrade _ nonce | .executeUpgrade _ nonce
  | .cancelUpgrade nonce | .emergencyMigrate _ _ nonce | .addToBlocklist _ nonce
  | .removeFromBlocklist _ nonce | .addToAllowlist _ nonce | .removeFromAllowlist _ nonce
  | .setAllowlistMode _ nonce | .reclaimTokens _ _ _ nonce | .addAsset _ nonce
  | .removeAsset _ nonce | .addSwapPool _ nonce | .removeSwapPool _ nonce
  | .setLoyaltyToken _ _ nonce | .setFeeTiers _ nonce | .addRelayer _ nonce
  | .removeRelayer _ nonce | .setRelayerThreshold _ nonce
  | .fundCAddressTimelocked _ _ _ _ _ _ nonce _ | .extendInstanceTtl _ nonce
  | .extendPersistentTtl _ _ nonce | .extendSourcePersistentTtl _ _ _ nonce
  | .setMaxInstanceTtl _ nonce | .setMaxPersistentTtl _ nonce
  | .fundCAddressWithSwap _ _ _ _ _ _ _ nonce _ => nonce
  | _ => none

end Request

/-- A caller's nonce is the given one, and the next one is stored; without one every nonce
stays, and so do the nonces of the others. -/
def Spent (caller : Option Address) : (nonce : Option UInt64) → World → World → Prop
  | none, w, w' => ∀ address, w'.nonceOf address = w.nonceOf address
  | some n, w, w' => ∃ address, caller = some address ∧ n = w.nonceOf address ∧
      n.toNat + 1 < 2 ^ 64 ∧ w'.nonceOf address = n + 1 ∧
      ∀ other, other ≠ address → w'.nonceOf other = w.nonceOf other

/-- Successful runs spend the nonce of a caller. -/
abbrev Spends (caller : Caller) (nonce : Option UInt64) {α : Type} (body : Call α) : Prop :=
  Preserves (fun w w' => Spent (w.resolve caller) nonce w w') body

/-! ## Rules -/

/-- Whether a key holds a nonce. -/
abbrev DataKey.isNonce : DataKey → Bool
  | .nonce _ => true
  | _ => false

/-- The keys that hold no nonce. -/
def otherThanNonces : Set DataKey := {key | key.isNonce = false}

@[simp] theorem mem_otherThanNonces {key : DataKey} :
    key ∈ otherThanNonces ↔ key.isNonce = false := Iff.rfl

/-- The keys that hold neither a nonce nor a role. -/
def otherThanCallers : Set DataKey := {key | key.isNonce = false ∧ key.isSetting = false}

@[simp] theorem mem_otherThanCallers {key : DataKey} :
    key ∈ otherThanCallers ↔ key.isNonce = false ∧ key.isSetting = false := Iff.rfl

theorem Frame.nonceOf {moves : Prop} {w w' : World} (frame : Frame otherThanNonces moves w w')
    (address : Address) : w'.nonceOf address = w.nonceOf address := by
  rw [World.nonceOf, World.nonceOf, frame.store _ (by simp)]

theorem Frame.resolve {moves : Prop} {w w' : World} (frame : Frame otherThanCallers moves w w')
    (caller : Caller) : w'.resolve caller = w.resolve caller := by
  cases caller with
  | named => rfl
  | holds role =>
    have settings : w'.settings = w.settings := by
      refine Frame.settings (frame.widen fun key inside => ?_)
      exact (mem_otherThanCallers.mp inside).2
    exact congrArg (fun settings => settings.holder role) settings

section Rules

variable {caller : Caller} {nonce : Option UInt64} {α β : Type}

theorem Spends.after {body : Call α} {rest : α → Call β}
    (touches : Touches otherThanCallers True body) (next : ∀ a, Spends caller nonce (rest a)) :
    Spends caller nonce (body >>= rest) := by
  intro w b w' ran
  obtain ⟨a, t, first, ran⟩ := run_bind_ok.mp ran
  have frame := touches first
  have same := (frame.widen fun key inside => (mem_otherThanCallers.mp inside).1).nonceOf
  have spent : Spent (t.resolve caller) nonce t w' := next a ran
  rw [frame.resolve] at spent
  cases nonce with
  | none => exact fun address => (spent address).trans (same address)
  | some n =>
    obtain ⟨address, who, now, fits, next, others⟩ := spent
    exact ⟨address, who, now.trans (same address), fits, next,
      fun other different => (others other different).trans (same other)⟩

theorem Spends.before {body : Call α} {rest : α → Call β} (first : Spends caller nonce body)
    (touches : ∀ a, Touches otherThanNonces True (rest a)) :
    Spends caller nonce (body >>= rest) := by
  intro w b w' ran
  obtain ⟨a, t, spends, ran⟩ := run_bind_ok.mp ran
  have same := (touches a ran).nonceOf
  have spent := first spends
  cases nonce with
  | none => exact fun address => (same address).trans (spent address)
  | some n =>
    obtain ⟨address, who, now, fits, next, others⟩ := spent
    exact ⟨address, who, now, fits, (same address).trans next,
      fun other different => (same other).trans (others other different)⟩

theorem Spends.nonReentrant {body : Call α} (inner : Spends caller nonce body) :
    Spends caller nonce (nonReentrant body) := by
  refine .after (.read _) fun _ => .after (.rejectIf _ _) fun _ => ?_
  refine .after (save_touches _ (by simp)) fun _ => inner.before fun _ => ?_
  exact .bind (remove_touches (by simp)) fun _ => .pure _

theorem Spends.replying {body : Call α} {reply : α → Reply} (inner : Spends caller nonce body) :
    Spends caller nonce (replying body reply) :=
  inner.before fun _ => .pure _

end Rules

/-- Consuming a nonce spends it for whoever the caller is. -/
theorem consumeNonce_spent {caller : Option Address} {address : Address} {nonce : Option UInt64}
    {w w' : World} {u : Unit} (who : caller = some address)
    (ran : (consumeNonce address nonce).run w = .ok (u, w')) : Spent caller nonce w w' := by
  have consumed := consumeNonce_ok.mp ran
  cases nonce with
  | none =>
    obtain rfl : w' = w := consumed
    exact fun _ => rfl
  | some n =>
    obtain ⟨now, fits, rfl⟩ := consumed
    refine ⟨address, who, now, fits, by simp [World.nonceOf], fun other different => ?_⟩
    simp [World.nonceOf, different]

theorem consumeNonce_spends (address : Address) (nonce : Option UInt64) :
    Spends (.named address) nonce (consumeNonce address nonce) :=
  fun _ _ _ ran => consumeNonce_spent rfl ran

/-- The admin in office spends the nonce. -/
theorem authorizeAdmin_spends (env : Env) (nonce : Option UInt64) :
    Spends (.holds .admin) nonce (authorizeAdmin env nonce) := by
  intro w _ w' ran
  rw [authorizeAdmin, run_view_bind_ok readAdmin_ok] at ran
  obtain ⟨admin, found, ran⟩ := ran
  obtain ⟨-, ran⟩ := requireAuth_bind_ok.mp ran
  obtain ⟨_, _, consumed, ran⟩ := run_bind_ok.mp ran
  obtain ⟨-, rfl⟩ := run_pure_ok.mp ran
  exact consumeNonce_spent found consumed

/-! ## Calls -/

/-- The fee collector spends the nonce of a withdrawal. -/
theorem withdrawFees_spends (env : Env) (asset : Address) (amount : I128) (nonce : Option UInt64) :
    Spends (.holds .feeCollector) nonce (withdrawFees env asset amount nonce) := by
  refine .after checkInitialized_touches fun _ => .after checkRecoveryAllowed_touches fun _ => ?_
  intro w _ w' ran
  rw [run_view_bind_ok readFeeCollector_ok] at ran
  obtain ⟨feeCollector, found, ran⟩ := ran
  obtain ⟨-, ran⟩ := requireAuth_bind_ok.mp ran
  have who : w.resolve (.holds .feeCollector) = w.resolve (.named feeCollector) := found
  simp only [who]
  refine Spends.before (consumeNonce_spends feeCollector nonce) (fun _ => ?_) ran
  repeat' with_reducible refine Preserves.bind ?_ fun _ => ?_
  all_goals simp

/-- A migration checks between the authorisation and the nonce that the contract is not
deactivated. -/
theorem emergencyMigrate_spends (env : Env) (newContract : Address) (migrateData : Bool)
    (nonce : Option UInt64) :
    Spends (.holds .admin) nonce (emergencyMigrate env newContract migrateData nonce) := by
  refine .after checkInitialized_touches fun _ => ?_
  intro w _ w' ran
  rw [run_view_bind_ok readAdmin_ok] at ran
  obtain ⟨admin, found, ran⟩ := ran
  obtain ⟨-, ran⟩ := requireAuth_bind_ok.mp ran
  have who : w.resolve (.holds .admin) = w.resolve (.named admin) := found
  simp only [who]
  refine Spends.after checkNotDeactivated_touches (fun _ => ?_) ran
  refine Spends.before (consumeNonce_spends admin nonce) fun _ => ?_
  repeat' with_reducible refine Preserves.bind ?_ fun _ => ?_
  all_goals simp

theorem initializeInner_spends (env : Env) (admin feeCollector : Address) (feeBps : UInt32)
    (nonce : Option UInt64) (wasmHash : BytesN 32) :
    Spends (.named admin) nonce
      (initializeInner env admin feeCollector feeBps nonce wasmHash) := by
  refine Spends.nonReentrant ?_
  iterate 4 (refine .after ?_ fun _ => ?_; focus simp [requireAuth_touches])
  refine Spends.before (consumeNonce_spends admin nonce) fun _ => ?_
  repeat' with_reducible refine Preserves.bind ?_ fun _ => ?_
  all_goals simp

theorem execute_spends (env : Env) {request : Request} {caller : Caller}
    (takes : request.caller = some caller) : Spends caller request.nonce (execute env request) := by
  cases request
  all_goals first | cases takes; done | skip
  all_goals obtain rfl := Option.some.inj takes
  case withdrawFees => exact Spends.replying (withdrawFees_spends ..)
  case fundCAddress | batchFundCAddress | fundCAddressWithReferral | fundCAddressTimelocked |
      fundCAddressWithSwap =>
    refine Spends.replying (Spends.nonReentrant ?_)
    repeat
      refine .after ?_ fun _ => ?_
      focus simp [requireAuth_touches, checkPoolWhitelisted_touches, validateAmounts_touches]
    refine Spends.before (consumeNonce_spends ..) fun _ => ?_
    repeat' with_reducible refine Preserves.bind ?_ fun _ => ?_
    all_goals simp [Preserves.ofExcept, readFeeBps_touches]
  case emergencyMigrate => exact Spends.replying (emergencyMigrate_spends ..)
  case initializeContract => exact Spends.replying (initializeInner_spends ..)
  case initializeWithWasmHash => exact Spends.replying (initializeInner_spends ..)
  case setFeeCollector | proposeNewFeeCollector | setAdmin | proposeNewAdmin | clearPendingAdmin |
      clearPendingFeeCollector | reclaimTokens | addAsset | removeAsset | addSwapPool |
      removeSwapPool | scheduleUpgrade | cancelUpgrade | addRelayer =>
    refine Spends.replying (Spends.nonReentrant ?_)
    repeat (refine .after ?_ fun _ => ?_; focus simp)
    refine Spends.before (authorizeAdmin_spends ..) fun _ => ?_
    repeat' with_reducible refine Preserves.bind ?_ fun _ => ?_
    all_goals simp [Preserves.ofExcept]
  all_goals
    refine Spends.replying ?_
    repeat (refine .after ?_ fun _ => ?_; focus simp)
    refine Spends.before (authorizeAdmin_spends ..) fun _ => ?_
    repeat' with_reducible refine Preserves.bind ?_ fun _ => ?_
    all_goals simp [Preserves.ofExcept, readFeeBps_touches]

/-- Whose nonce a call spends in a world. -/
def Request.callerIn (request : Request) (w : World) : Option Address :=
  request.caller.bind w.resolve

/-- A successful call spends the nonce it carries, and no other. -/
theorem execute_spent {env : Env} {request : Request} {reply : Reply} {w w' : World}
    (ran : (execute env request).run w = .ok (reply, w')) :
    Spent (request.callerIn w) request.nonce w w' := by
  cases takes : request.caller with
  | some caller =>
    rw [Request.callerIn, takes]
    exact execute_spends env takes ran
  | none =>
    have carries : request.nonce = none := by
      cases request <;> first | cases takes; done | rfl
    rw [carries]
    intro address
    have outside : .nonce address ∉ request.writes := by
      cases request
      all_goals first | cases takes; done | simp [Request.writes, dailyUsages]
    rw [World.nonceOf, World.nonceOf, (execute_frame env request ran).store _ outside]

/-! ## Runs -/

/-- The nonce of an address that a step spends. -/
def Label.spent (address : Address) : Label → Option UInt64
  | .success call =>
      if call.request.callerIn call.before = some address then call.request.nonce else none
  | _ => none

theorem World.resolve_begin (w : World) : w.begin.resolve = w.resolve := by
  funext caller
  cases caller with
  | named => rfl
  | holds role => cases role <;> rfl

theorem success_spent {call : Success}
    (ran : (execute call.env call.request).run call.before.begin = .ok (call.reply, call.after)) :
    Spent (call.request.callerIn call.before) call.request.nonce call.before call.after := by
  have spent := execute_spent ran
  rw [Request.callerIn, World.resolve_begin] at spent
  cases carries : call.request.nonce with
  | none =>
    rw [carries] at spent
    exact spent
  | some n =>
    rw [carries] at spent
    exact spent

/-- A step spends the current nonce of an address, or leaves it alone. -/
theorem Step.nonceOf {host : Host} {w w' : World} {label : Label} (taken : Step host w label w')
    (address : Address) :
    match label.spent address with
    | none => w'.nonceOf address = w.nonceOf address
    | some n => n = w.nonceOf address ∧ (w'.nonceOf address).toNat = n.toNat + 1 := by
  cases taken with
  | @success call _ ran =>
    have spent := success_spent ran
    rw [Label.spent]
    cases carries : call.request.nonce with
    | none =>
      rw [carries] at spent
      rw [ite_self]
      exact spent address
    | some n =>
      rw [carries] at spent
      obtain ⟨caller, who, now, fits, next, others⟩ := spent
      by_cases same : address = caller
      · subst same
        rw [if_pos who]
        refine ⟨now, ?_⟩
        rw [next, UInt64.toNat_add]
        exact Nat.mod_eq_of_lt fits
      · rw [if_neg fun other => same (Option.some.inj (other.symm.trans who))]
        exact others address same
  | failure => rfl
  | external => rfl

/-- Over a whole run the successful calls that carried a nonce of an address carried zero,
one, two and so on, and a nonce that a call carried was that of its caller. A step that
does not spend a nonce of an address, be it a failed call, a call without a nonce or a call
of somebody else, leaves the nonce as it was. -/
theorem nonces_sequential {host : Host} {start w : World} {labels : List Label}
    (fresh : Genesis host start) (run : Run (Step host) start labels w) :
    (∀ address, (labels.filterMap (Label.spent address)).map UInt64.toNat =
        List.range (w.nonceOf address).toNat) ∧
      (∀ call n, .success call ∈ labels → call.request.nonce = some n →
        ∃ address, (Label.success call).spent address = some n) ∧
      (∀ label w', Step host w label w' → ∀ address, label.spent address = none →
        w'.nonceOf address = w.nonceOf address) := by
  refine ⟨fun address => ?_, fun call n member carries => ?_, fun label w' taken address idle => ?_⟩
  · refine run.counted (fun w => (w.nonceOf address).toNat) (fun _ _ _ taken idle => ?_)
      (fun _ _ _ taken n spent => ?_) (by simp [World.nonceOf, fresh.store])
    · have step := Step.nonceOf taken address
      rw [idle] at step
      exact congrArg UInt64.toNat step
    · have step := Step.nonceOf taken address
      rw [spent] at step
      exact ⟨congrArg UInt64.toNat step.1, step.2⟩
  · obtain ⟨-, ran, -⟩ := successful_of_run run member
    have spent := success_spent ran
    rw [carries] at spent
    obtain ⟨address, who, -⟩ := spent
    exact ⟨address, by rw [Label.spent, if_pos who, carries]⟩
  · have step := Step.nonceOf taken address
    rwa [idle] at step

/-- The admin is also a source, and its calls share one sequence. -/
theorem nonces_sequential_rehearsed :
    let script : List (UInt64 × Request) := [
      (0, .initializeContract (Rehearsal.address 1) (Rehearsal.address 2) 100 (some 0)),
      (0, .addAsset (Rehearsal.address 3) (some 1)), (0, .setMinimumAmount (Rehearsal.amount 5) none),
      (0, .fundCAddress (Rehearsal.address 1) (Rehearsal.address 5) (Rehearsal.address 3)
        (Rehearsal.amount 1000) (some 2) none)]
    (((Rehearsal.calls script).map Label.success).filterMap
      (Label.spent (Rehearsal.address 1))).map UInt64.toNat = [0, 1, 2] := by
  intro script
  have counted := (nonces_sequential Rehearsal.fresh_genesis
    (Rehearsal.run script (by decide +kernel))).1 (Rehearsal.address 1)
  have next : ((Rehearsal.outcome script).nonceOf (Rehearsal.address 1)).toNat = 3 := by
    decide +kernel
  rw [counted, next]
  rfl

end OnboardingBridge.Contract
