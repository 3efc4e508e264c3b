import Mathlib.Data.Int.ConditionallyCompleteOrder
import OnboardingBridge.Contract.Outcomes

/-!
# Conservation of the surplus, and solvency

A successful call moves the surplus of an asset by what it reclaims, by the
reward it pays and by what the bridge pays itself, and by nothing else
(`call_moves_surplus`).

The bridge is solvent when its balance covers the three buckets. A reward may
break that: the figure it is compared with does not subtract the cross-chain
reserve, although `reclaimTokens` does. A run in which no reward is paid out of
the reserve stays solvent (`run_solvent`).
-/

set_option autoImplicit false

namespace OnboardingBridge.Contract

open Foundations Foundations.Tx

namespace Success

/-- The address of the bridge that was called. -/
def bridge (call : Success) : Address := call.env.self

/-- Whom the call rewards, when a reward is configured. -/
def recipient (call : Success) : Option Address := call.request.recipient call.before

/-- What the call paid as a reward. A reward that is not paid is reported by an
event. -/
def loyaltyPaid (call : Success) (asset : Address) : Int :=
  rewardPaid call.recipient call.before call.after asset

/-- The token call by which a reward is paid. -/
def loyaltyCalls (call : Success) : List TokenCall :=
  rewardCalls call.bridge call.recipient call.before call.after

/-- A whitelisted pool changes the balances of the bridge in the target of a
swap only. -/
def PoolAddsTarget (call : Success) : Prop :=
  match call.request with
  | .fundCAddressWithSwap _ _ _ targetAsset _ minTargetAmount _ _ _ =>
      ∀ pool before after amountOut, call.before.isPoolWhitelisted pool = true →
        call.env.swap pool minTargetAmount before = some (after, amountOut) →
        ∀ asset, asset ≠ targetAsset →
          after.balance asset call.bridge = before.balance asset call.bridge
  | _ => True

/-- A whitelisted pool lowers no balance of the bridge. -/
def PoolKeepsBalances (call : Success) : Prop :=
  ∀ pool minAmountOut before after amountOut, call.before.isPoolWhitelisted pool = true →
    call.env.swap pool minAmountOut before = some (after, amountOut) →
    ∀ asset, (before.balance asset call.bridge).val ≤ (after.balance asset call.bridge).val

end Success

/-! ## Conservation -/

/-- The effects of a successful call on a sound world. -/
theorem Step.effects {host : Host} {call : Success} {w w' : World}
    (sound : w.Sound host.contractAddress) (taken : Step host w (.success call) w') :
    w = call.before ∧ w' = call.after ∧ call.bridge = host.contractAddress ∧
      ∃ gained earlier, call.request.Gains call.env call.before gained ∧
        Effects call.env call.recipient (call.request.payees call.before)
          (gained - call.request.reclaimed) (call.request.lockedChange call.before)
          (call.request.reserveChange call.before) call.before call.after earlier := by
  cases taken with
  | success deployed ran =>
    subst deployed
    have sound : call.before.begin.Sound call.env.self := sound.of_store rfl
    obtain ⟨gained, earlier, gains, effects⟩ := execute_effects sound ran rfl rfl
    -- the world a call begins in differs in its events and token calls only
    exact ⟨rfl, rfl, rfl, gained, earlier, gains, effects.invocations, effects.nonneg,
      effects.others, effects.surplus, effects.locked, effects.reserve, effects.covered⟩

/-- What a successful call does to the surplus of an asset, and where its reward
stands among the token calls. -/
theorem call_moves_surplus {host : Host} {call : Success} {w w' : World}
    (reachable : Reachable host w) (taken : Step host w (.success call) w')
    (pools : call.PoolAddsTarget) (asset : Address) :
    w'.surplus host.contractAddress asset = w.surplus host.contractAddress asset
        - call.request.reclaimed asset - call.loyaltyPaid asset
        + ownPayments host.contractAddress asset w'.invocations ∧
      ∃ earlier, w'.invocations = earlier ++ call.loyaltyCalls := by
  obtain ⟨rfl, rfl, bridge, gained, earlier, gains, effects⟩ :=
    taken.effects reachable.sound
  have nothing : gained asset = 0 := by
    cases request : call.request
    case fundCAddressWithSwap =>
      simp only [request, Request.Gains] at gains
      obtain ⟨pool, before, after, amountOut, listed, swaps, rfl⟩ := gains
      simp only [Success.PoolAddsTarget, request] at pools
      unfold windfall
      split
      · rfl
      · next other =>
        have kept := pools pool before after amountOut listed swaps asset other
        simp only [Success.bridge] at kept
        rw [kept, sub_self]
    all_goals
      simp only [request, Request.Gains] at gains
      exact congrFun gains asset
  have surplus := effects.surplus asset
  rw [Pi.sub_apply, nothing] at surplus
  rw [← bridge]
  refine ⟨?_, earlier, effects.invocations⟩
  simp only [Success.bridge, Success.loyaltyPaid]
  omega

/-- A reward is paid out of the surplus. -/
theorem call_moves_surplus_rewarded :
    let setUp : List (UInt64 × Request) := [
      (0, .initializeContract (Rehearsal.address 1) (Rehearsal.address 2) 100 none),
      (0, .addAsset (Rehearsal.address 3) none),
      (0, .setLoyaltyToken (Rehearsal.address 3) (Rehearsal.amount 50) none)]
    let call := attempt (Rehearsal.env 0) (.fundCAddress (Rehearsal.address 4) (Rehearsal.address 5)
      (Rehearsal.address 3) (Rehearsal.amount 1000) none none) (Rehearsal.outcome setUp)
    call.after.surplus Rehearsal.bridge (Rehearsal.address 3) =
        (Rehearsal.outcome setUp).surplus Rehearsal.bridge (Rehearsal.address 3)
          - call.request.reclaimed (Rehearsal.address 3) - call.loyaltyPaid (Rehearsal.address 3)
          + ownPayments Rehearsal.bridge (Rehearsal.address 3) call.after.invocations ∧
      ∃ earlier, call.after.invocations = earlier ++ call.loyaltyCalls := by
  intro setUp call
  have request := (attempt_call (Rehearsal.env 0) (.fundCAddress (Rehearsal.address 4)
    (Rehearsal.address 5) (Rehearsal.address 3) (Rehearsal.amount 1000) none none)
    (Rehearsal.outcome setUp)).2.1
  refine call_moves_surplus (Rehearsal.reachable setUp (by decide +kernel))
    (attempt_step rfl (by decide +kernel)) ?_ (Rehearsal.address 3)
  simp only [Success.PoolAddsTarget, request]

/-! ## Solvency -/

/-- The balance of the bridge covers the three buckets of every asset. -/
def World.Solvent (w : World) (bridge : Address) : Prop := Books.Solvent (w.books bridge)

theorem World.solvent_iff {w : World} {bridge : Address} :
    w.Solvent bridge ↔ ∀ asset, 0 ≤ w.surplus bridge asset := by
  simp only [World.Solvent, Books.Solvent, surplus_books]

namespace Success

/-- What the call leaves in the cross-chain reserve of an asset. -/
def reserveLeft (call : Success) (asset : Address) : Int :=
  (call.before.crosschainReserve asset).val + call.request.reserveChange call.before asset

/-- The call adds nothing to the surplus of an asset: it pays the bridge nothing
in the asset, and no pool leaves it with more of it. -/
def AddsNothing (call : Success) (asset : Address) : Prop :=
  (asset, call.bridge) ∉ call.request.payees call.before ∧
    ∀ gained, call.request.Gains call.env call.before gained → gained asset ≤ 0

/-- The reward of the call, if it has one, is not paid out of the cross-chain
reserve: it goes to the bridge itself, or the call leaves no reserve of the token,
or the surplus covers the reward, or the surplus and the reserve that is left
together do not. -/
def RewardSparesReserve (call : Success) : Prop :=
  ∀ dst token amount, call.recipient = some dst →
    call.before.loyaltyReward = some (token, amount) →
    dst = call.bridge ∨ call.reserveLeft token ≤ 0 ∨
      amount.val ≤ call.before.surplus call.bridge token ∨
      (call.AddsNothing token ∧
        call.before.surplus call.bridge token + call.reserveLeft token < amount.val)

theorem PoolKeepsBalances.gains {call : Success} (pools : call.PoolKeepsBalances)
    {gained : Address → Int} (gains : call.request.Gains call.env call.before gained)
    (asset : Address) : 0 ≤ gained asset := by
  cases request : call.request
  case fundCAddressWithSwap =>
    simp only [request, Request.Gains] at gains
    obtain ⟨pool, before, after, amountOut, listed, swaps, rfl⟩ := gains
    have kept := pools pool _ before after amountOut listed swaps asset
    simp only [Success.bridge] at kept
    unfold windfall
    split <;> omega
  all_goals
    simp only [request, Request.Gains] at gains
    exact (congrFun gains asset).ge

end Success

/-- A successful call whose reward spares the reserve keeps the bridge
solvent. -/
theorem Step.solvent {host : Host} {call : Success} {w w' : World}
    (sound : w.Sound host.contractAddress) (solvent : w.Solvent host.contractAddress)
    (taken : Step host w (.success call) w') (pools : call.PoolKeepsBalances)
    (spares : call.RewardSparesReserve) : w'.Solvent host.contractAddress := by
  have reclaims (asset : Address) :
      call.request.reclaimed asset ≤ w.surplus host.contractAddress asset := by
    cases taken with
    | success deployed ran =>
      subst deployed
      exact execute_reclaims ran (World.solvent_iff.mp solvent asset)
  obtain ⟨rfl, rfl, bridge, gained, earlier, gains, effects⟩ := taken.effects sound
  rw [← bridge] at solvent reclaims ⊢
  rw [World.solvent_iff] at solvent ⊢
  intro asset
  have before := solvent asset
  have gain := pools.gains gains asset
  have own : 0 ≤ ownPayments call.bridge asset call.after.invocations :=
    ownPayments_nonneg effects.nonneg
  have surplus := effects.surplus asset
  rw [Pi.sub_apply] at surplus
  simp only [Success.bridge] at before own reclaims ⊢
  by_cases paid : 0 < rewardPaid call.recipient call.before call.after asset
  · -- a reward in this asset was paid, so the call reclaims nothing
    have covered := effects.covered asset paid
    obtain ⟨dst, amount, rewards, configured, value, calls⟩ :=
      rewardPaid_pos call.bridge paid
    have nothing := Request.reclaimed_of_recipient rewards
    have split := effects.invocations
    rw [Success.bridge] at calls
    rw [calls] at split
    have earlierNonneg : 0 ≤ ownPayments call.env.self asset earlier :=
      ownPayments_nonneg fun call member =>
        effects.nonneg call (split ▸ List.mem_append_left _ member)
    have reward : 0 ≤ amount.val := by omega
    have total : ownPayments call.env.self asset call.after.invocations =
        ownPayments call.env.self asset earlier
          + if dst = call.env.self then amount.val else 0 := by
      rw [split, ownPayments_append]
      simp [ownPayments, selfPaid]
    have left := effects.reserve asset
    rw [Pi.sub_apply, nothing, Pi.zero_apply] at covered
    rw [nothing, Pi.zero_apply] at surplus
    rcases spares dst asset amount rewards configured with own | none | enough | ⟨adds, low⟩
    · rw [Success.bridge] at own
      rw [if_pos own] at total
      omega
    · rw [Success.reserveLeft, ← left] at none
      omega
    · rw [Success.bridge] at enough
      omega
    · have gainedNothing := adds.2 gained gains
      have others := effects.others asset adds.1
      rw [Success.reserveLeft, ← left, Success.bridge] at low
      omega
  · have := reclaims asset
    omega

/-- In a run in which no whitelisted pool lowers a balance of the bridge and no
reward is paid out of the cross-chain reserve, the balance of the bridge covers
the three buckets of every asset. -/
theorem run_solvent {host : Host} {start w : World} {labels : List Label}
    (fresh : Genesis host start) (run : Run (Step host) start labels w)
    (pools : ∀ call, .success call ∈ labels → call.PoolKeepsBalances)
    (spares : ∀ call, .success call ∈ labels → call.RewardSparesReserve) (asset : Address) :
    (w.counters asset).accruedFees.val + (w.counters asset).lockedTimelock.val
        + (w.crosschainReserve asset).val
      ≤ (w.tokens.balance asset host.contractAddress).val := by
  have empty : start.Solvent host.contractAddress := by
    rw [World.solvent_iff]
    intro asset
    simpa [World.surplus, World.counters, World.crosschainReserve, fresh.store] using
      fresh.balances asset
  have kept := run_world_invariant
    (fun w => w.Sound host.contractAddress ∧ w.Solvent host.contractAddress)
    (fun call => call.PoolKeepsBalances ∧ call.RewardSparesReserve)
    ?_ ?_ run (fun call member => ⟨pools call member, spares call member⟩) ⟨fresh.sound, empty⟩
  · have surplus := World.solvent_iff.mp kept.2 asset
    rw [World.surplus] at surplus
    omega
  · rintro call deployed ⟨pools, spares⟩ ⟨sound, solvent⟩ ran
    have taken := Step.success deployed ran
    exact ⟨sound.run (.single taken), taken.solvent sound solvent pools spares⟩
  · rintro w tokens raised ⟨sound, solvent⟩
    refine ⟨sound.of_store rfl, World.solvent_iff.mpr fun asset => ?_⟩
    have before := World.solvent_iff.mp solvent asset
    have more := raised asset
    simp only [World.surplus, World.counters, World.crosschainReserve] at before ⊢
    omega

/-- A reward paid out of the surplus leaves the bridge solvent. -/
theorem run_solvent_rewarded :
    let script : List (UInt64 × Request) := [
      (0, .initializeContract (Rehearsal.address 1) (Rehearsal.address 2) 100 none),
      (0, .addAsset (Rehearsal.address 3) none),
      (0, .setLoyaltyToken (Rehearsal.address 3) (Rehearsal.amount 50) none),
      (0, .fundCAddress (Rehearsal.address 4) (Rehearsal.address 5) (Rehearsal.address 3)
        (Rehearsal.amount 1000) none none)]
    let w := Rehearsal.outcome script
    (w.counters (Rehearsal.address 3)).accruedFees.val
        + (w.counters (Rehearsal.address 3)).lockedTimelock.val
        + (w.crosschainReserve (Rehearsal.address 3)).val
      ≤ (w.tokens.balance (Rehearsal.address 3) Rehearsal.bridge).val := by
  intro script w
  refine run_solvent Rehearsal.fresh_genesis (Rehearsal.run script ?_) ?_ ?_ _
  · decide +kernel
  · refine Rehearsal.forall_calls fun call member pool _ before _ _ _ swaps => ?_
    simp [Rehearsal.no_swap member] at swaps
  · have unreserved : ∀ call ∈ Rehearsal.calls script, (call.before.loyaltyReward.all
        fun reward => decide (call.reserveLeft reward.1 ≤ 0)) = true := by
      decide +kernel
    refine Rehearsal.forall_calls fun call member dst token amount _ configured => ?_
    have none := unreserved call member
    rw [configured] at none
    exact .inr (.inl (of_decide_eq_true none))

/-- A reward is paid out of the cross-chain reserve: the bridge holds 10000 of an
asset, the admin puts 10000 more in its reserve, and a reward of 15000 is
paid. -/
theorem reward_breaks_solvency :
    ∃ host start labels w asset, Genesis host start ∧ Run (Step host) start labels w ∧
      (∀ call, .success call ∈ labels → call.PoolKeepsBalances) ∧
      ¬ (w.counters asset).accruedFees.val + (w.counters asset).lockedTimelock.val
          + (w.crosschainReserve asset).val
        ≤ (w.tokens.balance asset host.contractAddress).val := by
  let script : List (UInt64 × Request) := [
    (0, .initializeContract (Rehearsal.address 1) (Rehearsal.address 2) 0 none),
    (0, .addAsset (Rehearsal.address 3) none),
    (0, .setLoyaltyToken (Rehearsal.address 3) (Rehearsal.amount 15000) none),
    (0, .fundCrosschainReserve (Rehearsal.address 3) (Rehearsal.amount 10000)),
    (0, .fundCAddress (Rehearsal.address 4) (Rehearsal.address 5) (Rehearsal.address 3)
      (Rehearsal.amount 1000) none none)]
  refine ⟨Rehearsal.host, Rehearsal.fresh, (Rehearsal.calls script).map .success,
    Rehearsal.outcome script, Rehearsal.address 3, Rehearsal.fresh_genesis, ?_, ?_, ?_⟩
  · exact Rehearsal.run script (by decide +kernel)
  · refine Rehearsal.forall_calls fun call member pool _ before _ _ _ swaps => ?_
    simp [Rehearsal.no_swap member] at swaps
  · decide +kernel

end OnboardingBridge.Contract
