import OnboardingBridge.Contract.Invariants
import OnboardingBridge.Contract.Rewards

/-!
# The effects of every call

For each request: whom it rewards and whom it pays, what it reclaims, and how
far it moves the timelocked deposits and the cross-chain reserve.
`execute_effects` says that every successful call has exactly these effects on
the books of the bridge.
-/

set_option autoImplicit false

namespace OnboardingBridge.Contract

open Foundations Foundations.Tx

namespace Request

/-- Whom a call rewards, when a reward is configured. A batch rewards its source
only when it reaches a target. -/
def recipient (w : World) : Request → Option Address
  | .fundCAddress source .. | .fundCAddressWithReferral source .. | .revealFund _ source ..
  | .fundCAddressWithSwap source .. | .fundCAddressTimelocked source .. => some source
  | .batchFundCAddress source targets .. => if targets.any w.admits then some source else none
  | .executeMetaFund params .. => some params.source
  | .fundCAddressCrosschain _ _ target .. => some target
  | _ => none

/-- In which assets a call may pay whom, before its reward. -/
def payees (w : World) : Request → List (Address × Address)
  | .fundCAddress _ target asset .. | .revealFund _ _ target asset ..
  | .fundCAddressCrosschain _ _ target asset .. => [(asset, target)]
  | .batchFundCAddress source targets _ asset .. =>
      targets.map (asset, ·) ++ [(asset, source)]
  | .fundCAddressWithReferral _ target asset _ referrer .. =>
      (asset, target) :: referrer.toList.map (asset, ·)
  | .fundCAddressWithSwap _ target sourceAsset targetAsset _ _ swapRoute .. =>
      (targetAsset, target) :: swapRoute.map (sourceAsset, ·)
  | .executeMetaFund params .. => [(params.asset, params.target)]
  | .claimTimelocked id =>
      ((w.store (.timelock id)).map fun entry => (entry.asset, entry.target)).toList
  | .withdrawFees asset .. => w.feeCollector?.toList.map (asset, ·)
  | .reclaimTokens asset _ destination _ => [(asset, destination)]
  | .withdrawCrosschainReserve asset _ => w.admin?.toList.map (asset, ·)
  | _ => []

/-- What a call reclaims of each asset. -/
def reclaimed : Request → Address → Int
  | .reclaimTokens asset amount .. => inAsset asset amount.val
  | _ => 0

/-- How far a call moves the timelocked deposits of each asset. -/
def lockedChange (w : World) : Request → Address → Int
  | .fundCAddressTimelocked _ _ asset amount .. => inAsset asset amount.val
  | .claimTimelocked id =>
      match w.store (.timelock id) with
      | some entry => inAsset entry.asset (-entry.amount.val)
      | none => 0
  | _ => 0

/-- How far a call moves the cross-chain reserve of each asset. -/
def reserveChange (w : World) : Request → Address → Int
  | .fundCrosschainReserve asset amount => inAsset asset amount.val
  | .withdrawCrosschainReserve asset amount => inAsset asset (-amount.val)
  | .fundCAddressCrosschain _ _ _ asset amount _ => inAsset asset (-w.netOf asset amount)
  | _ => 0

/-- What the pool of a swap may leave the bridge with in assets that are not the
target of the swap. -/
def Gains (env : Env) (w : World) : Request → (Address → Int) → Prop
  | .fundCAddressWithSwap _ _ _ targetAsset _ minTargetAmount _ _ _, gained =>
      ∃ pool before after amountOut, w.isPoolWhitelisted pool = true ∧
        env.swap pool minTargetAmount before = some (after, amountOut) ∧
        gained = windfall env.self targetAsset before after
  | _, gained => gained = 0

end Request

/-- A successful call that may move tokens settles as its request says. -/
theorem execute_settled {env : Env} {request : Request} {reply : Reply} {w w' : World}
    (sound : w.Sound env.self) (moving : request.movesTokens)
    (ran : (execute env request).run w = .ok (reply, w')) :
    ∃ gained, request.Gains env w gained ∧ Settled env (request.recipient w) (request.payees w)
      (gained - request.reclaimed) (request.lockedChange w) (request.reserveChange w) w w' := by
  cases request
  all_goals first | exact moving.elim | obtain ⟨_, ran, -⟩ := replying_ok.mp ran
  case fundCAddressWithSwap =>
    obtain ⟨pool, before, after, amountOut, listed, swaps, settled⟩ :=
      fundCAddressWithSwap_settled sound.fees ran
    refine ⟨_, ⟨pool, before, after, amountOut, listed, swaps, rfl⟩, ?_⟩
    simpa only [Request.recipient, Request.payees, Request.reclaimed, Request.lockedChange,
      Request.reserveChange, sub_zero] using settled
  all_goals
    refine ⟨0, rfl, ?_⟩
    simp only [Request.recipient, Request.payees, Request.reclaimed, Request.lockedChange,
      Request.reserveChange, sub_zero, zero_sub, inAsset_neg]
  case fundCAddress => exact fundCAddress_settled sound.fees ran
  case batchFundCAddress => exact batchFundCAddress_settled sound.fees ran
  case withdrawFees => exact withdrawFees_settled ran
  case fundCAddressWithReferral => exact fundCAddressWithReferral_settled sound.fees ran
  case reclaimTokens => exact inAsset_neg .. ▸ (reclaimTokens_settled ran).2
  case fundCrosschainReserve => exact fundCrosschainReserve_settled ran
  case withdrawCrosschainReserve => exact inAsset_neg .. ▸ withdrawCrosschainReserve_settled ran
  case fundCAddressCrosschain =>
    exact inAsset_neg .. ▸ (fundCAddressCrosschain_settled sound.fees ran).2.2
  case fundCAddressTimelocked => exact fundCAddressTimelocked_settled ran
  case claimTimelocked =>
    obtain ⟨entry, stored, settled⟩ := claimTimelocked_settled sound.fees
      (fun entry stored => (sound.deposits _ entry stored).2.le) ran
    simpa only [stored, Option.map_some, Option.toList_some, inAsset_neg] using settled
  case revealFund => exact revealFund_settled sound.fees ran
  case executeMetaFund => exact executeMetaFund_settled sound.fees sound.unsigned ran

/-- An administrative call leaves the books as they were. -/
theorem execute_administration_effects {env : Env} {request : Request} {reply : Reply}
    {w w' : World} (still : ¬ request.movesTokens)
    (ran : (execute env request).run w = .ok (reply, w')) (fresh : w.invocations = []) :
    Effects env none [] 0 0 0 w w' [] := by
  have frame := execute_administration_frame env still ran
  have stats (asset : Address) : .assetStats asset ∉ request.writes := by
    intro writes
    cases request <;> simp [Request.writes, Request.movesTokens] at still writes
  have reserves (asset : Address) : .crossChainReserve asset ∉ request.writes := by
    intro writes
    cases request <;> simp [Request.writes, Request.movesTokens] at still writes
  have counters (asset : Address) : w'.counters asset = w.counters asset := by
    rw [World.counters, World.counters, frame.store _ (stats asset)]
  have reserve (asset : Address) : w'.crosschainReserve asset = w.crosschainReserve asset := by
    rw [World.crosschainReserve, World.crosschainReserve, frame.store _ (reserves asset)]
  have invocations : w'.invocations = [] := (frame.invocations id).trans fresh
  have unpaid (asset : Address) : rewardPaid none w w' asset = 0 := rfl
  refine ⟨invocations, by simp [invocations], fun _ _ => rfl, fun asset => ?_, fun asset => ?_,
    fun asset => ?_, fun asset positive => ?_⟩
  · rw [World.surplus, World.surplus, frame.tokens id, counters, reserve, invocations, unpaid]
    simp [ownPayments]
  · simp [counters]
  · simp [reserve]
  · simp [unpaid] at positive

/-- Every successful call has the effects of its request. -/
theorem execute_effects {env : Env} {request : Request} {reply : Reply} {w w' : World}
    (sound : w.Sound env.self) (ran : (execute env request).run w = .ok (reply, w'))
    (fresh : w.invocations = []) (quiet : w.loyaltySkips = []) :
    ∃ gained earlier, request.Gains env w gained ∧ Effects env (request.recipient w)
      (request.payees w) (gained - request.reclaimed) (request.lockedChange w)
      (request.reserveChange w) w w' earlier := by
  by_cases moving : request.movesTokens
  · obtain ⟨gained, gains, settled⟩ := execute_settled sound moving ran
    obtain ⟨earlier, effects⟩ := settled.effects fresh quiet
    exact ⟨gained, earlier, gains, effects⟩
  · have effects := execute_administration_effects moving ran fresh
    have tables : request.recipient w = none ∧ request.payees w = [] ∧ request.reclaimed = 0 ∧
        request.lockedChange w = 0 ∧ request.reserveChange w = 0 ∧ request.Gains env w 0 := by
      cases request <;> first | exact absurd trivial moving | exact ⟨rfl, rfl, rfl, rfl, rfl, rfl⟩
    obtain ⟨recipient, payees, reclaimed, locked, reserve, gains⟩ := tables
    rw [recipient, payees, reclaimed, locked, reserve]
    exact ⟨0, [], gains, by simpa only [sub_zero] using effects⟩

/-- No call reclaims more than the surplus. -/
theorem execute_reclaims {env : Env} {request : Request} {reply : Reply} {w w' : World}
    (ran : (execute env request).run w = .ok (reply, w')) {asset : Address}
    (solvent : 0 ≤ w.surplus env.self asset) :
    request.reclaimed asset ≤ w.surplus env.self asset := by
  cases request
  case reclaimTokens =>
    obtain ⟨_, ran, -⟩ := replying_ok.mp ran
    simp only [Request.reclaimed, inAsset]
    split
    · next same => exact same ▸ (reclaimTokens_settled ran).1
    · exact solvent
  all_goals exact solvent

/-- A call that may reward somebody reclaims nothing. -/
theorem Request.reclaimed_of_recipient {request : Request} {w : World} {dst : Address}
    (rewards : request.recipient w = some dst) : request.reclaimed = 0 := by
  cases request <;> first | rfl | simp [Request.recipient] at rewards

end OnboardingBridge.Contract
