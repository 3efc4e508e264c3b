import OnboardingBridge.Contract.FundingSettlement

/-!
# The stored timelock entries

Two calls write timelock entries. A deposit stores one under the next
identifier, and a claim marks one as claimed. No other call touches an entry or
the identifier counter.
-/

set_option autoImplicit false

namespace OnboardingBridge.Contract

open Foundations Foundations.Tx

/-- Whether a key belongs to the timelock entries. -/
abbrev DataKey.isTimelock : DataKey → Bool
  | .timelockId | .timelock _ => true
  | _ => false

/-- The keys outside the timelock entries. -/
def otherThanTimelocks : Set DataKey := {key | key.isTimelock = false}

@[simp] theorem mem_otherThanTimelocks {key : DataKey} :
    key ∈ otherThanTimelocks ↔ key.isTimelock = false := Iff.rfl

/-- The identifier the next deposit gets. -/
def World.timelockId (w : World) : UInt64 := (w.store .timelockId).getD 0

theorem nextTimelockId_ok {w w' : World} {id : UInt64}
    (ran : nextTimelockId.run w = .ok (id, w')) :
    id = w.timelockId ∧ id.toNat + 1 < 2 ^ 64 ∧ w' = w.put .timelockId (id + 1) := by
  simp only [nextTimelockId, incrementU64, save, run_bind_ok, run_read_ok, run_ofOption_ok,
    run_modify_ok, run_pure_ok] at ran
  obtain ⟨_, _, ⟨rfl, rfl⟩, next, _, ⟨increments, rfl⟩, _, _, rfl, rfl, rfl⟩ := ran
  split at increments
  · next fits =>
    obtain rfl := Option.some.inj increments
    exact ⟨rfl, fits, rfl⟩
  · simp at increments

/-- A deposit stores its entry under the next identifier and changes no other. -/
theorem fundCAddressTimelocked_stores {env : Env} {source target asset : Address} {amount : I128}
    {releaseTime cliffTime : UInt64} {nonce deadline : Option UInt64} {w w' : World} {id : UInt64}
    (ran : (fundCAddressTimelocked env source target asset amount releaseTime cliffTime nonce
      deadline).run w = .ok (id, w')) :
    0 < amount.val ∧ id = w.timelockId ∧ id.toNat + 1 < 2 ^ 64 ∧ w'.timelockId = id + 1 ∧
      w'.store (.timelock id) =
        some ⟨source, target, asset, amount, releaseTime, cliffTime, false⟩ ∧
      ∀ other, other ≠ id → w'.store (.timelock other) = w.store (.timelock other) := by
  obtain ⟨mid, ran, left⟩ := nonReentrant_ok ran
  have sofar : Frame otherThanTimelocks True w (w.put .entered true) := by
    have touches : Touches otherThanTimelocks True (save .entered true) := save_touches _ (by simp)
    exact touches rfl
  iterate 3 (refine sofar.skip ran ?_ fun _ _ sofar ran => ?_; focus simp)
  refine sofar.skip ran (.read _) fun minimum _ sofar ran => ?_
  obtain ⟨enough, ran⟩ := run_rejectIf_bind_ok.mp ran
  obtain ⟨positive, -⟩ := not_or.mp enough
  iterate 4 (refine sofar.skip ran ?_ fun _ _ sofar ran => ?_; focus simp)
  refine sofar.skip ran (requireAuth_touches ..) fun _ _ sofar ran => ?_
  refine sofar.skip ran (consumeNonce_touches _ _ (by simp)) fun _ _ sofar ran => ?_
  refine sofar.skip ran (transfer_touches ..) fun _ pulled sofar ran => ?_
  obtain ⟨id', allotted, identified, ran⟩ := run_bind_ok.mp ran
  obtain ⟨next, fits, same⟩ := nextTimelockId_ok identified
  have timelockId : pulled.timelockId = w.timelockId :=
    congrArg (Option.getD · 0) (sofar.store .timelockId (by simp))
  rw [timelockId] at next
  rw [saveTimelockEntry, save, run_modify_bind] at ran
  have earlier (other : UInt64) := sofar.store (.timelock other) (by simp)
  have sofar := refl_of (Frame otherThanTimelocks True) (allotted.put (.timelock id')
    ⟨source, target, asset, amount, releaseTime, cliffTime, false⟩)
  refine sofar.skip ran (incrementLockedTimelock_touches _ _ (by simp)) fun _ _ sofar ran => ?_
  refine sofar.skip ran (incrementUserDeposit_touches _ _ _ (by simp)) fun _ _ sofar ran => ?_
  refine sofar.skip ran (mintLoyaltyTokens_touches ..) fun _ _ sofar ran => ?_
  refine sofar.skip ran (publish_touches rfl) fun _ _ sofar ran => ?_
  obtain ⟨rfl, rfl⟩ := run_pure_ok.mp ran
  subst same left
  refine ⟨not_le.mp positive, next, fits, ?_, ?_, fun other different => ?_⟩
  · simp [World.timelockId, sofar.store .timelockId (by simp)]
  · simp [sofar.store (.timelock id) (by simp)]
  · simp [sofar.store (.timelock other) (by simp), different, earlier]

/-- A claim marks its entry and changes no other. -/
theorem claimTimelocked_stores {env : Env} {id : UInt64} {w w' : World} {u : Unit}
    (ran : (claimTimelocked env id).run w = .ok (u, w')) :
    ∃ entry, w.store (.timelock id) = some entry ∧ entry.claimed = false ∧
      w'.timelockId = w.timelockId ∧
      w'.store (.timelock id) = some { entry with claimed := true } ∧
      ∀ other, other ≠ id → w'.store (.timelock other) = w.store (.timelock other) := by
  obtain ⟨-, -, -, entry, stored, unclaimed, -, -, fee, netAmount, -, -, unlocked, paid, counted,
    decremented, payment, updated, rfl⟩ := claimTimelocked_ok.mp ran
  have unlocks : Touches otherThanTimelocks True
      (decrementLockedTimelock entry.asset entry.amount) :=
    decrementLockedTimelock_touches _ _ (by simp)
  have pays : Touches otherThanTimelocks True
      (onlyIf (0 < netAmount.val) (transfer env entry.asset env.self entry.target netAmount)) :=
    .onlyIf (transfer_touches ..)
  have counts : Touches otherThanTimelocks True (updateAssetCounters entry.asset fee netAmount) :=
    updateAssetCounters_touches _ _ _ (by simp)
  have frame := trans_of (Frame otherThanTimelocks True) (unlocks decremented)
    (trans_of (Frame otherThanTimelocks True) (pays payment) (counts updated))
  refine ⟨entry, stored, unclaimed, ?_, ?_, fun other different => ?_⟩
  · simp [World.timelockId, frame.store .timelockId (by simp), World.marking]
  · simp [frame.store (.timelock id) (by simp), World.marking]
  · simp [frame.store (.timelock other) (by simp), World.marking, different]

end OnboardingBridge.Contract
