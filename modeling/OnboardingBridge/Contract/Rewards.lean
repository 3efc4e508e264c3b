import Mathlib.Algebra.Order.BigOperators.Group.List
import OnboardingBridge.Contract.Settlement

/-!
# Loyalty rewards

The reward step of a call does nothing when no reward is configured, reports a
skipped reward when the figure it works out is too low, and pays the recipient
otherwise. The figure is the balance of the bridge less two of the three
buckets: the cross-chain reserve counts as spendable (`Rewarded.covered`).
-/

set_option autoImplicit false

namespace OnboardingBridge.Contract

open Foundations Foundations.Tx

/-! ## The reward step -/

/-- The token and the amount of a reward, when one is configured. -/
def World.loyaltyReward (w : World) : Option (Address × I128) :=
  (w.store .loyaltyToken).bind fun token =>
    if 0 < w.loyaltyAmountPerFund.val then some (token, w.loyaltyAmountPerFund) else none

/-- The figure a reward in a token is compared with. -/
def World.rewardFigure (w : World) (bridge token : Address) : I128 :=
  ((w.tokens.balance token bridge).saturatingSub (w.counters token).accruedFees).saturatingSub
    (w.counters token).lockedTimelock

theorem mintLoyaltyTokens_run (env : Env) (recipient : Address) (w : World) :
    (mintLoyaltyTokens env recipient).run w =
      match w.loyaltyReward with
      | none => .ok ((), w)
      | some (token, amount) =>
          if (w.rewardFigure env.self token).val < amount.val then
            .ok ((), w.emit (.loyaltyMintSkipped recipient amount (w.rewardFigure env.self token)))
          else (transfer env token env.self recipient amount).run w := by
  rw [mintLoyaltyTokens, run_read_bind, World.loyaltyReward]
  cases w.store .loyaltyToken with
  | none => rfl
  | some token =>
    simp only [Option.bind_some]
    rw [run_read_bind]
    by_cases positive : 0 < w.loyaltyAmountPerFund.val
    · rw [if_neg (not_le.mpr positive), if_pos positive, run_read_bind, run_read_bind]
      change (if (w.rewardFigure env.self token).val < w.loyaltyAmountPerFund.val then
        publish (.loyaltyMintSkipped recipient w.loyaltyAmountPerFund
          (w.rewardFigure env.self token))
        else transfer env token env.self recipient w.loyaltyAmountPerFund).run w = _
      by_cases low : (w.rewardFigure env.self token).val < w.loyaltyAmountPerFund.val
      · rw [if_pos low]
        simp only [low, if_true]
        rfl
      · rw [if_neg low]
        simp only [low, if_false]
    · rw [if_pos (not_lt.mp positive), if_neg positive]
      rfl

/-- A positive figure does not exceed the balance less the two buckets. -/
theorem rewardFigure_le (w : World) (bridge token : Address)
    (positive : 0 < (w.rewardFigure bridge token).val) :
    (w.rewardFigure bridge token).val ≤
      w.surplus bridge token + (w.crosschainReserve token).val := by
  have balance := (w.tokens.balance token bridge).lower
  have accrued := (w.counters token).accruedFees.upper
  have locked := (w.counters token).lockedTimelock.lower
  simp only [World.rewardFigure, BoundedInt.saturatingSub_val, World.surplus] at positive ⊢
  omega

/-- The reward step can be taken: a reward that the figure covers can be paid. -/
def World.RewardPayable (w : World) (env : Env) (recipient : Address) : Prop :=
  ∀ token amount, w.loyaltyReward = some (token, amount) →
    amount.val ≤ (w.rewardFigure env.self token).val → w.Payable env token recipient amount

theorem mintLoyaltyTokens_succeeds {env : Env} {recipient : Address} {w : World} :
    (∃ w', (mintLoyaltyTokens env recipient).run w = .ok ((), w')) ↔
      w.RewardPayable env recipient := by
  rw [mintLoyaltyTokens_run, World.RewardPayable]
  cases configured : w.loyaltyReward with
  | none => simp
  | some reward =>
    obtain ⟨token, amount⟩ := reward
    simp only [Option.some.injEq, Prod.mk.injEq]
    by_cases low : (w.rewardFigure env.self token).val < amount.val
    · simp only [low, if_true]
      constructor
      · rintro - token' amount' ⟨rfl, rfl⟩ enough
        omega
      · exact fun _ => ⟨_, rfl⟩
    · simp only [low, if_false, pay_ok]
      constructor
      · rintro ⟨w', accepts, moved, moves, -⟩ token' amount' ⟨rfl, rfl⟩ -
        exact ⟨accepts, moved, moves⟩
      · intro payable
        obtain ⟨accepts, moved, moves⟩ := payable token amount ⟨rfl, rfl⟩ (not_lt.mp low)
        exact ⟨_, accepts, moved, moves, rfl⟩

/-- What a call with the given recipient paid as a reward. -/
def rewardPaid (recipient : Option Address) (w w' : World) (asset : Address) : Int :=
  match recipient, w.loyaltyReward with
  | some _, some (token, amount) => if w'.loyaltySkips = [] then inAsset token amount.val asset else 0
  | _, _ => 0

/-- A reward in a token is paid by a transfer to the recipient. -/
def rewardCalls (bridge : Address) (recipient : Option Address) (w w' : World) : List TokenCall :=
  match recipient, w.loyaltyReward with
  | some dst, some (token, amount) =>
      if w'.loyaltySkips = [] then [.transfer token bridge dst amount] else []
  | _, _ => []

/-- A call that paid something paid its whole reward to its recipient. -/
theorem rewardPaid_pos (bridge : Address) {recipient : Option Address} {w w' : World}
    {asset : Address} (paid : 0 < rewardPaid recipient w w' asset) :
    ∃ dst amount, recipient = some dst ∧ w.loyaltyReward = some (asset, amount) ∧
      rewardPaid recipient w w' asset = amount.val ∧
      rewardCalls bridge recipient w w' = [.transfer asset bridge dst amount] := by
  unfold rewardPaid at paid ⊢
  unfold rewardCalls
  split at paid
  · next dst token amount configured =>
    by_cases performed : w'.loyaltySkips = []
    · by_cases same : asset = token
      · subst same
        exact ⟨dst, amount, rfl, configured, by simp [performed, inAsset], by simp [performed]⟩
      · simp [performed, inAsset, same] at paid
    · simp [performed] at paid
  · simp at paid

theorem Recorded.loyaltyReward {bridge : Address} {journal : List Movement} {w w' : World}
    (recorded : Recorded bridge journal w w') : w'.loyaltyReward = w.loyaltyReward := by
  unfold World.loyaltyReward World.loyaltyAmountPerFund
  rw [recorded.settings .loyaltyToken rfl rfl, recorded.settings .loyaltyAmountPerFund rfl rfl]

/-- What the reward step does to the books, and which token calls it makes. -/
structure RewardStep (env : Env) (recipient : Option Address) (s r : World) : Prop where
  surplus : ∀ asset, r.surplus env.self asset = s.surplus env.self asset
    - rewardPaid recipient s r asset
    + ownPayments env.self asset (rewardCalls env.self recipient s r)
  earmarked : ∀ bucket asset,
    r.books env.self (.earmarked bucket) asset = s.books env.self (.earmarked bucket) asset
  invocations : r.invocations = s.invocations ++ rewardCalls env.self recipient s r
  nonneg : ∀ call ∈ rewardCalls env.self recipient s r, 0 ≤ call.amount.val
  covered : ∀ asset, 0 < rewardPaid recipient s r asset → rewardPaid recipient s r asset ≤
    s.surplus env.self asset + (s.crosschainReserve asset).val

/-- A step that changes nothing pays nothing. -/
theorem RewardStep.idle {env : Env} {recipient : Option Address} {s : World}
    (unpaid : recipient = none ∨ s.loyaltyReward = none) : RewardStep env recipient s s := by
  have paid (asset : Address) : rewardPaid recipient s s asset = 0 := by
    unfold rewardPaid
    rcases unpaid with rfl | none
    · rfl
    · rw [none]
      cases recipient <;> rfl
  have calls : rewardCalls env.self recipient s s = [] := by
    unfold rewardCalls
    rcases unpaid with rfl | none
    · rfl
    · rw [none]
      cases recipient <;> rfl
  refine ⟨fun asset => ?_, fun _ _ => rfl, ?_, ?_, fun asset positive => ?_⟩
  · simp [paid, calls, ownPayments]
  · simp [calls]
  · simp [calls]
  · simp [paid] at positive

theorem Rewarded.step {env : Env} {recipient : Option Address} {s r : World}
    (rewarded : Rewarded env recipient s r) (quiet : s.loyaltySkips = []) :
    RewardStep env recipient s r := by
  cases recipient with
  | none =>
    obtain rfl : r = s := rewarded
    exact .idle (.inl rfl)
  | some dst =>
    have ran : (mintLoyaltyTokens env dst).run s = .ok ((), r) := rewarded
    rw [mintLoyaltyTokens_run] at ran
    cases configured : s.loyaltyReward with
    | none =>
      simp only [configured, Except.ok.injEq, Prod.mk.injEq, true_and] at ran
      exact ran ▸ .idle (.inr configured)
    | some reward =>
      obtain ⟨token, amount⟩ := reward
      simp only [configured] at ran
      split at ran
      · -- the figure is too low: the skipped reward is reported
        simp only [Except.ok.injEq, Prod.mk.injEq, true_and] at ran
        have skipped : r.loyaltySkips ≠ [] := by
          rw [← ran]
          simp [World.loyaltySkips]
        have paid (asset : Address) : rewardPaid (some dst) s r asset = 0 := by
          simp [rewardPaid, configured, skipped]
        have calls : rewardCalls env.self (some dst) s r = [] := by
          simp [rewardCalls, configured, skipped]
        refine ⟨fun asset => ?_, fun bucket asset => ?_, ?_, ?_, fun asset positive => ?_⟩
        · rw [paid, calls, ← ran]
          simp [ownPayments, World.surplus, World.counters, World.crosschainReserve]
        · rw [← ran]
          cases bucket <;> rfl
        · rw [calls, ← ran]
          simp
        · simp [calls]
        · simp [paid] at positive
      · -- the figure covers the reward: it is transferred
        next enough =>
        have recorded : Recorded env.self [.token (.transfer token env.self dst amount)] s r :=
          transfer_records env token env.self dst amount ran
        have paid (asset : Address) : rewardPaid (some dst) s r asset =
            inAsset token amount.val asset := by
          simp [rewardPaid, configured, recorded.loyaltySkips, quiet]
        have calls : rewardCalls env.self (some dst) s r =
            [.transfer token env.self dst amount] := by
          simp [rewardCalls, configured, recorded.loyaltySkips, quiet]
        refine ⟨fun asset => ?_, fun bucket asset => ?_, ?_, ?_, fun asset positive => ?_⟩
        · rw [recorded.surplus_margin, paid, calls]
          by_cases same : asset = token
          · simp [Movement.call?, inAsset, same]
            omega
          · simp [Movement.call?, inAsset, same]
        · rw [recorded.earmarked]
          simp
        · rw [calls, recorded.invocations]
          rfl
        · rw [calls]
          exact recorded.nonneg
        · rw [paid] at positive ⊢
          by_cases same : asset = token
          · subst same
            simp only [inAsset, if_true] at positive ⊢
            have bounded := rewardFigure_le s env.self asset (by omega)
            omega
          · simp [inAsset, same] at positive

/-! ## What a settled call does -/

@[simp] theorem ownPayments_append (bridge asset : Address) (first second : List TokenCall) :
    ownPayments bridge asset (first ++ second) =
      ownPayments bridge asset first + ownPayments bridge asset second := by
  simp [ownPayments]

theorem ownPayments_nonneg {bridge asset : Address} {calls : List TokenCall}
    (nonneg : ∀ call ∈ calls, 0 ≤ call.amount.val) : 0 ≤ ownPayments bridge asset calls := by
  refine List.sum_nonneg fun paid member => ?_
  obtain ⟨call, called, rfl⟩ := List.mem_map.mp member
  have amount := nonneg call called
  cases call with
  | transfer asset' src dst moved =>
    simp only [selfPaid, TokenCall.amount] at amount ⊢
    split <;> omega
  | transferFrom => exact le_rfl

/-- The token calls of a settled call before its reward, and what the call does
to the surplus and to the buckets of timelocked deposits and of the reserve. -/
structure Effects (env : Env) (recipient : Option Address) (payees : List (Address × Address))
    (margin locked reserve : Address → Int) (w w' : World) (earlier : List TokenCall) : Prop where
  invocations : w'.invocations = earlier ++ rewardCalls env.self recipient w w'
  nonneg : ∀ call ∈ w'.invocations, 0 ≤ call.amount.val
  others : ∀ asset, (asset, env.self) ∉ payees → ownPayments env.self asset earlier = 0
  surplus : ∀ asset, w'.surplus env.self asset = w.surplus env.self asset + margin asset
    - rewardPaid recipient w w' asset + ownPayments env.self asset w'.invocations
  locked : ∀ asset, (w'.counters asset).lockedTimelock.val =
    (w.counters asset).lockedTimelock.val + locked asset
  reserve : ∀ asset, (w'.crosschainReserve asset).val =
    (w.crosschainReserve asset).val + reserve asset
  covered : ∀ asset, 0 < rewardPaid recipient w w' asset → rewardPaid recipient w w' asset ≤
    w.surplus env.self asset + margin asset + ownPayments env.self asset earlier
      + (w'.crosschainReserve asset).val

theorem Settled.effects {env : Env} {recipient : Option Address}
    {payees : List (Address × Address)} {margin locked reserve : Address → Int} {w w' : World}
    (settled : Settled env recipient payees margin locked reserve w w')
    (fresh : w.invocations = []) (quiet : w.loyaltySkips = []) :
    ∃ earlier, Effects env recipient payees margin locked reserve w w' earlier := by
  obtain ⟨journal, s, r, recorded, tally, rewarded, later⟩ := settled
  have step := rewarded.step (recorded.loyaltySkips.trans quiet)
  have paid : rewardPaid recipient s r = rewardPaid recipient w w' := by
    funext asset
    simp only [rewardPaid, recorded.loyaltyReward, later.loyaltySkips]
  have calls : rewardCalls env.self recipient s r = rewardCalls env.self recipient w w' := by
    simp only [rewardCalls, recorded.loyaltyReward, later.loyaltySkips]
  have laterSurplus (asset : Address) : w'.surplus env.self asset = r.surplus env.self asset := by
    simpa using later.surplus asset
  have laterBucket (bucket : Bucket) (asset : Address) : w'.books env.self (.earmarked bucket) asset
      = w.books env.self (.earmarked bucket) asset
        + (journal.map (Movement.earmarks bucket asset)).sum := by
    have kept := later.earmarked bucket asset
    simp only [List.map_nil, List.sum_nil, add_zero] at kept
    rw [kept, step.earmarked, recorded.earmarked]
  have settledSurplus (asset : Address) := recorded.surplus_margin asset
  simp only [tally.margin] at settledSurplus
  have reserved (asset : Address) : w'.books env.self (.earmarked .crosschainReserve) asset =
      s.books env.self (.earmarked .crosschainReserve) asset := by
    rw [laterBucket, recorded.earmarked]
  have invocations : w'.invocations =
      journal.filterMap Movement.call? ++ rewardCalls env.self recipient w w' := by
    have kept := later.invocations
    simp only [List.filterMap_nil, List.append_nil] at kept
    rw [kept, step.invocations, recorded.invocations, fresh, List.nil_append, calls]
  refine ⟨journal.filterMap Movement.call?, invocations, ?_, tally.ownPayments, fun asset => ?_,
    fun asset => ?_, fun asset => ?_, fun asset positive => ?_⟩
  · rw [invocations]
    exact List.forall_mem_append.mpr ⟨recorded.nonneg, calls ▸ step.nonneg⟩
  · rw [laterSurplus, step.surplus, settledSurplus, paid, calls, invocations, ownPayments_append]
    omega
  · exact (laterBucket .lockedTimelock asset).trans (by rw [tally.locked]; rfl)
  · exact (laterBucket .crosschainReserve asset).trans (by rw [tally.reserve]; rfl)
  · have bound := step.covered asset (paid ▸ positive)
    have reserve : (w'.crosschainReserve asset).val = (s.crosschainReserve asset).val :=
      reserved asset
    rw [paid, settledSurplus] at bound
    rw [reserve]
    exact bound

end OnboardingBridge.Contract
