import OnboardingBridge.Contract.Postings

/-!
# The history that the counters tell

The two totals of an asset only grow. What was ever collected as a fee is accrued,
was withdrawn or was shared with a referrer, and what was ever bridged was paid to
the recipients of funding calls, cross-chain payouts and claims
(`counter_history`).
-/

set_option autoImplicit false

namespace OnboardingBridge.Contract

open Foundations Foundations.Tx

/-! ## Calls -/

theorem inAsset_nonneg {asset : Address} {amount : Int} (nonneg : 0 ≤ amount) (asset' : Address) :
    0 ≤ inAsset asset amount asset' := by
  unfold inAsset
  split
  · exact nonneg
  · exact le_rfl

theorem fundCAddress_told {env : Env} {source target asset : Address} {amount : I128}
    {nonce deadline : Option UInt64} {w w' : World} {u : Unit} (bounded : w.FeesBounded)
    (fresh : w.invocations = []) (quiet : w.loyaltySkips = [])
    (ran : (fundCAddress env source target asset amount nonce deadline).run w = .ok (u, w')) :
    Told env (.fundCAddress source target asset amount nonce deadline) w w' := by
  obtain ⟨mid, ran, left⟩ := nonReentrant_ok ran
  have sofar := Posted.enter env.self w
  repeat (refine sofar.skip ran ?_ fun _ _ sofar ran => ?_; focus simp)
  obtain ⟨authorized, ran⟩ := requireAuth_bind_ok.mp ran
  have other := ne_self_of_authorizes authorized
  repeat (refine sofar.skip ran ?_ fun _ _ sofar ran => ?_; focus simp)
  obtain ⟨fee, netAmount, net, parts, ran⟩ := charged_ok (sofar.recorded.feesBounded bounded) ran
  obtain ⟨_, _, sofar, pulled, ran⟩ :=
    sofar.step (transfer_records ..) (transfer_sameTotals ..) ran
  obtain ⟨feeNonneg, netNonneg⟩ := parts (transfer_nonneg pulled)
  obtain ⟨_, _, sofar, -, ran⟩ := sofar.step (payout_records ..) (payout_sameTotals ..) ran
  obtain ⟨_, _, counted, ran⟩ := run_bind_ok.mp ran
  have sofar := sofar.trans (updateAssetCountersSplit_posted env.self _ _ _ _ counted)
  repeat (refine sofar.skip ran ?_ fun _ _ sofar ran => ?_; focus simp)
  obtain ⟨_, _, minted, ran⟩ := run_bind_ok.mp ran
  refine sofar.told 0 minted (leave_posted left (by simp) ran) fresh quiet rfl (fun _ => rfl)
    (fun asset' => ?_) (fun asset' => ?_) fun asset' => ?_
  · simp [List.filterMap_cons, Movement.call?, TokenCall.paid, other, outflow_payout netNonneg,
      Request.aside]
  · simp [inAsset]
  · simp [inAsset_nonneg feeNonneg, inAsset_nonneg netNonneg]

theorem revealFund_told {env : Env} {commitmentId nonce : UInt64} {source target asset : Address}
    {amount : I128} {w w' : World} {u : Unit} (bounded : w.FeesBounded)
    (fresh : w.invocations = []) (quiet : w.loyaltySkips = [])
    (ran : (revealFund env commitmentId source target asset amount nonce).run w = .ok (u, w')) :
    Told env (.revealFund commitmentId source target asset amount nonce) w w' := by
  obtain ⟨mid, ran, left⟩ := nonReentrant_ok ran
  have sofar := Posted.enter env.self w
  repeat (refine sofar.skip ran ?_ fun _ _ sofar ran => ?_; focus simp)
  obtain ⟨authorized, ran⟩ := requireAuth_bind_ok.mp ran
  have other := ne_self_of_authorizes authorized
  repeat (refine sofar.skip ran ?_ fun _ _ sofar ran => ?_; focus simp)
  obtain ⟨_, _, sofar, pulled, ran⟩ :=
    sofar.step (transfer_records ..) (transfer_sameTotals ..) ran
  obtain ⟨fee, netAmount, net, parts, ran⟩ := charged_ok (sofar.recorded.feesBounded bounded) ran
  obtain ⟨feeNonneg, netNonneg⟩ := parts (transfer_nonneg pulled)
  obtain ⟨_, _, sofar, -, ran⟩ := sofar.step (payout_records ..) (payout_sameTotals ..) ran
  obtain ⟨_, _, counted, ran⟩ := run_bind_ok.mp ran
  have sofar := sofar.trans (updateAssetCountersSplit_posted env.self _ _ _ _ counted)
  repeat (refine sofar.skip ran ?_ fun _ _ sofar ran => ?_; focus simp)
  obtain ⟨_, _, minted, ran⟩ := run_bind_ok.mp ran
  refine sofar.told 0 minted (leave_posted left (publish_touches rfl) ran) fresh quiet rfl
    (fun _ => rfl) (fun asset' => ?_) (fun asset' => ?_) fun asset' => ?_
  · simp [List.filterMap_cons, Movement.call?, TokenCall.paid, other, outflow_payout netNonneg,
      Request.aside]
  · simp [inAsset]
  · simp [inAsset_nonneg feeNonneg, inAsset_nonneg netNonneg]

theorem executeMetaFund_told {env : Env} {params : MetaFundParams} {pubkey : BytesN 32}
    {signature : BytesN 64} {w w' : World} {u : Unit} (bounded : w.FeesBounded)
    (fresh : w.invocations = []) (quiet : w.loyaltySkips = [])
    (ran : (executeMetaFund env params pubkey signature).run w = .ok (u, w')) :
    Told env (.executeMetaFund params pubkey signature) w w' := by
  obtain ⟨mid, ran, left⟩ := nonReentrant_ok ran
  have sofar := Posted.enter env.self w
  repeat (refine sofar.skip ran ?_ fun _ _ sofar ran => ?_; focus simp)
  obtain ⟨_, t, first, ran⟩ := run_bind_ok.mp ran
  have pulled := transferFrom_nonneg first
  have pulls : Touches ∅ True (transferFrom env params.asset params.source env.self params.amount) :=
    transferFrom_touches ..
  have sofar := sofar.trans (.of_sameTotals (transferFrom_records _ _ _ _ _ first)
    ((pulls first).sameTotals (by simp)))
  obtain ⟨fee, netAmount, net, parts, ran⟩ := charged_ok (sofar.recorded.feesBounded bounded) ran
  obtain ⟨feeNonneg, netNonneg⟩ := parts pulled
  obtain ⟨_, _, sofar, -, ran⟩ := sofar.step (payout_records ..) (payout_sameTotals ..) ran
  repeat (refine sofar.skip ran ?_ fun _ _ sofar ran => ?_; focus simp)
  obtain ⟨_, _, counted, ran⟩ := run_bind_ok.mp ran
  have sofar := sofar.trans (updateAssetCountersSplit_posted env.self _ _ _ _ counted)
  repeat (refine sofar.skip ran ?_ fun _ _ sofar ran => ?_; focus simp)
  obtain ⟨_, _, minted, ran⟩ := run_bind_ok.mp ran
  refine sofar.told 0 minted (leave_posted left (publish_touches rfl) ran) fresh quiet rfl
    (fun _ => rfl) (fun asset' => ?_) (fun asset' => ?_) fun asset' => ?_
  · simp [List.filterMap_cons, Movement.call?, TokenCall.paid, outflow_payout netNonneg,
      Request.aside]
  · simp [inAsset]
  · simp [inAsset_nonneg feeNonneg, inAsset_nonneg netNonneg]

/-- The tokens that a swap routes through its pool go aside. -/
theorem fundCAddressWithSwap_told {env : Env} {source target sourceAsset targetAsset : Address}
    {sourceAmount minTargetAmount : I128} {swapRoute : List Address}
    {nonce deadline : Option UInt64} {w w' : World} {u : Unit} (bounded : w.FeesBounded)
    (fresh : w.invocations = []) (quiet : w.loyaltySkips = [])
    (ran : (fundCAddressWithSwap env source target sourceAsset targetAsset sourceAmount
      minTargetAmount swapRoute nonce deadline).run w = .ok (u, w')) :
    Told env (.fundCAddressWithSwap source target sourceAsset targetAsset sourceAmount
      minTargetAmount swapRoute nonce deadline) w w' := by
  obtain ⟨mid, ran, left⟩ := nonReentrant_ok ran
  have sofar := Posted.enter env.self w
  repeat (refine sofar.skip ran ?_ fun _ _ sofar ran => ?_; focus simp)
  refine sofar.skip ran (checkPoolWhitelisted_touches _) fun _ _ sofar ran => ?_
  obtain ⟨authorized, ran⟩ := requireAuth_bind_ok.mp ran
  have other := ne_self_of_authorizes authorized
  repeat (refine sofar.skip ran ?_ fun _ _ sofar ran => ?_; focus simp)
  obtain ⟨_, _, sofar, -, ran⟩ := sofar.step (transfer_records ..) (transfer_sameTotals ..) ran
  obtain ⟨_, paid, sofar, -, ran⟩ := sofar.step (transfer_records ..) (transfer_sameTotals ..) ran
  rw [run_read_bind] at ran
  obtain ⟨amountOut, _, swapped, ran⟩ := run_bind_ok.mp ran
  obtain ⟨-, after, swaps, rfl⟩ := invokeSwap_ok swapped
  have sofar := sofar.trans (.of_sameTotals (swapped_recorded env.self paid after)
    fun _ => ⟨rfl, rfl⟩)
  obtain ⟨-, ran⟩ := run_rejectIf_bind_ok.mp ran
  rw [run_read_bind] at ran
  obtain ⟨-, ran⟩ := run_rejectIf_bind_ok.mp ran
  obtain ⟨received, -, ran⟩ := run_ofExcept_bind_ok.mp ran
  obtain ⟨positive, ran⟩ := run_rejectIf_bind_ok.mp ran
  obtain ⟨-, ran⟩ := run_rejectIf_bind_ok.mp ran
  obtain ⟨fee, netAmount, net, parts, ran⟩ := charged_ok (sofar.recorded.feesBounded bounded) ran
  obtain ⟨feeNonneg, netNonneg⟩ := parts (not_le.mp positive).le
  obtain ⟨_, _, sofar, -, ran⟩ := sofar.step (payout_records ..) (payout_sameTotals ..) ran
  obtain ⟨_, _, counted, ran⟩ := run_bind_ok.mp ran
  have sofar := sofar.trans (updateAssetCountersSplit_posted env.self _ _ _ _ counted)
  repeat (refine sofar.skip ran ?_ fun _ _ sofar ran => ?_; focus simp)
  obtain ⟨_, _, minted, ran⟩ := run_bind_ok.mp ran
  refine sofar.told 0 minted (leave_posted left (publish_touches rfl) ran) fresh quiet rfl
    (fun _ => rfl) (fun asset' => ?_) (fun asset' => ?_) fun asset' => ?_
  · simp [List.filterMap_cons, Movement.call?, TokenCall.paid, other, outflow_payout netNonneg,
      Request.aside, add_comm]
  · simp [inAsset]
  · simp [inAsset_nonneg feeNonneg, inAsset_nonneg netNonneg]

/-- A deposit that is locked tells nothing: it is bridged when it is claimed. -/
theorem fundCAddressTimelocked_told {env : Env} {source target asset : Address} {amount : I128}
    {releaseTime cliffTime : UInt64} {nonce deadline : Option UInt64} {w w' : World} {id : UInt64}
    (fresh : w.invocations = []) (quiet : w.loyaltySkips = [])
    (ran : (fundCAddressTimelocked env source target asset amount releaseTime cliffTime nonce
      deadline).run w = .ok (id, w')) :
    Told env (.fundCAddressTimelocked source target asset amount releaseTime cliffTime nonce
      deadline) w w' := by
  obtain ⟨mid, ran, left⟩ := nonReentrant_ok ran
  have sofar := Posted.enter env.self w
  repeat (refine sofar.skip ran ?_ fun _ _ sofar ran => ?_; focus simp)
  obtain ⟨authorized, ran⟩ := requireAuth_bind_ok.mp ran
  have other := ne_self_of_authorizes authorized
  repeat (refine sofar.skip ran ?_ fun _ _ sofar ran => ?_; focus simp)
  obtain ⟨_, _, sofar, -, ran⟩ := sofar.step (transfer_records ..) (transfer_sameTotals ..) ran
  repeat (refine sofar.skip ran ?_ fun _ _ sofar ran => ?_; focus simp)
  obtain ⟨_, _, sofar, -, ran⟩ :=
    sofar.step (incrementLockedTimelock_records ..) (incrementLockedTimelock_sameTotals ..) ran
  repeat (refine sofar.skip ran ?_ fun _ _ sofar ran => ?_; focus simp)
  obtain ⟨_, _, minted, ran⟩ := run_bind_ok.mp ran
  refine sofar.told 0 minted
    (leave_posted left (.bind (publish_touches rfl) fun _ => .pure _) ran) fresh quiet ?_
    (fun _ => rfl) (fun asset' => ?_) (fun asset' => ?_) fun asset' => ?_
  · rfl
  · simp [List.filterMap_cons, Movement.call?, TokenCall.paid, other, Request.aside]
  · simp
  · simp

/-- A claim bridges its entry less the fee. -/
theorem claimTimelocked_told {env : Env} {id : UInt64} {w w' : World} {u : Unit}
    (bounded : w.FeesBounded) (kept : w.DepositsKept) (fresh : w.invocations = [])
    (quiet : w.loyaltySkips = [])
    (ran : (claimTimelocked env id).run w = .ok (u, w')) :
    Told env (.claimTimelocked id) w w' := by
  obtain ⟨-, -, -, entry, stored, -, -, -, fee, netAmount, charged, net, unlocked, paid, counted,
    decremented, payment, updated, left⟩ := claimTimelocked_ok.mp ran
  obtain ⟨feeNonneg, feeLe⟩ := feeOf_bounds bounded (kept id entry stored).2.le charged
  have netNonneg : 0 ≤ netAmount.val := by omega
  have marks : Silent (save (.timelock id) { entry with claimed := true }) :=
    save_touches _ (by simp)
  have publishes : Silent (publish (.timelockClaimed entry.target id netAmount fee entry.asset)) :=
    publish_touches rfl
  have sofar := (Posted.enter env.self w).trans (.of_frame (marks rfl))
  have sofar := sofar.trans (.of_sameTotals (decrementLockedTimelock_records _ _ decremented)
    (decrementLockedTimelock_sameTotals _ _ decremented))
  have sofar := sofar.trans (.of_sameTotals (payout_records _ _ _ _ payment)
    (payout_sameTotals _ _ _ _ payment))
  have sofar := sofar.trans (updateAssetCountersSplit_posted env.self _ _ _ _ updated)
  refine sofar.told 0 rfl (leave_posted left publishes rfl) fresh quiet rfl
    (fun _ => rfl) (fun asset' => ?_) (fun asset' => ?_) fun asset' => ?_
  · simp [List.filterMap_cons, Movement.call?, outflow_payout netNonneg, Request.aside]
  · simp [inAsset]
  · simp [inAsset_nonneg feeNonneg, inAsset_nonneg netNonneg]

/-- A payout from the reserve is bridged, and no fee is counted. -/
theorem fundCAddressCrosschain_told {env : Env} {chainId : UInt32} {txHash : BytesN 32}
    {target asset : Address} {amount : I128} {sigs : List RelayerSig} {w w' : World} {u : Unit}
    (bounded : w.FeesBounded) (fresh : w.invocations = []) (quiet : w.loyaltySkips = [])
    (ran : (fundCAddressCrosschain env chainId txHash target asset amount sigs).run w
      = .ok (u, w')) :
    Told env (.fundCAddressCrosschain chainId txHash target asset amount sigs) w w' := by
  obtain ⟨gates, -, -, fee, netAmount, charged, net, reserved, paid, counted, rewarded,
    decremented, payment, updated, minted, left⟩ := fundCAddressCrosschain_ok.mp ran
  obtain ⟨positive, -⟩ := not_or.mp gates.enough
  obtain ⟨-, feeLe⟩ := feeOf_bounds bounded (not_le.mp positive).le charged
  have netNonneg : 0 ≤ netAmount.val := by omega
  have marks : Silent (markNonceUsed (env.host.crosschainNonce chainId txHash)) :=
    save_touches _ (by simp)
  have publishes : Silent (publish (.crossChainFunded target chainId txHash amount fee asset)) :=
    publish_touches rfl
  have sofar := (Posted.enter env.self w).trans
    (.of_sameTotals (decrementCrosschainReserve_records _ _ decremented)
      (decrementCrosschainReserve_sameTotals _ _ decremented))
  have sofar := sofar.trans (.of_frame (marks rfl))
  have sofar := sofar.trans (.of_sameTotals (payout_records _ _ _ _ payment)
    (payout_sameTotals _ _ _ _ payment))
  have sofar := sofar.trans (updateAssetCountersSplit_posted env.self _ _ _ _ updated)
  refine sofar.told 0 minted (leave_posted left publishes rfl) fresh quiet rfl
    (fun _ => rfl) (fun asset' => ?_) (fun asset' => ?_) fun asset' => ?_
  · simp [List.filterMap_cons, Movement.call?, outflow_payout netNonneg, Request.aside]
  · simp [inAsset]
  · simpa [inAsset] using inAsset_nonneg netNonneg asset'

/-! ## The referral rate -/

/-- The stored referral rate does not exceed the denominator. -/
def World.ReferralBounded (w : World) : Prop :=
  ((w.store .referralRate).getD 0).toNat ≤ 10000

theorem execute_referralBounded {env : Env} {request : Request} {reply : Reply} {w w' : World}
    (bounded : w.ReferralBounded) (ran : (execute env request).run w = .ok (reply, w')) :
    w'.ReferralBounded := by
  by_cases writes : .referralRate ∈ request.writes
  · cases request
    all_goals try (simp [Request.writes, dailyUsages] at writes; done)
    rename_i bps nonce
    obtain ⟨_, ran, -⟩ := replying_ok.mp ran
    rw [setReferralRate] at ran
    obtain ⟨_, _, -, ran⟩ := run_bind_ok.mp ran
    obtain ⟨_, _, -, ran⟩ := run_bind_ok.mp ran
    obtain ⟨within, ran⟩ := run_rejectIf_bind_ok.mp ran
    rw [saveReferralRate, save, run_modify_bind] at ran
    obtain ⟨-, rfl⟩ := run_modify_ok.mp ran
    have denominator : feeDenominator.val = 10000 := rfl
    have within : bps.toNat ≤ 10000 := by omega
    simpa [World.ReferralBounded] using within
  · rwa [World.ReferralBounded, (execute_frame env request ran).store _ writes]

/-- The referrer's share of a fee. -/
def World.referralShare (w : World) (fee : Int) (referrer : Option Address) : Int :=
  referrer.elim 0 fun _ => feeAt fee ((w.store .referralRate).getD 0).toNat

/-- The referrer's share is a part of the fee and is paid to the referrer. -/
theorem payReferral_posted {env : Env} {source asset : Address} {fee protocolFee : I128}
    {referrer : Option Address} {w w' : World} (nonneg : 0 ≤ fee.val) (bounded : w.ReferralBounded)
    (ran : (payReferral env source asset fee referrer).run w = .ok (protocolFee, w')) :
    ∃ share : I128, share.val = w.referralShare fee.val referrer ∧ 0 ≤ share.val ∧
      share.val ≤ fee.val ∧ protocolFee.val = fee.val - share.val ∧
      Posted env.self (referrer.elim [] fun referrer => payout env.self asset referrer share) 0 0
        w w' := by
  cases referrer with
  | none =>
    obtain ⟨rfl, rfl⟩ := run_pure_ok.mp ran
    exact ⟨0, rfl, le_rfl, nonneg, (sub_zero _).symm, .of_sameTotals (.refl _ _) fun _ => ⟨rfl, rfl⟩⟩
  | some referrer =>
    simp only [payReferral] at ran
    rw [run_read_bind, run_ofExcept_bind_ok] at ran
    obtain ⟨share, charged, ran⟩ := ran
    obtain ⟨shareNonneg, shareLe⟩ := calculateFee_part nonneg bounded charged
    refine ⟨share, ((calculateFee_charges nonneg).mp charged).2, shareNonneg, shareLe, ?_⟩
    rw [Option.elim_some, payout]
    split at ran
    · next positive =>
      rw [if_pos positive]
      have sofar := Posted.of_sameTotals (Recorded.refl env.self w) fun _ => ⟨rfl, rfl⟩
      obtain ⟨_, _, sofar, -, ran⟩ := sofar.step (transfer_records ..) (transfer_sameTotals ..) ran
      obtain ⟨rest, difference, ran⟩ := run_ofExcept_bind_ok.mp ran
      refine sofar.skip ran (publish_touches rfl) fun _ _ sofar ran => ?_
      obtain ⟨rfl, rfl⟩ := run_pure_ok.mp ran
      exact ⟨safeSub_ok.mp difference, sofar⟩
    · next none =>
      rw [if_neg none]
      obtain ⟨rfl, rfl⟩ := run_pure_ok.mp ran
      exact ⟨by omega, .of_sameTotals (.refl _ _) fun _ => ⟨rfl, rfl⟩⟩

/-- The referrer's share counts as a fee that does not accrue. -/
theorem fundCAddressWithReferral_told {env : Env} {source target asset : Address} {amount : I128}
    {referrer : Option Address} {nonce deadline : Option UInt64} {w w' : World} {u : Unit}
    (bounded : w.FeesBounded) (rate : w.ReferralBounded) (fresh : w.invocations = [])
    (quiet : w.loyaltySkips = [])
    (ran : (fundCAddressWithReferral env source target asset amount referrer nonce deadline).run w
      = .ok (u, w')) :
    Told env (.fundCAddressWithReferral source target asset amount referrer nonce deadline) w w' := by
  obtain ⟨mid, ran, left⟩ := nonReentrant_ok ran
  have sofar := Posted.enter env.self w
  iterate 9 (refine sofar.skip ran ?_ fun _ _ sofar ran => ?_; focus simp)
  refine sofar.skip ran (checkDailyLimit_touches _ _ _ _ (by simp)) fun _ _ sofar ran => ?_
  obtain ⟨strangers, ran⟩ := run_rejectIf_bind_ok.mp ran
  obtain ⟨notSource, notTarget⟩ := not_or.mp strangers
  obtain ⟨authorized, ran⟩ := requireAuth_bind_ok.mp ran
  have other := ne_self_of_authorizes authorized
  repeat (refine sofar.skip ran ?_ fun _ _ sofar ran => ?_; focus simp)
  obtain ⟨_, _, sofar, pulled, ran⟩ :=
    sofar.step (transfer_records ..) (transfer_sameTotals ..) ran
  obtain ⟨fee, netAmount, net, parts, ran⟩ := charged_ok (sofar.recorded.feesBounded bounded) ran
  obtain ⟨feeNonneg, netNonneg⟩ := parts (transfer_nonneg pulled)
  obtain ⟨_, paid, sofar, -, ran⟩ := sofar.step (payout_records ..) (payout_sameTotals ..) ran
  obtain ⟨protocolFee, _, split, ran⟩ := run_bind_ok.mp ran
  have rate : paid.ReferralBounded := by
    rwa [World.ReferralBounded, sofar.recorded.settings _ rfl rfl]
  obtain ⟨share, proportion, shareNonneg, shareLe, rest, shared⟩ :=
    payReferral_posted feeNonneg rate split
  have unshared (none : referrer = none) : share.val = 0 := by
    rw [proportion, none]
    rfl
  have sofar := sofar.trans shared
  repeat (refine sofar.skip ran ?_ fun _ _ sofar ran => ?_; focus simp)
  obtain ⟨_, _, counted, ran⟩ := run_bind_ok.mp ran
  have sofar := sofar.trans (updateAssetCountersSplit_posted env.self _ _ _ _ counted)
  repeat (refine sofar.skip ran ?_ fun _ _ sofar ran => ?_; focus simp)
  obtain ⟨_, _, minted, ran⟩ := run_bind_ok.mp ran
  have later : Posted env.self [] 0 0 _ w' := leave_posted left (publish_touches rfl) ran
  have rewards : Rewarded env (some source) _ _ := minted
  have calls := sofar.calls rewards later fresh quiet
  refine sofar.told (inAsset asset share.val) rewards later fresh quiet rfl (fun asset' => ?_)
    (fun asset' => ?_) (fun asset' => ?_) fun asset' => ?_
  · cases referrer with
    | none => simp [referralPaid, Request.referrer, inAsset, unshared rfl]
    | some referrer =>
      have notSource : source ≠ referrer := fun same => notSource (congrArg some same.symm)
      have notTarget : target ≠ referrer := fun same => notTarget (congrArg some same.symm)
      simp only [referralPaid, Request.referrer, calls, outflowTo_append,
        outflowTo_rewardCalls notSource]
      simp [List.filterMap_cons, Movement.call?, TokenCall.paidTo, other,
        outflowTo_payout netNonneg, outflowTo_payout shareNonneg, notTarget]
  · cases referrer with
    | none => simp [List.filterMap_cons, Movement.call?, TokenCall.paid, other,
        outflow_payout netNonneg, Request.aside, inAsset, unshared rfl]
    | some referrer => simp [List.filterMap_cons, Movement.call?, TokenCall.paid, other,
        outflow_payout netNonneg, outflow_payout shareNonneg, Request.aside]
  · cases referrer with
    | none => by_cases same : asset' = asset <;> simp [inAsset, same, rest]
    | some referrer => by_cases same : asset' = asset <;> simp [inAsset, same, rest]
  · have within : inAsset asset share.val asset' ≤ inAsset asset fee.val asset' := by
      unfold inAsset
      split
      · exact shareLe
      · exact le_rfl
    simp [inAsset_nonneg netNonneg, inAsset_nonneg shareNonneg, within]

/-! ## Batches -/

theorem Recorded.refused {bridge : Address} {journal : List Movement} {w w' : World}
    (recorded : Recorded bridge journal w w') (entries : List (Address × I128)) :
    w'.refused entries = w.refused entries := by
  simp only [World.refused, recorded.admits]

theorem World.refused_cons (w : World) (target : Address) (amount : I128)
    (rest : List (Address × I128)) : w.refused ((target, amount) :: rest) =
      (if w.admits target = true then 0 else amount.val) + w.refused rest := by
  by_cases admitted : w.admits target = true
  · simp [World.refused, admitted]
  · simp [World.refused, admitted]

/-- An entry that a batch delivers, and what it is split into. -/
structure Delivery where
  target : Address
  amount : I128
  fee : I128
  net : I128

/-- The deliveries of a list of entries: one for each entry whose target is admitted, charged at
the rate. -/
structure World.Delivers (w : World) (feeBps : UInt32) (entries : List (Address × I128))
    (deliveries : List Delivery) : Prop where
  entries : deliveries.map (fun delivery => (delivery.target, delivery.amount)) =
    entries.filter fun entry => w.admits entry.1
  charged : ∀ delivery ∈ deliveries, calculateFee delivery.amount feeBps = .ok delivery.fee ∧
    delivery.net.val = delivery.amount.val - delivery.fee.val

/-- A delivery pays its net amount, and its fee accrues. -/
def Delivery.journal (bridge asset : Address) (delivery : Delivery) : List Movement :=
  payout bridge asset delivery.target delivery.net ++ [.earmark .accruedFees asset delivery.fee.val]

/-- The sum of the fees of some deliveries. -/
def feeTotal (deliveries : List Delivery) : Int :=
  (deliveries.map fun delivery => delivery.fee.val).sum

/-- The sum of their net amounts. -/
def netTotal (deliveries : List Delivery) : Int :=
  (deliveries.map fun delivery => delivery.net.val).sum

@[simp] theorem feeTotal_nil : feeTotal [] = 0 := rfl

@[simp] theorem feeTotal_cons (delivery : Delivery) (rest : List Delivery) :
    feeTotal (delivery :: rest) = delivery.fee.val + feeTotal rest := List.sum_cons

@[simp] theorem netTotal_nil : netTotal [] = 0 := rfl

@[simp] theorem netTotal_cons (delivery : Delivery) (rest : List Delivery) :
    netTotal (delivery :: rest) = delivery.net.val + netTotal rest := List.sum_cons

@[simp] theorem inAsset_zero (asset : Address) : inAsset asset 0 = 0 := by
  funext asset'
  simp [inAsset]

theorem inAsset_add (asset : Address) (first second : Int) :
    inAsset asset (first + second) = inAsset asset first + inAsset asset second := by
  funext asset'
  unfold inAsset
  simp only [Pi.add_apply]
  split <;> simp

/-- The bridge pays out the net amounts of its deliveries. -/
theorem outflow_deliveries {bridge asset : Address} {deliveries : List Delivery}
    (nonneg : ∀ delivery ∈ deliveries, 0 ≤ delivery.net.val) (asset' : Address) :
    outflow bridge asset'
        ((deliveries.flatMap (Delivery.journal bridge asset)).filterMap Movement.call?) =
      inAsset asset (netTotal deliveries) asset' := by
  induction deliveries with
  | nil => simp
  | cons delivery rest ih =>
      obtain ⟨here, later⟩ := List.forall_mem_cons.mp nonneg
      rw [List.flatMap_cons, List.filterMap_append, outflow_append, ih later, netTotal_cons,
        inAsset_add]
      simp [Delivery.journal, List.filterMap_cons, Movement.call?, outflow_payout here]

/-- The fees of its deliveries accrue. -/
theorem earmarks_deliveries (bridge asset : Address) (deliveries : List Delivery)
    (asset' : Address) : ((deliveries.flatMap (Delivery.journal bridge asset)).map
      (Movement.earmarks .accruedFees asset')).sum = inAsset asset (feeTotal deliveries) asset' := by
  induction deliveries with
  | nil => simp
  | cons delivery rest ih =>
      rw [List.flatMap_cons, List.map_append, List.sum_append, ih, feeTotal_cons, inAsset_add]
      simp [Delivery.journal, inAsset]

/-- What the delivery loop posts: each admitted entry is split into a fee that accrues and a
net amount that is paid, and the others are counted for the refund. -/
theorem deliverBatch_posted {env : Env} {source asset : Address} {feeBps : UInt32}
    (rate : feeBps ≤ maxFeeBps) {progress result : BatchProgress}
    {entries : List (Address × I128)} (nonneg : ∀ entry ∈ entries, 0 ≤ entry.2.val)
    {w w' : World}
    (ran : (deliverBatch env source asset feeBps progress entries).run w = .ok (result, w')) :
    ∃ deliveries, w.Delivers feeBps entries deliveries ∧
      (∀ delivery ∈ deliveries, 0 ≤ delivery.fee.val ∧ 0 ≤ delivery.net.val) ∧
      Posted env.self (deliveries.flatMap (Delivery.journal env.self asset))
        (inAsset asset (feeTotal deliveries)) (inAsset asset (netTotal deliveries)) w w' ∧
      result.refundTotal.val = progress.refundTotal.val + w.refused entries := by
  induction entries generalizing progress w with
  | nil =>
      obtain ⟨rfl, rfl⟩ := run_pure_ok.mp ran
      refine ⟨[], ⟨rfl, by simp⟩, by simp, ?_, by simp [World.refused]⟩
      rw [feeTotal_nil, netTotal_nil, inAsset_zero]
      exact .of_sameTotals (.refl _ _) fun _ => ⟨rfl, rfl⟩
  | cons entry rest ih =>
      obtain ⟨target, amount⟩ := entry
      obtain ⟨here, later⟩ := List.forall_mem_cons.mp nonneg
      simp only at here
      rw [deliverBatch] at ran
      have sofar := Posted.of_sameTotals (Recorded.refl env.self w) fun _ => ⟨rfl, rfl⟩
      obtain ⟨error, _, sofar, checked, ran⟩ := sofar.keep (accessError_touches _) ran
      obtain ⟨admitted, -⟩ := accessError_ok checked
      split at ran
      · next refused =>
        refine sofar.skip ran (incrementU32_touches _) fun _ _ sofar ran => ?_
        obtain ⟨refundTotal, sum, ran⟩ := run_ofExcept_bind_ok.mp ran
        have refunded := safeAdd_ok.mp sum
        refine sofar.skip ran (publish_touches rfl) fun _ _ sofar ran => ?_
        obtain ⟨deliveries, delivers, parts, posted, refund⟩ := ih later ran
        have out : ¬ w.admits target = true := by
          rw [← admitted]
          rintro rfl
          simp at refused
        have delivered := delivers.entries
        simp only [sofar.recorded.admits] at delivered
        refine ⟨deliveries, ⟨?_, delivers.charged⟩, parts, ?_, ?_⟩
        · simpa [List.filter_cons, out] using delivered
        · simpa using sofar.trans posted
        · rw [refund, sofar.recorded.refused, World.refused_cons, if_neg out]
          simp only [refunded]
          omega
      · next passes =>
        obtain ⟨fee, charged, ran⟩ := run_ofExcept_bind_ok.mp ran
        obtain ⟨netAmount, difference, ran⟩ := run_ofExcept_bind_ok.mp ran
        have net := safeSub_ok.mp difference
        obtain ⟨feeNonneg, feeLe⟩ := calculateFee_bounds here rate charged
        have netNonneg : 0 ≤ netAmount.val := by omega
        obtain ⟨_, _, sofar, -, ran⟩ := sofar.step (payout_records ..) (payout_sameTotals ..) ran
        obtain ⟨_, _, counted, ran⟩ := run_bind_ok.mp ran
        have sofar := sofar.trans (updateAssetCountersSplit_posted env.self _ _ _ _ counted)
        refine sofar.skip ran (incrementU32_touches _) fun _ _ sofar ran => ?_
        refine sofar.skip ran (publish_touches rfl) fun _ _ sofar ran => ?_
        obtain ⟨deliveries, delivers, parts, posted, refund⟩ := ih later ran
        have within : w.admits target = true := by
          rw [← admitted]
          simpa using passes
        have delivered := delivers.entries
        simp only [sofar.recorded.admits] at delivered
        refine ⟨⟨target, amount, fee, netAmount⟩ :: deliveries, ⟨?_, ?_⟩, ?_, ?_, ?_⟩
        · simpa [List.filter_cons, within] using delivered
        · exact List.forall_mem_cons.mpr ⟨⟨charged, net⟩, delivers.charged⟩
        · exact List.forall_mem_cons.mpr ⟨⟨feeNonneg, netNonneg⟩, parts⟩
        · have total := sofar.trans posted
          rw [zero_add, zero_add, ← inAsset_add, ← inAsset_add] at total
          exact total
        · rw [refund, sofar.recorded.refused, World.refused_cons, if_pos within, zero_add]

theorem World.refused_nonneg {w : World} {entries : List (Address × I128)}
    (nonneg : ∀ entry ∈ entries, 0 ≤ entry.2.val) : 0 ≤ w.refused entries := by
  refine List.sum_nonneg fun amount member => ?_
  obtain ⟨entry, refused, rfl⟩ := List.mem_map.mp member
  exact nonneg entry (List.mem_filter.mp refused).1

theorem batchFundCAddress_told {env : Env} {source asset : Address} {targets : List Address}
    {amounts : List I128} {nonce deadline : Option UInt64} {w w' : World} {u : Unit}
    (bounded : w.FeesBounded) (fresh : w.invocations = []) (quiet : w.loyaltySkips = [])
    (ran : (batchFundCAddress env source targets amounts asset nonce deadline).run w
      = .ok (u, w')) :
    Told env (.batchFundCAddress source targets amounts asset nonce deadline) w w' := by
  obtain ⟨mid, ran, left⟩ := nonReentrant_ok ran
  have sofar := Posted.enter env.self w
  iterate 5 (refine sofar.skip ran ?_ fun _ _ sofar ran => ?_; focus simp)
  obtain ⟨sameLength, ran⟩ := run_rejectIf_bind_ok.mp ran
  iterate 2 (refine sofar.skip ran ?_ fun _ _ sofar ran => ?_; focus simp)
  obtain ⟨total, _, sofar, validated, ran⟩ := sofar.keep (validateAmounts_touches ..) ran
  obtain ⟨enough, -, -⟩ := validateAmounts_ok validated
  repeat (refine sofar.skip ran ?_ fun _ _ sofar ran => ?_; focus simp)
  obtain ⟨authorized, ran⟩ := requireAuth_bind_ok.mp ran
  have other := ne_self_of_authorizes authorized
  repeat (refine sofar.skip ran ?_ fun _ _ sofar ran => ?_; focus simp)
  obtain ⟨_, _, sofar, -, ran⟩ := sofar.step (transfer_records ..) (transfer_sameTotals ..) ran
  have stillBounded := sofar.recorded.feesBounded bounded
  obtain ⟨globalFeeBps, _, sofar, globalRate, ran⟩ := sofar.keep readFeeBps_touches ran
  obtain ⟨config, found, global, -⟩ := readFeeBps_ok.mp globalRate
  obtain ⟨tieredFeeBps, _, sofar, tieredRate, ran⟩ := sofar.keep (getTieredFeeBps_touches ..) ran
  obtain ⟨effectiveFeeBps, _, sofar, rate, ran⟩ := sofar.keep (getEffectiveFeeBps_touches ..) ran
  obtain ⟨effective, -⟩ := getEffectiveFeeBps_ok.mp rate
  have rateBounded : effectiveFeeBps ≤ maxFeeBps := by
    rw [effective]
    refine UInt32.le_trans (World.effectiveFeeBps_le ..) ?_
    refine UInt32.le_trans (getTieredFeeBps_ok tieredRate).1 ?_
    exact global ▸ stillBounded.bridgeConfig found
  have entriesNonneg : ∀ entry ∈ targets.zip amounts, 0 ≤ entry.2.val := fun entry member =>
    (not_le.mp (not_or.mp (enough _ (List.of_mem_zip member).2)).1).le
  obtain ⟨progress, _, delivered, ran⟩ := run_bind_ok.mp ran
  obtain ⟨deliveries, -, parts, posted, refund⟩ :=
    deliverBatch_posted rateBounded entriesNonneg delivered
  have feesNonneg : 0 ≤ feeTotal deliveries := List.sum_nonneg <| by
    simpa using fun delivery member => (parts delivery member).1
  have netsNonneg : 0 ≤ netTotal deliveries := List.sum_nonneg <| by
    simpa using fun delivery member => (parts delivery member).2
  have paid (asset' : Address) : outflow env.self asset' ((deliveries.flatMap
      (Delivery.journal env.self asset)).filterMap Movement.call?) =
        inAsset asset (netTotal deliveries) asset' :=
    outflow_deliveries (fun delivery member => (parts delivery member).2) asset'
  obtain ⟨_, -, -, successes, -⟩ := deliverBatch_ok rateBounded entriesNonneg delivered
  simp only [sofar.recorded.refused, sofar.recorded.admits] at refund successes
  have refund : progress.refundTotal.val = w.refused (targets.zip amounts) := by simpa using refund
  have refundNonneg : 0 ≤ progress.refundTotal.val := refund ▸ World.refused_nonneg entriesNonneg
  have sofar := sofar.trans posted
  obtain ⟨_, _, sofar, -, ran⟩ := sofar.step (payout_records ..) (payout_sameTotals ..) ran
  repeat (refine sofar.skip ran ?_ fun _ _ sofar ran => ?_; focus simp)
  obtain ⟨_, _, minted, ran⟩ := run_bind_ok.mp ran
  have rewards : Rewarded env (if targets.any w.admits then some source else none) _ _ :=
    batch_rewarded (not_not.mp sameLength) (by simpa using successes) minted
  refine sofar.told 0 rewards (leave_posted left (publish_touches rfl) ran) fresh quiet rfl
    (fun _ => rfl) (fun asset' => ?_) (fun asset' => ?_) fun asset' => ?_
  · simp [Movement.call?, TokenCall.paid, other, paid, outflow_payout refundNonneg, Request.aside,
      refund]
  · simp [earmarks_deliveries]
  · simp [inAsset_nonneg feesNonneg, inAsset_nonneg netsNonneg]

/-! ## All calls -/

/-- A withdrawal takes accrued fees out and leaves the totals alone. -/
theorem withdrawFees_told {env : Env} {asset : Address} {amount : I128} {nonce : Option UInt64}
    {w w' : World} {u : Unit} (ran : (withdrawFees env asset amount nonce).run w = .ok (u, w')) :
    Told env (.withdrawFees asset amount nonce) w w' := by
  rw [withdrawFees] at ran
  have sofar := Posted.of_sameTotals (Recorded.refl env.self w) fun _ => ⟨rfl, rfl⟩
  iterate 3 (refine sofar.skip ran ?_ fun _ _ sofar ran => ?_; focus simp)
  obtain ⟨-, ran⟩ := requireAuth_bind_ok.mp ran
  iterate 4 (refine sofar.skip ran ?_ fun _ _ sofar ran => ?_; focus simp)
  have before := sofar.recorded.earmarked .accruedFees asset
  obtain ⟨unspent, _, read, ran⟩ := run_bind_ok.mp ran
  simp only [readAccruedFees, run_bind_ok, run_read_ok, run_pure_ok] at read
  obtain ⟨_, _, ⟨rfl, rfl⟩, rfl, rfl⟩ := read
  obtain ⟨covered, ran⟩ := run_rejectIf_bind_ok.mp ran
  obtain ⟨_, _, sofar, -, ran⟩ := sofar.step (transfer_records ..) (transfer_sameTotals ..) ran
  obtain ⟨_, _, sofar, -, ran⟩ :=
    sofar.step (decrementAccruedFees_records ..) (decrementAccruedFees_sameTotals ..) ran
  have later : Posted env.self [] 0 0 _ w' := .of_frame (publish_touches rfl ran)
  have whole := sofar.trans later
  have accrued (asset' : Address) : (w'.counters asset').accruedFees.val =
      (w.counters asset').accruedFees.val - inAsset asset amount.val asset' := by
    refine (whole.recorded.earmarked .accruedFees asset').trans ?_
    by_cases same : asset' = asset
    · simp [World.books, inAsset, same, sub_eq_add_neg]
    · simp [World.books, inAsset, same]
  refine ⟨fun asset' => ?_, fun asset' => ?_, fun asset' => ?_, fun asset' nonneg => ?_⟩
  · rw [whole.bridged, netPaid, if_neg (by simp [Request.delivers, Request.funds])]
    simp
  · have unshared : referralPaid env (.withdrawFees asset amount nonce) w' asset' = 0 := rfl
    have withdrawn : (Request.withdrawFees asset amount nonce).withdrawn asset' =
      inAsset asset amount.val asset' := rfl
    rw [whole.fees, accrued, withdrawn, unshared]
    simp
    omega
  · rw [whole.fees, whole.bridged]
    simp
  · rw [accrued, inAsset]
    split
    · next same =>
      subst same
      have before : (World.counters _ asset').accruedFees.val = (w.counters asset').accruedFees.val :=
        before.trans (add_zero _)
      omega
    · omega

/-- A call that neither delivers nor withdraws leaves the counters alone, but for the locked
one. -/
theorem execute_quietly {env : Env} {request : Request} {reply : Reply} {w w' : World}
    (writes : ∀ asset, .assetStats asset ∉ request.writes) (unshared : request.referrer = none)
    (withdrawn : request.withdrawn = 0) (delivers : request.delivers = false)
    (ran : (execute env request).run w = .ok (reply, w')) : Told env request w w' := by
  have same (asset : Address) : w'.counters asset = w.counters asset := by
    rw [World.counters, World.counters, (execute_frame env request ran).store _ (writes asset)]
  refine ⟨fun asset => ?_, fun asset => ?_, fun asset => ?_, fun asset nonneg => ?_⟩
  · rw [same, netPaid, if_neg (by simp [delivers]), add_zero]
  · rw [same, withdrawn, referralPaid, unshared, Pi.zero_apply, add_zero, add_zero]
  · rw [same]
    exact ⟨le_rfl, le_rfl⟩
  · rwa [same]

theorem execute_told {env : Env} {request : Request} {reply : Reply} {w w' : World}
    (sound : w.Sound env.self) (rate : w.ReferralBounded) (fresh : w.invocations = [])
    (quiet : w.loyaltySkips = []) (ran : (execute env request).run w = .ok (reply, w')) :
    Told env request w w' := by
  cases request
  case fundCAddress =>
    obtain ⟨_, ran, -⟩ := replying_ok.mp ran
    exact fundCAddress_told sound.fees fresh quiet ran
  case batchFundCAddress =>
    obtain ⟨_, ran, -⟩ := replying_ok.mp ran
    exact batchFundCAddress_told sound.fees fresh quiet ran
  case fundCAddressWithReferral =>
    obtain ⟨_, ran, -⟩ := replying_ok.mp ran
    exact fundCAddressWithReferral_told sound.fees rate fresh quiet ran
  case fundCAddressWithSwap =>
    obtain ⟨_, ran, -⟩ := replying_ok.mp ran
    exact fundCAddressWithSwap_told sound.fees fresh quiet ran
  case fundCAddressTimelocked =>
    obtain ⟨_, ran, -⟩ := replying_ok.mp ran
    exact fundCAddressTimelocked_told fresh quiet ran
  case fundCAddressCrosschain =>
    obtain ⟨_, ran, -⟩ := replying_ok.mp ran
    exact fundCAddressCrosschain_told sound.fees fresh quiet ran
  case revealFund =>
    obtain ⟨_, ran, -⟩ := replying_ok.mp ran
    exact revealFund_told sound.fees fresh quiet ran
  case executeMetaFund =>
    obtain ⟨_, ran, -⟩ := replying_ok.mp ran
    exact executeMetaFund_told sound.fees fresh quiet ran
  case claimTimelocked =>
    obtain ⟨_, ran, -⟩ := replying_ok.mp ran
    exact claimTimelocked_told sound.fees sound.deposits fresh quiet ran
  case withdrawFees =>
    obtain ⟨_, ran, -⟩ := replying_ok.mp ran
    exact withdrawFees_told ran
  all_goals
    exact execute_quietly (by simp [Request.writes]) rfl rfl rfl ran

/-! ## Runs -/

namespace Label

/-- What a step withdraws of the accrued fees. -/
def withdrawn (asset : Address) : Label → Int
  | .success call => call.request.withdrawn asset
  | _ => 0

/-- What it pays to referrers. -/
def referralPaid (asset : Address) : Label → Int
  | .success call => Contract.referralPaid call.env call.request call.after asset
  | _ => 0

/-- The net amounts it pays to recipients. -/
def netPaid (asset : Address) : Label → Int
  | .success call => Contract.netPaid call.env call.request call.before call.after asset
  | _ => 0

end Label

theorem Reachable.referralBounded {host : Host} {w : World} (reachable : Reachable host w) :
    w.ReferralBounded := by
  obtain ⟨start, labels, fresh, run⟩ := reachable
  refine run_world_invariant World.ReferralBounded (fun _ => True) ?_ ?_ run (fun _ _ => trivial) ?_
  · intro call _ _ bounded ran
    have bounded : call.before.begin.ReferralBounded := bounded
    exact execute_referralBounded bounded ran
  · exact fun _ _ _ bounded => bounded
  · simp [World.ReferralBounded, fresh.store]

theorem success_told {host : Host} {call : Success} (reachable : Reachable host call.before)
    (deployed : call.env.host = host)
    (ran : (execute call.env call.request).run call.before.begin = .ok (call.reply, call.after)) :
    Told call.env call.request call.before call.after := by
  subst deployed
  have sound : call.before.begin.Sound call.env.self := reachable.sound.of_store rfl
  have rate : call.before.begin.ReferralBounded := reachable.referralBounded
  have told := execute_told sound rate rfl rfl ran
  exact ⟨told.bridged, told.spread, told.grows, told.accrued⟩

/-- What every step of a run does to the counters of an asset. -/
theorem Step.counters {host : Host} {w w' : World} {label : Label} (reachable : Reachable host w)
    (taken : Step host w label w') (asset : Address) :
    (w'.counters asset).totalBridged.val =
        (w.counters asset).totalBridged.val + label.netPaid asset ∧
      (w'.counters asset).totalFeesCollected.val - (w'.counters asset).accruedFees.val =
        (w.counters asset).totalFeesCollected.val - (w.counters asset).accruedFees.val
          + (label.withdrawn asset + label.referralPaid asset) ∧
      ((w.counters asset).totalFeesCollected.val ≤ (w'.counters asset).totalFeesCollected.val ∧
        (w.counters asset).totalBridged.val ≤ (w'.counters asset).totalBridged.val) ∧
      (0 ≤ (w.counters asset).accruedFees.val → 0 ≤ (w'.counters asset).accruedFees.val) := by
  cases taken with
  | success deployed ran =>
    have told := success_told reachable deployed ran
    exact ⟨told.bridged asset, told.spread asset, told.grows asset, told.accrued asset⟩
  | failure =>
    simp only [Label.netPaid, Label.withdrawn, Label.referralPaid, add_zero, le_refl, and_self,
      imp_self]
  | external =>
    refine ⟨(add_zero _).symm, (add_zero _).symm, ⟨le_rfl, le_rfl⟩, id⟩

/-- The sum of the unclaimed entries is never negative. -/
theorem World.DepositsKept.unclaimedTotal_nonneg {w : World} (kept : w.DepositsKept)
    (asset : Address) : 0 ≤ w.unclaimedTotal asset := by
  refine Finset.sum_nonneg fun id _ => ?_
  unfold lockedBy
  split
  · next entry stored =>
    split
    · exact inAsset_nonneg (kept id entry stored).2.le asset
    · exact le_rfl
  · exact le_rfl

/-- The fees held back are never negative. -/
theorem Reachable.accrued_nonneg {host : Host} {w : World} (reachable : Reachable host w)
    (asset : Address) : 0 ≤ (w.counters asset).accruedFees.val := by
  obtain ⟨start, labels, fresh, run⟩ := reachable
  have begins : Reachable host start := ⟨start, [], fresh, .nil _⟩
  refine (begins.within run).stays (fun v => 0 ≤ (v.counters asset).accruedFees.val) ?_ ?_
  · rintro v label v' ⟨reached, taken⟩
    exact (taken.counters reached asset).2.2.2
  · simp [World.counters, fresh.store]

theorem Reachable.locked_nonneg {host : Host} {w : World} (reachable : Reachable host w)
    (asset : Address) : 0 ≤ (w.counters asset).lockedTimelock.val := by
  rw [reachable.lockedAgrees asset]
  exact reachable.sound.deposits.unclaimedTotal_nonneg asset

/-- Over a whole run the fees ever collected in an asset are those accrued, those withdrawn
and those shared with referrers, and what was ever bridged is what recipients were paid.
Both totals only grow, and no counter is negative. -/
theorem counter_history {host : Host} {start w w' : World} {labels later : List Label}
    (fresh : Genesis host start) (run : Run (Step host) start labels w)
    (goesOn : Run (Step host) w later w') (asset : Address) :
    (w.counters asset).totalFeesCollected.val = (w.counters asset).accruedFees.val
        + (labels.map (Label.withdrawn asset)).sum + (labels.map (Label.referralPaid asset)).sum ∧
      (w.counters asset).totalBridged.val = (labels.map (Label.netPaid asset)).sum ∧
      ((w.counters asset).totalFeesCollected.val ≤ (w'.counters asset).totalFeesCollected.val ∧
        (w.counters asset).totalBridged.val ≤ (w'.counters asset).totalBridged.val) ∧
      0 ≤ (w.counters asset).accruedFees.val ∧ 0 ≤ (w.counters asset).lockedTimelock.val ∧
      0 ≤ (w.counters asset).totalFeesCollected.val ∧ 0 ≤ (w.counters asset).totalBridged.val := by
  have begins : Reachable host start := ⟨start, [], fresh, .nil _⟩
  have reachable : Reachable host w := begins.run run
  have empty : start.counters asset = ⟨0, 0, 0, 0⟩ := by
    simp [World.counters, fresh.store]
  have grows {v v' : World} {labels : List Label} (reached : Reachable host v)
      (run : Run (Step host) v labels v') :
      (v.counters asset).totalFeesCollected.val ≤ (v'.counters asset).totalFeesCollected.val ∧
        (v.counters asset).totalBridged.val ≤ (v'.counters asset).totalBridged.val := by
    refine (reached.within run).stays (fun v' =>
      (v.counters asset).totalFeesCollected.val ≤ (v'.counters asset).totalFeesCollected.val ∧
        (v.counters asset).totalBridged.val ≤ (v'.counters asset).totalBridged.val)
      ?_ ⟨le_rfl, le_rfl⟩
    rintro s label t ⟨reached, taken⟩ ⟨fees, bridged⟩
    obtain ⟨-, -, ⟨more, further⟩, -⟩ := taken.counters reached asset
    exact ⟨fees.trans more, bridged.trans further⟩
  have collected := (begins.within run).tallied
    (fun v => (v.counters asset).totalFeesCollected.val - (v.counters asset).accruedFees.val)
    (fun label => label.withdrawn asset + label.referralPaid asset) (by
      rintro _ _ _ ⟨reached, taken⟩
      exact (taken.counters reached asset).2.1)
  have bridged := (begins.within run).tallied (fun v => (v.counters asset).totalBridged.val)
    (Label.netPaid asset) (by
      rintro _ _ _ ⟨reached, taken⟩
      exact (taken.counters reached asset).1)
  obtain ⟨fees, total⟩ := grows begins run
  have zero : (0 : I128).val = 0 := rfl
  simp only [empty, zero, List.sum_map_add] at collected bridged fees total
  exact ⟨by omega, by omega, grows reachable goesOn, reachable.accrued_nonneg asset,
    reachable.locked_nonneg asset, fees, total⟩

/-- A claim, a referral and a withdrawal, in an asset with fees. -/
theorem counter_history_rehearsed :
    let script := Rehearsal.opening ++ [(0, .setReferralRate 5000 none),
      (0, .fundCAddressWithReferral (Rehearsal.address 4) (Rehearsal.address 5)
        (Rehearsal.address 3) (Rehearsal.amount 1000) (some (Rehearsal.address 6)) none none),
      (0, .fundCAddressTimelocked (Rehearsal.address 4) (Rehearsal.address 5)
        (Rehearsal.address 3) (Rehearsal.amount 500) 5 0 none none),
      (9, .claimTimelocked 0),
      (9, .withdrawFees (Rehearsal.address 3) (Rehearsal.amount 4) none)]
    let counters := (Rehearsal.outcome script).counters (Rehearsal.address 3)
    (counters.totalFeesCollected.val = counters.accruedFees.val + 4 + 5 ∧
      counters.totalBridged.val = 990 + 495) ∧
    counters.totalFeesCollected.val = counters.accruedFees.val
        + (((Rehearsal.calls script).map .success).map
          (Label.withdrawn (Rehearsal.address 3))).sum
        + (((Rehearsal.calls script).map .success).map
          (Label.referralPaid (Rehearsal.address 3))).sum ∧
      counters.totalBridged.val = (((Rehearsal.calls script).map .success).map
        (Label.netPaid (Rehearsal.address 3))).sum := by
  intro script counters
  have run := Rehearsal.run script (by decide +kernel)
  have told := counter_history Rehearsal.fresh_genesis run (.nil _) (Rehearsal.address 3)
  refine ⟨?_, told.1, told.2.1⟩
  decide +kernel

end OnboardingBridge.Contract
