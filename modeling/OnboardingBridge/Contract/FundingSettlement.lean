import OnboardingBridge.Contract.Attestation

/-!
# What every call that moves tokens settles

One theorem for each entry point gives the recipient of its reward and its
tally. A funding call moves the surplus only by what it pays the bridge itself:
its margin is zero, whatever the rate of the fee and however it rounds. The
margin of a swap is what the pool adds in assets that are not the target.
-/

set_option autoImplicit false

namespace OnboardingBridge.Contract

open Foundations Foundations.Tx

/-! ## Single funding -/

theorem fundCAddress_settled {env : Env} {source target asset : Address} {amount : I128}
    {nonce deadline : Option UInt64} {w w' : World} {u : Unit} (bounded : w.FeesBounded)
    (ran : (fundCAddress env source target asset amount nonce deadline).run w = .ok (u, w')) :
    Settled env (some source) [(asset, target)] 0 0 0 w w' := by
  obtain ⟨mid, ran, left⟩ := nonReentrant_ok ran
  have sofar := enter_recorded env.self w
  repeat (refine sofar.skip ran ?_ fun _ _ sofar ran => ?_; focus simp)
  obtain ⟨authorized, ran⟩ := requireAuth_bind_ok.mp ran
  repeat (refine sofar.skip ran ?_ fun _ _ sofar ran => ?_; focus simp)
  obtain ⟨fee, netAmount, net, parts, ran⟩ := charged_ok (sofar.feesBounded bounded) ran
  obtain ⟨_, _, sofar, pulled, ran⟩ := sofar.step (transfer_records ..) ran
  obtain ⟨_, _, sofar, -, ran⟩ := sofar.step (payout_records ..) ran
  obtain ⟨_, _, sofar, -, ran⟩ := sofar.step (updateAssetCounters_records ..) ran
  repeat (refine sofar.skip ran ?_ fun _ _ sofar ran => ?_; focus simp)
  obtain ⟨_, _, minted, ran⟩ := run_bind_ok.mp ran
  obtain ⟨-, netNonneg⟩ := parts (transfer_nonneg pulled)
  refine ⟨_, _, _, sofar, ⟨?_, fun asset' => ?_, fun asset' => ?_, fun asset' => ?_⟩, minted,
    leave_silently left (by simp) ran⟩
  · simp [ne_self_of_authorizes authorized]
  · by_cases same : asset' = asset
    · simp [payout_margin netNonneg, ne_self_of_authorizes authorized, same]
      omega
    · simp [payout_margin netNonneg, ne_self_of_authorizes authorized, same]
  · simp
  · simp

/-! ## Batch funding -/

/-- The validated amounts reach the minimum, and their sum is the total. -/
theorem validateAmounts_ok {minimum total result : I128} {amounts : List I128} {w w' : World}
    (ran : (validateAmounts minimum total amounts).run w = .ok (result, w')) :
    (∀ amount ∈ amounts, ¬ belowMinimum amount minimum) ∧
      result.val = total.val + (amounts.map BoundedInt.val).sum ∧ w' = w := by
  induction amounts generalizing total with
  | nil =>
      obtain ⟨rfl, rfl⟩ := run_pure_ok.mp ran
      simp
  | cons amount rest ih =>
      rw [validateAmounts] at ran
      obtain ⟨enough, ran⟩ := run_rejectIf_bind_ok.mp ran
      obtain ⟨next, sum, ran⟩ := run_ofExcept_bind_ok.mp ran
      obtain ⟨others, value, rfl⟩ := ih ran
      have added := safeAdd_ok.mp sum
      refine ⟨List.forall_mem_cons.mpr ⟨enough, others⟩, ?_, rfl⟩
      rw [value, added, List.map_cons, List.sum_cons, add_assoc]

theorem incrementU32_ok {n next : UInt32} {w w' : World}
    (ran : (incrementU32 n).run w = .ok (next, w')) : next.toNat = n.toNat + 1 ∧ w' = w := by
  obtain ⟨value, same⟩ := run_ofOption_ok.mp ran
  refine ⟨?_, same⟩
  split at value
  · next fits =>
    obtain rfl := Option.some.inj value
    simpa using Nat.mod_eq_of_lt fits
  · simp at value

/-- The delivery loop takes from the surplus all it was given but the refund,
and counts the entries whose target is admitted. -/
theorem deliverBatch_ok {env : Env} {source asset : Address} {feeBps : UInt32}
    (rate : feeBps ≤ maxFeeBps) {progress result : BatchProgress}
    {entries : List (Address × I128)} (nonneg : ∀ entry ∈ entries, 0 ≤ entry.2.val)
    {w w' : World}
    (ran : (deliverBatch env source asset feeBps progress entries).run w = .ok (result, w')) :
    ∃ journal, Recorded env.self journal w w' ∧
      Tally env.self journal (entries.map fun entry => (asset, entry.1))
        (inAsset asset (result.refundTotal.val - progress.refundTotal.val
          - (entries.map fun entry => entry.2.val).sum)) 0 0 ∧
      result.successes.toNat =
        progress.successes.toNat + entries.countP (fun entry => w.admits entry.1) ∧
      progress.refundTotal.val ≤ result.refundTotal.val := by
  induction entries generalizing progress w with
  | nil =>
      obtain ⟨rfl, rfl⟩ := run_pure_ok.mp ran
      exact ⟨[], .refl .., ⟨by simp, by simp [inAsset], by simp, by simp⟩, by simp, le_rfl⟩
  | cons entry rest ih =>
      obtain ⟨target, amount⟩ := entry
      obtain ⟨here, later⟩ := List.forall_mem_cons.mp nonneg
      simp only at here
      rw [deliverBatch] at ran
      have sofar := Recorded.refl env.self w
      obtain ⟨error, _, sofar, checked, ran⟩ := sofar.keep (accessError_touches _) ran
      obtain ⟨admitted, -⟩ := accessError_ok checked
      split at ran
      · next refused =>
        obtain ⟨failures, _, sofar, -, ran⟩ := sofar.keep (incrementU32_touches _) ran
        obtain ⟨refundTotal, sum, ran⟩ := run_ofExcept_bind_ok.mp ran
        have refunded := safeAdd_ok.mp sum
        obtain ⟨_, _, sofar, -, ran⟩ := sofar.keep (publish_touches rfl) ran
        obtain ⟨journal, recorded, tally, successes, grows⟩ := ih later ran
        have out : w.admits target = false := by
          rw [← Bool.not_eq_true, ← admitted]
          rintro rfl
          simp at refused
        refine ⟨_, sofar.trans recorded, ⟨?_, fun asset' => ?_, ?_, ?_⟩, ?_, ?_⟩
        · exact tally.payees.mono (List.subset_cons_self ..)
        · rw [List.nil_append, tally.margin]
          simp only [inAsset, List.map_cons, List.sum_cons]
          split <;> omega
        · exact tally.locked
        · exact tally.reserve
        · rw [successes]
          simp only [sofar.admits, List.countP_cons, out]
          simp
        · simp only at grows
          omega
      · next passes =>
        obtain ⟨fee, charged, ran⟩ := run_ofExcept_bind_ok.mp ran
        obtain ⟨netAmount, difference, ran⟩ := run_ofExcept_bind_ok.mp ran
        have net := safeSub_ok.mp difference
        obtain ⟨feeNonneg, feeLe⟩ := calculateFee_bounds here rate charged
        have netNonneg : 0 ≤ netAmount.val := by omega
        obtain ⟨_, _, sofar, -, ran⟩ := sofar.step (payout_records ..) ran
        obtain ⟨_, _, sofar, -, ran⟩ := sofar.step (updateAssetCounters_records ..) ran
        obtain ⟨successes, _, sofar, counted, ran⟩ := sofar.keep (incrementU32_touches _) ran
        obtain ⟨next, -⟩ := incrementU32_ok counted
        obtain ⟨_, _, sofar, -, ran⟩ := sofar.keep (publish_touches rfl) ran
        obtain ⟨journal, recorded, tally, total, grows⟩ := ih later ran
        have within : w.admits target = true := by
          rw [← admitted]
          simpa using passes
        refine ⟨_, sofar.trans recorded,
          ⟨?_, fun asset' => ?_, fun asset' => ?_, fun asset' => ?_⟩, ?_, grows⟩
        · exact paysOnly_append.mpr ⟨by simp, tally.payees.mono (List.subset_cons_self ..)⟩
        · rw [List.map_append, List.sum_append, tally.margin]
          by_cases same : asset' = asset
          · simp [payout_margin netNonneg, inAsset, same]
            omega
          · simp [payout_margin netNonneg, inAsset, same]
        · rw [List.map_append, List.sum_append, tally.locked]
          simp
        · rw [List.map_append, List.sum_append, tally.reserve]
          simp
        · rw [total, next]
          simp only [sofar.admits, List.countP_cons, within]
          simp
          omega

/-- A batch pays its reward when the target of some entry is admitted. -/
theorem batch_rewarded {env : Env} {source : Address} {targets : List Address}
    {amounts : List I128} (sameLength : targets.length = amounts.length) {w s r : World}
    {successes : UInt32} {u : Unit}
    (counted : successes.toNat = (targets.zip amounts).countP fun entry => w.admits entry.1)
    (minted : (onlyIf (0 < successes) (mintLoyaltyTokens env source)).run s = .ok (u, r)) :
    Rewarded env (if targets.any w.admits then some source else none) s r := by
  have somebody : 0 < successes ↔ targets.any w.admits = true := by
    have same : (targets.zip amounts).countP (fun entry => w.admits entry.1) =
        targets.countP w.admits := by
      have targetsOnly := List.map_fst_zip sameLength.le
      rw [← Function.comp_def w.admits Prod.fst, ← List.countP_map, targetsOnly]
    rw [UInt32.lt_iff_toNat_lt, counted, same, List.any_eq_true]
    simp
  rcases run_onlyIf_ok.mp minted with ⟨some, minted⟩ | ⟨none, same⟩
  · rw [if_pos (somebody.mp some)]
    exact minted
  · rw [if_neg fun any => none (somebody.mpr any)]
    exact same

theorem batchFundCAddress_settled {env : Env} {source asset : Address} {targets : List Address}
    {amounts : List I128} {nonce deadline : Option UInt64} {w w' : World} {u : Unit}
    (bounded : w.FeesBounded)
    (ran : (batchFundCAddress env source targets amounts asset nonce deadline).run w
      = .ok (u, w')) :
    Settled env (if targets.any w.admits then some source else none)
      (targets.map (asset, ·) ++ [(asset, source)]) 0 0 0 w w' := by
  obtain ⟨mid, ran, left⟩ := nonReentrant_ok ran
  have sofar := enter_recorded env.self w
  obtain ⟨_, _, sofar, -, ran⟩ := sofar.keep checkInitialized_touches ran
  obtain ⟨_, _, sofar, -, ran⟩ := sofar.keep checkNotPaused_touches ran
  obtain ⟨-, ran⟩ := run_rejectIf_bind_ok.mp ran
  obtain ⟨-, ran⟩ := run_rejectIf_bind_ok.mp ran
  obtain ⟨-, ran⟩ := run_rejectIf_bind_ok.mp ran
  obtain ⟨sameLength, ran⟩ := run_rejectIf_bind_ok.mp ran
  repeat (refine sofar.skip ran ?_ fun _ _ sofar ran => ?_; focus simp)
  obtain ⟨total, _, sofar, validated, ran⟩ := sofar.keep (validateAmounts_touches ..) ran
  obtain ⟨enough, totalSum, -⟩ := validateAmounts_ok validated
  repeat (refine sofar.skip ran ?_ fun _ _ sofar ran => ?_; focus simp)
  obtain ⟨authorized, ran⟩ := requireAuth_bind_ok.mp ran
  repeat (refine sofar.skip ran ?_ fun _ _ sofar ran => ?_; focus simp)
  obtain ⟨_, _, sofar, -, ran⟩ := sofar.step (transfer_records ..) ran
  have stillBounded := sofar.feesBounded bounded
  obtain ⟨globalFeeBps, _, sofar, globalRate, ran⟩ := sofar.keep readFeeBps_touches ran
  obtain ⟨config, found, global, -⟩ := readFeeBps_ok.mp globalRate
  obtain ⟨tieredFeeBps, _, sofar, tieredRate, ran⟩ := sofar.keep (getTieredFeeBps_touches ..) ran
  obtain ⟨effectiveFeeBps, _, sofar, rate, ran⟩ := sofar.keep (getEffectiveFeeBps_touches ..) ran
  obtain ⟨effective, -⟩ := getEffectiveFeeBps_ok.mp rate
  have rateBounded : effectiveFeeBps ≤ maxFeeBps := by
    rw [effective]
    refine UInt32.le_trans (World.effectiveFeeBps_le ..) ?_
    refine UInt32.le_trans (getTieredFeeBps_ok tieredRate).1 ?_
    exact global ▸ stillBounded.bridgeConfig found
  have entriesNonneg : ∀ entry ∈ targets.zip amounts, 0 ≤ entry.2.val := fun entry member =>
    (not_le.mp (not_or.mp (enough _ (List.of_mem_zip member).2)).1).le
  obtain ⟨progress, _, delivered, ran⟩ := run_bind_ok.mp ran
  obtain ⟨journal, recorded, tally, successes, refundGrows⟩ :=
    deliverBatch_ok rateBounded entriesNonneg delivered
  have admitted (target : Address) := sofar.admits target
  have sofar := sofar.trans recorded
  obtain ⟨_, _, sofar, -, ran⟩ := sofar.step (payout_records ..) ran
  repeat (refine sofar.skip ran ?_ fun _ _ sofar ran => ?_; focus simp)
  obtain ⟨_, _, minted, ran⟩ := run_bind_ok.mp ran
  refine ⟨_, _, _, sofar, ⟨?_, fun asset' => ?_, fun asset' => ?_, fun asset' => ?_⟩, ?_,
    leave_silently left (publish_touches rfl) ran⟩
  · have delivered :
        PaysOnly env.self (targets.map (asset, ·) ++ [(asset, source)]) journal := by
      refine tally.payees.mono fun payee member => List.mem_append_left _ ?_
      have targetsOnly := List.map_fst_zip (not_not.mp sameLength).le
      rw [← targetsOnly, List.map_map]
      exact member
    simp [ne_self_of_authorizes authorized, delivered]
  · have amountsOnly : ((targets.zip amounts).map fun entry => entry.2.val) =
        amounts.map BoundedInt.val := by
      have := List.map_snd_zip (not_not.mp sameLength).ge
      rw [← this, List.map_map, this]
      rfl
    have refundNonneg : 0 ≤ progress.refundTotal.val := by simpa using refundGrows
    rw [List.map_append, List.map_append, List.sum_append, List.sum_append, tally.margin,
      payout_margin refundNonneg, amountsOnly]
    by_cases same : asset' = asset
    · simp [ne_self_of_authorizes authorized, inAsset, same]
      simp at totalSum
      omega
    · simp [ne_self_of_authorizes authorized, inAsset, same]
  · rw [List.map_append, List.map_append, List.sum_append, List.sum_append, tally.locked]
    simp
  · rw [List.map_append, List.map_append, List.sum_append, List.sum_append, tally.reserve]
    simp
  · refine batch_rewarded (not_not.mp sameLength) ?_ minted
    simpa only [admitted, UInt32.toNat_zero, zero_add] using successes

/-! ## Referral funding -/

/-- The referrer's share leaves the bridge, and the rest of the fee stays. -/
theorem payReferral_ok {env : Env} {source asset : Address} {fee protocolFee : I128}
    {referrer : Option Address} {w w' : World}
    (ran : (payReferral env source asset fee referrer).run w = .ok (protocolFee, w')) :
    ∃ journal, Recorded env.self journal w w' ∧
      Tally env.self journal (referrer.toList.map (asset, ·))
        (inAsset asset (protocolFee.val - fee.val)) 0 0 := by
  have unshared : ∃ journal, Recorded env.self journal w w ∧
      Tally env.self journal (referrer.toList.map (asset, ·))
        (inAsset asset (fee.val - fee.val)) 0 0 :=
    ⟨[], .refl .., ⟨by simp, by simp [inAsset], by simp, by simp⟩⟩
  cases referrer with
  | none =>
    obtain ⟨rfl, rfl⟩ := run_pure_ok.mp ran
    exact unshared
  | some referrer =>
    simp only [payReferral] at ran
    rw [run_read_bind, run_ofExcept_bind_ok] at ran
    obtain ⟨referralFee, -, ran⟩ := ran
    split at ran
    · next positive =>
      have sofar := Recorded.refl env.self w
      obtain ⟨_, _, sofar, -, ran⟩ := sofar.step (transfer_records ..) ran
      obtain ⟨rest, difference, ran⟩ := run_ofExcept_bind_ok.mp ran
      have kept := safeSub_ok.mp difference
      obtain ⟨_, _, sofar, -, ran⟩ := sofar.keep (publish_touches rfl) ran
      obtain ⟨rfl, rfl⟩ := run_pure_ok.mp ran
      refine ⟨_, sofar, ⟨by simp, fun asset' => ?_, by simp, by simp⟩⟩
      by_cases same : asset' = asset
      · simp [inAsset, same]
        omega
      · simp [inAsset, same]
    · obtain ⟨rfl, rfl⟩ := run_pure_ok.mp ran
      exact unshared

theorem fundCAddressWithReferral_settled {env : Env} {source target asset : Address}
    {amount : I128} {referrer : Option Address} {nonce deadline : Option UInt64} {w w' : World}
    {u : Unit} (bounded : w.FeesBounded)
    (ran : (fundCAddressWithReferral env source target asset amount referrer nonce deadline).run w
      = .ok (u, w')) :
    Settled env (some source) ((asset, target) :: referrer.toList.map (asset, ·)) 0 0 0 w w' := by
  obtain ⟨mid, ran, left⟩ := nonReentrant_ok ran
  have sofar := enter_recorded env.self w
  repeat (refine sofar.skip ran ?_ fun _ _ sofar ran => ?_; focus simp)
  obtain ⟨authorized, ran⟩ := requireAuth_bind_ok.mp ran
  repeat (refine sofar.skip ran ?_ fun _ _ sofar ran => ?_; focus simp)
  obtain ⟨_, _, sofar, pulled, ran⟩ := sofar.step (transfer_records ..) ran
  obtain ⟨fee, netAmount, net, parts, ran⟩ := charged_ok (sofar.feesBounded bounded) ran
  obtain ⟨-, netNonneg⟩ := parts (transfer_nonneg pulled)
  obtain ⟨_, _, sofar, -, ran⟩ := sofar.step (payout_records ..) ran
  obtain ⟨protocolFee, _, shared, ran⟩ := run_bind_ok.mp ran
  obtain ⟨journal, recorded, tally⟩ := payReferral_ok shared
  have sofar := sofar.trans recorded
  repeat (refine sofar.skip ran ?_ fun _ _ sofar ran => ?_; focus simp)
  obtain ⟨_, _, sofar, -, ran⟩ := sofar.step (updateAssetCountersSplit_records ..) ran
  repeat (refine sofar.skip ran ?_ fun _ _ sofar ran => ?_; focus simp)
  obtain ⟨_, _, minted, ran⟩ := run_bind_ok.mp ran
  refine ⟨_, _, _, sofar, ⟨?_, fun asset' => ?_, fun asset' => ?_, fun asset' => ?_⟩, minted,
    leave_silently left (publish_touches rfl) ran⟩
  · have shared := tally.payees.mono (List.subset_cons_self (asset, target) _)
    simp [ne_self_of_authorizes authorized, shared]
  · rw [List.map_append, List.map_append, List.sum_append, List.sum_append, tally.margin]
    by_cases same : asset' = asset
    · simp [payout_margin netNonneg, ne_self_of_authorizes authorized, inAsset, same]
      omega
    · simp [payout_margin netNonneg, ne_self_of_authorizes authorized, inAsset, same]
  · rw [List.map_append, List.map_append, List.sum_append, List.sum_append, tally.locked]
    simp
  · rw [List.map_append, List.map_append, List.sum_append, List.sum_append, tally.reserve]
    simp

/-! ## Swap and fund -/

/-- What a swap adds to the bridge's balances in assets other than its target. -/
def windfall (bridge targetAsset : Address) (before after : TokenLedger) (asset : Address) : Int :=
  if asset = targetAsset then 0
  else (after.balance asset bridge).val - (before.balance asset bridge).val

/-- What a swap leaves the bridge with is a movement. -/
theorem swapped_recorded (bridge : Address) (w : World) (after : TokenLedger) :
    Recorded bridge
      [.pool fun asset => (after.balance asset bridge).val - (w.tokens.balance asset bridge).val]
      w { w with tokens := after } := by
  refine ⟨?_, by simp [Movement.call?], fun _ _ _ => rfl, rfl, by simp [Movement.call?]⟩
  funext account asset
  cases account with
  | held => simp [World.books, Movement.change]
  | earmarked bucket => cases bucket <;> simp [World.books, Movement.change, World.counters,
      World.crosschainReserve]

theorem fundCAddressWithSwap_settled {env : Env}
    {source target sourceAsset targetAsset : Address} {sourceAmount minTargetAmount : I128}
    {swapRoute : List Address} {nonce deadline : Option UInt64} {w w' : World} {u : Unit}
    (bounded : w.FeesBounded)
    (ran : (fundCAddressWithSwap env source target sourceAsset targetAsset sourceAmount
      minTargetAmount swapRoute nonce deadline).run w = .ok (u, w')) :
    ∃ pool before after amountOut, w.isPoolWhitelisted pool = true ∧
      env.swap pool minTargetAmount before = some (after, amountOut) ∧
      Settled env (some source) ((targetAsset, target) :: swapRoute.map (sourceAsset, ·))
        (windfall env.self targetAsset before after) 0 0 w w' := by
  obtain ⟨mid, ran, left⟩ := nonReentrant_ok ran
  have sofar := enter_recorded env.self w
  iterate 11 (refine sofar.skip ran ?_ fun _ _ sofar ran => ?_; focus simp)
  obtain ⟨pool, first, ran⟩ := run_ofOption_bind_ok.mp ran
  have onRoute := List.mem_of_mem_head? first
  have poolKept := sofar.isPoolWhitelisted
  obtain ⟨_, _, sofar, listed, ran⟩ := sofar.keep (checkPoolWhitelisted_touches _) ran
  obtain ⟨authorized, ran⟩ := requireAuth_bind_ok.mp ran
  repeat (refine sofar.skip ran ?_ fun _ _ sofar ran => ?_; focus simp)
  obtain ⟨_, _, sofar, -, ran⟩ := sofar.step (transfer_records ..) ran
  obtain ⟨_, paid, sofar, -, ran⟩ := sofar.step (transfer_records ..) ran
  rw [run_read_bind] at ran
  obtain ⟨amountOut, _, swapped, ran⟩ := run_bind_ok.mp ran
  obtain ⟨-, after, swaps, rfl⟩ := invokeSwap_ok swapped
  have sofar := sofar.trans (swapped_recorded env.self paid after)
  obtain ⟨-, ran⟩ := run_rejectIf_bind_ok.mp ran
  rw [run_read_bind] at ran
  obtain ⟨-, ran⟩ := run_rejectIf_bind_ok.mp ran
  obtain ⟨received, difference, ran⟩ := run_ofExcept_bind_ok.mp ran
  have receivedVal := safeSub_ok.mp difference
  simp only at receivedVal
  obtain ⟨positive, ran⟩ := run_rejectIf_bind_ok.mp ran
  obtain ⟨-, ran⟩ := run_rejectIf_bind_ok.mp ran
  obtain ⟨fee, netAmount, net, parts, ran⟩ := charged_ok (sofar.feesBounded bounded) ran
  obtain ⟨-, netNonneg⟩ := parts (not_le.mp positive).le
  obtain ⟨_, _, sofar, -, ran⟩ := sofar.step (payout_records ..) ran
  obtain ⟨_, _, sofar, -, ran⟩ := sofar.step (updateAssetCounters_records ..) ran
  repeat (refine sofar.skip ran ?_ fun _ _ sofar ran => ?_; focus simp)
  obtain ⟨_, _, minted, ran⟩ := run_bind_ok.mp ran
  have whitelisted := checkPoolWhitelisted_ok listed
  rw [poolKept] at whitelisted
  refine ⟨_, paid.tokens, after, amountOut, whitelisted, swaps, _, _, _, sofar,
    ⟨?_, fun asset' => ?_, fun asset' => ?_, fun asset' => ?_⟩, minted,
    leave_silently left (publish_touches rfl) ran⟩
  · simp [ne_self_of_authorizes authorized, onRoute]
  · by_cases target : asset' = targetAsset
    · simp [payout_margin netNonneg, ne_self_of_authorizes authorized, windfall, target]
      split <;> omega
    · simp [payout_margin netNonneg, ne_self_of_authorizes authorized, windfall, target]
      split <;> omega
  · simp
  · simp

/-! ## Reveal -/

theorem revealFund_settled {env : Env} {commitmentId nonce : UInt64}
    {source target asset : Address} {amount : I128} {w w' : World} {u : Unit}
    (bounded : w.FeesBounded)
    (ran : (revealFund env commitmentId source target asset amount nonce).run w = .ok (u, w')) :
    Settled env (some source) [(asset, target)] 0 0 0 w w' := by
  obtain ⟨mid, ran, left⟩ := nonReentrant_ok ran
  have sofar := enter_recorded env.self w
  repeat (refine sofar.skip ran ?_ fun _ _ sofar ran => ?_; focus simp)
  obtain ⟨authorized, ran⟩ := requireAuth_bind_ok.mp ran
  repeat (refine sofar.skip ran ?_ fun _ _ sofar ran => ?_; focus simp)
  obtain ⟨_, _, sofar, pulled, ran⟩ := sofar.step (transfer_records ..) ran
  obtain ⟨fee, netAmount, net, parts, ran⟩ := charged_ok (sofar.feesBounded bounded) ran
  obtain ⟨-, netNonneg⟩ := parts (transfer_nonneg pulled)
  obtain ⟨_, _, sofar, -, ran⟩ := sofar.step (payout_records ..) ran
  obtain ⟨_, _, sofar, -, ran⟩ := sofar.step (updateAssetCounters_records ..) ran
  repeat (refine sofar.skip ran ?_ fun _ _ sofar ran => ?_; focus simp)
  obtain ⟨_, _, minted, ran⟩ := run_bind_ok.mp ran
  refine ⟨_, _, _, sofar, ⟨?_, fun asset' => ?_, fun asset' => ?_, fun asset' => ?_⟩, minted,
    leave_silently left (publish_touches rfl) ran⟩
  · simp [ne_self_of_authorizes authorized]
  · by_cases same : asset' = asset
    · simp [payout_margin netNonneg, ne_self_of_authorizes authorized, same]
      omega
    · simp [payout_margin netNonneg, ne_self_of_authorizes authorized, same]
  · simp
  · simp

/-! ## Meta-transactions -/

/-- The source of a meta-transaction authorises nothing; that it is not the
bridge follows from the bridge having no registered signer. -/
theorem executeMetaFund_settled {env : Env} {params : MetaFundParams} {pubkey : BytesN 32}
    {signature : BytesN 64} {w w' : World} {u : Unit} (bounded : w.FeesBounded)
    (unsigned : w.store (.metaSigner env.self) = none)
    (ran : (executeMetaFund env params pubkey signature).run w = .ok (u, w')) :
    Settled env (some params.source) [(params.asset, params.target)] 0 0 0 w w' := by
  obtain ⟨mid, ran, left⟩ := nonReentrant_ok ran
  have sofar := enter_recorded env.self w
  iterate 11 (refine sofar.skip ran ?_ fun _ _ sofar ran => ?_; focus simp)
  rw [run_read_bind] at ran
  obtain ⟨registered, ran⟩ := run_rejectIf_bind_ok.mp ran
  have other : params.source ≠ env.self := by
    intro same
    rw [sofar.settings _ rfl rfl, same, unsigned] at registered
    exact registered (Option.some_ne_none pubkey).symm
  repeat (refine sofar.skip ran ?_ fun _ _ sofar ran => ?_; focus simp)
  obtain ⟨_, _, sofar, pulled, ran⟩ := sofar.step (transferFrom_records ..) ran
  obtain ⟨fee, netAmount, net, parts, ran⟩ := charged_ok (sofar.feesBounded bounded) ran
  obtain ⟨-, netNonneg⟩ := parts (transferFrom_nonneg pulled)
  obtain ⟨_, _, sofar, -, ran⟩ := sofar.step (payout_records ..) ran
  repeat (refine sofar.skip ran ?_ fun _ _ sofar ran => ?_; focus simp)
  obtain ⟨_, _, sofar, -, ran⟩ := sofar.step (updateAssetCounters_records ..) ran
  repeat (refine sofar.skip ran ?_ fun _ _ sofar ran => ?_; focus simp)
  obtain ⟨_, _, minted, ran⟩ := run_bind_ok.mp ran
  refine ⟨_, _, _, sofar, ⟨?_, fun asset' => ?_, fun asset' => ?_, fun asset' => ?_⟩, minted,
    leave_silently left (publish_touches rfl) ran⟩
  · simp
  · by_cases same : asset' = params.asset
    · simp [payout_margin netNonneg, other, same]
      omega
    · simp [payout_margin netNonneg, other, same]
  · simp
  · simp

/-! ## Timelocks -/

theorem fundCAddressTimelocked_settled {env : Env} {source target asset : Address}
    {amount : I128} {releaseTime cliffTime : UInt64} {nonce deadline : Option UInt64}
    {w w' : World} {id : UInt64}
    (ran : (fundCAddressTimelocked env source target asset amount releaseTime cliffTime nonce
      deadline).run w = .ok (id, w')) :
    Settled env (some source) [] 0 (inAsset asset amount.val) 0 w w' := by
  obtain ⟨mid, ran, left⟩ := nonReentrant_ok ran
  have sofar := enter_recorded env.self w
  repeat (refine sofar.skip ran ?_ fun _ _ sofar ran => ?_; focus simp)
  obtain ⟨authorized, ran⟩ := requireAuth_bind_ok.mp ran
  repeat (refine sofar.skip ran ?_ fun _ _ sofar ran => ?_; focus simp)
  obtain ⟨_, _, sofar, -, ran⟩ := sofar.step (transfer_records ..) ran
  repeat (refine sofar.skip ran ?_ fun _ _ sofar ran => ?_; focus simp)
  obtain ⟨_, _, sofar, -, ran⟩ := sofar.step (incrementLockedTimelock_records ..) ran
  repeat (refine sofar.skip ran ?_ fun _ _ sofar ran => ?_; focus simp)
  obtain ⟨_, _, minted, ran⟩ := run_bind_ok.mp ran
  refine ⟨_, _, _, sofar, ⟨?_, fun asset' => ?_, fun asset' => ?_, fun asset' => ?_⟩, minted,
    leave_silently left (.bind (publish_touches rfl) fun _ => .pure _) ran⟩
  · simp [ne_self_of_authorizes authorized]
  · by_cases same : asset' = asset
    · simp [ne_self_of_authorizes authorized, same]
    · simp [ne_self_of_authorizes authorized, same]
  · simp [inAsset]
  · simp

/-- The world in which a claim has marked its entry. -/
def World.marking (w : World) (id : UInt64) (entry : TimelockEntry) : World :=
  (w.put .entered true).put (.timelock id) { entry with claimed := true }

/-- Marking an entry moves nothing. -/
theorem marking_recorded (bridge : Address) (w : World) (id : UInt64) (entry : TimelockEntry) :
    Recorded bridge [] w (w.marking id entry) := by
  have silent : Silent (save (.timelock id) { entry with claimed := true }) :=
    save_touches _ (by simp)
  exact (enter_recorded bridge w).trans (.of_frame (silent rfl))

/-- What a claim does when its entry is found, step by step. -/
theorem claimTimelocked_ok {env : Env} {id : UInt64} {w w' : World} {u : Unit} :
    (claimTimelocked env id).run w = .ok (u, w') ↔
      (w.store .entered).getD false = false ∧ w.initialized = true ∧ w.recoveryAllowed ∧
      ∃ entry, w.store (.timelock id) = some entry ∧ entry.claimed = false ∧
        entry.releaseTime ≤ env.timestamp ∧ env.authorizes entry.target = true ∧
        ∃ fee netAmount : I128, w.feeOf entry.asset entry.amount = some fee ∧
          netAmount.val = entry.amount.val - fee.val ∧
          ∃ unlocked paid counted,
            (decrementLockedTimelock entry.asset entry.amount).run (w.marking id entry)
              = .ok ((), unlocked) ∧
            (onlyIf (0 < netAmount.val)
              (transfer env entry.asset env.self entry.target netAmount)).run unlocked
              = .ok ((), paid) ∧
            (updateAssetCounters entry.asset fee netAmount).run paid = .ok ((), counted) ∧
            w' = (counted.emit (.timelockClaimed entry.target id netAmount fee entry.asset)).erase
              .entered := by
  have initialized := (enter_recorded env.self w).initialized
  have recovery := (enter_recorded env.self w).recoveryAllowed
  have feeOf (entry : TimelockEntry) := (marking_recorded env.self w id entry).feeOf
  have found : (w.put .entered true).store (.timelock id) = w.store (.timelock id) := by simp
  have marked (entry : TimelockEntry) : (w.put .entered true).put (.timelock id)
      { entry with claimed := true } = w.marking id entry := rfl
  rw [claimTimelocked, nonReentrant_ok_iff]
  simp only [run_view_bind_ok checkInitialized_ok, run_view_bind_ok checkRecoveryAllowed_ok,
    run_read_bind, run_ofOption_bind_ok, run_rejectIf_bind_ok, requireAuth_bind_ok, save,
    run_modify_bind, charged_untiered_ok, publish, initialized, recovery, marked, feeOf,
    Bool.not_eq_true, UInt64.not_lt, found]
  simp only [run_bind_ok, run_modify_ok]
  constructor
  · rintro ⟨idle, _, ⟨_, opened, _, allowed, entry, stored, unclaimed, matured, authorized, fee,
      netAmount, charged, net, _, unlocked, decremented, _, paid, payment, _, counted, updated,
      rfl⟩, rfl⟩
    exact ⟨idle, opened, allowed, entry, stored, unclaimed, matured, authorized, fee, netAmount,
      charged, net, unlocked, paid, counted, decremented, payment, updated, rfl⟩
  · rintro ⟨idle, opened, allowed, entry, stored, unclaimed, matured, authorized, fee, netAmount,
      charged, net, unlocked, paid, counted, decremented, payment, updated, rfl⟩
    exact ⟨idle, _, ⟨(), opened, (), allowed, entry, stored, unclaimed, matured, authorized, fee,
      netAmount, charged, net, (), unlocked, decremented, (), paid, payment, (), counted, updated,
      rfl⟩, rfl⟩

theorem claimTimelocked_settled {env : Env} {id : UInt64} {w w' : World} {u : Unit}
    (bounded : w.FeesBounded)
    (nonneg : ∀ entry, w.store (.timelock id) = some entry → 0 ≤ entry.amount.val)
    (ran : (claimTimelocked env id).run w = .ok (u, w')) :
    ∃ entry, w.store (.timelock id) = some entry ∧
      Settled env none [(entry.asset, entry.target)] 0 (inAsset entry.asset (-entry.amount.val)) 0 w w' := by
  obtain ⟨-, -, -, entry, stored, -, -, -, fee, netAmount, charged, net, unlocked, paid, counted,
    decremented, payment, updated, left⟩ := claimTimelocked_ok.mp ran
  obtain ⟨feeNonneg, feeLe⟩ := feeOf_bounds bounded (nonneg entry stored) charged
  have netNonneg : 0 ≤ netAmount.val := by omega
  have sofar := marking_recorded env.self w id entry
  have sofar := sofar.trans (decrementLockedTimelock_records _ _ decremented)
  have sofar := sofar.trans (payout_records _ _ _ _ payment)
  have sofar := sofar.trans (updateAssetCounters_records _ _ _ updated)
  refine ⟨entry, stored, _, counted, counted, sofar,
    ⟨?_, fun asset' => ?_, fun asset' => ?_, fun asset' => ?_⟩, rfl, ?_⟩
  · simp
  · by_cases same : asset' = entry.asset
    · simp [payout_margin netNonneg, same]
      omega
    · simp [payout_margin netNonneg, same]
  · simp [inAsset]
  · simp
  · have silent : Silent (publish (.timelockClaimed entry.target id netAmount fee entry.asset)) :=
      publish_touches rfl
    exact leave_silently left silent rfl

/-! ## Cross-chain payouts -/

/-- What is left of an amount after the fee at the rate in force. -/
def World.netOf (w : World) (asset : Address) (amount : I128) : Int :=
  amount.val - ((w.feeOf asset amount).elim 0 BoundedInt.val)

/-- The payout is covered by the reserve it is taken from. -/
theorem fundCAddressCrosschain_settled {env : Env} {chainId : UInt32} {txHash : BytesN 32}
    {target asset : Address} {amount : I128} {sigs : List RelayerSig} {w w' : World} {u : Unit}
    (bounded : w.FeesBounded)
    (ran : (fundCAddressCrosschain env chainId txHash target asset amount sigs).run w
      = .ok (u, w')) :
    0 ≤ w.netOf asset amount ∧ w.netOf asset amount ≤ (w.crosschainReserve asset).val ∧
      Settled env (some target) [(asset, target)] 0 0 (inAsset asset (-w.netOf asset amount)) w w' := by
  obtain ⟨gates, -, -, fee, netAmount, charged, net, reserved, paid, counted, rewarded,
    decremented, payment, updated, minted, left⟩ := fundCAddressCrosschain_ok.mp ran
  obtain ⟨positive, -⟩ := not_or.mp gates.enough
  obtain ⟨-, feeLe⟩ := feeOf_bounds bounded (not_le.mp positive).le charged
  have netNonneg : 0 ≤ netAmount.val := by omega
  have netOf : w.netOf asset amount = netAmount.val := by
    rw [World.netOf, charged, net]
    rfl
  have covered : netAmount.val ≤ (w.crosschainReserve asset).val := by
    simpa [World.crosschainReserve] using decrementCrosschainReserve_covered decremented
  have silent : Silent (markNonceUsed (env.host.crosschainNonce chainId txHash)) :=
    save_touches _ (by simp)
  have sofar := (enter_recorded env.self w).trans (decrementCrosschainReserve_records _ _ decremented)
  have sofar := sofar.trans (.of_frame (silent rfl))
  have sofar := sofar.trans (payout_records _ _ _ _ payment)
  have sofar := sofar.trans (updateAssetCountersSplit_records _ _ _ _ updated)
  rw [netOf]
  refine ⟨netNonneg, covered, _, counted, rewarded, sofar,
    ⟨?_, fun asset' => ?_, fun asset' => ?_, fun asset' => ?_⟩, minted, ?_⟩
  · simp
  · by_cases same : asset' = asset
    · simp [payout_margin netNonneg, same]
    · simp [payout_margin netNonneg, same]
  · simp
  · simp [inAsset]
  · have silent : Silent (publish (.crossChainFunded target chainId txHash amount fee asset)) :=
      publish_touches rfl
    exact leave_silently left silent rfl

/-! ## Tokens of the bridge itself -/

theorem withdrawFees_settled {env : Env} {asset : Address} {amount : I128}
    {nonce : Option UInt64} {w w' : World} {u : Unit}
    (ran : (withdrawFees env asset amount nonce).run w = .ok (u, w')) :
    Settled env none (w.feeCollector?.toList.map (asset, ·)) 0 0 0 w w' := by
  rw [withdrawFees] at ran
  have sofar := Recorded.refl env.self w
  iterate 2 (refine sofar.skip ran ?_ fun _ _ sofar ran => ?_; focus simp)
  have collectorKept := sofar.feeCollector?
  obtain ⟨feeCollector, _, sofar, collector, ran⟩ := sofar.keep readFeeCollector_touches ran
  obtain ⟨collects, -⟩ := readFeeCollector_ok.mp collector
  rw [collectorKept] at collects
  obtain ⟨-, ran⟩ := requireAuth_bind_ok.mp ran
  repeat (refine sofar.skip ran ?_ fun _ _ sofar ran => ?_; focus simp)
  obtain ⟨_, _, sofar, -, ran⟩ := sofar.step (transfer_records ..) ran
  obtain ⟨_, counted, sofar, -, ran⟩ := sofar.step (decrementAccruedFees_records ..) ran
  refine ⟨_, counted, counted, sofar, ⟨?_, fun asset' => ?_, fun asset' => ?_, fun asset' => ?_⟩, rfl,
    .of_frame (publish_touches rfl ran)⟩
  · simp [collects]
  · by_cases same : asset' = asset
    · simp [same]
    · simp [same]
  · simp
  · simp

/-- A reclaim takes no more than the surplus. -/
theorem reclaimTokens_settled {env : Env} {asset : Address} {amount : I128}
    {destination : Address} {nonce : Option UInt64} {w w' : World} {u : Unit}
    (ran : (reclaimTokens env asset amount destination nonce).run w = .ok (u, w')) :
    amount.val ≤ w.surplus env.self asset ∧
      Settled env none [(asset, destination)] (inAsset asset (-amount.val)) 0 0 w w' := by
  obtain ⟨mid, ran, left⟩ := nonReentrant_ok ran
  have sofar := enter_recorded env.self w
  obtain ⟨_, _, sofar, -, ran⟩ := sofar.keep checkInitialized_touches ran
  obtain ⟨-, ran⟩ := run_rejectIf_bind_ok.mp ran
  obtain ⟨_, t, sofar, -, ran⟩ := sofar.keep (authorizeAdmin_touches _ _ (by simp)) ran
  have surplus := sofar.surplus asset
  simp only [List.map_nil, List.sum_nil, add_zero] at surplus
  rw [run_read_bind, run_read_bind] at ran
  obtain ⟨unaccrued, first, ran⟩ := run_ofExcept_bind_ok.mp ran
  obtain ⟨unlocked, second, ran⟩ := run_ofExcept_bind_ok.mp ran
  rw [run_read_bind] at ran
  obtain ⟨reclaimable, third, ran⟩ := run_ofExcept_bind_ok.mp ran
  obtain ⟨within, ran⟩ := run_rejectIf_bind_ok.mp ran
  have unaccruedVal := safeSub_ok.mp first
  have unlockedVal := safeSub_ok.mp second
  have reclaimableVal := safeSub_ok.mp third
  obtain ⟨_, _, sofar, -, ran⟩ := sofar.step (transfer_records ..) ran
  refine ⟨?_, _, _, _, sofar, ⟨?_, fun asset' => ?_, fun asset' => ?_, fun asset' => ?_⟩, rfl,
    leave_silently left (publish_touches rfl) ran⟩
  · rw [← surplus, World.surplus]
    omega
  · simp
  · simp [inAsset]
  · simp
  · simp

/-- The admin who pays is not the bridge. -/
theorem fundCrosschainReserve_settled {env : Env} {asset : Address} {amount : I128} {w w' : World}
    {u : Unit} (ran : (fundCrosschainReserve env asset amount).run w = .ok (u, w')) :
    Settled env none [] 0 0 (inAsset asset amount.val) w w' := by
  obtain ⟨mid, ran, left⟩ := nonReentrant_ok ran
  have sofar := enter_recorded env.self w
  repeat (refine sofar.skip ran ?_ fun _ _ sofar ran => ?_; focus simp)
  obtain ⟨authorized, ran⟩ := requireAuth_bind_ok.mp ran
  obtain ⟨_, _, sofar, -, ran⟩ := sofar.step (transfer_records ..) ran
  obtain ⟨_, counted, sofar, -, ran⟩ := sofar.step (incrementCrosschainReserve_records ..) ran
  refine ⟨_, counted, counted, sofar, ⟨?_, fun asset' => ?_, fun asset' => ?_, fun asset' => ?_⟩, rfl,
    leave_silently left (publish_touches rfl) ran⟩
  · simp [ne_self_of_authorizes authorized]
  · by_cases same : asset' = asset
    · simp [ne_self_of_authorizes authorized, same]
    · simp [ne_self_of_authorizes authorized, same]
  · simp
  · simp [inAsset]

theorem withdrawCrosschainReserve_settled {env : Env} {asset : Address} {amount : I128}
    {w w' : World} {u : Unit}
    (ran : (withdrawCrosschainReserve env asset amount).run w = .ok (u, w')) :
    Settled env none (w.admin?.toList.map (asset, ·)) 0 0 (inAsset asset (-amount.val)) w w' := by
  obtain ⟨mid, ran, left⟩ := nonReentrant_ok ran
  have sofar := enter_recorded env.self w
  iterate 2 (refine sofar.skip ran ?_ fun _ _ sofar ran => ?_; focus simp)
  have adminKept := sofar.admin?
  obtain ⟨admin, _, sofar, read, ran⟩ := sofar.keep readAdmin_touches ran
  obtain ⟨administers, -⟩ := readAdmin_ok.mp read
  rw [adminKept] at administers
  obtain ⟨-, ran⟩ := requireAuth_bind_ok.mp ran
  obtain ⟨_, _, sofar, -, ran⟩ := sofar.step (decrementCrosschainReserve_records ..) ran
  obtain ⟨_, paid, sofar, -, ran⟩ := sofar.step (transfer_records ..) ran
  refine ⟨_, paid, paid, sofar, ⟨?_, fun asset' => ?_, fun asset' => ?_, fun asset' => ?_⟩, rfl,
    leave_silently left (publish_touches rfl) ran⟩
  · simp [administers]
  · by_cases same : asset' = asset
    · simp [same]
    · simp [same]
  · simp
  · simp [inAsset]

end OnboardingBridge.Contract
