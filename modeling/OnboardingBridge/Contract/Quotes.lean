import OnboardingBridge.Contract.CounterHistory
import OnboardingBridge.Contract.FeeTiers

/-!
# Quotes and charges

A quote tells the rate, the fee and the net amount of a funding. Every path that funds a
target from a source charges what was quoted for its amount before the call, since
nothing that it does before the charge changes the rate.
-/

set_option autoImplicit false

namespace OnboardingBridge.Contract

open Foundations Foundations.Tx

/-! ## Quotes -/

def queryEffectiveFee (source asset : Address) (amount : I128) : Call (UInt32 × I128 × I128) := do
  checkInitialized
  let globalFeeBps ← readFeeBps
  let tieredFeeBps ← getTieredFeeBps source asset globalFeeBps
  let cap ← readAssetFeeCap asset
  let effectiveFeeBps := min tieredFeeBps cap
  let fee ← liftResult (calculateFee amount effectiveFeeBps)
  let net ← liftResult (safeSub amount fee)
  return (effectiveFeeBps, fee, net)

/-- The rate, the fee and the rest of an amount that a source funds. -/
structure World.Quotes (w : World) (source asset : Address) (amount : I128) (feeBps : UInt32)
    (fee net : I128) : Prop where
  rate : ∃ config, w.bridgeConfig? = some config ∧
    feeBps = w.effectiveFeeBps asset (w.tieredFeeBps source asset config.feeBps)
  charged : calculateFee amount feeBps = .ok fee
  rest : net.val = amount.val - fee.val

/-- The cap leaves a rate of zero as it is. -/
theorem World.effectiveFeeBps_eq_min (w : World) (asset : Address) (globalFeeBps : UInt32) :
    w.effectiveFeeBps asset globalFeeBps = min globalFeeBps (w.assetFeeCap asset) := by
  rw [World.effectiveFeeBps]
  split
  · next zero =>
    subst zero
    change 0 = if (0 : UInt32) ≤ w.assetFeeCap asset then 0 else w.assetFeeCap asset
    rw [if_pos (UInt32.le_iff_toNat_le.mpr (Nat.zero_le _))]
  · rfl

theorem readFeeBps_holds {w w' : World} {feeBps : UInt32} :
    readFeeBps.run w = .ok (feeBps, w') ↔
      (∃ config, w.bridgeConfig? = some config ∧ feeBps = config.feeBps) ∧ w' = w := by
  rw [readFeeBps_ok]
  simp only [← and_assoc, exists_and_right]

theorem queryEffectiveFee_ok {source asset : Address} {amount : I128} {feeBps : UInt32}
    {fee net : I128} {w w' : World} :
    (queryEffectiveFee source asset amount).run w = .ok ((feeBps, fee, net), w') ↔
      w.initialized = true ∧ w.Quotes source asset amount feeBps fee net ∧ w' = w := by
  rw [queryEffectiveFee, run_bind_ok]
  simp only [checkInitialized_ok]
  constructor
  · rintro ⟨_, _, ⟨initialized, rfl⟩, ran⟩
    simp only [run_view_bind_ok readFeeBps_holds] at ran
    obtain ⟨_, ⟨config, found, rfl⟩, ran⟩ := ran
    rw [run_bind_of_ok (getTieredFeeBps_run ..), run_read_bind] at ran
    obtain ⟨_, charged, ran⟩ := run_ofExcept_bind_ok.mp ran
    obtain ⟨_, rest, ran⟩ := run_ofExcept_bind_ok.mp ran
    obtain ⟨same, rfl⟩ := run_pure_ok.mp ran
    simp only [Prod.mk.injEq] at same
    obtain ⟨rfl, rfl, rfl⟩ := same
    refine ⟨initialized, ⟨⟨config, found, ?_⟩, charged, safeSub_ok.mp rest⟩, rfl⟩
    rw [World.effectiveFeeBps_eq_min]
  · rintro ⟨initialized, ⟨⟨config, found, rfl⟩, charged, rest⟩, rfl⟩
    refine ⟨(), w', ⟨initialized, rfl⟩, ?_⟩
    have global : readFeeBps.run w' = .ok (config.feeBps, w') :=
      readFeeBps_ok.mpr ⟨config, found, rfl, rfl⟩
    rw [run_bind_of_ok global, run_bind_of_ok (getTieredFeeBps_run ..), run_read_bind,
      ← World.effectiveFeeBps_eq_min]
    refine run_ofExcept_bind_ok.mpr ⟨fee, charged, ?_⟩
    exact run_ofExcept_bind_ok.mpr ⟨net, safeSub_ok.mpr rest, rfl⟩

/-- The charge of a funding is the quote of the world in which it is made. -/
theorem charged_quotes {β : Type} {source asset : Address} {amount : I128}
    {rest : I128 → I128 → Call β} {w w' : World} {b : β} :
    (do
      let globalFeeBps ← readFeeBps
      let tieredFeeBps ← getTieredFeeBps source asset globalFeeBps
      let effectiveFeeBps ← getEffectiveFeeBps asset tieredFeeBps
      let fee ← liftResult (calculateFee amount effectiveFeeBps)
      let netAmount ← liftResult (safeSub amount fee)
      rest fee netAmount).run w = .ok (b, w') ↔
    ∃ feeBps fee net, w.Quotes source asset amount feeBps fee net ∧
      (rest fee net).run w = .ok (b, w') := by
  constructor
  · intro ran
    simp only [run_view_bind_ok readFeeBps_holds] at ran
    obtain ⟨_, ⟨config, found, rfl⟩, ran⟩ := ran
    rw [run_bind_of_ok (getTieredFeeBps_run ..),
      run_bind_of_ok (getEffectiveFeeBps_ok.mpr ⟨rfl, rfl⟩)] at ran
    obtain ⟨fee, charged, ran⟩ := run_ofExcept_bind_ok.mp ran
    obtain ⟨net, rest, ran⟩ := run_ofExcept_bind_ok.mp ran
    exact ⟨_, fee, net, ⟨⟨config, found, rfl⟩, charged, safeSub_ok.mp rest⟩, ran⟩
  · rintro ⟨_, fee, net, ⟨⟨config, found, rfl⟩, charged, rest⟩, ran⟩
    have global : readFeeBps.run w = .ok (config.feeBps, w) :=
      readFeeBps_ok.mpr ⟨config, found, rfl, rfl⟩
    rw [run_bind_of_ok global, run_bind_of_ok (getTieredFeeBps_run ..),
      run_bind_of_ok (getEffectiveFeeBps_ok.mpr ⟨rfl, rfl⟩)]
    refine run_ofExcept_bind_ok.mpr ⟨fee, charged, ?_⟩
    exact run_ofExcept_bind_ok.mpr ⟨net, safeSub_ok.mpr rest, ran⟩

/-- The rate is at most the global one, the cap of the asset and the rate of every tier that the
volume of the source lies in. -/
theorem World.Quotes.rate_le {w : World} {source asset : Address} {amount fee net : I128}
    {feeBps : UInt32} (quotes : w.Quotes source asset amount feeBps fee net)
    (table : TierTable w.feeTiers) :
    (∃ config, w.bridgeConfig? = some config ∧ feeBps ≤ config.feeBps) ∧
      feeBps ≤ w.assetFeeCap asset ∧
      ∀ tier ∈ w.feeTiers, tier.contains (w.sourceBridgedVolume source asset) = true →
        feeBps ≤ tier.feeBps := by
  obtain ⟨config, found, rfl⟩ := quotes.rate
  have tiered := w.effectiveFeeBps_le asset (w.tieredFeeBps source asset config.feeBps)
  refine ⟨⟨config, found, UInt32.le_trans tiered (w.tieredFeeBps_le ..)⟩, ?_, ?_⟩
  · rw [World.effectiveFeeBps_eq_min]
    exact u32_min_le_right ..
  · intro tier member inside
    refine UInt32.le_trans tiered ?_
    rw [table.rate_inside source asset member inside]
    exact u32_min_le_right ..

/-! ## What a funding does before its charge -/

/-- Whether a key holds the volume that a source bridged. -/
abbrev DataKey.isVolume : DataKey → Bool
  | .sourceBridgedVolume .. => true
  | _ => false

/-- The keys that are written before a charge. -/
def admissionKeys : Set DataKey := {key | key.isRecord = true ∧ key.isVolume = false}

@[simp] theorem mem_admissionKeys {key : DataKey} :
    key ∈ admissionKeys ↔ key.isRecord = true ∧ key.isVolume = false := Iff.rfl

/-- Between the two worlds lie the movements of a journal that counts nothing, and the volumes
are the same. -/
structure Admits (bridge : Address) (journal : List Movement) (w t : World) : Prop where
  posted : Posted bridge journal 0 0 w t
  volumes : ∀ source asset, t.sourceBridgedVolume source asset = w.sourceBridgedVolume source asset

namespace Admits

variable {bridge : Address} {journal : List Movement} {w t t' : World}

theorem of_frame (frame : Frame admissionKeys False w t) : Admits bridge [] w t where
  posted := .of_frame (frame.widen fun _ inside => inside.1)
  volumes source asset := by
    rw [World.sourceBridgedVolume, World.sourceBridgedVolume, frame.store _ (by simp)]

theorem enter (bridge : Address) (w : World) : Admits bridge [] w (w.put .entered true) := by
  have touches : Touches admissionKeys False (save .entered true) := save_touches _ (by simp)
  exact of_frame (touches rfl)

theorem trans {later : List Movement} (first : Admits bridge journal w t)
    (second : Admits bridge later t t') : Admits bridge (journal ++ later) w t' where
  posted := by simpa using first.posted.trans second.posted
  volumes source asset := (second.volumes source asset).trans (first.volumes source asset)

/-- A part of a call that writes no volume may be passed over. -/
theorem skip {α β : Type} {body : Call α} {rest : α → Call β} {b : β} {goal : Prop}
    (sofar : Admits bridge journal w t) (ran : (body >>= rest).run t = .ok (b, t'))
    (touches : Touches admissionKeys False body)
    (next : ∀ a t, Admits bridge journal w t → (rest a).run t = .ok (b, t') → goal) : goal := by
  obtain ⟨a, t, first, ran⟩ := run_bind_ok.mp ran
  exact next a t (by simpa using sofar.trans (of_frame (touches first))) ran

/-- The tokens that are funded are pulled. -/
theorem pull {β : Type} {body : Call Unit} {rest : Unit → Call β} {b : β} {call : TokenCall}
    (sofar : Admits bridge journal w t) (records : Records bridge [.token call] body)
    (touches : Touches ∅ True body) (ran : (body >>= rest).run t = .ok (b, t')) :
    ∃ a r, Admits bridge (journal ++ [.token call]) w r ∧ body.run t = .ok (a, r) ∧
      (rest a).run r = .ok (b, t') := by
  obtain ⟨a, r, first, ran⟩ := run_bind_ok.mp ran
  have frame := touches first
  refine ⟨a, r, sofar.trans ⟨.of_sameTotals (records first) (frame.sameTotals (by simp)), ?_⟩,
    first, ran⟩
  intro source asset
  rw [World.sourceBridgedVolume, World.sourceBridgedVolume, frame.store _ (by simp)]

/-- The quote is the one before the call. -/
theorem quotes (sofar : Admits bridge journal w t) {source asset : Address} {amount fee net : I128}
    {feeBps : UInt32} : t.Quotes source asset amount feeBps fee net ↔
      w.Quotes source asset amount feeBps fee net := by
  have kept := sofar.posted.recorded.settings
  have config : t.bridgeConfig? = w.bridgeConfig? := by
    unfold World.bridgeConfig?
    simp only [kept .bridgeConfig rfl rfl, kept .admin rfl rfl, kept .feeCollector rfl rfl,
      kept .feeBps rfl rfl]
  have cap : t.assetFeeCap asset = w.assetFeeCap asset := by
    rw [World.assetFeeCap, World.assetFeeCap, kept _ rfl rfl]
  have tier : t.currentTier source asset = w.currentTier source asset := by
    rw [World.currentTier, World.currentTier, World.feeTiers, World.feeTiers, kept .feeTiers rfl rfl,
      sofar.volumes]
  have rate (globalFeeBps : UInt32) :
      t.effectiveFeeBps asset (t.tieredFeeBps source asset globalFeeBps) =
        w.effectiveFeeBps asset (w.tieredFeeBps source asset globalFeeBps) := by
    rw [World.effectiveFeeBps, World.effectiveFeeBps, World.tieredFeeBps, World.tieredFeeBps, tier,
      cap]
  constructor
  · rintro ⟨⟨config', found, same⟩, charged, rest⟩
    exact ⟨⟨config', config ▸ found, rate config'.feeBps ▸ same⟩, charged, rest⟩
  · rintro ⟨⟨config', found, same⟩, charged, rest⟩
    exact ⟨⟨config', config ▸ found, rate config'.feeBps ▸ same⟩, charged, rest⟩

end Admits

theorem World.Quotes.fee_nonneg {w : World} {source asset : Address} {amount fee net : I128}
    {feeBps : UInt32} (quotes : w.Quotes source asset amount feeBps fee net)
    (nonneg : 0 ≤ amount.val) : 0 ≤ fee.val := by
  rw [((calculateFee_charges nonneg).mp quotes.charged).2]
  exact Int.ediv_nonneg (by positivity) (by decide)

/-- The fee and the rest of a quote are parts of the amount. -/
theorem World.Quotes.parts {w : World} {source asset : Address} {amount fee net : I128}
    {feeBps : UInt32} (quotes : w.Quotes source asset amount feeBps fee net)
    (bounded : w.FeesBounded) (nonneg : 0 ≤ amount.val) : 0 ≤ fee.val ∧ 0 ≤ net.val := by
  obtain ⟨config, found, rate⟩ := quotes.rate
  have within : feeBps ≤ maxFeeBps := by
    rw [rate]
    refine UInt32.le_trans (World.effectiveFeeBps_le ..) ?_
    exact UInt32.le_trans (World.tieredFeeBps_le ..) (bounded.bridgeConfig found)
  obtain ⟨feeNonneg, feeLe⟩ := calculateFee_bounds nonneg within quotes.charged
  have rest := quotes.rest
  exact ⟨feeNonneg, by omega⟩

/-! ## What a funding pays and counts -/

/-- The token call of a payment that is made only if it is positive. -/
def payoutCalls (bridge asset dst : Address) (amount : I128) : List TokenCall :=
  if 0 < amount.val then [.transfer asset bridge dst amount] else []

theorem filterMap_payout (bridge asset dst : Address) (amount : I128) :
    (payout bridge asset dst amount).filterMap Movement.call? =
      payoutCalls bridge asset dst amount := by
  unfold payout payoutCalls
  split <;> rfl

/-- A funding pulls the amount, pays the net amount to the target and a share of the fee to the
referrer, and counts them. -/
structure Fulfils (env : Env) (source target asset : Address) (pull : TokenCall) (fee net : I128)
    (referrer : Option Address) (share : I128) (w w' : World) : Prop where
  parts : 0 ≤ fee.val ∧ 0 ≤ net.val
  fees : (w'.counters asset).totalFeesCollected.val =
    (w.counters asset).totalFeesCollected.val + fee.val
  bridged : (w'.counters asset).totalBridged.val = (w.counters asset).totalBridged.val + net.val
  accrued : (w'.counters asset).accruedFees.val =
    (w.counters asset).accruedFees.val + (fee.val - share.val)
  calls : w'.invocations = pull :: (payoutCalls env.self asset target net ++
    (referrer.elim [] fun referrer => payoutCalls env.self asset referrer share) ++
      rewardCalls env.self (some source) w w')

/-- What a call that posts a journal, rewards and posts nothing more does to the counters. -/
theorem Posted.counts {env : Env} {recipient : Option Address} {journal : List Movement}
    {fees bridged : Address → Int} {w s r w' : World}
    (posted : Posted env.self journal fees bridged w s) (rewarded : Rewarded env recipient s r)
    (later : Posted env.self [] 0 0 r w') (quiet : w.loyaltySkips = []) (asset : Address) :
    (w'.counters asset).totalFeesCollected.val =
        (w.counters asset).totalFeesCollected.val + fees asset ∧
      (w'.counters asset).totalBridged.val = (w.counters asset).totalBridged.val + bridged asset ∧
      (w'.counters asset).accruedFees.val = (w.counters asset).accruedFees.val
        + (journal.map (Movement.earmarks .accruedFees asset)).sum := by
  have step := rewarded.step (posted.recorded.loyaltySkips.trans quiet)
  obtain ⟨sameFees, sameBridged⟩ := rewarded.sameTotals asset
  refine ⟨?_, ?_, ?_⟩
  · rw [later.fees, sameFees, posted.fees, Pi.zero_apply, add_zero]
  · rw [later.bridged, sameBridged, posted.bridged, Pi.zero_apply, add_zero]
  · have kept := later.recorded.earmarked .accruedFees asset
    simp only [List.map_nil, List.sum_nil, add_zero] at kept
    exact kept.trans ((step.earmarked .accruedFees asset).trans
      (posted.recorded.earmarked .accruedFees asset))

theorem Posted.fulfils {env : Env} {source target asset : Address} {pull : TokenCall}
    {fee net share : I128} {referrer : Option Address} {journal : List Movement}
    {fees bridged : Address → Int} {w s r w' : World}
    (posted : Posted env.self journal fees bridged w s) (rewarded : Rewarded env (some source) s r)
    (later : Posted env.self [] 0 0 r w') (fresh : w.invocations = [])
    (quiet : w.loyaltySkips = []) (parts : 0 ≤ fee.val ∧ 0 ≤ net.val) (feesHere : fees asset = fee.val)
    (bridgedHere : bridged asset = net.val)
    (accrued : (journal.map (Movement.earmarks .accruedFees asset)).sum = fee.val - share.val)
    (calls : journal.filterMap Movement.call? = pull :: (payoutCalls env.self asset target net ++
      referrer.elim [] fun referrer => payoutCalls env.self asset referrer share)) :
    Fulfils env source target asset pull fee net referrer share w w' := by
  obtain ⟨totalFees, totalBridged, accruedFees⟩ := posted.counts rewarded later quiet asset
  refine ⟨parts, feesHere ▸ totalFees, bridgedHere ▸ totalBridged, accrued ▸ accruedFees, ?_⟩
  rw [posted.calls rewarded later fresh quiet, calls]
  rfl

section Paths

variable {env : Env} {source target asset : Address} {amount : I128} {w w' : World} {u : Unit}
  (bounded : w.FeesBounded) (fresh : w.invocations = []) (quiet : w.loyaltySkips = [])
include bounded fresh quiet

theorem fundCAddress_fulfils {nonce deadline : Option UInt64}
    (ran : (fundCAddress env source target asset amount nonce deadline).run w = .ok (u, w')) :
    ∃ feeBps fee net, w.Quotes source asset amount feeBps fee net ∧
      Fulfils env source target asset (.transfer asset source env.self amount) fee net none 0 w w' := by
  obtain ⟨mid, ran, left⟩ := nonReentrant_ok ran
  have sofar := Admits.enter env.self w
  repeat (refine sofar.skip ran ?_ fun _ _ sofar ran => ?_; focus simp)
  obtain ⟨authorized, ran⟩ := requireAuth_bind_ok.mp ran
  refine sofar.skip ran (consumeNonce_touches _ _ (by simp)) fun _ _ sofar ran => ?_
  obtain ⟨feeBps, fee, net, quoted, ran⟩ := charged_quotes.mp ran
  have quoted := sofar.quotes.mp quoted
  obtain ⟨_, _, sofar, pulled, ran⟩ := sofar.pull (transfer_records ..) (by simp) ran
  obtain ⟨feeNonneg, netNonneg⟩ := quoted.parts bounded (transfer_nonneg pulled)
  have sofar := sofar.posted
  obtain ⟨_, _, sofar, -, ran⟩ := sofar.step (payout_records ..) (payout_sameTotals ..) ran
  obtain ⟨_, _, counted, ran⟩ := run_bind_ok.mp ran
  have sofar := sofar.trans (updateAssetCountersSplit_posted env.self _ _ _ _ counted)
  repeat (refine sofar.skip ran ?_ fun _ _ sofar ran => ?_; focus simp)
  obtain ⟨_, _, minted, ran⟩ := run_bind_ok.mp ran
  refine ⟨feeBps, fee, net, quoted, sofar.fulfils minted (leave_posted left (by simp) ran) fresh quiet
    ⟨feeNonneg, netNonneg⟩ ?_ ?_ ?_ ?_⟩
  · simp [inAsset]
  · simp [inAsset]
  · simp [Movement.earmarks]
  · simp [filterMap_payout, Movement.call?]

theorem revealFund_fulfils {commitmentId nonce : UInt64}
    (ran : (revealFund env commitmentId source target asset amount nonce).run w = .ok (u, w')) :
    ∃ feeBps fee net, w.Quotes source asset amount feeBps fee net ∧
      Fulfils env source target asset (.transfer asset source env.self amount) fee net none 0 w w' := by
  obtain ⟨mid, ran, left⟩ := nonReentrant_ok ran
  have sofar := Admits.enter env.self w
  repeat (refine sofar.skip ran ?_ fun _ _ sofar ran => ?_; focus simp)
  obtain ⟨authorized, ran⟩ := requireAuth_bind_ok.mp ran
  refine sofar.skip ran (save_touches _ (by simp)) fun _ _ sofar ran => ?_
  obtain ⟨_, _, sofar, pulled, ran⟩ := sofar.pull (transfer_records ..) (by simp) ran
  obtain ⟨feeBps, fee, net, quoted, ran⟩ := charged_quotes.mp ran
  have quoted := sofar.quotes.mp quoted
  obtain ⟨feeNonneg, netNonneg⟩ := quoted.parts bounded (transfer_nonneg pulled)
  have sofar := sofar.posted
  obtain ⟨_, _, sofar, -, ran⟩ := sofar.step (payout_records ..) (payout_sameTotals ..) ran
  obtain ⟨_, _, counted, ran⟩ := run_bind_ok.mp ran
  have sofar := sofar.trans (updateAssetCountersSplit_posted env.self _ _ _ _ counted)
  repeat (refine sofar.skip ran ?_ fun _ _ sofar ran => ?_; focus simp)
  obtain ⟨_, _, minted, ran⟩ := run_bind_ok.mp ran
  have later : Posted env.self [] 0 0 _ w' := leave_posted left (publish_touches rfl) ran
  refine ⟨feeBps, fee, net, quoted, sofar.fulfils minted later fresh quiet
    ⟨feeNonneg, netNonneg⟩ ?_ ?_ ?_ ?_⟩
  · simp [inAsset]
  · simp [inAsset]
  · simp [Movement.earmarks]
  · simp [filterMap_payout, Movement.call?]

omit source target asset amount in
theorem executeMetaFund_fulfils {params : MetaFundParams} {pubkey : BytesN 32}
    {signature : BytesN 64}
    (ran : (executeMetaFund env params pubkey signature).run w = .ok (u, w')) :
    ∃ feeBps fee net, w.Quotes params.source params.asset params.amount feeBps fee net ∧
      Fulfils env params.source params.target params.asset
        (.transferFrom params.asset env.self params.source env.self params.amount) fee net none 0
        w w' := by
  obtain ⟨mid, ran, left⟩ := nonReentrant_ok ran
  have sofar := Admits.enter env.self w
  repeat (refine sofar.skip ran ?_ fun _ _ sofar ran => ?_; focus simp)
  obtain ⟨_, _, sofar, pulled, ran⟩ :=
    sofar.pull (transferFrom_records ..) (transferFrom_touches ..) ran
  obtain ⟨feeBps, fee, net, quoted, ran⟩ := charged_quotes.mp ran
  have quoted := sofar.quotes.mp quoted
  obtain ⟨feeNonneg, netNonneg⟩ := quoted.parts bounded (transferFrom_nonneg pulled)
  have sofar := sofar.posted
  obtain ⟨_, _, sofar, -, ran⟩ := sofar.step (payout_records ..) (payout_sameTotals ..) ran
  refine sofar.skip ran (by simp) fun _ _ sofar ran => ?_
  obtain ⟨_, _, counted, ran⟩ := run_bind_ok.mp ran
  have sofar := sofar.trans (updateAssetCountersSplit_posted env.self _ _ _ _ counted)
  repeat (refine sofar.skip ran ?_ fun _ _ sofar ran => ?_; focus simp)
  obtain ⟨_, _, minted, ran⟩ := run_bind_ok.mp ran
  have later : Posted env.self [] 0 0 _ w' := leave_posted left (publish_touches rfl) ran
  refine ⟨feeBps, fee, net, quoted, sofar.fulfils minted later fresh quiet
    ⟨feeNonneg, netNonneg⟩ ?_ ?_ ?_ ?_⟩
  · simp [inAsset]
  · simp [inAsset]
  · simp [Movement.earmarks]
  · simp [filterMap_payout, Movement.call?]

theorem fundCAddressWithReferral_fulfils {referrer : Option Address} {nonce deadline : Option UInt64}
    (rate : w.ReferralBounded)
    (ran : (fundCAddressWithReferral env source target asset amount referrer nonce deadline).run w
      = .ok (u, w')) :
    ∃ feeBps fee net share, w.Quotes source asset amount feeBps fee net ∧
      share.val = w.referralShare fee.val referrer ∧ 0 ≤ share.val ∧ share.val ≤ fee.val ∧
      (∀ given ∈ referrer, given ≠ source ∧ given ≠ target) ∧
      Fulfils env source target asset (.transfer asset source env.self amount) fee net referrer share
        w w' := by
  obtain ⟨mid, ran, left⟩ := nonReentrant_ok ran
  have sofar := Admits.enter env.self w
  iterate 9 (refine sofar.skip ran ?_ fun _ _ sofar ran => ?_; focus simp)
  refine sofar.skip ran (checkDailyLimit_touches _ _ _ _ (by simp)) fun _ _ sofar ran => ?_
  obtain ⟨strangers, ran⟩ := run_rejectIf_bind_ok.mp ran
  have others : ∀ given ∈ referrer, given ≠ source ∧ given ≠ target := by
    rintro given named
    obtain rfl := Option.mem_def.mp named
    simpa [not_or] using strangers
  obtain ⟨authorized, ran⟩ := requireAuth_bind_ok.mp ran
  refine sofar.skip ran (consumeNonce_touches _ _ (by simp)) fun _ _ sofar ran => ?_
  obtain ⟨_, _, sofar, pulled, ran⟩ := sofar.pull (transfer_records ..) (by simp) ran
  obtain ⟨feeBps, fee, net, quoted, ran⟩ := charged_quotes.mp ran
  have quoted := sofar.quotes.mp quoted
  obtain ⟨feeNonneg, netNonneg⟩ := quoted.parts bounded (transfer_nonneg pulled)
  have sofar := sofar.posted
  obtain ⟨_, paid, sofar, -, ran⟩ := sofar.step (payout_records ..) (payout_sameTotals ..) ran
  obtain ⟨protocolFee, _, split, ran⟩ := run_bind_ok.mp ran
  have kept := sofar.recorded.settings .referralRate rfl rfl
  obtain ⟨share, proportion, shareNonneg, shareLe, rest, shared⟩ :=
    payReferral_posted feeNonneg (by rwa [World.ReferralBounded, kept]) split
  rw [World.referralShare, kept] at proportion
  have sofar := sofar.trans shared
  refine sofar.skip ran (by simp) fun _ _ sofar ran => ?_
  obtain ⟨_, _, counted, ran⟩ := run_bind_ok.mp ran
  have sofar := sofar.trans (updateAssetCountersSplit_posted env.self _ _ _ _ counted)
  repeat (refine sofar.skip ran ?_ fun _ _ sofar ran => ?_; focus simp)
  obtain ⟨_, _, minted, ran⟩ := run_bind_ok.mp ran
  have later : Posted env.self [] 0 0 _ w' := leave_posted left (publish_touches rfl) ran
  refine ⟨feeBps, fee, net, share, quoted, proportion, shareNonneg, shareLe, others,
    sofar.fulfils minted later fresh quiet ⟨feeNonneg, netNonneg⟩ ?_ ?_ ?_ ?_⟩
  · simp [inAsset]
  · simp [inAsset]
  · cases referrer <;> simp [Movement.earmarks, rest]
  · cases referrer <;> simp [filterMap_payout, Movement.call?, List.filterMap_cons]

end Paths

/-! ## Batches -/

/-- The token calls of the deliveries of a batch. -/
def deliveryCalls (bridge asset : Address) (deliveries : List Delivery) : List TokenCall :=
  deliveries.flatMap fun delivery => payoutCalls bridge asset delivery.target delivery.net

theorem filterMap_deliveries (bridge asset : Address) (deliveries : List Delivery) :
    (deliveries.flatMap (Delivery.journal bridge asset)).filterMap Movement.call? =
      deliveryCalls bridge asset deliveries := by
  induction deliveries with
  | nil => rfl
  | cons delivery rest ih =>
      rw [deliveryCalls] at ih
      simp [deliveryCalls, Delivery.journal, filterMap_payout, List.filterMap_cons, Movement.call?,
        ih]

/-- A batch pulls the total of its amounts, delivers the entries whose target is admitted, each
charged as it is quoted, refunds the others, and counts what it delivers. -/
structure FulfilsBatch (env : Env) (source asset : Address) (entries : List (Address × I128))
    (deliveries : List Delivery) (total refund : I128) (recipient : Option Address) (w w' : World) :
    Prop where
  delivered : deliveries.map (fun delivery => (delivery.target, delivery.amount)) =
    entries.filter fun entry => w.admits entry.1
  quoted : ∃ feeBps, ∀ delivery ∈ deliveries,
    w.Quotes source asset delivery.amount feeBps delivery.fee delivery.net
  parts : ∀ delivery ∈ deliveries, 0 ≤ delivery.fee.val ∧ 0 ≤ delivery.net.val
  pulled : total.val = (entries.map fun entry => entry.2.val).sum
  refunded : refund.val = w.refused entries
  fees : (w'.counters asset).totalFeesCollected.val =
    (w.counters asset).totalFeesCollected.val + feeTotal deliveries
  bridged : (w'.counters asset).totalBridged.val =
    (w.counters asset).totalBridged.val + netTotal deliveries
  accrued : (w'.counters asset).accruedFees.val =
    (w.counters asset).accruedFees.val + feeTotal deliveries
  calls : w'.invocations = .transfer asset source env.self total ::
    (deliveryCalls env.self asset deliveries ++ payoutCalls env.self asset source refund ++
      rewardCalls env.self recipient w w')

theorem batchFundCAddress_fulfils {env : Env} {source asset : Address} {targets : List Address}
    {amounts : List I128} {nonce deadline : Option UInt64} {w w' : World} {u : Unit}
    (bounded : w.FeesBounded) (fresh : w.invocations = []) (quiet : w.loyaltySkips = [])
    (ran : (batchFundCAddress env source targets amounts asset nonce deadline).run w
      = .ok (u, w')) :
    ∃ deliveries total refund, FulfilsBatch env source asset (targets.zip amounts) deliveries total
      refund (if targets.any w.admits then some source else none) w w' := by
  obtain ⟨mid, ran, left⟩ := nonReentrant_ok ran
  have sofar := Admits.enter env.self w
  iterate 5 (refine sofar.skip ran ?_ fun _ _ sofar ran => ?_; focus simp)
  obtain ⟨lengths, ran⟩ := run_rejectIf_bind_ok.mp ran
  have lengths := not_not.mp lengths
  iterate 2 (refine sofar.skip ran ?_ fun _ _ sofar ran => ?_; focus simp)
  obtain ⟨total, _, validated, ran⟩ := run_bind_ok.mp ran
  obtain ⟨enough, sum, same⟩ := validateAmounts_ok validated
  rw [same] at ran
  refine sofar.skip ran (by simp) fun _ _ sofar ran => ?_
  refine sofar.skip ran (checkDailyLimit_touches _ _ _ _ (by simp)) fun _ _ sofar ran => ?_
  obtain ⟨authorized, ran⟩ := requireAuth_bind_ok.mp ran
  refine sofar.skip ran (consumeNonce_touches _ _ (by simp)) fun _ _ sofar ran => ?_
  obtain ⟨_, t, sofar, -, ran⟩ := sofar.pull (transfer_records ..) (by simp) ran
  simp only [run_view_bind_ok readFeeBps_holds] at ran
  obtain ⟨_, ⟨config, found, rfl⟩, ran⟩ := ran
  rw [run_bind_of_ok (getTieredFeeBps_run ..),
    run_bind_of_ok (getEffectiveFeeBps_ok.mpr ⟨rfl, rfl⟩)] at ran
  have stillBounded := sofar.posted.recorded.feesBounded bounded
  have rate : t.effectiveFeeBps asset (t.tieredFeeBps source asset config.feeBps) ≤ maxFeeBps := by
    refine UInt32.le_trans (World.effectiveFeeBps_le ..) ?_
    exact UInt32.le_trans (World.tieredFeeBps_le ..) (stillBounded.bridgeConfig found)
  have nonneg : ∀ entry ∈ targets.zip amounts, 0 ≤ entry.2.val := fun entry member =>
    (not_le.mp (not_or.mp (enough _ (List.of_mem_zip member).2)).1).le
  obtain ⟨progress, _, delivered, ran⟩ := run_bind_ok.mp ran
  obtain ⟨deliveries, delivers, parts, posted, refund⟩ := deliverBatch_posted rate nonneg delivered
  obtain ⟨-, -, -, successes, -⟩ := deliverBatch_ok rate nonneg delivered
  have quoted : ∀ delivery ∈ deliveries, w.Quotes source asset delivery.amount
      (t.effectiveFeeBps asset (t.tieredFeeBps source asset config.feeBps)) delivery.fee
      delivery.net := by
    intro delivery member
    obtain ⟨charged, rest⟩ := delivers.charged delivery member
    exact sofar.quotes.mp ⟨⟨config, found, rfl⟩, charged, rest⟩
  have entries := delivers.entries
  simp only [sofar.posted.recorded.refused, sofar.posted.recorded.admits] at refund successes entries
  have refund : progress.refundTotal.val = w.refused (targets.zip amounts) := by simpa using refund
  have sofar := sofar.posted.trans posted
  obtain ⟨_, _, sofar, -, ran⟩ := sofar.step (payout_records ..) (payout_sameTotals ..) ran
  refine sofar.skip ran (by simp) fun _ _ sofar ran => ?_
  obtain ⟨_, _, minted, ran⟩ := run_bind_ok.mp ran
  have rewards : Rewarded env (if targets.any w.admits then some source else none) _ _ :=
    batch_rewarded lengths (by simpa using successes) minted
  have later : Posted env.self [] 0 0 _ w' := leave_posted left (publish_touches rfl) ran
  obtain ⟨fees, bridged, accrued⟩ := sofar.counts rewards later quiet asset
  have calls := sofar.calls rewards later fresh quiet
  refine ⟨deliveries, total, progress.refundTotal, entries, ⟨_, quoted⟩, parts, ?_, refund, ?_,
    ?_, ?_, ?_⟩
  · have amounted : (targets.zip amounts).map (fun entry => entry.2.val) =
        amounts.map BoundedInt.val := by
      rw [← Function.comp_def BoundedInt.val Prod.snd, ← List.map_map,
        List.map_snd_zip (Nat.le_of_eq lengths.symm)]
    rw [sum, amounted]
    exact zero_add _
  · simpa [inAsset] using fees
  · simpa [inAsset] using bridged
  · simpa [earmarks_deliveries, inAsset] using accrued
  · simpa [filterMap_deliveries, filterMap_payout, Movement.call?] using calls

end OnboardingBridge.Contract
