import OnboardingBridge.Contract.Storage

/-!
# What the reading helpers return

The helpers that only read return a view of the world and leave it as it was.
The fee of an amount lies between zero and the amount when the rate does not
exceed the denominator, and the rates the contract stores never do
(`World.FeesBounded`).
-/

set_option autoImplicit false

namespace OnboardingBridge.Contract

open Foundations Foundations.Tx

/-! ## Configuration -/

theorem readBridgeConfig_ok {w w' : World} {config : BridgeConfigData} :
    readBridgeConfig.run w = .ok (config, w') ↔ w.bridgeConfig? = some config ∧ w' = w := by
  simp only [readBridgeConfig, run_bind_ok, run_read_ok, run_ofOption_ok]
  constructor
  · rintro ⟨_, _, ⟨rfl, rfl⟩, stored, rfl⟩
    exact ⟨stored, rfl⟩
  · rintro ⟨stored, rfl⟩
    exact ⟨_, _, ⟨rfl, rfl⟩, stored, rfl⟩

theorem readConfig_ok {w w' : World} {config : BridgeConfig} :
    readConfig.run w = .ok (config, w') ↔
      ∃ stored, w.bridgeConfig? = some stored ∧
        config = ⟨stored.feeBps, stored.paused, stored.allowlistMode⟩ ∧ w' = w := by
  simp only [readConfig, run_bind_ok, readBridgeConfig_ok, run_pure_ok]
  constructor
  · rintro ⟨stored, _, ⟨found, rfl⟩, rfl, rfl⟩
    exact ⟨stored, found, rfl, rfl⟩
  · rintro ⟨stored, found, rfl, rfl⟩
    exact ⟨stored, _, ⟨found, rfl⟩, rfl, rfl⟩

theorem readFeeBps_ok {w w' : World} {feeBps : UInt32} :
    readFeeBps.run w = .ok (feeBps, w') ↔
      ∃ stored, w.bridgeConfig? = some stored ∧ feeBps = stored.feeBps ∧ w' = w := by
  simp only [readFeeBps, run_bind_ok, readBridgeConfig_ok, run_pure_ok]
  constructor
  · rintro ⟨stored, _, ⟨found, rfl⟩, rfl, rfl⟩
    exact ⟨stored, found, rfl, rfl⟩
  · rintro ⟨stored, found, rfl, rfl⟩
    exact ⟨stored, _, ⟨found, rfl⟩, rfl, rfl⟩

theorem readAdmin_ok {w w' : World} {admin : Address} :
    readAdmin.run w = .ok (admin, w') ↔ w.admin? = some admin ∧ w' = w := by
  rw [readAdmin, run_read_bind, run_ofOption_ok]

theorem readFeeCollector_ok {w w' : World} {feeCollector : Address} :
    readFeeCollector.run w = .ok (feeCollector, w') ↔
      w.feeCollector? = some feeCollector ∧ w' = w := by
  rw [readFeeCollector, run_read_bind, run_ofOption_ok]

theorem incrementU64_ok {n next : UInt64} {w w' : World} :
    (incrementU64 n).run w = .ok (next, w') ↔
      n.toNat + 1 < 2 ^ 64 ∧ next = n + 1 ∧ w' = w := by
  rw [incrementU64, run_ofOption_ok, ← and_assoc, Option.ite_none_right_eq_some, Option.some.injEq,
    eq_comm]

/-- A nonce that is given is the stored one, and the next one is stored. -/
theorem consumeNonce_ok {caller : Address} {nonce : Option UInt64} {w w' : World} {u : Unit} :
    (consumeNonce caller nonce).run w = .ok (u, w') ↔
      match nonce with
      | none => w' = w
      | some n => n = w.nonceOf caller ∧ n.toNat + 1 < 2 ^ 64 ∧ w' = w.put (.nonce caller) (n + 1) := by
  cases nonce with
  | none => simp [consumeNonce, eq_comm]
  | some n =>
    simp only [consumeNonce]
    rw [run_read_bind, run_rejectIf_bind_ok, ne_eq, not_not]
    constructor
    · rintro ⟨same, ran⟩
      obtain ⟨next, _, incremented, saved⟩ := run_bind_ok.mp ran
      obtain ⟨fits, rfl, rfl⟩ := incrementU64_ok.mp incremented
      rw [← same] at fits saved
      exact ⟨same, fits, run_modify_ok.mp saved⟩
    · rintro ⟨same, fits, rfl⟩
      refine ⟨same, run_bind_ok.mpr ⟨n + 1, w, ?_, run_modify_ok.mpr rfl⟩⟩
      rw [← same]
      exact incrementU64_ok.mpr ⟨fits, rfl, rfl⟩

/-- Consuming a nonce stores nothing else and publishes nothing. -/
theorem consumeNonce_leaves {caller : Address} {nonce : Option UInt64} {w w' : World} {u : Unit}
    (ran : (consumeNonce caller nonce).run w = .ok (u, w')) :
    (∀ key, key ≠ .nonce caller → w'.store key = w.store key) ∧ w'.events = w.events := by
  have consumed := consumeNonce_ok.mp ran
  cases nonce with
  | none =>
    obtain rfl : w' = w := consumed
    exact ⟨fun _ _ => rfl, rfl⟩
  | some n =>
    obtain ⟨-, -, rfl⟩ := consumed
    exact ⟨fun key other => by simp [other], rfl⟩

theorem checkInitialized_ok {w w' : World} {u : Unit} :
    checkInitialized.run w = .ok (u, w') ↔ w.initialized = true ∧ w' = w := by
  rw [checkInitialized, run_read_bind, run_rejectIf_ok, Bool.not_eq_false]

/-- Whether the calls that recover funds are open: the contract is deactivated,
or it is not paused. -/
def World.recoveryAllowed (w : World) : Prop :=
  w.deactivated = true ∨ ∃ config, w.bridgeConfig? = some config ∧ config.paused = false

theorem checkRecoveryAllowed_ok {w w' : World} {u : Unit} :
    checkRecoveryAllowed.run w = .ok (u, w') ↔ w.recoveryAllowed ∧ w' = w := by
  rw [checkRecoveryAllowed, run_read_bind, World.recoveryAllowed]
  split
  · next deactivated =>
    rw [run_pure_ok]
    simp [deactivated]
  · next active =>
    simp only [readPaused, run_bind_ok, readConfig_ok, run_pure_ok, run_rejectIf_ok]
    constructor
    · rintro ⟨_, _, ⟨_, _, ⟨stored, found, rfl, rfl⟩, rfl, rfl⟩, running, rfl⟩
      exact ⟨.inr ⟨stored, found, Bool.not_eq_true _ ▸ running⟩, rfl⟩
    · rintro ⟨closed | ⟨stored, found, running⟩, rfl⟩
      · exact (active closed).elim
      · exact ⟨_, _, ⟨_, _, ⟨stored, found, rfl, rfl⟩, rfl, rfl⟩, by simp [running], rfl⟩

/-- Whether the contract takes new deposits: it is neither deactivated nor
paused. -/
def World.running (w : World) : Prop :=
  w.deactivated = false ∧ ∃ config, w.bridgeConfig? = some config ∧ config.paused = false

theorem checkNotPaused_ok {w w' : World} {u : Unit} :
    checkNotPaused.run w = .ok (u, w') ↔ w.running ∧ w' = w := by
  simp only [checkNotPaused, checkNotDeactivated, readPaused, run_bind_ok, run_read_ok,
    readConfig_ok, run_pure_ok, run_rejectIf_ok, World.running]
  constructor
  · rintro ⟨_, _, ⟨_, _, ⟨rfl, rfl⟩, active, rfl⟩, _, _, ⟨_, _, ⟨stored, found, rfl, rfl⟩, rfl,
      rfl⟩, running, rfl⟩
    exact ⟨⟨Bool.not_eq_true _ ▸ active, stored, found, Bool.not_eq_true _ ▸ running⟩, rfl⟩
  · rintro ⟨⟨active, stored, found, running⟩, rfl⟩
    exact ⟨(), _, ⟨_, _, ⟨rfl, rfl⟩, by simp [active], rfl⟩, _, _,
      ⟨_, _, ⟨stored, found, rfl, rfl⟩, rfl, rfl⟩, by simp [running], rfl⟩

/-- No stored fee rate exceeds the largest rate. -/
structure World.FeesBounded (w : World) : Prop where
  config : ∀ config, w.store .bridgeConfig = some config → config.feeBps ≤ maxFeeBps
  legacy : ∀ feeBps, w.store .feeBps = some feeBps → feeBps ≤ maxFeeBps

theorem World.FeesBounded.bridgeConfig {w : World} (bounded : w.FeesBounded)
    {config : BridgeConfigData} (found : w.bridgeConfig? = some config) :
    config.feeBps ≤ maxFeeBps := by
  unfold World.bridgeConfig? at found
  cases stored : w.store .bridgeConfig with
  | some config' =>
    simp only [stored, Option.some.injEq] at found
    exact found ▸ bounded.config config' stored
  | none =>
    simp only [stored, Option.bind_eq_bind, Option.bind_eq_some_iff, Option.pure_def,
      Option.some.injEq] at found
    obtain ⟨_, -, _, -, rfl⟩ := found
    cases legacy : w.store .feeBps with
    | some feeBps => simpa [legacy] using bounded.legacy feeBps legacy
    | none => simp [maxFeeBps]

/-! ## Fee rates -/

theorem u32_min_le_left (a b : UInt32) : min a b ≤ a := by
  change (if a ≤ b then a else b) ≤ a
  split
  · exact UInt32.le_refl a
  · next larger => exact UInt32.le_of_lt (UInt32.not_le.mp larger)

/-- The rate in force for an asset, at a given global rate. -/
def World.effectiveFeeBps (w : World) (asset : Address) (globalFeeBps : UInt32) : UInt32 :=
  if globalFeeBps = 0 then 0 else min globalFeeBps (w.assetFeeCap asset)

theorem getEffectiveFeeBps_ok {w w' : World} {asset : Address} {globalFeeBps feeBps : UInt32} :
    (getEffectiveFeeBps asset globalFeeBps).run w = .ok (feeBps, w') ↔
      feeBps = w.effectiveFeeBps asset globalFeeBps ∧ w' = w := by
  unfold getEffectiveFeeBps World.effectiveFeeBps
  split
  · exact run_pure_ok
  · simp only [run_bind_ok, run_read_ok, run_pure_ok]
    constructor
    · rintro ⟨_, _, ⟨rfl, rfl⟩, rfl, rfl⟩
      exact ⟨rfl, rfl⟩
    · rintro ⟨rfl, rfl⟩
      exact ⟨_, _, ⟨rfl, rfl⟩, rfl, rfl⟩

theorem World.effectiveFeeBps_le (w : World) (asset : Address) (globalFeeBps : UInt32) :
    w.effectiveFeeBps asset globalFeeBps ≤ globalFeeBps := by
  unfold World.effectiveFeeBps
  split
  · next zero => simp [zero]
  · exact u32_min_le_left _ _

/-- A tier lowers the rate or leaves it. -/
theorem getTieredFeeBps_ok {w w' : World} {source asset : Address} {fallbackBps feeBps : UInt32}
    (ran : (getTieredFeeBps source asset fallbackBps).run w = .ok (feeBps, w')) :
    feeBps ≤ fallbackBps ∧ w' = w := by
  simp only [getTieredFeeBps, run_bind_ok, run_read_ok] at ran
  obtain ⟨_, _, ⟨rfl, rfl⟩, _, _, ⟨rfl, rfl⟩, ran⟩ := ran
  split at ran
  · obtain ⟨rfl, rfl⟩ := run_pure_ok.mp ran
    exact ⟨u32_min_le_left _ _, rfl⟩
  · obtain ⟨rfl, rfl⟩ := run_pure_ok.mp ran
    exact ⟨UInt32.le_refl _, rfl⟩

/-- The fee is the amount times the rate over the denominator, and fails when
the product does not fit. -/
theorem calculateFee_ok {amount fee : I128} {feeBps : UInt32} :
    calculateFee amount feeBps = .ok fee ↔
      fee.val = (amount.val * feeBps.toNat).tdiv 10000 ∧
        (feeBps = 0 ∨ ∃ product : I128, product.val = amount.val * feeBps.toNat) := by
  unfold calculateFee
  split
  · next zero =>
    subst zero
    constructor
    · rintro ⟨⟩
      simp
    · rintro ⟨value, -⟩
      refine congrArg Except.ok (BoundedInt.ext ?_)
      simpa using value.symm
  · next nonzero =>
    have denominator : feeDenominator.val = 10000 := rfl
    cases product : safeMul amount (I128.ofU32 feeBps) with
    | error reason =>
      refine ⟨fun failed => by simp at failed, ?_⟩
      rintro ⟨-, zero | ⟨exact, value⟩⟩
      · exact (nonzero zero).elim
      · rw [safeMul_ok.mpr (by simpa using value)] at product
        simp at product
    | ok exact =>
      have value := safeMul_ok.mp product
      rw [I128.ofU32_val] at value
      simp only [safeDiv_ok, denominator, value]
      refine ⟨fun ⟨_, fee⟩ => ⟨fee, .inr ⟨exact, value⟩⟩, fun ⟨fee, _⟩ => ⟨by decide, fee⟩⟩

/-- A rate that does not exceed the denominator takes a part of the amount. -/
theorem rate_bounds {amount : Int} {rate : Nat} (nonneg : 0 ≤ amount) (part : rate ≤ 10000) :
    0 ≤ amount * rate / 10000 ∧ amount * rate / 10000 ≤ amount := by
  have product : 0 ≤ amount * rate := by positivity
  refine ⟨Int.ediv_nonneg product (by decide), Int.ediv_le_of_le_mul (by decide) ?_⟩
  exact mul_le_mul_of_nonneg_left (by omega) nonneg

theorem UInt32.le_denominator {feeBps : UInt32} (rate : feeBps ≤ maxFeeBps) :
    feeBps.toNat ≤ 10000 := by
  have bound := UInt32.le_iff_toNat_le.mp rate
  have max : maxFeeBps.toNat = 1000 := rfl
  omega

/-- What is worked out at such a rate is a part of the amount. -/
theorem calculateFee_part {amount fee : I128} {feeBps : UInt32} (nonneg : 0 ≤ amount.val)
    (part : feeBps.toNat ≤ 10000) (charged : calculateFee amount feeBps = .ok fee) :
    0 ≤ fee.val ∧ fee.val ≤ amount.val := by
  obtain ⟨value, -⟩ := calculateFee_ok.mp charged
  have product : 0 ≤ amount.val * feeBps.toNat := by positivity
  rw [value, Int.tdiv_eq_ediv_of_nonneg product]
  exact rate_bounds nonneg part

theorem calculateFee_bounds {amount fee : I128} {feeBps : UInt32} (nonneg : 0 ≤ amount.val)
    (rate : feeBps ≤ maxFeeBps) (charged : calculateFee amount feeBps = .ok fee) :
    0 ≤ fee.val ∧ fee.val ≤ amount.val :=
  calculateFee_part nonneg (UInt32.le_denominator rate) charged

/-- The fee of an amount at the rate in force for an asset, if it can be worked
out. -/
def World.feeOf (w : World) (asset : Address) (amount : I128) : Option I128 := do
  let config ← w.bridgeConfig?
  (calculateFee amount (w.effectiveFeeBps asset config.feeBps)).toOption

/-- The fee and the rest of an amount, at the rate in force for a source. -/
theorem charged_ok {β : Type} {source asset : Address} {amount : I128}
    {rest : I128 → I128 → Call β} {w w' : World} {b : β} (bounded : w.FeesBounded)
    (ran : (do
      let globalFeeBps ← readFeeBps
      let tieredFeeBps ← getTieredFeeBps source asset globalFeeBps
      let effectiveFeeBps ← getEffectiveFeeBps asset tieredFeeBps
      let fee ← liftResult (calculateFee amount effectiveFeeBps)
      let netAmount ← liftResult (safeSub amount fee)
      rest fee netAmount).run w = .ok (b, w')) :
    ∃ fee netAmount : I128, netAmount.val = amount.val - fee.val ∧
      (0 ≤ amount.val → 0 ≤ fee.val ∧ 0 ≤ netAmount.val) ∧
      (rest fee netAmount).run w = .ok (b, w') := by
  simp only [run_bind_ok, readFeeBps_ok, getEffectiveFeeBps_ok, run_ofExcept_ok] at ran
  obtain ⟨_, _, ⟨stored, found, rfl, rfl⟩, tieredFeeBps, _, tieredRan, _, _, ⟨rfl, rfl⟩, fee, _,
    ⟨charged, rfl⟩, netAmount, _, ⟨difference, rfl⟩, ran⟩ := ran
  obtain ⟨tiered, rfl⟩ := getTieredFeeBps_ok tieredRan
  have net := safeSub_ok.mp difference
  have rate (w : World) : w.effectiveFeeBps asset tieredFeeBps ≤ maxFeeBps :=
    UInt32.le_trans (UInt32.le_trans (w.effectiveFeeBps_le asset tieredFeeBps) tiered)
      (bounded.bridgeConfig found)
  refine ⟨fee, netAmount, net, fun nonneg => ?_, ran⟩
  obtain ⟨feeNonneg, feeLe⟩ := calculateFee_bounds nonneg (rate _) charged
  exact ⟨feeNonneg, by omega⟩

/-- The same at the rate that no tier lowers, which is a view of the world. -/
theorem charged_untiered_ok {β : Type} {asset : Address} {amount : I128}
    {rest : I128 → I128 → Call β} {w w' : World} {b : β} :
    (do
      let globalFeeBps ← readFeeBps
      let effectiveFeeBps ← getEffectiveFeeBps asset globalFeeBps
      let fee ← liftResult (calculateFee amount effectiveFeeBps)
      let netAmount ← liftResult (safeSub amount fee)
      rest fee netAmount).run w = .ok (b, w') ↔
    ∃ fee netAmount : I128, w.feeOf asset amount = some fee ∧
      netAmount.val = amount.val - fee.val ∧ (rest fee netAmount).run w = .ok (b, w') := by
  have feeOf (fee : I128) : w.feeOf asset amount = some fee ↔
      ∃ config, w.bridgeConfig? = some config ∧
        calculateFee amount (w.effectiveFeeBps asset config.feeBps) = .ok fee := by
    simp only [World.feeOf, Option.bind_eq_bind, Option.bind_eq_some_iff]
    refine exists_congr fun config => and_congr_right fun _ => ?_
    cases calculateFee amount (w.effectiveFeeBps asset config.feeBps) <;> simp [Except.toOption]
  simp only [run_bind_ok, readFeeBps_ok, getEffectiveFeeBps_ok, run_ofExcept_ok, safeSub_ok, feeOf]
  constructor
  · rintro ⟨_, _, ⟨config, found, rfl, rfl⟩, _, _, ⟨rfl, rfl⟩, fee, _, ⟨charged, rfl⟩,
      netAmount, _, ⟨net, rfl⟩, ran⟩
    exact ⟨fee, netAmount, ⟨config, found, charged⟩, net, ran⟩
  · rintro ⟨fee, netAmount, ⟨config, found, charged⟩, net, ran⟩
    exact ⟨_, _, ⟨config, found, rfl, rfl⟩, _, _, ⟨rfl, rfl⟩, fee, _, ⟨charged, rfl⟩, netAmount, _,
      ⟨net, rfl⟩, ran⟩

/-- The fee at the rate in force takes a part of the amount. -/
theorem feeOf_bounds {w : World} {asset : Address} {amount fee : I128} (bounded : w.FeesBounded)
    (nonneg : 0 ≤ amount.val) (charged : w.feeOf asset amount = some fee) :
    0 ≤ fee.val ∧ fee.val ≤ amount.val := by
  simp only [World.feeOf, Option.bind_eq_bind, Option.bind_eq_some_iff] at charged
  obtain ⟨config, found, charged⟩ := charged
  refine calculateFee_bounds nonneg (UInt32.le_trans (w.effectiveFeeBps_le asset config.feeBps)
    (bounded.bridgeConfig found)) ?_
  cases result : calculateFee amount (w.effectiveFeeBps asset config.feeBps) with
  | error reason => simp [result, Except.toOption] at charged
  | ok value =>
    simp only [result, Except.toOption, Option.some.injEq] at charged
    rw [charged]

/-! ## Counters -/

/-- The counters of an asset are updated when the three sums fit. -/
theorem updateAssetCountersSplit_ok {asset : Address} {accrued total bridged : I128}
    {w w' : World} {u : Unit} :
    (updateAssetCountersSplit asset accrued total bridged).run w = .ok (u, w') ↔
      ∃ accruedFees totalBridged totalFeesCollected : I128,
        accruedFees.val = (w.counters asset).accruedFees.val + accrued.val ∧
        totalBridged.val = (w.counters asset).totalBridged.val + bridged.val ∧
        totalFeesCollected.val = (w.counters asset).totalFeesCollected.val + total.val ∧
        w' = w.put (.assetStats asset) { w.counters asset with
          accruedFees, totalBridged, totalFeesCollected } := by
  simp only [updateAssetCountersSplit, run_read_bind, run_ofExcept_bind_ok, safeAdd_ok, save,
    run_modify_ok]
  constructor
  · rintro ⟨accruedFees, accrues, totalBridged, bridges, totalFees, totals, rfl⟩
    exact ⟨accruedFees, totalBridged, totalFees, accrues, bridges, totals, rfl⟩
  · rintro ⟨accruedFees, totalBridged, totalFees, accrues, bridges, totals, rfl⟩
    exact ⟨accruedFees, accrues, totalBridged, bridges, totalFees, totals, rfl⟩

theorem decrementCrosschainReserve_ok {asset : Address} {amount : I128} {w w' : World}
    {u : Unit} : (decrementCrosschainReserve asset amount).run w = .ok (u, w') ↔
      amount.val ≤ (w.crosschainReserve asset).val ∧ ∃ decreased : I128,
        decreased.val = (w.crosschainReserve asset).val - amount.val ∧
        w' = w.put (.crossChainReserve asset) decreased := by
  simp only [decrementCrosschainReserve, run_read_bind, run_rejectIf_bind_ok,
    run_ofExcept_bind_ok, safeSub_ok, save, run_modify_ok, not_lt]

theorem decrementLockedTimelock_ok {asset : Address} {amount : I128} {w w' : World} {u : Unit} :
    (decrementLockedTimelock asset amount).run w = .ok (u, w') ↔ ∃ lockedTimelock : I128,
      lockedTimelock.val = (w.counters asset).lockedTimelock.val - amount.val ∧
      w' = w.put (.assetStats asset) { w.counters asset with lockedTimelock } := by
  simp only [decrementLockedTimelock, run_read_bind, run_ofExcept_bind_ok, safeSub_ok, save,
    run_modify_ok]

/-! ## Access -/

/-- Whether a pool may be used for swaps. -/
def World.isPoolWhitelisted (w : World) (pool : Address) : Bool :=
  (((w.store .poolWhitelist).getD .empty).get pool).getD false

theorem checkPoolWhitelisted_ok {w w' : World} {pool : Address} {u : Unit}
    (ran : (checkPoolWhitelisted pool).run w = .ok (u, w')) :
    w.isPoolWhitelisted pool = true := by
  simp only [checkPoolWhitelisted, run_bind_ok, run_read_ok, run_rejectIf_ok] at ran
  obtain ⟨_, _, ⟨rfl, rfl⟩, passes, -⟩ := ran
  exact Bool.eq_true_of_not_eq_false passes

/-- Whether the access check lets a target through. -/
def World.admits (w : World) (target : Address) : Bool :=
  !w.isBlocked target &&
    !((w.bridgeConfig?.any fun config => config.allowlistMode) && !w.isAllowlisted target)

theorem accessError_ok {w w' : World} {target : Address} {error : Option BridgeError}
    (ran : (accessError target).run w = .ok (error, w')) :
    (error = none ↔ w.admits target = true) ∧
      (error = none → ∃ config, w.bridgeConfig? = some config) ∧ w' = w := by
  simp only [accessError, run_bind_ok, run_read_ok] at ran
  obtain ⟨_, _, ⟨rfl, rfl⟩, ran⟩ := ran
  split at ran
  · next blocked =>
    obtain ⟨rfl, rfl⟩ := run_pure_ok.mp ran
    simp [World.admits, blocked]
  · next free =>
    simp only [allowlistMode, run_bind_ok, readConfig_ok, run_pure_ok, run_read_ok] at ran
    obtain ⟨_, _, ⟨_, _, ⟨stored, found, rfl, rfl⟩, rfl, rfl⟩, _, _, ⟨rfl, rfl⟩, ran⟩ := ran
    have open' : _ = false := Bool.eq_false_iff.mpr free
    split at ran
    · next refused =>
      obtain ⟨rfl, rfl⟩ := run_pure_ok.mp ran
      simp only at refused
      simp [World.admits, found, refused]
    · next passes =>
      obtain ⟨rfl, rfl⟩ := run_pure_ok.mp ran
      cases mode : stored.allowlistMode with
      | false => simp [World.admits, found, mode, open']
      | true => simpa [World.admits, found, mode, open'] using passes

theorem accessError_admits {w : World} {target : Address} (admitted : w.admits target = true)
    {config : BridgeConfigData} (found : w.bridgeConfig? = some config) :
    (accessError target).run w = .ok (none, w) := by
  have free : w.isBlocked target = false := by
    cases blocked : w.isBlocked target with
    | false => rfl
    | true => simp [World.admits, blocked] at admitted
  rw [accessError, run_read_bind, if_neg (by simp [free])]
  have mode : allowlistMode.run w = .ok (config.allowlistMode, w) := by
    simp only [allowlistMode, run_bind_ok, readConfig_ok, run_pure_ok]
    exact ⟨_, _, ⟨config, found, rfl, rfl⟩, rfl, rfl⟩
  rw [run_bind_of_ok mode, run_read_bind, if_neg]
  · rfl
  · simpa [World.admits, free, found, imp_iff_not_or] using admitted

theorem checkAccess_ok {w w' : World} {target : Address} {u : Unit} :
    (checkAccess target).run w = .ok (u, w') ↔
      (w.admits target = true ∧ ∃ config, w.bridgeConfig? = some config) ∧ w' = w := by
  constructor
  · intro ran
    obtain ⟨error, t, checked, ran⟩ := run_bind_ok.mp ran
    obtain ⟨admitted, configured, rfl⟩ := accessError_ok checked
    cases error with
    | some reason => exact absurd ran (by simp)
    | none => exact ⟨⟨admitted.mp rfl, configured rfl⟩, (run_pure_ok.mp ran).2⟩
  · rintro ⟨⟨admitted, config, found⟩, rfl⟩
    rw [checkAccess, run_bind_of_ok (accessError_admits admitted found)]
    rfl

/-- Whether an asset may be bridged. -/
def World.isAssetWhitelisted (w : World) (asset : Address) : Bool :=
  (((w.store .assetWhitelist).getD .empty).get asset).getD false

theorem checkAssetWhitelisted_ok {w w' : World} {asset : Address} {u : Unit} :
    (checkAssetWhitelisted asset).run w = .ok (u, w') ↔
      w.isAssetWhitelisted asset = true ∧ w' = w := by
  rw [checkAssetWhitelisted, run_read_bind, run_rejectIf_ok, Bool.not_eq_false]
  rfl

end OnboardingBridge.Contract
