import OnboardingBridge.Contract.LoyaltyNeutrality
import OnboardingBridge.Contract.Quotes
import OnboardingBridge.Contract.Whitelist

/-!
# When the delivery loop of a batch goes through

Once the amounts of a batch are pulled, only arithmetic can stop its delivery: the product of a
delivered amount and the rate, or one of the three counters of the asset. From a world in which
none of them is too large the loop goes through (`exists_deliverBatch`).
-/

set_option autoImplicit false

namespace OnboardingBridge.Contract

open Foundations Foundations.Tx

/-! ## Helpers that go through -/

/-- A sum with a part that is not negative fits if it is not too large. -/
theorem exists_sum {a : I128} {b : Int} (nonneg : 0 ≤ b) (fits : a.val + b ≤ I128.maxValue) :
    ∃ sum : I128, sum.val = a.val + b := by
  have lower := a.lower
  exact I128.exists_val.mpr ⟨by omega, fits⟩

/-- The access check itself does not fail on a configured contract. -/
theorem accessError_run {w : World} (configured : ∃ config, w.bridgeConfig? = some config)
    (target : Address) : ∃ error, (accessError target).run w = .ok (error, w) ∧
      (error = none ↔ w.admits target = true) := by
  obtain ⟨config, found⟩ := configured
  have mode : allowlistMode.run w = .ok (config.allowlistMode, w) := by
    simp only [allowlistMode, run_bind_ok, readConfig_ok, run_pure_ok]
    exact ⟨_, _, ⟨config, found, rfl, rfl⟩, rfl, rfl⟩
  have looked : ∃ error, (accessError target).run w = .ok (error, w) := by
    rw [accessError, run_read_bind]
    split
    · exact ⟨_, rfl⟩
    · rw [run_bind_of_ok mode, run_read_bind]
      split
      · exact ⟨_, rfl⟩
      · exact ⟨_, rfl⟩
  obtain ⟨error, ran⟩ := looked
  exact ⟨error, ran, (accessError_ok ran).1⟩

theorem updateAssetCounters_run {w : World} {asset : Address} {fees bridged : I128}
    (feesNonneg : 0 ≤ fees.val) (bridgedNonneg : 0 ≤ bridged.val)
    (accrued : (w.counters asset).accruedFees.val + fees.val ≤ I128.maxValue)
    (total : (w.counters asset).totalBridged.val + bridged.val ≤ I128.maxValue)
    (collected : (w.counters asset).totalFeesCollected.val + fees.val ≤ I128.maxValue) :
    ∃ counters : AssetCounters,
      (updateAssetCounters asset fees bridged).run w =
        .ok ((), w.put (.assetStats asset) counters) ∧
      counters.accruedFees.val = (w.counters asset).accruedFees.val + fees.val ∧
      counters.totalBridged.val = (w.counters asset).totalBridged.val + bridged.val ∧
      counters.totalFeesCollected.val = (w.counters asset).totalFeesCollected.val + fees.val ∧
      counters.lockedTimelock = (w.counters asset).lockedTimelock := by
  obtain ⟨accrued', accruedVal⟩ := exists_sum feesNonneg accrued
  obtain ⟨total', totalVal⟩ := exists_sum bridgedNonneg total
  obtain ⟨collected', collectedVal⟩ := exists_sum feesNonneg collected
  refine ⟨{ w.counters asset with
    accruedFees := accrued', totalBridged := total', totalFeesCollected := collected' }, ?_,
    accruedVal, totalVal, collectedVal, rfl⟩
  rw [updateAssetCounters, updateAssetCountersSplit, run_read_bind, safeAdd_ok.mpr accruedVal,
    safeAdd_ok.mpr totalVal, safeAdd_ok.mpr collectedVal]
  rfl

/-- The bridge pays what it holds out of an exact ledger, and is left with the rest at least. -/
theorem payout_run {env : Env} (accepted : ∀ call, env.refuses call = false) {w : World}
    (exact : w.tokens.Exact) {asset : Address} (dst : Address) {amount : I128}
    (covered : amount.val ≤ (w.tokens.balance asset env.self).val) :
    ∃ p, (onlyIf (0 < amount.val) (transfer env asset env.self dst amount)).run w =
        .ok ((), p) ∧ p.store = w.store ∧ p.tokens.Exact ∧
      (w.tokens.balance asset env.self).val - max 0 amount.val ≤
        (p.tokens.balance asset env.self).val := by
  by_cases positive : 0 < amount.val
  · obtain ⟨moved, moves⟩ : ∃ moved, w.tokens.move asset env.self dst amount = some moved :=
      exact.exists_move positive.le covered
    refine ⟨w.settle moved (.transfer asset env.self dst amount), ?_, rfl, exact.move moves, ?_⟩
    · rw [onlyIf, if_pos positive]
      exact pay_ok.mpr ⟨accepted _, moved, moves, rfl⟩
    · obtain ⟨-, -, -, balances⟩ := TokenLedger.move_eq_some moves
      rw [World.settle_tokens, balances, if_pos (And.intro rfl rfl)]
      split
      · omega
      · omega
  · refine ⟨w, ?_, rfl, exact, ?_⟩
    · rw [onlyIf, if_neg positive]
      rfl
    · omega

/-! ## The sums over what is delivered -/

section Sums

variable (accepts : Address → Bool)

/-- The fees of the entries whose target is accepted. -/
def deliveredFees (feeBps : UInt32) (entries : List (Address × I128)) : Int :=
  ((entries.filter fun entry => accepts entry.1).map fun entry =>
    feeAt entry.2.val feeBps.toNat).sum

/-- The amounts of these entries. -/
def deliveredAmounts (entries : List (Address × I128)) : Int :=
  ((entries.filter fun entry => accepts entry.1).map fun entry => entry.2.val).sum

/-- The amounts of all entries. -/
def entriesTotal (entries : List (Address × I128)) : Int :=
  (entries.map fun entry => entry.2.val).sum

variable {accepts} {feeBps : UInt32} {entry : Address × I128} {rest : List (Address × I128)}

@[simp] theorem deliveredFees_nil : deliveredFees accepts feeBps [] = 0 := rfl

theorem deliveredFees_accepted (accepted : accepts entry.1 = true) :
    deliveredFees accepts feeBps (entry :: rest) =
      feeAt entry.2.val feeBps.toNat + deliveredFees accepts feeBps rest := by
  simp [deliveredFees, accepted]

theorem deliveredFees_refused (refused : accepts entry.1 = false) :
    deliveredFees accepts feeBps (entry :: rest) = deliveredFees accepts feeBps rest := by
  simp [deliveredFees, refused]

@[simp] theorem deliveredAmounts_nil : deliveredAmounts accepts [] = 0 := rfl

theorem deliveredAmounts_accepted (accepted : accepts entry.1 = true) :
    deliveredAmounts accepts (entry :: rest) =
      entry.2.val + deliveredAmounts accepts rest := by
  simp [deliveredAmounts, accepted]

theorem deliveredAmounts_refused (refused : accepts entry.1 = false) :
    deliveredAmounts accepts (entry :: rest) = deliveredAmounts accepts rest := by
  simp [deliveredAmounts, refused]

@[simp] theorem entriesTotal_cons :
    entriesTotal (entry :: rest) = entry.2.val + entriesTotal rest := List.sum_cons

theorem entriesTotal_nonneg {entries : List (Address × I128)}
    (positive : ∀ entry ∈ entries, 0 < entry.2.val) : 0 ≤ entriesTotal entries := by
  refine List.sum_nonneg fun amount member => ?_
  obtain ⟨entry, listed, rfl⟩ := List.mem_map.mp member
  exact (positive entry listed).le

theorem deliveredAmounts_nonneg {entries : List (Address × I128)}
    (positive : ∀ entry ∈ entries, 0 < entry.2.val) : 0 ≤ deliveredAmounts accepts entries := by
  refine List.sum_nonneg fun amount member => ?_
  obtain ⟨entry, listed, rfl⟩ := List.mem_map.mp member
  exact (positive entry (List.mem_of_mem_filter listed)).le

theorem deliveredFees_nonneg {entries : List (Address × I128)}
    (positive : ∀ entry ∈ entries, 0 < entry.2.val) :
    0 ≤ deliveredFees accepts feeBps entries := by
  refine List.sum_nonneg fun fee member => ?_
  obtain ⟨entry, listed, rfl⟩ := List.mem_map.mp member
  have amount := positive entry (List.mem_of_mem_filter listed)
  exact Int.ediv_nonneg (by positivity) (by decide)

/-- At a rate within bounds the fees are a part of the amounts. -/
theorem deliveredFees_le {entries : List (Address × I128)} (rate : feeBps ≤ maxFeeBps)
    (positive : ∀ entry ∈ entries, 0 < entry.2.val) :
    deliveredFees accepts feeBps entries ≤ deliveredAmounts accepts entries := by
  refine List.sum_le_sum fun entry listed => ?_
  exact (feeAt_bounds (positive entry (List.mem_of_mem_filter listed)).le rate).2

end Sums

/-! ## The loop -/

/-- A world in which the delivery loop can go on with some entries. -/
structure CanDeliver (env : Env) (asset : Address) (feeBps : UInt32) (accepts : Address → Bool)
    (progress : BatchProgress) (entries : List (Address × I128)) (w : World) : Prop where
  exact : w.tokens.Exact
  configured : ∃ config, w.bridgeConfig? = some config
  admits : w.admits = accepts
  positive : ∀ entry ∈ entries, 0 < entry.2.val
  few : progress.successes.toNat + progress.failures.toNat + entries.length < 2 ^ 32
  refund : 0 ≤ progress.refundTotal.val
  held : progress.refundTotal.val + entriesTotal entries ≤ (w.tokens.balance asset env.self).val
  products : ∀ entry ∈ entries, accepts entry.1 = true →
    entry.2.val * feeBps.toNat ≤ I128.maxValue
  accrued : (w.counters asset).accruedFees.val + deliveredFees accepts feeBps entries ≤
    I128.maxValue
  collected : (w.counters asset).totalFeesCollected.val + deliveredFees accepts feeBps entries ≤
    I128.maxValue
  bridged : (w.counters asset).totalBridged.val
    + (deliveredAmounts accepts entries - deliveredFees accepts feeBps entries) ≤ I128.maxValue

namespace CanDeliver

variable {env : Env} {asset source : Address} {feeBps : UInt32} {accepts : Address → Bool}
  {progress : BatchProgress} {entry : Address × I128} {rest : List (Address × I128)} {w : World}

/-- An entry whose target is refused is counted for the refund. -/
theorem refuse (can : CanDeliver env asset feeBps accepts progress (entry :: rest) w)
    (refused : accepts entry.1 = false) (event : Event) {failures : UInt32}
    (counted : failures.toNat = progress.failures.toNat + 1) {refundTotal : I128}
    (total : refundTotal.val = progress.refundTotal.val + entry.2.val) :
    CanDeliver env asset feeBps accepts { progress with failures, refundTotal } rest
      (w.emit event) := by
  obtain ⟨here, later⟩ := List.forall_mem_cons.mp can.positive
  have few := can.few
  refine ⟨can.exact, can.configured, can.admits, later, ?_, ?_, ?_,
    (List.forall_mem_cons.mp can.products).2, ?_, ?_, ?_⟩
  · rw [List.length_cons] at few
    simp only [counted]
    omega
  · have start := can.refund
    simp only [total]
    omega
  · have held := can.held
    rw [entriesTotal_cons] at held
    simp only [World.emit_tokens, total]
    omega
  · have accrued := can.accrued
    rwa [deliveredFees_refused refused] at accrued
  · have collected := can.collected
    rwa [deliveredFees_refused refused] at collected
  · have bridged := can.bridged
    rwa [deliveredFees_refused refused, deliveredAmounts_refused refused] at bridged

/-- An entry whose target is accepted is paid and counted. -/
theorem deliver (can : CanDeliver env asset feeBps accepts progress (entry :: rest) w)
    (rate : feeBps ≤ maxFeeBps) (accepted : accepts entry.1 = true) {fee net : I128}
    (feeVal : fee.val = feeAt entry.2.val feeBps.toNat) (netVal : net.val = entry.2.val - fee.val)
    {p : World} (store : p.store = w.store) (exact : p.tokens.Exact)
    (held : (w.tokens.balance asset env.self).val - max 0 net.val ≤
      (p.tokens.balance asset env.self).val) {counters : AssetCounters}
    (accrued : counters.accruedFees.val = (w.counters asset).accruedFees.val + fee.val)
    (bridged : counters.totalBridged.val = (w.counters asset).totalBridged.val + net.val)
    (collected : counters.totalFeesCollected.val =
      (w.counters asset).totalFeesCollected.val + fee.val) (event : Event) {successes : UInt32}
    (counted : successes.toNat = progress.successes.toNat + 1) :
    CanDeliver env asset feeBps accepts { progress with successes } rest
      ((p.put (.assetStats asset) counters).emit event) := by
  obtain ⟨here, later⟩ := List.forall_mem_cons.mp can.positive
  obtain ⟨feeNonneg, feeLe⟩ := feeAt_bounds here.le rate
  have few := can.few
  have other {key : DataKey} (different : key ≠ .assetStats asset) :
      ((p.put (.assetStats asset) counters).emit event).store key = w.store key := by
    rw [World.emit_store, World.put_store, KeyedStore.set_of_ne _ different, store]
  have config : ((p.put (.assetStats asset) counters).emit event).bridgeConfig? =
      w.bridgeConfig? := by
    unfold World.bridgeConfig?
    rw [other (by simp), other (by simp), other (by simp), other (by simp)]
  have now : ((p.put (.assetStats asset) counters).emit event).counters asset = counters := by
    simp [World.counters]
  refine ⟨exact, config ▸ can.configured, ?_, later, ?_, can.refund, ?_,
    (List.forall_mem_cons.mp can.products).2, ?_, ?_, ?_⟩
  · rw [← can.admits]
    funext target
    unfold World.admits World.isBlocked World.isAllowlisted
    rw [config, other (by simp), other (by simp)]
  · rw [List.length_cons] at few
    simp only [counted]
    omega
  · have before := can.held
    rw [entriesTotal_cons] at before
    simp only [World.emit_tokens, World.put_tokens]
    omega
  · have before := can.accrued
    rw [deliveredFees_accepted accepted] at before
    rw [now, accrued]
    omega
  · have before := can.collected
    rw [deliveredFees_accepted accepted] at before
    rw [now, collected]
    omega
  · have before := can.bridged
    rw [deliveredFees_accepted accepted, deliveredAmounts_accepted accepted] at before
    rw [now, bridged]
    omega

/-- The loop takes one entry after the other. -/
theorem step (source : Address) (accepted : ∀ call, env.refuses call = false)
    (rate : feeBps ≤ maxFeeBps)
    (can : CanDeliver env asset feeBps accepts progress (entry :: rest) w) :
    ∃ progress' w', CanDeliver env asset feeBps accepts progress' rest w' ∧
      (deliverBatch env source asset feeBps progress (entry :: rest)).run w =
        (deliverBatch env source asset feeBps progress' rest).run w' := by
  obtain ⟨target, amount⟩ := entry
  obtain ⟨positive, later⟩ := List.forall_mem_cons.mp can.positive
  have here : 0 < amount.val := positive
  have others := entriesTotal_nonneg later
  have refund := can.refund
  have held : progress.refundTotal.val + (amount.val + entriesTotal rest) ≤
      (w.tokens.balance asset env.self).val := can.held
  have few := can.few
  rw [List.length_cons] at few
  obtain ⟨error, looked, admitted⟩ := accessError_run can.configured target
  rw [can.admits] at admitted
  rw [deliverBatch, run_bind_of_ok looked]
  have balance : (w.tokens.balance asset env.self).val ≤ I128.maxValue :=
    (w.tokens.balance asset env.self).upper
  cases error with
  | some reason =>
      have refused : accepts target = false := by simpa using admitted
      obtain ⟨refundTotal, total⟩ : ∃ refundTotal : I128,
          refundTotal.val = progress.refundTotal.val + amount.val :=
        exists_sum here.le (by omega)
      have fewer : progress.failures.toNat + 1 < 2 ^ 32 := by omega
      obtain ⟨failures, incremented, counted⟩ := incrementU32_run fewer w
      refine ⟨_, _, can.refuse refused (.batchTransferFailed source target amount) counted total,
        ?_⟩
      rw [Option.isSome_some, if_pos rfl, run_bind_of_ok incremented, safeAdd_ok.mpr total]
      rfl
  | none =>
      have passes : accepts target = true := admitted.mp rfl
      obtain ⟨fee, charged⟩ :=
        exists_calculateFee here.le ((List.forall_mem_cons.mp can.products).1 passes)
      have feeVal : fee.val = feeAt amount.val feeBps.toNat :=
        ((calculateFee_charges here.le).mp charged).2
      obtain ⟨feeNonneg, feeLe⟩ := feeAt_bounds here.le rate
      obtain ⟨net, netVal⟩ : ∃ net : I128, net.val = amount.val - fee.val :=
        I128.exists_val.mpr ⟨by omega, by omega⟩
      have covered : net.val ≤ (w.tokens.balance asset env.self).val := by omega
      obtain ⟨p, paid, store, exact, left⟩ := payout_run accepted can.exact target covered
      have same : p.counters asset = w.counters asset := by
        rw [World.counters, World.counters, store]
      have restFees : 0 ≤ deliveredFees accepts feeBps rest := deliveredFees_nonneg later
      have restPart : deliveredFees accepts feeBps rest ≤ deliveredAmounts accepts rest :=
        deliveredFees_le rate later
      have accrued := can.accrued
      have collected := can.collected
      have bridged := can.bridged
      rw [deliveredFees_accepted passes] at accrued collected bridged
      rw [deliveredAmounts_accepted passes] at bridged
      simp only [← same] at accrued collected bridged
      obtain ⟨counters, updated, accruedVal, bridgedVal, collectedVal, -⟩ :
          ∃ counters : AssetCounters, (updateAssetCounters asset fee net).run p =
            .ok ((), p.put (.assetStats asset) counters) ∧ _ :=
        updateAssetCounters_run (by omega) (by omega) (by omega) (by omega) (by omega)
      rw [same] at accruedVal bridgedVal collectedVal
      have fewer : progress.successes.toNat + 1 < 2 ^ 32 := by omega
      obtain ⟨successes, incremented, counted⟩ :=
        incrementU32_run fewer (p.put (.assetStats asset) counters)
      refine ⟨_, _, can.deliver rate passes feeVal netVal store exact left accruedVal bridgedVal
        collectedVal (.cAddressFunded asset source target amount fee) counted, ?_⟩
      have charges : (liftResult (calculateFee amount feeBps)).run w = .ok (fee, w) := by
        rw [charged]
        rfl
      have leaves : (liftResult (safeSub amount fee)).run w = .ok (net, w) := by
        rw [safeSub_ok.mpr netVal]
        rfl
      rw [Option.isSome_none, if_neg Bool.false_ne_true, run_bind_of_ok charges,
        run_bind_of_ok leaves, run_bind_of_ok paid, run_bind_of_ok updated,
        run_bind_of_ok incremented]
      rfl

end CanDeliver

/-- The loop goes through, and the refund is still there in the end. -/
theorem exists_deliverBatch {env : Env} (accepted : ∀ call, env.refuses call = false)
    (source : Address) {asset : Address} {feeBps : UInt32} (rate : feeBps ≤ maxFeeBps)
    {accepts : Address → Bool} {entries : List (Address × I128)} {progress : BatchProgress}
    {w : World} (can : CanDeliver env asset feeBps accepts progress entries w) :
    ∃ result w', (deliverBatch env source asset feeBps progress entries).run w =
        .ok (result, w') ∧ CanDeliver env asset feeBps accepts result [] w' := by
  induction entries generalizing progress w with
  | nil => exact ⟨progress, w, rfl, can⟩
  | cons entry rest later =>
      obtain ⟨progress', w', can', same⟩ := can.step source accepted rate
      rw [same]
      exact later can'

end OnboardingBridge.Contract
