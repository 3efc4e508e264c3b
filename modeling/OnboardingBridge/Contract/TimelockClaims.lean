import Mathlib.Algebra.Order.BigOperators.Group.Finset
import OnboardingBridge.Contract.Fees
import OnboardingBridge.Contract.Timelocks

/-!
# Which timelocks can be claimed

A mature entry whose amount the bridge holds is claimed unless the arithmetic of
the claim fails (`claimable_iff`). The fee is worked out at the claim only, and
its product may exceed an `i128` for an amount the deposit accepted, which
`fundCAddress` would have refused.
-/

set_option autoImplicit false

namespace OnboardingBridge.Contract

open Foundations Foundations.Tx

/-! ## Stored entries -/

theorem fundCAddressTimelocked_initialized {env : Env} {source target asset : Address}
    {amount : I128} {releaseTime cliffTime : UInt64} {nonce deadline : Option UInt64} {w w' : World}
    {id : UInt64} (ran : (fundCAddressTimelocked env source target asset amount releaseTime
      cliffTime nonce deadline).run w = .ok (id, w')) : w.initialized = true := by
  obtain ⟨mid, ran, -⟩ := nonReentrant_ok ran
  obtain ⟨_, opened, -⟩ := (run_view_bind_ok checkInitialized_ok).mp ran
  rwa [(enter_recorded env.self w).initialized] at opened

/-- A contract in which a timelock entry is stored is initialized. -/
def World.EntriesInitialized (w : World) : Prop :=
  ∀ id entry, w.store (.timelock id) = some entry → w.initialized = true

theorem execute_entriesInitialized {env : Env} {request : Request} {reply : Reply} {w w' : World}
    (kept : w.EntriesInitialized) (ran : (execute env request).run w = .ok (reply, w')) :
    w'.EntriesInitialized := by
  intro id entry stored
  refine execute_initialized ?_ ran
  cases request
  case fundCAddressTimelocked =>
    obtain ⟨_, ran, -⟩ := replying_ok.mp ran
    exact fundCAddressTimelocked_initialized ran
  case claimTimelocked claimed =>
    obtain ⟨_, ran, -⟩ := replying_ok.mp ran
    exact (claimTimelocked_ok.mp ran).2.1
  all_goals
    rw [(execute_frame env _ ran).store _ (by simp [Request.writes, dailyUsages])] at stored
    exact kept id entry stored

theorem Reachable.entriesInitialized {host : Host} {w : World} (reachable : Reachable host w) :
    w.EntriesInitialized := by
  obtain ⟨start, labels, fresh, run⟩ := reachable
  refine run_world_invariant World.EntriesInitialized (fun _ => True) ?_ ?_ run
    (fun _ _ => trivial) ?_
  · intro call _ _ kept ran
    have kept : call.before.begin.EntriesInitialized := kept
    exact execute_entriesInitialized kept ran
  · exact fun _ _ _ kept => kept
  · intro id entry stored
    simp [fresh.store] at stored

/-! ## What the counters cover -/

/-- No entry locks a negative amount. -/
theorem lockedBy_nonneg {w : World} (kept : w.DepositsKept) (asset : Address) (id : UInt64) :
    0 ≤ lockedBy asset (w.store (.timelock id)) := by
  unfold lockedBy
  split
  · next entry stored =>
    have positive := (kept id entry stored).2
    unfold inAsset
    split
    · split
      · exact positive.le
      · exact le_rfl
    · exact le_rfl
  · exact le_rfl

/-- The locked counter covers each unclaimed entry. -/
theorem Reachable.locked_covers {host : Host} {w : World} (reachable : Reachable host w)
    {id : UInt64} {entry : TimelockEntry} (stored : w.store (.timelock id) = some entry)
    (unclaimed : entry.claimed = false) :
    entry.amount.val ≤ (w.counters entry.asset).lockedTimelock.val := by
  rw [reachable.lockedAgrees]
  have here : lockedBy entry.asset (w.store (.timelock id)) = entry.amount.val := by
    simp [stored, lockedBy, unclaimed, inAsset]
  rw [← here]
  exact Finset.single_le_sum
    (fun id _ => lockedBy_nonneg reachable.sound.deposits entry.asset id) (Finset.mem_univ id)

/-! ## The arithmetic of a claim -/

/-- The arithmetic of a claim succeeds: at the rate in force, the product of the
amount and the rate is an `i128`, and so are the accrued fees, the fees
collected and the total bridged after the claim. -/
def World.ClaimFits (w : World) (asset : Address) (amount : I128) : Prop :=
  ∃ config, w.bridgeConfig? = some config ∧
    let rate : Int := (w.effectiveFeeBps asset config.feeBps).toNat
    amount.val * rate ≤ I128.maxValue ∧
    (w.counters asset).accruedFees.val + feeAt amount.val rate ≤ I128.maxValue ∧
    (w.counters asset).totalFeesCollected.val + feeAt amount.val rate ≤ I128.maxValue ∧
    (w.counters asset).totalBridged.val + (amount.val - feeAt amount.val rate) ≤ I128.maxValue

/-- The fee of a positive amount at the rate in force. -/
theorem feeOf_eq_some {w : World} {asset : Address} {amount fee : I128} (nonneg : 0 ≤ amount.val) :
    w.feeOf asset amount = some fee ↔ ∃ config, w.bridgeConfig? = some config ∧
      let rate : Int := (w.effectiveFeeBps asset config.feeBps).toNat
      fee.val = feeAt amount.val rate ∧ amount.val * rate ≤ I128.maxValue := by
  have computed (feeBps : UInt32) : (calculateFee amount feeBps).toOption = some fee ↔
      fee.val = feeAt amount.val feeBps.toNat ∧
        amount.val * feeBps.toNat ≤ I128.maxValue := by
    have option : (calculateFee amount feeBps).toOption = some fee ↔
        calculateFee amount feeBps = .ok fee := by
      cases calculateFee amount feeBps <;> simp [Except.toOption]
    rw [option, calculateFee_charges nonneg, and_comm]
  simp only [World.feeOf, Option.bind_eq_bind, Option.bind_eq_some_iff, computed]

/-- What a claim counts, once the locked amount is decremented and the payment
made. -/
theorem claim_counters {w paid : World} {id : UInt64} {entry : TimelockEntry}
    {lockedTimelock : I128} (store : paid.store = ((w.marking id entry).put
      (.assetStats entry.asset) { w.counters entry.asset with lockedTimelock }).store) :
    paid.counters entry.asset = { w.counters entry.asset with lockedTimelock } := by
  simp [World.counters, store]

/-- A claim whose entry is unclaimed and mature and whose target authorised it
goes through exactly when its arithmetic does, if the token pays what the bridge
holds. -/
theorem claimTimelocked_iff {env : Env} {id : UInt64} {entry : TimelockEntry} {w : World}
    (idle : w.store .entered = none) (opened : w.initialized = true) (allowed : w.recoveryAllowed)
    (stored : w.store (.timelock id) = some entry) (unclaimed : entry.claimed = false)
    (matured : entry.releaseTime ≤ env.timestamp) (authorized : env.authorizes entry.target = true)
    (bounded : w.FeesBounded) (positive : 0 < entry.amount.val)
    (covered : entry.amount.val ≤ (w.counters entry.asset).lockedTimelock.val)
    (pays : ∀ amount : I128, 0 ≤ amount.val → amount.val ≤ entry.amount.val →
      ∃ paid, w.tokens.PaysOut env entry.asset entry.target amount paid) :
    (∃ w', (claimTimelocked env id).run w = .ok ((), w')) ↔
      w.ClaimFits entry.asset entry.amount := by
  have marked : (w.marking id entry).counters entry.asset = w.counters entry.asset := by
    simp [World.counters, World.marking]
  constructor
  · rintro ⟨w', ran⟩
    obtain ⟨-, -, -, entry', stored', -, -, -, fee, netAmount, charged, net, unlocked, paid, counted,
      decremented, payment, updated, -⟩ := claimTimelocked_ok.mp ran
    obtain rfl := Option.some.inj (stored.symm.trans stored')
    obtain ⟨config, found, value, fits⟩ := (feeOf_eq_some positive.le).mp charged
    obtain ⟨locked, -, rfl⟩ := decrementLockedTimelock_ok.mp decremented
    obtain ⟨accrued, total, fees, accrues, bridges, collects, -⟩ :=
      updateAssetCountersSplit_ok.mp updated
    rw [marked] at payment
    rw [claim_counters (payout_leaves payment).1] at accrues bridges collects
    refine ⟨config, found, fits, ?_, ?_, ?_⟩
    · exact value ▸ accrues ▸ accrued.upper
    · exact value ▸ collects ▸ fees.upper
    · exact value ▸ net ▸ bridges ▸ total.upper
  · rintro ⟨config, found, fits, accrues, collects, bridges⟩
    have rate := feeAt_bounds positive.le (UInt32.le_trans (w.effectiveFeeBps_le entry.asset
      config.feeBps) (bounded.bridgeConfig found))
    obtain ⟨fee, value⟩ := I128.exists_val.mpr ⟨by omega, rate.2.trans entry.amount.upper⟩
    obtain ⟨netAmount, net⟩ := I128.exists_sub (value ▸ rate.1) (value ▸ rate.2)
    have charged : w.feeOf entry.asset entry.amount = some fee :=
      (feeOf_eq_some positive.le).mpr ⟨config, found, value, fits⟩
    obtain ⟨locked, unlocks⟩ := I128.exists_sub positive.le covered
    have decremented : (decrementLockedTimelock entry.asset entry.amount).run (w.marking id entry)
        = .ok ((), (w.marking id entry).put (.assetStats entry.asset)
          { w.counters entry.asset with lockedTimelock := locked }) := by
      refine decrementLockedTimelock_ok.mpr ⟨locked, ?_, ?_⟩
      · rwa [marked]
      · rw [marked]
    obtain ⟨tokens, paysOut⟩ := pays netAmount (by omega) (by omega)
    have paysOut : ((w.marking id entry).put (.assetStats entry.asset)
        { w.counters entry.asset with lockedTimelock := locked }).tokens.PaysOut env entry.asset
          entry.target netAmount tokens := paysOut
    obtain ⟨paid, payment, store, -⟩ := paysOut.made
    have counters := claim_counters store
    obtain ⟨accrued, accrues⟩ := I128.exists_add (value ▸ rate.1) (value ▸ accrues)
    obtain ⟨fees, collects⟩ := I128.exists_add (value ▸ rate.1) (value ▸ collects)
    obtain ⟨total, bridges⟩ := I128.exists_add (by omega : 0 ≤ netAmount.val)
      (net ▸ value ▸ bridges)
    obtain ⟨counted, updated⟩ : ∃ counted,
        (updateAssetCounters entry.asset fee netAmount).run paid = .ok ((), counted) := by
      refine ⟨_, updateAssetCountersSplit_ok.mpr ⟨accrued, total, fees, ?_, ?_, ?_, rfl⟩⟩
      · rw [counters, accrues]
      · rw [counters, bridges]
      · rw [counters, collects]
    refine ⟨_, claimTimelocked_ok.mpr ⟨by rw [idle]; rfl, opened, allowed, entry, stored, unclaimed,
      matured, authorized, fee, netAmount, charged, net, _, paid, _, decremented, payment, updated,
      rfl⟩⟩

theorem succeeds_claimTimelocked {env : Env} {id : UInt64} {w : World} :
    succeeds env (.claimTimelocked id) w = true ↔
      ∃ w', (claimTimelocked env id).run w.begin = .ok ((), w') := by
  rw [succeeds_iff]
  constructor
  · rintro ⟨reply, w', ran⟩
    obtain ⟨_, ran, -⟩ := replying_ok.mp ran
    exact ⟨w', ran⟩
  · rintro ⟨w', ran⟩
    exact ⟨_, w', replying_ok.mpr ⟨(), ran, rfl⟩⟩

/-- In a reachable world in which the bridge holds what is locked of an asset, a
mature entry of the asset can be claimed exactly when the arithmetic of the
claim succeeds. The token pays what the bridge holds: it refuses no payment, and
what is in circulation is an `i128`. -/
theorem claimable_iff {host : Host} {env : Env} {w : World} {id : UInt64} {entry : TimelockEntry}
    (reachable : Reachable host w) (deployed : env.host = host)
    (stored : w.store (.timelock id) = some entry) (unclaimed : entry.claimed = false)
    (matured : entry.releaseTime ≤ env.timestamp) (allowed : w.recoveryAllowed)
    (authorized : env.authorizes entry.target = true)
    (held : (w.counters entry.asset).lockedTimelock.val ≤
      (w.tokens.balance entry.asset host.contractAddress).val)
    (accepts : ∀ amount,
      env.refuses (.transfer entry.asset host.contractAddress entry.target amount) = false)
    (circulation : (w.tokens.balance entry.asset host.contractAddress).val
      + (w.tokens.balance entry.asset entry.target).val ≤ I128.maxValue) :
    succeeds env (.claimTimelocked id) w = true ↔ w.ClaimFits entry.asset entry.amount := by
  subst deployed
  have positive := (reachable.sound.deposits id entry stored).2
  have covered := reachable.locked_covers stored unclaimed
  have bounded : w.begin.FeesBounded := (reachable.sound.of_store (World.begin_store w)).fees
  rw [succeeds_claimTimelocked]
  refine claimTimelocked_iff reachable.idle (reachable.entriesInitialized id entry stored) allowed
    stored unclaimed matured authorized bounded positive covered fun amount nonneg part => ?_
  by_cases paid : 0 < amount.val
  · have moves := TokenLedger.exists_move nonneg (by omega : amount.val ≤
      (w.tokens.balance entry.asset env.host.contractAddress).val)
      (fun _ => by omega : env.host.contractAddress ≠ entry.target →
        (w.tokens.balance entry.asset entry.target).val + amount.val ≤ I128.maxValue)
    obtain ⟨moved, moves⟩ := moves
    refine ⟨moved, ?_⟩
    rw [TokenLedger.PaysOut, if_pos paid]
    exact ⟨accepts amount, moves⟩
  · refine ⟨w.tokens, ?_⟩
    rw [TokenLedger.PaysOut, if_neg paid]
    rfl

namespace Rehearsal

/-- A fresh contract in whose assets everybody holds a large amount. -/
def wealthy : World :=
  { fresh with tokens := { balance := fun _ _ => large, allowance := fun _ _ _ => 0 } }
where
  /-- The eighth part of what an `i128` can hold. -/
  large : I128 := ⟨2 ^ 124, by decide, by decide⟩

/-- A timelocked deposit of everything its source holds, at a fee of one
percent. -/
def largeDeposit : List (Env × Request) := [
  (env 0, .initializeContract (address 1) (address 2) 100 none),
  (env 0, .addAsset (address 3) none),
  (env 0, .fundCAddressTimelocked (address 4) (address 5) (address 3) wealthy.large 5 0 none none)]

/-- The same deposit of a small amount. -/
def smallDeposit : List (Env × Request) := [
  (env 0, .initializeContract (address 1) (address 2) 100 none),
  (env 0, .addAsset (address 3) none),
  (env 0, .fundCAddressTimelocked (address 4) (address 5) (address 3)
    (amount 1000 thousand_small) 5 0 none none)]

theorem wealthy_reachable {calls : List (Env × Request)}
    (deployed : ∀ call ∈ calls, call.1.host = host)
    (success : ∀ call ∈ rehearse wealthy calls,
      succeeds call.env call.request call.before = true) :
    Reachable host (rehearsed wealthy calls) := by
  have genesis : Genesis host wealthy := ⟨rfl, fun _ => by simp [wealthy, wealthy.large]⟩
  exact ⟨wealthy, _, genesis, rehearse_run deployed success⟩

end Rehearsal

/-- A small deposit can be claimed. -/
theorem claimable_iff_rehearsed :
    let w := rehearsed Rehearsal.wealthy Rehearsal.smallDeposit
    succeeds (Rehearsal.env 5) (.claimTimelocked 0) w = true ↔
      w.ClaimFits (Rehearsal.address 3) (Rehearsal.amount 1000) := by
  intro w
  have deployed : ∀ call ∈ Rehearsal.smallDeposit, call.1.host = Rehearsal.host := by
    simp [Rehearsal.smallDeposit, Rehearsal.env]
  have reachable := Rehearsal.wealthy_reachable deployed (by decide +kernel)
  have stored : w.store (.timelock 0) = some ⟨Rehearsal.address 4, Rehearsal.address 5,
    Rehearsal.address 3, Rehearsal.amount 1000, 5, 0, false⟩ := by decide +kernel
  have running : w.recoveryAllowed := .inr ⟨_, rfl, rfl⟩
  exact claimable_iff reachable rfl stored rfl (by decide) running (by decide) (by decide +kernel)
    (fun _ => rfl) (by decide +kernel)

/-- A deposit of 2^124 at a fee of one percent is accepted and cannot be
claimed. -/
theorem large_timelock_stranded : ∃ host env w id entry, Reachable host w ∧ env.host = host ∧
    w.store (.timelock id) = some entry ∧ entry.claimed = false ∧
    entry.releaseTime ≤ env.timestamp ∧ w.recoveryAllowed ∧
    env.authorizes entry.target = true ∧
    (w.counters entry.asset).lockedTimelock.val ≤
      (w.tokens.balance entry.asset host.contractAddress).val ∧
    (∀ call, env.refuses call = false) ∧
    (w.tokens.balance entry.asset host.contractAddress).val
      + (w.tokens.balance entry.asset entry.target).val ≤ I128.maxValue ∧
    succeeds env (.claimTimelocked id) w = false := by
  have deployed : ∀ call ∈ Rehearsal.largeDeposit, call.1.host = Rehearsal.host := by
    simp [Rehearsal.largeDeposit, Rehearsal.env]
  have reachable := Rehearsal.wealthy_reachable deployed (by decide +kernel)
  refine ⟨Rehearsal.host, Rehearsal.env 5, rehearsed Rehearsal.wealthy Rehearsal.largeDeposit, 0,
    ⟨Rehearsal.address 4, Rehearsal.address 5, Rehearsal.address 3, Rehearsal.wealthy.large, 5, 0,
      false⟩, reachable, rfl, ?_, rfl, by decide, .inr ⟨_, rfl, rfl⟩, by decide, ?_, fun _ => rfl,
    ?_, ?_⟩
  all_goals decide +kernel

end OnboardingBridge.Contract
