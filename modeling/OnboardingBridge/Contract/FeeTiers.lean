import OnboardingBridge.Contract.Invariants
import OnboardingBridge.Foundations.Intervals

/-!
# The fee tier table

The tiers that `setFeeTiers` accepts are disjoint intervals in ascending order, so a
volume lies in at most one of them. The two scans of the table find that one, and the
rate of a source is the smaller of its rate and the global one.
-/

set_option autoImplicit false

namespace OnboardingBridge.Contract

open Foundations Foundations.Tx

/-! ## Queries -/

def findCurrentTier (source asset : Address) : Call (Option FeeTier) := do
  let tiers ← readFeeTiers
  let volume ← readSourceBridgedVolume source asset
  return tiers.bind (·.find? (·.contains volume))

/-- A source outside every tier is in one that covers every volume at the global rate. -/
def queryCurrentTier (source asset : Address) : Call FeeTier := do
  checkInitialized
  let tier ← findCurrentTier source asset
  match tier with
  | some tier => return tier
  | none => do
      let feeBps ← readFeeBps
      return { minVolume := 0, maxVolume := ⟨I128.maxValue, by decide, by decide⟩, feeBps }

/-- The stored tiers. -/
def World.feeTiers (w : World) : List FeeTier := (w.store .feeTiers).getD []

/-- The tier of a source. -/
def World.currentTier (w : World) (source asset : Address) : Option FeeTier :=
  w.feeTiers.find? (·.contains (w.sourceBridgedVolume source asset))

/-- The rate of a source, when the global rate is given. -/
def World.tieredFeeBps (w : World) (source asset : Address) (globalFeeBps : UInt32) : UInt32 :=
  (w.currentTier source asset).elim globalFeeBps fun tier => min globalFeeBps tier.feeBps

theorem World.bind_feeTiers (w : World) (covers : FeeTier → Bool) :
    (w.store .feeTiers).bind (·.find? covers) = w.feeTiers.find? covers := by
  rw [World.feeTiers]
  cases w.store .feeTiers <;> rfl

theorem findCurrentTier_run (source asset : Address) (w : World) :
    (findCurrentTier source asset).run w = .ok (w.currentTier source asset, w) := by
  rw [findCurrentTier, run_read_bind, run_read_bind, World.bind_feeTiers]
  rfl

theorem getTieredFeeBps_run (source asset : Address) (globalFeeBps : UInt32) (w : World) :
    (getTieredFeeBps source asset globalFeeBps).run w =
      .ok (w.tieredFeeBps source asset globalFeeBps, w) := by
  rw [getTieredFeeBps, run_read_bind, run_read_bind, World.bind_feeTiers, World.tieredFeeBps,
    World.currentTier]
  cases w.feeTiers.find? (·.contains (w.sourceBridgedVolume source asset)) <;> rfl

theorem World.tieredFeeBps_le (w : World) (source asset : Address) (globalFeeBps : UInt32) :
    w.tieredFeeBps source asset globalFeeBps ≤ globalFeeBps :=
  (getTieredFeeBps_ok (getTieredFeeBps_run source asset globalFeeBps w)).1

/-! ## Accepted tables -/

/-- Tiers in ascending order whose volumes are not negative and whose rates are within bounds. -/
structure TierTable (tiers : List FeeTier) : Prop where
  nonneg : ∀ tier ∈ tiers, 0 ≤ tier.minVolume.val
  rates : ∀ tier ∈ tiers, tier.feeBps ≤ maxFeeBps
  ascending : Ascending (fun tier : FeeTier => tier.minVolume.val)
    (fun tier => tier.maxVolume.val) tiers

theorem FeeTier.contains_eq (tier : FeeTier) (volume : I128) :
    tier.contains volume = decide (Spans (fun tier : FeeTier => tier.minVolume.val)
      (fun tier => tier.maxVolume.val) volume.val tier) := rfl

/-- What the check accepts lies above the previous end, and is a table. -/
theorem validateFeeTiers_ok {previousMax : Option I128} {tiers : List FeeTier} {w w' : World}
    {u : Unit} (ran : (validateFeeTiers previousMax tiers).run w = .ok (u, w')) :
    TierTable tiers ∧ ∀ tier ∈ tiers, ∀ max ∈ previousMax, max.val < tier.minVolume.val := by
  induction tiers generalizing previousMax with
  | nil => exact ⟨⟨by simp, by simp, .nil⟩, by simp⟩
  | cons tier rest ih =>
      rw [validateFeeTiers] at ran
      obtain ⟨accepted, ran⟩ := run_rejectIf_bind_ok.mp ran
      obtain ⟨rate, ran⟩ := run_rejectIf_bind_ok.mp ran
      obtain ⟨table, later⟩ := ih ran
      obtain ⟨nonneg, filled, above⟩ : 0 ≤ tier.minVolume.val ∧
          tier.minVolume.val ≤ tier.maxVolume.val ∧
          ∀ max ∈ previousMax, max.val < tier.minVolume.val := by
        rw [not_or, not_or, not_lt, not_lt] at accepted
        refine ⟨accepted.1, accepted.2.1, fun max given => ?_⟩
        obtain rfl := Option.mem_def.mp given
        simpa using accepted.2.2
      have ends : ∀ next ∈ rest, tier.maxVolume.val < next.minVolume.val := fun next member =>
        later next member _ rfl
      refine ⟨⟨?_, ?_, table.ascending.cons filled ends⟩, ?_⟩
      · exact List.forall_mem_cons.mpr ⟨nonneg, table.nonneg⟩
      · exact List.forall_mem_cons.mpr ⟨UInt32.not_lt.mp rate, table.rates⟩
      · refine List.forall_mem_cons.mpr ⟨above, fun next member max given => ?_⟩
        exact (above max given).trans (filled.trans_lt (ends next member))

theorem setFeeTiers_ok {env : Env} {tiers : List FeeTier} {nonce : Option UInt64} {w w' : World}
    {u : Unit} (ran : (setFeeTiers env tiers nonce).run w = .ok (u, w')) :
    TierTable tiers ∧ w'.store .feeTiers = some tiers := by
  obtain ⟨_, _, -, ran⟩ := run_bind_ok.mp ran
  obtain ⟨_, _, -, ran⟩ := run_bind_ok.mp ran
  obtain ⟨-, ran⟩ := run_rejectIf_bind_ok.mp ran
  obtain ⟨_, _, validated, ran⟩ := run_bind_ok.mp ran
  obtain ⟨_, _, -, ran⟩ := run_bind_ok.mp ran
  rw [saveFeeTiers, save, run_modify_bind] at ran
  obtain rfl := run_modify_ok.mp ran
  exact ⟨(validateFeeTiers_ok validated).1, by simp⟩

theorem execute_tierTable {env : Env} {request : Request} {reply : Reply} {w w' : World}
    (table : TierTable w.feeTiers) (ran : (execute env request).run w = .ok (reply, w')) :
    TierTable w'.feeTiers := by
  by_cases writes : .feeTiers ∈ request.writes
  · cases request
    all_goals try (simp [Request.writes, dailyUsages] at writes; done)
    case setFeeTiers tiers nonce =>
      obtain ⟨_, ran, -⟩ := replying_ok.mp ran
      obtain ⟨accepted, stored⟩ := setFeeTiers_ok ran
      rwa [World.feeTiers, stored, Option.getD_some]
  · rwa [World.feeTiers, (execute_frame env request ran).store _ writes]

/-- The stored tiers are a table. -/
theorem Reachable.tierTable {host : Host} {w : World} (reachable : Reachable host w) :
    TierTable w.feeTiers := by
  obtain ⟨start, labels, fresh, run⟩ := reachable
  refine run_world_invariant (fun w => TierTable w.feeTiers) (fun _ => True) ?_
    (fun _ _ _ table => table) run (fun _ _ => trivial) ?_
  · intro call _ _ table ran
    exact execute_tierTable (w := call.before.begin) table ran
  · have none : start.feeTiers = [] := by rw [World.feeTiers, fresh.store]; rfl
    rw [none]
    exact ⟨by simp, by simp, .nil⟩

/-! ## The tier of a source -/

section Scans

variable {w : World} (table : TierTable w.feeTiers) (source asset : Address)
include table

/-- The tier of a source is the one that its volume lies in. -/
theorem TierTable.currentTier {tier : FeeTier} : w.currentTier source asset = some tier ↔
    tier ∈ w.feeTiers ∧ tier.contains (w.sourceBridgedVolume source asset) = true := by
  rw [World.currentTier, FeeTier.contains_eq, decide_eq_true_eq]
  exact table.ascending.find?_eq_some (.refl _)

/-- The rate of a source in its tier is the smaller one. -/
theorem TierTable.rate_inside {tier : FeeTier} (member : tier ∈ w.feeTiers)
    (inside : tier.contains (w.sourceBridgedVolume source asset) = true) (globalFeeBps : UInt32) :
    w.tieredFeeBps source asset globalFeeBps = min globalFeeBps tier.feeBps := by
  rw [World.tieredFeeBps, (table.currentTier source asset).mpr ⟨member, inside⟩]
  rfl

/-- Outside of every tier it is the global one. -/
theorem TierTable.rate_outside
    (outside : ∀ tier ∈ w.feeTiers, tier.contains (w.sourceBridgedVolume source asset) = false)
    (globalFeeBps : UInt32) : w.tieredFeeBps source asset globalFeeBps = globalFeeBps := by
  have none : w.currentTier source asset = none := by
    refine Option.eq_none_iff_forall_ne_some.mpr fun tier found => ?_
    obtain ⟨member, inside⟩ := (table.currentTier source asset).mp found
    rw [outside tier member] at inside
    contradiction
  rw [World.tieredFeeBps, none]
  rfl

end Scans

theorem u32_min_self (a : UInt32) : min a a = a := by
  change (if a ≤ a then a else a) = a
  split <;> rfl

theorem u32_min_le_right (a b : UInt32) : min a b ≤ b := by
  change (if a ≤ b then a else b) ≤ b
  split
  · next below => exact below
  · exact UInt32.le_refl b

/-- The rate of a source is the smaller of the global one and that of the tier it is told. -/
theorem queryCurrentTier_rate {w : World} {source asset : Address} {config : BridgeConfigData}
    (initialized : w.initialized = true) (found : w.bridgeConfig? = some config) : ∃ tier,
    (queryCurrentTier source asset).run w = .ok (tier, w) ∧
    (getTieredFeeBps source asset config.feeBps).run w =
      .ok (min config.feeBps tier.feeBps, w) := by
  have opened : checkInitialized.run w = .ok ((), w) := checkInitialized_ok.mpr ⟨initialized, rfl⟩
  have global : readFeeBps.run w = .ok (config.feeBps, w) :=
    readFeeBps_ok.mpr ⟨config, found, rfl, rfl⟩
  rw [queryCurrentTier, run_bind_of_ok opened, run_bind_of_ok (findCurrentTier_run source asset w),
    getTieredFeeBps_run, World.tieredFeeBps]
  cases w.currentTier source asset with
  | some tier => exact ⟨tier, rfl, rfl⟩
  | none =>
      refine ⟨_, run_bind_of_ok global, ?_⟩
      rw [u32_min_self]
      rfl

/-- At most one tier contains a volume, the scans find the one that contains the volume of a source
whatever order they go in, and the rate of the source is the smaller of its rate and the global
one. -/
structure World.TiersAgree (w : World) (source asset : Address) : Prop where
  alone : ∀ volume, (w.feeTiers.filter fun tier => tier.contains volume).length ≤ 1
  found : ∀ tier, (findCurrentTier source asset).run w = .ok (some tier, w) ↔
    tier ∈ w.feeTiers ∧ tier.contains (w.sourceBridgedVolume source asset) = true
  anyOrder : ∀ order : List FeeTier, order.Perm w.feeTiers →
    (findCurrentTier source asset).run w =
      .ok (order.find? (·.contains (w.sourceBridgedVolume source asset)), w)
  rate : ∀ globalFeeBps, ∃ feeBps,
    (getTieredFeeBps source asset globalFeeBps).run w = .ok (feeBps, w) ∧ feeBps ≤ globalFeeBps ∧
    (∀ tier ∈ w.feeTiers, tier.contains (w.sourceBridgedVolume source asset) = true →
      feeBps = min globalFeeBps tier.feeBps ∧ feeBps ≤ tier.feeBps) ∧
    ((∀ tier ∈ w.feeTiers, tier.contains (w.sourceBridgedVolume source asset) = false) →
      feeBps = globalFeeBps)
  queried : ∀ config, w.initialized = true → w.bridgeConfig? = some config → ∃ tier,
    (queryCurrentTier source asset).run w = .ok (tier, w) ∧
    (getTieredFeeBps source asset config.feeBps).run w = .ok (min config.feeBps tier.feeBps, w)

theorem TierTable.agree {w : World} (table : TierTable w.feeTiers) (source asset : Address) :
    w.TiersAgree source asset where
  alone volume := table.ascending.length_filter_le_one volume.val
  found tier := by
    rw [findCurrentTier_run, ← table.currentTier source asset]
    simp
  anyOrder order same := by
    rw [findCurrentTier_run, World.currentTier]
    exact congrArg (fun tier => Except.ok (tier, w)) (table.ascending.find?_perm same).symm
  rate globalFeeBps := by
    refine ⟨_, getTieredFeeBps_run .., World.tieredFeeBps_le .., ?_, fun outside =>
      table.rate_outside source asset outside globalFeeBps⟩
    intro tier member inside
    have rate := table.rate_inside source asset member inside globalFeeBps
    exact ⟨rate, rate ▸ u32_min_le_right ..⟩
  queried _ := queryCurrentTier_rate

/-- Accepted tiers are a table, and in every reachable world the scans agree on the stored one. -/
theorem fee_tier_table :
    (∀ (env : Env) (tiers : List FeeTier) (nonce : Option UInt64) (w w' : World) (u : Unit),
      (setFeeTiers env tiers nonce).run w = .ok (u, w') →
        TierTable tiers ∧ w'.feeTiers = tiers) ∧
    ∀ (host : Host) (w : World), Reachable host w →
      TierTable w.feeTiers ∧ ∀ source asset, w.TiersAgree source asset := by
  refine ⟨fun env tiers nonce w w' u ran => ?_, fun host w reachable => ?_⟩
  · obtain ⟨table, stored⟩ := setFeeTiers_ok ran
    exact ⟨table, by rw [World.feeTiers, stored, Option.getD_some]⟩
  · exact ⟨reachable.tierTable, reachable.tierTable.agree⟩

namespace Rehearsal

/-- Two tiers with a gap between them. -/
def tiers : List FeeTier := [
  ⟨amount 0, amount 99, 50⟩, ⟨amount 1000 thousand_small, amount 2000, 10⟩]

def tiered : List (UInt64 × Request) := [
  (0, .initializeContract (address 1) (address 2) 100 none), (0, .setFeeTiers tiers none)]

end Rehearsal

/-- With two tiers set, a new source is in the first one. -/
theorem fee_tier_table_rehearsed :
    (findCurrentTier (Rehearsal.address 4) (Rehearsal.address 3)).run
      (Rehearsal.outcome Rehearsal.tiered) =
        .ok (some ⟨Rehearsal.amount 0, Rehearsal.amount 99, 50⟩,
          Rehearsal.outcome Rehearsal.tiered) := by
  have reachable := Rehearsal.reachable Rehearsal.tiered (by decide +kernel)
  have told := (fee_tier_table.2 _ _ reachable).2 (Rehearsal.address 4) (Rehearsal.address 3)
  exact (told.found _).mpr (by decide +kernel)

end OnboardingBridge.Contract
