import OnboardingBridge.Contract.DailyLimits
import OnboardingBridge.Contract.Gates
import OnboardingBridge.Contract.RelayerSet

/-!
# What a migration reports to the successor

A migration reports the assets of the whitelist, not the assets in which the
contract owes something. An asset that was removed from the whitelist while fees,
deposits or a reserve of it were left is missing in the report: the report is
complete exactly when every asset owed is on the whitelist
(`snapshot_complete_iff`).
-/

set_option autoImplicit false

namespace OnboardingBridge.Contract

open Foundations Foundations.Tx

/-! ## Reports -/

/-- The asset states that a call reports. -/
def reportedAssets (events : List Event) : List MigrationAssetState :=
  events.flatMap fun
    | .emergencyMigrateAssets _ _ assets => assets
    | _ => []

/-- The relayers and thresholds that a call reports. -/
def reportedRelayers (events : List Event) : List (List (BytesN 32) × UInt32) :=
  events.filterMap fun
    | .emergencyMigrateRelayers relayers threshold => some (relayers, threshold)
    | _ => none

/-- The contract still owes something in an asset. -/
def World.Owes (w : World) (asset : Address) : Prop :=
  (w.counters asset).accruedFees.val ≠ 0 ∨ (w.counters asset).lockedTimelock.val ≠ 0 ∨
    (w.crosschainReserve asset).val ≠ 0

instance (w : World) (asset : Address) : Decidable (w.Owes asset) :=
  inferInstanceAs (Decidable (_ ∨ _))

/-- A report has the current state of every asset that the contract owes something in, and
exactly the current relayers and their threshold. -/
structure SnapshotComplete (w : World) (events : List Event) : Prop where
  assets : ∀ asset, w.Owes asset → ∃ state ∈ reportedAssets events, state.asset = asset ∧
    state.counters = w.counters asset ∧ state.crosschainReserve = w.crosschainReserve asset
  relayers : ∃ relayers, reportedRelayers events = [(relayers, w.relayerThreshold)] ∧
    relayers.Nodup ∧ ∀ pubkey, pubkey ∈ relayers ↔ w.isRelayer pubkey = true

/-! ## What is reported -/

theorem mem_migrationAssets {w : World} {whitelist : OrderedMap Address Bool}
    {state : MigrationAssetState} : state ∈ migrationAssets w whitelist ↔
      whitelist.get state.asset = some true ∧ state = ⟨state.asset, w.counters state.asset,
        w.assetFeeCap state.asset, w.crosschainReserve state.asset⟩ := by
  simp only [migrationAssets, List.mem_map, List.mem_filter, OrderedMap.get_eq_some]
  constructor
  · rintro ⟨⟨asset, enabled⟩, ⟨member, rfl⟩, rfl⟩
    exact ⟨member, rfl⟩
  · rintro ⟨member, same⟩
    exact ⟨_, ⟨member, rfl⟩, same.symm⟩

theorem migrationAssets_congr {w w' : World} {whitelist : OrderedMap Address Bool}
    (same : ∀ asset, w'.counters asset = w.counters asset ∧
      w'.assetFeeCap asset = w.assetFeeCap asset ∧
      w'.crosschainReserve asset = w.crosschainReserve asset) :
    migrationAssets w' whitelist = migrationAssets w whitelist := by
  unfold migrationAssets
  refine List.map_congr_left fun entry _ => ?_
  obtain ⟨counters, cap, reserve⟩ := same entry.1
  rw [counters, cap, reserve]

/-- The data of a migration are the enabled assets with their state and the stored
relayers. -/
theorem publishMigrationData_reports {w w' : World} {u : Unit}
    (ran : publishMigrationData.run w = .ok (u, w')) :
    reportedAssets w'.events = reportedAssets w.events
        ++ migrationAssets w ((w.store .assetWhitelist).getD .empty) ∧
      reportedRelayers w'.events =
        reportedRelayers w.events ++ [(w.relayerSet, w.relayerThreshold)] := by
  rw [publishMigrationData] at ran
  obtain ⟨config, _, read, goesOn⟩ := run_bind_ok.mp ran
  obtain ⟨_, -, -, rfl⟩ := readConfig_ok.mp read
  simp only [publish, run_modify_bind, run_view_bind_ok readFeeCollector_ok, run_read_bind,
    run_modify_ok] at goesOn
  obtain ⟨_, -, rfl⟩ := goesOn
  refine ⟨?_, ?_⟩
  · simp only [reportedAssets, World.emit_events, List.flatMap_append, List.flatMap_cons,
      List.flatMap_nil, List.append_nil, World.emit_store]
    exact congrArg _ (migrationAssets_congr fun _ => ⟨rfl, rfl, rfl⟩)
  · simp only [reportedRelayers, World.emit_events, List.filterMap_append, List.filterMap_cons,
      List.filterMap_nil, List.append_nil]
    rfl

/-- A migration that reports its data reports them as they are before the call. -/
theorem emergencyMigrate_reports {env : Env} {newContract : Address} {nonce : Option UInt64}
    {w w' : World} {u : Unit} (silent : w.events = [])
    (ran : (emergencyMigrate env newContract true nonce).run w = .ok (u, w')) :
    reportedAssets w'.events = migrationAssets w ((w.store .assetWhitelist).getD .empty) ∧
      reportedRelayers w'.events = [(w.relayerSet, w.relayerThreshold)] := by
  rw [emergencyMigrate, run_view_bind_ok checkInitialized_ok] at ran
  obtain ⟨-, -, ran⟩ := ran
  rw [run_view_bind_ok readAdmin_ok] at ran
  obtain ⟨admin, -, ran⟩ := ran
  obtain ⟨-, ran⟩ := requireAuth_bind_ok.mp ran
  rw [run_view_bind_ok checkNotDeactivated_ok] at ran
  obtain ⟨-, -, ran⟩ := ran
  obtain ⟨_, spent, consumed, ran⟩ := run_bind_ok.mp ran
  obtain ⟨store, quiet⟩ := consumeNonce_leaves consumed
  obtain ⟨_, reported, publishes, ran⟩ := run_bind_ok.mp ran
  rw [run_onlyIf_ok] at publishes
  have publishes : publishMigrationData.run spent = .ok ((), reported) := by simpa using publishes
  obtain ⟨assets, relayers⟩ := publishMigrationData_reports publishes
  rw [save, run_modify_bind] at ran
  obtain rfl := run_modify_ok.mp ran
  have same (asset : Address) : spent.counters asset = w.counters asset ∧
      spent.assetFeeCap asset = w.assetFeeCap asset ∧
      spent.crosschainReserve asset = w.crosschainReserve asset := by
    refine ⟨?_, ?_, ?_⟩
    · rw [World.counters, World.counters, store _ (by simp)]
    · rw [World.assetFeeCap, World.assetFeeCap, store _ (by simp)]
    · rw [World.crosschainReserve, World.crosschainReserve, store _ (by simp)]
  have roster : spent.relayerSet = w.relayerSet ∧ spent.relayerThreshold = w.relayerThreshold := by
    refine ⟨?_, ?_⟩
    · rw [World.relayerSet, World.relayerSet, store _ (by simp)]
    · rw [World.relayerThreshold, World.relayerThreshold, store _ (by simp)]
  rw [migrationAssets_congr same, store _ (by simp), quiet, silent] at assets
  rw [roster.1, roster.2, quiet, silent] at relayers
  refine ⟨?_, ?_⟩
  · simpa [reportedAssets] using assets
  · simpa [reportedRelayers] using relayers

/-! ## Complete reports -/

/-- In every reachable world, the report of a migration is complete exactly when every asset
that the contract owes something in is on the whitelist. -/
theorem snapshot_complete_iff {host : Host} {call : Success} (reachable : Reachable host call.before)
    (ran : (execute call.env call.request).run call.before.begin = .ok (call.reply, call.after))
    {newContract : Address} {nonce : Option UInt64}
    (request : call.request = .emergencyMigrate newContract true nonce) :
    SnapshotComplete call.before call.after.events ↔
      ∀ asset, call.before.Owes asset → call.before.isAssetWhitelisted asset = true := by
  rw [request] at ran
  obtain ⟨_, ran, -⟩ := replying_ok.mp ran
  obtain ⟨assets, relayers⟩ := emergencyMigrate_reports (World.begin_events _) ran
  have listed (asset : Address) : call.before.isAssetWhitelisted asset = true ↔
      ((call.before.store .assetWhitelist).getD .empty).get asset = some true := by
    rw [World.isAssetWhitelisted]
    cases ((call.before.store .assetWhitelist).getD .empty).get asset <;> simp
  have reports (state : MigrationAssetState) : state ∈ reportedAssets call.after.events ↔
      call.before.isAssetWhitelisted state.asset = true ∧ state = ⟨state.asset,
        call.before.counters state.asset, call.before.assetFeeCap state.asset,
        call.before.crosschainReserve state.asset⟩ := by
    rw [assets, listed]
    exact mem_migrationAssets
  constructor
  · intro complete asset owes
    obtain ⟨state, member, rfl, -⟩ := complete.assets asset owes
    exact ((reports state).mp member).1
  · intro all
    obtain ⟨start, labels, fresh, run⟩ := reachable
    obtain ⟨-, nodup, flagged, -⟩ := relayer_set fresh run
    refine ⟨fun asset owes => ?_, _, relayers, nodup, flagged⟩
    let state : MigrationAssetState := ⟨asset, call.before.counters asset,
      call.before.assetFeeCap asset, call.before.crosschainReserve asset⟩
    exact ⟨state, (reports state).mpr ⟨all asset owes, rfl⟩, rfl, rfl, rfl⟩

namespace Rehearsal

/-- A migration that reports its data. -/
def migrate : Request := .emergencyMigrate (address 9) true none

/-- Fees have accrued in the only asset, and there are two relayers. -/
def accruing : List (UInt64 × Request) :=
  opening ++ [(0, .addRelayer 7 none), (0, .addRelayer 8 none), (0, fund 1000 thousand_small)]

/-- What no call of a script writes is not stored. -/
theorem unwritten {script : List (UInt64 × Request)} (success : goesThrough script = true)
    {key : DataKey} (outside : ∀ line ∈ script, key ∉ line.2.writes) :
    (outcome script).store key = none := by
  refine run_world_invariant (fun w => w.store key = none) (fun call => key ∉ call.request.writes)
    ?_ (fun _ _ _ absent => absent) (run script success) ?_ rfl
  · intro call _ unwritten absent ran
    rw [(execute_frame _ _ ran).store _ unwritten]
    exact absent
  · refine forall_calls fun call member => ?_
    obtain ⟨line, scripted, same⟩ := List.mem_map.mp (mem_rehearse member)
    obtain ⟨-, asked⟩ := Prod.mk.inj same
    exact asked ▸ outside line scripted

end Rehearsal

/-- While the asset is on the whitelist, its report is complete. -/
theorem snapshot_complete_rehearsed :
    SnapshotComplete (Rehearsal.outcome Rehearsal.accruing) (attempt (Rehearsal.env 0)
      Rehearsal.migrate (Rehearsal.outcome Rehearsal.accruing)).after.events := by
  have success : Rehearsal.goesThrough Rehearsal.accruing = true := by decide +kernel
  have opened := Rehearsal.reachable Rehearsal.accruing success
  obtain ⟨-, request, before⟩ := attempt_call (Rehearsal.env 0) Rehearsal.migrate
    (Rehearsal.outcome Rehearsal.accruing)
  have complete := snapshot_complete_iff (before ▸ opened) (attempt_ran (by decide +kernel)) request
  rw [before] at complete
  refine complete.mpr fun asset owes => ?_
  by_cases listed : asset = Rehearsal.address 3
  · subst listed
    decide +kernel
  · have stats : (Rehearsal.outcome Rehearsal.accruing).store (.assetStats asset) = none :=
      Rehearsal.unwritten success ?_
    have reserve : (Rehearsal.outcome Rehearsal.accruing).store (.crossChainReserve asset) = none :=
      Rehearsal.unwritten success ?_
    · simp [World.Owes, World.counters, World.crosschainReserve, stats, reserve] at owes
    · simp [Rehearsal.accruing, Rehearsal.opening, Rehearsal.fund, Request.writes, dailyUsages]
    · simp [Rehearsal.accruing, Rehearsal.opening, Rehearsal.fund, Request.writes, dailyUsages,
        listed]

/-- Fees accrue in an asset, the asset is removed from the whitelist, and the migration does
not report it. -/
theorem removed_asset_not_reported : ¬ ∀ (call : Success) (newContract : Address)
    (nonce : Option UInt64), Reachable Rehearsal.host call.before →
      (execute call.env call.request).run call.before.begin = .ok (call.reply, call.after) →
      call.request = .emergencyMigrate newContract true nonce →
      SnapshotComplete call.before call.after.events := by
  intro claim
  let script := Rehearsal.accruing ++ [(0, .removeAsset (Rehearsal.address 3) none)]
  have opened := Rehearsal.reachable script (by decide +kernel)
  obtain ⟨-, request, before⟩ := attempt_call (Rehearsal.env 0) Rehearsal.migrate
    (Rehearsal.outcome script)
  have complete := claim _ _ _ (before ▸ opened) (attempt_ran (by decide +kernel)) request
  rw [before] at complete
  have owes : (Rehearsal.outcome script).Owes (Rehearsal.address 3) := by decide +kernel
  have silent : reportedAssets (attempt (Rehearsal.env 0) Rehearsal.migrate
    (Rehearsal.outcome script)).after.events = [] := by decide +kernel
  obtain ⟨state, member, -⟩ := complete.assets _ owes
  rw [silent] at member
  exact List.not_mem_nil member

end OnboardingBridge.Contract
