import OnboardingBridge.Contract.System
import OnboardingBridge.Contract.TimelockEntries

/-!
# What every reachable world satisfies

A world is sound when no stored fee rate exceeds the largest rate, the bridge
has no meta-transaction signer of its own, and the stored timelock entries are
positive and have identifiers below the counter (`World.Sound`). A fresh
contract is sound, and every successful call keeps a sound world sound. Between
calls the re-entrancy flag is cleared, and a contract stays initialized.
-/

set_option autoImplicit false

namespace OnboardingBridge.Contract

open Foundations Foundations.Tx

/-! ## Fee rates -/

/-- Whether a key holds the fee rate. -/
abbrev DataKey.isFeeRate : DataKey → Bool
  | .bridgeConfig | .feeBps => true
  | _ => false

/-- The keys that do not hold the fee rate. -/
def otherThanFeeRates : Set DataKey := {key | key.isFeeRate = false}

@[simp] theorem mem_otherThanFeeRates {key : DataKey} :
    key ∈ otherThanFeeRates ↔ key.isFeeRate = false := Iff.rfl

/-- Successful runs of a part of a call keep the stored rates within bounds,
and what they return meets the postcondition. -/
abbrev KeepsFees {α : Type} (post : α → Prop) (body : Call α) : Prop :=
  Keeps World.FeesBounded post body

theorem Frame.feesBounded {keys : Set DataKey} {moves : Prop} {w w' : World}
    (frame : Frame keys moves w w') (config : .bridgeConfig ∉ keys) (legacy : .feeBps ∉ keys)
    (bounded : w.FeesBounded) : w'.FeesBounded where
  config := by
    rw [frame.store _ config]
    exact bounded.config
  legacy := by
    rw [frame.store _ legacy]
    exact bounded.legacy

/-- What does not write a rate keeps them. -/
theorem Touches.keepsFees {α : Type} {body : Call α}
    (touches : Touches otherThanFeeRates True body) : KeepsFees (fun _ => True) body :=
  .of_preserves touches fun _ _ frame => frame.feesBounded (by simp) (by simp)

theorem saveBridgeConfig_keepsFees {config : BridgeConfigData} (rate : config.feeBps ≤ maxFeeBps) :
    KeepsFees (fun _ => True) (saveBridgeConfig config) := by
  refine .modify fun w bounded => ⟨fun stored found => ?_, fun feeBps found => ?_⟩
  · obtain rfl : config = stored := by simpa using found
    exact rate
  · exact bounded.legacy feeBps (by simpa using found)

theorem saveLegacyFeeBps_keepsFees {feeBps : UInt32} (rate : feeBps ≤ maxFeeBps) :
    KeepsFees (fun _ => True) (save .feeBps feeBps) := by
  refine .modify fun w bounded => ⟨fun stored found => ?_, fun stored found => ?_⟩
  · exact bounded.config stored (by simpa using found)
  · obtain rfl : feeBps = stored := by simpa using found
    exact rate

theorem readBridgeConfig_keepsFees :
    KeepsFees (fun config => config.feeBps ≤ maxFeeBps) readBridgeConfig := by
  intro w config w' bounded ran
  obtain ⟨found, rfl⟩ := readBridgeConfig_ok.mp ran
  exact ⟨bounded, bounded.bridgeConfig found⟩

theorem readConfig_keepsFees :
    KeepsFees (fun config => config.feeBps ≤ maxFeeBps) readConfig :=
  readBridgeConfig_keepsFees.bind fun _ rate => .pure rate

theorem saveConfig_keepsFees {config : BridgeConfig} (rate : config.feeBps ≤ maxFeeBps) :
    KeepsFees (fun _ => True) (saveConfig config) :=
  readBridgeConfig_keepsFees.bind fun _ _ => saveBridgeConfig_keepsFees rate

theorem saveFeeBps_keepsFees {feeBps : UInt32} (rate : feeBps ≤ maxFeeBps) :
    KeepsFees (fun _ => True) (saveFeeBps feeBps) :=
  readConfig_keepsFees.bind fun _ _ => saveConfig_keepsFees rate

theorem setPaused_keepsFees (paused : Bool) : KeepsFees (fun _ => True) (setPaused paused) :=
  readConfig_keepsFees.bind fun _ rate => saveConfig_keepsFees rate

theorem setAllowlistModeFlag_keepsFees (enabled : Bool) :
    KeepsFees (fun _ => True) (setAllowlistModeFlag enabled) :=
  readConfig_keepsFees.bind fun _ rate => saveConfig_keepsFees rate

/-- Changing the roles in a stored configuration keeps its rate. -/
theorem saveRole_keepsFees {change : BridgeConfigData → BridgeConfigData}
    (same : ∀ config, (change config).feeBps = config.feeBps) :
    KeepsFees (fun _ => True) (do
      let config ← .read fun w => w.store .bridgeConfig
      match config with
      | some config => saveBridgeConfig (change config)
      | none => return ()) := by
  have reads : KeepsFees (fun config => ∀ stored, config = some stored →
      stored.feeBps ≤ maxFeeBps) (.read fun w => w.store .bridgeConfig) := by
    intro w config w' bounded ran
    obtain ⟨rfl, rfl⟩ := run_read_ok.mp ran
    exact ⟨bounded, bounded.config⟩
  refine reads.bind fun config rate => ?_
  cases config with
  | none => exact .pure trivial
  | some config => exact saveBridgeConfig_keepsFees (same config ▸ rate config rfl)

theorem saveAdmin_keepsFees (admin : Address) : KeepsFees (fun _ => True) (saveAdmin admin) :=
  (Touches.keepsFees (save_touches _ (by simp))).bind fun _ _ => saveRole_keepsFees fun _ => rfl

theorem saveFeeCollector_keepsFees (feeCollector : Address) :
    KeepsFees (fun _ => True) (saveFeeCollector feeCollector) :=
  (Touches.keepsFees (save_touches _ (by simp))).bind fun _ _ => saveRole_keepsFees fun _ => rfl

/-- A part that writes no rate may be passed over. -/
theorem KeepsFees.skip {α β : Type} {post : β → Prop} {body : Call α} {rest : α → Call β}
    (touches : Touches otherThanFeeRates True body) (next : ∀ a, KeepsFees post (rest a)) :
    KeepsFees post (body >>= rest) :=
  (Touches.keepsFees touches).bind fun a _ => next a

theorem nonReentrant_keepsFees {body : Call Unit} (inner : KeepsFees (fun _ => True) body) :
    KeepsFees (fun _ => True) (nonReentrant body) := by
  refine KeepsFees.skip (.read _) fun _ => KeepsFees.skip (.rejectIf _ _) fun _ => ?_
  refine KeepsFees.skip (save_touches _ (by simp)) fun _ => inner.bind fun _ _ => ?_
  exact KeepsFees.skip (remove_touches (by simp)) fun _ => .pure trivial

theorem initializeInner_keepsFees (env : Env) (admin feeCollector : Address) (feeBps : UInt32)
    (nonce : Option UInt64) (wasmHash : BytesN 32) :
    KeepsFees (fun _ => True) (initializeInner env admin feeCollector feeBps nonce wasmHash) := by
  refine nonReentrant_keepsFees (KeepsFees.skip (.read _) fun _ => ?_)
  refine KeepsFees.skip (.rejectIf _ _) fun _ => ?_
  refine .rejectIf_bind fun rate => ?_
  have rate : feeBps ≤ maxFeeBps := UInt32.not_lt.mp rate
  refine KeepsFees.skip (requireAuth_touches ..) fun _ => ?_
  refine KeepsFees.skip (consumeNonce_touches _ _ (by simp)) fun _ => ?_
  refine (saveBridgeConfig_keepsFees rate).bind fun _ _ => ?_
  refine KeepsFees.skip (save_touches _ (by simp)) fun _ => ?_
  refine KeepsFees.skip (save_touches _ (by simp)) fun _ => ?_
  refine (saveLegacyFeeBps_keepsFees rate).bind fun _ _ => ?_
  exact Touches.keepsFees (.bind (save_touches _ (by simp)) fun _ =>
    .bind (save_touches _ (by simp)) fun _ => publish_touches rfl)

theorem setFeeBps_keepsFees (env : Env) (newFeeBps : UInt32) (nonce : Option UInt64) :
    KeepsFees (fun _ => True) (setFeeBps env newFeeBps nonce) := by
  refine KeepsFees.skip checkInitialized_touches fun _ => ?_
  refine KeepsFees.skip checkNotPaused_touches fun _ => ?_
  refine .rejectIf_bind fun rate => ?_
  refine KeepsFees.skip (authorizeAdmin_touches _ _ (by simp)) fun _ => ?_
  refine KeepsFees.skip readFeeBps_touches fun _ => ?_
  refine (saveFeeBps_keepsFees (UInt32.not_lt.mp rate)).bind fun _ _ => ?_
  exact Touches.keepsFees (publish_touches rfl)

/-- The end of the calls that change a role: the configuration is read and
stored with the role changed. -/
theorem storeRole_keepsFees {change : BridgeConfigData → BridgeConfigData} {rest : Call Unit}
    (same : ∀ config, (change config).feeBps = config.feeBps)
    (touches : Touches otherThanFeeRates True rest) :
    KeepsFees (fun _ => True) (do
      let config ← readBridgeConfig
      saveBridgeConfig (change config)
      rest) :=
  readBridgeConfig_keepsFees.bind fun config rate =>
    (saveBridgeConfig_keepsFees (same config ▸ rate)).bind fun _ _ => Touches.keepsFees touches

theorem setFeeCollector_keepsFees (env : Env) (newFeeCollector : Address)
    (nonce : Option UInt64) :
    KeepsFees (fun _ => True) (setFeeCollector env newFeeCollector nonce) := by
  refine nonReentrant_keepsFees (KeepsFees.skip checkInitialized_touches fun _ => ?_)
  refine KeepsFees.skip checkNotPaused_touches fun _ => ?_
  refine KeepsFees.skip (authorizeAdmin_touches _ _ (by simp)) fun _ => ?_
  refine KeepsFees.skip readFeeCollector_touches fun _ => ?_
  refine (saveFeeCollector_keepsFees _).bind fun _ _ => ?_
  exact storeRole_keepsFees (fun _ => rfl) (publish_touches rfl)

theorem acceptFeeCollector_keepsFees (env : Env) :
    KeepsFees (fun _ => True) (acceptFeeCollector env) := by
  refine nonReentrant_keepsFees (KeepsFees.skip checkInitialized_touches fun _ => ?_)
  refine KeepsFees.skip checkNotDeactivated_touches fun _ => KeepsFees.skip (.read _) fun _ => ?_
  refine KeepsFees.skip (.ofOption _ _) fun _ => KeepsFees.skip (requireAuth_touches ..) fun _ => ?_
  refine KeepsFees.skip readFeeCollector_touches fun _ => ?_
  refine (saveFeeCollector_keepsFees _).bind fun _ _ => ?_
  exact storeRole_keepsFees (fun _ => rfl)
    (.bind (remove_touches (by simp)) fun _ => publish_touches rfl)

theorem setAdmin_keepsFees (env : Env) (newAdmin : Address) (nonce : Option UInt64) :
    KeepsFees (fun _ => True) (setAdmin env newAdmin nonce) := by
  refine nonReentrant_keepsFees (KeepsFees.skip checkInitialized_touches fun _ => ?_)
  refine KeepsFees.skip checkNotPaused_touches fun _ => ?_
  refine KeepsFees.skip (authorizeAdmin_touches _ _ (by simp)) fun _ => ?_
  refine (saveAdmin_keepsFees _).bind fun _ _ => ?_
  exact storeRole_keepsFees (fun _ => rfl) (publish_touches rfl)

theorem acceptAdmin_keepsFees (env : Env) : KeepsFees (fun _ => True) (acceptAdmin env) := by
  refine nonReentrant_keepsFees (KeepsFees.skip checkInitialized_touches fun _ => ?_)
  refine KeepsFees.skip checkNotDeactivated_touches fun _ => KeepsFees.skip (.read _) fun _ => ?_
  refine KeepsFees.skip (.ofOption _ _) fun _ => KeepsFees.skip (requireAuth_touches ..) fun _ => ?_
  refine KeepsFees.skip readAdmin_touches fun _ => ?_
  refine (saveAdmin_keepsFees _).bind fun _ _ => ?_
  exact storeRole_keepsFees (fun _ => rfl)
    (.bind (remove_touches (by simp)) fun _ => publish_touches rfl)

theorem pause_keepsFees (env : Env) (nonce : Option UInt64) :
    KeepsFees (fun _ => True) (pause env nonce) := by
  refine KeepsFees.skip checkInitialized_touches fun _ => ?_
  refine KeepsFees.skip (authorizeAdmin_touches _ _ (by simp)) fun _ => ?_
  exact (setPaused_keepsFees _).bind fun _ _ => Touches.keepsFees (publish_touches rfl)

theorem unpause_keepsFees (env : Env) (nonce : Option UInt64) :
    KeepsFees (fun _ => True) (unpause env nonce) := by
  refine KeepsFees.skip checkInitialized_touches fun _ => ?_
  refine KeepsFees.skip (authorizeAdmin_touches _ _ (by simp)) fun _ => ?_
  exact (setPaused_keepsFees _).bind fun _ _ => Touches.keepsFees (publish_touches rfl)

theorem setAllowlistMode_keepsFees (env : Env) (enabled : Bool) (nonce : Option UInt64) :
    KeepsFees (fun _ => True) (setAllowlistMode env enabled nonce) := by
  refine KeepsFees.skip checkInitialized_touches fun _ => ?_
  refine KeepsFees.skip (authorizeAdmin_touches _ _ (by simp)) fun _ => ?_
  refine KeepsFees.skip allowlistMode_touches fun _ => ?_
  exact (setAllowlistModeFlag_keepsFees _).bind fun _ _ => Touches.keepsFees (publish_touches rfl)

theorem replying_keepsFees {α : Type} {body : Call α} {reply : α → Reply}
    (inner : KeepsFees (fun _ => True) body) :
    KeepsFees (fun _ => True) (replying body reply) :=
  inner.bind fun _ _ => .pure trivial

/-- Every call keeps the stored fee rates within bounds. -/
theorem execute_keepsFees (env : Env) (request : Request) :
    KeepsFees (fun _ => True) (execute env request) := by
  by_cases writes : .bridgeConfig ∈ request.writes ∨ .feeBps ∈ request.writes
  · cases request
    all_goals first
      | (simp [Request.writes, dailyUsages] at writes; done)
      | refine replying_keepsFees ?_
    · exact initializeInner_keepsFees ..
    · exact initializeInner_keepsFees ..
    · exact setFeeBps_keepsFees ..
    · exact setFeeCollector_keepsFees ..
    · exact acceptFeeCollector_keepsFees ..
    · exact setAdmin_keepsFees ..
    · exact acceptAdmin_keepsFees ..
    · exact pause_keepsFees ..
    · exact unpause_keepsFees ..
    · exact setAllowlistMode_keepsFees ..
  · obtain ⟨config, legacy⟩ := not_or.mp writes
    exact .of_preserves (execute_frame env request) fun _ _ frame =>
      frame.feesBounded config legacy

/-! ## Meta-transaction signers -/

/-- A signer is registered or removed with the authorisation of its source. -/
theorem registerMetaSigner_authorized {env : Env} {source : Address} {pubkey : BytesN 32}
    {w w' : World} {u : Unit} (ran : (registerMetaSigner env source pubkey).run w = .ok (u, w')) :
    env.authorizes source = true := by
  obtain ⟨mid, ran, -⟩ := nonReentrant_ok ran
  obtain ⟨_, _, -, ran⟩ := run_bind_ok.mp ran
  obtain ⟨_, _, -, ran⟩ := run_bind_ok.mp ran
  exact (requireAuth_bind_ok.mp ran).1

theorem unregisterMetaSigner_authorized {env : Env} {source : Address} {w w' : World} {u : Unit}
    (ran : (unregisterMetaSigner env source).run w = .ok (u, w')) :
    env.authorizes source = true := by
  obtain ⟨mid, ran, -⟩ := nonReentrant_ok ran
  obtain ⟨_, _, -, ran⟩ := run_bind_ok.mp ran
  obtain ⟨_, _, -, ran⟩ := run_bind_ok.mp ran
  exact (requireAuth_bind_ok.mp ran).1

/-- No call gives the bridge a signer of its own. -/
theorem execute_unsigned {env : Env} {request : Request} {reply : Reply} {w w' : World}
    (unsigned : w.store (.metaSigner env.self) = none)
    (ran : (execute env request).run w = .ok (reply, w')) :
    w'.store (.metaSigner env.self) = none := by
  by_cases writes : .metaSigner env.self ∈ request.writes
  · exfalso
    cases request
    all_goals try (simp [Request.writes, dailyUsages] at writes; done)
    case registerMetaSigner source pubkey =>
      obtain ⟨_, ran, -⟩ := replying_ok.mp ran
      have other := ne_self_of_authorizes (registerMetaSigner_authorized ran)
      simp [Request.writes, Ne.symm other] at writes
    case unregisterMetaSigner source =>
      obtain ⟨_, ran, -⟩ := replying_ok.mp ran
      have other := ne_self_of_authorizes (unregisterMetaSigner_authorized ran)
      simp [Request.writes, Ne.symm other] at writes
  · rw [(execute_frame env request ran).store _ writes, unsigned]

/-! ## Timelock entries -/

/-- The stored entries are positive, and their identifiers lie below the
counter. -/
def World.DepositsKept (w : World) : Prop :=
  ∀ id entry, w.store (.timelock id) = some entry → id < w.timelockId ∧ 0 < entry.amount.val

/-- Every call keeps the stored entries so. -/
theorem execute_depositsKept {env : Env} {request : Request} {reply : Reply} {w w' : World}
    (kept : w.DepositsKept) (ran : (execute env request).run w = .ok (reply, w')) :
    w'.DepositsKept := by
  have framed (counter : .timelockId ∉ request.writes)
      (entries : ∀ id, .timelock id ∉ request.writes) : w'.DepositsKept := by
    have frame := execute_frame env request ran
    intro id entry stored
    rw [frame.store _ (entries id)] at stored
    rw [World.timelockId, frame.store _ counter]
    exact kept id entry stored
  cases request
  case fundCAddressTimelocked =>
    obtain ⟨new, ran, -⟩ := replying_ok.mp ran
    obtain ⟨positive, next, fits, counter, deposited, others⟩ :=
      fundCAddressTimelocked_stores ran
    have below : new < w'.timelockId := by
      have one : (1 : UInt64).toNat = 1 := rfl
      rw [counter, UInt64.lt_iff_toNat_lt, UInt64.toNat_add]
      omega
    intro id entry stored
    by_cases same : id = new
    · subst same
      obtain rfl := Option.some.inj (deposited.symm.trans stored)
      exact ⟨below, positive⟩
    · rw [others id same] at stored
      obtain ⟨earlier, amount⟩ := kept id entry stored
      exact ⟨UInt64.lt_trans (next ▸ earlier) below, amount⟩
  case claimTimelocked claimed =>
    obtain ⟨_, ran, -⟩ := replying_ok.mp ran
    obtain ⟨entry, found, -, counter, marked, others⟩ := claimTimelocked_stores ran
    intro id entry' stored
    rw [counter]
    by_cases same : id = claimed
    · subst same
      obtain rfl := Option.some.inj (marked.symm.trans stored)
      exact kept id entry found
    · rw [others id same] at stored
      exact kept id entry' stored
  all_goals
    refine framed ?_ ?_
    · simp [Request.writes, dailyUsages]
    · simp [Request.writes, dailyUsages]

/-! ## Soundness -/

/-- What holds of every reachable world. -/
structure World.Sound (w : World) (bridge : Address) : Prop where
  fees : w.FeesBounded
  unsigned : w.store (.metaSigner bridge) = none
  deposits : w.DepositsKept

/-- Soundness is a property of the storage. -/
theorem World.Sound.of_store {w w' : World} {bridge : Address} (sound : w.Sound bridge)
    (same : w'.store = w.store) : w'.Sound bridge where
  fees := ⟨same ▸ sound.fees.config, same ▸ sound.fees.legacy⟩
  unsigned := same ▸ sound.unsigned
  deposits := by
    unfold World.DepositsKept World.timelockId
    rw [same]
    exact sound.deposits

theorem execute_sound {env : Env} {request : Request} {reply : Reply} {w w' : World}
    (sound : w.Sound env.self) (ran : (execute env request).run w = .ok (reply, w')) :
    w'.Sound env.self where
  fees := (execute_keepsFees env request sound.fees ran).1
  unsigned := execute_unsigned sound.unsigned ran
  deposits := execute_depositsKept sound.deposits ran

theorem Genesis.sound {host : Host} {w : World} (fresh : Genesis host w) :
    w.Sound host.contractAddress where
  fees := ⟨by simp [fresh.store], by simp [fresh.store]⟩
  unsigned := by simp [fresh.store]
  deposits := by simp [World.DepositsKept, fresh.store]

/-- A run from a sound world stays in sound worlds. -/
theorem World.Sound.run {host : Host} {w w' : World} {labels : List Label}
    (sound : w.Sound host.contractAddress) (run : Run (Step host) w labels w') :
    w'.Sound host.contractAddress := by
  refine run_world_invariant (fun w => w.Sound host.contractAddress) (fun _ => True) ?_ ?_ run
    (fun _ _ => trivial) sound
  · rintro call deployed - sound ran
    subst deployed
    have begun : call.before.begin.Sound call.env.self := sound.of_store rfl
    exact execute_sound begun ran
  · rintro w tokens - sound
    exact sound.of_store rfl

theorem Reachable.sound {host : Host} {w : World} (reachable : Reachable host w) :
    w.Sound host.contractAddress := by
  obtain ⟨start, labels, fresh, run⟩ := reachable
  exact fresh.sound.run run

/-! ## Between calls -/

/-- A call leaves the re-entrancy flag cleared. -/
theorem execute_idle {env : Env} {request : Request} {reply : Reply} {w w' : World}
    (idle : w.store .entered = none) (ran : (execute env request).run w = .ok (reply, w')) :
    w'.store .entered = none := by
  by_cases writes : .entered ∈ request.writes
  · cases request
    all_goals first
      | (simp [Request.writes, dailyUsages] at writes; done)
      | (obtain ⟨_, ran, -⟩ := replying_ok.mp ran
         obtain ⟨mid, -, rfl⟩ := nonReentrant_ok ran
         simp)
  · rw [(execute_frame env request ran).store _ writes, idle]

theorem Reachable.idle {host : Host} {w : World} (reachable : Reachable host w) :
    w.store .entered = none := by
  obtain ⟨start, labels, fresh, run⟩ := reachable
  refine run_world_invariant (fun w => w.store .entered = none) (fun _ => True) ?_ ?_ run
    (fun _ _ => trivial) (by simp [fresh.store])
  · intro call _ _ idle ran
    have idle : call.before.begin.store .entered = none := idle
    exact execute_idle idle ran
  · exact fun _ _ _ idle => idle

/-- An initialized contract is not initialized again. -/
theorem initializeInner_first {env : Env} {admin feeCollector : Address} {feeBps : UInt32}
    {nonce : Option UInt64} {wasmHash : BytesN 32} {w w' : World} {u : Unit}
    (ran : (initializeInner env admin feeCollector feeBps nonce wasmHash).run w = .ok (u, w')) :
    w.initialized = false := by
  obtain ⟨mid, ran, -⟩ := nonReentrant_ok ran
  rw [run_read_bind, (enter_recorded env.self w).initialized] at ran
  exact Bool.not_eq_true _ ▸ (run_rejectIf_bind_ok.mp ran).1

/-- No call takes the mark of an initialized contract back. -/
theorem execute_initialized {env : Env} {request : Request} {reply : Reply} {w w' : World}
    (opened : w.initialized = true) (ran : (execute env request).run w = .ok (reply, w')) :
    w'.initialized = true := by
  by_cases writes : .initialized ∈ request.writes
  · exfalso
    cases request
    all_goals try (simp [Request.writes, dailyUsages] at writes; done)
    all_goals
      obtain ⟨_, ran, -⟩ := replying_ok.mp ran
      exact Bool.false_ne_true ((initializeInner_first ran).symm.trans opened)
  · rw [World.initialized, World.has, (execute_frame env request ran).store _ writes]
    exact opened

end OnboardingBridge.Contract
