import OnboardingBridge.Contract.Gates

/-!
# Who holds the roles, and the fee rate

The admin, the fee collector and the fee rate lie in one configuration record,
or in legacy entries when there is none. A call leaves them alone, opens the
contract, sets the rate, gives a role to an address directly, or gives it to the
address proposed for it (`execute_settings`).
-/

set_option autoImplicit false

namespace OnboardingBridge.Contract

open Foundations Foundations.Tx

/-! ## Settings -/

/-- The two roles. -/
inductive Role where
  | admin
  | feeCollector
deriving DecidableEq

/-- The holders of the roles and the fee rate. -/
structure Settings where
  holder : Role → Option Address
  feeBps : UInt32

/-- Give a role to an address. -/
def Settings.assign (settings : Settings) (role : Role) (address : Address) : Settings :=
  { settings with holder := Function.update settings.holder role (some address) }

def World.holder (w : World) : Role → Option Address
  | .admin => w.admin?
  | .feeCollector => w.feeCollector?

def World.settings (w : World) : Settings where
  holder := w.holder
  feeBps := ((w.store .bridgeConfig).map BridgeConfigData.feeBps).getD ((w.store .feeBps).getD 0)

/-- The address proposed for a role. -/
def World.pending (w : World) : Role → Option Address
  | .admin => w.store .pendingAdmin
  | .feeCollector => w.store .pendingFeeCollector

/-- The key of that address. -/
def Role.slot : Role → DataKey
  | .admin => .pendingAdmin
  | .feeCollector => .pendingFeeCollector

theorem World.pending_congr {w w' : World} {role : Role}
    (same : w'.store role.slot = w.store role.slot) : w'.pending role = w.pending role := by
  cases role with
  | admin => exact same
  | feeCollector => exact same

/-- Whether a key holds a role or the fee rate. -/
abbrev DataKey.isSetting : DataKey → Bool
  | .bridgeConfig | .admin | .feeCollector | .feeBps => true
  | _ => false

/-- The keys outside the settings. -/
def otherThanSettings : Set DataKey := {key | key.isSetting = false}

@[simp] theorem mem_otherThanSettings {key : DataKey} :
    key ∈ otherThanSettings ↔ key.isSetting = false := Iff.rfl

theorem World.settings_congr {w w' : World} (config : w'.store .bridgeConfig = w.store .bridgeConfig)
    (admin : w'.store .admin = w.store .admin)
    (feeCollector : w'.store .feeCollector = w.store .feeCollector)
    (feeBps : w'.store .feeBps = w.store .feeBps) : w'.settings = w.settings := by
  have holder : w'.holder = w.holder := by
    funext role
    cases role with
    | admin => rw [World.holder, World.holder, World.admin?, World.admin?, config, admin]
    | feeCollector =>
      rw [World.holder, World.holder, World.feeCollector?, World.feeCollector?, config, feeCollector]
  rw [World.settings, World.settings, holder, config, feeBps]

theorem Frame.settings {moves : Prop} {w w' : World} (frame : Frame otherThanSettings moves w w') :
    w'.settings = w.settings :=
  World.settings_congr (frame.store _ (by simp)) (frame.store _ (by simp))
    (frame.store _ (by simp)) (frame.store _ (by simp))

@[simp] theorem Settings.assign_assign (settings : Settings) (role : Role)
    (address address' : Address) :
    (settings.assign role address).assign role address' = settings.assign role address' := by
  simp [Settings.assign]

@[simp] theorem Settings.assign_holder_self (settings : Settings) (role : Role)
    (address : Address) : (settings.assign role address).holder role = some address :=
  Function.update_self ..

theorem Settings.assign_holder_of_ne (settings : Settings) {role other : Role}
    (different : other ≠ role) (address : Address) :
    (settings.assign role address).holder other = settings.holder other :=
  Function.update_of_ne different ..

/-- What a configuration record states. -/
def BridgeConfigData.settings (config : BridgeConfigData) : Settings where
  holder
    | .admin => some config.admin
    | .feeCollector => some config.feeCollector
  feeBps := config.feeBps

theorem settings_of_config {w : World} {config : BridgeConfigData}
    (stored : w.store .bridgeConfig = some config) : w.settings = config.settings := by
  have holder : w.holder = config.settings.holder := by
    funext role
    cases role with
    | admin => simp [World.holder, World.admin?, stored, BridgeConfigData.settings]
    | feeCollector => simp [World.holder, World.feeCollector?, stored, BridgeConfigData.settings]
  rw [World.settings, holder, stored]
  rfl

theorem readBridgeConfig_settings {w w' : World} {config : BridgeConfigData}
    (ran : readBridgeConfig.run w = .ok (config, w')) :
    w' = w ∧ w.settings = config.settings := by
  obtain ⟨found, rfl⟩ := readBridgeConfig_ok.mp ran
  refine ⟨rfl, ?_⟩
  unfold World.bridgeConfig? at found
  cases stored : w'.store .bridgeConfig with
  | some config' =>
    simp only [stored, Option.some.injEq] at found
    exact found ▸ settings_of_config stored
  | none =>
    simp only [stored, Option.bind_eq_bind, Option.bind_eq_some_iff, Option.pure_def,
      Option.some.injEq] at found
    obtain ⟨admin, legacyAdmin, feeCollector, legacyCollector, rfl⟩ := found
    have holder : w'.holder = fun role => match role with
        | .admin => some admin
        | .feeCollector => some feeCollector := by
      funext role
      cases role with
      | admin => simp [World.holder, World.admin?, stored, legacyAdmin]
      | feeCollector => simp [World.holder, World.feeCollector?, stored, legacyCollector]
    rw [World.settings, holder, stored]
    rfl

/-! ## What the helpers do to the settings -/

/-- Successful runs change the settings in one way. -/
abbrev Rewrites (change : Settings → Settings) {α : Type} (body : Call α) : Prop :=
  Preserves (fun w w' => w'.settings = change w.settings) body

section Rewrites

variable {change : Settings → Settings} {α β : Type}

theorem Rewrites.after {body : Call α} {rest : α → Call β}
    (touches : Touches otherThanSettings True body) (next : ∀ a, Rewrites change (rest a)) :
    Rewrites change (body >>= rest) := by
  intro w b w' ran
  obtain ⟨a, t, first, ran⟩ := run_bind_ok.mp ran
  rw [next a ran, (touches first).settings]

theorem Rewrites.before {body : Call α} {rest : α → Call β} (first : Rewrites change body)
    (touches : ∀ a, Touches otherThanSettings True (rest a)) : Rewrites change (body >>= rest) := by
  intro w b w' ran
  obtain ⟨a, t, rewrites, ran⟩ := run_bind_ok.mp ran
  rw [(touches a ran).settings, first rewrites]

theorem Rewrites.nonReentrant {body : Call α} (inner : Rewrites change body) :
    Rewrites change (nonReentrant body) := by
  refine .after (.read _) fun _ => .after (.rejectIf _ _) fun _ => ?_
  refine .after (save_touches _ (by simp)) fun _ => inner.before fun _ => ?_
  exact .bind (remove_touches (by simp)) fun _ => .pure _

end Rewrites

theorem saveBridgeConfig_settings (config : BridgeConfigData) :
    Rewrites (fun _ => config.settings) (saveBridgeConfig config) := by
  intro w _ w' ran
  rw [saveBridgeConfig, save, run_modify_ok] at ran
  exact settings_of_config (by simp [ran])

/-- Reading the configuration record and storing it changed changes the settings. -/
theorem storeConfig_settings {change : Settings → Settings}
    {store : BridgeConfigData → BridgeConfigData}
    (changes : ∀ config, (store config).settings = change config.settings) :
    Rewrites change (do
      let config ← readBridgeConfig
      saveBridgeConfig (store config)) := by
  intro w _ w' ran
  obtain ⟨config, _, read, wrote⟩ := run_bind_ok.mp ran
  obtain ⟨rfl, states⟩ := readBridgeConfig_settings read
  rw [saveBridgeConfig_settings _ wrote, changes, states]

/-- Writing the rest of the configuration changes the fee rate only. -/
theorem saveConfig_settings (config : BridgeConfig) :
    Rewrites (fun settings => { settings with feeBps := config.feeBps }) (saveConfig config) :=
  storeConfig_settings fun _ => rfl

theorem saveFeeBps_settings (feeBps : UInt32) :
    Rewrites (fun settings => { settings with feeBps }) (saveFeeBps feeBps) :=
  .after readConfig_touches fun config => saveConfig_settings { config with feeBps }

/-- Rewriting the configuration with the rate it has changes no setting. -/
theorem rewriteConfig_settings {change : BridgeConfig → BridgeConfig}
    (same : ∀ config, (change config).feeBps = config.feeBps) :
    Rewrites id (do
      let config ← readConfig
      saveConfig (change config)) := by
  intro w _ w' ran
  obtain ⟨config, _, read, wrote⟩ := run_bind_ok.mp ran
  obtain ⟨stored, _, found, reply⟩ := run_bind_ok.mp read
  obtain ⟨rfl, states⟩ := readBridgeConfig_settings found
  obtain ⟨rfl, rfl⟩ := run_pure_ok.mp reply
  rw [saveConfig_settings _ wrote, same, states]
  rfl

theorem setPaused_settings (paused : Bool) : Rewrites id (setPaused paused) :=
  @rewriteConfig_settings (fun config => { config with paused }) fun _ => rfl

theorem setAllowlistModeFlag_settings (enabled : Bool) :
    Rewrites id (setAllowlistModeFlag enabled) :=
  @rewriteConfig_settings (fun config => { config with allowlistMode := enabled }) fun _ => rfl

/-- Changing a role in a record changes it in what the record states. -/
theorem BridgeConfigData.settings_admin (config : BridgeConfigData) (admin : Address) :
    { config with admin }.settings = config.settings.assign .admin admin := by
  simp only [settings, Settings.assign, Settings.mk.injEq, and_true]
  funext role
  cases role with
  | admin => simp
  | feeCollector => simp

theorem BridgeConfigData.settings_feeCollector (config : BridgeConfigData) (feeCollector : Address) :
    { config with feeCollector }.settings = config.settings.assign .feeCollector feeCollector := by
  simp only [settings, Settings.assign, Settings.mk.injEq, and_true]
  funext role
  cases role with
  | admin => simp
  | feeCollector => simp

/-- Storing a role in its legacy entry and in the record, if there is one, gives it
to the address. -/
theorem saveRole_settings {key : DataKey} {value : key.Value} {role : Role} {address : Address}
    {store : BridgeConfigData → BridgeConfigData} (other : key ≠ .bridgeConfig)
    (changes : ∀ config, (store config).settings = config.settings.assign role address)
    (legacy : ∀ w : World, w.store .bridgeConfig = none →
      (w.put key value).settings = w.settings.assign role address) :
    Rewrites (·.assign role address) (do
      save key value
      let config ← .read fun w => w.store .bridgeConfig
      match config with
      | some config => saveBridgeConfig (store config)
      | none => return ()) := by
  intro w _ w' ran
  rw [save, run_modify_bind, run_read_bind, World.put_store, KeyedStore.set_of_ne _ other.symm]
    at ran
  cases stored : w.store .bridgeConfig with
  | some config =>
    rw [stored] at ran
    rw [saveBridgeConfig_settings _ ran, settings_of_config stored, changes]
  | none =>
    rw [stored] at ran
    obtain ⟨-, rfl⟩ := run_pure_ok.mp ran
    exact legacy w stored

theorem saveAdmin_settings (admin : Address) :
    Rewrites (·.assign .admin admin) (saveAdmin admin) := by
  refine saveRole_settings (by simp) (fun config => config.settings_admin admin) ?_
  intro w stored
  have holder : (w.put .admin admin).holder = Function.update w.holder .admin (some admin) := by
    funext role
    cases role with
    | admin => simp [World.holder, World.admin?, stored]
    | feeCollector => simp [World.holder, World.feeCollector?, stored]
  simp [World.settings, Settings.assign, holder, stored]

theorem saveFeeCollector_settings (feeCollector : Address) :
    Rewrites (·.assign .feeCollector feeCollector) (saveFeeCollector feeCollector) := by
  refine saveRole_settings (by simp) (fun config => config.settings_feeCollector feeCollector) ?_
  intro w stored
  have holder : (w.put .feeCollector feeCollector).holder =
      Function.update w.holder .feeCollector (some feeCollector) := by
    funext role
    cases role with
    | admin => simp [World.holder, World.admin?, stored]
    | feeCollector => simp [World.holder, World.feeCollector?, stored]
  simp [World.settings, Settings.assign, holder, stored]

/-- The end of the calls that give a role away: it is saved, and then the record is
read again and stored with the role changed. -/
theorem giveRole_settings {role : Role} {address : Address} {saveRole : Call Unit}
    {store : BridgeConfigData → BridgeConfigData} {rest : Call Unit}
    (saves : Rewrites (·.assign role address) saveRole)
    (changes : ∀ config, (store config).settings = config.settings.assign role address)
    (touches : Touches otherThanSettings True rest) :
    Rewrites (·.assign role address) (do
      saveRole
      let config ← readBridgeConfig
      saveBridgeConfig (store config)
      rest) := by
  intro w _ w' ran
  obtain ⟨_, saved, first, ran⟩ := run_bind_ok.mp ran
  obtain ⟨config, read, found, ran⟩ := run_bind_ok.mp ran
  obtain ⟨_, stored, wrote, ran⟩ := run_bind_ok.mp ran
  have both := @storeConfig_settings (·.assign role address) store changes _ _ _ (run_bind_ok.mpr ⟨config, read, found, wrote⟩)
  rw [(touches ran).settings, both, saves first]
  exact Settings.assign_assign ..

/-! ## Calls -/

theorem setFeeBps_settings (env : Env) (newFeeBps : UInt32) (nonce : Option UInt64) :
    Rewrites (fun settings => { settings with feeBps := newFeeBps })
      (setFeeBps env newFeeBps nonce) := by
  iterate 4 (refine .after ?_ fun _ => ?_; focus simp)
  refine .after readFeeBps_touches fun _ => ?_
  exact (saveFeeBps_settings newFeeBps).before fun _ => publish_touches rfl

theorem setFeeCollector_settings (env : Env) (newFeeCollector : Address) (nonce : Option UInt64) :
    Rewrites (·.assign .feeCollector newFeeCollector)
      (setFeeCollector env newFeeCollector nonce) := by
  refine Rewrites.nonReentrant ?_
  iterate 4 (refine .after ?_ fun _ => ?_; focus simp)
  exact giveRole_settings (saveFeeCollector_settings _)
    (fun config => config.settings_feeCollector newFeeCollector) (publish_touches rfl)

theorem setAdmin_settings (env : Env) (newAdmin : Address) (nonce : Option UInt64) :
    Rewrites (·.assign .admin newAdmin) (setAdmin env newAdmin nonce) := by
  refine Rewrites.nonReentrant ?_
  iterate 3 (refine .after ?_ fun _ => ?_; focus simp)
  exact giveRole_settings (saveAdmin_settings _) (fun config => config.settings_admin newAdmin)
    (publish_touches rfl)

/-- The address proposed for a role authorises the call, takes the role over, and the
proposal is used up. -/
structure Accepted (env : Env) (role : Role) (address : Address) (w w' : World) : Prop where
  proposed : w.pending role = some address
  authorized : env.authorizes address = true
  settings : w'.settings = w.settings.assign role address
  usedUp : w'.pending role = none

/-- The end of the calls that write a proposal. -/
theorem writePending_ensures {role : Role} {proposal : Option Address} {write : Call Unit}
    {event : Event} (shown : event.isLoyaltySkip = false)
    (wrote : Ensures (fun w => w.pending role = proposal) write) :
    Ensures (fun w => w.pending role = proposal) (do write; publish event) := by
  refine wrote.before fun _ => Preserves.mono (publish_touches shown : Touches ∅ True _) ?_
  intro w w' frame stored
  rw [World.pending_congr (frame.store _ (Set.notMem_empty _)), stored]

theorem nonReentrant_pending {role : Role} {proposal : Option Address} {body : Call Unit}
    (inner : Ensures (fun w => w.pending role = proposal) body) :
    Ensures (fun w => w.pending role = proposal) (nonReentrant body) := by
  intro w u w' ran
  obtain ⟨mid, ran, left⟩ := nonReentrant_ok ran
  have kept : w'.pending role = mid.pending role :=
    World.pending_congr (by rw [left]; cases role <;> simp [Role.slot])
  rw [kept, inner ran]

/-- Both acceptances have one text. -/
theorem acceptRole_settings {env : Env} {role : Role} {readOld : Call Address}
    {saveRole : Address → Call Unit} {store : Address → BridgeConfigData → BridgeConfigData}
    {clear : Call Unit} {event : Address → Address → Event} {w w' : World} {u : Unit}
    (reads : Touches otherThanSettings True readOld)
    (saves : ∀ address, Rewrites (·.assign role address) (saveRole address))
    (changes : ∀ address config,
      (store address config).settings = config.settings.assign role address)
    (clears : Touches otherThanSettings True clear)
    (cleared : Ensures (fun w => w.pending role = none) clear)
    (shown : ∀ old new, (event old new).isLoyaltySkip = false)
    (ran : (nonReentrant do
      checkInitialized
      checkNotDeactivated
      let found ← .read fun w => w.pending role
      let pending ← okOr found .unauthorized
      requireAuth env pending
      let old ← readOld
      saveRole pending
      let config ← readBridgeConfig
      saveBridgeConfig (store pending config)
      clear
      publish (event old pending) : Call Unit).run w = .ok (u, w')) :
    ∃ address, Accepted env role address w w' := by
  have usedUp : w'.pending role = none := by
    refine nonReentrant_pending ?_ ran
    refine .bind fun _ => .bind fun _ => .bind fun _ => .bind fun pending => .bind fun _ => ?_
    refine .bind fun old => .bind fun _ => .bind fun _ => .bind fun _ => ?_
    exact writePending_ensures (shown old pending) cleared
  obtain ⟨mid, ran, left⟩ := nonReentrant_ok ran
  obtain ⟨_, -, ran⟩ := (run_view_bind_ok checkInitialized_ok).mp ran
  obtain ⟨_, -, ran⟩ := (run_view_bind_ok checkNotDeactivated_ok).mp ran
  rw [run_read_bind] at ran
  obtain ⟨address, found, ran⟩ := run_ofOption_bind_ok.mp ran
  obtain ⟨authorized, ran⟩ := requireAuth_bind_ok.mp ran
  have entered : (w.put .entered true).pending role = w.pending role :=
    World.pending_congr (by cases role <;> simp [Role.slot])
  have enters : Touches otherThanSettings True (save .entered true) := save_touches _ (by simp)
  have leaves : Touches otherThanSettings True (remove .entered) := remove_touches (by simp)
  have rewrites : Rewrites (·.assign role address) _ := .after reads fun old =>
    giveRole_settings (saves address) (changes address) (.bind clears fun _ =>
      publish_touches (shown old address))
  have left : w'.settings = mid.settings := left ▸ (leaves rfl).settings
  refine ⟨address, entered ▸ found, authorized, ?_, usedUp⟩
  rw [left, rewrites ran, (enters rfl).settings]

theorem acceptAdmin_settings {env : Env} {w w' : World} {u : Unit}
    (ran : (acceptAdmin env).run w = .ok (u, w')) :
    ∃ address, Accepted env .admin address w w' :=
  acceptRole_settings readAdmin_touches saveAdmin_settings
    (fun address config => config.settings_admin address) (remove_touches (by simp))
    (.modify fun w => KeyedStore.remove_self ..) (fun _ _ => rfl) ran

theorem acceptFeeCollector_settings {env : Env} {w w' : World} {u : Unit}
    (ran : (acceptFeeCollector env).run w = .ok (u, w')) :
    ∃ address, Accepted env .feeCollector address w w' :=
  acceptRole_settings readFeeCollector_touches saveFeeCollector_settings
    (fun address config => config.settings_feeCollector address) (remove_touches (by simp))
    (.modify fun w => KeyedStore.remove_self ..) (fun _ _ => rfl) ran

theorem pause_settings (env : Env) (nonce : Option UInt64) :
    Rewrites id (pause env nonce) := by
  iterate 2 (refine .after ?_ fun _ => ?_; focus simp)
  exact (setPaused_settings true).before fun _ => publish_touches rfl

theorem unpause_settings (env : Env) (nonce : Option UInt64) :
    Rewrites id (unpause env nonce) := by
  iterate 2 (refine .after ?_ fun _ => ?_; focus simp)
  exact (setPaused_settings false).before fun _ => publish_touches rfl

theorem setAllowlistMode_settings (env : Env) (enabled : Bool) (nonce : Option UInt64) :
    Rewrites id (setAllowlistMode env enabled nonce) := by
  iterate 3 (refine .after ?_ fun _ => ?_; focus simp)
  exact (setAllowlistModeFlag_settings enabled).before fun _ => publish_touches rfl

namespace Request

/-- The address a call gives a role to directly. -/
def assigns : Request → Role → Option Address
  | .setAdmin newAdmin _, .admin => some newAdmin
  | .setFeeCollector newFeeCollector _, .feeCollector => some newFeeCollector
  | _, _ => none

/-- Whether a call accepts a role. -/
def accepts : Request → Role → Bool
  | .acceptAdmin, .admin | .acceptFeeCollector, .feeCollector => true
  | _, _ => false

/-- The address a call proposes for a role. -/
def proposes : Request → Role → Option Address
  | .proposeNewAdmin newAdmin _, .admin => some newAdmin
  | .proposeNewFeeCollector newCollector _, .feeCollector => some newCollector
  | _, _ => none

/-- The rate a call sets. -/
def rates : Request → Option UInt32
  | .setFeeBps newFeeBps _ => some newFeeBps
  | _ => none

end Request

/-- What a call does to the roles and the fee rate. -/
inductive SettingsStep (env : Env) (request : Request) (w w' : World) : Prop where
  | kept (assigns : request.assigns = fun _ => none) (accepts : request.accepts = fun _ => false)
      (settings : w'.settings = w.settings)
  | opened (asked : request.initializes = true)
  | rated {feeBps : UInt32} (asked : request.rates = some feeBps)
      (assigns : request.assigns = fun _ => none) (accepts : request.accepts = fun _ => false)
      (settings : w'.settings = { w.settings with feeBps })
  | assigned (role : Role) {address : Address} (asked : request.assigns role = some address)
      (accepts : request.accepts = fun _ => false)
      (settings : w'.settings = w.settings.assign role address)
  | accepted (role : Role) {address : Address} (asked : request.accepts role = true)
      (assigns : request.assigns = fun _ => none)
      (acceptance : Accepted env role address w w')

/-- The requests that write the settings. -/
def Request.writesSettings : Request → Bool
  | .initializeContract .. | .initializeWithWasmHash .. | .setFeeBps .. | .setFeeCollector ..
  | .acceptFeeCollector | .setAdmin .. | .acceptAdmin | .pause _ | .unpause _
  | .setAllowlistMode .. => true
  | _ => false

theorem Request.writes_otherThanSettings {request : Request}
    (other : request.writesSettings = false) : request.writes ⊆ otherThanSettings := by
  cases request
  all_goals first | cases other; done | skip
  all_goals
    simp [Request.writes, dailyUsages, Set.insert_subset_iff, Set.union_subset_iff,
      Set.range_subset_iff]

theorem execute_settings {env : Env} {request : Request} {reply : Reply} {w w' : World}
    (ran : (execute env request).run w = .ok (reply, w')) : SettingsStep env request w w' := by
  by_cases writes : request.writesSettings = true
  · cases request
    all_goals first | exact absurd writes Bool.false_ne_true | skip
    all_goals obtain ⟨_, ran, -⟩ := replying_ok.mp ran
    case initializeContract | initializeWithWasmHash => exact .opened rfl
    case setFeeBps => exact .rated rfl rfl rfl (setFeeBps_settings _ _ _ ran)
    case setFeeCollector =>
      exact .assigned .feeCollector rfl rfl (setFeeCollector_settings _ _ _ ran)
    case setAdmin => exact .assigned .admin rfl rfl (setAdmin_settings _ _ _ ran)
    case acceptFeeCollector =>
      obtain ⟨address, acceptance⟩ := acceptFeeCollector_settings ran
      exact .accepted .feeCollector rfl rfl acceptance
    case acceptAdmin =>
      obtain ⟨address, acceptance⟩ := acceptAdmin_settings ran
      exact .accepted .admin rfl rfl acceptance
    case pause => exact .kept rfl rfl (pause_settings _ _ ran)
    case unpause => exact .kept rfl rfl (unpause_settings _ _ ran)
    case setAllowlistMode => exact .kept rfl rfl (setAllowlistMode_settings _ _ _ ran)
  · have other : request.writesSettings = false := Bool.eq_false_iff.mpr writes
    have frame := (execute_frame env request ran).widen (Request.writes_otherThanSettings other)
    refine .kept ?_ ?_ frame.settings
    · cases request <;> first | cases other; done | rfl
    · cases request <;> first | cases other; done | rfl

/-- Whoever accepts a role was proposed for it. -/
theorem execute_accepts {env : Env} {request : Request} {role : Role} {reply : Reply}
    {w w' : World} (accepts : request.accepts role = true)
    (ran : (execute env request).run w = .ok (reply, w')) :
    ∃ address, Accepted env role address w w' := by
  cases request
  case acceptAdmin =>
    obtain ⟨_, ran, -⟩ := replying_ok.mp ran
    cases role with
    | admin => exact acceptAdmin_settings ran
    | feeCollector => cases accepts
  case acceptFeeCollector =>
    obtain ⟨_, ran, -⟩ := replying_ok.mp ran
    cases role with
    | admin => cases accepts
    | feeCollector => exact acceptFeeCollector_settings ran
  all_goals cases accepts

end OnboardingBridge.Contract
