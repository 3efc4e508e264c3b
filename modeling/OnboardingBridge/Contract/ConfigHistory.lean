import OnboardingBridge.Contract.Invariants
import OnboardingBridge.Contract.Settings

/-!
# The configuration is what was written last

Five settings live in one record, and two of them in legacy entries as well. Every
call that sets one of them rewrites the record, and each field has the value that
was written last, whatever other fields were written since (`last_write_wins`).
-/

set_option autoImplicit false

namespace OnboardingBridge.Contract

open Foundations Foundations.Tx

/-! ## Fields -/

/-- The fields of the configuration record. -/
inductive ConfigField where
  | admin
  | feeCollector
  | feeBps
  | paused
  | allowlistMode
deriving DecidableEq

abbrev ConfigField.Value : ConfigField → Type
  | .admin | .feeCollector => Address
  | .feeBps => UInt32
  | .paused | .allowlistMode => Bool

/-- The value of a field in a record. -/
def BridgeConfigData.get (config : BridgeConfigData) : (field : ConfigField) → field.Value
  | .admin => config.admin
  | .feeCollector => config.feeCollector
  | .feeBps => config.feeBps
  | .paused => config.paused
  | .allowlistMode => config.allowlistMode

/-- The value of a field as the contract reads it. -/
def World.configured (w : World) : (field : ConfigField) → Option field.Value
  | .admin => w.admin?
  | .feeCollector => w.feeCollector?
  | .feeBps => w.bridgeConfig?.map BridgeConfigData.feeBps
  | .paused => w.bridgeConfig?.map BridgeConfigData.paused
  | .allowlistMode => w.bridgeConfig?.map BridgeConfigData.allowlistMode

/-- Values for some of the fields. -/
abbrev ConfigWrite := (field : ConfigField) → Option field.Value

/-- Write some of the fields. -/
def BridgeConfigData.write (config : BridgeConfigData) (values : ConfigWrite) :
    BridgeConfigData where
  admin := (values .admin).getD config.admin
  feeCollector := (values .feeCollector).getD config.feeCollector
  feeBps := (values .feeBps).getD config.feeBps
  paused := (values .paused).getD config.paused
  allowlistMode := (values .allowlistMode).getD config.allowlistMode

theorem BridgeConfigData.get_write (config : BridgeConfigData) (values : ConfigWrite)
    (field : ConfigField) : (config.write values).get field = (values field).getD (config.get field) := by
  cases field <;> rfl

/-- The values that a call writes. What an acceptance writes was proposed before. -/
def Request.sets (w : World) : Request → ConfigWrite
  | .initializeContract admin feeCollector feeBps _
  | .initializeWithWasmHash admin feeCollector feeBps _ _ => fun
    | .admin => some admin
    | .feeCollector => some feeCollector
    | .feeBps => some feeBps
    | .paused => some false
    | .allowlistMode => some false
  | .setFeeBps newFeeBps _ => fun
    | .feeBps => some newFeeBps
    | _ => none
  | .pause _ => fun
    | .paused => some true
    | _ => none
  | .unpause _ => fun
    | .paused => some false
    | _ => none
  | .setAllowlistMode enabled _ => fun
    | .allowlistMode => some enabled
    | _ => none
  | .setAdmin newAdmin _ => fun
    | .admin => some newAdmin
    | _ => none
  | .acceptAdmin => fun
    | .admin => w.pending .admin
    | _ => none
  | .setFeeCollector newFeeCollector _ => fun
    | .feeCollector => some newFeeCollector
    | _ => none
  | .acceptFeeCollector => fun
    | .feeCollector => w.pending .feeCollector
    | _ => none
  | _ => fun _ => none

/-! ## The stored record -/

/-- The record is stored, and the legacy entries of the roles agree with it; nothing is
stored before the contract is initialized. -/
structure World.Stores (w : World) (config : Option BridgeConfigData) : Prop where
  record : w.store .bridgeConfig = config
  admin : w.store .admin = config.map BridgeConfigData.admin
  feeCollector : w.store .feeCollector = config.map BridgeConfigData.feeCollector
  initialized : w.initialized = config.isSome

namespace World.Stores

variable {w w' : World} {config : Option BridgeConfigData}

theorem bridgeConfig? (stores : w.Stores config) : w.bridgeConfig? = config := by
  unfold World.bridgeConfig?
  rw [stores.record]
  cases config with
  | some config => rfl
  | none =>
    rw [stores.admin]
    rfl

theorem configured (stores : w.Stores config) (field : ConfigField) :
    w.configured field = config.map fun config => config.get field := by
  cases field with
  | admin =>
    rw [World.configured, World.admin?, stores.record, stores.admin, Option.or_self]
    rfl
  | feeCollector =>
    rw [World.configured, World.feeCollector?, stores.record, stores.feeCollector, Option.or_self]
    rfl
  | feeBps =>
    rw [World.configured, stores.bridgeConfig?]
    rfl
  | paused =>
    rw [World.configured, stores.bridgeConfig?]
    rfl
  | allowlistMode =>
    rw [World.configured, stores.bridgeConfig?]
    rfl

/-- What stores the same in these entries has the same record. -/
theorem congr (stores : w.Stores config)
    (same : ∀ key, key = .bridgeConfig ∨ key = .admin ∨ key = .feeCollector ∨ key = .initialized →
      w'.store key = w.store key) : w'.Stores config where
  record := by rw [same _ (.inl rfl), stores.record]
  admin := by rw [same _ (.inr (.inl rfl)), stores.admin]
  feeCollector := by rw [same _ (.inr (.inr (.inl rfl))), stores.feeCollector]
  initialized := by
    rw [World.initialized, World.has, same _ (.inr (.inr (.inr rfl)))]
    exact stores.initialized

end World.Stores

/-- The entries of the record and of the mark of an initialized contract. -/
abbrev DataKey.isRecordEntry : DataKey → Bool
  | .bridgeConfig | .admin | .feeCollector | .initialized => true
  | _ => false

/-- The other keys. -/
def otherThanRecord : Set DataKey := {key | key.isRecordEntry = false}

@[simp] theorem mem_otherThanRecord {key : DataKey} :
    key ∈ otherThanRecord ↔ key.isRecordEntry = false := Iff.rfl

theorem Frame.stores {moves : Prop} {w w' : World} {config : Option BridgeConfigData}
    (frame : Frame otherThanRecord moves w w') (stores : w.Stores config) : w'.Stores config := by
  refine stores.congr fun key entry => frame.store key ?_
  rcases entry with rfl | rfl | rfl | rfl <;> simp

/-- Successful runs write the values into the stored record. -/
abbrev Writes (values : ConfigWrite) {α : Type} (body : Call α) : Prop :=
  Preserves (fun w w' => ∀ config, w.Stores (some config) → w'.Stores (some (config.write values)))
    body

section Writes

variable {values : ConfigWrite} {α β : Type}

theorem Writes.after {body : Call α} {rest : α → Call β}
    (touches : Touches otherThanRecord True body) (next : ∀ a, Writes values (rest a)) :
    Writes values (body >>= rest) := by
  intro w b w' ran config stores
  obtain ⟨a, t, first, ran⟩ := run_bind_ok.mp ran
  exact next a ran config ((touches first).stores stores)

theorem Writes.before {body : Call α} {rest : α → Call β} (first : Writes values body)
    (touches : ∀ a, Touches otherThanRecord True (rest a)) : Writes values (body >>= rest) := by
  intro w b w' ran config stores
  obtain ⟨a, t, writes, ran⟩ := run_bind_ok.mp ran
  exact (touches a ran).stores (first writes config stores)

theorem Writes.nonReentrant {body : Call α} (inner : Writes values body) :
    Writes values (nonReentrant body) := by
  refine .after (.read _) fun _ => .after (.rejectIf _ _) fun _ => ?_
  refine .after (save_touches _ (by simp)) fun _ => inner.before fun _ => ?_
  exact .bind (remove_touches (by simp)) fun _ => .pure _

end Writes

/-! ## What the helpers write -/

/-- Storing another record with the same roles. -/
theorem World.Stores.put {w : World} {config config' : BridgeConfigData}
    (stores : w.Stores (some config)) (admin : config'.admin = config.admin)
    (feeCollector : config'.feeCollector = config.feeCollector) :
    (w.put .bridgeConfig config').Stores (some config') where
  record := by simp
  admin := by simp [stores.admin, admin]
  feeCollector := by simp [stores.feeCollector, feeCollector]
  initialized := by simpa [World.initialized, World.has] using stores.initialized

theorem readBridgeConfig_stored {w w' : World} {config found : BridgeConfigData}
    (stores : w.Stores (some config)) (ran : readBridgeConfig.run w = .ok (found, w')) :
    found = config ∧ w' = w := by
  obtain ⟨stored, rfl⟩ := readBridgeConfig_ok.mp ran
  rw [stores.bridgeConfig?] at stored
  exact ⟨(Option.some.inj stored).symm, rfl⟩

/-- Rewriting the part of the record that is no role. -/
theorem rewriteConfig_writes {values : ConfigWrite} {change : BridgeConfig → BridgeConfig}
    (changes : ∀ config : BridgeConfigData,
      let changed := change ⟨config.feeBps, config.paused, config.allowlistMode⟩
      config.write values = { config with
        feeBps := changed.feeBps
        paused := changed.paused
        allowlistMode := changed.allowlistMode }) :
    Writes values (do
      let config ← readConfig
      saveConfig (change config)) := by
  intro w _ w' ran config stores
  obtain ⟨read, _, first, wrote⟩ := run_bind_ok.mp ran
  obtain ⟨stored, found, rfl, rfl⟩ := readConfig_ok.mp first
  rw [stores.bridgeConfig?] at found
  obtain rfl := Option.some.inj found
  obtain ⟨again, _, second, stored⟩ := run_bind_ok.mp wrote
  obtain ⟨rfl, rfl⟩ := readBridgeConfig_stored stores second
  obtain rfl := run_modify_ok.mp stored
  rw [changes]
  exact stores.put rfl rfl

theorem setFeeBps_writes (env : Env) (newFeeBps : UInt32) (nonce : Option UInt64) (w : World) :
    Writes ((Request.setFeeBps newFeeBps nonce).sets w) (setFeeBps env newFeeBps nonce) := by
  iterate 4 (refine .after ?_ fun _ => ?_; focus simp)
  refine .after readFeeBps_touches fun _ => ?_
  refine Writes.before ?_ fun _ => publish_touches rfl
  exact @rewriteConfig_writes _ (fun config => { config with feeBps := newFeeBps }) fun _ => rfl

theorem pause_writes (env : Env) (nonce : Option UInt64) (w : World) :
    Writes ((Request.pause nonce).sets w) (pause env nonce) := by
  iterate 2 (refine .after ?_ fun _ => ?_; focus simp)
  refine Writes.before ?_ fun _ => publish_touches rfl
  exact @rewriteConfig_writes _ (fun config => { config with paused := true }) fun _ => rfl

theorem unpause_writes (env : Env) (nonce : Option UInt64) (w : World) :
    Writes ((Request.unpause nonce).sets w) (unpause env nonce) := by
  iterate 2 (refine .after ?_ fun _ => ?_; focus simp)
  refine Writes.before ?_ fun _ => publish_touches rfl
  exact @rewriteConfig_writes _ (fun config => { config with paused := false }) fun _ => rfl

theorem setAllowlistMode_writes (env : Env) (enabled : Bool) (nonce : Option UInt64) (w : World) :
    Writes ((Request.setAllowlistMode enabled nonce).sets w)
      (setAllowlistMode env enabled nonce) := by
  iterate 3 (refine .after ?_ fun _ => ?_; focus simp)
  refine Writes.before ?_ fun _ => publish_touches rfl
  exact @rewriteConfig_writes _ (fun config => { config with allowlistMode := enabled })
    fun _ => rfl

/-! ## Roles -/

/-- The address that a role is given to, as a write. -/
def Role.writes : Role → Address → ConfigWrite
  | .admin, address => fun
    | .admin => some address
    | _ => none
  | .feeCollector, address => fun
    | .feeCollector => some address
    | _ => none

theorem saveAdmin_writes (admin : Address) :
    Writes (Role.writes .admin admin) (saveAdmin admin) := by
  intro w _ w' ran config stores
  rw [saveAdmin, save, run_modify_bind, run_read_bind, World.put_store,
    KeyedStore.set_of_ne _ (by simp), stores.record] at ran
  obtain rfl := run_modify_ok.mp ran
  refine ⟨?_, ?_, ?_, ?_⟩
  · simp [BridgeConfigData.write, Role.writes]
  · simp [BridgeConfigData.write, Role.writes]
  · simp [BridgeConfigData.write, Role.writes, stores.feeCollector]
  · simpa [World.initialized, World.has] using stores.initialized

theorem saveFeeCollector_writes (feeCollector : Address) :
    Writes (Role.writes .feeCollector feeCollector) (saveFeeCollector feeCollector) := by
  intro w _ w' ran config stores
  rw [saveFeeCollector, save, run_modify_bind, run_read_bind, World.put_store,
    KeyedStore.set_of_ne _ (by simp), stores.record] at ran
  obtain rfl := run_modify_ok.mp ran
  refine ⟨?_, ?_, ?_, ?_⟩
  · simp [BridgeConfigData.write, Role.writes]
  · simp [BridgeConfigData.write, Role.writes, stores.admin]
  · simp [BridgeConfigData.write, Role.writes]
  · simpa [World.initialized, World.has] using stores.initialized

/-- The record is read again after the role is saved, so storing it once more changes
nothing. -/
theorem giveRole_writes {values : ConfigWrite} {saveRole : Call Unit}
    {store : BridgeConfigData → BridgeConfigData} {rest : Call Unit}
    (saves : Writes values saveRole)
    (same : ∀ config : BridgeConfigData, store (config.write values) = config.write values)
    (touches : Touches otherThanRecord True rest) :
    Writes values (do
      saveRole
      let config ← readBridgeConfig
      saveBridgeConfig (store config)
      rest) := by
  intro w _ w' ran config stores
  obtain ⟨_, saved, first, ran⟩ := run_bind_ok.mp ran
  have stores := saves first config stores
  obtain ⟨found, _, read, goesOn⟩ := run_bind_ok.mp ran
  obtain ⟨rfl, rfl⟩ := readBridgeConfig_stored stores read
  rw [same, saveBridgeConfig, save, run_modify_bind] at goesOn
  exact (touches goesOn).stores (stores.put rfl rfl)

theorem setAdmin_writes (env : Env) (newAdmin : Address) (nonce : Option UInt64) (w : World) :
    Writes ((Request.setAdmin newAdmin nonce).sets w) (setAdmin env newAdmin nonce) := by
  refine Writes.nonReentrant ?_
  iterate 3 (refine .after ?_ fun _ => ?_; focus simp)
  exact giveRole_writes (saveAdmin_writes newAdmin) (fun _ => rfl) (publish_touches rfl)

theorem setFeeCollector_writes (env : Env) (newFeeCollector : Address) (nonce : Option UInt64)
    (w : World) : Writes ((Request.setFeeCollector newFeeCollector nonce).sets w)
      (setFeeCollector env newFeeCollector nonce) := by
  refine Writes.nonReentrant ?_
  iterate 4 (refine .after ?_ fun _ => ?_; focus simp)
  exact giveRole_writes (saveFeeCollector_writes newFeeCollector) (fun _ => rfl)
    (publish_touches rfl)

/-- Both acceptances have one text. -/
theorem acceptRole_writes {env : Env} {role : Role} {readOld : Call Address}
    {saveRole : Address → Call Unit} {store : Address → BridgeConfigData → BridgeConfigData}
    {clear : Call Unit} {event : Address → Address → Event} {w w' : World} {u : Unit}
    {config : BridgeConfigData} (stores : w.Stores (some config))
    (reads : Touches otherThanRecord True readOld)
    (saves : ∀ address, Writes (role.writes address) (saveRole address))
    (same : ∀ address (config : BridgeConfigData),
      store address (config.write (role.writes address)) = config.write (role.writes address))
    (clears : Touches otherThanRecord True clear)
    (shown : ∀ old new, (event old new).isLoyaltySkip = false)
    (ran : (nonReentrant do
      checkInitialized
      checkNotDeactivated
      let found ← .read fun w => w.pending role
      let pending ← okOr found .unauthorized
      requireAuth env pending
      let old ← readOld
      saveRole pending
      let config ← readBridgeConfig
      saveBridgeConfig (store pending config)
      clear
      publish (event old pending) : Call Unit).run w = .ok (u, w')) :
    ∃ address, w.pending role = some address ∧
      w'.Stores (some (config.write (role.writes address))) := by
  obtain ⟨mid, ran, left⟩ := nonReentrant_ok ran
  obtain ⟨_, -, ran⟩ := (run_view_bind_ok checkInitialized_ok).mp ran
  obtain ⟨_, -, ran⟩ := (run_view_bind_ok checkNotDeactivated_ok).mp ran
  rw [run_read_bind] at ran
  obtain ⟨address, found, ran⟩ := run_ofOption_bind_ok.mp ran
  obtain ⟨-, ran⟩ := requireAuth_bind_ok.mp ran
  have entered : (w.put .entered true).pending role = w.pending role :=
    World.pending_congr (by cases role <;> simp [Role.slot])
  have enters : Touches otherThanRecord True (save .entered true) := save_touches _ (by simp)
  have leaves : Touches otherThanRecord True (remove .entered) := remove_touches (by simp)
  have writes : Writes (role.writes address) _ := .after reads fun old =>
    giveRole_writes (saves address) (same address) (.bind clears fun _ =>
      publish_touches (shown old address))
  refine ⟨address, entered ▸ found, ?_⟩
  rw [left]
  exact (leaves rfl).stores (writes ran config ((enters rfl).stores stores))

theorem acceptAdmin_writes {env : Env} {w w' : World} {u : Unit} {config : BridgeConfigData}
    (stores : w.Stores (some config)) (ran : (acceptAdmin env).run w = .ok (u, w')) :
    w'.Stores (some (config.write (Request.acceptAdmin.sets w))) := by
  obtain ⟨address, pending, stored⟩ := @acceptRole_writes env .admin readAdmin saveAdmin
    (fun address config => { config with admin := address }) removePendingAdmin .adminTransferred
    _ _ _ _ stores readAdmin_touches saveAdmin_writes (fun _ _ => rfl) (remove_touches (by simp))
    (fun _ _ => rfl) ran
  have same : Request.acceptAdmin.sets w = Role.writes .admin address := by
    funext field
    cases field with
    | admin => exact pending
    | _ => rfl
  rwa [same]

theorem acceptFeeCollector_writes {env : Env} {w w' : World} {u : Unit} {config : BridgeConfigData}
    (stores : w.Stores (some config)) (ran : (acceptFeeCollector env).run w = .ok (u, w')) :
    w'.Stores (some (config.write (Request.acceptFeeCollector.sets w))) := by
  obtain ⟨address, pending, stored⟩ := @acceptRole_writes env .feeCollector readFeeCollector
    saveFeeCollector (fun address config => { config with feeCollector := address })
    removePendingFeeCollector .feeCollectorTransferred _ _ _ _ stores readFeeCollector_touches
    saveFeeCollector_writes (fun _ _ => rfl) (remove_touches (by simp)) (fun _ _ => rfl) ran
  have same : Request.acceptFeeCollector.sets w = Role.writes .feeCollector address := by
    funext field
    cases field with
    | feeCollector => exact pending
    | _ => rfl
  rwa [same]

/-! ## Initialization -/

/-- The first call writes the whole record. -/
theorem initializeInner_stores {env : Env} {admin feeCollector : Address} {feeBps : UInt32}
    {nonce : Option UInt64} {wasmHash : BytesN 32} {w w' : World} {u : Unit}
    (ran : (initializeInner env admin feeCollector feeBps nonce wasmHash).run w = .ok (u, w')) :
    w'.Stores (some ⟨admin, feeCollector, feeBps, false, false⟩) := by
  obtain ⟨mid, ran, left⟩ := nonReentrant_ok ran
  rw [run_read_bind] at ran
  obtain ⟨-, ran⟩ := run_rejectIf_bind_ok.mp ran
  obtain ⟨-, ran⟩ := run_rejectIf_bind_ok.mp ran
  obtain ⟨-, ran⟩ := requireAuth_bind_ok.mp ran
  obtain ⟨_, spent, -, ran⟩ := run_bind_ok.mp ran
  simp only [saveBridgeConfig, saveCurrentWasmHash, markInitialized, save, publish,
    run_modify_bind, run_modify_ok] at ran
  rw [left, ran]
  refine ⟨?_, ?_, ?_, ?_⟩
  · simp
  · simp
  · simp
  · simp [World.initialized, World.has]

/-! ## All calls -/

/-- A field has the value that the call wrote, or else the one it had. -/
def ConfigFollows (request : Request) (w w' : World) : Prop :=
  ∀ field, w'.configured field = (request.sets w field).or (w.configured field)

theorem World.Stores.follows {request : Request} {w w' : World} {config : BridgeConfigData}
    (stores : w.Stores (some config))
    (stored : w'.Stores (some (config.write (request.sets w)))) : ConfigFollows request w w' := by
  intro field
  rw [stored.configured, stores.configured, Option.map_some, Option.map_some,
    BridgeConfigData.get_write]
  cases request.sets w field <;> rfl

theorem Request.sets_of_writesSettings {request : Request} (other : request.writesSettings = false)
    (w : World) : request.sets w = fun _ => none := by
  cases request <;> first | cases other; done | rfl

theorem execute_stores {env : Env} {request : Request} {reply : Reply} {w w' : World}
    {config : Option BridgeConfigData} (stores : w.Stores config)
    (ran : (execute env request).run w = .ok (reply, w')) :
    (∃ config', w'.Stores config') ∧ ConfigFollows request w w' := by
  have admitted := execute_admitted _ _ ran
  by_cases writes : request.writesSettings = true
  · by_cases first : request.initializes = true
    · cases request
      case initializeContract =>
        obtain ⟨_, ran, -⟩ := replying_ok.mp ran
        have stored := initializeInner_stores ran
        refine ⟨⟨_, stored⟩, fun field => ?_⟩
        rw [stored.configured]
        cases field <;> rfl
      case initializeWithWasmHash =>
        obtain ⟨_, ran, -⟩ := replying_ok.mp ran
        have stored := initializeInner_stores ran
        refine ⟨⟨_, stored⟩, fun field => ?_⟩
        rw [stored.configured]
        cases field <;> rfl
      all_goals cases first
    · have opened := admitted.initialized
      rw [stores.initialized, Bool.eq_false_iff.mpr first, Bool.not_false] at opened
      obtain ⟨config, rfl⟩ := Option.isSome_iff_exists.mp opened
      have stored : w'.Stores (some (config.write (request.sets w))) := by
        cases request
        all_goals first | exact absurd writes Bool.false_ne_true | exact absurd rfl first | skip
        all_goals obtain ⟨_, ran, -⟩ := replying_ok.mp ran
        case setFeeBps => exact setFeeBps_writes _ _ _ w ran config stores
        case setFeeCollector => exact setFeeCollector_writes _ _ _ w ran config stores
        case setAdmin => exact setAdmin_writes _ _ _ w ran config stores
        case acceptFeeCollector => exact acceptFeeCollector_writes stores ran
        case acceptAdmin => exact acceptAdmin_writes stores ran
        case pause => exact pause_writes _ _ w ran config stores
        case unpause => exact unpause_writes _ _ w ran config stores
        case setAllowlistMode => exact setAllowlistMode_writes _ _ _ w ran config stores
      exact ⟨⟨_, stored⟩, stores.follows stored⟩
  · have other : request.writesSettings = false := Bool.eq_false_iff.mpr writes
    have same : w'.Stores config := by
      refine stores.congr fun key entry => (execute_frame env request ran).store key ?_
      rcases entry with rfl | rfl | rfl | rfl
      all_goals
        intro written
        cases request
        all_goals first
          | cases other; done
          | simp [Request.writes, dailyUsages] at written
    refine ⟨⟨config, same⟩, fun field => ?_⟩
    rw [Request.sets_of_writesSettings other, same.configured, stores.configured, Option.none_or]

/-! ## Runs -/

/-- What a step writes into a field. -/
def Label.sets (field : ConfigField) : Label → Option field.Value
  | .success call => call.request.sets call.before field
  | _ => none

theorem Genesis.stores {host : Host} {w : World} (fresh : Genesis host w) : w.Stores none where
  record := by simp [fresh.store]
  admin := by simp [fresh.store]
  feeCollector := by simp [fresh.store]
  initialized := by simp [World.initialized, World.has, fresh.store]

theorem Step.stores {host : Host} {w w' : World} {label : Label} (taken : Step host w label w')
    {config : Option BridgeConfigData} (stores : w.Stores config) :
    (∃ config', w'.Stores config') ∧
      ∀ field, w'.configured field = (label.sets field).or (w.configured field) := by
  cases taken with
  | @success call _ ran =>
    have begun : call.before.begin.Stores config := stores.congr fun _ _ => rfl
    obtain ⟨stored, follows⟩ := execute_stores begun ran
    exact ⟨stored, follows⟩
  | failure => exact ⟨⟨config, stores⟩, fun field => (Option.none_or).symm⟩
  | external => exact ⟨⟨config, stores.congr fun _ _ => rfl⟩, fun field => by cases field <;> rfl⟩

theorem Reachable.stores {host : Host} {w : World} (reachable : Reachable host w) :
    ∃ config, w.Stores config := by
  obtain ⟨start, labels, fresh, run⟩ := reachable
  have kept : ∀ ⦃s label t⦄, Step host s label t → (∃ config, s.Stores config) →
      ∃ config, t.Stores config := by
    rintro s label t taken ⟨config, stores⟩
    exact (taken.stores stores).1
  exact run.stays _ kept ⟨none, fresh.stores⟩

/-- A record is stored, and each field has the value that was written last. -/
def Remembers (past : List Label) (w : World) : Prop :=
  (∃ config, w.Stores config) ∧
    ∀ field, w.configured field = (past.filterMap (Label.sets field)).getLast?

theorem Step.remembers {host : Host} {past : List Label} {w w' : World} {label : Label}
    (remembers : Remembers past w) (taken : Step host w label w') :
    Remembers (past ++ [label]) w' := by
  obtain ⟨⟨config, stores⟩, last⟩ := remembers
  obtain ⟨stored, follows⟩ := Step.stores taken stores
  refine ⟨stored, fun field => ?_⟩
  rw [follows, last, List.filterMap_append, List.getLast?_append]
  cases wrote : label.sets field <;> simp [wrote]

/-- In every world a run reaches, each field of the configuration has the value that was
written last. No step changes a field that it does not set, the rate never exceeds the
largest one, and the legacy entries of the roles agree with the record. -/
theorem last_write_wins {host : Host} {start w : World} {labels : List Label}
    (fresh : Genesis host start) (run : Run (Step host) start labels w) :
    (∀ field, w.configured field = (labels.filterMap (Label.sets field)).getLast?) ∧
      (∀ label w', Step host w label w' → ∀ field, label.sets field = none →
        w'.configured field = w.configured field) ∧
      (∀ feeBps, w.configured .feeBps = some feeBps → feeBps.toNat ≤ 1000) ∧
      w.store .admin = (w.store .bridgeConfig).map BridgeConfigData.admin ∧
      w.store .feeCollector = (w.store .bridgeConfig).map BridgeConfigData.feeCollector := by
  have reachable : Reachable host w := ⟨start, labels, fresh, run⟩
  have nothing : Remembers [] start := ⟨⟨none, fresh.stores⟩, fresh.stores.configured⟩
  have remembers : Remembers ([] ++ labels) w :=
    run.traced (fun _ _ _ _ remembers taken => Step.remembers remembers taken) nothing
  rw [List.nil_append] at remembers
  obtain ⟨⟨config, stores⟩, last⟩ := remembers
  refine ⟨last, fun label w' taken field untouched => ?_, fun feeBps rate => ?_, ?_, ?_⟩
  · rw [(Step.stores taken stores).2, untouched, Option.none_or]
  · obtain ⟨stored, found, rfl⟩ := Option.map_eq_some_iff.mp rate
    exact UInt32.le_iff_toNat_le.mp (reachable.sound.fees.bridgeConfig found)
  · rw [stores.admin, stores.record]
  · rw [stores.feeCollector, stores.record]

/-- The fee rate and the pause flag are set while the admin is handed over. -/
theorem last_write_wins_rehearsed :
    let script : List (UInt64 × Request) := [
      (0, .initializeContract (Rehearsal.address 1) (Rehearsal.address 2) 100 none),
      (0, .proposeNewAdmin (Rehearsal.address 5) none), (0, .setFeeBps 250 none), (0, .acceptAdmin),
      (0, .setAllowlistMode true none), (0, .pause none)]
    (((Rehearsal.calls script).map Label.success).filterMap (Label.sets .admin)).getLast? =
        some (Rehearsal.address 5) ∧
      (Rehearsal.outcome script).configured .admin = some (Rehearsal.address 5) ∧
      (Rehearsal.outcome script).configured .feeBps =
        (((Rehearsal.calls script).map Label.success).filterMap (Label.sets .feeBps)).getLast? := by
  intro script
  have last : (((Rehearsal.calls script).map Label.success).filterMap
      (Label.sets .admin)).getLast? = some (Rehearsal.address 5) := by decide +kernel
  obtain ⟨wins, -⟩ := last_write_wins Rehearsal.fresh_genesis
    (Rehearsal.run script (by decide +kernel))
  exact ⟨last, (wins .admin).trans last, wins .feeBps⟩

end OnboardingBridge.Contract
