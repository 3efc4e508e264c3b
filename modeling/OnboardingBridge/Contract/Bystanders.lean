import OnboardingBridge.Contract.DailyLimits
import OnboardingBridge.Foundations.Commuting

/-!
# Entries that a funding does not look at

The deposit counter of a source is written and read in one place only, and so is the loyalty
token read. The other parts of a funding run alike whatever is stored there (`Ignores`).
-/

set_option autoImplicit false

namespace OnboardingBridge.Contract

open Foundations Foundations.Tx

/-- Whether a key is looked at by one helper only. -/
abbrev DataKey.isBystander : DataKey → Bool
  | .loyaltyToken | .userDeposit .. => true
  | _ => false

/-- Store a value, or remove it. -/
def World.write (w : World) (key : DataKey) (value : Option key.Value) : World :=
  { w with store := Function.update w.store key value }

section Projections

variable {w : World} {key : DataKey} {value : Option key.Value}

@[simp] theorem write_tokens : (w.write key value).tokens = w.tokens := rfl
@[simp] theorem write_wasm : (w.write key value).wasm = w.wasm := rfl
@[simp] theorem write_self : (w.write key value).store key = value := Function.update_self ..

@[simp] theorem write_of_ne {other : DataKey} (different : other ≠ key) :
    (w.write key value).store other = w.store other := Function.update_of_ne different ..

/-- The other entries are read as before. -/
theorem write_store {other : DataKey} (bystander : key.isBystander = true)
    (plain : other.isBystander = false) : (w.write key value).store other = w.store other :=
  write_of_ne fun same => by simp [same, bystander] at plain

theorem write_put {other : DataKey} {entry : other.Value} (different : other ≠ key) :
    (w.write key value).put other entry = (w.put other entry).write key value :=
  congrArg (fun store => { w with store }) (Function.update_comm different.symm ..)

theorem write_erase {other : DataKey} (different : other ≠ key) :
    (w.write key value).erase other = (w.erase other).write key value :=
  congrArg (fun store => { w with store }) (Function.update_comm different.symm ..)

end Projections

/-! ## Changes that a funding does not notice -/

/-- A change of the world that leaves the tokens and all entries but the bystanders as they are,
and that may be made before or after what a call does to the world. -/
structure Unnoticed (f : World → World) : Prop where
  store : ∀ w key, key.isBystander = false → (f w).store key = w.store key
  tokens : ∀ w, (f w).tokens = w.tokens
  put : ∀ (w : World) (key : DataKey) (value : key.Value), key.isBystander = false →
    (f w).put key value = f (w.put key value)
  erase : ∀ w key, key.isBystander = false → (f w).erase key = f (w.erase key)
  emit : ∀ w event, (f w).emit event = f (w.emit event)
  settle : ∀ w ledger call, (f w).settle ledger call = f (w.settle ledger call)
  trade : ∀ w ledger, { f w with tokens := ledger } = f { w with tokens := ledger }

theorem write_unnoticed {key : DataKey} (bystander : key.isBystander = true)
    (value : Option key.Value) : Unnoticed fun w => w.write key value where
  store _ _ plain := write_store bystander plain
  tokens _ := rfl
  put _ _ _ plain := write_put fun same => by simp [same, bystander] at plain
  erase _ _ plain := write_erase fun same => by simp [same, bystander] at plain
  emit _ _ := rfl
  settle _ _ _ := rfl
  trade _ _ := rfl

section Helpers

variable {f : World → World} (aside : Unnoticed f)
include aside

theorem save_commutes {key : DataKey} (value : key.Value) (plain : key.isBystander = false) :
    Commutes f (save key value) := .modify fun w => aside.put w key value plain

theorem publish_commutes (event : Event) : Commutes f (publish event) :=
  .modify fun w => aside.emit w event

theorem stored_commutes {α : Type} (key : DataKey) (plain : key.isBystander = false)
    (g : Option key.Value → α) :
    Commutes f (.read fun w => g (w.store key) : Call α) :=
  .read fun w => congrArg g (aside.store w key plain)

theorem balance_commutes (asset holder : Address) : Commutes f (balance asset holder) :=
  .read fun w => by rw [aside.tokens]

theorem transfer_commutes (env : Env) (asset src dst : Address) (amount : I128) :
    Commutes f (transfer env asset src dst amount) := by
  refine .bind (.rejectIf _ _) fun _ => .bind (.rejectIf _ _) fun _ => ?_
  refine .bind (.read aside.tokens) fun tokens => .bind (.ofOption _ _) fun moved => ?_
  exact .modify fun w => aside.settle w _ _

theorem transferFrom_commutes (env : Env) (asset src dst : Address) (amount : I128) :
    Commutes f (transferFrom env asset src dst amount) := by
  refine .bind (.rejectIf _ _) fun _ => .bind (.read aside.tokens) fun tokens => ?_
  refine .bind (.rejectIf _ _) fun _ => .bind (.ofOption _ _) fun allowance => ?_
  exact .bind (.ofOption _ _) fun moved => .modify fun w => aside.settle w _ _

theorem invokeSwap_commutes (env : Env) (pool : Address) (minAmountOut : I128) :
    Commutes f (invokeSwap env pool minAmountOut) := by
  refine .bind (.rejectIf _ _) fun _ => .bind (.read aside.tokens) fun tokens => ?_
  refine .bind (.ofOption _ _) fun swapped => ?_
  exact .bind (.modify fun w => aside.trade w _) fun _ => .pure _

theorem bridgeConfig?_unnoticed (w : World) : (f w).bridgeConfig? = w.bridgeConfig? := by
  unfold World.bridgeConfig?
  simp only [aside.store w .bridgeConfig rfl, aside.store w .admin rfl,
    aside.store w .feeCollector rfl, aside.store w .feeBps rfl]

theorem readConfig_commutes : Commutes f readConfig :=
  .bind (.bind (.read (bridgeConfig?_unnoticed aside)) fun _ => .ofOption _ _) fun _ => .pure _

theorem readFeeBps_commutes : Commutes f readFeeBps :=
  .bind (.bind (.read (bridgeConfig?_unnoticed aside)) fun _ => .ofOption _ _) fun _ => .pure _

theorem checkInitialized_commutes : Commutes f checkInitialized :=
  .bind (stored_commutes aside .initialized rfl Option.isSome) fun _ => .rejectIf _ _

theorem checkNotPaused_commutes : Commutes f checkNotPaused := by
  refine .bind (.bind (stored_commutes aside .deactivated rfl Option.isSome) fun _ =>
    .rejectIf _ _) fun _ => ?_
  exact .bind (.bind (readConfig_commutes aside) fun _ => .pure _) fun _ => .rejectIf _ _

theorem accessError_commutes (target : Address) : Commutes f (accessError target) := by
  refine .bind (stored_commutes aside (.blocked target) rfl (·.getD false)) fun _ =>
    .ite (.pure _) ?_
  refine .bind (.bind (readConfig_commutes aside) fun _ => .pure _) fun _ => ?_
  exact .bind (stored_commutes aside (.allowlisted target) rfl (·.getD false)) fun _ =>
    .ite (.pure _) (.pure _)

theorem checkAccess_commutes (target : Address) : Commutes f (checkAccess target) := by
  refine .bind (accessError_commutes aside target) fun error => ?_
  cases error with
  | none => exact .pure _
  | some reason => exact .fail _

theorem checkReferrerAccess_commutes (referrer : Option Address) :
    Commutes f (checkReferrerAccess referrer) := by
  cases referrer with
  | none => exact .pure _
  | some referrer => exact checkAccess_commutes aside referrer

theorem checkAssetWhitelisted_commutes (asset : Address) :
    Commutes f (checkAssetWhitelisted asset) :=
  .bind (stored_commutes aside .assetWhitelist rfl (·.getD OrderedMap.empty)) fun _ => .rejectIf _ _

theorem checkPoolWhitelisted_commutes (pool : Address) : Commutes f (checkPoolWhitelisted pool) :=
  .bind (stored_commutes aside .poolWhitelist rfl (·.getD OrderedMap.empty)) fun _ => .rejectIf _ _

theorem checkDailyLimit_commutes (env : Env) (source asset : Address) (amount : I128) :
    Commutes f (checkDailyLimit env source asset amount) := by
  refine .bind (stored_commutes aside (.sourceDailyLimit source asset) rfl (·.getD 0)) fun _ =>
    .ite (.pure _) ?_
  refine .bind (stored_commutes aside (.dailyUsage source asset (currentDay env)) rfl (·.getD 0))
    fun _ => .bind (.ofExcept _ _) fun _ => ?_
  exact .bind (.rejectIf _ _) fun _ => save_commutes aside _ rfl

omit aside in
theorem requireAuth_commutes (env : Env) (address : Address) :
    Commutes f (requireAuth env address) := .rejectIf _ _

theorem consumeNonce_commutes (caller : Address) (nonce : Option UInt64) :
    Commutes f (consumeNonce caller nonce) := by
  cases nonce with
  | none => exact .pure _
  | some n =>
      refine .bind (stored_commutes aside (.nonce caller) rfl (·.getD 0)) fun _ => ?_
      refine .bind (.rejectIf _ _) fun _ => .bind (.ofOption _ _) fun _ => ?_
      exact save_commutes aside _ rfl

theorem getTieredFeeBps_commutes (source asset : Address) (fallbackBps : UInt32) :
    Commutes f (getTieredFeeBps source asset fallbackBps) := by
  refine .bind (stored_commutes aside .feeTiers rfl id) fun tiers => ?_
  refine .bind (stored_commutes aside (.sourceBridgedVolume source asset) rfl (·.getD 0))
    fun volume => ?_
  split
  · exact .pure _
  · exact .pure _

theorem getEffectiveFeeBps_commutes (asset : Address) (globalFeeBps : UInt32) :
    Commutes f (getEffectiveFeeBps asset globalFeeBps) :=
  .ite (.pure _)
    (.bind (stored_commutes aside (.assetFeeCap asset) rfl (·.getD maxFeeBps)) fun _ => .pure _)

theorem updateAssetCountersSplit_commutes (asset : Address) (accrued fees bridged : I128) :
    Commutes f (updateAssetCountersSplit asset accrued fees bridged) := by
  refine .bind (stored_commutes aside (.assetStats asset) rfl (·.getD ⟨0, 0, 0, 0⟩)) fun counters => ?_
  refine .bind (.ofExcept _ _) fun _ => .bind (.ofExcept _ _) fun _ => ?_
  exact .bind (.ofExcept _ _) fun _ => save_commutes aside _ rfl

theorem incrementLockedTimelock_commutes (asset : Address) (amount : I128) :
    Commutes f (incrementLockedTimelock asset amount) := by
  refine .bind (stored_commutes aside (.assetStats asset) rfl (·.getD ⟨0, 0, 0, 0⟩)) fun counters => ?_
  exact .bind (.ofExcept _ _) fun _ => save_commutes aside _ rfl

theorem decrementCrosschainReserve_commutes (asset : Address) (amount : I128) :
    Commutes f (decrementCrosschainReserve asset amount) := by
  refine .bind (stored_commutes aside (.crossChainReserve asset) rfl (·.getD 0)) fun reserve => ?_
  exact .bind (.rejectIf _ _) fun _ => .bind (.ofExcept _ _) fun _ => save_commutes aside _ rfl

theorem incrementSourceBridgedVolume_commutes (source asset : Address) (amount : I128) :
    Commutes f (incrementSourceBridgedVolume source asset amount) := by
  refine .bind (stored_commutes aside (.sourceBridgedVolume source asset) rfl (·.getD 0))
    fun volume => ?_
  exact .bind (.ofExcept _ _) fun _ => save_commutes aside _ rfl

theorem nextTimelockId_commutes : Commutes f nextTimelockId := by
  refine .bind (stored_commutes aside .timelockId rfl (·.getD 0)) fun id => ?_
  refine .bind (.ofOption _ _) fun next => ?_
  exact .bind (save_commutes aside _ rfl) fun _ => .pure _

theorem payReferral_commutes (env : Env) (source asset : Address) (fee : I128)
    (referrer : Option Address) : Commutes f (payReferral env source asset fee referrer) := by
  cases referrer with
  | none => exact .pure _
  | some referrer =>
      refine .bind (stored_commutes aside .referralRate rfl (·.getD 0)) fun rate => ?_
      refine .bind (.ofExcept _ _) fun _ => ?_
      refine .ite ?_ (.pure _)
      refine .bind (transfer_commutes aside _ _ _ _ _) fun _ => .bind (.ofExcept _ _) fun _ => ?_
      exact .bind (publish_commutes aside _) fun _ => .pure _

omit aside in
theorem validateAmounts_commutes (minimum total : I128) (amounts : List I128) :
    Commutes f (validateAmounts minimum total amounts) := by
  induction amounts generalizing total with
  | nil => exact .pure _
  | cons amount rest ih => exact .bind (.rejectIf _ _) fun _ => .bind (.ofExcept _ _) fun _ => ih _

theorem accessibleTotal_commutes (total : I128) (entries : List (Address × I128)) :
    Commutes f (accessibleTotal total entries) := by
  induction entries generalizing total with
  | nil => exact .pure _
  | cons entry rest ih =>
      refine .bind (accessError_commutes aside _) fun error => .ite ?_ (ih _)
      exact .bind (.ofExcept _ _) fun _ => ih _

theorem deliverBatch_commutes (env : Env) (source asset : Address) (feeBps : UInt32)
    (progress : BatchProgress) (entries : List (Address × I128)) :
    Commutes f (deliverBatch env source asset feeBps progress entries) := by
  induction entries generalizing progress with
  | nil => exact .pure _
  | cons entry rest ih =>
      refine .bind (accessError_commutes aside _) fun error => .ite ?_ ?_
      · refine .bind (.ofOption _ _) fun _ => .bind (.ofExcept _ _) fun _ => ?_
        exact .bind (publish_commutes aside _) fun _ => ih _
      · refine .bind (.ofExcept _ _) fun _ => .bind (.ofExcept _ _) fun _ => ?_
        refine .bind (.onlyIf (transfer_commutes aside _ _ _ _ _)) fun _ => ?_
        refine .bind (updateAssetCountersSplit_commutes aside _ _ _ _) fun _ => ?_
        exact .bind (.ofOption _ _) fun _ => .bind (publish_commutes aside _) fun _ => ih _

omit aside in
theorem verifySignature_commutes (env : Env) (pubkey message : BytesN 32) (signature : BytesN 64) :
    Commutes f (verifySignature env pubkey message signature) :=
  .bind (.rejectIf _ _) fun _ => .rejectIf _ _

theorem verifyRelayerSigs_commutes (env : Env) (payloadHash : BytesN 32) (seen : List (BytesN 32))
    (sigs : List RelayerSig) : Commutes f (verifyRelayerSigs env payloadHash seen sigs) := by
  induction sigs generalizing seen with
  | nil => exact .pure _
  | cons sig rest ih =>
      refine .bind (stored_commutes aside (.relayer sig.pubkey) rfl (·.getD false)) fun _ => ?_
      refine .bind (.rejectIf _ _) fun _ => .bind (.rejectIf _ _) fun _ => ?_
      exact .bind (verifySignature_commutes _ _ _ _) fun _ => ih _

end Helpers

end OnboardingBridge.Contract
