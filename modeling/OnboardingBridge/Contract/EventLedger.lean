import Mathlib.Algebra.BigOperators.Group.List.Basic
import Mathlib.Algebra.Group.Pi.Basic
import Mathlib.Tactic.Abel
import OnboardingBridge.Contract.FundingPaths

/-!
# The figures that the events tell

The contract keeps figures: four counters and a reserve of each asset, and the volume that each
source has bridged in an asset. An event adds to some of them. A call changes the figures by
what its events add (`execute_keepsGap`), so whoever reads all events of a run knows the figures
without reading the storage (`figures_announced`).

The gap between the figures and the events is followed through the parts of a call: most parts
leave it as it is, counting opens it and an event closes it.
-/

set_option autoImplicit false

namespace OnboardingBridge.Contract

open Foundations Foundations.Tx

/-! ## Figures -/

/-- A figure that the contract keeps of an asset, or of a source in an asset. -/
inductive Figure where
  | accruedFees (asset : Address)
  | totalFeesCollected (asset : Address)
  | totalBridged (asset : Address)
  | lockedTimelock (asset : Address)
  | crosschainReserve (asset : Address)
  | bridgedVolume (source asset : Address)
deriving DecidableEq

/-- The stored value of a figure. -/
def World.figure (w : World) : Figure → Int
  | .accruedFees asset => (w.counters asset).accruedFees.val
  | .totalFeesCollected asset => (w.counters asset).totalFeesCollected.val
  | .totalBridged asset => (w.counters asset).totalBridged.val
  | .lockedTimelock asset => (w.counters asset).lockedTimelock.val
  | .crosschainReserve asset => (w.crosschainReserve asset).val
  | .bridgedVolume source asset => (w.sourceBridgedVolume source asset).val

/-- Accrued and collected fees and a bridged amount. -/
def counted (asset : Address) (accrued collected bridged : Int) : Figure → Int :=
  Pi.single (.accruedFees asset) accrued + Pi.single (.totalFeesCollected asset) collected
    + Pi.single (.totalBridged asset) bridged

/-- A funding counts its fee and the rest of its amount, and the volume of its source grows by the
whole amount. -/
def funded (source asset : Address) (amount fee : Int) : Figure → Int :=
  counted asset fee fee (amount - fee) + Pi.single (.bridgedVolume source asset) amount

/-- What an event adds to the figures. -/
def Event.adds : Event → Figure → Int
  | .cAddressFunded asset source _ amount fee => funded source asset amount.val fee.val
  | .swapAndFunded _ targetAsset source _ _ receivedAmount fee =>
      funded source targetAsset receivedAmount.val fee.val
  | .commitRevealFunded asset source _ _ amount fee => funded source asset amount.val fee.val
  | .metaFundExecuted asset source _ amount fee _ => funded source asset amount.val fee.val
  | .referralPaid _ _ referralFee asset => Pi.single (.accruedFees asset) (-referralFee.val)
  | .feesWithdrawn _ amount asset => Pi.single (.accruedFees asset) (-amount.val)
  | .timelockCreated _ _ _ amount asset _ _ => Pi.single (.lockedTimelock asset) amount.val
  | .timelockClaimed _ _ netAmount fee asset =>
      counted asset fee.val fee.val netAmount.val
        + Pi.single (.lockedTimelock asset) (-(netAmount.val + fee.val))
  | .crossChainReserveFunded asset _ amount => Pi.single (.crosschainReserve asset) amount.val
  | .crossChainReserveWithdrawn asset _ amount =>
      Pi.single (.crosschainReserve asset) (-amount.val)
  | .crossChainFunded _ _ _ amount fee asset =>
      counted asset 0 0 (amount.val - fee.val)
        + Pi.single (.crosschainReserve asset) (-(amount.val - fee.val))
  | _ => 0

/-- What a list of events adds. -/
def announced (events : List Event) : Figure → Int := (events.map Event.adds).sum

@[simp] theorem announced_nil : announced [] = 0 := rfl

@[simp] theorem announced_append (first second : List Event) :
    announced (first ++ second) = announced first + announced second := by
  simp [announced]

@[simp] theorem announced_singleton (event : Event) : announced [event] = event.adds := by
  simp [announced]

/-- What the figures have that the events of the call have not told yet. -/
def World.unannounced (w : World) : Figure → Int := w.figure - announced w.events

/-! ## The gap between the figures and the events -/

/-- The gap grows by so much. -/
def Opened (gap : Figure → Int) (w w' : World) : Prop := w'.unannounced = w.unannounced + gap

/-- The gap is the same. -/
def SameGap (w w' : World) : Prop := w'.unannounced = w.unannounced

instance sameGap_isPreorder : IsPreorder World SameGap where
  refl _ := rfl
  trans _ _ _ first second := Eq.trans second first

/-- Every successful run of a part of a call opens a gap. -/
abbrev OpensGap (gap : Figure → Int) {α : Type} (body : Call α) : Prop :=
  Preserves (Opened gap) body

/-- Every successful run leaves the gap as it is. -/
abbrev KeepsGap {α : Type} (body : Call α) : Prop := Preserves SameGap body

namespace OpensGap

variable {α β : Type} {body : Call α} {rest : α → Call β} {gap gap' : Figure → Int}

theorem congr (opens : OpensGap gap body) (same : gap = gap') : OpensGap gap' body := same ▸ opens

theorem keepsGap (opens : OpensGap 0 body) : KeepsGap body := by
  intro w a w' ran
  have opened : w'.unannounced = w.unannounced + 0 := opens ran
  rwa [add_zero] at opened

theorem of_keepsGap (keeps : KeepsGap body) : OpensGap 0 body := by
  intro w a w' ran
  have balanced : w'.unannounced = w.unannounced := keeps ran
  rw [Opened, balanced, add_zero]

theorem bind (first : OpensGap gap body) (next : ∀ a, OpensGap gap' (rest a)) :
    OpensGap (gap + gap') (body >>= rest) := by
  intro w b w' ran
  obtain ⟨a, t, ran₁, ran₂⟩ := run_bind_ok.mp ran
  have before : t.unannounced = w.unannounced + gap := first ran₁
  have after : w'.unannounced = t.unannounced + gap' := next a ran₂
  rw [Opened, after, before, add_assoc]

theorem after (first : KeepsGap body) (next : ∀ a, OpensGap gap (rest a)) :
    OpensGap gap (body >>= rest) := by
  refine Preserves.after (fun w t w' balanced opened => ?_) first next
  exact opened.trans (by rw [balanced])

theorem before (first : OpensGap gap body) (next : ∀ a, KeepsGap (rest a)) :
    OpensGap gap (body >>= rest) := by
  refine Preserves.before (fun w t w' opened balanced => ?_) first next
  exact balanced.trans opened

/-- The rest of a difference knows what it is the difference of. -/
theorem difference {amount fee : I128} {rest : I128 → Call β}
    (next : ∀ net : I128, net.val = amount.val - fee.val → OpensGap gap (rest net)) :
    OpensGap gap (liftResult (safeSub amount fee) >>= rest) := by
  intro w b w' ran
  obtain ⟨net, parts, ran⟩ := run_ofExcept_bind_ok.mp ran
  exact next net (safeSub_ok.mp parts) ran

end OpensGap

/-! ## Parts that leave the gap alone -/

/-- Whether a key holds figures. -/
abbrev DataKey.isFigure : DataKey → Bool
  | .assetStats _ | .crossChainReserve _ | .sourceBridgedVolume .. => true
  | _ => false

/-- Worlds that store the same figures and have the same events have the same gap. -/
theorem sameGap_of_same {w w' : World}
    (figures : ∀ key, key.isFigure = true → w'.store key = w.store key)
    (events : w'.events = w.events) : SameGap w w' := by
  have same : w'.figure = w.figure := by
    funext figure
    cases figure <;> simp only [World.figure, World.counters, World.crosschainReserve,
      World.sourceBridgedVolume] <;> rw [figures _ rfl]
  rw [SameGap, World.unannounced, World.unannounced, same, events]

section KeepsGap

@[simp, grind ←] theorem save_keepsGap {key : DataKey} (value : key.Value)
    (plain : key.isFigure = false) : KeepsGap (save key value) := by
  refine Preserves.modify fun w => sameGap_of_same (fun other figure => ?_) rfl
  have different : other ≠ key := by
    rintro rfl
    simp [plain] at figure
  simp [different]

@[simp, grind ←] theorem remove_keepsGap {key : DataKey} (plain : key.isFigure = false) :
    KeepsGap (remove key) := by
  refine Preserves.modify fun w => sameGap_of_same (fun other figure => ?_) rfl
  have different : other ≠ key := by
    rintro rfl
    simp [plain] at figure
  simp [different]

theorem publish_opens (event : Event) : OpensGap (-event.adds) (publish event) := by
  refine Preserves.modify fun w => ?_
  have figures : (w.emit event).figure = w.figure := rfl
  rw [Opened, World.unannounced, World.unannounced, figures, World.emit_events, announced_append,
    announced_singleton]
  abel

@[simp, grind ←] theorem publish_keepsGap {event : Event} (silent : event.adds = 0) :
    KeepsGap (publish event) :=
  ((publish_opens event).congr (by rw [silent, neg_zero])).keepsGap

@[simp, grind ←] theorem updateWasm_keepsGap (hash : BytesN 32) :
    KeepsGap (updateCurrentContractWasm hash) :=
  Preserves.modify fun _ => sameGap_of_same (fun _ _ => rfl) rfl

@[simp, grind ←] theorem requireAuth_keepsGap (env : Env) (address : Address) :
    KeepsGap (requireAuth env address) := by
  grind [requireAuth]

@[simp, grind ←] theorem transfer_keepsGap (env : Env) (asset src dst : Address) (amount : I128) :
    KeepsGap (transfer env asset src dst amount) := by
  intro w _ w' ran
  obtain ⟨moved, -, rfl⟩ := transfer_ok ran
  exact sameGap_of_same (fun _ _ => rfl) rfl

@[simp, grind ←] theorem transferFrom_keepsGap (env : Env) (asset src dst : Address)
    (amount : I128) : KeepsGap (transferFrom env asset src dst amount) := by
  intro w _ w' ran
  obtain ⟨_, moved, -, -, -, rfl⟩ := transferFrom_ok ran
  exact sameGap_of_same (fun _ _ => rfl) rfl

@[simp, grind ←] theorem invokeSwap_keepsGap (env : Env) (pool : Address) (minAmountOut : I128) :
    KeepsGap (invokeSwap env pool minAmountOut) := by
  intro w _ w' ran
  obtain ⟨-, swapped, -, rfl⟩ := invokeSwap_ok ran
  exact sameGap_of_same (fun _ _ => rfl) rfl

@[simp, grind ←] theorem liftResult_keepsGap {α : Type} (result : Except BridgeError α) :
    KeepsGap (liftResult result) :=
  .ofExcept _ _

@[simp, grind ←] theorem incrementU64_keepsGap (n : UInt64) : KeepsGap (incrementU64 n) := by
  grind [incrementU64]

@[simp, grind ←] theorem incrementU32_keepsGap (n : UInt32) : KeepsGap (incrementU32 n) := by
  grind [incrementU32]

@[simp, grind ←] theorem readBridgeConfig_keepsGap : KeepsGap readBridgeConfig := by
  grind [readBridgeConfig]

@[simp, grind ←] theorem readConfig_keepsGap : KeepsGap readConfig := by
  grind [readConfig]

@[simp, grind ←] theorem readAdmin_keepsGap : KeepsGap readAdmin := by
  grind [readAdmin]

@[simp, grind ←] theorem readFeeCollector_keepsGap : KeepsGap readFeeCollector := by
  grind [readFeeCollector]

@[simp, grind ←] theorem readFeeBps_keepsGap : KeepsGap readFeeBps := by
  grind [readFeeBps]

@[simp, grind ←] theorem allowlistMode_keepsGap : KeepsGap allowlistMode := by
  grind [allowlistMode]

@[simp, grind ←] theorem readPaused_keepsGap : KeepsGap readPaused := by
  grind [readPaused]

@[simp, grind ←] theorem saveConfig_keepsGap (config : BridgeConfig) :
    KeepsGap (saveConfig config) := by
  grind [saveConfig]

@[simp, grind ←] theorem saveFeeBps_keepsGap (feeBps : UInt32) : KeepsGap (saveFeeBps feeBps) := by
  grind [saveFeeBps]

@[simp, grind ←] theorem setPaused_keepsGap (paused : Bool) : KeepsGap (setPaused paused) := by
  grind [setPaused]

@[simp, grind ←] theorem setAllowlistModeFlag_keepsGap (enabled : Bool) :
    KeepsGap (setAllowlistModeFlag enabled) := by
  grind [setAllowlistModeFlag]

@[simp, grind ←] theorem saveAdmin_keepsGap (admin : Address) : KeepsGap (saveAdmin admin) := by
  refine Preserves.bind (save_keepsGap _ rfl) fun _ => Preserves.bind (.read _) fun config => ?_
  cases config <;> grind

@[simp, grind ←] theorem saveFeeCollector_keepsGap (feeCollector : Address) :
    KeepsGap (saveFeeCollector feeCollector) := by
  refine Preserves.bind (save_keepsGap _ rfl) fun _ => Preserves.bind (.read _) fun config => ?_
  cases config <;> grind

@[simp, grind ←] theorem checkInitialized_keepsGap : KeepsGap checkInitialized := by
  grind [checkInitialized]

@[simp, grind ←] theorem checkNotDeactivated_keepsGap : KeepsGap checkNotDeactivated := by
  grind [checkNotDeactivated]

@[simp, grind ←] theorem checkNotPaused_keepsGap : KeepsGap checkNotPaused := by
  grind [checkNotPaused]

@[simp, grind ←] theorem checkRecoveryAllowed_keepsGap : KeepsGap checkRecoveryAllowed := by
  grind [checkRecoveryAllowed]

@[simp, grind ←] theorem accessError_keepsGap (target : Address) :
    KeepsGap (accessError target) := by
  grind [accessError]

@[simp, grind ←] theorem checkAccess_keepsGap (target : Address) :
    KeepsGap (checkAccess target) := by
  refine Preserves.bind (accessError_keepsGap target) fun error => ?_
  cases error <;> grind

@[simp, grind ←] theorem checkAssetWhitelisted_keepsGap (asset : Address) :
    KeepsGap (checkAssetWhitelisted asset) := by
  grind [checkAssetWhitelisted]

@[simp, grind ←] theorem checkPoolWhitelisted_keepsGap (pool : Address) :
    KeepsGap (checkPoolWhitelisted pool) := by
  grind [checkPoolWhitelisted]

@[simp, grind ←] theorem readAccruedFees_keepsGap (asset : Address) :
    KeepsGap (readAccruedFees asset) := by
  grind [readAccruedFees]

@[simp, grind ←] theorem incrementUserDeposit_keepsGap (source asset : Address) (amount : I128) :
    KeepsGap (incrementUserDeposit source asset amount) := by
  grind [incrementUserDeposit]

@[simp, grind ←] theorem consumeNonce_keepsGap (caller : Address) (nonce : Option UInt64) :
    KeepsGap (consumeNonce caller nonce) := by
  cases nonce <;> grind [consumeNonce]

@[simp, grind ←] theorem markAuthNonceUsed_keepsGap (source : Address) (nonce : UInt64) :
    KeepsGap (markAuthNonceUsed source nonce) := by
  grind [markAuthNonceUsed]

@[simp, grind ←] theorem consumeAuthNonce_keepsGap (env : Env) (source : Address) (nonce : UInt64)
    (validAfterLedger validBeforeLedger : UInt32) :
    KeepsGap (consumeAuthNonce env source nonce validAfterLedger validBeforeLedger) := by
  unfold consumeAuthNonce
  repeat' with_reducible refine Preserves.bind ?_ fun _ => ?_
  all_goals first | exact publish_keepsGap rfl | simp

@[simp, grind ←] theorem authorizeAdmin_keepsGap (env : Env) (nonce : Option UInt64) :
    KeepsGap (authorizeAdmin env nonce) := by
  grind [authorizeAdmin]

@[simp, grind ←] theorem checkDailyLimit_keepsGap (env : Env) (source asset : Address)
    (amount : I128) : KeepsGap (checkDailyLimit env source asset amount) := by
  grind [checkDailyLimit]

@[simp, grind ←] theorem getEffectiveFeeBps_keepsGap (asset : Address) (globalFeeBps : UInt32) :
    KeepsGap (getEffectiveFeeBps asset globalFeeBps) := by
  grind [getEffectiveFeeBps]

@[simp, grind ←] theorem getTieredFeeBps_keepsGap (source asset : Address) (fallbackBps : UInt32) :
    KeepsGap (getTieredFeeBps source asset fallbackBps) := by
  refine Preserves.bind (.read _) fun tiers => Preserves.bind (.read _) fun volume => ?_
  cases tiers.bind (·.find? (·.contains volume)) <;> grind

@[simp, grind ←] theorem mintLoyaltyTokens_keepsGap (env : Env) (recipient : Address) :
    KeepsGap (mintLoyaltyTokens env recipient) := by
  refine Preserves.bind (.read _) fun loyaltyToken => ?_
  cases loyaltyToken <;> grind [Event.adds]

@[simp, grind ←] theorem nextTimelockId_keepsGap : KeepsGap nextTimelockId := by
  grind [nextTimelockId]

@[simp, grind ←] theorem nextCommitmentId_keepsGap : KeepsGap nextCommitmentId := by
  grind [nextCommitmentId]

@[simp, grind ←] theorem registerRelayer_keepsGap (pubkey : BytesN 32) :
    KeepsGap (registerRelayer pubkey) := by
  grind [registerRelayer]

@[simp, grind ←] theorem unregisterRelayer_keepsGap (pubkey : BytesN 32) :
    KeepsGap (unregisterRelayer pubkey) := by
  grind [unregisterRelayer]

@[simp, grind ←] theorem replying_keepsGap {α : Type} {body : Call α} {reply : α → Reply}
    (inner : KeepsGap body) : KeepsGap (replying body reply) := by
  grind [replying]

@[simp, grind ←] theorem validateAmounts_keepsGap (minimum total : I128) (amounts : List I128) :
    KeepsGap (validateAmounts minimum total amounts) := by
  induction amounts generalizing total with
  | nil => grind [validateAmounts]
  | cons amount rest ih => grind [validateAmounts]

@[simp, grind ←] theorem checkReferrerAccess_keepsGap (referrer : Option Address) :
    KeepsGap (checkReferrerAccess referrer) := by
  cases referrer <;> grind [checkReferrerAccess]

@[simp, grind ←] theorem verifySignature_keepsGap (env : Env) (pubkey message : BytesN 32)
    (signature : BytesN 64) : KeepsGap (verifySignature env pubkey message signature) := by
  grind [verifySignature]

@[simp, grind ←] theorem verifyRelayerSigs_keepsGap (env : Env) (payloadHash : BytesN 32)
    (seen : List (BytesN 32)) (sigs : List RelayerSig) :
    KeepsGap (verifyRelayerSigs env payloadHash seen sigs) := by
  induction sigs generalizing seen with
  | nil => grind [verifyRelayerSigs]
  | cons sig rest ih => grind [verifyRelayerSigs]

@[simp, grind ←] theorem validateFeeTiers_keepsGap (previousMax : Option I128)
    (tiers : List FeeTier) : KeepsGap (validateFeeTiers previousMax tiers) := by
  induction tiers generalizing previousMax with
  | nil => grind [validateFeeTiers]
  | cons tier rest ih => grind [validateFeeTiers]

@[simp, grind ←] theorem publishMigrationData_keepsGap : KeepsGap publishMigrationData := by
  unfold publishMigrationData
  repeat' with_reducible refine Preserves.bind ?_ fun _ => ?_
  all_goals first | exact publish_keepsGap rfl | simp

end KeepsGap

/-! ## Parts that count -/

section Counting

variable {w : World} {asset : Address}

theorem opened_of_figure {w w' : World} {gap : Figure → Int} (figure : w'.figure = w.figure + gap)
    (events : w'.events = w.events) : Opened gap w w' := by
  rw [Opened, World.unannounced, World.unannounced, figure, events]
  abel

theorem figure_put_counters (counters : AssetCounters) :
    (w.put (.assetStats asset) counters).figure = w.figure
      + counted asset (counters.accruedFees.val - (w.counters asset).accruedFees.val)
        (counters.totalFeesCollected.val - (w.counters asset).totalFeesCollected.val)
        (counters.totalBridged.val - (w.counters asset).totalBridged.val)
      + Pi.single (.lockedTimelock asset)
        (counters.lockedTimelock.val - (w.counters asset).lockedTimelock.val) := by
  funext figure
  cases figure with
  | crosschainReserve => simp [World.figure, World.crosschainReserve, counted]
  | bridgedVolume => simp [World.figure, World.sourceBridgedVolume, counted]
  | accruedFees asset' | totalFeesCollected asset' | totalBridged asset' | lockedTimelock asset' =>
    by_cases same : asset' = asset
    · subst same
      simp [World.figure, World.counters, counted]
    · simp [World.figure, World.counters, counted, same]

theorem figure_put_reserve (reserve : I128) :
    (w.put (.crossChainReserve asset) reserve).figure = w.figure
      + Pi.single (.crosschainReserve asset) (reserve.val - (w.crosschainReserve asset).val) := by
  funext figure
  cases figure with
  | crosschainReserve asset' =>
    by_cases same : asset' = asset
    · subst same
      simp [World.figure, World.crosschainReserve]
    · simp [World.figure, World.crosschainReserve, same]
  | bridgedVolume => simp [World.figure, World.sourceBridgedVolume]
  | accruedFees | totalFeesCollected | totalBridged | lockedTimelock =>
    simp [World.figure, World.counters]

theorem updateAssetCountersSplit_opens (asset : Address) (accrued fee net : I128) :
    OpensGap (counted asset accrued.val fee.val net.val)
      (updateAssetCountersSplit asset accrued fee net) := by
  intro w u w' ran
  obtain ⟨accruedFees, totalBridged, totalFees, accrues, bridges, totals, rfl⟩ :=
    updateAssetCountersSplit_ok.mp ran
  refine opened_of_figure ?_ rfl
  rw [figure_put_counters]
  simp [accrues, bridges, totals]

theorem incrementSourceBridgedVolume_opens (source asset : Address) (amount : I128) :
    OpensGap (Pi.single (.bridgedVolume source asset) amount.val)
      (incrementSourceBridgedVolume source asset amount) := by
  intro w u w' ran
  have bridged := incrementSourceBridgedVolume_bridges source asset amount ran
  rw [incrementSourceBridgedVolume, run_read_bind] at ran
  obtain ⟨updated, -, ran⟩ := run_ofExcept_bind_ok.mp ran
  obtain rfl := run_modify_ok.mp ran
  refine opened_of_figure ?_ rfl
  funext figure
  cases figure with
  | bridgedVolume source' asset' =>
    have volume := bridged source' asset'
    simpa [World.figure, Pi.single_apply, eq_comm] using volume
  | crosschainReserve => simp [World.figure, World.crosschainReserve]
  | accruedFees | totalFeesCollected | totalBridged | lockedTimelock =>
    simp [World.figure, World.counters]

theorem incrementLockedTimelock_opens (asset : Address) (amount : I128) :
    OpensGap (Pi.single (.lockedTimelock asset) amount.val)
      (incrementLockedTimelock asset amount) := by
  intro w u w' ran
  rw [incrementLockedTimelock, run_read_bind] at ran
  obtain ⟨locked, adds, ran⟩ := run_ofExcept_bind_ok.mp ran
  obtain rfl := run_modify_ok.mp ran
  refine opened_of_figure ?_ rfl
  rw [figure_put_counters]
  simp [counted, safeAdd_ok.mp adds]

theorem decrementLockedTimelock_opens (asset : Address) (amount : I128) :
    OpensGap (Pi.single (.lockedTimelock asset) (-amount.val))
      (decrementLockedTimelock asset amount) := by
  intro w u w' ran
  rw [decrementLockedTimelock, run_read_bind] at ran
  obtain ⟨locked, subtracts, ran⟩ := run_ofExcept_bind_ok.mp ran
  obtain rfl := run_modify_ok.mp ran
  refine opened_of_figure ?_ rfl
  rw [figure_put_counters]
  simp [counted, safeSub_ok.mp subtracts]

theorem decrementAccruedFees_opens (asset : Address) (amount : I128) :
    OpensGap (Pi.single (.accruedFees asset) (-amount.val))
      (decrementAccruedFees asset amount) := by
  intro w u w' ran
  rw [decrementAccruedFees, run_read_bind] at ran
  obtain ⟨accrued, subtracts, ran⟩ := run_ofExcept_bind_ok.mp ran
  obtain rfl := run_modify_ok.mp ran
  refine opened_of_figure ?_ rfl
  rw [figure_put_counters]
  simp [counted, safeSub_ok.mp subtracts]

theorem incrementCrosschainReserve_opens (asset : Address) (amount : I128) :
    OpensGap (Pi.single (.crosschainReserve asset) amount.val)
      (incrementCrosschainReserve asset amount) := by
  intro w u w' ran
  rw [incrementCrosschainReserve, run_read_bind] at ran
  obtain ⟨reserve, adds, ran⟩ := run_ofExcept_bind_ok.mp ran
  obtain rfl := run_modify_ok.mp ran
  refine opened_of_figure ?_ rfl
  rw [figure_put_reserve, safeAdd_ok.mp adds, add_sub_cancel_left]

theorem decrementCrosschainReserve_opens (asset : Address) (amount : I128) :
    OpensGap (Pi.single (.crosschainReserve asset) (-amount.val))
      (decrementCrosschainReserve asset amount) := by
  intro w u w' ran
  rw [decrementCrosschainReserve, run_read_bind] at ran
  obtain ⟨-, ran⟩ := run_rejectIf_bind_ok.mp ran
  obtain ⟨reserve, subtracts, ran⟩ := run_ofExcept_bind_ok.mp ran
  obtain rfl := run_modify_ok.mp ran
  refine opened_of_figure ?_ rfl
  rw [figure_put_reserve, safeSub_ok.mp subtracts, sub_sub_cancel_left]

end Counting

namespace OpensGap

variable {α : Type} {gap : Figure → Int}

theorem nonReentrant {body : Call α} (inner : OpensGap gap body) :
    OpensGap gap (nonReentrant body) := by
  refine .after (.read _) fun _ => .after (.rejectIf _ _) fun _ => ?_
  refine .after (save_keepsGap _ rfl) fun _ => inner.before fun _ => ?_
  exact .bind (remove_keepsGap rfl) fun _ => .pure _

/-- What a funding counts is closed by its event, but for what does not accrue of its fee. -/
theorem funding (env : Env) {source asset : Address} {amount accrued fee net : I128} {event : Event}
    (told : event.adds = funded source asset amount.val fee.val)
    (parts : net.val = amount.val - fee.val) :
    OpensGap (Pi.single (.accruedFees asset) (accrued.val - fee.val)) (do
      updateAssetCountersSplit asset accrued fee net
      incrementSourceBridgedVolume source asset amount
      mintLoyaltyTokens env source
      publish event) := by
  have counts := (updateAssetCountersSplit_opens asset accrued fee net).bind fun _ =>
    (incrementSourceBridgedVolume_opens source asset amount).bind fun _ =>
      .after (mintLoyaltyTokens_keepsGap env source) fun _ => publish_opens event
  refine counts.congr ?_
  simp only [told, parts, funded, counted, Pi.single_sub]
  abel

end OpensGap

theorem nonReentrant_keepsGap {α : Type} {body : Call α} (inner : KeepsGap body) :
    KeepsGap (nonReentrant body) :=
  (OpensGap.nonReentrant (.of_keepsGap inner)).keepsGap

theorem extendEntryTtl_keepsGap (key : DataKey) (missing : BridgeError) (ttl : UInt32)
    (extended : UInt32 → Event) (silent : ∀ maxTtl, (extended maxTtl).adds = 0) :
    KeepsGap (extendEntryTtl key missing ttl extended) := by
  refine nonReentrant_keepsGap (.bind checkInitialized_keepsGap fun _ => ?_)
  refine .bind (.read _) fun _ => ?_
  refine .bind (.rejectIf _ _) fun _ => .bind (.read _) fun _ => .bind (.ofExcept _ _) fun _ => ?_
  exact publish_keepsGap (silent _)

/-! ## Calls that count -/

theorem fundCAddress_keepsGap (env : Env) (source target asset : Address) (amount : I128)
    (nonce deadline : Option UInt64) :
    KeepsGap (fundCAddress env source target asset amount nonce deadline) := by
  refine (OpensGap.nonReentrant ?_).keepsGap
  repeat first
    | with_reducible refine .difference fun net parts => ?_
    | refine .after ?_ fun _ => ?_; · simp
  exact (OpensGap.funding env rfl parts).congr (by simp)

theorem revealFund_keepsGap (env : Env) (commitmentId : UInt64) (source target asset : Address)
    (amount : I128) (nonce : UInt64) :
    KeepsGap (revealFund env commitmentId source target asset amount nonce) := by
  refine (OpensGap.nonReentrant ?_).keepsGap
  repeat first
    | with_reducible refine .difference fun net parts => ?_
    | refine .after ?_ fun _ => ?_; · simp
  exact (OpensGap.funding env rfl parts).congr (by simp)

theorem executeMetaFund_keepsGap (env : Env) (params : MetaFundParams) (pubkey : BytesN 32)
    (signature : BytesN 64) : KeepsGap (executeMetaFund env params pubkey signature) := by
  refine (OpensGap.nonReentrant ?_).keepsGap
  repeat first
    | with_reducible refine .difference fun net parts => ?_
    | refine .after ?_ fun _ => ?_; · simp
  exact (OpensGap.funding env rfl parts).congr (by simp)

theorem fundCAddressWithSwap_keepsGap (env : Env) (source target sourceAsset targetAsset : Address)
    (sourceAmount minTargetAmount : I128) (swapRoute : List Address)
    (nonce deadline : Option UInt64) :
    KeepsGap (fundCAddressWithSwap env source target sourceAsset targetAsset sourceAmount
      minTargetAmount swapRoute nonce deadline) := by
  refine (OpensGap.nonReentrant ?_).keepsGap
  repeat first
    | with_reducible refine .difference fun net parts => ?_
    | refine .after ?_ fun _ => ?_; · simp
  exact (OpensGap.funding env rfl parts).congr (by simp)

/-- The referrer's share does not accrue, and its event says so. -/
theorem payReferral_opened {env : Env} {source asset : Address} {fee protocolFee : I128}
    {referrer : Option Address} {w w' : World}
    (ran : (payReferral env source asset fee referrer).run w = .ok (protocolFee, w')) :
    Opened (Pi.single (.accruedFees asset) (fee.val - protocolFee.val)) w w' := by
  have unshared {t : World} : Opened (Pi.single (.accruedFees asset) (fee.val - fee.val)) t t := by
    rw [sub_self, Pi.single_zero, Opened, add_zero]
  cases referrer with
  | none =>
    obtain ⟨rfl, rfl⟩ := run_pure_ok.mp ran
    exact unshared
  | some referrer =>
    simp only [payReferral] at ran
    rw [run_read_bind] at ran
    obtain ⟨share, -, ran⟩ := run_ofExcept_bind_ok.mp ran
    split at ran
    · obtain ⟨_, t, moved, ran⟩ := run_bind_ok.mp ran
      obtain ⟨rest, difference, ran⟩ := run_ofExcept_bind_ok.mp ran
      obtain ⟨_, u, told, ran⟩ := run_bind_ok.mp ran
      obtain ⟨rfl, rfl⟩ := run_pure_ok.mp ran
      have balanced : t.unannounced = w.unannounced := transfer_keepsGap _ _ _ _ _ moved
      have opened : w'.unannounced = t.unannounced - Event.adds _ := publish_opens _ told
      rw [Opened, opened, balanced, safeSub_ok.mp difference, sub_sub_cancel, Event.adds,
        Pi.single_neg, sub_neg_eq_add]
    · obtain ⟨rfl, rfl⟩ := run_pure_ok.mp ran
      exact unshared

theorem fundCAddressWithReferral_keepsGap (env : Env) (source target asset : Address)
    (amount : I128) (referrer : Option Address) (nonce deadline : Option UInt64) :
    KeepsGap (fundCAddressWithReferral env source target asset amount referrer nonce deadline) := by
  refine (OpensGap.nonReentrant ?_).keepsGap
  repeat first
    | with_reducible refine .difference fun net parts => ?_
    | refine .after ?_ fun _ => ?_; · simp
  intro w u w' ran
  obtain ⟨protocolFee, t, split, ran⟩ := run_bind_ok.mp ran
  have shared : t.unannounced = _ := payReferral_opened split
  obtain ⟨_, s, deposited, ran⟩ := run_bind_ok.mp ran
  have balanced : s.unannounced = t.unannounced := incrementUserDeposit_keepsGap _ _ _ deposited
  have opened : w'.unannounced = _ := OpensGap.funding env rfl parts ran
  rw [Opened, opened, balanced, shared, Pi.single_sub, Pi.single_sub]
  abel

theorem fundCAddressTimelocked_keepsGap (env : Env) (source target asset : Address) (amount : I128)
    (releaseTime cliffTime : UInt64) (nonce deadline : Option UInt64) :
    KeepsGap (fundCAddressTimelocked env source target asset amount releaseTime cliffTime nonce
      deadline) := by
  refine (OpensGap.nonReentrant ?_).keepsGap
  repeat (refine .after ?_ fun _ => ?_; · simp)
  refine OpensGap.congr ((incrementLockedTimelock_opens asset amount).bind fun _ =>
    .after (incrementUserDeposit_keepsGap source asset amount) fun _ =>
      .after (mintLoyaltyTokens_keepsGap env source) fun _ =>
        (publish_opens _).before fun _ => .pure _) ?_
  exact add_neg_cancel _

theorem claimTimelocked_keepsGap (env : Env) (id : UInt64) : KeepsGap (claimTimelocked env id) := by
  refine (OpensGap.nonReentrant ?_).keepsGap
  repeat first
    | with_reducible refine .difference fun net parts => ?_
    | refine .after ?_ fun _ => ?_; · simp
  refine OpensGap.congr ((decrementLockedTimelock_opens _ _).bind fun _ =>
    .after (.onlyIf (transfer_keepsGap env _ env.self _ net)) fun _ =>
      (updateAssetCountersSplit_opens _ _ _ net).bind fun _ => publish_opens _) ?_
  rw [Event.adds, parts, sub_add_cancel]
  abel

theorem fundCAddressCrosschain_keepsGap (env : Env) (chainId : UInt32) (txHash : BytesN 32)
    (target asset : Address) (amount : I128) (sigs : List RelayerSig) :
    KeepsGap (fundCAddressCrosschain env chainId txHash target asset amount sigs) := by
  refine (OpensGap.nonReentrant ?_).keepsGap
  repeat first
    | with_reducible refine .difference fun net parts => ?_
    | refine .after ?_ fun _ => ?_; · simp
  refine OpensGap.congr ((decrementCrosschainReserve_opens asset net).bind fun _ =>
    .after (save_keepsGap _ rfl) fun _ =>
      .after (.onlyIf (transfer_keepsGap env asset env.self target net)) fun _ =>
        (updateAssetCountersSplit_opens asset 0 0 net).bind fun _ =>
          .after (mintLoyaltyTokens_keepsGap env target) fun _ => publish_opens _) ?_
  rw [Event.adds, parts]
  abel_nf
  simp

theorem withdrawFees_keepsGap (env : Env) (asset : Address) (amount : I128)
    (nonce : Option UInt64) : KeepsGap (withdrawFees env asset amount nonce) := by
  refine OpensGap.keepsGap ?_
  repeat (refine .after ?_ fun _ => ?_; · simp)
  exact ((decrementAccruedFees_opens asset amount).bind fun _ => publish_opens _).congr
    (add_neg_cancel _)

theorem fundCrosschainReserve_keepsGap (env : Env) (asset : Address) (amount : I128) :
    KeepsGap (fundCrosschainReserve env asset amount) := by
  refine (OpensGap.nonReentrant ?_).keepsGap
  repeat (refine .after ?_ fun _ => ?_; · simp)
  exact ((incrementCrosschainReserve_opens asset amount).bind fun _ => publish_opens _).congr
    (add_neg_cancel _)

theorem withdrawCrosschainReserve_keepsGap (env : Env) (asset : Address) (amount : I128) :
    KeepsGap (withdrawCrosschainReserve env asset amount) := by
  refine (OpensGap.nonReentrant ?_).keepsGap
  repeat (refine .after ?_ fun _ => ?_; · simp)
  refine OpensGap.congr ((decrementCrosschainReserve_opens asset amount).bind fun _ =>
    .after (transfer_keepsGap env asset env.self _ amount) fun _ => publish_opens _) ?_
  exact add_neg_cancel _

/-! ## Batches

The volume of a source grows by the total that is worked out before the delivery, and each event
of the delivery tells its own part of it. The two agree since the access lists stay as they are. -/

/-- From a world with the settings of the start, every successful run opens a gap. -/
def OpensFrom (start : World) (gap : Figure → Int) {α : Type} (body : Call α) : Prop :=
  ∀ ⦃w : World⦄ ⦃a : α⦄ ⦃w' : World⦄, w.AgreesWith start → body.run w = .ok (a, w') →
    Opened gap w w'

namespace OpensFrom

variable {start : World} {α β : Type} {body : Call α} {rest : α → Call β} {gap gap' : Figure → Int}

theorem of_opens (opens : OpensGap gap body) : OpensFrom start gap body :=
  fun _ _ _ _ ran => opens ran

theorem congr (opens : OpensFrom start gap body) (same : gap = gap') :
    OpensFrom start gap' body := same ▸ opens

theorem bind (first : OpensFrom start gap body) (touches : Touches fundingKeys True body)
    (next : ∀ a, OpensFrom start gap' (rest a)) : OpensFrom start (gap + gap') (body >>= rest) := by
  intro w b w' agrees ran
  obtain ⟨a, t, ran₁, ran₂⟩ := run_bind_ok.mp ran
  have later : t.AgreesWith start := fun key outside =>
    ((touches ran₁).store key outside).trans (agrees key outside)
  have before : t.unannounced = w.unannounced + gap := first agrees ran₁
  have after : w'.unannounced = t.unannounced + gap' := next a later ran₂
  rw [Opened, after, before, add_assoc]

theorem after (keeps : KeepsGap body) (touches : Touches fundingKeys True body)
    (next : ∀ a, OpensFrom start gap (rest a)) : OpensFrom start gap (body >>= rest) :=
  ((of_opens (.of_keepsGap keeps)).bind touches next).congr (zero_add gap)

theorem difference {amount fee : I128} {rest : I128 → Call β}
    (next : ∀ net : I128, net.val = amount.val - fee.val → OpensFrom start gap (rest net)) :
    OpensFrom start gap (liftResult (safeSub amount fee) >>= rest) := by
  intro w b w' agrees ran
  obtain ⟨net, parts, ran⟩ := run_ofExcept_bind_ok.mp ran
  exact next net (safeSub_ok.mp parts) agrees ran

/-- The accessible total is known to the rest of a sequence. -/
theorem accessible {entries : List (Address × I128)} {rest : I128 → Call β}
    (next : ∀ total : I128, total.val = start.deliverable entries →
      OpensFrom start gap (rest total)) :
    OpensFrom start gap (accessibleTotal 0 entries >>= rest) := by
  intro w b w' agrees ran
  obtain ⟨total, t, adds, goesOn⟩ := run_bind_ok.mp ran
  obtain ⟨reached, rfl⟩ := accessibleTotal_ok adds
  refine next total ?_ agrees goesOn
  have zero : (0 : I128).val = 0 := rfl
  rw [reached, zero, zero_add]
  simp only [World.deliverable, agrees.admits]

end OpensFrom

/-- Each delivery closes the gap it opens but for the volume. -/
theorem deliverBatch_opens (env : Env) (source asset : Address) (feeBps : UInt32) (start : World)
    (progress : BatchProgress) (entries : List (Address × I128)) :
    OpensFrom start (-Pi.single (.bridgedVolume source asset) (start.deliverable entries))
      (deliverBatch env source asset feeBps progress entries) := by
  induction entries generalizing progress with
  | nil =>
      have nothing : start.deliverable [] = 0 := by simp [World.deliverable]
      rw [nothing, Pi.single_zero, neg_zero]
      exact .of_opens (.of_keepsGap (.pure _))
  | cons entry rest ih =>
      intro w result w' agrees ran
      rw [deliverBatch] at ran
      obtain ⟨error, _, checked, goesOn⟩ := run_bind_ok.mp ran
      obtain ⟨passes, -, rfl⟩ := accessError_ok checked
      rw [agrees.admits] at passes
      rw [World.deliverable_cons]
      split at goesOn
      · next refused =>
        have blocked : ¬ start.admits entry.1 = true := by
          intro admitted
          simp [passes.mpr admitted] at refused
        rw [if_neg blocked, zero_add]
        refine (?_ : OpensFrom start _ _) agrees goesOn
        refine .after (by simp) (by simp) fun _ => ?_
        refine .after (.ofExcept _ _) (.ofExcept _ _) fun _ => ?_
        exact .after (publish_keepsGap rfl) (publish_touches rfl) fun _ => ih _
      · next delivered =>
        have admitted : start.admits entry.1 = true := passes.mp (by simpa using delivered)
        rw [if_pos admitted]
        refine (?_ : OpensFrom start _ _) agrees goesOn
        refine .after (.ofExcept _ _) (.ofExcept _ _) fun fee => .difference fun net parts => ?_
        refine .after (by simp) (by simp) fun _ => ?_
        refine (OpensFrom.bind (.of_opens (updateAssetCountersSplit_opens asset fee fee net))
          (updateAssetCountersSplit_touches _ _ _ _ (by simp)) fun _ =>
            .after (by simp) (by simp) fun successes =>
              OpensFrom.bind (.of_opens (publish_opens _)) (publish_touches rfl) fun _ =>
                ih _).congr ?_
        rw [Event.adds, funded, parts, Pi.single_add]
        abel

theorem batchFundCAddress_keepsGap (env : Env) (source : Address) (targets : List Address)
    (amounts : List I128) (asset : Address) (nonce deadline : Option UInt64) :
    KeepsGap (batchFundCAddress env source targets amounts asset nonce deadline) := by
  refine (OpensGap.nonReentrant ?_).keepsGap
  intro start u w' ran
  refine (?_ : OpensFrom start 0 _) (fun _ _ => rfl) ran
  repeat
    refine .after ?_ ?_ fun _ => ?_
    · simp
    · simp
  refine .after (by simp) (validateAmounts_touches ..) fun total => ?_
  refine .accessible fun successfulTotal reached => ?_
  repeat
    refine .after ?_ ?_ fun _ => ?_
    · simp
    · simp [requireAuth_touches, readFeeBps_touches]
  refine ((deliverBatch_opens env source asset _ start ⟨0, 0, 0⟩ (targets.zip amounts)).bind
    (deliverBatch_touches _ _ _ _ _ _ (by simp)) fun progress => .after (by simp) (by simp) fun _ =>
      (OpensFrom.bind (.of_opens (incrementSourceBridgedVolume_opens source asset successfulTotal))
        (by simp) fun _ => .of_opens (.of_keepsGap ?_))).congr ?_
  · exact .bind (.onlyIf (mintLoyaltyTokens_keepsGap ..)) fun _ => publish_keepsGap rfl
  · rw [reached, add_zero, neg_add_cancel]

/-! ## All calls -/

theorem reclaimTokens_keepsGap (env : Env) (asset : Address) (amount : I128)
    (destination : Address) (nonce : Option UInt64) :
    KeepsGap (reclaimTokens env asset amount destination nonce) := by
  refine nonReentrant_keepsGap ?_
  repeat (refine .bind ?_ fun _ => ?_; · simp)
  exact publish_keepsGap rfl

/-- Administration counts nothing and tells nothing. -/
theorem execute_administration_keepsGap (env : Env) {request : Request}
    (still : ¬ request.movesTokens) : KeepsGap (execute env request) := by
  cases request
  all_goals first | exact (still trivial).elim | skip
  all_goals
    simp only [execute, initializeContract, initializeWithWasmHash, initializeInner, setFeeBps,
      setSourceDailyLimit, setAssetFeeCap, setFeeCollector, proposeNewFeeCollector,
      acceptFeeCollector, setAdmin, proposeNewAdmin, acceptAdmin, clearPendingAdmin,
      clearPendingFeeCollector, setMinimumAmount, setMaxWithdrawPerTx,
      setReferralRate, pause, unpause, upgrade, scheduleUpgrade,
      executeUpgrade, cancelUpgrade, emergencyMigrate, addToBlocklist, removeFromBlocklist,
      addToAllowlist, removeFromAllowlist, setAllowlistMode, addAsset, removeAsset,
      addSwapPool, removeSwapPool, setLoyaltyToken, setFeeTiers, addRelayer, removeRelayer,
      setRelayerThreshold, extendInstanceTtl,
      extendPersistentTtl, extendTimelockTtl, extendCommitmentTtl, extendRelayerTtl,
      extendSourcePersistentTtl, setMaxInstanceTtl, setMaxPersistentTtl, verifyAuthEntry,
      commitFund, cancelCommitment, registerMetaSigner, unregisterMetaSigner]
    refine replying_keepsGap ?_
    repeat' first
      | with_reducible refine Preserves.bind ?_ fun _ => ?_
      | with_reducible refine nonReentrant_keepsGap ?_
  all_goals first
    | (with_reducible refine publish_keepsGap ?_); rfl
    | simp [Preserves.ofExcept]
    | exact .onlyIf (publish_keepsGap rfl)
    | exact extendEntryTtl_keepsGap _ _ _ _ fun _ => rfl

/-- A successful call changes the figures by what its events add. -/
theorem execute_keepsGap (env : Env) (request : Request) : KeepsGap (execute env request) := by
  cases request
  case fundCAddress => exact replying_keepsGap (fundCAddress_keepsGap ..)
  case batchFundCAddress => exact replying_keepsGap (batchFundCAddress_keepsGap ..)
  case fundCAddressWithReferral => exact replying_keepsGap (fundCAddressWithReferral_keepsGap ..)
  case fundCAddressWithSwap => exact replying_keepsGap (fundCAddressWithSwap_keepsGap ..)
  case revealFund => exact replying_keepsGap (revealFund_keepsGap ..)
  case executeMetaFund => exact replying_keepsGap (executeMetaFund_keepsGap ..)
  case fundCAddressTimelocked => exact replying_keepsGap (fundCAddressTimelocked_keepsGap ..)
  case claimTimelocked => exact replying_keepsGap (claimTimelocked_keepsGap ..)
  case fundCAddressCrosschain => exact replying_keepsGap (fundCAddressCrosschain_keepsGap ..)
  case withdrawFees => exact replying_keepsGap (withdrawFees_keepsGap ..)
  case fundCrosschainReserve => exact replying_keepsGap (fundCrosschainReserve_keepsGap ..)
  case withdrawCrosschainReserve => exact replying_keepsGap (withdrawCrosschainReserve_keepsGap ..)
  case reclaimTokens => exact replying_keepsGap (reclaimTokens_keepsGap ..)
  all_goals exact execute_administration_keepsGap env not_false

/-! ## Runs -/

/-- The events of a step. A call that fails publishes none. -/
def Label.published : Label → List Event
  | .success call => call.after.events
  | .failure .. => []
  | .external _ => []

/-- One step changes the figures by what its events add. -/
theorem Step.announces {host : Host} {w w' : World} {label : Label} (step : Step host w label w') :
    w'.figure = w.figure + announced label.published := by
  cases step with
  | @success call _ ran =>
    have balanced : call.after.unannounced = call.before.begin.unannounced :=
      execute_keepsGap _ _ ran
    have before : call.before.begin.unannounced = call.before.figure := sub_zero _
    rw [before, World.unannounced] at balanced
    exact sub_eq_iff_eq_add.mp balanced
  | failure => exact (add_zero _).symm
  | external => exact (add_zero _).symm

/-- Over any run, every figure changes by what the published events add. -/
theorem figures_announced {host : Host} {w w' : World} {labels : List Label}
    (run : Run (Step host) w labels w') :
    w'.figure = w.figure + announced (labels.flatMap Label.published) := by
  induction run with
  | nil => exact (add_zero _).symm
  | cons step _ ih =>
    rw [ih, step.announces, List.flatMap_cons, announced_append, add_assoc]

/-- A funding accrues 10, of which 4 are withdrawn: the events tell that 6 are left. -/
theorem figures_announced_rehearsed :
    let script := Rehearsal.opening ++ [(0, Rehearsal.fund 1000 Rehearsal.thousand_small),
      (0, .withdrawFees (Rehearsal.address 3) (Rehearsal.amount 4) none)]
    announced (((Rehearsal.calls script).map Label.success).flatMap Label.published)
      (.accruedFees (Rehearsal.address 3)) = 6 := by
  intro script
  have told := figures_announced (Rehearsal.run script (by decide +kernel))
  have stored : (Rehearsal.outcome script).figure (.accruedFees (Rehearsal.address 3)) = 6 := by
    decide +kernel
  rw [told] at stored
  exact (zero_add _).symm.trans stored

end OnboardingBridge.Contract
