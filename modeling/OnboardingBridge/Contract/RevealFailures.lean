import OnboardingBridge.Contract.Dispatch
import OnboardingBridge.Contract.Views
import OnboardingBridge.Foundations.Failures

/-!
# Reveals that are turned down for their hash

Of all that a reveal does, only the comparison of the hashes fails with
`CommitmentHashMismatch`. A reveal that fails so has found a commitment with another hash
(`revealFund_mismatch`).
-/

set_option autoImplicit false

namespace OnboardingBridge.Contract

open Foundations Foundations.Tx

/-! ## What the helpers do not fail with -/

/-- The failure of a reveal whose hash is another one. -/
abbrev hashMismatch : Failure := .error .commitmentHashMismatch

section Helpers

variable {α : Type}

@[simp, grind ←] theorem save_spares (key : DataKey) (value : key.Value) :
    Spares hashMismatch (save key value) := .modify _

@[simp, grind ←] theorem remove_spares (key : DataKey) : Spares hashMismatch (remove key) :=
  .modify _

@[simp, grind ←] theorem publish_spares (event : Event) : Spares hashMismatch (publish event) :=
  .modify _

@[simp, grind ←] theorem requireAuth_spares (env : Env) (address : Address) :
    Spares hashMismatch (requireAuth env address) := .rejectIf (by simp)

@[simp, grind ←] theorem transfer_spares (env : Env) (asset src dst : Address) (amount : I128) :
    Spares hashMismatch (transfer env asset src dst amount) := by
  refine .bind (.rejectIf (by simp)) fun _ => .bind (.rejectIf (by simp)) fun _ => ?_
  exact .bind (.read _) fun tokens => .bind (.ofOption (by simp)) fun moved => .modify _

@[simp, grind ←] theorem safeAdd_spares (a b : I128) :
    Spares hashMismatch (liftResult (safeAdd a b)) := by
  refine .ofExcept fun reason failed => ?_
  rw [safeAdd] at failed
  split at failed <;> cases failed
  simp

@[simp, grind ←] theorem safeSub_spares (a b : I128) :
    Spares hashMismatch (liftResult (safeSub a b)) := by
  refine .ofExcept fun reason failed => ?_
  rw [safeSub] at failed
  split at failed <;> cases failed
  simp

@[simp, grind ←] theorem calculateFee_spares (amount : I128) (feeBps : UInt32) :
    Spares hashMismatch (liftResult (calculateFee amount feeBps)) := by
  refine .ofExcept fun reason failed => ?_
  rw [calculateFee] at failed
  split at failed
  · cases failed
  · cases product : safeMul amount (I128.ofU32 feeBps) with
    | ok value =>
        rw [product] at failed
        simp only [safeDiv] at failed
        split at failed <;> cases failed
        simp
    | error cause =>
        rw [product] at failed
        rw [safeMul] at product
        split at product <;> cases product
        cases failed
        simp

@[simp, grind ←] theorem readBridgeConfig_spares : Spares hashMismatch readBridgeConfig := by
  simp [readBridgeConfig]

@[simp, grind ←] theorem readConfig_spares : Spares hashMismatch readConfig := by
  simp [readConfig]

@[simp, grind ←] theorem readFeeBps_spares : Spares hashMismatch readFeeBps := by
  simp [readFeeBps]

@[simp, grind ←] theorem checkInitialized_spares : Spares hashMismatch checkInitialized := by
  simp [checkInitialized]

@[simp, grind ←] theorem checkNotPaused_spares : Spares hashMismatch checkNotPaused := by
  have active : Spares hashMismatch checkNotDeactivated :=
    .bind (.read _) fun deactivated => .rejectIf (by simp)
  have paused : Spares hashMismatch readPaused := .bind (by simp) fun config => .pure _
  exact .bind active fun _ => .bind paused fun paused => .rejectIf (by simp)

@[simp, grind ←] theorem checkAssetWhitelisted_spares (asset : Address) :
    Spares hashMismatch (checkAssetWhitelisted asset) := by
  simp [checkAssetWhitelisted]

@[simp, grind ←] theorem checkAccess_spares (target : Address) :
    Spares hashMismatch (checkAccess target) := by
  have sparesError : Spares hashMismatch (accessError target) := by
    refine .bind (.read _) fun blocked => .ite (.pure _) (.bind ?_ fun restricted => ?_)
    · exact .bind (by simp) fun config => .pure _
    · exact .bind (.read _) fun allowlisted => .ite (.pure _) (.pure _)
  have others : ∀ {w error w'}, (accessError target).run w = .ok (error, w') →
      error ≠ some .commitmentHashMismatch := by
    intro w error w' ran
    simp only [accessError, run_bind_ok, run_read_ok] at ran
    obtain ⟨_, _, ⟨rfl, rfl⟩, ran⟩ := ran
    split at ran
    · obtain ⟨rfl, -⟩ := run_pure_ok.mp ran
      simp
    · obtain ⟨_, _, -, ran⟩ := run_bind_ok.mp ran
      obtain ⟨_, _, -, ran⟩ := run_bind_ok.mp ran
      split at ran
      · obtain ⟨rfl, -⟩ := run_pure_ok.mp ran
        simp
      · obtain ⟨rfl, -⟩ := run_pure_ok.mp ran
        simp
  intro w failed
  obtain ⟨error, w', ran, failed⟩ := sparesError.skip failed
  have other := others ran
  cases error with
  | none => cases failed
  | some reason => exact other (congrArg some (Failure.error.inj (Except.error.inj failed)))

@[simp, grind ←] theorem checkDailyLimit_spares (env : Env) (source asset : Address)
    (amount : I128) : Spares hashMismatch (checkDailyLimit env source asset amount) := by
  refine .bind (.read _) fun limit => .ite (.pure ()) (.bind (.read _) fun used => ?_)
  exact .bind (by simp) fun updated => .bind (.rejectIf (by simp)) fun _ => by simp

@[simp, grind ←] theorem getTieredFeeBps_spares (source asset : Address) (fallbackBps : UInt32) :
    Spares hashMismatch (getTieredFeeBps source asset fallbackBps) := by
  refine .bind (.read _) fun tiers => .bind (.read _) fun volume => ?_
  split <;> exact .pure _

@[simp, grind ←] theorem getEffectiveFeeBps_spares (asset : Address) (globalFeeBps : UInt32) :
    Spares hashMismatch (getEffectiveFeeBps asset globalFeeBps) := by
  simp [getEffectiveFeeBps]

@[simp, grind ←] theorem updateAssetCounters_spares (asset : Address) (fees bridged : I128) :
    Spares hashMismatch (updateAssetCounters asset fees bridged) := by
  refine .bind (.read _) fun counters => .bind (by simp) fun accruedFees => ?_
  exact .bind (by simp) fun totalBridged => .bind (by simp) fun totalFeesCollected => by simp

@[simp, grind ←] theorem incrementSourceBridgedVolume_spares (source asset : Address)
    (amount : I128) : Spares hashMismatch (incrementSourceBridgedVolume source asset amount) := by
  simp [incrementSourceBridgedVolume]

@[simp, grind ←] theorem mintLoyaltyTokens_spares (env : Env) (recipient : Address) :
    Spares hashMismatch (mintLoyaltyTokens env recipient) := by
  refine .bind (.read _) fun loyaltyToken => ?_
  cases loyaltyToken with
  | none => exact .pure ()
  | some token =>
      refine .bind (.read _) fun amount => .ite (.pure ()) ?_
      exact .bind (.read _) fun held => .bind (.read _) fun counters => .ite (by simp) (by simp)

end Helpers

/-! ## Reveals -/

theorem skipInitialized {α : Type} {rest : Unit → Call α} {w : World}
    (failed : (checkInitialized >>= rest).run w = .error hashMismatch) :
    (rest ()).run w = .error hashMismatch := by
  obtain ⟨_, _, passed, later⟩ := checkInitialized_spares.skip failed
  obtain ⟨-, rfl⟩ := checkInitialized_ok.mp passed
  exact later

theorem skipNotPaused {α : Type} {rest : Unit → Call α} {w : World}
    (failed : (checkNotPaused >>= rest).run w = .error hashMismatch) :
    (rest ()).run w = .error hashMismatch := by
  obtain ⟨_, _, passed, later⟩ := checkNotPaused_spares.skip failed
  obtain ⟨-, rfl⟩ := checkNotPaused_ok.mp passed
  exact later

/-- A reveal that is turned down for its hash has found a commitment with another one. -/
theorem revealFund_mismatch {env : Env} {id nonce : UInt64} {source target asset : Address}
    {amount : I128} {w : World}
    (failed : (execute env (.revealFund id source target asset amount nonce)).run w =
      .error hashMismatch) :
    ∃ entry, w.store (.commitment id) = some entry ∧
      env.host.sha256 (env.host.commitmentPreimage source target asset amount nonce) ≠
        entry.amountHash := by
  have failed : (revealFund env id source target asset amount nonce).run w = .error hashMismatch :=
    Spares.first (fun _ => .pure _) failed
  rw [revealFund, nonReentrant, run_read_bind] at failed
  replace failed := run_rejectIf_bind_other (by simp) failed
  rw [save, run_modify_bind] at failed
  replace failed := Spares.first (fun _ => by simp [remove]) failed
  replace failed := skipInitialized failed
  replace failed := skipNotPaused failed
  rw [readCommitment, run_read_bind] at failed
  obtain ⟨entry, found, failed⟩ := run_ofOption_bind_other (by simp) failed
  iterate 5 replace failed := run_rejectIf_bind_other (by simp) failed
  refine ⟨entry, by simpa using found, run_rejectIf_bind_error failed ?_⟩
  repeat refine .bind (by simp) fun _ => ?_
  simp

end OnboardingBridge.Contract
