import OnboardingBridge.Contract.FundingGates

/-!
# The events of funding calls

Every funding of the contract is announced by an event with the asset, the source and
the target in its topics. A call that funds one target publishes it at the end, and a
batch publishes one for each target that the access check admits.
-/

set_option autoImplicit false

namespace OnboardingBridge.Contract

open Foundations Foundations.Tx

/-! ## Fundings -/

/-- The asset that a target is funded with, the source and the target. -/
structure Parties where
  asset : Address
  source : Address
  target : Address
deriving DecidableEq

/-- What an event announces, if it announces a funding. -/
def Event.parties : Event → Option Parties
  | .cAddressFunded asset source target .. => some ⟨asset, source, target⟩
  | .swapAndFunded _ targetAsset source target .. => some ⟨targetAsset, source, target⟩
  | .commitRevealFunded asset source target .. => some ⟨asset, source, target⟩
  | .metaFundExecuted asset source target .. => some ⟨asset, source, target⟩
  | _ => none

/-- The fundings that a call asks for from the account or contract of a source; a batch leaves out
the targets that are refused. -/
def Request.fundings (w : World) : Request → List Parties
  | .fundCAddress source target asset .. => [⟨asset, source, target⟩]
  | .batchFundCAddress source targets _ asset .. =>
      (targets.filter fun target => w.admits target).map fun target => ⟨asset, source, target⟩
  | .fundCAddressWithReferral source target asset .. => [⟨asset, source, target⟩]
  | .fundCAddressWithSwap source target _ targetAsset .. => [⟨targetAsset, source, target⟩]
  | .revealFund _ source target asset .. => [⟨asset, source, target⟩]
  | .executeMetaFund params .. => [⟨params.asset, params.source, params.target⟩]
  | _ => []

/-- The events of the call so far announce a funding. -/
def World.Announces (w : World) (parties : Parties) : Prop :=
  ∃ event ∈ w.events, event.parties = some parties

/-! ## Publishing -/

/-- No event of the call is taken back. -/
def AddsEvents (w w' : World) : Prop := w.events ⊆ w'.events

instance : IsPreorder World AddsEvents where
  refl _ := List.Subset.refl _
  trans _ _ _ := List.Subset.trans

/-- The successful runs of a part of a call take no event back. -/
abbrev Adds {α : Type} (body : Call α) : Prop := Preserves AddsEvents body

section Adds

@[grind ←] theorem save_adds (key : DataKey) (value : key.Value) : Adds (save key value) :=
  Preserves.modify fun _ => List.Subset.refl _

@[grind ←] theorem remove_adds (key : DataKey) : Adds (remove key) :=
  Preserves.modify fun _ => List.Subset.refl _

@[grind ←] theorem publish_adds (event : Event) : Adds (publish event) :=
  Preserves.modify fun _ => List.subset_append_left ..

@[grind ←] theorem transfer_adds (env : Env) (asset src dst : Address) (amount : I128) :
    Adds (transfer env asset src dst amount) := by
  intro w _ w' ran
  obtain ⟨moved, -, rfl⟩ := transfer_ok ran
  exact List.Subset.refl _

@[grind ←] theorem accessError_adds (target : Address) : Adds (accessError target) := by
  intro w error w' ran
  obtain ⟨-, -, rfl⟩ := accessError_ok ran
  exact List.Subset.refl _

@[grind ←] theorem incrementU32_adds (n : UInt32) : Adds (incrementU32 n) := by
  grind [incrementU32]

@[grind ←] theorem updateAssetCounters_adds (asset : Address) (fees bridged : I128) :
    Adds (updateAssetCounters asset fees bridged) := by
  grind [updateAssetCounters, updateAssetCountersSplit]

@[grind ←] theorem incrementSourceBridgedVolume_adds (source asset : Address) (amount : I128) :
    Adds (incrementSourceBridgedVolume source asset amount) := by
  grind [incrementSourceBridgedVolume]

@[grind ←] theorem mintLoyaltyTokens_adds (env : Env) (recipient : Address) :
    Adds (mintLoyaltyTokens env recipient) := by
  grind [mintLoyaltyTokens]

theorem deliverBatch_adds (env : Env) (source asset : Address) (feeBps : UInt32)
    (progress : BatchProgress) (entries : List (Address × I128)) :
    Adds (deliverBatch env source asset feeBps progress entries) := by
  induction entries generalizing progress with
  | nil => exact .pure _
  | cons entry rest ih =>
      rw [deliverBatch]
      refine Preserves.bind (accessError_adds _) fun error => Preserves.ite ?_ ?_
      · refine Preserves.bind (incrementU32_adds _) fun failures => ?_
        refine Preserves.bind (.ofExcept _ _) fun refundTotal => ?_
        exact Preserves.bind (publish_adds _) fun _ => ih _
      · refine Preserves.bind (.ofExcept _ _) fun fee => ?_
        refine Preserves.bind (.ofExcept _ _) fun netAmount => ?_
        refine Preserves.bind (.onlyIf (transfer_adds ..)) fun _ => ?_
        refine Preserves.bind (updateAssetCounters_adds ..) fun _ => ?_
        refine Preserves.bind (incrementU32_adds _) fun successes => ?_
        exact Preserves.bind (publish_adds _) fun _ => ih _

end Adds

/-! ## Announcing -/

section Announcing

variable {parties : Parties}

theorem World.Announces.mono {w w' : World} (announces : w.Announces parties)
    (adds : AddsEvents w w') : w'.Announces parties := by
  obtain ⟨event, member, named⟩ := announces
  exact ⟨event, adds member, named⟩

/-- From a world with the settings of the start, every successful run of a part of a call leaves a
funding announced. -/
def Announcing (start : World) (parties : Parties) {α : Type} (body : Call α) : Prop :=
  ∀ ⦃w : World⦄ ⦃a : α⦄ ⦃w' : World⦄, w.AgreesWith start → body.run w = .ok (a, w') →
    w'.Announces parties

namespace Announcing

variable {start : World} {α β : Type} {body : Call α} {rest : α → Call β}

/-- A sequence announces what its rest announces, when its first part keeps the settings. -/
theorem bind (touches : Touches fundingKeys True body)
    (announcing : ∀ a, Announcing start parties (rest a)) :
    Announcing start parties (body >>= rest) := by
  intro w b w' agrees ran
  obtain ⟨a, t, ran₁, ran₂⟩ := run_bind_ok.mp ran
  have later : t.AgreesWith start := fun key outside =>
    ((touches ran₁).store key outside).trans (agrees key outside)
  exact announcing a later ran₂

/-- It announces what its first part announces, when its rest takes no event back. -/
theorem before (announcing : Announcing start parties body) (adds : ∀ a, Adds (rest a)) :
    Announcing start parties (body >>= rest) := by
  intro w b w' agrees ran
  obtain ⟨a, t, ran₁, ran₂⟩ := run_bind_ok.mp ran
  exact (announcing agrees ran₁).mono (adds a ran₂)

/-- A check that a part of a call passes is known to its rest. -/
theorem reject {condition : Prop} [Decidable condition] {e : BridgeError} {rest : Unit → Call β}
    (announcing : ¬ condition → Announcing start parties (rest ())) :
    Announcing start parties (Contract.reject condition e >>= rest) := by
  intro w b w' agrees ran
  obtain ⟨passed, ran⟩ := run_rejectIf_bind_ok.mp ran
  exact announcing passed agrees ran

/-- What a part of a call announces from any world. -/
theorem ofEnsures (ensures : Ensures (fun w => w.Announces parties) body) :
    Announcing start parties body :=
  fun _ _ _ _ ran => ensures ran

theorem publish {event : Event} (named : event.parties = some parties) :
    Announcing start parties (publish event) := by
  intro w _ w' _ ran
  obtain rfl := run_modify_ok.mp ran
  exact ⟨event, List.mem_append_right _ List.mem_cons_self, named⟩

theorem nonReentrant (announcing : Announcing start parties body) :
    Announcing start parties (nonReentrant body) := by
  refine bind (.read _) fun _ => bind (.rejectIf _ _) fun _ => ?_
  refine bind (save_touches _ (by simp)) fun _ => ?_
  exact announcing.before fun _ => Preserves.bind (remove_adds _) fun _ => .pure _

end Announcing

/-- A batch announces the funding of each target that is admitted. -/
theorem deliverBatch_announcing {env : Env} {source asset : Address} {feeBps : UInt32}
    {start : World} {entries : List (Address × I128)} {entry : Address × I128}
    (listed : entry ∈ entries) (admitted : start.admits entry.1 = true)
    (progress : BatchProgress) :
    Announcing start ⟨asset, source, entry.1⟩
      (deliverBatch env source asset feeBps progress entries) := by
  induction entries generalizing progress with
  | nil => cases listed
  | cons first rest ih =>
      intro w result w' agrees ran
      rw [deliverBatch] at ran
      obtain ⟨error, _, checked, goesOn⟩ := run_bind_ok.mp ran
      obtain ⟨passes, -, rfl⟩ := accessError_ok checked
      rw [agrees.admits] at passes
      split at goesOn
      · next refused =>
        have later : entry ∈ rest := by
          refine (List.mem_cons.mp listed).resolve_left ?_
          rintro rfl
          simp [passes.mpr admitted] at refused
        refine (?_ : Announcing start _ _) agrees goesOn
        refine .bind (by simp) fun _ => .bind (.ofExcept _ _) fun _ => ?_
        exact .bind (publish_touches rfl) fun _ => ih later _
      · refine (?_ : Announcing start _ _) agrees goesOn
        refine .bind (.ofExcept _ _) fun fee => .bind (.ofExcept _ _) fun netAmount => ?_
        refine .bind (.onlyIf (transfer_touches ..)) fun _ => .bind (by simp) fun _ => ?_
        refine .bind (by simp) fun _ => ?_
        rcases List.mem_cons.mp listed with rfl | later
        · exact .before (.publish rfl) fun _ => deliverBatch_adds ..
        · exact .bind (publish_touches rfl) fun _ => ih later _

/-- Every successful call announces the fundings that it asks for. -/
theorem execute_announcing {env : Env} {request : Request} {start : World} {parties : Parties}
    (asked : parties ∈ request.fundings start) :
    Announcing start parties (execute env request) := by
  have last {α : Type} {body : Call α} {reply : α → Reply}
      (announcing : Announcing start parties body) :
      Announcing start parties (replying body reply) :=
    announcing.before fun _ => .pure _
  have published {event : Event} (named : event.parties = some parties) :
      Ensures (fun w => w.Announces parties) (publish event) :=
    Ensures.modify fun _ => ⟨event, List.mem_append_right _ List.mem_cons_self, named⟩
  cases request
  all_goals try (cases asked; done)
  case batchFundCAddress source targets amounts asset nonce deadline =>
    obtain ⟨target, member, rfl⟩ := List.mem_map.mp asked
    obtain ⟨listed, admitted⟩ := List.mem_filter.mp member
    refine last (.nonReentrant ?_)
    refine .bind (by simp) fun _ => .bind (by simp) fun _ => ?_
    refine .reject fun _ => .reject fun _ => .reject fun _ => .reject fun lengths => ?_
    obtain ⟨amount, entry⟩ : ∃ amount, (target, amount) ∈ targets.zip amounts := by
      obtain ⟨index, inside, rfl⟩ := List.getElem_of_mem listed
      have within : index < amounts.length := by omega
      exact ⟨amounts[index], List.mem_iff_getElem.mpr ⟨index, by simp; omega, by simp⟩⟩
    refine .bind (by simp) fun _ => .bind (.read _) fun minimum => ?_
    refine .bind (validateAmounts_touches ..) fun total => ?_
    refine .bind (by simp) fun successfulTotal => .bind (by simp) fun _ => ?_
    refine .bind (requireAuth_touches ..) fun _ => .bind (by simp) fun _ => ?_
    refine .bind (transfer_touches ..) fun _ => .bind (readFeeBps_touches) fun globalFeeBps => ?_
    refine .bind (by simp) fun tieredFeeBps => .bind (by simp) fun effectiveFeeBps => ?_
    refine .before (deliverBatch_announcing entry admitted _) fun progress => ?_
    refine Preserves.bind (.onlyIf (transfer_adds ..)) fun _ => ?_
    refine Preserves.bind (incrementSourceBridgedVolume_adds ..) fun _ => ?_
    refine Preserves.bind (.onlyIf (mintLoyaltyTokens_adds ..)) fun _ => ?_
    exact publish_adds _
  all_goals obtain rfl := List.mem_singleton.mp asked
  all_goals refine last (.nonReentrant (.ofEnsures ?_))
  all_goals repeat' with_reducible refine Ensures.bind fun _ => ?_
  all_goals exact published rfl

end Announcing

end OnboardingBridge.Contract
