import OnboardingBridge.Contract.DailyLimits
import OnboardingBridge.Contract.Modes
import OnboardingBridge.Contract.TimelockClaims

/-!
# Journals that tell the totals

What a call adds to the history of an asset (`Told`): the net amounts it pays to
recipients, the fees it collects, withdraws and shares. A call that posts a journal
with its totals tells what the journal pays and accrues (`Posted.told`).

This module has the notions and the rules; the calls follow in `CounterHistory`.
-/

set_option autoImplicit false

namespace OnboardingBridge.Contract

open Foundations Foundations.Tx

/-! ## Payments of the bridge -/

/-- What a token call pays from the bridge in an asset. -/
def TokenCall.paid (bridge asset : Address) : TokenCall → Int
  | .transfer asset' src _ amount => if src = bridge then inAsset asset' amount.val asset else 0
  | .transferFrom .. => 0

/-- What it pays to an address. -/
def TokenCall.paidTo (bridge asset receiver : Address) : TokenCall → Int
  | .transfer asset' src dst amount =>
      if src = bridge ∧ dst = receiver then inAsset asset' amount.val asset else 0
  | .transferFrom .. => 0

/-- What a list of token calls pays from the bridge in an asset. -/
def outflow (bridge asset : Address) (calls : List TokenCall) : Int :=
  (calls.map (TokenCall.paid bridge asset)).sum

/-- What it pays to an address. -/
def outflowTo (bridge asset receiver : Address) (calls : List TokenCall) : Int :=
  (calls.map (TokenCall.paidTo bridge asset receiver)).sum

section Outflow

variable {bridge asset : Address}

@[simp] theorem outflow_nil : outflow bridge asset [] = 0 := rfl

@[simp] theorem outflow_cons (call : TokenCall) (calls : List TokenCall) :
    outflow bridge asset (call :: calls) = call.paid bridge asset + outflow bridge asset calls :=
  List.sum_cons

@[simp] theorem outflow_append (first second : List TokenCall) :
    outflow bridge asset (first ++ second) =
      outflow bridge asset first + outflow bridge asset second := by
  simp [outflow]

@[simp] theorem outflowTo_nil (receiver : Address) : outflowTo bridge asset receiver [] = 0 := rfl

@[simp] theorem outflowTo_cons (receiver : Address) (call : TokenCall) (calls : List TokenCall) :
    outflowTo bridge asset receiver (call :: calls) =
      call.paidTo bridge asset receiver + outflowTo bridge asset receiver calls :=
  List.sum_cons

@[simp] theorem outflowTo_append (receiver : Address) (first second : List TokenCall) :
    outflowTo bridge asset receiver (first ++ second) =
      outflowTo bridge asset receiver first + outflowTo bridge asset receiver second := by
  simp [outflowTo]

theorem outflow_payout {asset' dst : Address} {amount : I128} (nonneg : 0 ≤ amount.val) :
    outflow bridge asset ((payout bridge asset' dst amount).filterMap Movement.call?) =
      inAsset asset' amount.val asset := by
  unfold payout
  split
  · simp [Movement.call?, TokenCall.paid]
  · have zero : amount.val = 0 := by omega
    simp [zero, inAsset]

theorem outflowTo_payout {asset' dst receiver : Address} {amount : I128}
    (nonneg : 0 ≤ amount.val) :
    outflowTo bridge asset receiver ((payout bridge asset' dst amount).filterMap Movement.call?) =
      if dst = receiver then inAsset asset' amount.val asset else 0 := by
  unfold payout
  split
  · simp [Movement.call?, TokenCall.paidTo]
  · have zero : amount.val = 0 := by omega
    simp [zero, inAsset]

theorem outflow_rewardCalls (recipient : Option Address) (w w' : World) :
    outflow bridge asset (rewardCalls bridge recipient w w') = rewardPaid recipient w w' asset := by
  unfold rewardCalls rewardPaid
  split
  · split
    · simp [TokenCall.paid]
    · rfl
  · rfl

/-- A reward is not paid to others than its recipient. -/
theorem outflowTo_rewardCalls {recipient receiver : Address} (other : recipient ≠ receiver)
    (w w' : World) : outflowTo bridge asset receiver (rewardCalls bridge (some recipient) w w') = 0 := by
  unfold rewardCalls
  split
  · next same _ =>
    obtain rfl := Option.some.inj same
    split
    · simp [TokenCall.paidTo, other]
    · rfl
  · rfl

end Outflow

/-! ## What a call tells -/

/-- The total of the entries whose target is refused. -/
def World.refused (w : World) (entries : List (Address × I128)) : Int :=
  ((entries.filter fun entry => !w.admits entry.1).map fun entry => entry.2.val).sum

namespace Request

/-- The calls that pay recipients a net amount. -/
def delivers : Request → Bool
  | .claimTimelocked _ => true
  | request => request.funds

/-- What a call pays to others than recipients: the refund of a batch, and what a swap
routes through its pool. -/
def aside (w : World) : Request → Address → Int
  | .batchFundCAddress _ targets amounts asset _ _ =>
      inAsset asset (w.refused (targets.zip amounts))
  | .fundCAddressWithSwap _ _ sourceAsset _ sourceAmount _ _ _ _ =>
      inAsset sourceAsset sourceAmount.val
  | _ => 0

/-- What a call withdraws of the accrued fees. -/
def withdrawn : Request → Address → Int
  | .withdrawFees asset amount _ => inAsset asset amount.val
  | _ => 0

/-- The referrer of a call. -/
def referrer : Request → Option Address
  | .fundCAddressWithReferral _ _ _ _ referrer _ _ => referrer
  | _ => none

end Request

/-- What a call pays to its referrer. -/
def referralPaid (env : Env) (request : Request) (w' : World) (asset : Address) : Int :=
  match request.referrer with
  | some referrer => outflowTo env.self asset referrer w'.invocations
  | none => 0

/-- The net amounts that a call pays to its recipients: what the bridge pays out but for
the reward, the referral and what goes aside. -/
def netPaid (env : Env) (request : Request) (w w' : World) (asset : Address) : Int :=
  if request.delivers then
    outflow env.self asset w'.invocations - rewardPaid (request.recipient w) w w' asset
      - referralPaid env request w' asset - request.aside w asset
  else 0

/-- What a call adds to the history. -/
structure Told (env : Env) (request : Request) (w w' : World) : Prop where
  bridged : ∀ asset, (w'.counters asset).totalBridged.val =
    (w.counters asset).totalBridged.val + netPaid env request w w' asset
  spread : ∀ asset,
    (w'.counters asset).totalFeesCollected.val - (w'.counters asset).accruedFees.val =
      (w.counters asset).totalFeesCollected.val - (w.counters asset).accruedFees.val
        + (request.withdrawn asset + referralPaid env request w' asset)
  grows : ∀ asset, (w.counters asset).totalFeesCollected.val ≤
      (w'.counters asset).totalFeesCollected.val ∧
    (w.counters asset).totalBridged.val ≤ (w'.counters asset).totalBridged.val
  accrued : ∀ asset, 0 ≤ (w.counters asset).accruedFees.val →
    0 ≤ (w'.counters asset).accruedFees.val

/-! ## Journals with totals -/

/-- The totals of every asset are the same. -/
def SameTotals (w w' : World) : Prop :=
  ∀ asset, (w'.counters asset).totalFeesCollected = (w.counters asset).totalFeesCollected ∧
    (w'.counters asset).totalBridged = (w.counters asset).totalBridged

theorem Frame.sameTotals {keys : Set DataKey} {moves : Prop} {w w' : World}
    (frame : Frame keys moves w w') (outside : ∀ asset, .assetStats asset ∉ keys) :
    SameTotals w w' := by
  intro asset
  rw [World.counters, World.counters, frame.store _ (outside asset)]
  exact ⟨rfl, rfl⟩

/-- Between the two worlds lie the movements of a journal, and the totals move by so
much. -/
structure Posted (bridge : Address) (journal : List Movement) (fees bridged : Address → Int)
    (w w' : World) : Prop where
  recorded : Recorded bridge journal w w'
  fees : ∀ asset, (w'.counters asset).totalFeesCollected.val =
    (w.counters asset).totalFeesCollected.val + fees asset
  bridged : ∀ asset, (w'.counters asset).totalBridged.val =
    (w.counters asset).totalBridged.val + bridged asset

namespace Posted

variable {bridge : Address} {journal later : List Movement} {fees bridged fees' bridged' : Address → Int}
  {w w' w'' : World}

theorem trans (first : Posted bridge journal fees bridged w w')
    (second : Posted bridge later fees' bridged' w' w'') :
    Posted bridge (journal ++ later) (fees + fees') (bridged + bridged') w w'' where
  recorded := first.recorded.trans second.recorded
  fees asset := by rw [second.fees, first.fees, Pi.add_apply, add_assoc]
  bridged asset := by rw [second.bridged, first.bridged, Pi.add_apply, add_assoc]

/-- What records a journal and leaves the totals alone. -/
theorem of_sameTotals (recorded : Recorded bridge journal w w') (same : SameTotals w w') :
    Posted bridge journal 0 0 w w' where
  recorded := recorded
  fees asset := by simp [(same asset).1]
  bridged asset := by simp [(same asset).2]

/-- Keeping records tells nothing. -/
theorem of_frame (frame : Frame recordKeys False w w') : Posted bridge [] 0 0 w w' :=
  of_sameTotals (.of_frame frame) (frame.sameTotals (by simp))

theorem enter (bridge : Address) (w : World) : Posted bridge [] 0 0 w (w.put .entered true) := by
  have silent : Silent (save .entered true) := save_touches _ (by simp)
  exact of_frame (silent rfl)

/-- A part of a call that keeps records at most adds nothing. -/
theorem skip {α β : Type} {body : Call α} {rest : α → Call β} {b : β} {goal : Prop}
    (sofar : Posted bridge journal fees bridged w w')
    (ran : (body >>= rest).run w' = .ok (b, w'')) (silent : Silent body)
    (next : ∀ a t, Posted bridge journal fees bridged w t → (rest a).run t = .ok (b, w'') → goal) :
    goal := by
  obtain ⟨a, t, first, ran⟩ := run_bind_ok.mp ran
  exact next a t (by simpa using sofar.trans (of_frame (silent first))) ran

/-- The same, for a part whose run is used later. -/
theorem keep {α β : Type} {body : Call α} {rest : α → Call β} {b : β}
    (sofar : Posted bridge journal fees bridged w w') (silent : Silent body)
    (ran : (body >>= rest).run w' = .ok (b, w'')) :
    ∃ a t, Posted bridge journal fees bridged w t ∧ body.run w' = .ok (a, t) ∧
      (rest a).run t = .ok (b, w'') := by
  obtain ⟨a, t, first, ran⟩ := run_bind_ok.mp ran
  exact ⟨a, t, by simpa using sofar.trans (of_frame (silent first)), first, ran⟩

/-- A part of a call adds the journal it records. -/
theorem step {α β : Type} {body : Call α} {rest : α → Call β} {b : β}
    (sofar : Posted bridge journal fees bridged w w') (records : Records bridge later body)
    (same : Preserves SameTotals body) (ran : (body >>= rest).run w' = .ok (b, w'')) :
    ∃ a t, Posted bridge (journal ++ later) fees bridged w t ∧ body.run w' = .ok (a, t) ∧
      (rest a).run t = .ok (b, w'') := by
  obtain ⟨a, t, first, ran⟩ := run_bind_ok.mp ran
  refine ⟨a, t, ?_, first, ran⟩
  simpa using sofar.trans (of_sameTotals (records first) (same first))

end Posted

theorem transfer_sameTotals (env : Env) (asset src dst : Address) (amount : I128) :
    Preserves SameTotals (transfer env asset src dst amount) :=
  Preserves.mono (transfer_touches env asset src dst amount : Touches ∅ True _) fun _ _ frame =>
    frame.sameTotals (by simp)

theorem payout_sameTotals (env : Env) (asset dst : Address) (amount : I128) :
    Preserves SameTotals
      (onlyIf (0 < amount.val) (transfer env asset env.self dst amount)) := by
  have touches : Touches ∅ True
      (onlyIf (0 < amount.val) (transfer env asset env.self dst amount)) := by simp
  exact touches.mono fun _ _ frame => frame.sameTotals (by simp)

theorem mintLoyaltyTokens_sameTotals (env : Env) (recipient : Address) :
    Preserves SameTotals (mintLoyaltyTokens env recipient) := by
  have touches : Touches ∅ True (mintLoyaltyTokens env recipient) := by simp
  exact touches.mono fun _ _ frame => frame.sameTotals (by simp)

/-- Storing counters with the same totals keeps the totals. -/
theorem put_sameTotals {w : World} {asset : Address} {counters : AssetCounters}
    (fees : counters.totalFeesCollected = (w.counters asset).totalFeesCollected)
    (bridged : counters.totalBridged = (w.counters asset).totalBridged) :
    SameTotals w (w.put (.assetStats asset) counters) := by
  intro asset'
  by_cases same : asset' = asset
  · subst same
    simpa [World.counters] using And.intro fees bridged
  · simp [World.counters, same]

theorem incrementLockedTimelock_sameTotals (asset : Address) (amount : I128) :
    Preserves SameTotals (incrementLockedTimelock asset amount) := by
  intro w _ w' ran
  simp only [incrementLockedTimelock, save, run_bind_ok, run_read_ok, run_ofExcept_ok,
    run_modify_ok] at ran
  obtain ⟨_, _, ⟨rfl, rfl⟩, locked, _, ⟨-, rfl⟩, rfl⟩ := ran
  exact put_sameTotals rfl rfl

theorem decrementLockedTimelock_sameTotals (asset : Address) (amount : I128) :
    Preserves SameTotals (decrementLockedTimelock asset amount) := by
  intro w _ w' ran
  simp only [decrementLockedTimelock, save, run_bind_ok, run_read_ok, run_ofExcept_ok,
    run_modify_ok] at ran
  obtain ⟨_, _, ⟨rfl, rfl⟩, locked, _, ⟨-, rfl⟩, rfl⟩ := ran
  exact put_sameTotals rfl rfl

theorem decrementAccruedFees_sameTotals (asset : Address) (amount : I128) :
    Preserves SameTotals (decrementAccruedFees asset amount) := by
  intro w _ w' ran
  simp only [decrementAccruedFees, save, run_bind_ok, run_read_ok, run_ofExcept_ok,
    run_modify_ok] at ran
  obtain ⟨_, _, ⟨rfl, rfl⟩, accrued, _, ⟨-, rfl⟩, rfl⟩ := ran
  exact put_sameTotals rfl rfl

theorem decrementCrosschainReserve_sameTotals (asset : Address) (amount : I128) :
    Preserves SameTotals (decrementCrosschainReserve asset amount) :=
  have touches : Touches {.crossChainReserve asset} True
      (decrementCrosschainReserve asset amount) :=
    decrementCrosschainReserve_touches asset amount (by simp)
  touches.mono fun _ _ frame => frame.sameTotals (by simp)

/-- Counting a fee and a net amount posts them. -/
theorem updateAssetCountersSplit_posted (bridge asset : Address) (accrued fee net : I128)
    {w w' : World} {u : Unit}
    (ran : (updateAssetCountersSplit asset accrued fee net).run w = .ok (u, w')) :
    Posted bridge [.earmark .accruedFees asset accrued.val] (inAsset asset fee.val)
      (inAsset asset net.val) w w' := by
  have recorded : Recorded bridge [.earmark .accruedFees asset accrued.val] w w' :=
    updateAssetCountersSplit_records asset accrued fee net ran
  obtain ⟨accruedFees, totalBridged, totalFees, -, bridges, totals, rfl⟩ :=
    updateAssetCountersSplit_ok.mp ran
  refine ⟨recorded, fun asset' => ?_, fun asset' => ?_⟩
  · by_cases same : asset' = asset
    · subst same
      simp [World.counters, inAsset] at totals ⊢
      exact totals
    · simp [World.counters, inAsset, same]
  · by_cases same : asset' = asset
    · subst same
      simp [World.counters, inAsset] at bridges ⊢
      exact bridges
    · simp [World.counters, inAsset, same]

theorem Rewarded.sameTotals {env : Env} {recipient : Option Address} {s r : World}
    (rewarded : Rewarded env recipient s r) : SameTotals s r := by
  cases recipient with
  | none =>
    obtain rfl : r = s := rewarded
    exact fun _ => ⟨rfl, rfl⟩
  | some recipient => exact mintLoyaltyTokens_sameTotals env recipient rewarded

/-- The token calls of a call that posts a journal, rewards and moves nothing more. -/
theorem Posted.calls {env : Env} {recipient : Option Address} {journal : List Movement}
    {fees bridged : Address → Int} {w s r w' : World}
    (posted : Posted env.self journal fees bridged w s) (rewarded : Rewarded env recipient s r)
    (later : Posted env.self [] 0 0 r w') (fresh : w.invocations = [])
    (quiet : w.loyaltySkips = []) : w'.invocations =
      journal.filterMap Movement.call? ++ rewardCalls env.self recipient w w' := by
  have step := rewarded.step (posted.recorded.loyaltySkips.trans quiet)
  have calls : rewardCalls env.self recipient s r = rewardCalls env.self recipient w w' := by
    simp only [rewardCalls, posted.recorded.loyaltyReward, later.recorded.loyaltySkips]
  have kept := later.recorded.invocations
  simp only [List.filterMap_nil, List.append_nil] at kept
  rw [kept, step.invocations, posted.recorded.invocations, fresh, List.nil_append, calls]

theorem Request.withdrawn_of_delivers {request : Request} (delivers : request.delivers = true) :
    request.withdrawn = 0 := by
  cases request <;> first | rfl | cases delivers

/-- A call tells what it posts, when it pays out what it bridges and shares, and accrues
what it does not share of the fees. -/
theorem Posted.told {env : Env} {request : Request} {journal : List Movement}
    {fees bridged : Address → Int} {w s r w' : World} (share : Address → Int)
    (posted : Posted env.self journal fees bridged w s)
    (rewarded : Rewarded env (request.recipient w) s r) (later : Posted env.self [] 0 0 r w')
    (fresh : w.invocations = []) (quiet : w.loyaltySkips = [])
    (delivers : request.delivers = true)
    (shared : ∀ asset, referralPaid env request w' asset = share asset)
    (paid : ∀ asset, outflow env.self asset (journal.filterMap Movement.call?) =
      bridged asset + share asset + request.aside w asset)
    (accrued : ∀ asset, (journal.map (Movement.earmarks .accruedFees asset)).sum =
      fees asset - share asset)
    (parts : ∀ asset, 0 ≤ bridged asset ∧ 0 ≤ share asset ∧ share asset ≤ fees asset) :
    Told env request w w' := by
  have calls := posted.calls rewarded later fresh quiet
  have step := rewarded.step (posted.recorded.loyaltySkips.trans quiet)
  have total := rewarded.sameTotals
  have net (asset : Address) : netPaid env request w w' asset = bridged asset := by
    rw [netPaid, if_pos delivers, calls, outflow_append, outflow_rewardCalls, shared, paid]
    omega
  have fee (asset : Address) : (w'.counters asset).totalFeesCollected.val =
      (w.counters asset).totalFeesCollected.val + fees asset := by
    rw [later.fees, (total asset).1, posted.fees, Pi.zero_apply, add_zero]
  have bridge (asset : Address) : (w'.counters asset).totalBridged.val =
      (w.counters asset).totalBridged.val + bridged asset := by
    rw [later.bridged, (total asset).2, posted.bridged, Pi.zero_apply, add_zero]
  have accrue (asset : Address) : (w'.counters asset).accruedFees.val =
      (w.counters asset).accruedFees.val + (fees asset - share asset) := by
    have kept := later.recorded.earmarked .accruedFees asset
    have rewards := step.earmarked .accruedFees asset
    have before := posted.recorded.earmarked .accruedFees asset
    simp only [List.map_nil, List.sum_nil, add_zero] at kept
    rw [accrued] at before
    exact kept.trans (rewards.trans before)
  have withdrawn (asset : Address) : request.withdrawn asset = 0 := by
    rw [Request.withdrawn_of_delivers delivers]
    rfl
  refine ⟨fun asset => ?_, fun asset => ?_, fun asset => ?_, fun asset nonneg => ?_⟩
  · rw [bridge, net]
  · rw [fee, accrue, withdrawn, shared]
    omega
  · have := parts asset
    rw [fee, bridge]
    omega
  · have := parts asset
    rw [accrue]
    omega

/-- What keeps records at most and then leaves the guard tells nothing. -/
theorem leave_posted {bridge : Address} {α : Type} {body : Call α} {w mid w' : World} {a : α}
    (left : w' = mid.erase .entered) (silent : Silent body) (ran : body.run w = .ok (a, mid)) :
    Posted bridge [] 0 0 w w' := by
  have leaves : Silent (remove .entered) := remove_touches (by simp)
  have inside : Posted bridge [] 0 0 w mid := .of_frame (silent ran)
  rw [left]
  simpa using inside.trans (.of_frame (leaves rfl))

end OnboardingBridge.Contract
