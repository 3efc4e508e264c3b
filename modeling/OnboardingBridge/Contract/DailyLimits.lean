import OnboardingBridge.Contract.Settlement
import OnboardingBridge.Contract.System

/-!
# The daily limits of the sources

Seven entry points charge the day's usage of a source in an asset, each with the
gross amount it funds, and a batch with what it can deliver
(`execute_charged`). While no limit is configured the usage is not kept, so a
limit that is set later on the same day does not see what was funded before it;
otherwise the day's total stays within the limit (`daily_limit`).
-/

set_option autoImplicit false

namespace OnboardingBridge.Contract

open Foundations Foundations.Tx

/-! ## Charges -/

/-- The recorded usage of a source in an asset on a day. -/
def World.dailyUsage (w : World) (source asset : Address) (day : UInt64) : Int :=
  ((w.store (.dailyUsage source asset day)).getD 0).val

/-- What a source funds in an asset. -/
structure Charge where
  source : Address
  asset : Address
  amount : Int
deriving DecidableEq

/-- The part of a charge that falls to a source, an asset and a day. -/
def Charge.part (env : Env) (charge : Charge) (source asset : Address) (day : UInt64) : Int :=
  if charge.source = source ∧ charge.asset = asset ∧ currentDay env = day then charge.amount else 0

/-- The total of the entries whose target passes the access check. -/
def World.deliverable (w : World) (entries : List (Address × I128)) : Int :=
  ((entries.filter fun entry => w.admits entry.1).map fun entry => entry.2.val).sum

/-- What a call funds. -/
def Request.charge (w : World) : Request → Option Charge
  | .fundCAddress source _ asset amount _ _ | .fundCAddressWithReferral source _ asset amount _ _ _
  | .fundCAddressTimelocked source _ asset amount _ _ _ _
  | .revealFund _ source _ asset amount _ | .fundCAddressWithSwap source _ asset _ amount _ _ _ _ =>
      some ⟨source, asset, amount.val⟩
  | .batchFundCAddress source targets amounts asset _ _ =>
      some ⟨source, asset, w.deliverable (targets.zip amounts)⟩
  | .executeMetaFund params _ _ => some ⟨params.source, params.asset, params.amount.val⟩
  | _ => none

/-- The usage moves by the charge where a limit is configured, and does not exceed the
limit then. -/
structure Charged (env : Env) (charge : Charge) (w w' : World) : Prop where
  usage : ∀ source asset day, w'.dailyUsage source asset day = w.dailyUsage source asset day +
    if (w.sourceDailyLimit source asset).val = 0 then 0 else charge.part env source asset day
  within : (w.sourceDailyLimit charge.source charge.asset).val ≠ 0 →
    w'.dailyUsage charge.source charge.asset (currentDay env) ≤
      (w.sourceDailyLimit charge.source charge.asset).val

/-- Successful runs charge a source. -/
abbrev Charges (env : Env) (charge : Charge) {α : Type} (body : Call α) : Prop :=
  Preserves (Charged env charge) body

theorem checkDailyLimit_charges (env : Env) (source asset : Address) (amount : I128) :
    Charges env ⟨source, asset, amount.val⟩ (checkDailyLimit env source asset amount) := by
  intro w u w' ran
  rw [checkDailyLimit, run_read_bind] at ran
  split at ran
  · next unlimited =>
    obtain ⟨-, rfl⟩ := run_pure_ok.mp ran
    refine ⟨fun source' asset' day => ?_, fun limited => absurd unlimited limited⟩
    by_cases same : source = source' ∧ asset = asset'
    · obtain ⟨rfl, rfl⟩ := same
      rw [if_pos unlimited, add_zero]
    · have nothing : Charge.part env ⟨source, asset, amount.val⟩ source' asset' day = 0 :=
        if_neg fun all => same ⟨all.1, all.2.1⟩
      rw [nothing, ite_self, add_zero]
  · next limited =>
    rw [run_read_bind] at ran
    obtain ⟨updated, adds, ran⟩ := run_ofExcept_bind_ok.mp ran
    obtain ⟨within, ran⟩ := run_rejectIf_bind_ok.mp ran
    rw [save, run_modify_ok] at ran
    subst ran
    have sum := safeAdd_ok.mp adds
    refine ⟨fun source' asset' day => ?_, fun _ => ?_⟩
    · by_cases same : source = source' ∧ asset = asset' ∧ currentDay env = day
      · obtain ⟨rfl, rfl, rfl⟩ := same
        rw [if_neg limited, Charge.part, if_pos ⟨rfl, rfl, rfl⟩]
        simpa [World.dailyUsage] using sum
      · rw [Charge.part, if_neg same, ite_self, add_zero]
        have other : DataKey.dailyUsage source' asset' day ≠
            .dailyUsage source asset (currentDay env) := by
          rintro ⟨⟩
          exact same ⟨rfl, rfl, rfl⟩
        simp [World.dailyUsage, other]
    · simpa [World.dailyUsage] using not_lt.mp within

/-! ## Calls -/

/-- Whether a key holds a daily usage or limit. -/
abbrev DataKey.isDaily : DataKey → Bool
  | .dailyUsage .. | .sourceDailyLimit .. => true
  | _ => false

/-- The keys that have nothing to do with daily limits. -/
def otherThanDaily : Set DataKey := {key | key.isDaily = false}

@[simp] theorem mem_otherThanDaily {key : DataKey} :
    key ∈ otherThanDaily ↔ key.isDaily = false := Iff.rfl

/-- The parts around the check neither change a usage nor a limit. -/
theorem Charged.between {env : Env} {charge : Charge} {moves moves' : Prop} {w t t' w' : World}
    (before : Frame otherThanDaily moves w t) (charged : Charged env charge t t')
    (after : Frame otherThanDaily moves' t' w') : Charged env charge w w' := by
  have first (source asset : Address) (day : UInt64) :
      t.dailyUsage source asset day = w.dailyUsage source asset day := by
    rw [World.dailyUsage, World.dailyUsage, before.store _ (by simp)]
  have limit (source asset : Address) :
      t.sourceDailyLimit source asset = w.sourceDailyLimit source asset := by
    rw [World.sourceDailyLimit, World.sourceDailyLimit, before.store _ (by simp)]
  have last (source asset : Address) (day : UInt64) :
      w'.dailyUsage source asset day = t'.dailyUsage source asset day := by
    rw [World.dailyUsage, World.dailyUsage, after.store _ (by simp)]
  refine ⟨fun source asset day => ?_, fun limited => ?_⟩
  · rw [last, charged.usage, first, limit]
  · rw [← limit] at limited ⊢
    exact last .. ▸ charged.within limited

theorem Charges.after {env : Env} {charge : Charge} {α β : Type} {body : Call α}
    {rest : α → Call β} (touches : Touches otherThanDaily True body)
    (next : ∀ a, Charges env charge (rest a)) : Charges env charge (body >>= rest) := by
  intro w b w' ran
  obtain ⟨a, t, first, ran⟩ := run_bind_ok.mp ran
  exact .between (touches first) (next a ran) (refl_of (Frame otherThanDaily True) w')

theorem Charges.before {env : Env} {charge : Charge} {α β : Type} {body : Call α}
    {rest : α → Call β} (first : Charges env charge body)
    (touches : ∀ a, Touches otherThanDaily True (rest a)) : Charges env charge (body >>= rest) := by
  intro w b w' ran
  obtain ⟨a, t, charges, ran⟩ := run_bind_ok.mp ran
  exact .between (refl_of (Frame otherThanDaily True) w) (first charges) (touches a ran)

theorem Charges.nonReentrant {env : Env} {charge : Charge} {α : Type} {body : Call α}
    (inner : Charges env charge body) : Charges env charge (nonReentrant body) := by
  refine .after (.read _) fun _ => .after (.rejectIf _ _) fun _ => ?_
  refine .after (save_touches _ (by simp)) fun _ => inner.before fun _ => ?_
  exact .bind (remove_touches (by simp)) fun _ => .pure _

theorem Charges.replying {env : Env} {charge : Charge} {α : Type} {body : Call α} {reply : α → Reply}
    (inner : Charges env charge body) : Charges env charge (replying body reply) :=
  inner.before fun _ => .pure _

theorem World.deliverable_cons (w : World) (target : Address) (amount : I128)
    (rest : List (Address × I128)) : w.deliverable ((target, amount) :: rest) =
      (if w.admits target = true then amount.val else 0) + w.deliverable rest := by
  by_cases admitted : w.admits target = true
  · simp [World.deliverable, admitted]
  · simp [World.deliverable, admitted]

theorem accessibleTotal_ok {total result : I128} {entries : List (Address × I128)} {w w' : World}
    (ran : (accessibleTotal total entries).run w = .ok (result, w')) :
    result.val = total.val + w.deliverable entries ∧ w' = w := by
  induction entries generalizing total with
  | nil =>
      obtain ⟨rfl, rfl⟩ := run_pure_ok.mp ran
      simp [World.deliverable]
  | cons entry rest ih =>
      obtain ⟨target, amount⟩ := entry
      rw [accessibleTotal] at ran
      obtain ⟨error, _, checked, ran⟩ := run_bind_ok.mp ran
      obtain ⟨admitted, -, rfl⟩ := accessError_ok checked
      rw [World.deliverable_cons]
      cases error with
      | none =>
        obtain ⟨sum, adds, ran⟩ := run_ofExcept_bind_ok.mp ran
        obtain ⟨result, rfl⟩ := ih ran
        rw [if_pos (admitted.mp rfl), result, safeAdd_ok.mp adds, add_assoc]
        exact ⟨rfl, rfl⟩
      | some reason =>
        obtain ⟨result, rfl⟩ := ih ran
        rw [if_neg fun passes => by simpa using admitted.mpr passes, result, zero_add]
        exact ⟨rfl, rfl⟩

/-- What a batch charges is worked out before the check. -/
theorem batchFundCAddress_charged {env : Env} {source asset : Address} {targets : List Address}
    {amounts : List I128} {nonce deadline : Option UInt64} {w w' : World} {u : Unit}
    (ran : (batchFundCAddress env source targets amounts asset nonce deadline).run w
      = .ok (u, w')) :
    Charged env ⟨source, asset, w.deliverable (targets.zip amounts)⟩ w w' := by
  obtain ⟨mid, ran, left⟩ := nonReentrant_ok ran
  have sofar : Frame {.entered} False w (w.put .entered true) := by
    have touches : Touches {.entered} False (save .entered true) := save_touches _ (by simp)
    exact touches rfl
  iterate 8 (refine sofar.skip ran ?_ fun _ _ sofar ran => ?_; focus simp)
  refine sofar.skip ran (validateAmounts_touches ..) fun _ _ sofar ran => ?_
  obtain ⟨total, t, adds, goesOn⟩ := run_bind_ok.mp ran
  obtain ⟨sum, rfl⟩ := accessibleTotal_ok adds
  obtain ⟨_, checked, checks, ran⟩ := run_bind_ok.mp goesOn
  have recorded : Recorded env.self [] w t := .of_frame (sofar.widen (by simp))
  have same : t.deliverable (targets.zip amounts) = w.deliverable (targets.zip amounts) := by
    simp only [World.deliverable, recorded.admits]
  have charged := checkDailyLimit_charges _ _ _ _ checks
  have zero : (0 : I128).val = 0 := rfl
  rw [sum, same, zero, zero_add] at charged
  have rest := refl_of (Frame otherThanDaily True) checked
  repeat
    refine rest.skip ran ?_ fun _ _ rest ran => ?_
    focus simp [requireAuth_touches, readFeeBps_touches]
  have published {event : Event} (shown : event.isLoyaltySkip = false) :
      Touches otherThanDaily True (publish event) := publish_touches shown
  have leaves : Touches otherThanDaily True (remove .entered) := remove_touches (by simp)
  have last := trans_of (Frame otherThanDaily True) (published (by rfl) ran) (leaves rfl)
  rw [left]
  exact charged.between (sofar.widen (by simp)) (trans_of (Frame otherThanDaily True) rest last)

/-- A call that funds charges its source. -/
theorem execute_charged {env : Env} {request : Request} {charge : Charge} {reply : Reply}
    {w w' : World} (asked : request.charge w = some charge)
    (ran : (execute env request).run w = .ok (reply, w')) : Charged env charge w w' := by
  cases request
  all_goals try (simp [Request.charge] at asked; done)
  all_goals obtain rfl := Option.some.inj asked
  case batchFundCAddress =>
    obtain ⟨_, ran, -⟩ := replying_ok.mp ran
    exact batchFundCAddress_charged ran
  all_goals
    refine Charges.replying (Charges.nonReentrant ?_) ran
    repeat (refine .after ?_ fun _ => ?_; focus simp)
    refine Charges.before (checkDailyLimit_charges ..) fun _ => ?_
    repeat' with_reducible refine Preserves.bind ?_ fun _ => ?_
    all_goals simp [Preserves.ofExcept, requireAuth_touches, readFeeBps_touches,
      checkPoolWhitelisted_touches]

/-- A call that does not fund leaves every usage as it was. -/
theorem execute_uncharged {env : Env} {request : Request} {reply : Reply} {w w' : World}
    (unasked : request.charge w = none) (ran : (execute env request).run w = .ok (reply, w'))
    (source asset : Address) (day : UInt64) :
    w'.dailyUsage source asset day = w.dailyUsage source asset day := by
  have outside : .dailyUsage source asset day ∉ request.writes := by
    cases request
    all_goals first | (simp [Request.charge] at unasked; done) | simp [Request.writes]
  rw [World.dailyUsage, World.dailyUsage, (execute_frame env request ran).store _ outside]

/-! ## Runs -/

/-- What a step funds for a source in an asset on a day. -/
def Label.funded (source asset : Address) (day : UInt64) : Label → Int
  | .success call =>
      match call.request.charge call.before with
      | some charge => charge.part call.env source asset day
      | none => 0
  | _ => 0

/-- What it funds while a limit is configured. -/
def Label.limited (source asset : Address) (day : UInt64) : Label → Int
  | .success call =>
      if (call.before.sourceDailyLimit source asset).val = 0 then 0
      else (Label.success call).funded source asset day
  | _ => 0

/-- A step that funds something for a source in an asset on a day does so under a
limit. -/
def Label.FundsLimited (source asset : Address) (day : UInt64) : Label → Prop
  | .success call => ∀ charge, call.request.charge call.before = some charge →
      charge.source = source → charge.asset = asset → currentDay call.env = day →
      charge.amount ≠ 0 → (call.before.sourceDailyLimit source asset).val ≠ 0
  | _ => True

theorem Label.FundsLimited.funded {source asset : Address} {day : UInt64} {label : Label}
    (limited : label.FundsLimited source asset day) :
    label.limited source asset day = label.funded source asset day := by
  cases label with
  | success call =>
    rw [Label.limited, ite_eq_right_iff]
    intro unlimited
    rw [Label.funded]
    cases asked : call.request.charge call.before with
    | none => rfl
    | some charge =>
      by_contra something
      have part : charge.part call.env source asset day ≠ 0 := Ne.symm something
      unfold Charge.part at part
      rw [ne_eq, ite_eq_right_iff, Classical.not_imp] at part
      obtain ⟨⟨sameSource, sameAsset, sameDay⟩, funds⟩ := part
      exact limited charge asked sameSource sameAsset sameDay funds unlimited
  | failure => rfl
  | external => rfl

/-- The usage moves by what is funded while a limit is configured. -/
theorem Step.dailyUsage {host : Host} {w w' : World} {label : Label} (taken : Step host w label w')
    (source asset : Address) (day : UInt64) :
    w'.dailyUsage source asset day =
      w.dailyUsage source asset day + label.limited source asset day := by
  cases taken with
  | @success call _ ran =>
    have same : call.before.begin.dailyUsage source asset day =
      call.before.dailyUsage source asset day := rfl
    rw [← same, Label.limited, Label.funded]
    cases asked : call.request.charge call.before with
    | none =>
      have unasked : call.request.charge call.before.begin = none := asked
      rw [execute_uncharged unasked ran, ite_self, add_zero]
    | some charge =>
      have asked : call.request.charge call.before.begin = some charge := asked
      rw [(execute_charged asked ran).usage]
      rfl
  | failure => simp [Label.limited]
  | external => simp [Label.limited, World.dailyUsage]

/-- A funding call keeps the day's recorded usage within the limit. -/
theorem Step.usageWithin {host : Host} {w w' : World} {call : Success}
    (taken : Step host w (.success call) w') {charge : Charge}
    (asked : call.request.charge call.before = some charge)
    (limited : 0 < (call.before.sourceDailyLimit charge.source charge.asset).val) :
    w'.dailyUsage charge.source charge.asset (currentDay call.env) ≤
      (call.before.sourceDailyLimit charge.source charge.asset).val := by
  cases taken with
  | success _ ran =>
    have asked : call.request.charge call.before.begin = some charge := asked
    exact (execute_charged asked ran).within limited.ne'

/-- A funding call that succeeds under a limit leaves the day's total of its source in
its asset, itself included, within the limit, when the source funded that asset
under a limit each time before on that day. -/
theorem daily_limit {host : Host} {start w : World} {labels earlier later : List Label}
    {call : Success} {charge : Charge} (fresh : Genesis host start)
    (run : Run (Step host) start labels w) (split : labels = earlier ++ .success call :: later)
    (asked : call.request.charge call.before = some charge)
    (limit : 0 < (call.before.sourceDailyLimit charge.source charge.asset).val)
    (limited : ∀ label ∈ earlier,
      label.FundsLimited charge.source charge.asset (currentDay call.env)) :
    ((earlier ++ [Label.success call]).map
        (Label.funded charge.source charge.asset (currentDay call.env))).sum ≤
      (call.before.sourceDailyLimit charge.source charge.asset).val := by
  subst split
  obtain ⟨t, v, before, taken, -⟩ := run.around
  have within := taken.usageWithin asked limit
  have unused : start.dailyUsage charge.source charge.asset (currentDay call.env) = 0 := by
    simp [World.dailyUsage, fresh.store]
  have tallied := (before.append (.single taken)).tallied
    (fun w => w.dailyUsage charge.source charge.asset (currentDay call.env)) _
    (fun _ _ _ taken => taken.dailyUsage ..)
  have here : (Label.success call).FundsLimited charge.source charge.asset (currentDay call.env) :=
    fun _ _ _ _ _ _ => limit.ne'
  have funded : (earlier ++ [Label.success call]).map
      (Label.limited charge.source charge.asset (currentDay call.env)) =
      (earlier ++ [Label.success call]).map
        (Label.funded charge.source charge.asset (currentDay call.env)) := by
    refine List.map_congr_left fun label member => Label.FundsLimited.funded ?_
    rcases List.mem_append.mp member with member | member
    · exact limited label member
    · exact List.mem_singleton.mp member ▸ here
  rw [unused, zero_add, funded] at tallied
  exact tallied ▸ within

namespace Rehearsal

/-- Fund an amount. -/
def fund (n : Nat) (small : n < 2 ^ 64 := by decide) : Request :=
  .fundCAddress (address 4) (address 5) (address 3) (amount n small) none none

/-- Set the limit of the source. -/
def limit (n : Nat) (small : n < 2 ^ 64 := by decide) : Request :=
  .setSourceDailyLimit (address 4) (address 3) (amount n small) none

/-- A contract with one asset. -/
def opening : List (UInt64 × Request) := [
  (0, .initializeContract (address 1) (address 2) 100 none), (0, .addAsset (address 3) none)]

end Rehearsal

/-- Under a limit of 1000 the source funds 600 and then 400. -/
theorem daily_limit_rehearsed :
    let script := Rehearsal.opening ++ [(0, Rehearsal.limit 1000), (0, Rehearsal.fund 600)]
    let call := attempt (Rehearsal.env 0) (Rehearsal.fund 400) (Rehearsal.outcome script)
    (((Rehearsal.calls script).map Label.success ++ [Label.success call]).map
      (Label.funded (Rehearsal.address 4) (Rehearsal.address 3) 0)).sum ≤ 1000 := by
  intro script call
  have success : Rehearsal.goesThrough (script ++ [(0, Rehearsal.fund 400)]) = true := by
    decide +kernel
  have limits : ∀ call ∈ Rehearsal.calls script, call.request.charge call.before = none ∨
      (call.before.sourceDailyLimit (Rehearsal.address 4) (Rehearsal.address 3)).val ≠ 0 := by
    decide +kernel
  have configured : ((Rehearsal.outcome script).sourceDailyLimit (Rehearsal.address 4)
      (Rehearsal.address 3)).val = 1000 := by decide +kernel
  have before : call.before = Rehearsal.outcome script := (attempt_call ..).2.2
  have env : call.env = Rehearsal.env 0 := (attempt_call ..).1
  have asked : call.request.charge call.before =
      some ⟨Rehearsal.address 4, Rehearsal.address 3, 400⟩ :=
    congrArg (Request.charge call.before) (attempt_call ..).2.1
  have split : (Rehearsal.calls (script ++ [(0, Rehearsal.fund 400)])).map Label.success =
      (Rehearsal.calls script).map Label.success ++ Label.success call :: [] := rfl
  have within := daily_limit Rehearsal.fresh_genesis (Rehearsal.run _ success) split asked
    (by rw [before, configured]; decide) fun label member => ?_
  · rwa [before, configured, env] at within
  · obtain ⟨earlier, rehearsed, rfl⟩ := List.mem_map.mp member
    intro charge charged
    rcases limits earlier rehearsed with idle | limited
    · simp [idle] at charged
    · exact fun _ _ _ _ => limited

/-- The source funds 1000 without a limit. A limit of 1000 is set on the same day, and
600 more still go through. -/
theorem daily_limit_forgets : ¬ ∀ (labels earlier later : List Label) (w : World)
    (call : Success) (charge : Charge), Run (Step Rehearsal.host) Rehearsal.fresh labels w →
      labels = earlier ++ .success call :: later →
      call.request.charge call.before = some charge →
      0 < (call.before.sourceDailyLimit charge.source charge.asset).val →
      ((earlier ++ [Label.success call]).map
        (Label.funded charge.source charge.asset (currentDay call.env))).sum ≤
          (call.before.sourceDailyLimit charge.source charge.asset).val := by
  intro claim
  let script := Rehearsal.opening ++ [(0, Rehearsal.fund 1000), (0, Rehearsal.limit 1000)]
  let call := attempt (Rehearsal.env 0) (Rehearsal.fund 600) (Rehearsal.outcome script)
  have success : Rehearsal.goesThrough (script ++ [(0, Rehearsal.fund 600)]) = true := by
    decide +kernel
  have exceeded := claim _ ((Rehearsal.calls script).map .success) [] _ call
    ⟨Rehearsal.address 4, Rehearsal.address 3, 600⟩ (Rehearsal.run _ success) rfl
    (by decide +kernel) (by decide +kernel)
  revert exceeded
  decide +kernel

end OnboardingBridge.Contract
