import OnboardingBridge.Contract.Settings

/-!
# Handing over the roles

A role is given directly, or proposed by the admin and accepted by the proposed
address. A proposal waits in a slot until it is accepted, cleared or replaced
(`execute_pending`). Nothing clears the slot when the role is given directly, or
when the admin who proposed leaves; in the runs in which the slots are empty
then, no acceptance is stale (`no_stale_handoff`).
-/

set_option autoImplicit false

namespace OnboardingBridge.Contract

open Foundations Foundations.Tx

/-! ## Proposals -/

/-- The admin has authorised the call. -/
def AdminAsked (env : Env) (w : World) : Prop :=
  ∃ admin, w.holder .admin = some admin ∧ env.authorizes admin = true

theorem authorizeAdmin_asked (env : Env) (nonce : Option UInt64) :
    Requires (AdminAsked env) (authorizeAdmin env nonce) := by
  intro w admin w' ran
  obtain ⟨found, _, read, asks⟩ := run_bind_ok.mp ran
  obtain ⟨holder, rfl⟩ := readAdmin_ok.mp read
  exact ⟨found, holder, (requireAuth_bind_ok.mp asks).1⟩

theorem AdminAsked.of_settings {env : Env} {w w' : World} (same : w'.settings = w.settings)
    (asked : AdminAsked env w') : AdminAsked env w := by
  obtain ⟨admin, holder, authorized⟩ := asked
  exact ⟨admin, (congrArg (fun settings => settings.holder .admin) same).symm.trans holder,
    authorized⟩

/-- Parts of a call before the authorisation do not touch the settings. -/
theorem adminAsked_after {env : Env} {α β : Type} {body : Call α} {rest : α → Call β}
    (touches : Touches otherThanSettings True body)
    (next : ∀ a, Requires (AdminAsked env) (rest a)) : Requires (AdminAsked env) (body >>= rest) :=
  .after (fun _ _ _ ran => AdminAsked.of_settings (touches ran).settings) next

theorem propose_asked {env : Env} {nonce : Option UInt64} {rest : Address → Call Unit} :
    Requires (AdminAsked env) (nonReentrant do
      checkInitialized
      checkNotDeactivated
      let admin ← authorizeAdmin env nonce
      rest admin) := by
  refine adminAsked_after (.read _) fun _ => adminAsked_after (.rejectIf _ _) fun _ => ?_
  refine adminAsked_after (save_touches _ (by simp)) fun _ => .bind ?_
  refine adminAsked_after checkInitialized_touches fun _ => ?_
  exact adminAsked_after checkNotDeactivated_touches fun _ => (authorizeAdmin_asked env nonce).bind

/-- What a call does to the proposal for a role. -/
inductive PendingStep (env : Env) (request : Request) (w w' : World) (role : Role) : Prop where
  | kept (accepts : request.accepts role = false) (same : w'.pending role = w.pending role)
  | proposed {address : Address} (asked : request.proposes role = some address)
      (authorized : AdminAsked env w) (settings : w'.settings = w.settings)
      (stored : w'.pending role = some address)
  | emptied (empty : w'.pending role = none)

theorem proposeNewAdmin_pending (env : Env) (newAdmin : Address) (nonce : Option UInt64) :
    Ensures (fun w => w.pending .admin = some newAdmin) (proposeNewAdmin env newAdmin nonce) :=
  nonReentrant_pending (.bind fun _ => .bind fun _ => .bind fun _ =>
    writePending_ensures rfl (.modify fun _ => by simp [World.pending]))

theorem proposeNewFeeCollector_pending (env : Env) (newCollector : Address)
    (nonce : Option UInt64) :
    Ensures (fun w => w.pending .feeCollector = some newCollector)
      (proposeNewFeeCollector env newCollector nonce) :=
  nonReentrant_pending (.bind fun _ => .bind fun _ => .bind fun _ =>
    writePending_ensures rfl (.modify fun _ => by simp [World.pending]))

theorem clearPendingAdmin_pending (env : Env) (nonce : Option UInt64) :
    Ensures (fun w => w.pending .admin = none) (clearPendingAdmin env nonce) :=
  nonReentrant_pending (.bind fun _ => .bind fun _ => .bind fun _ => .bind fun _ => .bind fun _ =>
    writePending_ensures rfl (.modify fun _ => by simp [World.pending]))

theorem clearPendingFeeCollector_pending (env : Env) (nonce : Option UInt64) :
    Ensures (fun w => w.pending .feeCollector = none) (clearPendingFeeCollector env nonce) :=
  nonReentrant_pending (.bind fun _ => .bind fun _ => .bind fun _ => .bind fun _ => .bind fun _ =>
    writePending_ensures rfl (.modify fun _ => by simp [World.pending]))

theorem execute_pending {env : Env} {request : Request} {reply : Reply} {w w' : World}
    (ran : (execute env request).run w = .ok (reply, w')) (role : Role) :
    PendingStep env request w w' role := by
  have frame := execute_frame env request ran
  have settled (other : request.writesSettings = false) : w'.settings = w.settings :=
    (frame.widen (Request.writes_otherThanSettings other)).settings
  by_cases writes : role.slot ∈ request.writes
  · cases request
    all_goals try (cases role <;> simp [Request.writes, Role.slot, dailyUsages] at writes; done)
    all_goals obtain ⟨_, ran, -⟩ := replying_ok.mp ran
    case proposeNewAdmin newAdmin nonce =>
      obtain rfl : role = .admin := by cases role <;> simp [Request.writes, Role.slot] at writes ⊢
      exact .proposed rfl (propose_asked ran) (settled rfl) (proposeNewAdmin_pending _ _ _ ran)
    case proposeNewFeeCollector newCollector nonce =>
      obtain rfl : role = .feeCollector := by
        cases role <;> simp [Request.writes, Role.slot] at writes ⊢
      exact .proposed rfl (propose_asked ran) (settled rfl)
        (proposeNewFeeCollector_pending _ _ _ ran)
    case acceptAdmin =>
      obtain rfl : role = .admin := by cases role <;> simp [Request.writes, Role.slot] at writes ⊢
      obtain ⟨_, acceptance⟩ := acceptAdmin_settings ran
      exact .emptied acceptance.usedUp
    case acceptFeeCollector =>
      obtain rfl : role = .feeCollector := by
        cases role <;> simp [Request.writes, Role.slot] at writes ⊢
      obtain ⟨_, acceptance⟩ := acceptFeeCollector_settings ran
      exact .emptied acceptance.usedUp
    case clearPendingAdmin nonce =>
      obtain rfl : role = .admin := by cases role <;> simp [Request.writes, Role.slot] at writes ⊢
      exact .emptied (clearPendingAdmin_pending _ _ ran)
    case clearPendingFeeCollector nonce =>
      obtain rfl : role = .feeCollector := by
        cases role <;> simp [Request.writes, Role.slot] at writes ⊢
      exact .emptied (clearPendingFeeCollector_pending _ _ ran)
  · refine .kept ?_ (World.pending_congr (frame.store _ writes))
    cases request
    case acceptAdmin => cases role <;> simp [Request.accepts, Request.writes, Role.slot] at writes ⊢
    case acceptFeeCollector =>
      cases role <;> simp [Request.accepts, Request.writes, Role.slot] at writes ⊢
    all_goals rfl

/-! ## Runs -/

/-- An admin proposes an address for a role. -/
def Label.Proposes (role : Role) (address admin : Address) : Label → Prop
  | .success call => call.request.proposes role = some address ∧
      call.before.holder .admin = some admin ∧ call.env.authorizes admin = true
  | _ => False

/-- The role is not given away, and the admin stays in office. -/
def Label.KeepsOffice (role : Role) (admin : Address) : Label → Prop
  | .success call => call.request.assigns role = none ∧ call.request.accepts role = false ∧
      call.after.holder .admin = some admin
  | _ => True

/-- The admin in office has proposed the address, and since then the role was not
given away and the admin has stayed in office. -/
def Standing (past : List Label) (w : World) (role : Role) (address : Address) : Prop :=
  ∃ admin, w.holder .admin = some admin ∧
    Since (Label.Proposes role address admin) (Label.KeepsOffice role admin) past

/-- Every proposal that waits stands. -/
def ProposalsStanding (past : List Label) (w : World) : Prop :=
  ∀ role address, w.pending role = some address →
    w.initialized = true ∧ Standing past w role address

/-- The calls that make a proposal for a role stale: those that give the role away
directly, and for the fee collector those that change the admin. -/
def Request.Stales (request : Request) (w : World) (role : Role) : Prop :=
  request.assigns role ≠ none ∨
    role = .feeCollector ∧
      ((∃ admin, request.assigns .admin = some admin ∧ w.holder .admin ≠ some admin) ∨
        request.accepts .admin = true ∧ w.pending .admin ≠ w.holder .admin)

/-- No proposal waits that the call would make stale. -/
def Label.LeavesNoneStale : Label → Prop
  | .success call => ∀ role, call.request.Stales call.before role → call.before.pending role = none
  | _ => True

/-- A call that keeps a proposal which waits, and makes none stale, keeps the admin
in office. -/
theorem SettingsStep.keepsAdmin {env : Env} {request : Request} {w w' : World} {role : Role}
    (step : SettingsStep env request w w') (opened : w.initialized = true)
    (admitted : request.Admitted w) (fresh : ¬ request.Stales w role)
    (accepts : request.accepts role = false) : w'.holder .admin = w.holder .admin := by
  have holder {settings : Settings} (same : w'.settings = settings) :
      w'.holder .admin = settings.holder .admin := congrArg (Settings.holder · .admin) same
  cases step with
  | kept _ _ settings => exact holder settings
  | opened asked =>
    have closed := admitted.initialized
    rw [asked, opened] at closed
    exact absurd closed (by simp)
  | rated _ _ _ settings => exact holder settings
  | @assigned given address asked _ settings =>
    rw [holder settings]
    cases given with
    | feeCollector => exact Settings.assign_holder_of_ne _ (by simp) _
    | admin =>
      cases role with
      | admin => exact absurd (.inl (by simp [asked])) fresh
      | feeCollector =>
        by_contra changes
        refine fresh (.inr ⟨rfl, .inl ⟨address, asked, fun same => changes ?_⟩⟩)
        exact (Settings.assign_holder_self ..).trans same.symm
  | @accepted given address asked _ acceptance =>
    rw [holder acceptance.settings]
    cases given with
    | feeCollector => exact Settings.assign_holder_of_ne _ (by simp) _
    | admin =>
      cases role with
      | admin => exact absurd (asked.symm.trans accepts) (by simp)
      | feeCollector =>
        by_contra changes
        refine fresh (.inr ⟨rfl, .inr ⟨asked, fun same => changes ?_⟩⟩)
        exact (Settings.assign_holder_self ..).trans (acceptance.proposed.symm.trans same)

theorem Request.initializes_of_proposes {request : Request} {role : Role} {address : Address}
    (asked : request.proposes role = some address) : request.initializes = false := by
  cases request
  case initializeContract | initializeWithWasmHash => simp [Request.proposes] at asked
  all_goals rfl

theorem Step.proposalsStanding {host : Host} {past : List Label} {w w' : World} {label : Label}
    (standing : ProposalsStanding past w) (clean : label.LeavesNoneStale)
    (taken : Step host w label w') : ProposalsStanding (past ++ [label]) w' := by
  intro role address waits
  cases taken with
  | @success call deployed ran =>
    have settings := execute_settings ran
    have admitted := execute_admitted _ _ ran
    have still (opened : call.before.begin.initialized = true) : call.after.initialized = true :=
      execute_initialized opened ran
    cases execute_pending ran role with
    | kept accepts same =>
      have waited : call.before.pending role = some address := same.symm.trans waits
      obtain ⟨opened, admin, office, since⟩ := standing role address waited
      have fresh : ¬ call.request.Stales call.before role := fun stales => by
        simp [clean role stales] at waited
      have stays := (settings.keepsAdmin opened admitted fresh accepts).trans office
      refine ⟨still opened, admin, stays, since.still ⟨?_, accepts, stays⟩⟩
      by_contra given
      exact fresh (.inl given)
    | proposed asked authorized same stored =>
      obtain rfl := Option.some.inj (stored.symm.trans waits)
      obtain ⟨admin, office, agreed⟩ := authorized
      have stays : call.after.holder .admin = call.before.holder .admin :=
        congrArg (Settings.holder · .admin) same
      have opened : call.before.begin.initialized = true := by
        rw [admitted.initialized, Request.initializes_of_proposes asked]
        rfl
      exact ⟨still opened, admin, stays.trans office, .now ⟨asked, office, agreed⟩⟩
    | emptied empty => simp [empty] at waits
  | failure =>
    obtain ⟨opened, admin, office, since⟩ := standing role address waits
    exact ⟨opened, admin, office, since.still trivial⟩
  | external =>
    have waits : w.pending role = some address := by cases role <;> exact waits
    obtain ⟨opened, admin, office, since⟩ := standing role address waits
    exact ⟨opened, admin, office, since.still trivial⟩

theorem Run.proposalsStanding {host : Host} {start w : World} {labels : List Label}
    (fresh : Genesis host start) (run : Run (Step host) start labels w)
    (clean : ∀ label ∈ labels, label.LeavesNoneStale) : ProposalsStanding labels w := by
  have nothing : ProposalsStanding [] start := by
    intro role address waits
    cases role <;> simp [World.pending, fresh.store] at waits
  exact Run.traced (fun _ _ _ _ standing ⟨admitted, taken⟩ =>
    Step.proposalsStanding standing admitted taken) (run.restrict clean) nothing

/-- In a run whose calls leave no proposal stale, a role is accepted only by the
address that the admin in office proposed for it, with the role not given away
and the admin in office ever since. -/
theorem no_stale_handoff {host : Host} {start w : World} {labels earlier later : List Label}
    {accept : Success} {role : Role} (fresh : Genesis host start)
    (run : Run (Step host) start labels w) (clean : ∀ label ∈ labels, label.LeavesNoneStale)
    (split : labels = earlier ++ .success accept :: later)
    (accepts : accept.request.accepts role = true) :
    ∃ address, accept.env.authorizes address = true ∧ accept.after.holder role = some address ∧
      Standing earlier accept.before role address := by
  subst split
  obtain ⟨t, v, before, taken, -⟩ := run.around
  have standing := Run.proposalsStanding fresh before fun label member =>
    clean label (List.mem_append_left _ member)
  cases taken with
  | success deployed ran =>
    obtain ⟨address, acceptance⟩ := execute_accepts accepts ran
    refine ⟨address, acceptance.authorized, ?_, (standing role address acceptance.proposed).2⟩
    have holder := congrArg (Settings.holder · role) acceptance.settings
    exact holder.trans (Settings.assign_holder_self ..)

/-- The admin proposes another address, which accepts. -/
theorem no_stale_handoff_rehearsed :
    let script := [(0, .initializeContract (Rehearsal.address 1) (Rehearsal.address 2) 100 none),
      (0, .proposeNewAdmin (Rehearsal.address 5) none)]
    let accept := attempt (Rehearsal.env 0) .acceptAdmin (Rehearsal.outcome script)
    ∃ address, accept.env.authorizes address = true ∧ accept.after.holder .admin = some address ∧
      Standing ((Rehearsal.calls script).map .success) accept.before .admin address := by
  intro script accept
  have run := Rehearsal.run (script ++ [(0, .acceptAdmin)]) (by decide +kernel)
  have quiet : ∀ call ∈ Rehearsal.calls (script ++ [(0, .acceptAdmin)]),
      call.request.assigns .admin = none ∧ call.before.pending .feeCollector = none := by
    decide +kernel
  have clean : ∀ label ∈ (Rehearsal.calls (script ++ [(0, .acceptAdmin)])).map Label.success,
      label.LeavesNoneStale := by
    intro label member
    obtain ⟨call, rehearsed, rfl⟩ := List.mem_map.mp member
    obtain ⟨assigns, idle⟩ := quiet call rehearsed
    intro role stales
    cases role with
    | admin => exact absurd assigns (stales.resolve_right (by simp))
    | feeCollector => exact idle
  exact no_stale_handoff Rehearsal.fresh_genesis run clean rfl
    (congrArg (Request.accepts · .admin) (attempt_call ..).2.1)

/-- The admin proposes an address and is then replaced. The address may still accept,
though the admin in office has proposed nobody. -/
theorem stale_proposal_accepted : ¬ ∀ (labels earlier later : List Label) (w : World)
    (accept : Success) (role : Role), Run (Step Rehearsal.host) Rehearsal.fresh labels w →
      labels = earlier ++ .success accept :: later → accept.request.accepts role = true →
      ∃ address propose, accept.after.holder role = some address ∧ .success propose ∈ earlier ∧
        propose.request.proposes role = some address ∧
        propose.before.holder .admin = accept.before.holder .admin := by
  intro claim
  let script : List (UInt64 × Request) := [
    (0, .initializeContract (Rehearsal.address 1) (Rehearsal.address 2) 100 none),
    (0, .proposeNewAdmin (Rehearsal.address 5) none), (0, .setAdmin (Rehearsal.address 3) none)]
  have run := Rehearsal.run (script ++ [(0, .acceptAdmin)]) (by decide +kernel)
  obtain ⟨address, propose, -, made, proposes, office⟩ := claim _
    ((Rehearsal.calls script).map .success) [] _
    (attempt (Rehearsal.env 0) .acceptAdmin (Rehearsal.outcome script)) .admin run rfl
    (congrArg (Request.accepts · .admin) (attempt_call ..).2.1)
  have others : ∀ call ∈ Rehearsal.calls script, call.request.proposes .admin = none ∨
      call.before.holder .admin = some (Rehearsal.address 1) := by decide +kernel
  have replaced : (Rehearsal.outcome script).holder .admin = some (Rehearsal.address 3) := by
    decide +kernel
  obtain ⟨call, member, same⟩ := List.mem_map.mp made
  obtain rfl := Label.success.inj same
  rw [(attempt_call ..).2.2, replaced] at office
  rcases others call member with unasked | first
  · simp [unasked] at proposes
  · exact absurd (first.symm.trans office) (by decide)

end OnboardingBridge.Contract
