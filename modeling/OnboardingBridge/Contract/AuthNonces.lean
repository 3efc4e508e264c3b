import OnboardingBridge.Contract.Invariants

/-!
# Authorisation entries

Next to a counter of its authorisation entries every source has a set of marks, one
for each nonce it consumed. In every reachable world the marked nonces are the ones
below the counter, so a presented nonce that was consumed is turned down by the
comparison with the counter, before the marks are looked at (`auth_nonces`).
-/

set_option autoImplicit false

namespace OnboardingBridge.Contract

open Foundations Foundations.Tx

/-! ## An authorisation entry -/

/-- The window of an entry, whose end is exclusive. -/
def Env.within (env : Env) (validAfterLedger validBeforeLedger : UInt32) : Prop :=
  validAfterLedger ≤ env.sequence ∧ env.sequence < validBeforeLedger

instance (env : Env) (validAfterLedger validBeforeLedger : UInt32) :
    Decidable (env.within validAfterLedger validBeforeLedger) :=
  inferInstanceAs (Decidable (_ ∧ _))

theorem Env.within_iff {env : Env} {validAfterLedger validBeforeLedger : UInt32} :
    env.within validAfterLedger validBeforeLedger ↔
      ¬ (env.sequence < validAfterLedger ∨ validBeforeLedger ≤ env.sequence) := by
  rw [not_or, UInt32.not_lt, UInt32.not_le]
  rfl

/-- Marking the current nonce also moves the counter. -/
theorem markAuthNonceUsed_ok {source : Address} {nonce : UInt64} {w w' : World} {u : Unit}
    (current : nonce = w.authNonceOf source)
    (ran : (markAuthNonceUsed source nonce).run w = .ok (u, w')) :
    nonce.toNat + 1 < 2 ^ 64 ∧
      w' = (w.put (.usedAuthNonce source nonce) true).put (.authNonce source) (nonce + 1) := by
  rw [markAuthNonceUsed, save, run_modify_bind, run_read_bind] at ran
  have still : (w.put (.usedAuthNonce source nonce) true).authNonceOf source = nonce := by
    rw [current]
    simp [World.authNonceOf]
  rw [still, if_pos (UInt64.le_refl nonce)] at ran
  obtain ⟨next, found, ran⟩ := run_ofOption_bind_ok.mp ran
  obtain ⟨fits, same⟩ := Option.ite_none_right_eq_some.mp found
  obtain rfl := Option.some.inj same
  exact ⟨fits, run_modify_ok.mp ran⟩

/-- What an accepted entry tells about the world before. -/
structure Accepts (env : Env) (w : World) (source : Address) (nonce : UInt64)
    (validAfterLedger validBeforeLedger : UInt32) : Prop where
  initialized : w.initialized = true
  authorized : env.authorizes source = true
  timely : env.within validAfterLedger validBeforeLedger
  current : nonce = w.authNonceOf source
  fits : nonce.toNat + 1 < 2 ^ 64

theorem verifyAuthEntry_ok {env : Env} {source : Address} {nonce : UInt64}
    {validAfterLedger validBeforeLedger : UInt32} {w w' : World} {u : Unit}
    (ran : (verifyAuthEntry env source nonce validAfterLedger validBeforeLedger).run w =
      .ok (u, w')) :
    Accepts env w source nonce validAfterLedger validBeforeLedger ∧
      w'.store = ((w.put (.usedAuthNonce source nonce) true).put (.authNonce source)
        (nonce + 1)).store := by
  obtain ⟨_, opened, ran⟩ := (run_view_bind_ok checkInitialized_ok).mp ran
  obtain ⟨_, -, ran⟩ := (run_view_bind_ok checkNotPaused_ok).mp ran
  obtain ⟨authorized, ran⟩ := requireAuth_bind_ok.mp ran
  obtain ⟨timely, ran⟩ := run_rejectIf_bind_ok.mp ran
  rw [run_read_bind] at ran
  obtain ⟨current, ran⟩ := run_rejectIf_bind_ok.mp ran
  rw [run_read_bind] at ran
  obtain ⟨-, ran⟩ := run_rejectIf_bind_ok.mp ran
  obtain ⟨_, marked, marks, ran⟩ := run_bind_ok.mp ran
  obtain ⟨fits, rfl⟩ := markAuthNonceUsed_ok (not_not.mp current) marks
  obtain rfl := run_modify_ok.mp ran
  exact ⟨⟨opened, authorized, Env.within_iff.mpr timely, not_not.mp current, fits⟩, rfl⟩

/-- An entry that gets past the other checks with a nonce other than the current one is a
duplicate. -/
theorem verifyAuthEntry_duplicate {env : Env} {source : Address} {nonce : UInt64}
    {validAfterLedger validBeforeLedger : UInt32} {w : World} (opened : w.initialized = true)
    (running : w.running) (authorized : env.authorizes source = true)
    (timely : env.within validAfterLedger validBeforeLedger)
    (other : nonce ≠ w.authNonceOf source) :
    (verifyAuthEntry env source nonce validAfterLedger validBeforeLedger).run w =
      .error (.error .duplicateNonce) := by
  have initialized : checkInitialized.run w = .ok ((), w) := checkInitialized_ok.mpr ⟨opened, rfl⟩
  have unpaused : checkNotPaused.run w = .ok ((), w) := checkNotPaused_ok.mpr ⟨running, rfl⟩
  have inTime := Env.within_iff.mp timely
  rw [verifyAuthEntry, run_bind_of_ok initialized, run_bind_of_ok unpaused, requireAuth,
    run_rejectIf_bind (by simp [authorized]), consumeAuthNonce, run_rejectIf_bind inTime,
    run_read_bind]
  exact run_bind_of_error (by simp [reject, rejectIf, other])

/-! ## The marks and the counter -/

/-- The marks of a source are the nonces below its counter, and only an initialized
contract has any. -/
structure World.AuthLedger (w : World) : Prop where
  below : ∀ source nonce, w.authNonceUsed source nonce = true ↔ nonce < w.authNonceOf source
  opened : ∀ source, 0 < w.authNonceOf source → w.initialized = true

theorem Genesis.authLedger {host : Host} {w : World} (fresh : Genesis host w) : w.AuthLedger where
  below source nonce := by simp [World.authNonceUsed, World.authNonceOf, fresh.store]
  opened source positive := by simp [World.authNonceOf, fresh.store] at positive

theorem World.AuthLedger.of_store {w w' : World} (ledger : w.AuthLedger)
    (same : w'.store = w.store) : w'.AuthLedger := by
  obtain ⟨below, opened⟩ := ledger
  constructor
  · simpa only [World.authNonceUsed, World.authNonceOf, same] using below
  · simpa only [World.initialized, World.has, World.authNonceOf, same] using opened

theorem UInt64.lt_succ_iff {a b : UInt64} (fits : b.toNat + 1 < 2 ^ 64) :
    a < b + 1 ↔ a = b ∨ a < b := by
  have next : (b + 1).toNat = b.toNat + 1 := by
    rw [UInt64.toNat_add]
    exact Nat.mod_eq_of_lt fits
  rw [UInt64.lt_iff_toNat_lt, UInt64.lt_iff_toNat_lt, next, ← UInt64.toNat_inj]
  omega

/-- The counter and the marks of a source after an accepted entry. -/
theorem acceptedEntry_leaves {w w' : World} {source : Address} {nonce : UInt64}
    (stored : w'.store = ((w.put (.usedAuthNonce source nonce) true).put (.authNonce source)
      (nonce + 1)).store) :
    (∀ other, w'.authNonceOf other = if other = source then nonce + 1 else w.authNonceOf other) ∧
      ∀ other n, w'.authNonceUsed other n =
        (decide (other = source ∧ n = nonce) || w.authNonceUsed other n) := by
  refine ⟨fun other => ?_, fun other n => ?_⟩
  · rw [World.authNonceOf, stored]
    by_cases same : other = source
    · subst same
      simp
    · simp [same, World.authNonceOf]
  · rw [World.authNonceUsed, stored]
    by_cases same : other = source ∧ n = nonce
    · obtain ⟨rfl, rfl⟩ := same
      simp
    · have different : DataKey.usedAuthNonce other n ≠ .usedAuthNonce source nonce := by
        simpa using same
      simp [World.authNonceUsed, different, same]

/-- Only the check of an entry touches the counter and the marks of a source. -/
theorem execute_authNonces {env : Env} {request : Request} {reply : Reply} {w w' : World}
    (ran : (execute env request).run w = .ok (reply, w'))
    (other : ∀ source nonce validAfterLedger validBeforeLedger,
      request ≠ .verifyAuthEntry source nonce validAfterLedger validBeforeLedger) :
    w'.authNonceOf = w.authNonceOf ∧ w'.authNonceUsed = w.authNonceUsed := by
  have outside : (∀ source, .authNonce source ∉ request.writes) ∧
      ∀ source nonce, .usedAuthNonce source nonce ∉ request.writes := by
    cases request
    case verifyAuthEntry => exact absurd rfl (other _ _ _ _)
    all_goals simp [Request.writes, dailyUsages]
  have frame := execute_frame env request ran
  refine ⟨?_, ?_⟩
  · funext source
    rw [World.authNonceOf, World.authNonceOf, frame.store _ (outside.1 source)]
  · funext source nonce
    rw [World.authNonceUsed, World.authNonceUsed, frame.store _ (outside.2 source nonce)]

/-- A call is the check of an entry, or another one. -/
theorem Request.isEntry_or (request : Request) :
    (∃ source nonce validAfterLedger validBeforeLedger,
      request = .verifyAuthEntry source nonce validAfterLedger validBeforeLedger) ∨
    ∀ source nonce validAfterLedger validBeforeLedger,
      request ≠ .verifyAuthEntry source nonce validAfterLedger validBeforeLedger := by
  cases request
  case verifyAuthEntry => exact .inl ⟨_, _, _, _, rfl⟩
  all_goals exact .inr fun _ _ _ _ => nofun

theorem execute_authLedger {env : Env} {request : Request} {reply : Reply} {w w' : World}
    (ledger : w.AuthLedger) (ran : (execute env request).run w = .ok (reply, w')) :
    w'.AuthLedger := by
  have opens : w.initialized = true → w'.initialized = true := fun opened =>
    execute_initialized opened ran
  rcases request.isEntry_or with ⟨source, nonce, validAfter, validBefore, rfl⟩ | other
  · obtain ⟨_, entered, -⟩ := replying_ok.mp ran
    obtain ⟨accepts, stored⟩ := verifyAuthEntry_ok entered
    obtain ⟨counter, marks⟩ := acceptedEntry_leaves stored
    refine ⟨fun other n => ?_, fun _ _ => opens accepts.initialized⟩
    rw [counter, marks, Bool.or_eq_true, decide_eq_true_iff, ledger.below other n]
    by_cases same : other = source
    · subst same
      rw [if_pos rfl, UInt64.lt_succ_iff accepts.fits, ← accepts.current]
      simp
    · simp [same]
  · obtain ⟨counter, marks⟩ := execute_authNonces ran other
    refine ⟨fun source nonce => ?_, fun source positive => opens (ledger.opened source ?_)⟩
    · rw [counter, marks]
      exact ledger.below source nonce
    · rwa [counter] at positive

/-! ## Runs -/

/-- The nonce of a source that a request presents. -/
def Request.presents (source : Address) : Request → Option UInt64
  | .verifyAuthEntry address nonce _ _ => if address = source then some nonce else none
  | _ => none

/-- The nonce of a source whose entry a step accepts. -/
def Label.entered (source : Address) : Label → Option UInt64
  | .success call => call.request.presents source
  | _ => none

/-- A call that accepts a nonce of a source takes its counter. -/
theorem execute_enters {env : Env} {source address : Address} {nonce : UInt64}
    {validAfter validBefore : UInt32} {reply : Reply} {w w' : World}
    (ran : (execute env (.verifyAuthEntry address nonce validAfter validBefore)).run w =
      .ok (reply, w')) :
    if address = source then
      nonce = w.authNonceOf source ∧ (w'.authNonceOf source).toNat = nonce.toNat + 1
    else w'.authNonceOf source = w.authNonceOf source := by
  obtain ⟨_, entered, -⟩ := replying_ok.mp ran
  obtain ⟨accepts, stored⟩ := verifyAuthEntry_ok entered
  have counter := (acceptedEntry_leaves stored).1 source
  split
  · next same =>
    subst same
    rw [if_pos rfl] at counter
    refine ⟨accepts.current, ?_⟩
    rw [counter, UInt64.toNat_add]
    exact Nat.mod_eq_of_lt accepts.fits
  · next different =>
    rwa [if_neg (Ne.symm different)] at counter

/-- A step that accepts no nonce of a source leaves its counter alone. -/
theorem Step.authNonceOf_idle {host : Host} {source : Address} {w w' : World} {label : Label}
    (taken : Step host w label w') (idle : label.entered source = none) :
    w'.authNonceOf source = w.authNonceOf source := by
  cases taken with
  | @success call _ ran =>
    rcases call.request.isEntry_or with ⟨address, nonce, validAfter, validBefore, asked⟩ | other
    · have enters := @execute_enters _ source _ _ _ _ _ _ _ (asked ▸ ran)
      have absent : address ≠ source := by
        intro same
        simp [Label.entered, asked, Request.presents, same] at idle
      rwa [if_neg absent] at enters
    · exact congrFun (execute_authNonces ran other).1 source
  | failure => rfl
  | external => rfl

/-- A step that accepts a nonce of a source takes its counter and moves it on. -/
theorem Step.authNonceOf_entered {host : Host} {source : Address} {w w' : World} {label : Label}
    (taken : Step host w label w') {nonce : UInt64} (entered : label.entered source = some nonce) :
    nonce = w.authNonceOf source ∧ (w'.authNonceOf source).toNat = nonce.toNat + 1 := by
  cases taken with
  | @success call _ ran =>
    rcases call.request.isEntry_or with ⟨address, n, validAfter, validBefore, asked⟩ | other
    · have enters := @execute_enters _ source _ _ _ _ _ _ _ (asked ▸ ran)
      simp only [Label.entered, asked, Request.presents, Option.ite_none_right_eq_some] at entered
      obtain ⟨same, presented⟩ := entered
      obtain rfl := Option.some.inj presented
      rwa [if_pos same] at enters
    · have absent : call.request.presents source = none := by
        cases request : call.request
        case verifyAuthEntry => exact absurd request (other _ _ _ _)
        all_goals rfl
      rw [Label.entered, absent] at entered
      cases entered
  | failure => cases entered
  | external => cases entered

theorem World.AuthLedger.run {host : Host} {w w' : World} {labels : List Label}
    (ledger : w.AuthLedger) (run : Run (Step host) w labels w') : w'.AuthLedger := by
  refine run_world_invariant World.AuthLedger (fun _ => True) (fun call _ _ kept ran => ?_)
    (fun _ _ _ kept => kept.of_store rfl) run (fun _ _ => trivial) ledger
  have begun : call.before.begin.AuthLedger := kept.of_store rfl
  exact execute_authLedger begun ran

/-- In every reachable world the marked nonces of a source are those below its counter. The
entries that a run accepts carry zero, one, two and so on, each in its window and with the
authorisation of its source. A nonce that was consumed is turned down when it is presented
again in its window: as a duplicate, if the contract is running and the source authorises the
entry. -/
theorem auth_nonces {host : Host} {start w : World} {labels : List Label}
    (fresh : Genesis host start) (run : Run (Step host) start labels w) :
    (∀ source nonce, w.authNonceUsed source nonce = true ↔ nonce < w.authNonceOf source) ∧
      (∀ source, (labels.filterMap (Label.entered source)).map UInt64.toNat =
        List.range (w.authNonceOf source).toNat) ∧
      (∀ call source nonce validAfter validBefore, .success call ∈ labels →
        call.request = .verifyAuthEntry source nonce validAfter validBefore →
          call.env.within validAfter validBefore ∧ call.env.authorizes source = true) ∧
      ∀ (env : Env) source nonce validAfter validBefore, w.authNonceUsed source nonce = true →
        env.within validAfter validBefore → ∃ reason,
          (execute env (.verifyAuthEntry source nonce validAfter validBefore)).run w.begin =
            .error reason ∧
          (w.running → env.authorizes source = true → reason = .error .duplicateNonce) := by
  have ledger := fresh.authLedger.run run
  refine ⟨ledger.below, fun source => ?_, fun call source nonce validAfter validBefore member
    asked => ?_, fun env source nonce validAfter validBefore used timely => ?_⟩
  · refine run.counted (fun w => (w.authNonceOf source).toNat)
      (fun _ _ _ taken idle => congrArg UInt64.toNat (taken.authNonceOf_idle idle)) ?_ ?_
    · intro _ _ _ taken n entered
      obtain ⟨now, next⟩ := taken.authNonceOf_entered entered
      exact ⟨congrArg UInt64.toNat now, next⟩
    · simp [World.authNonceOf, fresh.store]
  · obtain ⟨-, ran, -⟩ := successful_of_run run member
    rw [asked] at ran
    obtain ⟨_, entered, -⟩ := replying_ok.mp ran
    obtain ⟨accepts, -⟩ := verifyAuthEntry_ok entered
    exact ⟨accepts.timely, accepts.authorized⟩
  · have below := (ledger.below source nonce).mp used
    have opened := ledger.opened source (UInt64.lt_of_le_of_lt (UInt64.zero_le ..) below)
    have other : nonce ≠ w.begin.authNonceOf source := UInt64.ne_of_lt below
    cases ran : (execute env (.verifyAuthEntry source nonce validAfter validBefore)).run w.begin with
    | error reason =>
      refine ⟨reason, rfl, fun running authorized => ?_⟩
      have turnedDown := verifyAuthEntry_duplicate (w := w.begin) opened running authorized timely
        other
      have failed : (execute env (.verifyAuthEntry source nonce validAfter validBefore)).run
          w.begin = .error (.error .duplicateNonce) := run_bind_of_error turnedDown
      exact Except.error.inj (ran.symm.trans failed)
    | ok result =>
      obtain ⟨_, entered, -⟩ := replying_ok.mp ran
      exact absurd (verifyAuthEntry_ok entered).1.current other

namespace Rehearsal

/-- A source consumes its first nonce. -/
def entering : List (UInt64 × Request) := [
  (0, .initializeContract (address 1) (address 2) 100 none),
  (0, .verifyAuthEntry (address 4) 0 0 1)]

end Rehearsal

/-- The nonce zero is consumed, and a replay of it is a duplicate. -/
theorem auth_nonces_rehearsed :
    let w := Rehearsal.outcome Rehearsal.entering
    (w.authNonceUsed (Rehearsal.address 4) 0 = true ↔ 0 < w.authNonceOf (Rehearsal.address 4)) ∧
    (((Rehearsal.calls Rehearsal.entering).map Label.success).filterMap
        (Label.entered (Rehearsal.address 4))).map UInt64.toNat =
      List.range (w.authNonceOf (Rehearsal.address 4)).toNat ∧
    (∀ call ∈ Rehearsal.calls Rehearsal.entering, ∀ source nonce validAfter validBefore,
      call.request = .verifyAuthEntry source nonce validAfter validBefore →
        call.env.within validAfter validBefore ∧ call.env.authorizes source = true) ∧
    (execute (Rehearsal.env 0) (.verifyAuthEntry (Rehearsal.address 4) 0 0 7)).run w.begin =
      .error (.error .duplicateNonce) := by
  intro w
  obtain ⟨below, entered, timely, replays⟩ := auth_nonces Rehearsal.fresh_genesis
    (Rehearsal.run Rehearsal.entering (by decide +kernel))
  obtain ⟨reason, failed, duplicate⟩ := replays (Rehearsal.env 0) (Rehearsal.address 4) 0 0 7
    (by decide +kernel) (by decide)
  refine ⟨below _ _, entered _, fun call member source nonce validAfter validBefore asked =>
    timely call source nonce validAfter validBefore (List.mem_map_of_mem member) asked, ?_⟩
  rw [failed, duplicate ⟨rfl, _, rfl, rfl⟩ rfl]

/-- The replay of a consumed nonce in its window is answered as a duplicate and not as an
entry that was already used. -/
theorem replay_answered_duplicate :
    (∃ labels, Run (Step Rehearsal.host) Rehearsal.fresh labels
      (Rehearsal.outcome Rehearsal.entering)) ∧
    (Rehearsal.outcome Rehearsal.entering).authNonceUsed (Rehearsal.address 4) 0 = true ∧
    (Rehearsal.env 0).within 0 1 ∧
    (execute (Rehearsal.env 0) (.verifyAuthEntry (Rehearsal.address 4) 0 0 1)).run
      (Rehearsal.outcome Rehearsal.entering).begin ≠ .error (.error .authNonceAlreadyUsed) ∧
    ((execute (Rehearsal.env 0) (.verifyAuthEntry (Rehearsal.address 4) 0 0 1)).run
      (Rehearsal.outcome Rehearsal.entering).begin = .error (.error .duplicateNonce)) := by
  have replayed : (execute (Rehearsal.env 0) (.verifyAuthEntry (Rehearsal.address 4) 0 0 1)).run
      (Rehearsal.outcome Rehearsal.entering).begin = .error (.error .duplicateNonce) := by
    have running : (Rehearsal.outcome Rehearsal.entering).begin.running := ⟨rfl, _, rfl, rfl⟩
    exact run_bind_of_error (verifyAuthEntry_duplicate (by decide +kernel) running rfl (by decide)
      (by decide +kernel))
  refine ⟨⟨_, Rehearsal.run Rehearsal.entering (by decide +kernel)⟩, by decide +kernel, by decide,
    ?_, replayed⟩
  rw [replayed]
  nofun

end OnboardingBridge.Contract
