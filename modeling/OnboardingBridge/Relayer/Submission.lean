import OnboardingBridge.Relayer.Consistency
import OnboardingBridge.Relayer.PayloadAgreement

/-!
# One submission at a time

As long as the service does not crash, it has at most one submission of a key in
flight, starts none after one was accepted, and in the end holds the key of
every valid event it was handed (`single_submission`).
-/

set_option autoImplicit false

namespace OnboardingBridge.Relayer

open Foundations Contract

/-! ## Submissions -/

/-- A submission of the key is in flight in the process. -/
def Service.Submitting (s : Service) (process : Nat) (key : Key) : Prop :=
  ∃ event available, s.processes[process]? = some ⟨event, .submitting available⟩ ∧ event.key = key

/-- The step starts a submission of the key. -/
def Taken.submits (config : Config) (taken : Taken) (key : Key) : Prop :=
  match taken.action with
  | .sign process available _ => config.threshold ≤ available ∧
      ∃ event, taken.before.processes[process]? = some ⟨event, .signing⟩ ∧ event.key = key
  | _ => False

/-- A submission of the key returns a status other than `failed`. -/
def Taken.accepted (taken : Taken) (key : Key) : Prop :=
  match taken.action with
  | .answer process (.ok outcome) _ => (fundCrosschain outcome).status ≠ .failed ∧
      taken.before.Submitting process key
  | _ => False

variable {config : Config} {s t : Service} {label : Taken} {key : Key}

/-- An accepted submission has its key marked. -/
theorem accepted_marks (taken : ServiceStep config s label t) (accepted : label.accepted key) :
    key ∈ t.final.seen := by
  obtain ⟨before, action⟩ := label
  obtain ⟨rfl, taken⟩ := taken
  cases Service.steps_of_step taken with
  | @answer process outcome now event available found idle =>
    cases outcome with
    | error message => exact accepted.elim
    | ok outcome =>
      obtain ⟨status, event', available', found', rfl⟩ := accepted
      obtain ⟨rfl, -⟩ := Process.mk.inj (Option.some.inj (found.symm.trans found'))
      have success : succeeded (.ok outcome) = true := by
        cases reply : (fundCrosschain outcome).status with
        | pending => simp [succeeded, TransactionResult.settles, reply]
        | failed => exact absurd reply status
      exact (Service.conclusion_concluding ..).seen.mpr (.inl ⟨success, rfl⟩)
  | _ => exact accepted.elim

/-- A submission is started for a key that is not marked. -/
theorem submits_unseen (consistent : s.Consistent config) (taken : ServiceStep config s label t)
    (submits : label.submits config key) : key ∉ s.final.seen := by
  obtain ⟨before, action⟩ := label
  obtain ⟨rfl, -⟩ := taken
  cases action with
  | sign process available now =>
    obtain ⟨-, event, found, rfl⟩ := submits
    exact (consistent.processes process _ found).unseen (by simp)
  | _ => exact submits.elim

/-! ## The end of the calls -/

/-- A write about another key does not change whether a key is held. -/
theorem Stores.holds_apply {stores : Stores} {next : Write} (other : next.key ≠ key) :
    (stores.apply next).Holds key ↔ stores.Holds key := by
  cases next with
  | mark name =>
    have apart : key ≠ name := fun same => other same.symm
    simp [Stores.Holds, apart]
  | drop name =>
    have apart : key ≠ name := fun same => other same.symm
    simp [Stores.Holds, apart]
  | push entry =>
    have apart : key ≠ entry.event.key := fun same => other same.symm
    simp [Stores.Holds, apart]

theorem Stores.holds_after {stores : Stores} {writes : List Write}
    (others : ∀ write ∈ writes, write.key ≠ key) :
    (stores.after writes).Holds key ↔ stores.Holds key := by
  induction writes generalizing stores with
  | nil => exact Iff.rfl
  | cons next rest ih =>
      obtain ⟨here, later⟩ := List.forall_mem_cons.mp others
      exact (ih later).trans (Stores.holds_apply here)

/-- The key is held once its calls have settled. -/
theorem Service.Consistent.holds (consistent : s.Consistent config) {call : HandlerCall}
    (member : call ∈ s.calls) (valid : Service.accepts config call.event = true)
    (settled : ∀ other ∈ s.calls, other.event.key = call.event.key → other.status = .settled) :
    s.memory.Holds call.event.key := by
  have final := (consistent.calls call member).settled (settled call member rfl) valid
  refine (Stores.holds_after fun write pending same => ?_).mp final
  -- A pending write belongs to a process whose own call still waits for it.
  obtain ⟨event, index, owner, key⟩ := consistent.writing write pending
  have done := settled _ owner (key.symm.trans same)
  cases done

/-! ## Runs -/

/-- While the service does not crash: at most one submission of a key is in flight;
after one that was accepted none is started; the queue has at most one entry for
a key; and once every call for a key has settled, a valid event with that key is
marked or in the queue. -/
theorem single_submission {disk : Stores} {executed resolved : List Key} {labels : List Taken}
    (nodup : disk.letters.Nodup)
    (run : Run (ServiceStep config) (Service.start disk executed resolved) labels t)
    (running : ∀ label ∈ labels, label.action ≠ .crash) :
    (∀ first second key, t.Submitting first key → t.Submitting second key → first = second) ∧
      (∀ key, labels.Pairwise fun earlier later =>
        ¬ (earlier.accepted key ∧ later.submits config key)) ∧
      t.memory.letters.Nodup ∧
      ∀ call ∈ t.calls, Service.accepts config call.event = true →
        (∀ other ∈ t.calls, other.event.key = call.event.key → other.status = .settled) →
          t.memory.Holds call.event.key := by
  have start : Service.Consistent config (Service.start disk executed resolved) :=
    Service.start_consistent executed resolved nodup
  have consistent : t.Consistent config :=
    run.invariant (fun _ => True) (fun _ _ _ kept _ taken => Service.step_consistent kept taken)
      (fun _ _ => trivial) start
  refine ⟨fun first second key left right => ?_, fun key => ?_, consistent.nodup,
    fun call member valid settled => consistent.holds member valid settled⟩
  · obtain ⟨event, available, found, here⟩ := left
    obtain ⟨event', available', found', there⟩ := right
    have flies := (consistent.processes first _ found).inFlight (by simp)
    have flies' := (consistent.processes second _ found').inFlight (by simp)
    exact Option.some.inj (flies.symm.trans (by rw [here, ← there, flies']))
  · have within := (run.within _ (fun _ _ _ kept taken => Service.step_consistent kept taken) start).restrict
      running
    refine within.neverAfter (fun s => key ∈ s.final.seen) _ _ ?_ ?_ ?_
    · exact fun _ _ _ taken accepted => accepted_marks taken.2.2 accepted
    · exact fun _ _ _ taken submits => submits_unseen taken.2.1 taken.2.2 submits
    · rintro s label t ⟨going, -, taken⟩ seen
      obtain ⟨before, action⟩ := label
      exact Service.final_seen_step taken.2 going seen

namespace Rehearsal

/-- A relayer that needs one signature. -/
def relayer : Config := ⟨sdk, 1⟩

/-- Two deliveries of an event, of which one starts a process, and the retry after
the submission has thrown. -/
def retried : List Action :=
  [.deliver event, .deliver event, .sign 0 1 0, .answer 0 (.error "timeout") 0, .write, .write,
    .settle 0, .settle 1, .sweep 60000, .sweepNext, .sign 1 1 60000,
    .answer 1 (.ok (.sent "hash" .pending)) 60000, .write, .write, .settle 2, .sweepEnd]

end Rehearsal

theorem single_submission_rehearsed : ∃ t,
    (Service.start ⟨[], []⟩ [] []).perform Rehearsal.relayer Rehearsal.retried = some t ∧
      t.memory.letters.Nodup ∧ t.memory.Holds Rehearsal.event.key := by
  obtain ⟨t, performed, facts⟩ := Service.performs
    (p := fun t => t.calls = List.replicate 3 ⟨Rehearsal.event, .settled⟩)
    (by decide +kernel : ((Service.start ⟨[], []⟩ [] []).perform Rehearsal.relayer
      Rehearsal.retried).any _ = true)
  have calls : t.calls = List.replicate 3 ⟨Rehearsal.event, .settled⟩ := of_decide_eq_true facts
  obtain ⟨-, -, nodup, held⟩ := single_submission (by decide) (Service.perform_run performed)
    fun label member crash => by
      have action := Service.action_mem member
      rw [crash] at action
      simp [Rehearsal.retried] at action
  refine ⟨t, performed, nodup, held ⟨Rehearsal.event, .settled⟩ (by simp [calls]) ?_ ?_⟩
  · decide +kernel
  · simp [calls]

end OnboardingBridge.Relayer
