import OnboardingBridge.Relayer.Durability

/-!
# What was paid and what is marked

The answer to a submission says that the transaction was queued, and the service
marks the key then. If the chain executes every transaction that was queued, what
is marked is paid by the end of the run, and an entry leaves the queue only when its
deposit is (`marked_paid`). A queued transaction that the chain drops later is
marked all the same, and is never submitted again (`unpaid_marked`).
-/

set_option autoImplicit false

namespace OnboardingBridge.Relayer

open Foundations Contract

variable {config : Config} {s t : Service} {label : Taken}

/-! ## Steps -/

/-- A submission of the key throws an error that names `ReplayedNonce`. -/
def Taken.replays (taken : Taken) (key : Key) : Prop :=
  match taken.action with
  | .answer process (.ok (.threw message)) _ => mentions message "ReplayedNonce" = true ∧
      taken.before.Submitting process key
  | _ => False

/-- The step is a crash between the two writes that put an event with the key back
into the queue. -/
def Taken.forgets (taken : Taken) (key : Key) : Prop :=
  taken.action = .crash ∧ ∃ entry, taken.before.writes = [.push entry] ∧ entry.event.key = key

/-- What is accepted or refused as a replay was in flight. -/
theorem submitting_of_answered {key : Key} (answered : label.accepted key ∨ label.replays key) :
    ∃ process, label.before.Submitting process key := by
  obtain ⟨before, action⟩ := label
  cases action with
  | answer process outcome now =>
    refine ⟨process, ?_⟩
    rcases answered with accepted | replays
    · cases outcome with
      | error message => exact accepted.elim
      | ok outcome => exact accepted.2
    · cases outcome with
      | error message => exact replays.elim
      | ok outcome =>
        cases outcome with
        | sent hash status => exact replays.elim
        | threw message => exact replays.2
  | _ => exact (answered.elim False.elim False.elim)

/-- What ends with a success was accepted, or was refused as a replay. -/
theorem accepted_or_replays {event : BridgeEvent}
    (concludes : label.concludes config = some (event, true)) :
    label.accepted event.key ∨ label.replays event.key := by
  have unknown : mentions "unknown contract error" "ReplayedNonce" = false := by decide +kernel
  obtain ⟨before, action⟩ := label
  cases action with
  | sign process available now =>
    simp only [Taken.concludes] at concludes
    split at concludes
    · split at concludes <;> simp at concludes
    · cases concludes
  | answer process outcome now =>
    simp only [Taken.concludes] at concludes
    split at concludes
    · next event' available found =>
      obtain ⟨rfl, success⟩ := Prod.mk.inj (Option.some.inj concludes)
      have submitting : before.Submitting process event'.key := ⟨event', available, found, rfl⟩
      cases outcome with
      | error message => cases success
      | ok outcome =>
        cases outcome with
        | sent hash status =>
          cases status with
          | pending => exact .inl ⟨by simp [fundCrosschain], submitting⟩
          | _ => exact absurd success (by simp [succeeded, TransactionResult.settles,
              fundCrosschain, unknown])
        | threw message =>
          by_cases empty : message = ""
          · subst empty
            exact absurd success (by decide)
          · refine .inr ⟨?_, submitting⟩
            simpa [succeeded, TransactionResult.settles, fundCrosschain, empty] using success
    · cases concludes
  | _ => cases concludes

/-- What is marked, or will be, was marked at the start or is among the paid keys, and
so is what a success drops from the queue. -/
structure Service.Paid (start paid : List Key) (s : Service) : Prop where
  seen : ∀ key ∈ s.final.seen, key ∈ start ∨ key ∈ paid
  dropped : ∀ key, s.writes = [.mark key, .drop key] ∨ s.writes = [.drop key] → key ∈ paid

theorem paid_step {start paid : List Key} (consistent : s.Consistent config)
    (settled : s.Paid start paid)
    (answered : ∀ key, label.accepted key ∨ label.replays key → key ∈ paid)
    (taken : ServiceStep config s label t) : t.Paid start paid := by
  obtain ⟨before, action⟩ := label
  obtain ⟨rfl, taken⟩ := taken
  cases Service.moves_of_step taken with
  | quiet memory disk writes =>
    refine ⟨fun key seen => ?_, fun key drops => ?_⟩
    · rw [Service.final, memory, writes] at seen
      exact settled.seen key seen
    · rw [writes] at drops
      exact settled.dropped key drops
  | @concluded event success idle concludes memory disk writes =>
    have now : success = true → event.key ∈ paid := by
      rintro rfl
      exact answered _ (accepted_or_replays concludes)
    refine ⟨fun key seen => ?_, fun key drops => ?_⟩
    · rw [Service.final, memory] at seen
      rcases writes.seen.mp seen with ⟨won, rfl⟩ | old
      · exact .inr (now won)
      · exact settled.seen key (Service.final_idle idle ▸ old)
    · generalize pending : t.writes = steps at writes drops
      cases writes with
      | success =>
        obtain rfl : event.key = key := by simpa [mark, remove] using drops
        exact now rfl
      | failure => simp [enqueue, remove] at drops
  | @wrote next rest writes made =>
    subst made
    refine ⟨fun key seen => ?_, fun key drops => ?_⟩
    · refine settled.seen key ?_
      rw [Service.final, writes]
      exact seen
    · have pending : Pending before.memory (next :: rest) := writes ▸ consistent.pending
      cases pending with
      | success other =>
        obtain rfl : other = key := by simpa [Service.write] using drops
        exact settled.dropped other (.inl writes)
      | _ => simp [Service.write] at drops
  | crashed crash restarted =>
    subst restarted
    refine ⟨fun key seen => ?_, fun key drops => ?_⟩
    · refine settled.seen key (Stores.seen_after ?_)
      rw [← consistent.synced]
      exact seen
    · rcases drops with drops | drops <;> cases drops

/-! ## Entries of the queue -/

/-- The event is in the queue, or about to be put back. -/
def Service.Queued (s : Service) (key : Key) : Prop :=
  key ∈ s.memory.letters ∨ ∃ entry, s.writes = [.push entry] ∧ entry.event.key = key

theorem queued_step {start paid : List Key} {key : Key} (unpaid : key ∉ paid)
    (consistent : s.Consistent config) (settled : s.Paid start paid) (queued : s.Queued key)
    (recorded : ¬ label.forgets key) (taken : ServiceStep config s label t) : t.Queued key := by
  obtain ⟨before, action⟩ := label
  obtain ⟨rfl, taken⟩ := taken
  cases Service.moves_of_step taken with
  | quiet memory disk writes =>
    rw [Service.Queued, memory, writes]
    exact queued
  | concluded idle concludes memory disk writes =>
    rcases queued with letter | ⟨entry, pushes, -⟩
    · exact .inl (memory ▸ letter)
    · rw [pushes] at idle
      cases idle
  | @wrote next rest writes made =>
    subst made
    rcases queued with letter | ⟨entry, pushes, rfl⟩
    · cases next with
      | mark other => exact .inl letter
      | push entry => exact .inl (by simp [Service.write, letter])
      | drop other =>
        by_cases same : key = other
        · subst same
          have pending : Pending before.memory (.drop key :: rest) := writes ▸ consistent.pending
          generalize steps : Write.drop key :: rest = all at pending
          cases pending with
          | marked =>
            obtain ⟨-, rfl⟩ := List.cons.inj steps
            exact absurd (settled.dropped key (.inr writes)) unpaid
          | failure entry =>
            obtain ⟨here, rfl⟩ := List.cons.inj steps
            exact .inr ⟨entry, rfl, (Write.drop.inj here).symm⟩
          | _ => cases steps
        · exact .inl (by simp [Service.write, letter, same])
    · obtain ⟨rfl, rfl⟩ := List.cons.inj (writes.symm.trans pushes)
      exact .inl (by simp [Service.write])
  | crashed crash restarted =>
    subst restarted
    rcases queued with letter | ⟨entry, pushes, rfl⟩
    · refine .inl ?_
      show key ∈ before.disk.letters
      rw [consistent.synced]
      exact letter
    · exact absurd ⟨crash, entry, pushes, rfl⟩ recorded

/-! ## Runs -/

/-- In a run at whose end the contract has executed every deposit of which a
submission was accepted, or refused as a replay: what is marked was marked at the
start or has been paid; and from any state on, what is in the queue stays there, but
for the moment between the two writes that put it back, or has been paid, unless the
service crashes in that moment. -/
theorem marked_paid {disk : Stores} {executed resolved : List Key} {earlier labels : List Taken}
    (nodup : disk.letters.Nodup)
    (history : Run (ServiceStep config) (Service.start disk executed resolved) earlier s)
    (run : Run (ServiceStep config) s labels t)
    (included : ∀ label ∈ earlier ++ labels, ∀ key, label.accepted key → key ∈ t.executed)
    (replayed : ∀ label ∈ earlier ++ labels, ∀ key, label.replays key → key ∈ t.executed)
    (recorded : ∀ label ∈ labels, ∀ key ∈ s.memory.letters, label.forgets key →
      key ∈ t.executed) :
    (∀ key ∈ t.memory.seen, key ∈ disk.seen ∨ key ∈ t.executed) ∧
      ∀ key ∈ s.memory.letters, t.Queued key ∨ key ∈ t.executed := by
  have start : (Service.start disk executed resolved).Paid disk.seen t.executed :=
    ⟨fun key seen => .inl seen, fun key drops => by rcases drops with drops | drops <;> cases drops⟩
  have answered : ∀ label ∈ earlier ++ labels, ∀ key, label.accepted key ∨ label.replays key →
      key ∈ t.executed := fun label member key settles =>
    settles.elim (included label member key) (replayed label member key)
  have keeps : ∀ ⦃u : Service⦄ ⦃label : Taken⦄ ⦃v : Service⦄,
      u.Consistent config ∧ u.Paid disk.seen t.executed →
        (∀ key, label.accepted key ∨ label.replays key → key ∈ t.executed) →
          ServiceStep config u label v → v.Consistent config ∧ v.Paid disk.seen t.executed := by
    rintro u label v ⟨consistent, paid⟩ answered taken
    exact ⟨Service.step_consistent consistent taken, paid_step consistent paid answered taken⟩
  obtain ⟨before, after⟩ := List.forall_mem_append.mp answered
  have here := history.invariant _ keeps before
    ⟨Service.start_consistent executed resolved nodup, start⟩
  obtain ⟨-, paid⟩ := run.invariant _ keeps after here
  refine ⟨fun key seen => paid.seen key (Stores.seen_after seen), fun key member => ?_⟩
  by_cases unpaid : key ∈ t.executed
  · exact .inr unpaid
  have queued : ∀ ⦃u : Service⦄ ⦃label : Taken⦄ ⦃v : Service⦄,
      (u.Consistent config ∧ u.Paid disk.seen t.executed) ∧ u.Queued key →
        (∀ key, label.accepted key ∨ label.replays key → key ∈ t.executed) ∧
          ¬ label.forgets key →
            ServiceStep config u label v →
              (v.Consistent config ∧ v.Paid disk.seen t.executed) ∧ v.Queued key := by
    rintro u label v ⟨kept, queued⟩ ⟨answered, recorded⟩ taken
    exact ⟨keeps kept answered taken, queued_step unpaid kept.1 kept.2 queued recorded taken⟩
  have kept := run.invariant _ queued (fun label here => ⟨after label here, fun forgets =>
    unpaid (recorded label here key member forgets)⟩) ⟨here, .inl member⟩
  exact .inl kept.2

namespace Rehearsal

/-- A delivery that fails, and a retry whose transaction is queued, and executed after
the key was marked. -/
def failed : List Action :=
  [.deliver event, .sign 0 1 0, .answer 0 (.error "timeout") 0, .write, .write, .settle 0]

def paidLater : List Action :=
  [.sweep 60000, .sweepNext, .sign 1 1 60000, .answer 1 (.ok (.sent "hash" .pending)) 60000,
    .write, .write, .settle 1, .execute event.key]

end Rehearsal

theorem marked_paid_rehearsed : ∃ s t,
    (Service.start ⟨[], []⟩ [] []).perform Rehearsal.relayer Rehearsal.failed = some s ∧
      s.perform Rehearsal.relayer Rehearsal.paidLater = some t ∧
      s.memory.letters = [Rehearsal.event.key] ∧ t.memory.seen = [Rehearsal.event.key] ∧
      (∀ key ∈ t.memory.seen, key ∈ t.executed) ∧
      (t.Queued Rehearsal.event.key ∨ Rehearsal.event.key ∈ t.executed) := by
  obtain ⟨t, performed, facts⟩ := Service.performs
    (p := fun t => t.memory.seen = [Rehearsal.event.key] ∧ t.executed = [Rehearsal.event.key])
    (by decide +kernel : ((Service.start ⟨[], []⟩ [] []).perform Rehearsal.relayer
      (Rehearsal.failed ++ Rehearsal.paidLater)).any _ = true)
  obtain ⟨seen, executed⟩ := of_decide_eq_true facts
  rw [Service.perform_append] at performed
  obtain ⟨s, first, second⟩ := Option.bind_eq_some_iff.mp performed
  have letters : ((Service.start ⟨[], []⟩ [] []).perform Rehearsal.relayer Rehearsal.failed).map
      (fun s => s.memory.letters) = some [Rehearsal.event.key] := by decide +kernel
  rw [first, Option.map_some, Option.some.injEq] at letters
  have own : ∀ label ∈ (Service.start ⟨[], []⟩ [] []).history Rehearsal.relayer
      (Rehearsal.failed ++ Rehearsal.paidLater),
        ∀ process ∈ label.before.processes, process.event.key = Rehearsal.event.key := by
    decide +kernel
  rw [Service.history_append first] at own
  have answered : ∀ label ∈ (Service.start ⟨[], []⟩ [] []).history Rehearsal.relayer
      Rehearsal.failed ++ s.history Rehearsal.relayer Rehearsal.paidLater,
        ∀ key, label.accepted key ∨ label.replays key → key ∈ t.executed := by
    intro label member key answered
    obtain ⟨process, event, available, found, rfl⟩ := submitting_of_answered answered
    rw [executed, own label member _ (List.mem_of_getElem? found)]
    exact List.mem_singleton_self _
  obtain ⟨marked, queued⟩ := marked_paid (by decide) (Service.perform_run first)
    (Service.perform_run second) (fun label member key accepted =>
      answered label member key (.inl accepted))
    (fun label member key replays => answered label member key (.inr replays))
    fun label member key _ forgets => by
      have action := Service.action_mem member
      rw [forgets.1] at action
      simp [Rehearsal.paidLater] at action
  exact ⟨s, t, first, second, letters, seen, fun key member =>
    (marked key member).resolve_left List.not_mem_nil, queued _ (by simp [letters])⟩

/-- A submission is queued, and the chain drops the transaction. -/
def Rehearsal.dropped : List Action :=
  [.deliver event, .sign 0 1 0, .answer 0 (.ok (.sent "hash" .pending)) 0, .write, .write,
    .settle 0, .deliver event]

/-- The key is then marked, although the contract has not paid the deposit out, and
a second delivery starts nothing. -/
theorem unpaid_marked : ¬ ∀ (labels : List Taken) (t : Service),
    Run (ServiceStep Rehearsal.relayer) (Service.start ⟨[], []⟩ [] []) labels t →
      ∀ key ∈ t.memory.seen, key ∈ t.executed := by
  intro paid
  obtain ⟨t, performed, facts⟩ := Service.performs
    (p := fun t => t.memory.seen = [Rehearsal.event.key] ∧ t.executed = [] ∧
      t.processes.length = 1)
    (by decide +kernel : ((Service.start ⟨[], []⟩ [] []).perform Rehearsal.relayer
      Rehearsal.dropped).any _ = true)
  obtain ⟨seen, executed, -⟩ := of_decide_eq_true facts
  have member := paid _ t (Service.perform_run performed) Rehearsal.event.key (by simp [seen])
  rw [executed] at member
  cases member

end OnboardingBridge.Relayer
