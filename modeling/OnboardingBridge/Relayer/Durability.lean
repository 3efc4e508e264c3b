import OnboardingBridge.Relayer.Submission

/-!
# What the files hold of an event that was handled

Once the handler of a valid event has resolved, the files hold its key, unless
the event is put into the queue a second time: the stale entry is dropped by one
write and the new one pushed by the next (`resolved_durable`). A crash between
the two loses the event (`retry_loses_event`).
-/

set_option autoImplicit false

namespace OnboardingBridge.Relayer

open Foundations Contract

variable {config : Config} {s t : Service} {label : Taken}

/-! ## Handlers that resolve -/

/-- When a handler resolves, its event is held and no write is pending. -/
theorem resolved_step (consistent : s.Consistent config) (taken : ServiceStep config s label t)
    {key : Key} (resolved : key ∈ t.resolved) :
    key ∈ s.resolved ∨
      (label.concludes config = none ∧ s.writes = [] ∧ s.memory.Holds key) := by
  obtain ⟨before, action⟩ := label
  obtain ⟨rfl, taken⟩ := taken
  have resolves : ∀ (event : BridgeEvent) (u : Service),
      key ∈ (u.resolve config event).resolved → key = event.key ∨ key ∈ u.resolved := by
    intro event u member
    unfold Service.resolve at member
    split at member
    · exact List.mem_cons.mp member
    · exact .inr member
  have handles : ∀ event, before.writes = [] → key ∈ (before.handleEvent config event).resolved →
      key ∈ before.resolved ∨ before.memory.Holds key := by
    intro event idle member
    unfold Service.handleEvent at member
    split at member
    · next seen =>
      rcases resolves event _ member with rfl | old
      · exact .inr (.inl seen)
      · exact .inl old
    · split at member
      · exact .inl member
      · split at member <;> exact .inl member
  cases Service.steps_of_step taken with
  | deliver event idle => exact (handles event idle resolved).imp id fun held => ⟨rfl, idle, held⟩
  | sweepNext event next idle =>
    exact (handles event idle resolved).imp id fun held => ⟨rfl, idle, held⟩
  | sweep now idle =>
    unfold Service.retryDeadLetters at resolved
    split at resolved
    · exact .inl resolved
    · split at resolved <;> exact .inl resolved
  | sign process available now found idle =>
    unfold Service.signed at resolved
    split at resolved <;> exact .inl resolved
  | @settle call event status process owned found idle ended waits =>
    rcases resolves event _ resolved with rfl | old
    · obtain ⟨-, -, -, held⟩ := consistent.awaited found ended waits
      exact .inr ⟨rfl, idle, Service.final_idle idle ▸ held⟩
    · exact .inl old
  | _ => exact .inl resolved

/-! ## Steps -/

/-- The files hold every event whose handler has resolved, and the next write does
not change that. -/
structure Service.Durable (s : Service) : Prop where
  held : ∀ key ∈ s.resolved, s.memory.Holds key
  kept : ∀ key rest, s.writes = .drop key :: rest → key ∈ s.resolved →
    key ∈ s.memory.seen ∨ key ∉ s.memory.letters

/-- The step records a failure of an event that is in the queue and whose handler
has resolved. -/
def Taken.requeues (config : Config) (taken : Taken) : Bool :=
  (taken.concludes config).any fun (event, success) =>
    !success && (event.key ∈ taken.before.memory.letters && event.key ∈ taken.before.resolved)

theorem durable_step (consistent : s.Consistent config) (durable : s.Durable)
    (once : label.requeues config = false) (taken : ServiceStep config s label t) : t.Durable := by
  have resolved : ∀ key ∈ t.resolved, key ∈ s.resolved ∨
      (label.concludes config = none ∧ s.writes = [] ∧ s.memory.Holds key) :=
    fun key => resolved_step consistent taken
  obtain ⟨before, action⟩ := label
  obtain ⟨rfl, taken⟩ := taken
  have still : ∀ key ∈ t.resolved, before.memory.Holds key := fun key member =>
    (resolved key member).elim (durable.held key) fun fresh => fresh.2.2
  cases Service.moves_of_step taken with
  | quiet memory disk writes =>
    refine ⟨fun key member => memory ▸ still key member, fun key rest drops member => ?_⟩
    rw [writes] at drops
    rcases resolved key member with old | ⟨-, idle, -⟩
    · exact memory ▸ durable.kept key rest drops old
    · rw [drops] at idle
      cases idle
  | @concluded event success idle concludes memory disk writes =>
    refine ⟨fun key member => memory ▸ still key member, fun key rest drops member => ?_⟩
    have old : key ∈ before.resolved := (resolved key member).resolve_right fun fresh => by
      rw [concludes] at fresh
      exact absurd fresh.1 (by simp)
    rw [drops] at writes
    generalize pending : Write.drop key :: rest = steps at writes
    cases writes with
    | success => cases pending
    | failure =>
      obtain rfl : key = event.key := Write.drop.inj (List.cons.inj pending).1
      refine .inr fun letter => ?_
      rw [memory] at letter
      simp [Taken.requeues, concludes, letter, old] at once
  | @wrote next rest writes made =>
    subst made
    have pending : Pending before.memory (next :: rest) := writes ▸ consistent.pending
    refine ⟨fun key member => ?_, fun key rest' drops member => ?_⟩
    · have holds := durable.held key member
      cases next with
      | mark => exact holds.mark
      | push => exact holds.push
      | drop other => exact holds.drop fun same => durable.kept other rest writes (same ▸ member)
    · obtain rfl : rest = .drop key :: rest' := drops
      cases pending with
      | success => exact .inl (by simp [Service.write])
  | crashed crash restarted =>
    subst restarted
    refine ⟨fun key member => ?_, fun key rest drops => by cases drops⟩
    show before.disk.Holds key
    rw [consistent.synced]
    exact durable.held key member

/-! ## Runs -/

/-- In a run that puts no event whose handler has resolved into the queue a second
time, the files hold every valid event whose handler has ever resolved, whenever
the service crashes. -/
theorem resolved_durable {disk : Stores} {executed : List Key} {labels : List Taken}
    (nodup : disk.letters.Nodup)
    (run : Run (ServiceStep config) (Service.start disk executed []) labels t)
    (once : ∀ label ∈ labels, label.requeues config = false) :
    ∀ key ∈ t.resolved, t.disk.Holds key := by
  have start : (Service.start disk executed []).Durable := ⟨by simp [Service.start], by
    simp [Service.start]⟩
  have keeps : ∀ ⦃s : Service⦄ ⦃label : Taken⦄ ⦃t : Service⦄, s.Consistent config ∧ s.Durable →
      label.requeues config = false → ServiceStep config s label t →
        t.Consistent config ∧ t.Durable := by
    rintro s label t ⟨consistent, durable⟩ once taken
    exact ⟨Service.step_consistent consistent taken, durable_step consistent durable once taken⟩
  obtain ⟨consistent, durable⟩ := run.invariant _ keeps once
    ⟨Service.start_consistent executed [] nodup, start⟩
  intro key member
  rw [consistent.synced]
  exact durable.held key member

theorem resolved_durable_rehearsed : ∃ t,
    (Service.start ⟨[], []⟩ [] []).perform Rehearsal.relayer Rehearsal.retried = some t ∧
      Rehearsal.event.key ∈ t.resolved ∧ t.disk.Holds Rehearsal.event.key := by
  obtain ⟨t, performed, facts⟩ := Service.performs
    (p := fun t => Rehearsal.event.key ∈ t.resolved)
    (by decide +kernel : ((Service.start ⟨[], []⟩ [] []).perform Rehearsal.relayer
      Rehearsal.retried).any _ = true)
  have member : Rehearsal.event.key ∈ t.resolved := of_decide_eq_true facts
  exact ⟨t, performed, member, resolved_durable (by decide) (Service.perform_run performed)
    (by decide +kernel) _ member⟩

namespace Rehearsal

/-- The signers are out of reach at the delivery and at the retry, and the service
crashes between the two writes that put the event back into the queue. -/
def lost : List Action :=
  [.deliver event, .sign 0 0 0, .write, .write, .settle 0, .sweep 60000, .sweepNext,
    .sign 1 0 60000, .write, .crash]

end Rehearsal

/-- The event is then in neither file, although its handler has resolved. -/
theorem retry_loses_event : ¬ ∀ (labels : List Taken) (t : Service),
    Run (ServiceStep Rehearsal.relayer) (Service.start ⟨[], []⟩ [] []) labels t →
      ∀ key ∈ t.resolved, t.disk.Holds key := by
  intro durable
  obtain ⟨t, performed, facts⟩ := Service.performs
    (p := fun t => t.resolved = [Rehearsal.event.key] ∧ t.disk = ⟨[], []⟩)
    (by decide +kernel : ((Service.start ⟨[], []⟩ [] []).perform Rehearsal.relayer
      Rehearsal.lost).any _ = true)
  obtain ⟨resolved, disk⟩ := of_decide_eq_true facts
  have holds := durable _ t (Service.perform_run performed) Rehearsal.event.key (by simp [resolved])
  rw [disk] at holds
  simp [Stores.Holds, Stores.letters] at holds

end OnboardingBridge.Relayer
