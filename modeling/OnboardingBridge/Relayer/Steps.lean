import OnboardingBridge.Relayer.Service

/-!
# The steps of the service by cases

What an action does, and when (`steps_of_step`), and what that means for the
stores: a step leaves them alone, ends a process and queues the writes of a
success or of a failure, makes one write, or is a crash (`moves_of_step`).
-/

set_option autoImplicit false

namespace OnboardingBridge.Relayer

open Foundations Contract

/-! ## Answers -/

/-- The answer ends the processing with a success: the transaction was queued, or
the contract has paid the deposit out before. -/
def TransactionResult.settles (result : TransactionResult) : Bool :=
  result.status = .pending || mentions (result.error.getD "unknown contract error") "ReplayedNonce"

/-- The submission did not throw, and its answer ends the processing with a
success. -/
def succeeded : Except String RpcOutcome → Bool
  | .ok outcome => (fundCrosschain outcome).settles
  | .error _ => false

/-- The writes of a process that ends are those of a success or those of a
failure. -/
inductive Concluding (stores : Stores) (event : BridgeEvent) : Bool → List Write → Prop where
  | success : Concluding stores event true (mark event.key ++ remove event.key)
  | failure (available required : Nat) (reason : String) (terminal : Bool) (now : Nat) :
      Concluding stores event false
        (enqueue stores event available required reason terminal now)

/-- The writes that follow an answer. -/
def Service.conclusion (config : Config) (event : BridgeEvent) (available : Nat)
    (outcome : Except String RpcOutcome) (now : Nat) (s : Service) : List Write :=
  match outcome with
  | .ok outcome => conclude s.memory event available config.threshold (fundCrosschain outcome) now
  | .error message => enqueue s.memory event available config.threshold
      ("event processing failed: " ++ message) false now

theorem conclude_concluding (stores : Stores) (event : BridgeEvent) (available required : Nat)
    (result : TransactionResult) (now : Nat) :
    Concluding stores event result.settles
      (conclude stores event available required result now) := by
  obtain ⟨hash, status, error⟩ := result
  cases status with
  | pending => exact .success
  | failed =>
    by_cases replayed : mentions (error.getD "unknown contract error") "ReplayedNonce" = true
    · simp only [TransactionResult.settles, conclude, replayed]
      exact .success
    · simp only [TransactionResult.settles, conclude, replayed]
      exact .failure ..

theorem Service.conclusion_concluding (config : Config) (event : BridgeEvent) (available : Nat)
    (outcome : Except String RpcOutcome) (now : Nat) (s : Service) :
    Concluding s.memory event (succeeded outcome)
      (s.conclusion config event available outcome now) := by
  cases outcome with
  | ok outcome => exact conclude_concluding ..
  | error message => exact .failure ..

namespace Concluding

variable {stores : Stores} {event : BridgeEvent} {success : Bool} {writes : List Write} {key : Key}

theorem pending (concluding : Concluding stores event success writes) :
    Pending stores writes := by
  cases concluding with
  | success => exact .success event.key
  | failure => exact .failure (deadLetter ..)

/-- The writes are about the event. -/
theorem about (concluding : Concluding stores event success writes) :
    ∀ write ∈ writes, write.key = event.key := by
  cases concluding with
  | success => simp [mark, remove, Write.key]
  | failure => simp [enqueue, remove, deadLetter, Write.key]

/-- Only a success marks a key, that of the event. -/
theorem seen (concluding : Concluding stores event success writes) :
    key ∈ (stores.after writes).seen ↔ (success = true ∧ key = event.key) ∨ key ∈ stores.seen := by
  cases concluding with
  | success => simp [Stores.seen_success]
  | failure => simp [Stores.seen_enqueue]

/-- In the end the event is held, with what was held before. -/
theorem holds (concluding : Concluding stores event success writes)
    (held : key = event.key ∨ stores.Holds key) : (stores.after writes).Holds key := by
  cases concluding with
  | success => exact Stores.holds_success held
  | failure => exact Stores.holds_enqueue held

end Concluding

/-! ## Steps by cases -/

/-- What the actions do, and when. -/
inductive Service.Steps (config : Config) (s : Service) : Action → Service → Prop where
  | deliver (event : BridgeEvent) (idle : s.writes = []) :
      Steps config s (.deliver event) (s.handleEvent config event)
  | sweep (now : Nat) (idle : s.writes = []) : Steps config s (.sweep now) (s.retryDeadLetters now)
  | sweepNext (event : BridgeEvent) (next : Option Sweep) (idle : s.writes = []) :
      Steps config s .sweepNext { s.handleEvent config event with sweep := next }
  | sweepEnd (idle : s.writes = []) : Steps config s .sweepEnd { s with sweep := none }
  | sign (process available now : Nat) {event : BridgeEvent}
      (found : s.processes[process]? = some ⟨event, .signing⟩) (idle : s.writes = []) :
      Steps config s (.sign process available now) (s.signed config process event available now)
  | answer (process : Nat) (outcome : Except String RpcOutcome) (now : Nat) {event : BridgeEvent}
      {available : Nat} (found : s.processes[process]? = some ⟨event, .submitting available⟩)
      (idle : s.writes = []) :
      Steps config s (.answer process outcome now)
        (s.finish process event (s.conclusion config event available outcome now))
  | write {next : Write} {rest : List Write} (writes : s.writes = next :: rest) :
      Steps config s .write (s.write next rest)
  | settle (call : Nat) {event : BridgeEvent} {status : CallStatus} {process : Nat}
      {owned : Option Nat} (found : s.calls[call]? = some ⟨event, status⟩) (idle : s.writes = [])
      (ended : s.ended process = true)
      (waits : (status = .owns process ∧ owned = some process) ∨
        (status = .joins process ∧ owned = none)) :
      Steps config s (.settle call) (s.settle config call event owned)
  | execute (key : Key) : Steps config s (.execute key) { s with executed := key :: s.executed }
  | crash : Steps config s .crash s.restart

theorem Service.steps_of_step {config : Config} {s t : Service} {action : Action}
    (taken : s.step config action = some t) : s.Steps config action t := by
  cases action <;> simp only [Service.step] at taken
  case deliver event =>
    split at taken
    · next idle => exact Option.some.inj taken ▸ .deliver event idle
    · cases taken
  case sweep now =>
    split at taken
    · next idle => exact Option.some.inj taken ▸ .sweep now idle
    · cases taken
  case sweepNext =>
    split at taken
    · next event pending current found =>
      split at taken
      · next ready => exact Option.some.inj taken ▸ .sweepNext event _ ready.1
      · cases taken
    · cases taken
  case sweepEnd =>
    split at taken
    · split at taken
      · next ready => exact Option.some.inj taken ▸ .sweepEnd ready.1
      · cases taken
    · cases taken
  case sign process available now =>
    split at taken
    · next event found =>
      split at taken
      · next idle => exact Option.some.inj taken ▸ .sign process available now found idle
      · cases taken
    · cases taken
  case answer process outcome now =>
    split at taken
    · next event available found =>
      split at taken
      · next idle => exact Option.some.inj taken ▸ .answer process outcome now found idle
      · cases taken
    · cases taken
  case write =>
    split at taken
    · next next rest writes => exact Option.some.inj taken ▸ .write writes
    · cases taken
  case settle call =>
    split at taken
    · next event process found =>
      split at taken
      · next ready =>
        exact Option.some.inj taken ▸ .settle call found ready.1 ready.2 (.inl ⟨rfl, rfl⟩)
      · cases taken
    · next event process found =>
      split at taken
      · next ready =>
        exact Option.some.inj taken ▸ .settle call found ready.1 ready.2 (.inr ⟨rfl, rfl⟩)
      · cases taken
    · cases taken
  case execute key => exact Option.some.inj taken ▸ .execute key
  case crash => exact Option.some.inj taken ▸ .crash

/-! ## What a step does to the stores -/

/-- The event whose processing the step ends, and whether that is a success. -/
def Taken.concludes (config : Config) (taken : Taken) : Option (BridgeEvent × Bool) :=
  match taken.action with
  | .sign process available _ =>
      match taken.before.processes[process]? with
      | some ⟨event, .signing⟩ => if available < config.threshold then some (event, false) else none
      | _ => none
  | .answer process outcome _ =>
      match taken.before.processes[process]? with
      | some ⟨event, .submitting _⟩ => some (event, succeeded outcome)
      | _ => none
  | _ => none

/-- What a step does to the stores and the pending writes. -/
inductive Service.Moves (config : Config) (s : Service) (action : Action) (t : Service) : Prop where
  | quiet (memory : t.memory = s.memory) (disk : t.disk = s.disk) (writes : t.writes = s.writes)
  | concluded {event : BridgeEvent} {success : Bool} (idle : s.writes = [])
      (concludes : (Taken.mk s action).concludes config = some (event, success))
      (memory : t.memory = s.memory) (disk : t.disk = s.disk)
      (writes : Concluding s.memory event success t.writes)
  | wrote {next : Write} {rest : List Write} (writes : s.writes = next :: rest)
      (made : t = s.write next rest)
  | crashed (crash : action = .crash) (restarted : t = s.restart)

theorem Service.resolve_stores (config : Config) (event : BridgeEvent) (s : Service) :
    (s.resolve config event).memory = s.memory ∧ (s.resolve config event).disk = s.disk ∧
      (s.resolve config event).writes = s.writes := by
  unfold Service.resolve
  split <;> exact ⟨rfl, rfl, rfl⟩

theorem Service.handleEvent_stores (config : Config) (event : BridgeEvent) (s : Service) :
    (s.handleEvent config event).memory = s.memory ∧ (s.handleEvent config event).disk = s.disk ∧
      (s.handleEvent config event).writes = s.writes := by
  unfold Service.handleEvent
  split
  · exact resolve_stores config event (s.ignore event)
  · split
    · exact ⟨rfl, rfl, rfl⟩
    · split <;> exact ⟨rfl, rfl, rfl⟩

theorem Service.moves_of_step {config : Config} {s t : Service} {action : Action}
    (taken : s.step config action = some t) : s.Moves config action t := by
  cases steps_of_step taken with
  | deliver event idle =>
    obtain ⟨memory, disk, writes⟩ := handleEvent_stores config event s
    exact .quiet memory disk writes
  | sweep now idle =>
    unfold Service.retryDeadLetters
    split
    · exact .quiet rfl rfl rfl
    · split <;> exact .quiet rfl rfl rfl
  | sweepNext event next idle =>
    obtain ⟨memory, disk, writes⟩ := handleEvent_stores config event s
    exact .quiet memory disk writes
  | sweepEnd => exact .quiet rfl rfl rfl
  | @sign process available now event found idle =>
    unfold Service.signed
    split
    · next few =>
      have concludes : (Taken.mk s (.sign process available now)).concludes config =
          some (event, false) := by
        simp only [Taken.concludes, found, if_pos few]
      exact .concluded idle concludes rfl rfl (.failure ..)
    · exact .quiet rfl rfl rfl
  | answer process outcome now found idle =>
    refine .concluded idle ?_ rfl rfl (conclusion_concluding ..)
    simp only [Taken.concludes, found]
  | write writes => exact .wrote writes rfl
  | @settle call event status process owned found idle ended waits =>
    obtain ⟨memory, disk, writes⟩ := resolve_stores config event _
    exact .quiet memory disk writes
  | execute key => exact .quiet rfl rfl rfl
  | crash => exact .crashed rfl rfl

/-- What the memory will hold once the pending writes are made. -/
def Service.final (s : Service) : Stores := s.memory.after s.writes

theorem Service.final_idle {s : Service} (idle : s.writes = []) : s.final = s.memory := by
  rw [final, idle]
  rfl

/-- Unless the service crashes, a key that will be marked stays so. -/
theorem Service.final_seen_step {config : Config} {s t : Service} {action : Action} {key : Key}
    (taken : s.step config action = some t) (running : action ≠ .crash)
    (seen : key ∈ s.final.seen) : key ∈ t.final.seen := by
  cases moves_of_step taken with
  | quiet memory disk writes => rwa [Service.final, memory, writes]
  | concluded idle concludes memory disk writes =>
    rw [Service.final, memory]
    exact writes.seen.mpr (.inr (final_idle idle ▸ seen))
  | wrote writes made =>
    rw [Service.final, writes] at seen
    exact made ▸ seen
  | crashed crash => exact absurd crash running

end OnboardingBridge.Relayer
