import OnboardingBridge.Foundations.Runs
import OnboardingBridge.Relayer.Stores

/-!
# The relayer service

The service as a transition system. Between two awaits the code runs without
interruption, and a step is such a stretch up to its first write, or one write.
The steps of different handler calls interleave; a crash may fall between any
two writes, and the restarted service has what the files hold.

The chain is the list of the keys that the contract has paid out. It grows by
steps of its own: the answer to a submission only says whether the transaction
was queued.
-/

set_option autoImplicit false

namespace OnboardingBridge.Relayer

open Foundations Contract

/-! ## Submissions -/

/-- The status the RPC returns for a transaction that was sent. -/
inductive SendStatus where
  | pending
  | duplicate
  | tryAgainLater
  | error
deriving DecidableEq

/-- How a submission goes: the transaction was sent, or one of the requests
before threw. -/
inductive RpcOutcome where
  | sent (hash : String) (status : SendStatus)
  | threw (message : String)
deriving DecidableEq

inductive TransactionStatus where
  | pending
  | failed
deriving DecidableEq

structure TransactionResult where
  hash : String
  status : TransactionStatus
  error : Option String
deriving DecidableEq

/-- What the SDK makes of an outcome. It does not wait for the transaction. -/
def fundCrosschain : RpcOutcome → TransactionResult
  | .sent hash status =>
      { hash, status := if status = .pending then .pending else .failed, error := none }
  | .threw message =>
      { hash := "", status := .failed
        error := some (if message = "" then "Unknown error" else message) }

/-- Whether a text contains another. -/
def mentions (text word : String) : Bool := decide (word.toList <:+: text.toList)

/-- The writes after the answer to a submission. -/
def conclude (stores : Stores) (event : BridgeEvent) (available required : Nat)
    (result : TransactionResult) (now : Nat) : List Write :=
  match result.status with
  | .failed =>
      let message := result.error.getD "unknown contract error"
      if mentions message "ReplayedNonce" then mark event.key ++ remove event.key
      else
        let terminal := mentions message "InvalidAmount" || mentions message "AssetNotWhitelisted"
          || mentions message "AddressBlocked"
        enqueue stores event available required ("submission failed: " ++ message) terminal now
  | .pending => mark event.key ++ remove event.key

/-! ## States -/

/-- How far the processing of an event is. -/
inductive Phase where
  | signing
  | submitting (available : Nat)
  | done
deriving DecidableEq

/-- A run of `processEvent`. -/
structure Process where
  event : BridgeEvent
  phase : Phase
deriving DecidableEq

/-- A call of `handleEvent`: it has settled, or it waits for a process, which it
started itself or found in flight. -/
inductive CallStatus where
  | settled
  | owns (process : Nat)
  | joins (process : Nat)
deriving DecidableEq

structure HandlerCall where
  event : BridgeEvent
  status : CallStatus
deriving DecidableEq

/-- A retry sweep: the events it has yet to handle, and the call it waits for. -/
structure Sweep where
  pending : List BridgeEvent
  current : Option Nat
deriving DecidableEq

structure Config where
  sdk : StellarSdk
  threshold : Nat

/-- The service, its files and the chain. -/
structure Service where
  memory : Stores
  disk : Stores
  /-- The writes that the running stretch has yet to make. -/
  writes : List Write
  inFlight : Key → Option Nat
  processes : List Process
  calls : List HandlerCall
  sweep : Option Sweep
  /-- The keys of the payouts the contract has executed. -/
  executed : List Key
  /-- The keys of the valid events whose handler has ever resolved. -/
  resolved : List Key

namespace Service

/-- A started service, with what its files hold. -/
def start (disk : Stores) (executed resolved : List Key) : Service where
  memory := disk
  disk
  writes := []
  inFlight _ := none
  processes := []
  calls := []
  sweep := none
  executed
  resolved

/-- The check of an event passes. -/
def accepts (config : Config) (event : BridgeEvent) : Bool :=
  (validateBridgeEvent config.sdk event).isOk

/-- The call of a handler that returns at once. -/
def ignore (s : Service) (event : BridgeEvent) : Service :=
  { s with calls := s.calls ++ [⟨event, .settled⟩] }

/-- A valid event whose handler has resolved. -/
def resolve (config : Config) (event : BridgeEvent) (s : Service) : Service :=
  if accepts config event then { s with resolved := event.key :: s.resolved } else s

/-- `handleEvent` up to its first await. The hash of a valid event can always be
worked out, so `processEvent` waits for the signers. -/
def handleEvent (config : Config) (event : BridgeEvent) (s : Service) : Service :=
  if event.key ∈ s.memory.seen then (s.ignore event).resolve config event
  else if accepts config event = false then s.ignore event
  else match s.inFlight event.key with
    | some process => { s with calls := s.calls ++ [⟨event, .joins process⟩] }
    | none =>
        { s with
          processes := s.processes ++ [⟨event, .signing⟩]
          inFlight := Function.update s.inFlight event.key (some s.processes.length)
          calls := s.calls ++ [⟨event, .owns s.processes.length⟩] }

/-- Move a process on. -/
def advance (s : Service) (process : Nat) (event : BridgeEvent) (phase : Phase) : Service :=
  { s with processes := s.processes.set process ⟨event, phase⟩ }

/-- A process ends with the given writes. -/
def finish (s : Service) (process : Nat) (event : BridgeEvent) (writes : List Write) : Service :=
  { s.advance process event .done with writes }

/-- The end of the wait for the signers, of whom so many sent a valid signature
under a key of their own. -/
def signed (config : Config) (process : Nat) (event : BridgeEvent) (available now : Nat)
    (s : Service) : Service :=
  if available < config.threshold then
    s.finish process event (enqueue s.memory event available config.threshold
      "insufficient signers after dedup" false now)
  else s.advance process event (.submitting available)

/-- The end of the wait for the submission, which may throw. -/
def answered (config : Config) (process : Nat) (event : BridgeEvent) (available : Nat)
    (outcome : Except String RpcOutcome) (now : Nat) (s : Service) : Service :=
  s.finish process event (match outcome with
    | .ok outcome => conclude s.memory event available config.threshold (fundCrosschain outcome) now
    | .error message => enqueue s.memory event available config.threshold
        ("event processing failed: " ++ message) false now)

/-- Make one write. -/
def write (s : Service) (next : Write) (rest : List Write) : Service :=
  { s with
    memory := s.memory.apply next
    disk := s.disk.persist (s.memory.apply next) next
    writes := rest }

/-- A handler call settles; the one that started the process takes it out of the
map if it is still there. -/
def settle (config : Config) (s : Service) (call : Nat) (event : BridgeEvent)
    (owned : Option Nat) : Service :=
  resolve config event
    { s with
      calls := s.calls.set call ⟨event, .settled⟩
      inFlight :=
        if owned.isSome ∧ s.inFlight event.key = owned then
          Function.update s.inFlight event.key none
        else s.inFlight }

/-- Which dead-lettered events a sweep retries. -/
def retryable (now : Nat) (entry : DeadLetterEntry) : Bool :=
  !entry.terminal && entry.attempts < 5 && entry.nextRetryAt ≤ now

/-- `retryDeadLetters` up to its first call of the handler. -/
def retryDeadLetters (now : Nat) (s : Service) : Service :=
  match s.sweep with
  | some _ => s
  | none =>
      match (s.memory.entries.filter (retryable now)).map DeadLetterEntry.event with
      | [] => s
      | pending => { s with sweep := some ⟨pending, none⟩ }

/-- A call the sweep waits for has settled. -/
def returned (s : Service) (call : Option Nat) : Bool :=
  call.all fun call => (s.calls[call]?).all fun call => call.status = .settled

/-- The process has ended. -/
def ended (s : Service) (process : Nat) : Bool :=
  (s.processes[process]?).any fun process => process.phase = .done

/-- A restarted service. -/
def restart (s : Service) : Service := start s.disk s.executed s.resolved

end Service

/-! ## Steps -/

/-- What may happen next. -/
inductive Action where
  | deliver (event : BridgeEvent)
  | sweep (now : Nat)
  | sweepNext
  | sweepEnd
  | sign (process available now : Nat)
  | answer (process : Nat) (outcome : Except String RpcOutcome) (now : Nat)
  | write
  | settle (call : Nat)
  | execute (key : Key)
  | crash

open Service in
/-- What an action does, when it can happen. The chain and a crash wait for
nothing, and everything else but a write waits for the writes. -/
def Service.step (config : Config) (s : Service) : Action → Option Service
  | .execute key => some { s with executed := key :: s.executed }
  | .crash => some s.restart
  | .write =>
      match s.writes with
      | next :: rest => some (s.write next rest)
      | [] => none
  | .deliver event => if s.writes = [] then some (s.handleEvent config event) else none
  | .sweep now => if s.writes = [] then some (s.retryDeadLetters now) else none
  | .sweepNext =>
      match s.sweep with
      | some ⟨event :: pending, current⟩ =>
          if s.writes = [] ∧ s.returned current = true then
            some { s.handleEvent config event with sweep := some ⟨pending, some s.calls.length⟩ }
          else none
      | _ => none
  | .sweepEnd =>
      match s.sweep with
      | some ⟨[], current⟩ =>
          if s.writes = [] ∧ s.returned current = true then some { s with sweep := none } else none
      | _ => none
  | .sign process available now =>
      match s.processes[process]? with
      | some ⟨event, .signing⟩ =>
          if s.writes = [] then some (s.signed config process event available now) else none
      | _ => none
  | .answer process outcome now =>
      match s.processes[process]? with
      | some ⟨event, .submitting available⟩ =>
          if s.writes = [] then some (s.answered config process event available outcome now)
          else none
      | _ => none
  | .settle call =>
      match s.calls[call]? with
      | some ⟨event, .owns process⟩ =>
          if s.writes = [] ∧ s.ended process = true then
            some (s.settle config call event (some process))
          else none
      | some ⟨event, .joins process⟩ =>
          if s.writes = [] ∧ s.ended process = true then some (s.settle config call event none)
          else none
      | _ => none

/-- A step with the state it was taken in. -/
structure Taken where
  before : Service
  action : Action

/-- The steps of the service, as a labelled transition system. -/
def ServiceStep (config : Config) (s : Service) (label : Taken) (t : Service) : Prop :=
  label.before = s ∧ s.step config label.action = some t

/-! ## Sequences of actions -/

namespace Service

/-- The steps that a sequence of actions takes, with the states in between. -/
def history (config : Config) : Service → List Action → List Taken
  | _, [] => []
  | s, action :: rest =>
      ⟨s, action⟩ :: (s.step config action).elim [] fun t => history config t rest

/-- What a sequence of actions does when each of them can happen. -/
def perform (config : Config) : Service → List Action → Option Service
  | s, [] => some s
  | s, action :: rest => (s.step config action).bind fun t => perform config t rest

theorem perform_run {config : Config} {actions : List Action} {s t : Service}
    (performed : s.perform config actions = some t) :
    Run (ServiceStep config) s (s.history config actions) t := by
  induction actions generalizing s with
  | nil =>
      obtain rfl : s = t := Option.some.inj performed
      exact .nil s
  | cons action rest ih =>
      obtain ⟨next, taken, performed⟩ := Option.bind_eq_some_iff.mp performed
      rw [history, taken]
      exact .cons ⟨rfl, taken⟩ (ih performed)

/-- A test of the outcome that succeeds shows that the actions can happen. -/
theorem performs {config : Config} {actions : List Action} {s : Service} {p : Service → Bool}
    (passes : (s.perform config actions).any p = true) :
    ∃ t, s.perform config actions = some t ∧ p t = true := by
  cases performed : s.perform config actions with
  | none => simp [performed] at passes
  | some t => exact ⟨t, rfl, by simpa [performed] using passes⟩

theorem perform_append {config : Config} {first second : List Action} {s : Service} :
    s.perform config (first ++ second) =
      (s.perform config first).bind fun t => t.perform config second := by
  induction first generalizing s with
  | nil => rfl
  | cons action rest ih =>
      rw [List.cons_append, perform, perform, Option.bind_assoc]
      exact congrArg _ (funext fun t => ih)

theorem history_append {config : Config} {first second : List Action} {s t : Service}
    (performed : s.perform config first = some t) :
    s.history config (first ++ second) = s.history config first ++ t.history config second := by
  induction first generalizing s with
  | nil =>
      obtain rfl : s = t := Option.some.inj performed
      rfl
  | cons action rest ih =>
      obtain ⟨next, taken, performed⟩ := Option.bind_eq_some_iff.mp performed
      rw [List.cons_append, history, history, taken]
      exact congrArg (List.cons _) (ih performed)

theorem action_mem {config : Config} {actions : List Action} {s : Service} {label : Taken}
    (member : label ∈ s.history config actions) : label.action ∈ actions := by
  induction actions generalizing s with
  | nil => cases member
  | cons action rest ih =>
      rcases List.mem_cons.mp member with rfl | later
      · exact List.mem_cons_self
      · cases next : s.step config action with
        | none => simp [next] at later
        | some t =>
            rw [next] at later
            exact List.mem_cons_of_mem _ (ih later)

end Service

end OnboardingBridge.Relayer
