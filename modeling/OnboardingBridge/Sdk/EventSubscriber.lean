import Mathlib.Algebra.GroupWithZero.Nat
import OnboardingBridge.Foundations.Machines
import OnboardingBridge.Sdk.EventPayloads

/-!
# The event subscriber

A subscriber asks the RPC for the events after its cursor, waits, hands the events
of the answer out to its listeners, and moves the cursor to each of them. A timer
starts such a fetch after each interval, and a caller may start one at any time.

The handlers that an event is handed to run one after another, and may register
listeners, remove them, or start a fetch themselves. A set of listeners is gone through
as it is: what is added to it meanwhile is called too, and what is removed is not. Only
when an event was handed to all of them does the cursor move, and nothing else happens
until the events of an answer are all handed out.
-/

set_option autoImplicit false

namespace OnboardingBridge.Sdk

open Foundations

/-! ## Requests and answers -/

/-- Where the events to ask for begin: a ledger, or after the event with a paging token. -/
inductive Cursor where
  | number (ledger : ℕ)
  | string (text : String)

/-- The cursor of a new subscriber, which is `now` without a start ledger. -/
def Cursor.start : Option ℕ → Cursor
  | some ledger => .number ledger
  | none => .string "now"

structure GetEventsRequest where
  startLedger : Option ℕ
  cursor : Option String
  limit : ℕ
deriving DecidableEq

/-- The request of a fetch: without a start ledger and a cursor it is for the latest ledger. -/
def Cursor.request (limit : ℕ) : Cursor → GetEventsRequest
  | .number ledger => ⟨some ledger, none, limit⟩
  | .string text => if text = "now" then ⟨none, none, limit⟩ else ⟨none, some text, limit⟩

/-- The events of the contract in the ledgers that are closed, and the latest ledger. -/
structure Ledgers (Value : Type) where
  chain : List (EventResponse Value)
  latest : ℕ

section Requests

variable {Value : Type}

/-- The events that a request asks for. -/
def Ledgers.eventsFor (ledgers : Ledgers Value) (request : GetEventsRequest) :
    List (EventResponse Value) :=
  match request.cursor, request.startLedger with
  | some token, _ => (ledgers.chain.dropWhile fun raw => raw.pagingToken ≠ token).tail
  | none, some ledger => ledgers.chain.dropWhile fun raw => raw.ledger < ledger
  | none, none => ledgers.chain.dropWhile fun raw => raw.ledger < ledgers.latest

/-- How many events a cursor is past. -/
def Ledgers.position (ledgers : Ledgers Value) : Cursor → ℕ
  | .number _ => 0
  | .string text =>
      if text = "now" then 0
      else (ledgers.chain.map EventResponse.pagingToken).idxOf text + 1

/-- Paging tokens tell the events apart, and the events are in ledger order. -/
structure Ledgers.Published (ledgers : Ledgers Value) : Prop where
  distinct : (ledgers.chain.map EventResponse.pagingToken).Nodup
  named : ∀ raw ∈ ledgers.chain, raw.pagingToken ≠ "" ∧ raw.pagingToken ≠ "now"
  ordered : ledgers.chain.Pairwise fun earlier later => earlier.ledger ≤ later.ledger
  closed : ∀ raw ∈ ledgers.chain, raw.ledger ≤ ledgers.latest

end Requests

/-! ## States -/

/-- A fetch in flight: what was asked for, and the answer when the RPC has given one. -/
structure Fetch (Value : Type) where
  request : GetEventsRequest
  page : Option (List (EventResponse Value))

/-- A payload that is handed out, and the listeners it was handed to. -/
structure Dispatch where
  payload : BridgeEventPayload
  listeners : List (String × ℕ)

/-- A set of callbacks that is gone through: whether it is still the one that is registered for its
name, and the callbacks yet to be called. -/
structure LiveSet where
  eventName : String
  registered : Bool
  remaining : List ℕ

/-- What the callbacks are called for: an event, handed first to the listeners of its name and then
to those of all events, or an error. -/
inductive Cause (Value : Type) where
  | event (raw : EventResponse Value) (dispatch : Dispatch) (wildcard : Bool)
  | error (called : List ℕ)

structure Calling (Value : Type) where
  cause : Cause Value
  set : LiveSet

/-- A subscriber, the fetches in flight, the callbacks that are being called, the events of the
answer that are yet to be handed out, what was handed out so far, and the events of all answers
that came in. -/
structure EventSubscriber (Value : Type) where
  cursor : Cursor
  listeners : List (String × List ℕ)
  intervalHandle : Bool
  polling : Bool
  destroyed : Bool
  fetches : List (Fetch Value)
  calling : Option (Calling Value)
  handling : Option (List (EventResponse Value))
  dispatched : List Dispatch
  reported : List (List ℕ)
  returned : List (EventResponse Value)
  ledgers : Ledgers Value

/-! ## Sets that are gone through -/

namespace LiveSet

/-- A callback is added to the set of a name. -/
def add (set : LiveSet) (eventName : String) (callback : ℕ) : LiveSet :=
  if set.registered = true ∧ set.eventName = eventName then
    { set with remaining := set.remaining ++ [callback] }
  else set

/-- A callback is removed from the set of a name, which is given up when that empties it. -/
def delete (set : LiveSet) (eventName : String) (callback : ℕ) (empties : Bool) : LiveSet :=
  if set.registered = true ∧ set.eventName = eventName then
    { set with registered := !empties, remaining := set.remaining.filter (· ≠ callback) }
  else set

/-- All sets are given up, but not emptied. -/
def clear (set : LiveSet) : LiveSet := { set with registered := false }

end LiveSet

namespace Calling

variable {Value : Type}

/-- What becomes of the set. -/
def onSet (calling : Calling Value) (f : LiveSet → LiveSet) : Calling Value :=
  { calling with set := f calling.set }

/-- The next callback is called. -/
def call (calling : Calling Value) (callback : ℕ) (rest : List ℕ) : Calling Value where
  cause :=
    match calling.cause with
    | .event raw dispatch wildcard =>
        .event raw ⟨dispatch.payload, dispatch.listeners ++ [(calling.set.eventName, callback)]⟩
          wildcard
    | .error called => .error (called ++ [callback])
  set := { calling.set with remaining := rest }

end Calling

namespace EventSubscriber

variable {Value : Type}

def start (startLedger : Option ℕ) (ledgers : Ledgers Value) : EventSubscriber Value :=
  ⟨.start startLedger, [], false, false, false, [], none, none, [], [], [], ledgers⟩

/-! ## Listeners -/

/-- The callbacks that are registered for a name. -/
def listenersOf (s : EventSubscriber Value) (eventName : String) : List ℕ :=
  ((s.listeners.find? fun entry => entry.1 = eventName).map Prod.snd).getD []

def listenerCount (s : EventSubscriber Value) : ℕ :=
  (s.listeners.map fun entry => entry.2.length).sum

/-- Add a callback to the set of a name. -/
def addListener (s : EventSubscriber Value) (eventName : String) (callback : ℕ) :
    List (String × List ℕ) :=
  let listeners :=
    if (s.listeners.any fun entry => entry.1 = eventName) = true then s.listeners
    else s.listeners ++ [(eventName, [])]
  listeners.map fun entry =>
    if entry.1 = eventName ∧ callback ∉ entry.2 then (entry.1, entry.2 ++ [callback]) else entry

/-- Remove a callback from the set of a name, and the set when it is empty. -/
def removeListener (s : EventSubscriber Value) (eventName : String) (callback : ℕ) :
    List (String × List ℕ) :=
  (s.listeners.map fun entry =>
    if entry.1 = eventName then (entry.1, entry.2.filter (· ≠ callback)) else entry).filter
      fun entry => ¬ (entry.1 = eventName ∧ entry.2 = [])

def startPolling (s : EventSubscriber Value) : EventSubscriber Value :=
  { s with intervalHandle := true }

def stopPolling (s : EventSubscriber Value) : EventSubscriber Value :=
  { s with intervalHandle := false }

/-- A callback is put into the set of a name. -/
def add (s : EventSubscriber Value) (eventName : String) (callback : ℕ) : EventSubscriber Value :=
  { s with
    listeners := s.addListener eventName callback
    calling :=
      if callback ∈ s.listenersOf eventName then s.calling
      else s.calling.map (·.onSet (·.add eventName callback)) }

/-- Register a callback, which starts the timer when it is not running. -/
def on (s : EventSubscriber Value) (eventName : String) (callback : ℕ) : EventSubscriber Value :=
  if s.destroyed = true then s
  else if s.intervalHandle = false ∧ s.polling = false then (s.add eventName callback).startPolling
  else s.add eventName callback

/-- What `on` returns does: remove a callback. -/
def remove (s : EventSubscriber Value) (eventName : String) (callback : ℕ) :
    EventSubscriber Value :=
  let empties : Bool := (s.listenersOf eventName).filter (· ≠ callback) = []
  { s with
    listeners := s.removeListener eventName callback
    calling := s.calling.map (·.onSet (·.delete eventName callback empties)) }

/-- Stop the timer and remove all listeners. -/
def destroy (s : EventSubscriber Value) : EventSubscriber Value :=
  { s.stopPolling with
    listeners := []
    calling := s.calling.map (·.onSet LiveSet.clear)
    destroyed := true }

/-! ## Dispatch -/

/-- The set of a name, when it begins to be gone through. -/
def liveSet (s : EventSubscriber Value) (eventName : String) : LiveSet where
  eventName
  registered := s.listeners.any fun entry => entry.1 = eventName
  remaining := s.listenersOf eventName

/-- Begin to hand a payload to the listeners of its name. -/
def dispatch (s : EventSubscriber Value) (raw : EventResponse Value)
    (payload : BridgeEventPayload) : EventSubscriber Value :=
  { s with calling := some ⟨.event raw ⟨payload, []⟩ false, s.liveSet payload.event.name⟩ }

/-- Begin to hand an error to the listeners of errors. -/
def dispatchError (s : EventSubscriber Value) : EventSubscriber Value :=
  { s with calling := some ⟨.error [], s.liveSet "error"⟩ }

/-- Move the cursor to an event. -/
def moveCursor (s : EventSubscriber Value) (raw : EventResponse Value) : EventSubscriber Value :=
  if raw.pagingToken ≠ "" then { s with cursor := .string raw.pagingToken } else s

/-- Call the next callback. After the listeners of its name come those of all events, which are
looked up then, and after those the cursor moves to the event. -/
def callNext (s : EventSubscriber Value) (calling : Calling Value) : EventSubscriber Value :=
  match calling.set.remaining, calling.cause with
  | callback :: rest, _ => { s with calling := some (calling.call callback rest) }
  | [], .event raw dispatch false =>
      { s with calling := some ⟨.event raw dispatch true, s.liveSet "*"⟩ }
  | [], .event raw dispatch true =>
      { s.moveCursor raw with calling := none, dispatched := s.dispatched ++ [dispatch] }
  | [], .error called => { s with calling := none, reported := s.reported ++ [called] }

/-- Begin to hand one event of an answer out, if it can be read. -/
def handOut (scValToNative : Value → Option Native) (s : EventSubscriber Value)
    (raw : EventResponse Value) : EventSubscriber Value :=
  match parseEvent scValToNative raw with
  | some payload => s.dispatch raw payload
  | none => s.moveCursor raw

/-- Start a fetch from the cursor. -/
def fetch (limit : ℕ) (s : EventSubscriber Value) : EventSubscriber Value :=
  { s with fetches := s.fetches ++ [⟨s.cursor.request limit, none⟩] }

end EventSubscriber

/-! ## Steps -/

/-- What may happen next: a ledger closes with its events; a caller or a handler registers a
listener, removes it, destroys the subscriber, or starts a fetch; the timer starts a fetch; the
RPC takes up a request, or fails; an answer comes in, and its events are handed out, a callback at a
time. -/
inductive SubscriberAction (Value : Type) where
  | close (events : List (EventResponse Value))
  | on (eventName : String) (callback : ℕ)
  | unsubscribe (eventName : String) (callback : ℕ) (stops : Bool)
  | destroy
  | poll
  | tick
  | serve (index size : ℕ)
  | reject (index : ℕ)
  | arrive (index : ℕ)
  | handle

section Machine

variable {Value : Type} (scValToNative : Value → Option Native) (limit : ℕ)

/-- What an action does, when it can happen. The events of an answer are the first that the request
asks for, no more than its limit. -/
def EventSubscriber.step (s : EventSubscriber Value) :
    SubscriberAction Value → Option (EventSubscriber Value)
  | .close events =>
      let chain := s.ledgers.chain ++ events
      if (chain.map EventResponse.pagingToken).Nodup ∧
          ∀ raw ∈ events, raw.ledger = s.ledgers.latest + 1 ∧
            raw.pagingToken ≠ "" ∧ raw.pagingToken ≠ "now" then
        some { s with ledgers := ⟨chain, s.ledgers.latest + 1⟩ }
      else none
  | .on eventName callback => some (s.on eventName callback)
  | .unsubscribe eventName callback stops =>
      let removed := s.remove eventName callback
      if stops = false then some removed
      else if removed.listenerCount = 0 then some removed.stopPolling
      else none
  | .destroy => some s.destroy
  | .poll => some (s.fetch limit)
  | .tick =>
      if s.intervalHandle = true ∧ s.calling.isNone = true ∧ s.handling.isNone = true then
        some (s.fetch limit)
      else none
  | .serve index size =>
      match s.fetches[index]? with
      | some ⟨request, none⟩ =>
          if size ≤ request.limit then
            let page := (s.ledgers.eventsFor request).take size
            some { s with fetches := s.fetches.set index ⟨request, some page⟩ }
          else none
      | _ => none
  | .reject index =>
      if s.calling.isNone = true ∧ s.handling.isNone = true ∧ index < s.fetches.length then
        some { s.dispatchError with fetches := s.fetches.eraseIdx index }
      else none
  | .arrive index =>
      match s.calling, s.handling, s.fetches[index]? with
      | none, none, some ⟨_, some page⟩ =>
          some { s with
            fetches := s.fetches.eraseIdx index
            handling := some page
            returned := s.returned ++ page }
      | _, _, _ => none
  | .handle =>
      match s.calling, s.handling with
      | some calling, _ => some (s.callNext calling)
      | none, none => none
      | none, some [] => some { s with handling := none }
      | none, some (raw :: rest) =>
          some { s.handOut scValToNative raw with handling := some rest }

end Machine

end OnboardingBridge.Sdk
