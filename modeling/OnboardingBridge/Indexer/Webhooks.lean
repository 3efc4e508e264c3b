import OnboardingBridge.Indexer.Subscriptions

/-!
# Deliveries of webhooks

A poll of the worker reads the deliveries that are due, oldest first, and works through
them in a queue for each subscription, some queues at a time. A delivery is looked up,
signed, sent, and marked when its request is answered. One worker runs at a time, and it is
only restarted between polls.

A step is at most a stretch of code between two awaits. Finding no row and marking the delivery for
that is one, but the secret is read in one step and the request sent in another. The calls of the
store come in between. What was sent and what was answered is there to speak about runs.
-/

set_option autoImplicit false

namespace OnboardingBridge.Indexer

open Foundations Contract Relayer

def maxConcurrentDeliveries : ℕ := 10

def maxRetries : ℕ := 5

/-- The `LIMIT` of `get_pending_deliveries`. -/
def pendingLimit : ℕ := 100

/-! ## Requests -/

structure WebhookPayload where
  deliveryId : String
  attempt : ℕ
  eventId : String
  eventType : String
  ledgerSequence : Int
  contractId : String
  txHash : String
  timestamp : String
  data : Json

/-- What the worker gets from other libraries: the text of a payload, and the keyed hash. -/
structure WebhookConfig where
  serialize : WebhookPayload → String
  hmacSha256 : List UInt8 → List UInt8 → List UInt8

def generateSignature (config : WebhookConfig) (secret timestamp body : String) : String :=
  "sha256=" ++ String.ofList
    (hexText (config.hmacSha256 (utf8Bytes secret) (utf8Bytes (timestamp ++ "." ++ body))))

/-- A request, whose body is the text of the payload. -/
structure WebhookRequest where
  url : String
  timestamp : String
  signature : String
  payload : WebhookPayload

/-- How a request ends: with a status and its reason, or not answered. -/
inductive HttpOutcome where
  | response (status : ℕ) (reason : String)
  | failed (error : String)
deriving DecidableEq

/-- The error of an outcome; none when the status is one of success. -/
def HttpOutcome.error : HttpOutcome → Option String
  | .response status reason =>
      if 200 ≤ status ∧ status < 300 then none
      else some ("HTTP " ++ toString status ++ " " ++ reason)
  | .failed error => some error

def webhookPayload (delivery : WebhookDelivery) (event : IndexedEvent) : WebhookPayload where
  deliveryId := delivery.id
  attempt := delivery.attempts + 1
  eventId := event.id
  eventType := event.eventType
  ledgerSequence := event.ledgerSequence
  contractId := event.contractId
  txHash := event.txHash
  timestamp := event.timestamp
  data := event.data

/-- The request for a delivery, made of what was read for it. -/
def webhookRequest (config : WebhookConfig) (delivery : WebhookDelivery) (url : String)
    (event : IndexedEvent) (timestamp secret : String) : WebhookRequest :=
  let payload := webhookPayload delivery event
  { url, timestamp, payload
    signature := generateSignature config secret timestamp (config.serialize payload) }

/-! ## Statements -/

namespace WebhookStore

def updateDelivery (s : WebhookStore) (id : String)
    (change : WebhookDelivery → WebhookDelivery) : WebhookStore :=
  { s with deliveries := s.deliveries.map fun row => if row.id = id then change row else row }

def markDeliverySuccess (s : WebhookStore) (id : String) : WebhookStore :=
  s.updateDelivery id fun row =>
    { row with status := .delivered, attempts := row.attempts + 1 }

def markDeliveryFailed (s : WebhookStore) (id error : String) (nextRetry : Instant) :
    WebhookStore :=
  s.updateDelivery id fun row =>
    { row with
      attempts := row.attempts + 1, lastError := some error, nextRetryAt := some nextRetry }

def markDeliveryDead (s : WebhookStore) (id error : String) : WebhookStore :=
  s.updateDelivery id fun row =>
    { row with status := .dead, lastError := some error, attempts := row.attempts + 1 }

/-- The active subscription with an id. -/
def activeSubscription (s : WebhookStore) (id : String) : Option Subscription :=
  s.subscriptions.find? fun sub => sub.id = id && sub.active

def getSubscriptionUrl (s : WebhookStore) (id : String) : Option String :=
  (s.activeSubscription id).map Subscription.url

def getSubscriptionSecret (s : WebhookStore) (id : String) : Option String :=
  (s.activeSubscription id).map Subscription.secret

def getEventById (s : WebhookStore) (id : String) : Option IndexedEvent :=
  s.events.find? fun event => event.id = id

/-- The deliveries that are pending, and due. -/
def dueDeliveries (s : WebhookStore) (now : Instant) : List WebhookDelivery :=
  s.deliveries.filter fun row =>
    row.status = .pending && row.nextRetryAt.all fun nextRetryAt => nextRetryAt ≤ now

/-- `get_pending_deliveries`, for an order in which the database sorts the rows that are due. -/
def getPendingDeliveries (s : WebhookStore) (now : Instant) (sorted : List WebhookDelivery) :
    Option (List WebhookDelivery) :=
  if sorted.Perm (s.dueDeliveries now) ∧
      sorted.Pairwise (fun row later => row.createdAt ≤ later.createdAt) then
    some (sorted.take pendingLimit)
  else none

end WebhookStore

/-! ## The worker -/

/-- What a queue is at: between deliveries, or at one whose subscription was read, whose event was
read too, whose secret was read as well, or whose request is under way. -/
inductive DeliveryTask where
  | idle
  | located (delivery : WebhookDelivery) (url : String)
  | loaded (delivery : WebhookDelivery) (url : String) (event : IndexedEvent)
  | signing (delivery : WebhookDelivery) (url : String) (event : IndexedEvent)
      (timestamp secret : String)
  | sent (delivery : WebhookDelivery)

def DeliveryTask.delivery : DeliveryTask → Option WebhookDelivery
  | .idle => none
  | .located delivery _ | .loaded delivery _ _ | .signing delivery .. | .sent delivery =>
      some delivery

structure SubscriptionQueue where
  task : DeliveryTask
  rest : List WebhookDelivery

/-- The deliveries that a queue has not settled yet. -/
def SubscriptionQueue.entries (queue : SubscriptionQueue) : List WebhookDelivery :=
  queue.task.delivery.toList ++ queue.rest

/-- A delivery is appended to the queue of its subscription, or begins one. -/
def pushDelivery (delivery : WebhookDelivery) :
    List (String × List WebhookDelivery) → List (String × List WebhookDelivery)
  | [] => [(delivery.subscriptionId, [delivery])]
  | (subscriptionId, queue) :: rest =>
      if subscriptionId = delivery.subscriptionId then
        (subscriptionId, queue ++ [delivery]) :: rest
      else (subscriptionId, queue) :: pushDelivery delivery rest

/-- The queues of the subscriptions, in the order in which they come first. -/
def subscriptionQueues (deliveries : List WebhookDelivery) : List (String × List WebhookDelivery) :=
  deliveries.foldl (fun queues delivery => pushDelivery delivery queues) []

structure DeliveryWorker where
  store : WebhookStore
  /-- The queues of the last poll; one without entries is done. -/
  queues : List SubscriptionQueue
  /-- What was sent, with the delivery that it was sent for. -/
  requests : List (WebhookDelivery × WebhookRequest)
  /-- The deliveries whose requests ended, and whether they succeeded. -/
  answered : List (WebhookDelivery × Bool)
  /-- The latest time that was read. -/
  clock : Instant

namespace DeliveryWorker

def start : DeliveryWorker := ⟨.empty, [], [], [], 0⟩

/-- The entries of all queues. -/
def entries (s : DeliveryWorker) : List WebhookDelivery :=
  s.queues.flatMap SubscriptionQueue.entries

/-- A queue that may go on: it is among the first ones that are not done. -/
def activeQueue (s : DeliveryWorker) (queue : ℕ) : Option SubscriptionQueue :=
  if (s.queues.take queue).countP (fun q => !q.entries.isEmpty) < maxConcurrentDeliveries then
    s.queues[queue]?
  else none

/-- A queue goes on to a task. -/
def advance (s : DeliveryWorker) (queue : ℕ) (task : DeliveryTask)
    (rest : List WebhookDelivery) : DeliveryWorker :=
  { s with queues := s.queues.set queue ⟨task, rest⟩ }

def read (s : DeliveryWorker) (now : Instant) : DeliveryWorker :=
  { s with clock := max s.clock now }

/-- `handle_retry`. -/
def handleRetry (s : DeliveryWorker) (delivery : WebhookDelivery) (error : String)
    (now : Instant) : WebhookStore :=
  let attempt := delivery.attempts + 1
  if attempt ≥ maxRetries then s.store.markDeliveryDead delivery.id error
  else s.store.markDeliveryFailed delivery.id error (now + 2 ^ attempt * 1000000000)

end DeliveryWorker

/-! ## Steps -/

/-- What may happen next: a call of the store, a delivery of an event that is replayed, a poll, or
a step of a queue of the poll. -/
inductive WorkerAction where
  | store (action : StoreAction)
  | replay (event : IndexedEvent) (sub : Subscription) (id : String) (now : Instant)
  | poll (now : Instant) (sorted : List WebhookDelivery)
  | locate (queue : ℕ)
  | load (queue : ℕ)
  | readSecret (queue : ℕ) (now : Instant)
  | send (queue : ℕ)
  | reply (queue : ℕ) (outcome : HttpOutcome) (now : Instant)
  | restart

/-- The time that a call of the store reads. -/
def StoreAction.now : StoreAction → Option Instant
  | .insert _ now _ _ | .create _ _ _ now => some now
  | .delete _ => none

open DeliveryWorker in
/-- What an action does, when it can happen. -/
def DeliveryWorker.step (config : WebhookConfig) (s : DeliveryWorker) :
    WorkerAction → Option DeliveryWorker
  | .store action => (s.store.step action).map fun store => { s.read (action.now.getD 0) with store }
  | .replay event sub id now =>
      if (event.id ∈ s.store.events.map (·.id)) ∧ sub.admits event = true then
        (s.store.insertDelivery (WebhookStore.newDelivery event now id sub)).map fun store =>
          { s.read now with store }
      else none
  | .poll now sorted =>
      if s.entries = [] then
        (s.store.getPendingDeliveries now sorted).map fun deliveries =>
          { s.read now with
            queues := (subscriptionQueues deliveries).map fun pair => ⟨.idle, pair.2⟩ }
      else none
  | .locate queue =>
      match s.activeQueue queue with
      | some ⟨.idle, delivery :: rest⟩ =>
          match s.store.getSubscriptionUrl delivery.subscriptionId with
          | some url => some (s.advance queue (.located delivery url) rest)
          | none =>
              some { s.advance queue .idle rest with
                store := s.store.markDeliveryDead delivery.id
                  "subscription not found or inactive" }
      | _ => none
  | .load queue =>
      match s.activeQueue queue with
      | some ⟨.located delivery url, rest⟩ =>
          match s.store.getEventById delivery.eventId with
          | some event => some (s.advance queue (.loaded delivery url event) rest)
          | none =>
              some { s.advance queue .idle rest with
                store := s.store.markDeliveryDead delivery.id "event not found" }
      | _ => none
  | .readSecret queue now =>
      match s.activeQueue queue with
      | some ⟨.loaded delivery url event, rest⟩ =>
          match s.store.getSubscriptionSecret delivery.subscriptionId with
          | some secret =>
              some ((s.read now).advance queue
                (.signing delivery url event (toString (now / 1000000000)) secret) rest)
          -- An error ends the queue for this poll.
          | none => some ((s.read now).advance queue .idle [])
      | _ => none
  | .send queue =>
      match s.activeQueue queue with
      | some ⟨.signing delivery url event timestamp secret, rest⟩ =>
          some { s.advance queue (.sent delivery) rest with
            requests := s.requests ++
              [(delivery, webhookRequest config delivery url event timestamp secret)] }
      | _ => none
  | .reply queue outcome now =>
      match s.activeQueue queue with
      | some ⟨.sent delivery, rest⟩ =>
          some { (s.read now).advance queue .idle rest with
            store := match outcome.error with
              | none => s.store.markDeliverySuccess delivery.id
              | some error => s.handleRetry delivery error now
            answered := s.answered ++ [(delivery, outcome.error.isNone)] }
      | _ => none
  | .restart => if s.entries = [] then some { s with queues := [] } else none

end OnboardingBridge.Indexer
