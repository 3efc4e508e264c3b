import OnboardingBridge.Indexer.DeliveryLifecycle
import OnboardingBridge.Indexer.WebhookUrls

/-!
# The indexer as a service

The poller, the worker of the deliveries and the routes of the HTTP interface share one store. A
request to change the subscriptions or to replay events needs the key. A replay reads its events at
once and then queues them statement by statement, while everything else goes on.

What the service does to the store and to the worker is what the worker's own steps do
(`IndexerService.run_worker`). So every request of a webhook can be accounted for
(`requests_accounted`), and a subscription that is deleted gets none any more but what was being
signed then (`deleted_stays_silent`).
-/

set_option autoImplicit false

namespace OnboardingBridge.Indexer

open Foundations Relayer

/-! ## Routes -/

structure EventQuery where
  limit : Option Int
  offset : Option Int

structure ReplayRequest where
  fromLedger : Int
  limit : Option Int

def maxPageLimit : Int := 500

def clampLimit (limit : Option Int) (default : Int) : Int :=
  max 1 (min (limit.getD default) maxPageLimit)

def clampOffset (offset : Option Int) : Int := max (offset.getD 0) 0

/-- The routes that are served, with what the framework reads of a request. -/
inductive ApiRoute where
  | listEvents (params : EventQuery)
  | listEventsByType (eventType : String) (params : EventQuery)
  | listSubscriptions
  | getStats
  | health
  | createSubscription (req : CreateSubscription)
  | deleteSubscription (id : String)
  | replayEvents (req : ReplayRequest)

/-- The routes behind the check of the key. -/
def ApiRoute.isProtected : ApiRoute → Bool
  | .createSubscription _ | .deleteSubscription _ | .replayEvents _ => true
  | .listEvents _ | .listEventsByType .. | .listSubscriptions | .getStats | .health => false

def UrlValidationError.display : UrlValidationError → String
  | .invalidUrl reason => "invalid URL: " ++ reason
  | .forbiddenScheme scheme =>
      "forbidden scheme '" ++ scheme ++ "': only http and https are allowed"
  | .privateOrReservedHost host => "private/reserved host rejected: " ++ host
  | .unresolvableHost host => "host could not be resolved: " ++ host

structure IndexerStats where
  totalEvents : ℕ
  activeSubscriptions : ℕ
  pendingDeliveries : ℕ
  deadDeliveries : ℕ
  lastIndexedLedger : Int
  eventCounts : List (String × ℕ)

inductive ApiResponse where
  | unauthorized
  | internalServerError
  | unprocessable (error : String)
  | databaseError (error : String)
  | healthy (text : String)
  | events (events : List IndexedEvent)
  | subscriptions (subs : List Subscription)
  | stats (stats : IndexerStats)
  | created (sub : Subscription)
  | noContent
  | replayed (count : ℕ)

/-! ## The key -/

structure ServiceConfig where
  webhooks : WebhookConfig
  urls : UrlLibrary
  sha256 : List UInt8 → List UInt8
  apiKeyHash : String

def sha256Hex (config : ServiceConfig) (value : String) : String :=
  String.ofList (hexText (config.sha256 (utf8Bytes value)))

/-- `HeaderValue::to_str`: visible characters, spaces and tabs. -/
def headerText (value : List UInt8) : Option (List Char) :=
  if value.all (fun byte => (32 ≤ byte && byte < 127) || byte = 9) = true then
    some (value.map fun byte => Char.ofNat byte.toNat)
  else none

/-- `split_once` at a blank. -/
def splitOnce (text : List Char) : Option (List Char × List Char) :=
  match text.span (· ≠ ' ') with
  | (_, []) => none
  | (scheme, _ :: token) => some (scheme, token)

/-- The token of a header, when its scheme is that of bearers. -/
def bearerToken (value : List UInt8) : Option String := do
  let text ← headerText value
  let (scheme, token) ← splitOnce text
  if scheme.map Char.toLower = "bearer".toList ∧ token ≠ [] then some (String.ofList token) else none

/-- The check of `require_api_key`. -/
def hasApiKey (config : ServiceConfig) (authorization : Option (List UInt8)) : Bool :=
  match authorization.bind bearerToken with
  | none => false
  | some key => config.apiKeyHash = sha256Hex config key

/-! ## Reading -/

namespace WebhookStore

/-- The rows that pass a filter, for an order in which the database sorts their ids. -/
def sortedEvents (s : WebhookStore) (keeps : IndexedEvent → Bool) (le : Int → Int → Bool)
    (order : List String) : Option (List IndexedEvent) :=
  let rows := order.filterMap s.getEventById
  if order.Perm ((s.events.filter keeps).map (·.id)) ∧
      rows.Pairwise (fun row later => le row.ledgerSequence later.ledgerSequence = true) then
    some rows
  else none

def listEvents (s : WebhookStore) (limit offset : Int) (order : List String) :
    Option (List IndexedEvent) :=
  (s.sortedEvents (fun _ => true) (fun a b => b ≤ a) order).map fun rows =>
    (rows.drop offset.toNat).take limit.toNat

def listEventsByType (s : WebhookStore) (eventType : String) (limit offset : Int)
    (order : List String) : Option (List IndexedEvent) :=
  (s.sortedEvents (fun event => event.eventType = eventType) (fun a b => b ≤ a) order).map
    fun rows => (rows.drop offset.toNat).take limit.toNat

def listEventsFromLedger (s : WebhookStore) (fromLedger limit : Int) (order : List String) :
    Option (List IndexedEvent) :=
  (s.sortedEvents (fun event => fromLedger ≤ event.ledgerSequence) (fun a b => a ≤ b) order).map
    fun rows => rows.take limit.toNat

def listSubscriptions (s : WebhookStore) : List Subscription :=
  s.subscriptions.filter (·.active)

def getStats (s : WebhookStore) (lastLedger : Option Int) : IndexerStats where
  totalEvents := s.events.length
  activeSubscriptions := s.listSubscriptions.length
  pendingDeliveries := s.deliveries.countP fun row => row.status = .pending
  deadDeliveries := s.deliveries.countP fun row => row.status = .dead
  lastIndexedLedger := lastLedger.getD 0
  eventCounts :=
    let types := s.events.map (·.eventType)
    types.dedup.map fun eventType => (eventType, types.count eventType)

end WebhookStore

/-! ## The service -/

/-- A row that a replay is to insert. -/
structure ReplayInsert where
  event : IndexedEvent
  sub : Subscription
  now : Instant

/-- A replay under way: the rows of the event that it is at, and the events after it. -/
structure ReplayTask where
  inserts : List ReplayInsert
  rest : List IndexedEvent
  count : ℕ

structure IndexerService where
  worker : DeliveryWorker
  lastLedger : Option Int
  replays : List ReplayTask

/-- What a request meets: whether the database fails, the clock, the ids that are made up, the
resolver of hosts and the order of rows. -/
structure Surroundings where
  fails : Bool
  now : Instant
  id : String
  secret : String
  lookupHost : String → UInt16 → Option (List IpAddr)
  order : List String

/-- What may happen next. A replay goes on with its next event or its next row, and ends; none
outlives a restart. -/
inductive ServiceAction where
  | index (event : IndexedEvent) (now : Instant) (uuid : String → String) (crashed : Bool)
  | setLastLedger (ledger : Int)
  | work (action : WorkerAction)
  | request (authorization : Option (List UInt8)) (route : ApiRoute) (met : Surroundings)
  | replayEvent (task : ℕ) (now : Instant)
  | replayInsert (task : ℕ) (id : String)
  | replayAnswer (task : ℕ)
  | replayFail (task : ℕ)
  | restart

/-- The steps that the worker takes by itself. -/
def WorkerAction.isWork : WorkerAction → Bool
  | .poll .. | .locate _ | .load _ | .readSecret .. | .send _ | .reply .. => true
  | .store _ | .replay .. | .restart => false

namespace IndexerService

def start : IndexerService := ⟨.start, none, []⟩

def store (s : IndexerService) : WebhookStore := s.worker.store

/-- A call of the store. -/
def call (config : ServiceConfig) (s : IndexerService) (action : StoreAction) :
    Option IndexerService :=
  (s.worker.step config.webhooks (.store action)).map fun worker => { s with worker }

/-- The handlers behind the check of the key, with the answer; a replay answers later. -/
def handle (config : ServiceConfig) (s : IndexerService) (met : Surroundings) :
    ApiRoute → Option (IndexerService × Option ApiResponse)
  | .health => some (s, some (.healthy "ok"))
  | .listEvents params =>
      if met.fails = true then some (s, some .internalServerError)
      else (s.store.listEvents (clampLimit params.limit 50) (clampOffset params.offset)
        met.order).map fun events => (s, some (.events events))
  | .listEventsByType eventType params =>
      if met.fails = true then some (s, some .internalServerError)
      else (s.store.listEventsByType eventType (clampLimit params.limit 50)
        (clampOffset params.offset) met.order).map fun events => (s, some (.events events))
  | .listSubscriptions =>
      if met.fails = true then some (s, some .internalServerError)
      else some (s, some (.subscriptions s.store.listSubscriptions))
  | .getStats =>
      if met.fails = true then some (s, some .internalServerError)
      else some (s, some (.stats (s.store.getStats s.lastLedger)))
  | .createSubscription req =>
      match validateWebhookUrl config.urls met.lookupHost req.url with
      | .error error => some (s, some (.unprocessable error.display))
      | .ok () =>
          if met.fails = true ∨ met.id ∈ s.store.subscriptions.map (·.id) then
            some (s, some (.databaseError "database error"))
          else (s.call config (.create req met.id met.secret met.now)).map fun t =>
            (t, some (.created
              { req with id := met.id, active := true, secret := met.secret, createdAt := met.now }))
  | .deleteSubscription id =>
      if met.fails = true then some (s, some .internalServerError)
      else (s.call config (.delete id)).map fun t => (t, some .noContent)
  | .replayEvents req =>
      if met.fails = true then some (s, some .internalServerError)
      else (s.store.listEventsFromLedger req.fromLedger (clampLimit req.limit 100) met.order).map
        fun events => ({ s with replays := s.replays ++ [⟨[], events, events.length⟩] }, none)

/-- A request to a route, with the answer to it. -/
def respond (config : ServiceConfig) (s : IndexerService) (authorization : Option (List UInt8))
    (route : ApiRoute) (met : Surroundings) : Option (IndexerService × Option ApiResponse) :=
  if route.isProtected = true ∧ hasApiKey config authorization = false then
    some (s, some .unauthorized)
  else s.handle config met route

/-- A replay goes on to a state of its task. -/
def goOn (s : IndexerService) (task : ℕ) (replay : ReplayTask) : IndexerService :=
  { s with replays := s.replays.set task replay }

/-- A replay has answered. -/
def finish (s : IndexerService) (task : ℕ) : IndexerService :=
  { s with replays := s.replays.eraseIdx task }

/-- What an action does, when it can happen. -/
def step (config : ServiceConfig) (s : IndexerService) : ServiceAction → Option IndexerService
  | .index event now uuid crashed => s.call config (.insert event now uuid crashed)
  | .setLastLedger ledger => some { s with lastLedger := some ledger }
  | .work action =>
      if action.isWork = true then
        (s.worker.step config.webhooks action).map fun worker => { s with worker }
      else none
  | .request authorization route met => (s.respond config authorization route met).map Prod.fst
  | .replayEvent task now =>
      match s.replays[task]? with
      | some ⟨[], event :: rest, count⟩ =>
          some (s.goOn task ⟨(s.store.listSubscriptions.filter (·.admits event)).map fun sub =>
            ⟨event, sub, now⟩, rest, count⟩)
      | _ => none
  | .replayInsert task id =>
      match s.replays[task]? with
      | some ⟨⟨event, sub, now⟩ :: inserts, rest, count⟩ =>
          match s.worker.step config.webhooks (.replay event sub id now) with
          | some worker => some ({ s with worker }.goOn task ⟨inserts, rest, count⟩)
          -- The row is refused, and the replay answers with an error.
          | none => some (s.finish task)
      | _ => none
  | .replayAnswer task =>
      match s.replays[task]? with
      | some ⟨[], [], _⟩ => some (s.finish task)
      | _ => none
  | .replayFail task => if task < s.replays.length then some (s.finish task) else none
  | .restart =>
      (s.worker.step config.webhooks .restart).map fun worker => { s with worker, replays := [] }

end IndexerService

end OnboardingBridge.Indexer
