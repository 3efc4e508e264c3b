import OnboardingBridge.Foundations.Machines
import OnboardingBridge.Indexer.Events

/-!
# Subscriptions of the indexer

A new event and the deliveries that it causes are written in one transaction, which
either commits or leaves nothing; every active subscription whose filters match gets a
row. An id that is in a table already is refused, and so is a row that refers to nothing.

Instants are what the texts of `created_at` and `next_retry_at` stand for.
-/

set_option autoImplicit false

namespace OnboardingBridge.Indexer

open Foundations

/-! ## Rows -/

/-- Nanoseconds. -/
abbrev Instant : Type := ℕ

structure CreateSubscription where
  url : String
  eventType : Option String
  assetFilter : Option String
  sourceFilter : Option String
  targetFilter : Option String

structure Subscription where
  id : String
  url : String
  eventType : Option String
  assetFilter : Option String
  sourceFilter : Option String
  targetFilter : Option String
  active : Bool
  secret : String
  createdAt : Instant

inductive DeliveryStatus where
  | pending
  | delivered
  | dead
deriving DecidableEq

structure WebhookDelivery where
  id : String
  subscriptionId : String
  eventId : String
  status : DeliveryStatus
  attempts : ℕ
  nextRetryAt : Option Instant
  lastError : Option String
  createdAt : Instant
deriving DecidableEq

/-- The tables that webhooks are about. -/
structure WebhookStore where
  events : List IndexedEvent
  subscriptions : List Subscription
  deliveries : List WebhookDelivery

/-! ## Filters -/

/-- A filter on a field of the data, which is not passed when the field is missing or no text. -/
def passesFilter (filter : Option String) (data : Json) (key : String) : Bool :=
  match filter with
  | none => true
  | some wanted =>
      match (data.get key).bind Json.asStr with
      | some value => value = wanted
      | none => false

def Subscription.admits (sub : Subscription) (event : IndexedEvent) : Bool :=
  (match sub.eventType with
    | none => true
    | some eventType => eventType = event.eventType) &&
  passesFilter sub.assetFilter event.data "asset" &&
  passesFilter sub.sourceFilter event.data "source" &&
  passesFilter sub.targetFilter event.data "target"

/-! ## Statements -/

namespace WebhookStore

def empty : WebhookStore := ⟨[], [], []⟩

/-- The row of a new delivery. -/
def newDelivery (event : IndexedEvent) (now : Instant) (id : String) (sub : Subscription) :
    WebhookDelivery where
  id
  subscriptionId := sub.id
  eventId := event.id
  status := .pending
  attempts := 0
  nextRetryAt := some now
  lastError := none
  createdAt := now

/-- `INSERT INTO webhook_deliveries`. -/
def insertDelivery (s : WebhookStore) (delivery : WebhookDelivery) : Option WebhookStore :=
  if delivery.id ∈ s.deliveries.map (·.id) then none
  else if delivery.subscriptionId ∈ s.subscriptions.map (·.id) ∧
      delivery.eventId ∈ s.events.map (·.id) then
    some { s with deliveries := s.deliveries ++ [delivery] }
  else none

/-- The loop over the active subscriptions; the id of a delivery is that which is made up for its
subscription. -/
def queueWebhookDeliveries (event : IndexedEvent) (now : Instant) (uuid : String → String) :
    List Subscription → WebhookStore → Option WebhookStore
  | [], s => some s
  | sub :: rest, s =>
      if sub.admits event = true then do
        let queued ← s.insertDelivery (newDelivery event now (uuid sub.id) sub)
        queued.queueWebhookDeliveries event now uuid rest
      else s.queueWebhookDeliveries event now uuid rest

/-- The transaction, with whether the event is new; nothing when a statement fails. -/
def insertEventAndQueueDeliveries (s : WebhookStore) (event : IndexedEvent) (now : Instant)
    (uuid : String → String) : Option (WebhookStore × Bool) :=
  if event.id ∈ s.events.map (·.id) then some (s, false)
  else do
    let queued ← WebhookStore.queueWebhookDeliveries event now uuid
      (s.subscriptions.filter (·.active)) { s with events := s.events ++ [event] }
    return (queued, true)

def createSubscription (s : WebhookStore) (req : CreateSubscription) (id secret : String)
    (now : Instant) : Option WebhookStore :=
  if id ∈ s.subscriptions.map (·.id) then none
  else some { s with
    subscriptions := s.subscriptions ++
      [{ req with id, active := true, secret, createdAt := now }] }

def deleteSubscription (s : WebhookStore) (id : String) : WebhookStore :=
  { s with subscriptions := s.subscriptions.map fun sub =>
      if sub.id = id then { sub with active := false } else sub }

end WebhookStore

/-! ## Steps -/

/-- A call, with the clock and the ids that are made up in it; a transaction may be cut off by a
crash. -/
inductive StoreAction where
  | insert (event : IndexedEvent) (now : Instant) (uuid : String → String) (crashed : Bool)
  | create (req : CreateSubscription) (id secret : String) (now : Instant)
  | delete (id : String)

/-- Every action can happen; what fails changes nothing. -/
def WebhookStore.step (s : WebhookStore) : StoreAction → Option WebhookStore
  | .insert event now uuid crashed =>
      if crashed = true then some s
      else some ((s.insertEventAndQueueDeliveries event now uuid).elim s Prod.fst)
  | .create req id secret now => some ((s.createSubscription req id secret now).getD s)
  | .delete id => some (s.deleteSubscription id)

/-- A call commits an event that is new. -/
def Commits (event : IndexedEvent) (label : Occurrence WebhookStore StoreAction) : Prop :=
  ∃ now uuid t, label.action = .insert event now uuid false ∧
    label.before.insertEventAndQueueDeliveries event now uuid = some (t, true)

/-- A filter wants a field of the data to have a value. -/
def Wants (filter : Option String) (data : Json) (key : String) : Prop :=
  ∀ wanted, filter = some wanted → data.get key = some (.string wanted)

/-- An active subscription is for an event. -/
structure Subscription.For (sub : Subscription) (event : IndexedEvent) : Prop where
  active : sub.active = true
  eventType : ∀ wanted, sub.eventType = some wanted → event.eventType = wanted
  asset : Wants sub.assetFilter event.data "asset"
  source : Wants sub.sourceFilter event.data "source"
  target : Wants sub.targetFilter event.data "target"

/-- When the event was committed, the subscription was there and for it. -/
def Causes (eventId subscriptionId : String) (label : Occurrence WebhookStore StoreAction) : Prop :=
  ∃ event, Commits event label ∧ event.id = eventId ∧
    ∃ sub ∈ label.before.subscriptions, sub.id = subscriptionId ∧ sub.For event

/-- How many deliveries of an event there are to a subscription. -/
def WebhookStore.deliveriesOf (s : WebhookStore) (eventId subscriptionId : String) : ℕ :=
  s.deliveries.countP fun row => row.eventId = eventId ∧ row.subscriptionId = subscriptionId

/-! ## Filters fail closed -/

theorem passesFilter_iff {filter : Option String} {data : Json} {key : String} :
    passesFilter filter data key = true ↔ Wants filter data key := by
  cases filter with
  | none => simp [passesFilter, Wants]
  | some wanted =>
      cases found : data.get key with
      | none => simp [passesFilter, Wants, found]
      | some value => cases value <;> simp [passesFilter, Wants, found, Json.asStr]

theorem Subscription.for_iff {sub : Subscription} {event : IndexedEvent} :
    sub.For event ↔ sub.active = true ∧ sub.admits event = true := by
  have typed : (match sub.eventType with
      | none => true
      | some eventType => decide (eventType = event.eventType)) = true ↔
        ∀ wanted, sub.eventType = some wanted → event.eventType = wanted := by
    cases sub.eventType <;> simp [eq_comm]
  simp only [Subscription.admits, Bool.and_eq_true, passesFilter_iff, typed]
  constructor
  · rintro ⟨active, eventType, asset, source, target⟩
    exact ⟨active, ⟨⟨eventType, asset⟩, source⟩, target⟩
  · rintro ⟨active, ⟨⟨eventType, asset⟩, source⟩, target⟩
    exact ⟨active, eventType, asset, source, target⟩

/-! ## What the transaction writes -/

namespace WebhookStore

variable {s t : WebhookStore} {event : IndexedEvent} {now : Instant} {uuid : String → String}

theorem insertDelivery_eq_some {delivery : WebhookDelivery}
    (inserted : s.insertDelivery delivery = some t) :
    t = { s with deliveries := s.deliveries ++ [delivery] } := by
  unfold insertDelivery at inserted
  split at inserted
  · cases inserted
  · split at inserted
    · exact (Option.some.inj inserted).symm
    · cases inserted

/-- The loop adds a row for every subscription that admits the event. -/
theorem queueWebhookDeliveries_eq_some {subs : List Subscription}
    (queued : s.queueWebhookDeliveries event now uuid subs = some t) :
    t = { s with deliveries := s.deliveries ++
      (subs.filter fun sub => sub.admits event).map fun sub =>
        newDelivery event now (uuid sub.id) sub } := by
  induction subs generalizing s with
  | nil =>
      obtain rfl := Option.some.inj queued
      simp
  | cons sub rest ih =>
      rw [queueWebhookDeliveries] at queued
      split at queued
      · next admitted =>
        obtain ⟨between, inserted, queued⟩ := Option.bind_eq_some_iff.mp queued
        obtain rfl := insertDelivery_eq_some inserted
        rw [ih queued, List.filter_cons, if_pos admitted, List.map_cons, List.append_assoc,
          List.singleton_append]
      · next refused =>
        rw [ih queued, List.filter_cons, if_neg refused]

/-- What a commit of a new event does. -/
theorem insertEvent_new
    (inserted : s.insertEventAndQueueDeliveries event now uuid = some (t, true)) :
    event.id ∉ s.events.map (·.id) ∧
      t = { s with
        events := s.events ++ [event]
        deliveries := s.deliveries ++
          (s.subscriptions.filter fun sub => sub.active && sub.admits event).map fun sub =>
            newDelivery event now (uuid sub.id) sub } := by
  unfold insertEventAndQueueDeliveries at inserted
  split at inserted
  · simp at inserted
  · next fresh =>
    obtain ⟨queued, made, same⟩ := Option.bind_eq_some_iff.mp inserted
    obtain rfl : queued = t := (Prod.mk.inj (Option.some.inj same)).1
    refine ⟨fresh, ?_⟩
    rw [queueWebhookDeliveries_eq_some made, List.filter_filter]
    simp only [Bool.and_comm]

theorem insertEvent_known
    (inserted : s.insertEventAndQueueDeliveries event now uuid = some (t, false)) : t = s := by
  unfold insertEventAndQueueDeliveries at inserted
  split at inserted
  · exact (Prod.mk.inj (Option.some.inj inserted)).1.symm
  · obtain ⟨queued, -, same⟩ := Option.bind_eq_some_iff.mp inserted
    simp at same

theorem createSubscription_distinct {req : CreateSubscription} {id secret : String}
    (created : s.createSubscription req id secret now = some t)
    (distinct : (s.subscriptions.map Subscription.id).Nodup) :
    (t.subscriptions.map Subscription.id).Nodup := by
  unfold createSubscription at created
  split at created
  · cases created
  · next fresh =>
    obtain rfl := Option.some.inj created
    rw [List.map_append]
    refine List.nodup_append.mpr ⟨distinct, List.nodup_singleton _, ?_⟩
    rintro known member _ new rfl
    obtain rfl : known = id := List.mem_singleton.mp new
    exact fresh member

theorem deleteSubscription_ids (s : WebhookStore) (id : String) :
    (s.deleteSubscription id).subscriptions.map Subscription.id =
      s.subscriptions.map Subscription.id := by
  rw [deleteSubscription, List.map_map]
  refine List.map_congr_left fun sub _ => ?_
  rw [Function.comp_apply]
  split <;> rfl

/-- A call commits a new event, or leaves the events and the deliveries as they are. -/
theorem step_cases {action : StoreAction} (taken : s.step action = some t) :
    (∃ event now uuid, action = .insert event now uuid false ∧
      s.insertEventAndQueueDeliveries event now uuid = some (t, true)) ∨
    (∀ event, ¬ Commits event ⟨s, action⟩) ∧
      ((s.subscriptions.map Subscription.id).Nodup →
        (t.subscriptions.map Subscription.id).Nodup) ∧
      t.events = s.events ∧ t.deliveries = s.deliveries := by
  cases action with
  | insert event now uuid crashed =>
    simp only [step] at taken
    cases crashed with
    | true =>
      obtain rfl := Option.some.inj taken
      refine .inr ⟨?_, fun distinct => distinct, rfl, rfl⟩
      rintro other ⟨_, _, _, same, -⟩
      cases same
    | false =>
      cases result : s.insertEventAndQueueDeliveries event now uuid with
      | none =>
        rw [result] at taken
        obtain rfl := Option.some.inj taken
        refine .inr ⟨?_, fun distinct => distinct, rfl, rfl⟩
        rintro other ⟨_, _, _, same, inserted⟩
        obtain ⟨rfl, rfl, rfl, -⟩ := StoreAction.insert.inj same
        cases result.symm.trans inserted
      | some pair =>
        obtain ⟨u, inserted⟩ := pair
        rw [result] at taken
        obtain rfl : u = t := Option.some.inj taken
        cases inserted with
        | true => exact .inl ⟨event, now, uuid, rfl, result⟩
        | false =>
          obtain rfl := insertEvent_known result
          refine .inr ⟨?_, fun distinct => distinct, rfl, rfl⟩
          rintro other ⟨_, _, _, same, inserted⟩
          obtain ⟨rfl, rfl, rfl, -⟩ := StoreAction.insert.inj same
          cases result.symm.trans inserted
  | create req id secret now =>
    have idle : ∀ event, ¬ Commits event ⟨s, .create req id secret now⟩ := by
      rintro other ⟨_, _, _, same, -⟩
      cases same
    cases created : s.createSubscription req id secret now with
    | none =>
      simp only [step, created] at taken
      obtain rfl := Option.some.inj taken
      exact .inr ⟨idle, fun distinct => distinct, rfl, rfl⟩
    | some u =>
      simp only [step, created] at taken
      obtain rfl : u = t := Option.some.inj taken
      refine .inr ⟨idle, createSubscription_distinct created, ?_⟩
      unfold createSubscription at created
      split at created
      · cases created
      · obtain rfl := Option.some.inj created
        exact ⟨rfl, rfl⟩
  | delete id =>
    obtain rfl := Option.some.inj taken
    refine .inr ⟨?_, fun distinct => ?_, rfl, rfl⟩
    · rintro other ⟨_, _, _, same, -⟩
      cases same
    · rwa [deleteSubscription_ids]

/-- Deliveries of new rows. -/
theorem countP_newDeliveries {subs : List Subscription} (nodup : (subs.map (·.id)).Nodup)
    (eventId subscriptionId : String) :
    ((subs.map fun sub => newDelivery event now (uuid sub.id) sub).countP fun row =>
        row.eventId = eventId ∧ row.subscriptionId = subscriptionId) =
      if event.id = eventId ∧ subscriptionId ∈ subs.map (·.id) then 1 else 0 := by
  have count : ((subs.map fun sub => newDelivery event now (uuid sub.id) sub).countP fun row =>
      row.eventId = eventId ∧ row.subscriptionId = subscriptionId) =
        if event.id = eventId then (subs.map (·.id)).count subscriptionId else 0 := by
    rw [List.countP_map, List.count, List.countP_map]
    split
    · next same =>
      refine List.countP_congr fun sub _ => ?_
      simp [newDelivery, same]
    · next other =>
      refine List.countP_eq_zero.mpr fun sub _ => ?_
      simp [newDelivery, other]
  rw [count, List.Nodup.count nodup]
  by_cases same : event.id = eventId <;> simp [same]

end WebhookStore

/-! ## Steps -/

namespace WebhookStore

/-- After some calls: the events are those that were committed, and every one has its deliveries. -/
structure FannedOut (past : List (Occurrence WebhookStore StoreAction)) (s : WebhookStore) :
    Prop where
  distinct : (s.subscriptions.map (·.id)).Nodup
  committed : ∀ eventId, eventId ∈ s.events.map (·.id) ↔
    ∃ label ∈ past, ∃ event, Commits event label ∧ event.id = eventId
  caused : ∀ eventId subscriptionId,
    (∃ label ∈ past, Causes eventId subscriptionId label) →
      s.deliveriesOf eventId subscriptionId = 1
  uncaused : ∀ eventId subscriptionId,
    (¬ ∃ label ∈ past, Causes eventId subscriptionId label) →
      s.deliveriesOf eventId subscriptionId = 0

variable {past : List (Occurrence WebhookStore StoreAction)} {s t : WebhookStore}

theorem exists_snoc {α : Type} {p : α → Prop} {l : List α} {a : α} :
    (∃ b ∈ l ++ [a], p b) ↔ (∃ b ∈ l, p b) ∨ p a := by
  simp only [List.mem_append, List.mem_singleton, or_and_right, exists_or, exists_eq_left]

/-- A call that commits nothing changes the subscriptions at most. -/
theorem FannedOut.idle {label : Occurrence WebhookStore StoreAction} (fanned : s.FannedOut past)
    (nothing : ∀ event, ¬ Commits event label) (distinct : (t.subscriptions.map (·.id)).Nodup)
    (events : t.events = s.events) (deliveries : t.deliveries = s.deliveries) :
    t.FannedOut (past ++ [label]) := by
  have causes : ∀ eventId subscriptionId,
      (∃ other ∈ past ++ [label], Causes eventId subscriptionId other) ↔
        ∃ other ∈ past, Causes eventId subscriptionId other := by
    intro eventId subscriptionId
    rw [exists_snoc]
    refine or_iff_left ?_
    rintro ⟨event, commits, -⟩
    exact nothing event commits
  refine ⟨distinct, fun eventId => ?_, fun eventId subscriptionId caused => ?_,
    fun eventId subscriptionId uncaused => ?_⟩
  · rw [events, fanned.committed, exists_snoc]
    refine (or_iff_left ?_).symm
    rintro ⟨event, commits, -⟩
    exact nothing event commits
  · rw [deliveriesOf, deliveries]
    exact fanned.caused eventId subscriptionId ((causes ..).mp caused)
  · rw [deliveriesOf, deliveries]
    exact fanned.uncaused eventId subscriptionId (mt (causes ..).mpr uncaused)

/-- A commit of a new event queues what it causes. -/
theorem FannedOut.commit {event : IndexedEvent} {now : Instant} {uuid : String → String}
    (fanned : s.FannedOut past)
    (inserted : s.insertEventAndQueueDeliveries event now uuid = some (t, true)) :
    t.FannedOut (past ++ [⟨s, .insert event now uuid false⟩]) := by
  have commits : ∀ other, Commits other ⟨s, .insert event now uuid false⟩ ↔ other = event := by
    intro other
    constructor
    · rintro ⟨_, _, _, same, -⟩
      exact (StoreAction.insert.inj same).1.symm
    · rintro rfl
      exact ⟨now, uuid, t, rfl, inserted⟩
  obtain ⟨fresh, rfl⟩ := insertEvent_new inserted
  have unknown : ∀ subscriptionId, s.deliveriesOf event.id subscriptionId = 0 := by
    intro subscriptionId
    refine fanned.uncaused event.id subscriptionId ?_
    rintro ⟨label, member, other, committed, same, -⟩
    exact fresh ((fanned.committed event.id).mpr ⟨label, member, other, committed, same⟩)
  have now_caused : ∀ eventId subscriptionId,
      Causes eventId subscriptionId ⟨s, .insert event now uuid false⟩ ↔
        event.id = eventId ∧ subscriptionId ∈
          (s.subscriptions.filter fun sub => sub.active && sub.admits event).map (·.id) := by
    intro eventId subscriptionId
    simp only [Causes, commits, Subscription.for_iff, List.mem_map, List.mem_filter,
      Bool.and_eq_true]
    constructor
    · rintro ⟨_, rfl, same, sub, member, named, wanted⟩
      exact ⟨same, sub, ⟨member, wanted⟩, named⟩
    · rintro ⟨same, sub, ⟨member, wanted⟩, named⟩
      exact ⟨event, rfl, same, sub, member, named, wanted⟩
  have kept : ∀ eventId subscriptionId,
      deliveriesOf { s with
        events := s.events ++ [event]
        deliveries := s.deliveries ++
          (s.subscriptions.filter fun sub => sub.active && sub.admits event).map fun sub =>
            newDelivery event now (uuid sub.id) sub } eventId subscriptionId =
      s.deliveriesOf eventId subscriptionId +
        if event.id = eventId ∧ subscriptionId ∈
          (s.subscriptions.filter fun sub => sub.active && sub.admits event).map (·.id)
        then 1 else 0 := by
    intro eventId subscriptionId
    rw [deliveriesOf, List.countP_append, countP_newDeliveries
      ((List.filter_sublist.map _).nodup fanned.distinct)]
    rfl
  refine ⟨fanned.distinct, fun eventId => ?_, fun eventId subscriptionId caused => ?_,
    fun eventId subscriptionId uncaused => ?_⟩
  · rw [exists_snoc, ← fanned.committed, List.map_append, List.mem_append]
    simp only [commits, exists_eq_left, List.map_singleton, List.mem_singleton]
    exact or_congr_right eq_comm
  · rw [kept]
    rcases exists_snoc.mp caused with before | new
    · have count := fanned.caused eventId subscriptionId before
      have other : event.id ≠ eventId := by
        rintro rfl
        rw [unknown] at count
        exact absurd count (by decide)
      rw [count, if_neg fun both => other both.1]
    · obtain ⟨rfl, listed⟩ := (now_caused ..).mp new
      rw [unknown, if_pos ⟨rfl, listed⟩]
  · obtain ⟨before, new⟩ := not_or.mp (mt exists_snoc.mpr uncaused)
    rw [kept, fanned.uncaused eventId subscriptionId before, if_neg (mt (now_caused ..).mpr new)]

/-- Every call keeps it. -/
theorem step_fannedOut {action : StoreAction} (fanned : s.FannedOut past)
    (taken : s.step action = some t) : t.FannedOut (past ++ [⟨s, action⟩]) := by
  rcases step_cases taken with ⟨event, now, uuid, rfl, inserted⟩ | ⟨nothing, distinct, same⟩
  · exact fanned.commit inserted
  · exact fanned.idle nothing (distinct fanned.distinct) same.1 same.2

/-- Events stay. -/
theorem step_keeps_event {action : StoreAction} {eventId : String} (taken : s.step action = some t)
    (known : eventId ∈ s.events.map (·.id)) : eventId ∈ t.events.map (·.id) := by
  rcases step_cases taken with ⟨event, now, uuid, rfl, inserted⟩ | ⟨-, -, same, -⟩
  · obtain ⟨-, rfl⟩ := insertEvent_new inserted
    rw [List.map_append]
    exact List.mem_append_left _ known
  · rwa [same]

theorem empty_fannedOut : empty.FannedOut [] where
  distinct := List.nodup_nil
  committed := by simp [empty]
  caused := by simp
  uncaused _ _ _ := rfl

end WebhookStore

/-! ## Runs -/

/-- In every run: the events that have a row are those that a call committed, every one in one call
only, and there is one delivery of an event to a subscription if the subscription was active and
for it when it was committed, and none otherwise. -/
theorem webhook_fan_out {labels : List (Occurrence WebhookStore StoreAction)} {t : WebhookStore}
    (run : Run (Occurs WebhookStore.step) .empty labels t) (eventId : String) :
    (eventId ∈ t.events.map (·.id) ↔
      ∃ label ∈ labels, ∃ event, Commits event label ∧ event.id = eventId) ∧
    (labels.Pairwise fun earlier later =>
      ¬ ((∃ event, Commits event earlier ∧ event.id = eventId) ∧
        ∃ event, Commits event later ∧ event.id = eventId)) ∧
    ∀ subscriptionId,
      ((∃ label ∈ labels, Causes eventId subscriptionId label) →
        t.deliveriesOf eventId subscriptionId = 1) ∧
      ((¬ ∃ label ∈ labels, Causes eventId subscriptionId label) →
        t.deliveriesOf eventId subscriptionId = 0) := by
  have fanned : t.FannedOut ([] ++ labels) := by
    refine run.traced (fun past s label t fanned taken => ?_) WebhookStore.empty_fannedOut
    obtain ⟨before, action⟩ := label
    obtain ⟨rfl, taken⟩ := taken
    exact WebhookStore.step_fannedOut fanned taken
  refine ⟨fanned.committed eventId, ?_, fun subscriptionId =>
    ⟨fanned.caused eventId subscriptionId, fanned.uncaused eventId subscriptionId⟩⟩
  refine Run.atMostOnce (fun s => eventId ∈ s.events.map (·.id)) _ ?_ ?_ run
  · rintro s ⟨before, action⟩ t ⟨rfl, taken⟩ ⟨event, ⟨now, uuid, u, rfl, inserted⟩, rfl⟩
    obtain rfl : u = t := by
      simpa [WebhookStore.step, inserted] using taken
    obtain ⟨fresh, rfl⟩ := WebhookStore.insertEvent_new inserted
    refine ⟨fresh, ?_⟩
    simp
  · rintro s ⟨before, action⟩ t ⟨rfl, taken⟩ known
    exact WebhookStore.step_keeps_event taken known

namespace Rehearsal

/-- A deposit for a target. -/
def fundedEvent : IndexedEvent where
  id := "E"
  eventType := "CAddressFunded"
  ledgerSequence := 1
  contractId := "C"
  txHash := "T"
  timestamp := "2024-01-01T00:00:00Z"
  data := .object [("target", .string "A")]

def toTarget : CreateSubscription where
  url := "https://example.com/hook"
  eventType := some "CAddressFunded"
  assetFilter := none
  sourceFilter := none
  targetFilter := some "A"

/-- The first call is cut off, and the event is polled again after the second. -/
def repolled : List StoreAction := [
  .create toTarget "S" "secret" 0,
  .insert fundedEvent 1 (fun sub => "1" ++ sub) true,
  .insert fundedEvent 2 (fun sub => "2" ++ sub) false,
  .insert fundedEvent 3 (fun sub => "3" ++ sub) false, .delete "S"]

end Rehearsal

open Rehearsal in
theorem webhook_fan_out_rehearsed : ∃ t, perform WebhookStore.step .empty repolled = some t ∧
    t.deliveriesOf "E" "S" = 1 := by
  obtain ⟨t, performed⟩ : ∃ t, perform WebhookStore.step .empty repolled = some t := ⟨_, rfl⟩
  obtain ⟨-, -, fans⟩ := webhook_fan_out (perform_run performed) "E"
  refine ⟨t, performed, (fans "S").1 ?_⟩
  refine ⟨_, .tail _ (.tail _ (.head _)), fundedEvent, ⟨2, _, _, rfl, rfl⟩, rfl, _, .head _, rfl, ?_⟩
  exact Subscription.for_iff.mpr ⟨rfl, rfl⟩

end OnboardingBridge.Indexer
