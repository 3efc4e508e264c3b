import OnboardingBridge.Indexer.Webhooks

/-!
# The life of a delivery

The rows that a poll has read and not settled yet are those that the store has, each in
one queue, so that a decision from what was read is one from what is stored. A row that
is settled stays as it is, and a pending one counts its requests.
-/

set_option autoImplicit false

namespace OnboardingBridge.Indexer

open Foundations Contract

/-! ## Calls of the store -/

namespace WebhookStore

/-- What a call may do at a time: add events and subscriptions, end some of these, and add rows that
are due at once. -/
structure Grows (now : Instant) (s : WebhookStore) (rows : List WebhookDelivery)
    (t : WebhookStore) : Prop where
  added : t.deliveries = s.deliveries ++ rows
  new : ∀ row ∈ rows, row.status = .pending ∧ row.attempts = 0 ∧ row.nextRetryAt = some now ∧
    row.createdAt = now
  ids : (s.deliveries.map (·.id)).Nodup → (t.deliveries.map (·.id)).Nodup
  subscriptions : ∀ id ∈ s.subscriptions.map (·.id), id ∈ t.subscriptions.map (·.id) ∧
    (s.activeSubscription id = none → t.activeSubscription id = none)
  events : ∀ id ∈ s.events.map (·.id), id ∈ t.events.map (·.id)
  refer : ∀ row ∈ rows, row.subscriptionId ∈ t.subscriptions.map (·.id) ∧
    row.eventId ∈ t.events.map (·.id)

variable {now : Instant} {rows later : List WebhookDelivery} {s t u : WebhookStore}

theorem Grows.refl (now : Instant) (s : WebhookStore) : s.Grows now [] s where
  added := (List.append_nil _).symm
  new _ member := absurd member List.not_mem_nil
  ids := id
  subscriptions _ member := ⟨member, id⟩
  events _ := id
  refer _ member := absurd member List.not_mem_nil

theorem Grows.trans (first : s.Grows now rows t) (second : t.Grows now later u) :
    s.Grows now (rows ++ later) u where
  added := by rw [second.added, first.added, List.append_assoc]
  new row member := (List.mem_append.mp member).elim (first.new row) (second.new row)
  ids := second.ids ∘ first.ids
  subscriptions id member := by
    obtain ⟨known, lost⟩ := first.subscriptions id member
    obtain ⟨still, lostOn⟩ := second.subscriptions id known
    exact ⟨still, lostOn ∘ lost⟩
  events id := second.events id ∘ first.events id
  refer row member := by
    rcases List.mem_append.mp member with before | now
    · obtain ⟨subscription, event⟩ := first.refer row before
      exact ⟨(second.subscriptions _ subscription).1, second.events _ event⟩
    · exact second.refer row now

theorem insertDelivery_grows {event : IndexedEvent} {id : String} {sub : Subscription}
    (inserted : s.insertDelivery (newDelivery event now id sub) = some t) :
    s.Grows now [newDelivery event now id sub] t := by
  unfold insertDelivery at inserted
  split at inserted
  · cases inserted
  · next fresh =>
    split at inserted
    · next known =>
      obtain rfl := Option.some.inj inserted
      have only : ∀ row ∈ [newDelivery event now id sub], row = newDelivery event now id sub :=
        fun row => List.mem_singleton.mp
      refine ⟨rfl, fun row member => ?_, fun nodup => ?_, fun _ member => ⟨member, fun lost => lost⟩,
        fun _ member => member, fun row member => ?_⟩
      · obtain rfl := only row member
        exact ⟨rfl, rfl, rfl, rfl⟩
      · rw [List.map_append]
        refine List.nodup_append.mpr ⟨nodup, List.nodup_singleton _, ?_⟩
        rintro known member _ new rfl
        obtain rfl : known = (newDelivery event now id sub).id := List.mem_singleton.mp new
        exact fresh member
      · obtain rfl := only row member
        exact known
    · cases inserted

theorem queueWebhookDeliveries_grows {event : IndexedEvent} {uuid : String → String}
    {subs : List Subscription} (queued : s.queueWebhookDeliveries event now uuid subs = some t) :
    ∃ rows, s.Grows now rows t := by
  induction subs generalizing s with
  | nil =>
      obtain rfl := Option.some.inj queued
      exact ⟨[], .refl now s⟩
  | cons sub rest ih =>
      rw [queueWebhookDeliveries] at queued
      split at queued
      · obtain ⟨between, inserted, queued⟩ := Option.bind_eq_some_iff.mp queued
        obtain ⟨rows, grows⟩ := ih queued
        exact ⟨_, (insertDelivery_grows inserted).trans grows⟩
      · exact ih queued

theorem addEvent_grows (now : Instant) (s : WebhookStore) (event : IndexedEvent) :
    s.Grows now [] { s with events := s.events ++ [event] } where
  added := (List.append_nil _).symm
  new _ member := absurd member List.not_mem_nil
  ids := id
  subscriptions _ member := ⟨member, id⟩
  events id member := by
    rw [List.map_append]
    exact List.mem_append_left _ member
  refer _ member := absurd member List.not_mem_nil

theorem activeSubscription_eq_none {id : String} :
    s.activeSubscription id = none ↔ ∀ sub ∈ s.subscriptions, sub.id = id → sub.active = false := by
  simp [activeSubscription, List.find?_eq_none]

theorem insertEvent_grows {event : IndexedEvent} {uuid : String → String} {new : Bool}
    (inserted : s.insertEventAndQueueDeliveries event now uuid = some (t, new)) :
    ∃ rows, s.Grows now rows t := by
  unfold insertEventAndQueueDeliveries at inserted
  split at inserted
  · obtain rfl := (Prod.mk.inj (Option.some.inj inserted)).1
    exact ⟨[], .refl now s⟩
  · obtain ⟨queued, made, same⟩ := Option.bind_eq_some_iff.mp inserted
    obtain rfl := (Prod.mk.inj (Option.some.inj same)).1
    obtain ⟨rows, grows⟩ := queueWebhookDeliveries_grows made
    exact ⟨_, (addEvent_grows now s event).trans grows⟩

theorem createSubscription_grows {req : CreateSubscription} {id secret : String}
    (created : s.createSubscription req id secret now = some t) : s.Grows now [] t := by
  unfold createSubscription at created
  split at created
  · cases created
  · next fresh =>
    obtain rfl := Option.some.inj created
    refine ⟨(List.append_nil _).symm, fun _ member => absurd member List.not_mem_nil,
      fun nodup => nodup, fun known member => ⟨?_, fun lost => ?_⟩, fun _ member => member,
      fun _ member => absurd member List.not_mem_nil⟩
    · rw [List.map_append]
      exact List.mem_append_left _ member
    · refine activeSubscription_eq_none.mpr fun sub listed named => ?_
      rcases List.mem_append.mp listed with before | now
      · exact activeSubscription_eq_none.mp lost sub before named
      · obtain rfl := List.mem_singleton.mp now
        obtain rfl : id = known := named
        exact absurd member fresh

theorem deleteSubscription_grows (now : Instant) (s : WebhookStore) (id : String) :
    s.Grows now [] (s.deleteSubscription id) := by
  refine ⟨(List.append_nil _).symm, fun _ member => absurd member List.not_mem_nil,
    fun nodup => nodup, fun known member => ⟨?_, fun lost => ?_⟩, fun _ member => member,
    fun _ member => absurd member List.not_mem_nil⟩
  · rwa [deleteSubscription_ids]
  · refine activeSubscription_eq_none.mpr fun sub listed named => ?_
    obtain ⟨old, member, rfl⟩ := List.mem_map.mp listed
    by_cases here : old.id = id
    · rw [if_pos here]
    · rw [if_neg here] at named ⊢
      exact activeSubscription_eq_none.mp lost old member named

/-- A call that reads no time adds no row. -/
theorem step_grows {action : StoreAction} (taken : s.step action = some t) (latest : Instant) :
    ∃ rows, s.Grows (action.now.getD latest) rows t := by
  cases action with
  | insert event now uuid crashed =>
    simp only [step] at taken
    split at taken
    · obtain rfl := Option.some.inj taken
      exact ⟨[], .refl _ s⟩
    · cases result : s.insertEventAndQueueDeliveries event now uuid with
      | none =>
        rw [result] at taken
        obtain rfl := Option.some.inj taken
        exact ⟨[], .refl _ s⟩
      | some pair =>
        rw [result] at taken
        obtain rfl := Option.some.inj taken
        exact insertEvent_grows result
  | create req id secret now =>
    cases created : s.createSubscription req id secret now with
    | none =>
      simp only [step, created] at taken
      obtain rfl := Option.some.inj taken
      exact ⟨[], .refl _ s⟩
    | some u =>
      simp only [step, created] at taken
      obtain rfl : u = t := Option.some.inj taken
      exact ⟨[], createSubscription_grows created⟩
  | delete id =>
    obtain rfl := Option.some.inj taken
    exact ⟨[], deleteSubscription_grows _ s id⟩

end WebhookStore

/-! ## Queues -/

/-- A pushed delivery joins those of the queues. -/
theorem pushDelivery_perm (delivery : WebhookDelivery)
    (queues : List (String × List WebhookDelivery)) :
    ((pushDelivery delivery queues).flatMap Prod.snd).Perm
      (queues.flatMap Prod.snd ++ [delivery]) := by
  induction queues with
  | nil => exact .refl _
  | cons queue rest ih =>
      rw [pushDelivery]
      split
      · rw [List.flatMap_cons, List.flatMap_cons, List.append_assoc, List.append_assoc]
        exact (List.perm_append_comm).append_left _
      · rw [List.flatMap_cons, List.flatMap_cons, List.append_assoc]
        exact ih.append_left _

/-- The queues have all deliveries that were read. -/
theorem subscriptionQueues_perm (deliveries : List WebhookDelivery) :
    ((subscriptionQueues deliveries).flatMap Prod.snd).Perm deliveries := by
  induction deliveries using List.reverseRecOn with
  | nil => exact .refl _
  | append_singleton earlier delivery ih =>
      rw [subscriptionQueues, List.foldl_append, List.foldl_cons, List.foldl_nil]
      exact (pushDelivery_perm delivery _).trans (ih.append_right _)

/-- The deliveries whose request is under way. -/
def SubscriptionQueue.sending (queue : SubscriptionQueue) : List String :=
  match queue.task with
  | .sent delivery => [delivery.id]
  | .idle | .located .. | .loaded .. | .signing .. => []

theorem entries_sent (delivery : WebhookDelivery) (rest : List WebhookDelivery) :
    (SubscriptionQueue.mk (.sent delivery) rest).entries = delivery :: rest := rfl

theorem entries_idle (delivery : WebhookDelivery) (rest : List WebhookDelivery) :
    (SubscriptionQueue.mk .idle (delivery :: rest)).entries = delivery :: rest := rfl

theorem entries_located (delivery : WebhookDelivery) (url : String) (rest : List WebhookDelivery) :
    (SubscriptionQueue.mk (.located delivery url) rest).entries = delivery :: rest := rfl

theorem entries_signing (delivery : WebhookDelivery) (url : String) (event : IndexedEvent)
    (timestamp secret : String) (rest : List WebhookDelivery) :
    (SubscriptionQueue.mk (.signing delivery url event timestamp secret) rest).entries =
      delivery :: rest := rfl

theorem SubscriptionQueue.sending_sublist (queue : SubscriptionQueue) :
    queue.sending.Sublist (queue.entries.map (·.id)) := by
  obtain ⟨task, rest⟩ := queue
  cases task with
  | idle => exact List.nil_sublist _
  | located delivery url => exact List.nil_sublist _
  | loaded delivery url event => exact List.nil_sublist _
  | signing delivery url event timestamp secret => exact List.nil_sublist _
  | sent delivery => exact (List.nil_sublist _).cons_cons delivery.id

namespace DeliveryWorker

def inFlight (s : DeliveryWorker) : List String := s.queues.flatMap SubscriptionQueue.sending

theorem inFlight_sublist (s : DeliveryWorker) : s.inFlight.Sublist (s.entries.map (·.id)) := by
  rw [inFlight, entries, List.map_flatMap]
  induction s.queues with
  | nil => exact .slnil
  | cons queue rest ih =>
      rw [List.flatMap_cons, List.flatMap_cons]
      exact queue.sending_sublist.append ih

/-- What stands around a queue that goes on. -/
theorem activeQueue_split {s : DeliveryWorker} {queue : ℕ} {q : SubscriptionQueue}
    (found : s.activeQueue queue = some q) : ∃ before after, s.queues = before ++ q :: after ∧
      ∀ task rest, (s.advance queue task rest).queues = before ++ ⟨task, rest⟩ :: after := by
  unfold activeQueue at found
  split at found
  · obtain ⟨within, rfl⟩ := List.getElem?_eq_some_iff.mp found
    refine ⟨s.queues.take queue, s.queues.drop (queue + 1), ?_, fun task rest => ?_⟩
    · rw [← List.drop_eq_getElem_cons within, List.take_append_drop]
    · exact List.set_eq_take_append_cons_drop.trans (if_pos within)
  · cases found

/-! ## Invariant -/

/-- What was sent for a delivery. -/
def requestsFor (s : DeliveryWorker) (id : String) : List WebhookRequest :=
  (s.requests.filter fun sent => sent.1.id = id).map Prod.snd

/-- How many requests for a delivery failed. -/
def failuresOf (s : DeliveryWorker) (id : String) : ℕ :=
  s.answered.countP fun answer => answer.1.id = id ∧ answer.2 = false

/-- A row and its requests: they are numbered, and the row counts those that ended while it is
pending. -/
structure Accounts (s : DeliveryWorker) (row : WebhookDelivery) : Prop where
  numbered : (s.requestsFor row.id).map (fun request =>
      (request.payload.deliveryId, request.payload.attempt)) =
    (List.range' 1 (s.requestsFor row.id).length).map fun attempt => (row.id, attempt)
  pending : row.status = .pending → row.attempts < maxRetries ∧
    s.failuresOf row.id = row.attempts ∧
    (s.requestsFor row.id).length = row.attempts + s.inFlight.count row.id
  settled : row.status ≠ .pending → (s.requestsFor row.id).length ≤ maxRetries
  dead : row.status = .dead → s.failuresOf row.id = maxRetries ∨
    s.store.activeSubscription row.subscriptionId = none

/-- The rows refer to what there is, and the entries of the queues are pending rows. -/
structure Consistent (s : DeliveryWorker) : Prop where
  ids : (s.store.deliveries.map (·.id)).Nodup
  subscriptions : ∀ row ∈ s.store.deliveries,
    row.subscriptionId ∈ s.store.subscriptions.map (·.id)
  events : ∀ row ∈ s.store.deliveries, row.eventId ∈ s.store.events.map (·.id)
  distinct : (s.entries.map (·.id)).Nodup
  current : ∀ entry ∈ s.entries, entry ∈ s.store.deliveries ∧ entry.status = .pending
  accounts : ∀ row ∈ s.store.deliveries, s.Accounts row
  requested : ∀ sent ∈ s.requests, sent.1.id ∈ s.store.deliveries.map (·.id)
  answers : ∀ answer ∈ s.answered, answer.1.id ∈ s.store.deliveries.map (·.id)

section Rows

variable {s t : DeliveryWorker}

theorem Consistent.row_eq (consistent : s.Consistent) {row other : WebhookDelivery}
    (member : row ∈ s.store.deliveries) (member' : other ∈ s.store.deliveries)
    (same : row.id = other.id) : row = other :=
  List.inj_on_of_nodup_map consistent.ids member member' same

theorem requestsFor_nil {id : String} (none : ∀ sent ∈ s.requests, sent.1.id ≠ id) :
    s.requestsFor id = [] := by
  rw [requestsFor, List.filter_eq_nil_iff.mpr fun sent member => by simpa using none sent member,
    List.map_nil]

theorem failuresOf_zero {id : String} (none : ∀ answer ∈ s.answered, answer.1.id ≠ id) :
    s.failuresOf id = 0 := by
  refine List.countP_eq_zero.mpr fun answer member => ?_
  simp [none answer member]

/-- Only what concerns the row matters. -/
theorem Accounts.of_same {row : WebhookDelivery} (accounts : s.Accounts row)
    (requests : t.requestsFor row.id = s.requestsFor row.id)
    (failures : t.failuresOf row.id = s.failuresOf row.id)
    (flight : t.inFlight.count row.id = s.inFlight.count row.id)
    (lost : s.store.activeSubscription row.subscriptionId = none →
      t.store.activeSubscription row.subscriptionId = none) : t.Accounts row := by
  obtain ⟨numbered, pending, settled, dead⟩ := accounts
  constructor
  · rwa [requests]
  · rwa [requests, failures, flight]
  · rwa [requests]
  · intro died
    rw [failures]
    exact (dead died).imp_right lost

/-- The entries may become fewer, and tasks may change. -/
theorem Consistent.requeue (consistent : s.Consistent) (store : t.store = s.store)
    (requests : t.requests = s.requests) (answered : t.answered = s.answered)
    (fewer : t.entries.Sublist s.entries)
    (flight : ∀ id, t.inFlight.count id = s.inFlight.count id) : t.Consistent where
  ids := store ▸ consistent.ids
  subscriptions := store ▸ consistent.subscriptions
  events := store ▸ consistent.events
  distinct := (fewer.map _).nodup consistent.distinct
  current entry member := store ▸ consistent.current entry (fewer.subset member)
  accounts row member := by
    refine (consistent.accounts row (store ▸ member)).of_same ?_ ?_ (flight row.id) ?_
    · rw [requestsFor, requests, requestsFor]
    · rw [failuresOf, answered, failuresOf]
    · rw [store]
      exact id
  requested := by rw [requests, store]; exact consistent.requested
  answers := by rw [answered, store]; exact consistent.answers

/-- A delivery of the queues is settled: its row changes, and it is no entry any more. -/
theorem Consistent.settle {delivery : WebhookDelivery} {change : WebhookDelivery → WebhookDelivery}
    (consistent : s.Consistent) (entries : s.entries.Perm (delivery :: t.entries))
    (store : t.store = s.store.updateDelivery delivery.id change)
    (same : (change delivery).id = delivery.id ∧
      (change delivery).subscriptionId = delivery.subscriptionId ∧
      (change delivery).eventId = delivery.eventId)
    (requests : t.requests = s.requests)
    (failures : ∀ id, id ≠ delivery.id → t.failuresOf id = s.failuresOf id)
    (answers : ∀ answer ∈ t.answered, answer ∈ s.answered ∨ answer.1 = delivery)
    (flight : ∀ id, id ≠ delivery.id → t.inFlight.count id = s.inFlight.count id)
    (accounts : t.Accounts (change delivery)) : t.Consistent := by
  have head := consistent.current delivery (entries.mem_iff.mpr List.mem_cons_self)
  have distinct := ((entries.map _).nodup_iff.mp consistent.distinct)
  rw [List.map_cons, List.nodup_cons] at distinct
  have rows : t.store.deliveries = s.store.deliveries.map fun row =>
      if row.id = delivery.id then change row else row := by rw [store]; rfl
  have change_row : ∀ row ∈ s.store.deliveries,
      (row = delivery ∧ (if row.id = delivery.id then change row else row) = change delivery) ∨
      (row.id ≠ delivery.id ∧ (if row.id = delivery.id then change row else row) = row) := by
    intro row member
    by_cases here : row.id = delivery.id
    · obtain rfl := consistent.row_eq member head.1 here
      exact .inl ⟨rfl, if_pos rfl⟩
    · exact .inr ⟨here, if_neg here⟩
  have ids : t.store.deliveries.map (·.id) = s.store.deliveries.map (·.id) := by
    rw [rows, List.map_map]
    refine List.map_congr_left fun row member => ?_
    rcases change_row row member with ⟨rfl, changed⟩ | ⟨-, kept⟩
    · rw [Function.comp_apply, changed, same.1]
    · rw [Function.comp_apply, kept]
  have members : ∀ row ∈ t.store.deliveries, row = change delivery ∨
      (row ∈ s.store.deliveries ∧ row.id ≠ delivery.id) := by
    intro row member
    rw [rows] at member
    obtain ⟨old, known, rfl⟩ := List.mem_map.mp member
    rcases change_row old known with ⟨-, changed⟩ | ⟨other, kept⟩
    · exact .inl changed
    · exact .inr ⟨kept.symm ▸ known, kept.symm ▸ other⟩
  refine ⟨ids ▸ consistent.ids, fun row member => ?_, fun row member => ?_, distinct.2,
    fun entry member => ?_, fun row member => ?_, ?_, fun answer member => ?_⟩
  · rw [store]
    rcases members row member with rfl | ⟨known, -⟩
    · exact same.2.1 ▸ consistent.subscriptions delivery head.1
    · exact consistent.subscriptions row known
  · rw [store]
    rcases members row member with rfl | ⟨known, -⟩
    · exact same.2.2 ▸ consistent.events delivery head.1
    · exact consistent.events row known
  · obtain ⟨known, pending⟩ := consistent.current entry
      (entries.mem_iff.mpr (List.mem_cons_of_mem _ member))
    have other : entry.id ≠ delivery.id := fun here =>
      distinct.1 (here ▸ List.mem_map_of_mem member)
    refine ⟨?_, pending⟩
    rw [rows]
    exact List.mem_map.mpr ⟨entry, known, if_neg other⟩
  · rcases members row member with rfl | ⟨known, other⟩
    · exact accounts
    · refine (consistent.accounts row known).of_same ?_ (failures _ other) (flight _ other) ?_
      · rw [requestsFor, requests, requestsFor]
      · rw [store]
        exact id
  · rw [requests, ids]
    exact consistent.requested
  · rw [ids]
    rcases answers answer member with before | now
    · exact consistent.answers answer before
    · exact now ▸ List.mem_map_of_mem head.1

/-- A request is sent for an entry, whose request was not under way. -/
theorem Consistent.send {delivery : WebhookDelivery} {request : WebhookRequest}
    (consistent : s.Consistent) (member : delivery ∈ s.entries) (store : t.store = s.store)
    (entries : t.entries = s.entries) (answered : t.answered = s.answered)
    (requests : t.requests = s.requests ++ [(delivery, request)])
    (payload : request.payload.deliveryId = delivery.id ∧
      request.payload.attempt = delivery.attempts + 1)
    (idle : s.inFlight.count delivery.id = 0)
    (sending : t.inFlight.count delivery.id = 1)
    (flight : ∀ id, id ≠ delivery.id → t.inFlight.count id = s.inFlight.count id) :
    t.Consistent := by
  obtain ⟨known, waits⟩ := consistent.current delivery member
  refine ⟨store ▸ consistent.ids, store ▸ consistent.subscriptions, store ▸ consistent.events,
    entries ▸ consistent.distinct, fun entry member => ?_, fun row member => ?_, ?_, ?_⟩
  · rw [store]
    exact consistent.current entry (entries ▸ member)
  · rw [store] at member
    have accounts := consistent.accounts row member
    have failures : t.failuresOf row.id = s.failuresOf row.id := by
      rw [failuresOf, answered, failuresOf]
    by_cases here : row.id = delivery.id
    · obtain rfl := consistent.row_eq member known here
      obtain ⟨below, failed, counted⟩ := accounts.pending waits
      have sent : t.requestsFor row.id = s.requestsFor row.id ++ [request] := by
        rw [requestsFor, requests, List.filter_append, List.map_append, requestsFor]
        simp
      rw [idle, Nat.add_zero] at counted
      refine ⟨?_, fun _ => ⟨below, failures.trans failed, ?_⟩, fun settled => absurd waits settled,
        fun dead => absurd (waits.symm.trans dead) (by decide)⟩
      · rw [sent, List.length_append, List.length_singleton, List.range'_1_concat,
          List.map_append, List.map_append, accounts.numbered, List.map_singleton,
          List.map_singleton, payload.1, payload.2, counted, Nat.add_comm 1]
      · rw [sent, List.length_append, counted, sending, List.length_singleton]
    · refine accounts.of_same ?_ failures (flight _ here) (by rw [store]; exact id)
      rw [requestsFor, requests, List.filter_append, requestsFor]
      simp [Ne.symm here]
  · rw [requests, store]
    intro sent member
    rcases List.mem_append.mp member with before | now
    · exact consistent.requested sent before
    · obtain rfl := List.mem_singleton.mp now
      exact List.mem_map_of_mem known
  · rw [answered, store]
    exact consistent.answers

/-- A call of the store adds rows that have no requests yet. -/
theorem Consistent.call {now : Instant} {rows : List WebhookDelivery} (consistent : s.Consistent)
    (queues : t.queues = s.queues) (requests : t.requests = s.requests)
    (answered : t.answered = s.answered) (grows : s.store.Grows now rows t.store) :
    t.Consistent := by
  obtain ⟨added, new, unique, subscriptions, events, refer⟩ := grows
  have entries : t.entries = s.entries := by
    rw [DeliveryWorker.entries, queues, DeliveryWorker.entries]
  have flight : t.inFlight = s.inFlight := by rw [inFlight, queues, inFlight]
  have ids := unique consistent.ids
  have known : ∀ id ∈ s.store.deliveries.map (·.id), id ∈ t.store.deliveries.map (·.id) := by
    intro id member
    rw [added, List.map_append]
    exact List.mem_append_left _ member
  have fresh : ∀ row ∈ rows, row.id ∉ s.store.deliveries.map (·.id) := by
    intro row member before
    rw [added, List.map_append] at ids
    exact List.disjoint_of_nodup_append ids before (List.mem_map_of_mem member)
  refine ⟨ids, fun row member => ?_, fun row member => ?_, entries ▸ consistent.distinct,
    fun entry member => ?_, fun row member => ?_, ?_, ?_⟩
  · rcases List.mem_append.mp (added ▸ member) with before | now
    · exact (subscriptions _ (consistent.subscriptions row before)).1
    · exact (refer row now).1
  · rcases List.mem_append.mp (added ▸ member) with before | now
    · exact events _ (consistent.events row before)
    · exact (refer row now).2
  · obtain ⟨here, waits⟩ := consistent.current entry (entries ▸ member)
    exact ⟨added ▸ List.mem_append_left _ here, waits⟩
  · have sent : ∀ id, t.requestsFor id = s.requestsFor id := fun id => by
      rw [requestsFor, requests, requestsFor]
    have failed : ∀ id, t.failuresOf id = s.failuresOf id := fun id => by
      rw [failuresOf, answered, failuresOf]
    rcases List.mem_append.mp (added ▸ member) with before | now
    · refine (consistent.accounts row before).of_same (sent _) (failed _) (by rw [flight]) ?_
      exact (subscriptions _ (consistent.subscriptions row before)).2
    · obtain ⟨waits, untried, -⟩ := new row now
      have unsent : t.requestsFor row.id = [] := by
        rw [sent]
        exact requestsFor_nil fun one member here =>
          fresh row now (here ▸ consistent.requested one member)
      have unanswered : t.failuresOf row.id = 0 := by
        rw [failed]
        exact failuresOf_zero fun one member here =>
          fresh row now (here ▸ consistent.answers one member)
      have idle : t.inFlight.count row.id = 0 := by
        refine List.count_eq_zero.mpr fun flying => ?_
        rw [flight] at flying
        obtain ⟨entry, member, here⟩ := List.mem_map.mp (s.inFlight_sublist.subset flying)
        exact fresh row now (here ▸ List.mem_map_of_mem (consistent.current entry member).1)
      refine ⟨by rw [unsent]; rfl, fun _ => ?_, fun settled => absurd waits settled,
        fun dead => absurd (waits.symm.trans dead) (by decide)⟩
      rw [unsent, unanswered, idle, untried]
      exact ⟨by decide, rfl, rfl⟩
  · rw [requests]
    exact fun sent member => known _ (consistent.requested sent member)
  · rw [answered]
    exact fun answer member => known _ (consistent.answers answer member)

/-! ## Steps -/

/-- A queue that goes on with the same entries, or fewer. -/
theorem Consistent.advance {queue : ℕ} {q : SubscriptionQueue} {task : DeliveryTask}
    {rest : List WebhookDelivery} (consistent : s.Consistent) (found : s.activeQueue queue = some q)
    (fewer : (SubscriptionQueue.mk task rest).entries.Sublist q.entries)
    (sending : (SubscriptionQueue.mk task rest).sending = q.sending) :
    (s.advance queue task rest).Consistent := by
  obtain ⟨before, after, shape, advanced⟩ := activeQueue_split found
  refine consistent.requeue rfl rfl rfl ?_ fun id => ?_
  · rw [entries, advanced, entries, shape, List.flatMap_append, List.flatMap_append,
      List.flatMap_cons, List.flatMap_cons]
    exact (List.Sublist.refl _).append (fewer.append (.refl _))
  · rw [inFlight, advanced, inFlight, shape, List.flatMap_append, List.flatMap_append,
      List.flatMap_cons, List.flatMap_cons, sending]

/-- The entries and what is under way, when a queue is done with its delivery. -/
theorem activeQueue_settle {queue : ℕ} {delivery : WebhookDelivery} {q : SubscriptionQueue}
    {rest : List WebhookDelivery} (found : s.activeQueue queue = some q)
    (first : q.entries = delivery :: rest) :
    s.entries.Perm (delivery :: (s.advance queue .idle rest).entries) ∧
      ∀ id, s.inFlight.count id = (s.advance queue .idle rest).inFlight.count id +
        q.sending.count id := by
  obtain ⟨before, after, shape, advanced⟩ := activeQueue_split found
  refine ⟨?_, fun id => ?_⟩
  · rw [entries, shape, entries, advanced, List.flatMap_append, List.flatMap_append,
      List.flatMap_cons, List.flatMap_cons, first]
    exact List.perm_middle
  · rw [inFlight, shape, inFlight, advanced, List.flatMap_append, List.flatMap_append,
      List.flatMap_cons, List.flatMap_cons, List.count_append, List.count_append,
      List.count_append, List.count_append]
    simp only [SubscriptionQueue.sending, List.count_nil]
    omega

theorem Consistent.inFlight_le (consistent : s.Consistent) (id : String) :
    s.inFlight.count id ≤ 1 :=
  List.nodup_iff_count_le_one.mp (s.inFlight_sublist.nodup consistent.distinct) id

/-- A row that is settled has at most five requests. -/
theorem Consistent.accounts_settled {delivery row : WebhookDelivery} (consistent : s.Consistent)
    (member : delivery ∈ s.entries) (same : row.id = delivery.id) (requests : t.requests = s.requests)
    (settled : row.status ≠ .pending)
    (dead : row.status = .dead → t.failuresOf row.id = maxRetries ∨
      t.store.activeSubscription row.subscriptionId = none) : t.Accounts row := by
  obtain ⟨known, waits⟩ := consistent.current delivery member
  obtain ⟨numbered, pending, -, -⟩ := consistent.accounts delivery known
  obtain ⟨below, -, counted⟩ := pending waits
  have sent : t.requestsFor row.id = s.requestsFor delivery.id := by
    rw [same, requestsFor, requests, requestsFor]
  refine ⟨by rw [sent, same]; exact numbered, fun waits => absurd waits settled, fun _ => ?_, dead⟩
  have flying := consistent.inFlight_le delivery.id
  rw [sent, counted]
  omega

/-- An entry whose subscription or event is missing is dead without a request. -/
theorem Consistent.markDead {queue : ℕ} {delivery : WebhookDelivery} {q : SubscriptionQueue}
    {rest : List WebhookDelivery} {error : String} (consistent : s.Consistent)
    (found : s.activeQueue queue = some q) (first : q.entries = delivery :: rest)
    (idle : q.sending = [])
    (lost : s.store.activeSubscription delivery.subscriptionId = none) :
    Consistent { s.advance queue .idle rest with
      store := s.store.markDeliveryDead delivery.id error } := by
  obtain ⟨entries, flight⟩ := activeQueue_settle found first
  have member : delivery ∈ s.entries := entries.mem_iff.mpr List.mem_cons_self
  refine consistent.settle entries rfl ⟨rfl, rfl, rfl⟩ rfl (fun _ _ => rfl)
    (fun answer => .inl) (fun id _ => ?_) ?_
  · rw [flight, idle]
    rfl
  · exact consistent.accounts_settled member rfl rfl nofun fun _ => .inr lost

section Answers

variable {queue : ℕ} {delivery : WebhookDelivery} {rest : List WebhookDelivery}

/-- A request ends, and the row of its delivery changes. -/
def answer (s : DeliveryWorker) (queue : ℕ) (delivery : WebhookDelivery)
    (rest : List WebhookDelivery) (now : Instant) (store : WebhookStore) (succeeded : Bool) :
    DeliveryWorker :=
  { (s.read now).advance queue .idle rest with
    store, answered := s.answered ++ [(delivery, succeeded)] }

theorem Consistent.answer {change : WebhookDelivery → WebhookDelivery} {now : Instant}
    {store : WebhookStore} {succeeded : Bool} (consistent : s.Consistent)
    (found : s.activeQueue queue = some ⟨.sent delivery, rest⟩)
    (updated : store = s.store.updateDelivery delivery.id change)
    (same : (change delivery).id = delivery.id ∧
      (change delivery).subscriptionId = delivery.subscriptionId ∧
      (change delivery).eventId = delivery.eventId)
    (accounts : (s.answer queue delivery rest now store succeeded).Accounts (change delivery)) :
    (s.answer queue delivery rest now store succeeded).Consistent := by
  obtain ⟨entries, flight⟩ := activeQueue_settle found (entries_sent ..)
  refine consistent.settle entries updated same rfl (fun id other => ?_) (fun answer member => ?_)
    (fun id other => ?_) accounts
  · rw [failuresOf, DeliveryWorker.answer, List.countP_append, failuresOf]
    simp [Ne.symm other]
  · refine (List.mem_append.mp member).imp_right fun now => ?_
    rw [List.mem_singleton.mp now]
  · rw [flight, SubscriptionQueue.sending, List.count_singleton,
      if_neg (by simpa using other.symm)]
    rfl

theorem failuresOf_answer (now : Instant) (store : WebhookStore) (succeeded : Bool) :
    (s.answer queue delivery rest now store succeeded).failuresOf delivery.id =
      s.failuresOf delivery.id + if succeeded = true then 0 else 1 := by
  rw [failuresOf, DeliveryWorker.answer, List.countP_append, failuresOf]
  cases succeeded <;> simp

theorem Consistent.reply (consistent : s.Consistent) (outcome : HttpOutcome) (now : Instant)
    (found : s.activeQueue queue = some ⟨.sent delivery, rest⟩) :
    (s.answer queue delivery rest now (match outcome.error with
        | none => s.store.markDeliverySuccess delivery.id
        | some error => s.handleRetry delivery error now) outcome.error.isNone).Consistent := by
  obtain ⟨entries, flight⟩ := activeQueue_settle found (entries_sent ..)
  have member : delivery ∈ s.entries := entries.mem_iff.mpr List.mem_cons_self
  obtain ⟨known, waits⟩ := consistent.current delivery member
  obtain ⟨numbered, pending, -, -⟩ := consistent.accounts delivery known
  obtain ⟨below, failed, counted⟩ := pending waits
  cases outcome.error with
  | none =>
    exact consistent.answer found rfl ⟨rfl, rfl, rfl⟩
      (consistent.accounts_settled member rfl rfl nofun nofun)
  | some error =>
    simp only [handleRetry]
    split
    · next last =>
      refine consistent.answer found rfl ⟨rfl, rfl, rfl⟩
        (consistent.accounts_settled member rfl rfl nofun fun _ => .inl ?_)
      have failures : s.failuresOf delivery.id + 1 = maxRetries := by
        rw [failed]
        exact Nat.le_antisymm below last
      exact (failuresOf_answer now _ false).trans failures
    · next again =>
      refine consistent.answer found rfl ⟨rfl, rfl, rfl⟩ ⟨numbered, fun _ => ⟨?_, ?_, ?_⟩,
        fun settled => absurd waits settled, fun dead => absurd (waits.symm.trans dead) (by decide)⟩
      · exact Nat.lt_of_not_le again
      · exact (failuresOf_answer now _ false).trans (congrArg (· + 1) failed)
      · have flying := flight delivery.id
        rw [SubscriptionQueue.sending, List.count_singleton_self] at flying
        refine counted.trans ?_
        rw [flying]
        change _ = delivery.attempts + 1 + (s.advance queue .idle rest).inFlight.count delivery.id
        omega

end Answers

/-- The queues of a poll have rows that are pending. -/
theorem Consistent.poll {now : Instant} {sorted deliveries : List WebhookDelivery}
    (consistent : s.Consistent) (done : s.entries = [])
    (read : s.store.getPendingDeliveries now sorted = some deliveries) :
    Consistent { s.read now with
      queues := (subscriptionQueues deliveries).map fun pair => ⟨.idle, pair.2⟩ } := by
  unfold WebhookStore.getPendingDeliveries at read
  split at read
  · next answer =>
    obtain rfl := Option.some.inj read
    obtain ⟨answer, -⟩ := answer
    have shape : entries { s.read now with
        queues := (subscriptionQueues (sorted.take pendingLimit)).map fun pair =>
          ⟨.idle, pair.2⟩ } = (subscriptionQueues (sorted.take pendingLimit)).flatMap Prod.snd := by
      rw [entries, List.flatMap_map]
      rfl
    have idle : inFlight { s.read now with
        queues := (subscriptionQueues (sorted.take pendingLimit)).map fun pair =>
          ⟨.idle, pair.2⟩ } = [] := by
      rw [inFlight, List.flatMap_map]
      exact List.flatMap_eq_nil_iff.mpr fun _ _ => rfl
    have nothing : s.inFlight = [] := by
      have flying := s.inFlight_sublist
      rw [done] at flying
      exact List.sublist_nil.mp flying
    have page := subscriptionQueues_perm (sorted.take pendingLimit)
    refine ⟨consistent.ids, consistent.subscriptions, consistent.events, ?_, fun entry member => ?_,
      fun row member => (consistent.accounts row member).of_same rfl rfl ?_ id,
      consistent.requested, consistent.answers⟩
    · rw [shape]
      refine ((page.map _).nodup_iff).mpr (((List.take_sublist ..).map _).nodup ?_)
      refine ((answer.map _).nodup_iff).mpr ((List.filter_sublist.map _).nodup consistent.ids)
    · rw [shape] at member
      have due := answer.mem_iff.mp (List.mem_of_mem_take (page.mem_iff.mp member))
      obtain ⟨known, pending⟩ := List.mem_filter.mp due
      exact ⟨known, of_decide_eq_true (Bool.and_eq_true_iff.mp pending).1⟩
    · rw [idle, nothing]
  · cases read

theorem Consistent.read (consistent : s.Consistent) (now : Instant) : (s.read now).Consistent :=
  consistent.requeue rfl rfl rfl (List.Sublist.refl _) fun _ => rfl

/-- The request that a queue is about to sign is sent. -/
theorem Consistent.sendSigned {queue : ℕ} {delivery : WebhookDelivery} {url : String}
    {event : IndexedEvent} {timestamp secret : String} {rest : List WebhookDelivery}
    {request : WebhookRequest} (consistent : s.Consistent)
    (found : s.activeQueue queue =
      some ⟨.signing delivery url event timestamp secret, rest⟩)
    (payload : request.payload = webhookPayload delivery event) :
    Consistent { s.advance queue (.sent delivery) rest with
      requests := s.requests ++ [(delivery, request)] } := by
  obtain ⟨parts, flight⟩ := activeQueue_settle found (entries_signing ..)
  obtain ⟨before, after, shape, advanced⟩ := activeQueue_split found
  have distinct := (parts.map (·.id)).nodup_iff.mp consistent.distinct
  rw [List.map_cons, List.nodup_cons] at distinct
  have idle : (s.advance queue .idle rest).inFlight.count delivery.id = 0 :=
    List.count_eq_zero.mpr fun flying =>
      distinct.1 ((s.advance queue .idle rest).inFlight_sublist.subset flying)
  have sending : ∀ id, (s.advance queue (.sent delivery) rest).inFlight.count id =
      (s.advance queue .idle rest).inFlight.count id + [delivery.id].count id := by
    intro id
    rw [inFlight, advanced, inFlight, advanced, List.flatMap_append, List.flatMap_append,
      List.flatMap_cons, List.flatMap_cons, List.count_append, List.count_append,
      List.count_append, List.count_append]
    simp only [SubscriptionQueue.sending, List.count_nil]
    omega
  refine consistent.send (parts.mem_iff.mpr List.mem_cons_self) rfl ?_ rfl rfl ?_ ?_ ?_
    fun id other => ?_
  · change (s.advance queue (.sent delivery) rest).entries = s.entries
    rw [entries, advanced, entries, shape, List.flatMap_append, List.flatMap_append,
      List.flatMap_cons, List.flatMap_cons]
    rfl
  · rw [payload]
    exact ⟨rfl, rfl⟩
  · rw [flight, idle]
    rfl
  · refine (sending delivery.id).trans ?_
    rw [idle, List.count_singleton_self]
  · refine (sending id).trans ?_
    rw [flight, List.count_singleton, if_neg (by simpa using other.symm)]
    rfl

theorem Consistent.getEventById (consistent : s.Consistent) {row : WebhookDelivery}
    (member : row ∈ s.store.deliveries) : s.store.getEventById row.eventId ≠ none := by
  obtain ⟨event, known, same⟩ := List.mem_map.mp (consistent.events row member)
  intro missing
  exact absurd same (by simpa using List.find?_eq_none.mp missing event known)

/-- Every action keeps it. -/
theorem step_consistent {config : WebhookConfig} {action : WorkerAction}
    (consistent : s.Consistent) (taken : s.step config action = some t) : t.Consistent := by
  cases action with
  | store action =>
    obtain ⟨store, called, rfl⟩ := Option.map_eq_some_iff.mp taken
    obtain ⟨rows, grows⟩ := WebhookStore.step_grows called 0
    exact consistent.call rfl rfl rfl grows
  | replay event sub id now =>
    simp only [step] at taken
    split at taken
    · obtain ⟨store, inserted, rfl⟩ := Option.map_eq_some_iff.mp taken
      exact consistent.call rfl rfl rfl (WebhookStore.insertDelivery_grows inserted)
    · cases taken
  | poll now sorted =>
    simp only [step] at taken
    split at taken
    · next done =>
      obtain ⟨deliveries, read, rfl⟩ := Option.map_eq_some_iff.mp taken
      exact consistent.poll done read
    · cases taken
  | locate queue =>
    simp only [step] at taken
    split at taken
    · next delivery rest found =>
      split at taken
      · obtain rfl := Option.some.inj taken
        exact consistent.advance found (List.Sublist.refl _) rfl
      · next lost =>
        obtain rfl := Option.some.inj taken
        exact consistent.markDead found rfl rfl (Option.map_eq_none_iff.mp lost)
    · cases taken
  | load queue =>
    simp only [step] at taken
    split at taken
    · next delivery url rest found =>
      split at taken
      · obtain rfl := Option.some.inj taken
        exact consistent.advance found (List.Sublist.refl _) rfl
      · next missing =>
        obtain ⟨entries, -⟩ := activeQueue_settle found (entries_located ..)
        exact absurd missing (consistent.getEventById
          (consistent.current delivery (entries.mem_iff.mpr List.mem_cons_self)).1)
    · cases taken
  | readSecret queue now =>
    simp only [step] at taken
    split at taken
    · next delivery url event rest found =>
      split at taken
      · obtain rfl := Option.some.inj taken
        exact (consistent.read now).advance found (List.Sublist.refl _) rfl
      · obtain rfl := Option.some.inj taken
        have fewer : (SubscriptionQueue.mk .idle []).entries.Sublist
            (SubscriptionQueue.mk (.loaded delivery url event) rest).entries := List.nil_sublist _
        exact (consistent.read now).advance found fewer rfl
    · cases taken
  | send queue =>
    simp only [step] at taken
    split at taken
    · next found =>
      obtain rfl := Option.some.inj taken
      exact consistent.sendSigned found rfl
    · cases taken
  | reply queue outcome now =>
    simp only [step] at taken
    split at taken
    · next found =>
      obtain rfl := Option.some.inj taken
      exact consistent.reply outcome now found
    · cases taken
  | restart =>
    simp only [step] at taken
    split at taken
    · next done =>
      obtain rfl := Option.some.inj taken
      refine consistent.requeue rfl rfl rfl (List.nil_sublist _) fun id => ?_
      have flying := s.inFlight_sublist
      rw [done] at flying
      rw [List.sublist_nil.mp flying]
      rfl
    · cases taken

theorem start_consistent : start.Consistent where
  ids := List.nodup_nil
  subscriptions _ member := absurd member List.not_mem_nil
  events _ member := absurd member List.not_mem_nil
  distinct := List.nodup_nil
  current _ member := absurd member List.not_mem_nil
  accounts _ member := absurd member List.not_mem_nil
  requested _ member := absurd member List.not_mem_nil
  answers _ member := absurd member List.not_mem_nil

/-! ## Settled rows -/

/-- Rows stay, and those that are settled stay as they are. -/
def Keeps (s t : DeliveryWorker) : Prop :=
  ∀ row ∈ s.store.deliveries, ∃ row' ∈ t.store.deliveries, row'.id = row.id ∧
    (row.status ≠ .pending → row' = row)

theorem Keeps.trans {u : DeliveryWorker} (first : s.Keeps t) (second : t.Keeps u) : s.Keeps u := by
  intro row member
  obtain ⟨row', member', same, settled⟩ := first row member
  obtain ⟨row'', member'', same', settled'⟩ := second row' member'
  refine ⟨row'', member'', same'.trans same, fun done => ?_⟩
  obtain rfl := settled done
  exact settled' done

theorem Keeps.of_append {rows : List WebhookDelivery}
    (added : t.store.deliveries = s.store.deliveries ++ rows) : s.Keeps t :=
  fun row member => ⟨row, added ▸ List.mem_append_left _ member, rfl, fun _ => rfl⟩

/-- Only the row of an entry changes, and that is pending. -/
theorem Consistent.keeps_update {delivery : WebhookDelivery}
    {change : WebhookDelivery → WebhookDelivery} (consistent : s.Consistent)
    (member : delivery ∈ s.entries)
    (store : t.store = s.store.updateDelivery delivery.id change)
    (same : ∀ row, (change row).id = row.id) : s.Keeps t := by
  intro row known
  obtain ⟨here, waits⟩ := consistent.current delivery member
  have rows : t.store.deliveries = s.store.deliveries.map fun row =>
      if row.id = delivery.id then change row else row := by rw [store]; rfl
  refine ⟨_, rows ▸ List.mem_map_of_mem known, ?_, fun settled => if_neg fun found => ?_⟩
  · split
    · exact same row
    · rfl
  · obtain rfl := consistent.row_eq known here found
    exact settled waits

theorem step_keeps {config : WebhookConfig} {action : WorkerAction} (consistent : s.Consistent)
    (taken : s.step config action = some t) : s.Keeps t := by
  have still : s.store.deliveries = s.store.deliveries ++ [] := (List.append_nil _).symm
  cases action with
  | store action =>
    obtain ⟨store, called, rfl⟩ := Option.map_eq_some_iff.mp taken
    obtain ⟨rows, grows⟩ := WebhookStore.step_grows called 0
    exact .of_append grows.added
  | replay event sub id now =>
    simp only [step] at taken
    split at taken
    · obtain ⟨store, inserted, rfl⟩ := Option.map_eq_some_iff.mp taken
      exact .of_append (WebhookStore.insertDelivery_grows inserted).added
    · cases taken
  | poll now sorted =>
    simp only [step] at taken
    split at taken
    · obtain ⟨deliveries, read, rfl⟩ := Option.map_eq_some_iff.mp taken
      exact .of_append still
    · cases taken
  | locate queue =>
    simp only [step] at taken
    split at taken
    · next delivery rest found =>
      split at taken
      · obtain rfl := Option.some.inj taken
        exact .of_append still
      · obtain rfl := Option.some.inj taken
        obtain ⟨parts, -⟩ := activeQueue_settle found (entries_idle ..)
        exact consistent.keeps_update (parts.mem_iff.mpr List.mem_cons_self) rfl fun _ => rfl
    · cases taken
  | load queue =>
    simp only [step] at taken
    split at taken
    · next delivery url rest found =>
      split at taken
      · obtain rfl := Option.some.inj taken
        exact .of_append still
      · obtain rfl := Option.some.inj taken
        obtain ⟨parts, -⟩ := activeQueue_settle found (entries_located ..)
        exact consistent.keeps_update (parts.mem_iff.mpr List.mem_cons_self) rfl fun _ => rfl
    · cases taken
  | readSecret queue now =>
    simp only [step] at taken
    split at taken
    · split at taken
      · obtain rfl := Option.some.inj taken
        exact .of_append still
      · obtain rfl := Option.some.inj taken
        exact .of_append still
    · cases taken
  | send queue =>
    simp only [step] at taken
    split at taken
    · obtain rfl := Option.some.inj taken
      exact .of_append still
    · cases taken
  | reply queue outcome now =>
    simp only [step] at taken
    split at taken
    · next delivery rest found =>
      obtain rfl := Option.some.inj taken
      obtain ⟨parts, -⟩ := activeQueue_settle found (entries_sent ..)
      have member : delivery ∈ s.entries := parts.mem_iff.mpr List.mem_cons_self
      cases outcome.error with
      | none => exact consistent.keeps_update member rfl fun _ => rfl
      | some error =>
        simp only [handleRetry]
        split
        · exact consistent.keeps_update member rfl fun _ => rfl
        · exact consistent.keeps_update member rfl fun _ => rfl
    · cases taken
  | restart =>
    simp only [step] at taken
    split at taken
    · obtain rfl := Option.some.inj taken
      exact .of_append still
    · cases taken

theorem run_consistent {config : WebhookConfig} {labels : List (Occurrence DeliveryWorker WorkerAction)}
    (run : Run (Occurs (DeliveryWorker.step config)) s labels t) (consistent : s.Consistent) :
    t.Consistent ∧ s.Keeps t := by
  refine run.stays (fun u => u.Consistent ∧ s.Keeps u) ?_ ⟨consistent, fun row member =>
    ⟨row, member, rfl, fun _ => rfl⟩⟩
  rintro u label v ⟨rfl, taken⟩ ⟨consistent, keeps⟩
  exact ⟨step_consistent consistent taken, keeps.trans (step_keeps consistent taken)⟩

end Rows

end DeliveryWorker

/-! ## Runs -/

/-- In every run: a row that is not pending any more stays as it is. A row has at most five
requests, numbered from one on and sent under its id; while it is pending it counts those that are
not under way, and it is dead only after five that failed or without its subscription or event. -/
theorem webhook_lifecycle {config : WebhookConfig}
    {labels later : List (Occurrence DeliveryWorker WorkerAction)} {s t : DeliveryWorker}
    (run : Run (Occurs (DeliveryWorker.step config)) .start labels s)
    (onward : Run (Occurs (DeliveryWorker.step config)) s later t) :
    (∀ row ∈ s.store.deliveries, ∃ row' ∈ t.store.deliveries, row'.id = row.id ∧
      (row.status ≠ .pending → row' = row)) ∧
    ∀ row ∈ s.store.deliveries,
      (s.requestsFor row.id).length ≤ maxRetries ∧
      (s.requestsFor row.id).map (fun request =>
          (request.payload.deliveryId, request.payload.attempt)) =
        (List.range' 1 (s.requestsFor row.id).length).map (fun attempt => (row.id, attempt)) ∧
      (row.status = .pending →
        (s.requestsFor row.id).length = row.attempts + s.inFlight.count row.id) ∧
      (row.status = .dead → s.failuresOf row.id = maxRetries ∨
        s.store.getSubscriptionUrl row.subscriptionId = none ∨
        s.store.getEventById row.eventId = none) := by
  obtain ⟨consistent, -⟩ := DeliveryWorker.run_consistent run DeliveryWorker.start_consistent
  obtain ⟨-, keeps⟩ := DeliveryWorker.run_consistent onward consistent
  refine ⟨keeps, fun row member => ?_⟩
  obtain ⟨numbered, pending, settled, dead⟩ := consistent.accounts row member
  refine ⟨?_, numbered, fun waits => (pending waits).2.2, fun died => ?_⟩
  · by_cases waits : row.status = .pending
    · obtain ⟨below, -, counted⟩ := pending waits
      have flying := consistent.inFlight_le row.id
      omega
    · exact settled waits
  · refine (dead died).imp_right fun lost => .inl ?_
    rw [WebhookStore.getSubscriptionUrl, lost, Option.map_none]

namespace Rehearsal

/-- The text of a payload about the event. -/
def payloadText (payload : WebhookPayload) : String :=
  "\x7b\"delivery_id\":\"" ++ payload.deliveryId ++ "\",\"attempt\":" ++
    toString payload.attempt ++ ",\"event_id\":\"" ++ payload.eventId ++ "\",\"event_type\":\"" ++
    payload.eventType ++ "\",\"ledger_sequence\":" ++ toString payload.ledgerSequence ++
    ",\"contract_id\":\"" ++ payload.contractId ++ "\",\"tx_hash\":\"" ++ payload.txHash ++
    "\",\"timestamp\":\"" ++ payload.timestamp ++ "\",\"data\":\x7b\"target\":\"A\"\x7d\x7d"

/-- The keyed hashes of the messages at one and at ten seconds. -/
def webhooks : WebhookConfig where
  serialize := payloadText
  hmacSha256 _ message :=
    if message.length = 188 then
      (0x1d8df35f072a7e43d85362e7344bf447037fcf7ac38716a8094be3001a850ede : BytesN 32).toList
    else (0x710b03ce6960b2bfaf53660b48f44420e9499b67747a5f8345f86fb1da0b4225 : BytesN 32).toList

/-- The row of the delivery of the event. -/
def fundedDelivery : WebhookDelivery where
  id := "2S"
  subscriptionId := "S"
  eventId := "E"
  status := .pending
  attempts := 0
  nextRetryAt := some 2
  lastError := none
  createdAt := 2

/-- The row after a request that was answered with an error. -/
def retriedDelivery : WebhookDelivery :=
  { fundedDelivery with
    attempts := 1, nextRetryAt := some 3000000000, lastError := some "HTTP 500 Internal Server Error" }

def sendingOnce : List WorkerAction := [
  .store (.create toTarget "S" "secret" 0),
  .store (.insert fundedEvent 2 (fun sub => "2" ++ sub) false),
  .poll 1000000000 [fundedDelivery], .locate 0, .load 0, .readSecret 0 1000000000, .send 0,
  .reply 0 (.response 500 "Internal Server Error") 1000000000]

def sendingAgain : List WorkerAction := [
  .restart, .poll 10000000000 [retriedDelivery], .locate 0, .load 0,
  .readSecret 0 10000000000, .send 0, .reply 0 (.response 200 "OK") 10000000000]

end Rehearsal

open Rehearsal in
theorem webhook_lifecycle_rehearsed : ∃ s t,
    perform (DeliveryWorker.step webhooks) .start sendingOnce = some s ∧
    perform (DeliveryWorker.step webhooks) s sendingAgain = some t ∧
    (s.requestsFor "2S").length = 1 := by
  obtain ⟨s, performed, facts⟩ := perform_any
    (p := fun s => s.store.deliveries = [retriedDelivery] ∧ s.inFlight = [] ∧
      (perform (DeliveryWorker.step webhooks) s sendingAgain).isSome)
    (by decide +kernel : (perform (DeliveryWorker.step webhooks) .start sendingOnce).any _ = true)
  obtain ⟨rows, idle, further⟩ := of_decide_eq_true facts
  obtain ⟨t, onward⟩ := Option.isSome_iff_exists.mp further
  obtain ⟨-, accounts⟩ := webhook_lifecycle (perform_run performed) (perform_run onward)
  have member : retriedDelivery ∈ s.store.deliveries := by rw [rows]; exact List.mem_cons_self
  obtain ⟨-, -, counted, -⟩ := accounts retriedDelivery member
  refine ⟨s, t, performed, onward, (counted rfl).trans ?_⟩
  rw [idle]
  rfl

end OnboardingBridge.Indexer
