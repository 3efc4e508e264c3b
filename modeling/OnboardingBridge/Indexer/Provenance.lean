import OnboardingBridge.Indexer.DeliveryOrder
import OnboardingBridge.Indexer.Service

/-!
# Where the requests of webhooks come from

A request of a webhook is about an event that the poller has committed and goes to the URL of a
subscription that a request with the key has created and whose filters let the event pass
(`requests_accounted`). After a subscription is deleted there is no request to it any more, but for
one whose secret was read before (`deleted_stays_silent`).

The rows of the store are related to what they refer to (`WebhookStore.Relates`), and what a queue
of the worker has read is still what is stored (`DeliveryWorker.Grounded`). A replay inserts rows
for what it has read before, which is why subscriptions are compared by their terms only.
-/

set_option autoImplicit false

namespace OnboardingBridge.Indexer

open Foundations

/-! ## What stays in the store -/

/-- Two subscriptions differ at most in whether they are active. -/
def Subscription.SameTerms (sub other : Subscription) : Prop :=
  ∃ active, other = { sub with active }

theorem Subscription.SameTerms.symm {sub other : Subscription} (same : sub.SameTerms other) :
    other.SameTerms sub := by
  obtain ⟨_, rfl⟩ := same
  exact ⟨sub.active, rfl⟩

theorem Subscription.SameTerms.refl (sub : Subscription) : sub.SameTerms sub := ⟨sub.active, rfl⟩

theorem Subscription.SameTerms.trans {sub other third : Subscription} (first : sub.SameTerms other)
    (second : other.SameTerms third) : sub.SameTerms third := by
  obtain ⟨_, rfl⟩ := first
  obtain ⟨active, rfl⟩ := second
  exact ⟨active, rfl⟩

namespace WebhookStore

variable {s t u : WebhookStore}

/-- Events stay, and subscriptions keep their terms. -/
structure Retains (s t : WebhookStore) : Prop where
  events : ∀ event ∈ s.events, event ∈ t.events
  subscriptions : ∀ sub ∈ s.subscriptions, ∃ other ∈ t.subscriptions, sub.SameTerms other

theorem Retains.of_same (events : t.events = s.events)
    (subscriptions : t.subscriptions = s.subscriptions) : s.Retains t where
  events _ member := events ▸ member
  subscriptions sub member := ⟨sub, subscriptions ▸ member, .refl sub⟩

/-- A row belongs to a subscription and an event that passes its filters. -/
def Relates (s : WebhookStore) (row : WebhookDelivery) : Prop :=
  ∃ sub ∈ s.subscriptions, ∃ event ∈ s.events,
    sub.id = row.subscriptionId ∧ event.id = row.eventId ∧ sub.admits event = true

theorem Relates.mono {row : WebhookDelivery} (relates : s.Relates row) (retains : s.Retains t) :
    t.Relates row := by
  obtain ⟨sub, listed, event, member, named, about, admits⟩ := relates
  obtain ⟨other, still, _, rfl⟩ := retains.subscriptions sub listed
  exact ⟨_, still, event, retains.events event member, named, about, admits⟩

/-- What a call of the store adds to it. -/
structure Extends (s : WebhookStore) (action : StoreAction) (t : WebhookStore) : Prop where
  retains : s.Retains t
  events : ∀ event ∈ t.events, event ∈ s.events ∨
    ∃ now uuid, action = .insert event now uuid false
  subscriptions : ∀ sub ∈ t.subscriptions, (∃ old ∈ s.subscriptions, old.SameTerms sub) ∨
    ∃ req id secret now, action = .create req id secret now ∧
      sub = { req with id, active := true, secret, createdAt := now }
  rows : ∀ row ∈ t.deliveries, row ∈ s.deliveries ∨ t.Relates row
  distinct : (s.events.map (·.id)).Nodup → (s.subscriptions.map (·.id)).Nodup →
    (t.events.map (·.id)).Nodup ∧ (t.subscriptions.map (·.id)).Nodup

theorem Extends.refl (s : WebhookStore) (action : StoreAction) : s.Extends action s where
  retains := .of_same rfl rfl
  events _ := .inl
  subscriptions sub member := .inl ⟨sub, member, .refl sub⟩
  rows _ := .inl
  distinct events subscriptions := ⟨events, subscriptions⟩

theorem insertEvent_extends {event : IndexedEvent} {now : Instant} {uuid : String → String}
    (inserted : s.insertEventAndQueueDeliveries event now uuid = some (t, true)) :
    s.Extends (.insert event now uuid false) t := by
  obtain ⟨fresh, rfl⟩ := insertEvent_new inserted
  have retains : s.Retains { s with events := s.events ++ [event] } :=
    ⟨fun _ member => List.mem_append_left _ member, fun sub member => ⟨sub, member, .refl sub⟩⟩
  refine ⟨⟨retains.events, retains.subscriptions⟩, ?_, ?_, ?_, ?_⟩
  · intro other member
    rcases List.mem_append.mp member with known | new
    · exact .inl known
    · obtain rfl := List.mem_singleton.mp new
      exact .inr ⟨now, uuid, rfl⟩
  · intro sub member
    exact .inl ⟨sub, member, .refl sub⟩
  · intro row member
    rcases List.mem_append.mp member with known | new
    · exact .inl known
    · obtain ⟨sub, chosen, rfl⟩ := List.mem_map.mp new
      obtain ⟨listed, wanted⟩ := List.mem_filter.mp chosen
      rw [Bool.and_eq_true] at wanted
      exact .inr ⟨sub, listed, event, List.mem_append_right _ (List.mem_singleton_self event),
        rfl, rfl, wanted.2⟩
  · intro events subscriptions
    refine ⟨?_, subscriptions⟩
    rw [List.map_append]
    refine List.nodup_append.mpr ⟨events, List.nodup_singleton _, ?_⟩
    rintro known member _ new rfl
    obtain rfl : known = event.id := List.mem_singleton.mp new
    exact fresh member

theorem createSubscription_extends {req : CreateSubscription} {id secret : String} {now : Instant}
    (created : s.createSubscription req id secret now = some t) :
    s.Extends (.create req id secret now) t := by
  have distinct := createSubscription_distinct created
  unfold createSubscription at created
  split at created
  · cases created
  · obtain rfl := Option.some.inj created
    refine ⟨⟨fun _ member => member, fun sub member => ?_⟩, fun _ => .inl, fun sub member => ?_,
      fun _ => .inl, fun events subscriptions => ⟨events, distinct subscriptions⟩⟩
    · exact ⟨sub, List.mem_append_left _ member, .refl sub⟩
    · rcases List.mem_append.mp member with known | new
      · exact .inl ⟨sub, known, .refl sub⟩
      · exact .inr ⟨req, id, secret, now, rfl, List.mem_singleton.mp new⟩

theorem deleteSubscription_extends (s : WebhookStore) (id : String) :
    s.Extends (.delete id) (s.deleteSubscription id) := by
  have terms (sub : Subscription) :
      sub.SameTerms (if sub.id = id then { sub with active := false } else sub) := by
    split
    · exact ⟨false, rfl⟩
    · exact .refl sub
  refine ⟨⟨fun _ member => member, fun sub member => ?_⟩, fun _ => .inl, fun sub member => ?_,
    fun _ => .inl, fun events subscriptions => ⟨events, ?_⟩⟩
  · exact ⟨_, List.mem_map_of_mem member, terms sub⟩
  · obtain ⟨old, known, rfl⟩ := List.mem_map.mp member
    exact .inl ⟨old, known, terms old⟩
  · rwa [deleteSubscription_ids]

theorem step_extends {action : StoreAction} (taken : s.step action = some t) :
    s.Extends action t := by
  cases action with
  | insert event now uuid crashed =>
    simp only [step] at taken
    cases crashed with
    | true =>
      obtain rfl := Option.some.inj taken
      exact .refl s _
    | false =>
      cases result : s.insertEventAndQueueDeliveries event now uuid with
      | none =>
        rw [result] at taken
        obtain rfl := Option.some.inj taken
        exact .refl s _
      | some pair =>
        obtain ⟨u, inserted⟩ := pair
        rw [result] at taken
        obtain rfl : u = t := Option.some.inj taken
        cases inserted with
        | true => exact insertEvent_extends result
        | false =>
          obtain rfl := insertEvent_known result
          exact .refl _ _
  | create req id secret now =>
    cases created : s.createSubscription req id secret now with
    | none =>
      simp only [step, created] at taken
      obtain rfl := Option.some.inj taken
      exact .refl s _
    | some u =>
      simp only [step, created] at taken
      obtain rfl : u = t := Option.some.inj taken
      exact createSubscription_extends created
  | delete id =>
    obtain rfl := Option.some.inj taken
    exact deleteSubscription_extends s id

/-- A changed row is still about the same subscription and event. -/
theorem mem_updateDelivery {id : String} {change : WebhookDelivery → WebhookDelivery}
    (same : ∀ row, (change row).subscriptionId = row.subscriptionId ∧
      (change row).eventId = row.eventId) {row : WebhookDelivery}
    (member : row ∈ (s.updateDelivery id change).deliveries) :
    ∃ old ∈ s.deliveries, old.subscriptionId = row.subscriptionId ∧ old.eventId = row.eventId := by
  obtain ⟨old, known, rfl⟩ := List.mem_map.mp member
  refine ⟨old, known, ?_⟩
  split
  · exact ⟨(same old).1.symm, (same old).2.symm⟩
  · exact ⟨rfl, rfl⟩

theorem activeSubscription_mem {id : String} {sub : Subscription}
    (found : s.activeSubscription id = some sub) : sub ∈ s.subscriptions ∧ sub.id = id := by
  have passes := List.find?_some found
  rw [Bool.and_eq_true, decide_eq_true_eq] at passes
  exact ⟨List.mem_of_find?_eq_some found, passes.1⟩

end WebhookStore

/-! ## What the worker has read -/

/-- What a task has read is stored. -/
def DeliveryTask.Grounded (s : WebhookStore) : DeliveryTask → Prop
  | .idle | .sent _ => True
  | .located delivery url =>
      ∃ sub ∈ s.subscriptions, sub.id = delivery.subscriptionId ∧ sub.url = url
  | .loaded delivery url event =>
      (∃ sub ∈ s.subscriptions, sub.id = delivery.subscriptionId ∧ sub.url = url) ∧
        event ∈ s.events ∧ event.id = delivery.eventId
  | .signing delivery url event _ secret =>
      (∃ sub ∈ s.subscriptions, sub.id = delivery.subscriptionId ∧ sub.url = url ∧
        sub.secret = secret) ∧ event ∈ s.events ∧ event.id = delivery.eventId

/-- A request is what a subscription gets for an event. -/
structure AccountedBy (config : WebhookConfig) (sub : Subscription) (event : IndexedEvent)
    (sent : WebhookDelivery × WebhookRequest) : Prop where
  subscription : sub.id = sent.1.subscriptionId
  concerns : event.id = sent.1.eventId
  admits : sub.admits event = true
  url : sent.2.url = sub.url
  payload : sent.2.payload = webhookPayload sent.1 event
  signature : sent.2.signature =
    generateSignature config sub.secret sent.2.timestamp (config.serialize sent.2.payload)

theorem AccountedBy.sameTerms {config : WebhookConfig} {sub other : Subscription}
    {event : IndexedEvent} {sent : WebhookDelivery × WebhookRequest}
    (accounted : AccountedBy config sub event sent) (same : sub.SameTerms other) :
    AccountedBy config other event sent := by
  obtain ⟨_, rfl⟩ := same
  exact ⟨accounted.subscription, accounted.concerns, accounted.admits, accounted.url,
    accounted.payload, accounted.signature⟩

theorem DeliveryTask.Grounded.mono {s t : WebhookStore} {task : DeliveryTask}
    (grounded : task.Grounded s) (retains : s.Retains t) : task.Grounded t := by
  have still {delivery : WebhookDelivery} {url : String}
      (found : ∃ sub ∈ s.subscriptions, sub.id = delivery.subscriptionId ∧ sub.url = url) :
      ∃ sub ∈ t.subscriptions, sub.id = delivery.subscriptionId ∧ sub.url = url := by
    obtain ⟨sub, listed, named, at_url⟩ := found
    obtain ⟨other, member, _, rfl⟩ := retains.subscriptions sub listed
    exact ⟨_, member, named, at_url⟩
  cases task with
  | idle => exact trivial
  | sent delivery => exact trivial
  | located delivery url => exact still grounded
  | loaded delivery url event =>
    obtain ⟨found, member, about⟩ := grounded
    exact ⟨still found, retains.events event member, about⟩
  | signing delivery url event timestamp secret =>
    obtain ⟨⟨sub, listed, named, at_url, signs⟩, member, about⟩ := grounded
    obtain ⟨other, known, _, rfl⟩ := retains.subscriptions sub listed
    exact ⟨⟨_, known, named, at_url, signs⟩, retains.events event member, about⟩

/-- The request that a queue sends next. -/
def SubscriptionQueue.ready (config : WebhookConfig) (queue : SubscriptionQueue) :
    List (WebhookDelivery × WebhookRequest) :=
  match queue.task with
  | .signing delivery url event timestamp secret =>
      [(delivery, webhookRequest config delivery url event timestamp secret)]
  | _ => []

namespace DeliveryWorker

variable {config : WebhookConfig} {s t : DeliveryWorker}

/-- Rows, tasks and requests go back to what is stored. -/
structure Grounded (config : WebhookConfig) (s : DeliveryWorker) : Prop where
  events : (s.store.events.map (·.id)).Nodup
  subscriptions : (s.store.subscriptions.map (·.id)).Nodup
  rows : ∀ row ∈ s.store.deliveries, s.store.Relates row
  tasks : ∀ queue ∈ s.queues, queue.task.Grounded s.store
  requests : ∀ sent ∈ s.requests, ∃ sub ∈ s.store.subscriptions, ∃ event ∈ s.store.events,
    AccountedBy config sub event sent

/-- What the store retains stays grounded. -/
theorem Grounded.next (grounded : s.Grounded config) (retains : s.store.Retains t.store)
    (distinct : (t.store.events.map (·.id)).Nodup ∧ (t.store.subscriptions.map (·.id)).Nodup)
    (rows : ∀ row ∈ t.store.deliveries, (∃ old ∈ s.store.deliveries,
      old.subscriptionId = row.subscriptionId ∧ old.eventId = row.eventId) ∨ t.store.Relates row)
    (tasks : ∀ queue ∈ t.queues, queue ∈ s.queues ∨ queue.task.Grounded t.store)
    (requests : ∀ sent ∈ t.requests, sent ∈ s.requests ∨ ∃ sub ∈ t.store.subscriptions,
      ∃ event ∈ t.store.events, AccountedBy config sub event sent) : t.Grounded config where
  events := distinct.1
  subscriptions := distinct.2
  rows row member := by
    rcases rows row member with ⟨old, known, named, about⟩ | relates
    · obtain ⟨sub, listed, event, stored, sameSub, sameEvent, admits⟩ :=
        (grounded.rows old known).mono retains
      exact ⟨sub, listed, event, stored, sameSub.trans named, sameEvent.trans about, admits⟩
    · exact relates
  tasks queue member :=
    (tasks queue member).elim (fun known => (grounded.tasks queue known).mono retains) id
  requests sent member := by
    rcases requests sent member with known | new
    · obtain ⟨sub, listed, event, stored, accounted⟩ := grounded.requests sent known
      obtain ⟨other, still, same⟩ := retains.subscriptions sub listed
      exact ⟨other, still, event, retains.events event stored, accounted.sameTerms same⟩
    · exact new

/-- When no event and no subscription is added, the rest is about rows, tasks and requests. -/
theorem Grounded.still (grounded : s.Grounded config) (events : t.store.events = s.store.events)
    (subscriptions : t.store.subscriptions = s.store.subscriptions)
    (rows : ∀ row ∈ t.store.deliveries, (∃ old ∈ s.store.deliveries,
      old.subscriptionId = row.subscriptionId ∧ old.eventId = row.eventId) ∨ t.store.Relates row)
    (tasks : ∀ queue ∈ t.queues, queue ∈ s.queues ∨ queue.task.Grounded t.store)
    (requests : ∀ sent ∈ t.requests, sent ∈ s.requests ∨ ∃ sub ∈ t.store.subscriptions,
      ∃ event ∈ t.store.events, AccountedBy config sub event sent) : t.Grounded config :=
  grounded.next (.of_same events subscriptions)
    ⟨events ▸ grounded.events, subscriptions ▸ grounded.subscriptions⟩ rows tasks requests

theorem sameRow (row : WebhookDelivery) (member : row ∈ s.store.deliveries) :
    (∃ old ∈ s.store.deliveries, old.subscriptionId = row.subscriptionId ∧
      old.eventId = row.eventId) ∨ s.store.Relates row :=
  .inl ⟨row, member, rfl, rfl⟩

theorem updatedRow {id : String} {change : WebhookDelivery → WebhookDelivery}
    (same : ∀ row, (change row).subscriptionId = row.subscriptionId ∧
      (change row).eventId = row.eventId) (row : WebhookDelivery)
    (member : row ∈ (s.store.updateDelivery id change).deliveries) :
    (∃ old ∈ s.store.deliveries, old.subscriptionId = row.subscriptionId ∧
      old.eventId = row.eventId) ∨ (s.store.updateDelivery id change).Relates row :=
  .inl (WebhookStore.mem_updateDelivery same member)

/-- A queue that goes on to a task that is grounded. -/
theorem advance_tasks {queue : ℕ} {q : SubscriptionQueue} {task : DeliveryTask}
    {rest : List WebhookDelivery} {store : WebhookStore} (found : s.activeQueue queue = some q)
    (here : task.Grounded store) (other : SubscriptionQueue)
    (member : other ∈ (s.advance queue task rest).queues) :
    other ∈ s.queues ∨ other.task.Grounded store := by
  rcases advance_queues found other member with known | rfl
  · exact .inl known
  · exact .inr here

/-- The secret that is read for an entry is that of the subscription whose URL was read. -/
theorem Grounded.signs (grounded : s.Grounded config) {delivery : WebhookDelivery} {url : String}
    {event : IndexedEvent} {timestamp secret : String}
    (loaded : (DeliveryTask.loaded delivery url event).Grounded s.store)
    (signing : s.store.getSubscriptionSecret delivery.subscriptionId = some secret) :
    (DeliveryTask.signing delivery url event timestamp secret).Grounded s.store := by
  obtain ⟨⟨located, listed, named, rfl⟩, stored, about⟩ := loaded
  obtain ⟨signer, active, rfl⟩ := Option.map_eq_some_iff.mp signing
  obtain ⟨signs, sameId⟩ := WebhookStore.activeSubscription_mem active
  obtain rfl : signer = located :=
    List.inj_on_of_nodup_map grounded.subscriptions signs listed (sameId.trans named.symm)
  exact ⟨⟨signer, signs, named, rfl, rfl⟩, stored, about⟩

/-- What was read for an entry is what the request is made of. -/
theorem Grounded.accounts (grounded : s.Grounded config) {delivery : WebhookDelivery} {url : String}
    {event : IndexedEvent} {timestamp secret : String} (row : delivery ∈ s.store.deliveries)
    (signing : (DeliveryTask.signing delivery url event timestamp secret).Grounded s.store) :
    ∃ sub ∈ s.store.subscriptions, ∃ other ∈ s.store.events, AccountedBy config sub other
      (delivery, webhookRequest config delivery url event timestamp secret) := by
  obtain ⟨⟨located, listed, named, rfl, rfl⟩, stored, about⟩ := signing
  obtain ⟨sub, related, other, member, owns, concerns, admits⟩ := grounded.rows delivery row
  obtain rfl : located = sub :=
    List.inj_on_of_nodup_map grounded.subscriptions listed related (named.trans owns.symm)
  obtain rfl : event = other :=
    List.inj_on_of_nodup_map grounded.events stored member (about.trans concerns.symm)
  exact ⟨located, listed, event, stored, named, about, admits, rfl, rfl, rfl⟩

/-- Every action keeps it, when what is replayed is stored. -/
theorem step_grounded {action : WorkerAction} (consistent : s.Consistent)
    (grounded : s.Grounded config)
    (replays : ∀ event sub id now, action = .replay event sub id now → event ∈ s.store.events ∧
      ∃ other ∈ s.store.subscriptions, sub.SameTerms other)
    (taken : s.step config action = some t) : t.Grounded config := by
  cases action with
  | store action =>
    obtain ⟨store, called, rfl⟩ := Option.map_eq_some_iff.mp taken
    have extended := WebhookStore.step_extends called
    refine grounded.next extended.retains
      (extended.distinct grounded.events grounded.subscriptions) (fun row member => ?_)
      (fun _ => .inl) (fun _ => .inl)
    exact (extended.rows row member).imp_left fun known => ⟨row, known, rfl, rfl⟩
  | replay event sub id now =>
    obtain ⟨stored, other, listed, _, rfl⟩ := replays event sub id now rfl
    simp only [step] at taken
    split at taken
    · next passes =>
      obtain ⟨store, inserted, rfl⟩ := Option.map_eq_some_iff.mp taken
      obtain rfl := WebhookStore.insertDelivery_eq_some inserted
      refine grounded.still rfl rfl (fun row member => ?_) (fun _ => .inl) (fun _ => .inl)
      rcases List.mem_append.mp member with known | new
      · exact .inl ⟨row, known, rfl, rfl⟩
      · obtain rfl := List.mem_singleton.mp new
        exact .inr ⟨_, listed, event, stored, rfl, rfl, passes.2⟩
    · cases taken
  | poll now sorted =>
    simp only [step] at taken
    split at taken
    · obtain ⟨deliveries, -, rfl⟩ := Option.map_eq_some_iff.mp taken
      refine grounded.still rfl rfl sameRow (fun queue member => ?_) (fun _ => .inl)
      obtain ⟨pair, -, rfl⟩ := List.mem_map.mp member
      exact .inr trivial
    · cases taken
  | locate queue =>
    simp only [step] at taken
    split at taken
    · next delivery rest found =>
      split at taken
      · next url located =>
        obtain rfl := Option.some.inj taken
        obtain ⟨sub, active, rfl⟩ := Option.map_eq_some_iff.mp located
        obtain ⟨listed, named⟩ := WebhookStore.activeSubscription_mem active
        exact grounded.still rfl rfl sameRow
          (advance_tasks found ⟨sub, listed, named, rfl⟩) (fun _ => .inl)
      · obtain rfl := Option.some.inj taken
        exact grounded.still rfl rfl (updatedRow fun _ => ⟨rfl, rfl⟩) (advance_tasks found trivial)
          (fun _ => .inl)
    · cases taken
  | load queue =>
    simp only [step] at taken
    split at taken
    · next delivery url rest found =>
      split at taken
      · next event loaded =>
        obtain rfl := Option.some.inj taken
        have located := grounded.tasks _ (activeQueue_mem found)
        have about : event.id = delivery.eventId := by simpa using List.find?_some loaded
        exact grounded.still rfl rfl sameRow (advance_tasks found
          ⟨located, List.mem_of_find?_eq_some loaded, about⟩) (fun _ => .inl)
      · obtain rfl := Option.some.inj taken
        exact grounded.still rfl rfl (updatedRow fun _ => ⟨rfl, rfl⟩) (advance_tasks found trivial)
          (fun _ => .inl)
    · cases taken
  | readSecret queue now =>
    simp only [step] at taken
    split at taken
    · next delivery url event rest found =>
      split at taken
      · next secret signing =>
        obtain rfl := Option.some.inj taken
        have loaded := grounded.tasks _ (activeQueue_mem found)
        exact grounded.still rfl rfl sameRow
          (advance_tasks found (grounded.signs loaded signing)) (fun _ => .inl)
      · obtain rfl := Option.some.inj taken
        exact grounded.still rfl rfl sameRow (advance_tasks found trivial) (fun _ => .inl)
    · cases taken
  | send queue =>
    simp only [step] at taken
    split at taken
    · next delivery url event timestamp secret rest found =>
      obtain rfl := Option.some.inj taken
      obtain ⟨parts, -⟩ := activeQueue_settle found (entries_signing ..)
      obtain ⟨row, -⟩ := consistent.current delivery (parts.mem_iff.mpr List.mem_cons_self)
      refine grounded.still rfl rfl sameRow (advance_tasks found trivial) fun sent member => ?_
      rcases List.mem_append.mp member with known | new
      · exact .inl known
      · obtain rfl := List.mem_singleton.mp new
        exact .inr (grounded.accounts row (grounded.tasks _ (activeQueue_mem found)))
    · cases taken
  | reply queue outcome now =>
    simp only [step] at taken
    split at taken
    · next delivery rest found =>
      obtain rfl := Option.some.inj taken
      cases outcome.error with
      | none =>
        exact grounded.still rfl rfl (updatedRow fun _ => ⟨rfl, rfl⟩) (advance_tasks found trivial)
          (fun _ => .inl)
      | some error =>
        simp only [handleRetry]
        split
        · exact grounded.still rfl rfl (updatedRow fun _ => ⟨rfl, rfl⟩)
            (advance_tasks found trivial) (fun _ => .inl)
        · exact grounded.still rfl rfl (updatedRow fun _ => ⟨rfl, rfl⟩)
            (advance_tasks found trivial) (fun _ => .inl)
    · cases taken
  | restart =>
    simp only [step] at taken
    split at taken
    · obtain rfl := Option.some.inj taken
      exact grounded.still rfl rfl sameRow (fun _ member => absurd member List.not_mem_nil)
        (fun _ => .inl)
    · cases taken

/-- Only a call of the store changes the events and the subscriptions. -/
theorem step_effects {action : WorkerAction} (taken : s.step config action = some t) :
    (∃ call, action = .store call ∧ s.store.step call = some t.store) ∨
      t.store.events = s.store.events ∧ t.store.subscriptions = s.store.subscriptions := by
  cases action with
  | store action =>
    obtain ⟨store, called, rfl⟩ := Option.map_eq_some_iff.mp taken
    exact .inl ⟨action, rfl, called⟩
  | replay event sub id now =>
    simp only [step] at taken
    split at taken
    · obtain ⟨store, inserted, rfl⟩ := Option.map_eq_some_iff.mp taken
      obtain rfl := WebhookStore.insertDelivery_eq_some inserted
      exact .inr ⟨rfl, rfl⟩
    · cases taken
  | poll now sorted =>
    simp only [step] at taken
    split at taken
    · obtain ⟨deliveries, -, rfl⟩ := Option.map_eq_some_iff.mp taken
      exact .inr ⟨rfl, rfl⟩
    · cases taken
  | locate queue | load queue | readSecret queue now =>
    simp only [step] at taken
    split at taken
    · split at taken
      · obtain rfl := Option.some.inj taken
        exact .inr ⟨rfl, rfl⟩
      · obtain rfl := Option.some.inj taken
        exact .inr ⟨rfl, rfl⟩
    · cases taken
  | send queue =>
    simp only [step] at taken
    split at taken
    · obtain rfl := Option.some.inj taken
      exact .inr ⟨rfl, rfl⟩
    · cases taken
  | reply queue outcome now =>
    simp only [step] at taken
    split at taken
    · obtain rfl := Option.some.inj taken
      refine .inr ?_
      cases outcome.error with
      | none => exact ⟨rfl, rfl⟩
      | some error =>
        simp only [handleRetry]
        split
        · exact ⟨rfl, rfl⟩
        · exact ⟨rfl, rfl⟩
    · cases taken
  | restart =>
    simp only [step] at taken
    split at taken
    · obtain rfl := Option.some.inj taken
      exact .inr ⟨rfl, rfl⟩
    · cases taken

theorem start_grounded : start.Grounded config where
  events := List.nodup_nil
  subscriptions := List.nodup_nil
  rows _ member := absurd member List.not_mem_nil
  tasks _ member := absurd member List.not_mem_nil
  requests _ member := absurd member List.not_mem_nil

/-! ## What is sent to a subscription -/

/-- What was sent to a subscription. -/
def requestsTo (s : DeliveryWorker) (id : String) : List (WebhookDelivery × WebhookRequest) :=
  s.requests.filter fun sent => sent.1.subscriptionId = id

/-- The requests to a subscription whose secret was read, and which are not sent yet. -/
def readyTo (config : WebhookConfig) (s : DeliveryWorker) (id : String) :
    List (WebhookDelivery × WebhookRequest) :=
  (s.queues.flatMap (·.ready config)).filter fun ready => ready.1.subscriptionId = id

/-- All that is sent to a subscription meanwhile was ready, and what is ready then was so too. -/
def Drains (config : WebhookConfig) (id : String) (s t : DeliveryWorker) : Prop :=
  ∃ sent, t.requestsTo id = s.requestsTo id ++ sent ∧
    (sent ++ t.readyTo config id).Subperm (s.readyTo config id)

theorem Drains.of_subperm {id : String} (requests : t.requests = s.requests)
    (fewer : (t.readyTo config id).Subperm (s.readyTo config id)) : Drains config id s t :=
  ⟨[], by rw [requestsTo, requests, requestsTo, List.append_nil], fewer⟩

theorem Drains.refl (config : WebhookConfig) (id : String) (s : DeliveryWorker) :
    Drains config id s s :=
  .of_subperm rfl (.refl _)

theorem Drains.trans {u : DeliveryWorker} {id : String} (first : Drains config id s t)
    (second : Drains config id t u) : Drains config id s u := by
  obtain ⟨early, told, fewer⟩ := first
  obtain ⟨late, later, fewest⟩ := second
  refine ⟨early ++ late, by rw [later, told, List.append_assoc], ?_⟩
  rw [List.append_assoc]
  exact ((List.subperm_append_left early).mpr fewest).trans fewer

/-- A queue that goes on sends at most what was ready in it. -/
theorem advance_ready {queue : ℕ} {q : SubscriptionQueue} {task : DeliveryTask}
    {rest : List WebhookDelivery} {id : String} {sent : List (WebhookDelivery × WebhookRequest)}
    (found : s.activeQueue queue = some q)
    (fewer : (sent ++ ((⟨task, rest⟩ : SubscriptionQueue).ready config).filter fun ready =>
      ready.1.subscriptionId = id).Subperm
        ((q.ready config).filter fun ready => ready.1.subscriptionId = id)) :
    (sent ++ (s.advance queue task rest).readyTo config id).Subperm (s.readyTo config id) := by
  obtain ⟨before, after, shape, advanced⟩ := activeQueue_split found
  simp only [readyTo, advanced, shape, List.flatMap_append, List.flatMap_cons, List.filter_append]
  refine (List.perm_append_comm_assoc sent _ _).subperm.trans
    ((List.subperm_append_left _).mpr ?_)
  rw [← List.append_assoc]
  exact (List.subperm_append_right _).mpr fewer

/-- A queue that goes on to a task with nothing ready. -/
theorem advance_drains {queue : ℕ} {q : SubscriptionQueue} {task : DeliveryTask}
    {rest : List WebhookDelivery} {id : String} (found : s.activeQueue queue = some q)
    (nothing : ((⟨task, rest⟩ : SubscriptionQueue).ready config).filter (fun ready =>
      ready.1.subscriptionId = id) = []) :
    ((s.advance queue task rest).readyTo config id).Subperm (s.readyTo config id) := by
  change ([] ++ (s.advance queue task rest).readyTo config id).Subperm _
  refine advance_ready found ?_
  rw [nothing]
  exact List.nil_subperm

/-- Nothing becomes ready for a subscription that is not active. -/
theorem step_drains {action : WorkerAction} {id : String}
    (ended : s.store.activeSubscription id = none) (taken : s.step config action = some t) :
    Drains config id s t := by
  cases action with
  | store action =>
    obtain ⟨store, -, rfl⟩ := Option.map_eq_some_iff.mp taken
    exact .of_subperm rfl (.refl _)
  | replay event sub id now =>
    simp only [step] at taken
    split at taken
    · obtain ⟨store, -, rfl⟩ := Option.map_eq_some_iff.mp taken
      exact .of_subperm rfl (.refl _)
    · cases taken
  | poll now sorted =>
    simp only [step] at taken
    split at taken
    · obtain ⟨deliveries, -, rfl⟩ := Option.map_eq_some_iff.mp taken
      have idle : ((subscriptionQueues deliveries).map fun pair =>
          (⟨.idle, pair.2⟩ : SubscriptionQueue)).flatMap (·.ready config) = [] := by
        rw [List.flatMap_map]
        exact List.flatMap_eq_nil_iff.mpr fun _ _ => rfl
      refine .of_subperm rfl ?_
      rw [readyTo, idle]
      exact List.nil_subperm
    · cases taken
  | locate queue =>
    simp only [step] at taken
    split at taken
    · next found =>
      split at taken
      · obtain rfl := Option.some.inj taken
        exact .of_subperm rfl (advance_drains found rfl)
      · obtain rfl := Option.some.inj taken
        exact .of_subperm rfl (advance_drains found rfl)
    · cases taken
  | load queue =>
    simp only [step] at taken
    split at taken
    · next found =>
      split at taken
      · obtain rfl := Option.some.inj taken
        exact .of_subperm rfl (advance_drains found rfl)
      · obtain rfl := Option.some.inj taken
        exact .of_subperm rfl (advance_drains found rfl)
    · cases taken
  | readSecret queue now =>
    simp only [step] at taken
    split at taken
    · next delivery url event rest found =>
      split at taken
      · next secret signing =>
        obtain rfl := Option.some.inj taken
        -- A secret is only read for a subscription that is active.
        have other : delivery.subscriptionId ≠ id := by
          rintro rfl
          simp [WebhookStore.getSubscriptionSecret, ended] at signing
        refine .of_subperm rfl (advance_drains found ?_)
        simp [SubscriptionQueue.ready, other]
      · obtain rfl := Option.some.inj taken
        exact .of_subperm rfl (advance_drains found rfl)
    · cases taken
  | send queue =>
    simp only [step] at taken
    split at taken
    · next delivery url event timestamp secret rest found =>
      obtain rfl := Option.some.inj taken
      refine ⟨_, List.filter_append .., advance_ready found ?_⟩
      simp only [SubscriptionQueue.ready, List.filter_nil, List.append_nil]
      exact .refl _
    · cases taken
  | reply queue outcome now =>
    simp only [step] at taken
    split at taken
    · next found =>
      obtain rfl := Option.some.inj taken
      exact .of_subperm rfl (advance_drains found rfl)
    · cases taken
  | restart =>
    simp only [step] at taken
    split at taken
    · obtain rfl := Option.some.inj taken
      exact .of_subperm rfl List.nil_subperm
    · cases taken

end DeliveryWorker

/-! ## What the service does to the worker -/

/-- The step of the worker that an action takes. A call that changes the subscriptions has the key,
and one that creates a subscription has a URL that passes the check. -/
inductive Does (config : ServiceConfig) (s : IndexerService) :
    ServiceAction → WorkerAction → Prop where
  | index (event : IndexedEvent) (now : Instant) (uuid : String → String) (crashed : Bool) :
      Does config s (.index event now uuid crashed) (.store (.insert event now uuid crashed))
  | work {action : WorkerAction} (itself : action.isWork = true) :
      Does config s (.work action) action
  | create {authorization : Option (List UInt8)} {req : CreateSubscription} {met : Surroundings}
      (key : hasApiKey config authorization = true)
      (valid : validateWebhookUrl config.urls met.lookupHost req.url = .ok ()) :
      Does config s (.request authorization (.createSubscription req) met)
        (.store (.create req met.id met.secret met.now))
  | delete {authorization : Option (List UInt8)} {id : String} {met : Surroundings}
      (key : hasApiKey config authorization = true) :
      Does config s (.request authorization (.deleteSubscription id) met) (.store (.delete id))
  | replay {task count : ℕ} {insert : ReplayInsert} {inserts : List ReplayInsert}
      {rest : List IndexedEvent} (id : String)
      (found : s.replays[task]? = some ⟨insert :: inserts, rest, count⟩) :
      Does config s (.replayInsert task id) (.replay insert.event insert.sub id insert.now)
  | restart : Does config s .restart .restart

/-- What a replay is at was read from the store. -/
structure ReplayTask.Grounded (s : WebhookStore) (task : ReplayTask) : Prop where
  inserts : ∀ insert ∈ task.inserts, insert.event ∈ s.events ∧
    ∃ other ∈ s.subscriptions, insert.sub.SameTerms other
  rest : ∀ event ∈ task.rest, event ∈ s.events

theorem ReplayTask.Grounded.mono {s t : WebhookStore} {task : ReplayTask}
    (grounded : task.Grounded s) (retains : s.Retains t) : task.Grounded t where
  inserts insert member := by
    obtain ⟨stored, other, listed, same⟩ := grounded.inserts insert member
    obtain ⟨third, still, later⟩ := retains.subscriptions other listed
    exact ⟨retains.events _ stored, third, still, same.trans later⟩
  rest event member := retains.events event (grounded.rest event member)

namespace IndexerService

variable {config : ServiceConfig} {s t : IndexerService}

theorem call_eq_some {action : StoreAction} (called : s.call config action = some t) :
    s.worker.step config.webhooks (.store action) = some t.worker ∧ t.replays = s.replays := by
  obtain ⟨worker, taken, rfl⟩ := Option.map_eq_some_iff.mp called
  exact ⟨taken, rfl⟩

theorem listEventsFromLedger_mem {store : WebhookStore} {fromLedger limit : Int}
    {order : List String} {events : List IndexedEvent}
    (read : store.listEventsFromLedger fromLedger limit order = some events) :
    ∀ event ∈ events, event ∈ store.events := by
  obtain ⟨rows, sorted, rfl⟩ := Option.map_eq_some_iff.mp read
  simp only [WebhookStore.sortedEvents] at sorted
  split at sorted
  · obtain rfl := Option.some.inj sorted
    intro event member
    obtain ⟨id, -, found⟩ := List.mem_filterMap.mp (List.mem_of_mem_take member)
    exact List.mem_of_find?_eq_some found
  · cases sorted

/-- A request changes nothing, or it has the key and creates or deletes a subscription or begins a
replay. -/
theorem request_cases {authorization : Option (List UInt8)} {route : ApiRoute} {met : Surroundings}
    (taken : s.step config (.request authorization route met) = some t) :
    t = s ∨ hasApiKey config authorization = true ∧
      ((∃ req, route = .createSubscription req ∧
          validateWebhookUrl config.urls met.lookupHost req.url = .ok () ∧
          s.call config (.create req met.id met.secret met.now) = some t) ∨
        (∃ id, route = .deleteSubscription id ∧ s.call config (.delete id) = some t) ∨
        ∃ events, (∀ event ∈ events, event ∈ s.store.events) ∧
          t = { s with replays := s.replays ++ [⟨[], events, events.length⟩] }) := by
  obtain ⟨⟨u, answer⟩, responded, rfl⟩ := Option.map_eq_some_iff.mp taken
  unfold respond at responded
  split at responded
  · exact .inl (Prod.mk.inj (Option.some.inj responded)).1.symm
  · next allowed =>
    have same {state : IndexerService} {reply : Option ApiResponse}
        (answered : some (state, reply) = some (u, answer)) : u = state :=
      (Prod.mk.inj (Option.some.inj answered)).1.symm
    cases route with
    | health => exact .inl (same responded)
    | listEvents params =>
      simp only [handle] at responded
      split at responded
      · exact .inl (same responded)
      · obtain ⟨events, -, answered⟩ := Option.map_eq_some_iff.mp responded
        exact .inl (Prod.mk.inj answered).1.symm
    | listEventsByType eventType params =>
      simp only [handle] at responded
      split at responded
      · exact .inl (same responded)
      · obtain ⟨events, -, answered⟩ := Option.map_eq_some_iff.mp responded
        exact .inl (Prod.mk.inj answered).1.symm
    | listSubscriptions =>
      simp only [handle] at responded
      split at responded <;> exact .inl (same responded)
    | getStats =>
      simp only [handle] at responded
      split at responded <;> exact .inl (same responded)
    | createSubscription req =>
      have key : hasApiKey config authorization = true := by
        simpa [ApiRoute.isProtected] using allowed
      simp only [handle] at responded
      split at responded
      · exact .inl (same responded)
      · next valid =>
        split at responded
        · exact .inl (same responded)
        · obtain ⟨v, called, answered⟩ := Option.map_eq_some_iff.mp responded
          obtain rfl : v = u := (Prod.mk.inj answered).1
          exact .inr ⟨key, .inl ⟨req, rfl, valid, called⟩⟩
    | deleteSubscription id =>
      have key : hasApiKey config authorization = true := by
        simpa [ApiRoute.isProtected] using allowed
      simp only [handle] at responded
      split at responded
      · exact .inl (same responded)
      · obtain ⟨v, called, answered⟩ := Option.map_eq_some_iff.mp responded
        obtain rfl : v = u := (Prod.mk.inj answered).1
        exact .inr ⟨key, .inr (.inl ⟨id, rfl, called⟩)⟩
    | replayEvents req =>
      have key : hasApiKey config authorization = true := by
        simpa [ApiRoute.isProtected] using allowed
      simp only [handle] at responded
      split at responded
      · exact .inl (same responded)
      · obtain ⟨events, read, answered⟩ := Option.map_eq_some_iff.mp responded
        obtain rfl := (Prod.mk.inj answered).1
        exact .inr ⟨key, .inr (.inr ⟨events, listEventsFromLedger_mem read, rfl⟩)⟩

/-- An action leaves the worker as it is or takes one of its steps. -/
theorem step_worker {action : ServiceAction} (taken : s.step config action = some t) :
    t.worker = s.worker ∨
      ∃ act, Does config s action act ∧ s.worker.step config.webhooks act = some t.worker := by
  cases action with
  | index event now uuid crashed =>
    exact .inr ⟨_, .index event now uuid crashed, (call_eq_some taken).1⟩
  | setLastLedger ledger =>
    obtain rfl := Option.some.inj taken
    exact .inl rfl
  | work action =>
    simp only [step] at taken
    split at taken
    · next itself =>
      obtain ⟨worker, stepped, rfl⟩ := Option.map_eq_some_iff.mp taken
      exact .inr ⟨action, .work itself, stepped⟩
    · cases taken
  | request authorization route met =>
    rcases request_cases taken with rfl | ⟨key, ⟨req, rfl, valid, called⟩ | ⟨id, rfl, called⟩ |
      ⟨events, -, rfl⟩⟩
    · exact .inl rfl
    · exact .inr ⟨_, .create key valid, (call_eq_some called).1⟩
    · exact .inr ⟨_, .delete key, (call_eq_some called).1⟩
    · exact .inl rfl
  | replayEvent task now =>
    simp only [step] at taken
    split at taken
    · obtain rfl := Option.some.inj taken
      exact .inl rfl
    · cases taken
  | replayInsert task id =>
    simp only [step] at taken
    split at taken
    · next event sub now inserts rest count found =>
      split at taken
      · next worker stepped =>
        obtain rfl := Option.some.inj taken
        exact .inr ⟨_, .replay id found, stepped⟩
      · obtain rfl := Option.some.inj taken
        exact .inl rfl
    · cases taken
  | replayAnswer task =>
    simp only [step] at taken
    split at taken
    · obtain rfl := Option.some.inj taken
      exact .inl rfl
    · cases taken
  | replayFail task =>
    simp only [step] at taken
    split at taken
    · obtain rfl := Option.some.inj taken
      exact .inl rfl
    · cases taken
  | restart =>
    obtain ⟨worker, stepped, rfl⟩ := Option.map_eq_some_iff.mp taken
    exact .inr ⟨_, .restart, stepped⟩

/-- A run of the service is one of the worker, and each step of the worker is that of an action. -/
theorem run_worker {labels : List (Occurrence IndexerService ServiceAction)}
    (run : Run (Occurs (step config)) s labels t) :
    ∃ steps, Run (Occurs (DeliveryWorker.step config.webhooks)) s.worker steps t.worker ∧
      ∀ taken ∈ steps, ∃ label ∈ labels, Does config label.before label.action taken.action := by
  induction run with
  | nil s => exact ⟨[], .nil _, by simp⟩
  | @cons s u t label rest taken _ ih =>
    obtain ⟨steps, later, done⟩ := ih
    obtain ⟨before, action⟩ := label
    obtain ⟨rfl, taken⟩ := taken
    have onward : ∀ step ∈ steps, ∃ label ∈ ⟨before, action⟩ :: rest,
        Does config label.before label.action step.action := by
      intro step member
      obtain ⟨label, listed, does⟩ := done step member
      exact ⟨label, List.mem_cons_of_mem _ listed, does⟩
    rcases step_worker taken with same | ⟨act, does, stepped⟩
    · exact ⟨steps, same ▸ later, onward⟩
    · refine ⟨⟨_, act⟩ :: steps, .cons ⟨rfl, stepped⟩ later, ?_⟩
      exact List.forall_mem_cons.mpr ⟨⟨_, List.mem_cons_self, does⟩, onward⟩

/-! ## Every state that is reached -/

/-- The worker is consistent, and what it and the replays are at is stored. -/
structure Sound (config : ServiceConfig) (s : IndexerService) : Prop where
  consistent : s.worker.Consistent
  grounded : s.worker.Grounded config.webhooks
  replays : ∀ task ∈ s.replays, task.Grounded s.store

theorem start_sound : start.Sound config :=
  ⟨DeliveryWorker.start_consistent, DeliveryWorker.start_grounded,
    fun _ member => absurd member List.not_mem_nil⟩

/-- The replays of the next state go on from those of this one, or from the store. -/
theorem step_replays {action : ServiceAction} (sound : s.Sound config)
    (taken : s.step config action = some t) : ∀ task ∈ t.replays, task.Grounded s.store := by
  have called {action : StoreAction} (called : s.call config action = some t) :
      ∀ task ∈ t.replays, task.Grounded s.store := by
    rw [(call_eq_some called).2]
    exact sound.replays
  cases action with
  | index event now uuid crashed => exact called taken
  | setLastLedger ledger =>
    obtain rfl := Option.some.inj taken
    exact sound.replays
  | work action =>
    simp only [step] at taken
    split at taken
    · obtain ⟨worker, -, rfl⟩ := Option.map_eq_some_iff.mp taken
      exact sound.replays
    · cases taken
  | request authorization route met =>
    rcases request_cases taken with rfl | ⟨-, ⟨req, -, -, made⟩ | ⟨id, -, made⟩ |
      ⟨events, stored, rfl⟩⟩
    · exact sound.replays
    · exact called made
    · exact called made
    · intro task member
      rcases List.mem_append.mp member with known | new
      · exact sound.replays task known
      · obtain rfl := List.mem_singleton.mp new
        exact ⟨fun _ none => absurd none List.not_mem_nil, stored⟩
  | replayEvent task now =>
    simp only [step] at taken
    split at taken
    · next event rest count found =>
      obtain rfl := Option.some.inj taken
      have here := sound.replays _ (List.mem_of_getElem? found)
      intro other member
      rcases List.mem_or_eq_of_mem_set member with known | rfl
      · exact sound.replays other known
      · refine ⟨fun insert queued => ?_, fun later follows =>
          here.rest later (List.mem_cons_of_mem _ follows)⟩
        obtain ⟨sub, chosen, rfl⟩ := List.mem_map.mp queued
        have listed := List.mem_of_mem_filter (List.mem_of_mem_filter chosen)
        exact ⟨here.rest event List.mem_cons_self, sub, listed, .refl sub⟩
    · cases taken
  | replayInsert task id =>
    simp only [step] at taken
    split at taken
    · next event sub now inserts rest count found =>
      have here := sound.replays _ (List.mem_of_getElem? found)
      split at taken
      · obtain rfl := Option.some.inj taken
        intro other member
        rcases List.mem_or_eq_of_mem_set member with known | rfl
        · exact sound.replays other known
        · refine ⟨fun insert queued => ?_, here.rest⟩
          exact here.inserts insert (List.mem_cons_of_mem _ queued)
      · obtain rfl := Option.some.inj taken
        exact fun other member => sound.replays other (List.mem_of_mem_eraseIdx member)
    · cases taken
  | replayAnswer task =>
    simp only [step] at taken
    split at taken
    · obtain rfl := Option.some.inj taken
      exact fun other member => sound.replays other (List.mem_of_mem_eraseIdx member)
    · cases taken
  | replayFail task =>
    simp only [step] at taken
    split at taken
    · obtain rfl := Option.some.inj taken
      exact fun other member => sound.replays other (List.mem_of_mem_eraseIdx member)
    · cases taken
  | restart =>
    obtain ⟨worker, -, rfl⟩ := Option.map_eq_some_iff.mp taken
    exact fun _ member => absurd member List.not_mem_nil

end IndexerService

/-! ## Where it comes from -/

/-- A request with the key creates a subscription, whose URL passes the check. -/
def Registers (config : ServiceConfig) (sub : Subscription)
    (label : Occurrence IndexerService ServiceAction) : Prop :=
  ∃ authorization req met, label.action = .request authorization (.createSubscription req) met ∧
    hasApiKey config authorization = true ∧
    validateWebhookUrl config.urls met.lookupHost req.url = .ok () ∧
    sub = { req with id := met.id, active := true, secret := met.secret, createdAt := met.now }

/-- The poller commits an event. -/
def Indexes (event : IndexedEvent) (label : Occurrence IndexerService ServiceAction) : Prop :=
  ∃ now uuid, label.action = .index event now uuid false

theorem Does.registers {config : ServiceConfig} {s : IndexerService} {action : ServiceAction}
    {req : CreateSubscription} {id secret : String} {now : Instant}
    (does : Does config s action (.store (.create req id secret now))) :
    Registers config { req with id, active := true, secret, createdAt := now } ⟨s, action⟩ := by
  cases does with
  | work itself => cases itself
  | create key valid => exact ⟨_, req, _, rfl, key, valid, rfl⟩

theorem Does.indexes {config : ServiceConfig} {s : IndexerService} {action : ServiceAction}
    {event : IndexedEvent} {now : Instant} {uuid : String → String}
    (does : Does config s action (.store (.insert event now uuid false))) :
    Indexes event ⟨s, action⟩ := by
  cases does with
  | index => exact ⟨now, uuid, rfl⟩
  | work itself => cases itself

namespace IndexerService

variable {config : ServiceConfig} {s t u : IndexerService}
  {past labels : List (Occurrence IndexerService ServiceAction)}

/-- After some actions: what is stored was registered or indexed by one of them. -/
structure Told (config : ServiceConfig) (past : List (Occurrence IndexerService ServiceAction))
    (s : IndexerService) : Prop where
  sound : s.Sound config
  subscriptions : ∀ sub ∈ s.store.subscriptions, ∃ label ∈ past, ∃ registered,
    Registers config registered label ∧ registered.SameTerms sub
  events : ∀ event ∈ s.store.events, ∃ label ∈ past, Indexes event label

theorem Told.same {label : Occurrence IndexerService ServiceAction} (told : s.Told config past)
    (worker : t.worker = s.worker) (replays : ∀ task ∈ t.replays, task.Grounded s.store) :
    t.Told config (past ++ [label]) := by
  have store : t.store = s.store := congrArg DeliveryWorker.store worker
  refine ⟨⟨worker ▸ told.sound.consistent, worker ▸ told.sound.grounded, store ▸ replays⟩, ?_, ?_⟩
  · rw [store]
    intro sub listed
    exact WebhookStore.exists_snoc.mpr (.inl (told.subscriptions sub listed))
  · rw [store]
    intro event stored
    exact WebhookStore.exists_snoc.mpr (.inl (told.events event stored))

/-- Every action keeps it. -/
theorem step_told {action : ServiceAction} (told : s.Told config past)
    (taken : s.step config action = some t) : t.Told config (past ++ [⟨s, action⟩]) := by
  have replays := step_replays told.sound taken
  rcases step_worker taken with same | ⟨act, does, stepped⟩
  · exact told.same same replays
  have consistent := DeliveryWorker.step_consistent told.sound.consistent stepped
  have grounded : t.worker.Grounded config.webhooks := by
    refine DeliveryWorker.step_grounded told.sound.consistent told.sound.grounded ?_ stepped
    rintro event sub id now rfl
    cases does with
    | work itself => cases itself
    | replay id found =>
      exact (told.sound.replays _ (List.mem_of_getElem? found)).inserts _ List.mem_cons_self
  rcases DeliveryWorker.step_effects stepped with ⟨call, rfl, called⟩ | ⟨events, subscriptions⟩
  · have extended := WebhookStore.step_extends called
    refine ⟨⟨consistent, grounded, fun task member => (replays task member).mono extended.retains⟩,
      fun sub listed => WebhookStore.exists_snoc.mpr ?_,
      fun event stored => WebhookStore.exists_snoc.mpr ?_⟩
    · rcases extended.subscriptions sub listed with
        ⟨old, known, same⟩ | ⟨req, id, secret, now, rfl, rfl⟩
      · obtain ⟨label, member, registered, registers, first⟩ := told.subscriptions old known
        exact .inl ⟨label, member, registered, registers, first.trans same⟩
      · exact .inr ⟨_, does.registers, .refl _⟩
    · rcases extended.events event stored with known | ⟨now, uuid, rfl⟩
      · exact .inl (told.events event known)
      · exact .inr does.indexes
  · refine ⟨⟨consistent, grounded, fun task member =>
        (replays task member).mono (.of_same events subscriptions)⟩,
      fun sub listed => WebhookStore.exists_snoc.mpr (.inl ?_),
      fun event stored => WebhookStore.exists_snoc.mpr (.inl ?_)⟩
    · exact told.subscriptions sub (subscriptions ▸ listed)
    · exact told.events event (events ▸ stored)

theorem start_told : start.Told config [] :=
  ⟨start_sound, fun _ member => absurd member List.not_mem_nil,
    fun _ member => absurd member List.not_mem_nil⟩

theorem run_told (run : Run (Occurs (step config)) .start labels s) : s.Told config labels := by
  have told : s.Told config ([] ++ labels) := by
    refine run.traced (fun past s label t told taken => ?_) start_told
    obtain ⟨before, action⟩ := label
    obtain ⟨rfl, taken⟩ := taken
    exact step_told told taken
  exact told

/-- A subscription that is not active stays so, and only what was ready is sent to it. -/
theorem step_silent {action : ServiceAction} {id : String}
    (taken : s.step config action = some t)
    (ended : id ∈ s.store.subscriptions.map (·.id) ∧ s.store.activeSubscription id = none) :
    (id ∈ t.store.subscriptions.map (·.id) ∧ t.store.activeSubscription id = none) ∧
      DeliveryWorker.Drains config.webhooks id s.worker t.worker := by
  rcases step_worker taken with same | ⟨act, -, stepped⟩
  · rw [store, same]
    exact ⟨ended, .refl ..⟩
  · refine ⟨?_, DeliveryWorker.step_drains ended.2 stepped⟩
    rcases DeliveryWorker.step_effects stepped with ⟨call, -, called⟩ | ⟨-, subscriptions⟩
    · obtain ⟨rows, grows⟩ := WebhookStore.step_grows called 0
      obtain ⟨known, lost⟩ := grows.subscriptions id ended.1
      exact ⟨known, lost ended.2⟩
    · have active : t.store.activeSubscription id = s.store.activeSubscription id :=
        congrArg (List.find? fun sub : Subscription => sub.id = id && sub.active) subscriptions
      rw [active]
      exact ⟨subscriptions ▸ ended.1, ended.2⟩

end IndexerService

/-! ## Runs -/

/-- In every run, a request of a webhook is what a subscription gets for an event: the subscription
was created by a request with the key, its URL passed the check, its filters let the event pass, and
the event was committed by the poller. -/
theorem requests_accounted {config : ServiceConfig}
    {labels : List (Occurrence IndexerService ServiceAction)} {s : IndexerService}
    (run : Run (Occurs (IndexerService.step config)) .start labels s) :
    ∀ sent ∈ s.worker.requests, ∃ sub event, (∃ label ∈ labels, Registers config sub label) ∧
      (∃ label ∈ labels, Indexes event label) ∧ AccountedBy config.webhooks sub event sent := by
  intro sent member
  have told := IndexerService.run_told run
  obtain ⟨sub, listed, event, stored, accounted⟩ := told.sound.grounded.requests sent member
  obtain ⟨label, known, registered, registers, same⟩ := told.subscriptions sub listed
  exact ⟨registered, event, ⟨label, known, registers⟩, told.events event stored,
    accounted.sameTerms same.symm⟩

namespace Rehearsal

/-- The service with the key k. -/
def serviceConfig : ServiceConfig where
  webhooks
  urls := {
    parseUrl := fun _ => .ok ⟨"https", some "example.com", 443⟩
    parseIp := fun _ => none
    text := fun _ => "" }
  sha256 _ :=
    (0x8254c329a92850f6d539dd376f4816ee2764517da5e0235514af433164480d7a : Contract.BytesN 32).toList
  apiKeyHash := "8254c329a92850f6d539dd376f4816ee2764517da5e0235514af433164480d7a"

def bearer : Option (List UInt8) := some (Relayer.utf8Bytes "Bearer k")

def meeting : Surroundings where
  fails := false
  now := 0
  id := "S"
  secret := "secret"
  lookupHost _ _ := some [.v4 ⟨93, 184, 216, 34⟩]
  order := []

/-- A subscription is created, an event is indexed, and the secret is read for its delivery. -/
def signed : List ServiceAction := [
  .request bearer (.createSubscription toTarget) meeting,
  .index fundedEvent 2 (fun sub => "2" ++ sub) false,
  .work (.poll 1000000000 [fundedDelivery]), .work (.locate 0), .work (.load 0),
  .work (.readSecret 0 1000000000)]

def subscribed : List ServiceAction := signed ++ [.work (.send 0)]

end Rehearsal

open Rehearsal in
theorem requests_accounted_rehearsed : ∃ s,
    perform (IndexerService.step serviceConfig) .start subscribed = some s ∧
    s.worker.requests.length = 1 ∧
    ∀ sent ∈ s.worker.requests, ∃ sub event, AccountedBy webhooks sub event sent := by
  obtain ⟨s, performed, counted⟩ := perform_any
    (p := fun s => s.worker.requests.length = 1)
    (by decide +kernel :
      (perform (IndexerService.step serviceConfig) .start subscribed).any _ = true)
  refine ⟨s, performed, of_decide_eq_true counted, fun sent member => ?_⟩
  obtain ⟨sub, event, -, -, accounted⟩ := requests_accounted (perform_run performed) sent member
  exact ⟨sub, event, accounted⟩

/-- Once the deletion of a subscription is answered, the subscription is never active again, and
whatever else happens, nothing more is sent to it but what was ready then: requests whose secret the
worker had read, each at most once. -/
theorem deleted_stays_silent {config : ServiceConfig} {authorization : Option (List UInt8)}
    {id : String} {met : Surroundings} {labels : List (Occurrence IndexerService ServiceAction)}
    {s t u : IndexerService} (known : id ∈ s.store.subscriptions.map (·.id))
    (deleted : s.respond config authorization (.deleteSubscription id) met =
      some (t, some .noContent))
    (run : Run (Occurs (IndexerService.step config)) t labels u) :
    u.store.activeSubscription id = none ∧
      ∃ late, u.worker.requestsTo id = s.worker.requestsTo id ++ late ∧
        late.Subperm (s.worker.readyTo config.webhooks id) := by
  have called : s.call config (.delete id) = some t := by
    simp only [IndexerService.respond, IndexerService.handle] at deleted
    split at deleted
    · simp at deleted
    · split at deleted
      · simp at deleted
      · obtain ⟨v, called, answered⟩ := Option.map_eq_some_iff.mp deleted
        obtain rfl : v = t := (Prod.mk.inj answered).1
        exact called
  obtain ⟨worker, taken, rfl⟩ := Option.map_eq_some_iff.mp called
  obtain rfl := Option.some.inj taken
  obtain ⟨⟨-, ended⟩, late, told, ready⟩ := run.stays
    (fun v => (id ∈ v.store.subscriptions.map (·.id) ∧ v.store.activeSubscription id = none) ∧
      DeliveryWorker.Drains config.webhooks id s.worker v.worker)
    (by
      rintro v label w ⟨rfl, taken⟩ ⟨ended, drains⟩
      obtain ⟨still, onward⟩ := IndexerService.step_silent taken ended
      exact ⟨still, drains.trans onward⟩)
    (by
      refine ⟨⟨?_, WebhookStore.activeSubscription_eq_none.mpr fun sub listed named => ?_⟩,
        .of_subperm rfl (.refl _)⟩
      · exact (WebhookStore.deleteSubscription_ids s.store id).symm ▸ known
      · obtain ⟨old, -, rfl⟩ := List.mem_map.mp listed
        by_cases here : old.id = id
        · rw [if_pos here]
        · rw [if_neg here] at named
          exact absurd named here)
  exact ⟨ended, late, told, (List.sublist_append_left ..).subperm.trans ready⟩

namespace Rehearsal

/-- The request is sent and fails, and its delivery is tried again. -/
def afterwards : List ServiceAction := [
  .work (.send 0), .work (.reply 0 (.response 500 "Internal Server Error") 1000000000), .restart,
  .work (.poll 10000000000 [retriedDelivery]), .work (.locate 0)]

/-- The subscription is deleted, and the service goes on. -/
def deletes (s : IndexerService) : Bool :=
  match s.respond serviceConfig bearer (.deleteSubscription "S") meeting with
  | some (t, some .noContent) =>
      (perform (IndexerService.step serviceConfig) t afterwards).any fun u =>
        (u.worker.requestsTo "S").length = 1
  | _ => false

end Rehearsal

open Rehearsal in
/-- The subscription is deleted when its first request is ready. -/
theorem deleted_stays_silent_rehearsed : ∃ s t u,
    perform (IndexerService.step serviceConfig) .start signed = some s ∧
    perform (IndexerService.step serviceConfig) t afterwards = some u ∧
    (u.worker.requestsTo "S").length = 1 ∧ u.store.activeSubscription "S" = none ∧
    ∃ late, u.worker.requestsTo "S" = s.worker.requestsTo "S" ++ late ∧
      late.Subperm (s.worker.readyTo serviceConfig.webhooks "S") := by
  obtain ⟨s, performed, facts⟩ := perform_any
    (p := fun s => s.store.subscriptions.map (·.id) = ["S"] ∧ deletes s = true)
    (by decide +kernel :
      (perform (IndexerService.step serviceConfig) .start signed).any _ = true)
  obtain ⟨ids, deleted⟩ := of_decide_eq_true facts
  unfold deletes at deleted
  split at deleted
  · next t answered =>
    obtain ⟨u, onward, once⟩ := perform_any deleted
    refine ⟨s, t, u, performed, onward, of_decide_eq_true once, ?_⟩
    have known : "S" ∈ s.store.subscriptions.map (·.id) := by
      rw [ids]
      exact List.mem_cons_self
    exact deleted_stays_silent known answered (perform_run onward)
  · cases deleted

end OnboardingBridge.Indexer
