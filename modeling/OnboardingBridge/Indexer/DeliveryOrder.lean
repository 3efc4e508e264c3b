import OnboardingBridge.Indexer.DeliveryLifecycle

/-!
# The order of deliveries

A poll takes the deliveries of a subscription in the order in which they were queued, and
leaves none out that is due. One whose request has failed is not due for a while, and
neither the rest of its queue nor a later poll waits for it.
-/

set_option autoImplicit false

namespace OnboardingBridge.Indexer

open Foundations

/-! ## Conditions -/

/-- The request of a delivery is answered with success. -/
def Delivers (label : Occurrence DeliveryWorker WorkerAction) (delivery : WebhookDelivery) : Prop :=
  ∃ queue outcome now rest, label.action = .reply queue outcome now ∧
    label.before.activeQueue queue = some ⟨.sent delivery, rest⟩ ∧ outcome.error = none

/-- A delivery that is pending and goes to the same endpoint as another one. -/
def Awaits (s : DeliveryWorker) (delivery row : WebhookDelivery) : Prop :=
  row ∈ s.store.deliveries ∧ row.status = .pending ∧
    row.subscriptionId = delivery.subscriptionId

/-- What is delivered is not younger than a pending delivery of its subscription. -/
def InOrder (label : Occurrence DeliveryWorker WorkerAction) : Prop :=
  ∀ delivery row, Delivers label delivery → Awaits label.before delivery row →
    delivery.createdAt ≤ row.createdAt

/-- A delivery succeeds while an older one of its subscription has failed and is to be retried. -/
def Overtakes (label : Occurrence DeliveryWorker WorkerAction) : Prop :=
  ∃ delivery row, Delivers label delivery ∧ Awaits label.before delivery row ∧
    row.createdAt < delivery.createdAt ∧ 0 < row.attempts

/-- The time that an action reads. -/
def WorkerAction.now : WorkerAction → Option Instant
  | .store action => action.now
  | .replay _ _ _ now | .poll now _ | .readSecret _ now | .reply _ _ now => some now
  | .locate _ | .load _ | .send _ | .restart => none

/-- An action reads a time before the latest one that was read. -/
def TurnsBack (label : Occurrence DeliveryWorker WorkerAction) : Prop :=
  ∃ now, label.action.now = some now ∧ now < label.before.clock

/-! ## Queues of a poll -/

theorem pushDelivery_keys (delivery : WebhookDelivery)
    (queues : List (String × List WebhookDelivery)) :
    (pushDelivery delivery queues).map Prod.fst =
      if delivery.subscriptionId ∈ queues.map Prod.fst then queues.map Prod.fst
      else queues.map Prod.fst ++ [delivery.subscriptionId] := by
  induction queues with
  | nil => rfl
  | cons queue rest ih =>
      rw [pushDelivery]
      by_cases here : queue.1 = delivery.subscriptionId
      · rw [if_pos here, List.map_cons, List.map_cons, if_pos (by simp [here])]
      · rw [if_neg here, List.map_cons, List.map_cons, ih]
        simp only [List.mem_cons, Ne.symm here, false_or]
        split <;> rfl

/-- What becomes of the queues when a delivery is pushed. -/
theorem mem_pushDelivery {delivery : WebhookDelivery} {queues : List (String × List WebhookDelivery)}
    {pair : String × List WebhookDelivery} (distinct : (queues.map Prod.fst).Nodup)
    (member : pair ∈ pushDelivery delivery queues) :
    (pair ∈ queues ∧ pair.1 ≠ delivery.subscriptionId) ∨
    (∃ queue, (delivery.subscriptionId, queue) ∈ queues ∧
      pair = (delivery.subscriptionId, queue ++ [delivery])) ∨
    (delivery.subscriptionId ∉ queues.map Prod.fst ∧
      pair = (delivery.subscriptionId, [delivery])) := by
  induction queues with
  | nil => exact .inr (.inr ⟨List.not_mem_nil, List.mem_singleton.mp member⟩)
  | cons queue rest ih =>
      obtain ⟨fresh, distinct⟩ := List.nodup_cons.mp distinct
      rw [pushDelivery] at member
      split at member
      · next here =>
        rcases List.mem_cons.mp member with rfl | later
        · exact .inr (.inl ⟨queue.2, here ▸ List.mem_cons_self, by rw [here]⟩)
        · refine .inl ⟨List.mem_cons_of_mem _ later, fun same => fresh ?_⟩
          rw [here, ← same]
          exact List.mem_map_of_mem later
      · next elsewhere =>
        rcases List.mem_cons.mp member with rfl | later
        · exact .inl ⟨List.mem_cons_self, elsewhere⟩
        · rcases ih distinct later with ⟨known, other⟩ | ⟨found, known, same⟩ | ⟨absent, same⟩
          · exact .inl ⟨List.mem_cons_of_mem _ known, other⟩
          · exact .inr (.inl ⟨found, List.mem_cons_of_mem _ known, same⟩)
          · refine .inr (.inr ⟨?_, same⟩)
            rw [List.map_cons, List.mem_cons, not_or]
            exact ⟨Ne.symm elsewhere, absent⟩

/-- A queue has the deliveries of its subscription, in order, and every subscription has one. -/
theorem subscriptionQueues_spec (deliveries : List WebhookDelivery) :
    ((subscriptionQueues deliveries).map Prod.fst).Nodup ∧
    (∀ delivery ∈ deliveries,
      delivery.subscriptionId ∈ (subscriptionQueues deliveries).map Prod.fst) ∧
    ∀ pair ∈ subscriptionQueues deliveries,
      pair.2 = deliveries.filter fun delivery => delivery.subscriptionId = pair.1 := by
  induction deliveries using List.reverseRecOn with
  | nil => exact ⟨List.nodup_nil, fun _ member => absurd member List.not_mem_nil,
      fun _ member => absurd member List.not_mem_nil⟩
  | append_singleton earlier delivery ih =>
      obtain ⟨distinct, listed, filtered⟩ := ih
      rw [show subscriptionQueues (earlier ++ [delivery]) =
        pushDelivery delivery (subscriptionQueues earlier) by
          rw [subscriptionQueues, List.foldl_append]; rfl]
      refine ⟨?_, fun other member => ?_, fun pair member => ?_⟩
      · rw [pushDelivery_keys]
        split
        · exact distinct
        · next fresh =>
          refine List.nodup_append.mpr ⟨distinct, List.nodup_singleton _, ?_⟩
          rintro known member _ new rfl
          exact fresh (List.mem_singleton.mp new ▸ member)
      · rw [pushDelivery_keys]
        rcases List.mem_append.mp member with before | now
        · split
          · exact listed other before
          · exact List.mem_append_left _ (listed other before)
        · obtain rfl := List.mem_singleton.mp now
          split
          · next known => exact known
          · exact List.mem_append_right _ List.mem_cons_self
      · rw [List.filter_append]
        rcases mem_pushDelivery distinct member with ⟨known, other⟩ | ⟨queue, known, rfl⟩ |
          ⟨absent, rfl⟩
        · rw [filtered pair known, List.filter_cons_of_neg (by simpa using Ne.symm other),
            List.filter_nil, List.append_nil]
        · rw [← filtered _ known, List.filter_cons_of_pos (by simp), List.filter_nil]
        · have nothing : earlier.filter (fun other =>
              decide (other.subscriptionId = delivery.subscriptionId)) = [] := by
            refine List.filter_eq_nil_iff.mpr fun other member => ?_
            have elsewhere : other.subscriptionId ≠ delivery.subscriptionId := fun same =>
              absent (same ▸ listed other member)
            simpa using elsewhere
          rw [nothing, List.filter_cons_of_pos (by simp), List.filter_nil, List.nil_append]

/-! ## Invariant -/

/-- A pending delivery that was not tried yet. -/
def Untried (s : DeliveryWorker) (row : WebhookDelivery) : Prop :=
  row ∈ s.store.deliveries ∧ row.status = .pending ∧ row.attempts = 0

/-- An untried delivery that is older than an entry of a queue comes before it there. -/
def SubscriptionQueue.Orders (s : DeliveryWorker) (queue : SubscriptionQueue) : Prop :=
  ∀ before entry after, queue.entries = before ++ entry :: after →
    ∀ row, Untried s row → row.subscriptionId = entry.subscriptionId →
      row.createdAt < entry.createdAt → row ∈ before

namespace DeliveryWorker

/-- Untried deliveries are due since they were queued, the queues respect them, and nothing that is
pending is older than what succeeded. -/
structure Ordered (s : DeliveryWorker) : Prop where
  consistent : s.Consistent
  due : ∀ row, Untried s row → row.nextRetryAt = some row.createdAt
  past : ∀ row ∈ s.store.deliveries, row.createdAt ≤ s.clock
  queues : ∀ queue ∈ s.queues, queue.Orders s
  succeeded : ∀ answer ∈ s.answered, answer.2 = true → answer.1.createdAt ≤ s.clock ∧
    ∀ row, Awaits s answer.1 row → answer.1.createdAt ≤ row.createdAt
  order : s.answered.Pairwise fun earlier later => earlier.2 = true → later.2 = true →
    earlier.1.subscriptionId = later.1.subscriptionId → earlier.1.createdAt ≤ later.1.createdAt

section Steps

variable {s t : DeliveryWorker}

theorem activeQueue_mem {queue : ℕ} {q : SubscriptionQueue} (found : s.activeQueue queue = some q) :
    q ∈ s.queues := by
  obtain ⟨before, after, shape, -⟩ := activeQueue_split found
  rw [shape]
  exact List.mem_append_right _ List.mem_cons_self

/-- The entry at which a queue is has no untried delivery before it. -/
theorem Ordered.head {queue : ℕ} {q : SubscriptionQueue} {delivery : WebhookDelivery}
    {rest : List WebhookDelivery} (ordered : s.Ordered) (found : s.activeQueue queue = some q)
    (first : q.entries = delivery :: rest) {row : WebhookDelivery} (untried : Untried s row)
    (same : row.subscriptionId = delivery.subscriptionId) : delivery.createdAt ≤ row.createdAt := by
  by_contra older
  exact List.not_mem_nil (ordered.queues q (activeQueue_mem found) [] delivery rest first row untried
    same (Nat.lt_of_not_le older))

/-- So what succeeds does so in order, unless it overtakes a delivery that is to be retried. -/
theorem Ordered.inOrder {action : WorkerAction} (ordered : s.Ordered)
    (fair : ¬ Overtakes ⟨s, action⟩) : InOrder ⟨s, action⟩ := by
  intro delivery row delivers awaits
  by_contra older
  obtain ⟨queue, outcome, now, rest, -, found, -⟩ := id delivers
  obtain ⟨member, waits, same⟩ := id awaits
  rcases Nat.eq_zero_or_pos row.attempts with untried | tried
  · exact older (ordered.head found (entries_sent ..) ⟨member, waits, untried⟩ same)
  · exact fair ⟨delivery, row, delivers, awaits, Nat.lt_of_not_le older, tried⟩

/-- Queues may go on with the same entries, or without any. -/
theorem Ordered.requeue (ordered : s.Ordered) (consistent : t.Consistent)
    (store : t.store = s.store) (answered : t.answered = s.answered) (clock : s.clock ≤ t.clock)
    (queues : ∀ queue ∈ t.queues, queue.entries = [] ∨
      ∃ before ∈ s.queues, queue.entries = before.entries) : t.Ordered := by
  have rows : ∀ {row}, Untried t row ↔ Untried s row := fun {row} => by
    rw [Untried, store, Untried]
  refine ⟨consistent, fun row untried => ordered.due row (rows.mp untried), fun row member => ?_,
    fun queue member => ?_, fun answer member success => ?_, answered ▸ ordered.order⟩
  · exact (ordered.past row (store ▸ member)).trans clock
  · intro before entry after shape row untried
    rcases queues queue member with empty | ⟨old, known, same⟩
    · rw [empty] at shape
      exact absurd shape (by simp)
    · exact ordered.queues old known before entry after (same ▸ shape) row (rows.mp untried)
  · obtain ⟨below, waits⟩ := ordered.succeeded answer (answered ▸ member) success
    refine ⟨below.trans clock, fun row awaits => waits row ?_⟩
    rwa [Awaits, store] at awaits

/-- A delivery of a queue is settled, or its request has failed. -/
theorem Ordered.settle {delivery : WebhookDelivery} {change : WebhookDelivery → WebhookDelivery}
    {answers : List (WebhookDelivery × Bool)} (ordered : s.Ordered) (consistent : t.Consistent)
    (member : delivery ∈ s.store.deliveries) (waiting : delivery.status = .pending)
    (store : t.store = s.store.updateDelivery delivery.id change)
    (same : (change delivery).id = delivery.id ∧
      (change delivery).subscriptionId = delivery.subscriptionId ∧
      (change delivery).createdAt = delivery.createdAt)
    (tried : (change delivery).attempts ≠ 0)
    (queues : ∀ queue ∈ t.queues, queue ∈ s.queues ∨
      ∃ before ∈ s.queues, before.entries = delivery :: queue.entries)
    (answered : t.answered = s.answered ++ answers) (clock : s.clock ≤ t.clock)
    (only : ∀ answer ∈ answers, answer.1 = delivery)
    (single : answers.length ≤ 1)
    (success : (delivery, true) ∈ answers → (change delivery).status ≠ .pending ∧
      ∀ row, Awaits s delivery row → delivery.createdAt ≤ row.createdAt) : t.Ordered := by
  have rows : ∀ row ∈ t.store.deliveries, row = change delivery ∨
      (row ∈ s.store.deliveries ∧ row ≠ delivery) := by
    intro row here
    rw [store] at here
    obtain ⟨old, known, rfl⟩ := List.mem_map.mp here
    by_cases found : old.id = delivery.id
    · obtain rfl := ordered.consistent.row_eq known member found
      exact .inl (if_pos rfl)
    · rw [if_neg found]
      exact .inr ⟨known, fun same => found (same ▸ rfl)⟩
  have untried : ∀ {row}, Untried t row → Untried s row ∧ row ≠ delivery := by
    rintro row ⟨here, waits, fresh⟩
    rcases rows row here with rfl | ⟨known, other⟩
    · exact absurd fresh tried
    · exact ⟨⟨known, waits, fresh⟩, other⟩
  refine ⟨consistent, fun row fresh => ordered.due row (untried fresh).1, fun row here => ?_,
    fun queue listed => ?_, fun answer listed ok => ?_, ?_⟩
  · rcases rows row here with rfl | ⟨known, -⟩
    · exact same.2.2 ▸ (ordered.past delivery member).trans clock
    · exact (ordered.past row known).trans clock
  · intro before entry after shape row fresh named older
    obtain ⟨fresh, other⟩ := untried fresh
    rcases queues queue listed with known | ⟨old, known, parts⟩
    · exact ordered.queues queue known before entry after shape row fresh named older
    · refine List.mem_of_ne_of_mem other (ordered.queues old known (delivery :: before) entry after ?_
        row fresh named older)
      rw [parts, shape, List.cons_append]
  · rw [answered] at listed
    rcases List.mem_append.mp listed with earlier | now
    · obtain ⟨below, waits⟩ := ordered.succeeded answer earlier ok
      refine ⟨below.trans clock, fun row ⟨here, pending, named⟩ => ?_⟩
      rcases rows row here with rfl | ⟨known, -⟩
      · rw [same.2.2]
        exact waits delivery ⟨member, waiting, same.2.1.symm.trans named⟩
      · exact waits row ⟨known, pending, named⟩
    · obtain ⟨answer, ok'⟩ := answer
      obtain rfl : answer = delivery := only _ now
      obtain rfl : ok' = true := ok
      obtain ⟨settled, waits⟩ := success now
      refine ⟨(ordered.past answer member).trans clock, fun row ⟨here, pending, named⟩ => ?_⟩
      rcases rows row here with rfl | ⟨known, -⟩
      · exact absurd pending settled
      · exact waits row ⟨known, pending, named⟩
  · rw [answered, List.pairwise_append]
    refine ⟨ordered.order, ?_, fun earlier known now new ok ok' named => ?_⟩
    · rcases answers with _ | ⟨first, _ | ⟨second, more⟩⟩
      · exact .nil
      · exact List.pairwise_singleton ..
      · exact absurd single (by simp)
    · rw [only now new] at named ⊢
      exact (ordered.succeeded earlier known ok).2 delivery ⟨member, waiting, named.symm⟩

/-- New rows are younger than all others, as long as the clock is not turned back. -/
theorem Ordered.call {now : Instant} {rows : List WebhookDelivery} (ordered : s.Ordered)
    (consistent : t.Consistent) (queues : t.queues = s.queues) (answered : t.answered = s.answered)
    (grows : s.store.Grows now rows t.store) (forward : s.clock ≤ now) (clock : now ≤ t.clock) :
    t.Ordered := by
  have cases : ∀ row ∈ t.store.deliveries, row ∈ s.store.deliveries ∨
      (row.createdAt = now ∧ row.nextRetryAt = some row.createdAt) := by
    intro row member
    refine (List.mem_append.mp (grows.added ▸ member)).imp_right fun added => ?_
    obtain ⟨-, -, due, created⟩ := grows.new row added
    exact ⟨created, by rw [due, created]⟩
  refine ⟨consistent, fun row ⟨member, waits, fresh⟩ => ?_, fun row member => ?_,
    fun queue listed => ?_, fun answer listed ok => ?_, answered ▸ ordered.order⟩
  · rcases cases row member with known | ⟨-, due⟩
    · exact ordered.due row ⟨known, waits, fresh⟩
    · exact due
  · rcases cases row member with known | ⟨created, -⟩
    · exact ((ordered.past row known).trans forward).trans clock
    · exact created ▸ clock
  · rw [queues] at listed
    intro before entry after shape row ⟨member, waits, fresh⟩ named older
    rcases cases row member with known | ⟨created, -⟩
    · exact ordered.queues queue listed before entry after shape row ⟨known, waits, fresh⟩ named older
    · have stored : entry ∈ s.entries := List.mem_flatMap.mpr ⟨queue, listed, by rw [shape]; simp⟩
      have early := ordered.past entry (ordered.consistent.current entry stored).1
      exact absurd older (Nat.not_lt_of_le (created ▸ early.trans forward))
  · obtain ⟨below, waits⟩ := ordered.succeeded answer (answered ▸ listed) ok
    refine ⟨(below.trans forward).trans clock, fun row ⟨member, pending, named⟩ => ?_⟩
    rcases cases row member with known | ⟨created, -⟩
    · exact waits row ⟨known, pending, named⟩
    · exact created ▸ below.trans forward

/-- A poll leaves out no untried delivery that is older than one that it reads. -/
theorem Ordered.poll {now : Instant} {sorted deliveries : List WebhookDelivery}
    (ordered : s.Ordered) (done : s.entries = [])
    (read : s.store.getPendingDeliveries now sorted = some deliveries) (forward : s.clock ≤ now) :
    Ordered { s.read now with
      queues := (subscriptionQueues deliveries).map fun pair => ⟨.idle, pair.2⟩ } := by
  have consistent := ordered.consistent.poll done read
  have later : s.clock ≤ max s.clock now := le_max_left ..
  refine ⟨consistent, ordered.due, fun row member => (ordered.past row member).trans later, ?_,
    fun answer member ok => ?_, ordered.order⟩
  · unfold WebhookStore.getPendingDeliveries at read
    split at read
    · next answer =>
      obtain rfl := Option.some.inj read
      obtain ⟨answer, ascending⟩ := answer
      intro queue listed before entry after shape row untried named older
      obtain ⟨pair, member, rfl⟩ := List.mem_map.mp listed
      replace shape : pair.2 = before ++ entry :: after := shape
      have filtered := (subscriptionQueues_spec _).2.2 pair member
      -- The entry is on the page, and so is what is older and due.
      have inside : entry ∈ (sorted.take pendingLimit).filter fun delivery =>
          delivery.subscriptionId = pair.1 := by
        rw [← filtered, shape]
        simp
      obtain ⟨onPage, same⟩ := List.mem_filter.mp inside
      have due : row ∈ sorted := by
        obtain ⟨known, waits, fresh⟩ := untried
        refine answer.mem_iff.mpr (List.mem_filter.mpr ⟨known, ?_⟩)
        rw [ordered.due row ⟨known, waits, fresh⟩]
        simpa [waits] using (ordered.past row known).trans forward
      have page : row ∈ sorted.take pendingLimit := by
        rw [← List.take_append_drop pendingLimit sorted] at due ascending
        refine (List.mem_append.mp due).resolve_right fun beyond => ?_
        exact absurd ((List.pairwise_append.mp ascending).2.2 entry onPage row beyond)
          (Nat.not_le_of_lt older)
      have queued : row ∈ before ++ entry :: after := by
        rw [← shape, filtered]
        refine List.mem_filter.mpr ⟨page, ?_⟩
        rw [named]
        exact same
      refine (List.mem_append.mp queued).resolve_right fun beyond => ?_
      have sorted : (before ++ entry :: after).Pairwise
          fun row later => row.createdAt ≤ later.createdAt := by
        rw [← shape, filtered]
        exact (ascending.sublist (List.take_sublist ..)).sublist List.filter_sublist
      rcases List.mem_cons.mp beyond with rfl | beyond
      · exact absurd older (Nat.lt_irrefl _)
      · exact absurd ((List.pairwise_cons.mp (List.pairwise_append.mp sorted).2.1).1 row beyond)
          (Nat.not_le_of_lt older)
    · cases read
  · obtain ⟨below, waits⟩ := ordered.succeeded answer member ok
    exact ⟨below.trans later, waits⟩

/-- The queues, when one of them goes on. -/
theorem advance_queues {queue : ℕ} {q : SubscriptionQueue} {task : DeliveryTask}
    {rest : List WebhookDelivery} (found : s.activeQueue queue = some q) :
    ∀ other ∈ (s.advance queue task rest).queues, other ∈ s.queues ∨ other = ⟨task, rest⟩ := by
  obtain ⟨before, after, shape, advanced⟩ := activeQueue_split found
  intro other member
  rw [advanced] at member
  rw [shape]
  rcases List.mem_append.mp member with early | late
  · exact .inl (List.mem_append_left _ early)
  · rcases List.mem_cons.mp late with same | late
    · exact .inr same
    · exact .inl (List.mem_append_right _ (List.mem_cons_of_mem _ late))

/-- A queue goes on with its entries, or without any. -/
theorem Ordered.advance {queue : ℕ} {q : SubscriptionQueue} {task : DeliveryTask}
    {rest : List WebhookDelivery} (ordered : s.Ordered) (consistent : t.Consistent)
    (found : s.activeQueue queue = some q)
    (same : t.store = s.store ∧ t.answered = s.answered ∧ s.clock ≤ t.clock ∧
      t.queues = (s.advance queue task rest).queues)
    (entries : (SubscriptionQueue.mk task rest).entries = [] ∨
      (SubscriptionQueue.mk task rest).entries = q.entries) : t.Ordered := by
  obtain ⟨store, answered, clock, queues⟩ := same
  refine ordered.requeue consistent store answered clock fun other member => ?_
  rcases advance_queues found other (queues ▸ member) with known | rfl
  · exact .inr ⟨other, known, rfl⟩
  · exact entries.imp_right fun same => ⟨q, activeQueue_mem found, same⟩

/-- A queue is done with its delivery. -/
theorem Ordered.finish {queue : ℕ} {q : SubscriptionQueue} {delivery : WebhookDelivery}
    {rest : List WebhookDelivery} {change : WebhookDelivery → WebhookDelivery}
    {answers : List (WebhookDelivery × Bool)} (ordered : s.Ordered) (consistent : t.Consistent)
    (found : s.activeQueue queue = some q) (first : q.entries = delivery :: rest)
    (store : t.store = s.store.updateDelivery delivery.id change)
    (same : (change delivery).id = delivery.id ∧
      (change delivery).subscriptionId = delivery.subscriptionId ∧
      (change delivery).createdAt = delivery.createdAt)
    (tried : (change delivery).attempts ≠ 0)
    (moved : t.queues = (s.advance queue .idle rest).queues ∧ s.clock ≤ t.clock)
    (answered : t.answered = s.answered ++ answers)
    (only : ∀ answer ∈ answers, answer.1 = delivery) (single : answers.length ≤ 1)
    (success : (delivery, true) ∈ answers → (change delivery).status ≠ .pending ∧
      ∀ row, Awaits s delivery row → delivery.createdAt ≤ row.createdAt) : t.Ordered := by
  obtain ⟨parts, -⟩ := activeQueue_settle found first
  obtain ⟨member, waits⟩ := ordered.consistent.current delivery
    (parts.mem_iff.mpr List.mem_cons_self)
  refine ordered.settle consistent member waits store same tried (fun other listed => ?_) answered
    moved.2 only single success
  rcases advance_queues found other (moved.1 ▸ listed) with known | rfl
  · exact .inl known
  · exact .inr ⟨q, activeQueue_mem found, first⟩

/-- Every action keeps the order, unless it reads an earlier time or a delivery overtakes. -/
theorem step_ordered {config : WebhookConfig} {action : WorkerAction} (ordered : s.Ordered)
    (forward : ¬ TurnsBack ⟨s, action⟩) (fair : ¬ Overtakes ⟨s, action⟩)
    (taken : s.step config action = some t) : t.Ordered := by
  have consistent := step_consistent ordered.consistent taken
  have time : ∀ now, action.now = some now → s.clock ≤ now := fun now reads =>
    Nat.le_of_not_lt fun earlier => forward ⟨now, reads, earlier⟩
  have later : ∀ now, s.clock ≤ (s.read now).clock := fun now => le_max_left ..
  cases action with
  | store action =>
    obtain ⟨store, called, rfl⟩ := Option.map_eq_some_iff.mp taken
    obtain ⟨rows, grows⟩ := WebhookStore.step_grows called s.clock
    have bounds : s.clock ≤ action.now.getD s.clock ∧
        action.now.getD s.clock ≤ max s.clock (action.now.getD 0) := by
      cases reads : action.now with
      | none => exact ⟨le_rfl, le_max_left ..⟩
      | some now => exact ⟨time now reads, le_max_right ..⟩
    exact ordered.call consistent rfl rfl grows bounds.1 bounds.2
  | replay event sub id now =>
    simp only [step] at taken
    split at taken
    · obtain ⟨store, inserted, rfl⟩ := Option.map_eq_some_iff.mp taken
      exact ordered.call consistent rfl rfl (WebhookStore.insertDelivery_grows inserted)
        (time now rfl) (le_max_right ..)
    · cases taken
  | poll now sorted =>
    simp only [step] at taken
    split at taken
    · next done =>
      obtain ⟨deliveries, read, rfl⟩ := Option.map_eq_some_iff.mp taken
      exact ordered.poll done read (time now rfl)
    · cases taken
  | locate queue =>
    simp only [step] at taken
    split at taken
    · next delivery rest found =>
      split at taken
      · obtain rfl := Option.some.inj taken
        exact ordered.advance consistent found ⟨rfl, rfl, le_rfl, rfl⟩ (.inr rfl)
      · obtain rfl := Option.some.inj taken
        exact ordered.finish consistent found (entries_idle ..) rfl ⟨rfl, rfl, rfl⟩
          (Nat.succ_ne_zero _) ⟨rfl, le_rfl⟩ (List.append_nil _).symm (by simp) (by simp) (by simp)
    · cases taken
  | load queue =>
    simp only [step] at taken
    split at taken
    · next delivery url rest found =>
      split at taken
      · obtain rfl := Option.some.inj taken
        exact ordered.advance consistent found ⟨rfl, rfl, le_rfl, rfl⟩ (.inr rfl)
      · obtain rfl := Option.some.inj taken
        exact ordered.finish consistent found (entries_located ..) rfl ⟨rfl, rfl, rfl⟩
          (Nat.succ_ne_zero _) ⟨rfl, le_rfl⟩ (List.append_nil _).symm (by simp) (by simp) (by simp)
    · cases taken
  | readSecret queue now =>
    simp only [step] at taken
    split at taken
    · next delivery url event rest found =>
      split at taken
      · obtain rfl := Option.some.inj taken
        exact ordered.advance consistent found ⟨rfl, rfl, later now, rfl⟩ (.inr rfl)
      · obtain rfl := Option.some.inj taken
        exact ordered.advance consistent found ⟨rfl, rfl, later now, rfl⟩ (.inl rfl)
    · cases taken
  | send queue =>
    simp only [step] at taken
    split at taken
    · next found =>
      obtain rfl := Option.some.inj taken
      exact ordered.advance consistent found ⟨rfl, rfl, le_rfl, rfl⟩ (.inr rfl)
    · cases taken
  | reply queue outcome now =>
    simp only [step] at taken
    split at taken
    · next delivery rest found =>
      obtain rfl := Option.some.inj taken
      have inOrder := ordered.inOrder fair
      have only : ∀ answer ∈ [(delivery, outcome.error.isNone)], answer.1 = delivery := by
        intro answer member
        rw [List.mem_singleton.mp member]
      cases result : outcome.error with
      | none =>
        rw [result] at consistent only
        refine ordered.finish consistent found (entries_sent ..) rfl ⟨rfl, rfl, rfl⟩
          (Nat.succ_ne_zero _) ⟨rfl, later now⟩ rfl only le_rfl fun _ => ⟨by simp, fun row awaits => ?_⟩
        exact inOrder delivery row ⟨queue, outcome, now, rest, rfl, found, result⟩ awaits
      | some error =>
        rw [result] at consistent only
        have failed : (delivery, true) ∉ [(delivery, (some error).isNone)] := by simp
        simp only [handleRetry] at consistent ⊢
        split at consistent
        · next last =>
          simp only [if_pos last]
          exact ordered.finish consistent found (entries_sent ..) rfl ⟨rfl, rfl, rfl⟩
            (Nat.succ_ne_zero _) ⟨rfl, later now⟩ rfl only le_rfl fun member => absurd member failed
        · next again =>
          simp only [if_neg again]
          exact ordered.finish consistent found (entries_sent ..) rfl ⟨rfl, rfl, rfl⟩
            (Nat.succ_ne_zero _) ⟨rfl, later now⟩ rfl only le_rfl fun member => absurd member failed
    · cases taken
  | restart =>
    simp only [step] at taken
    split at taken
    · obtain rfl := Option.some.inj taken
      exact ordered.requeue consistent rfl rfl le_rfl fun _ member => absurd member List.not_mem_nil
    · cases taken

theorem start_ordered : start.Ordered where
  consistent := start_consistent
  due _ untried := absurd untried.1 List.not_mem_nil
  past _ member := absurd member List.not_mem_nil
  queues _ member := absurd member List.not_mem_nil
  succeeded _ member := absurd member List.not_mem_nil
  order := .nil

end Steps

end DeliveryWorker

/-! ## Runs -/

/-- In a run in which the clock is not turned back and no delivery succeeds while an older one of its
subscription is to be retried: nothing is delivered while an older delivery of its subscription is
pending, and the deliveries of a subscription succeed in the order of `created_at`. -/
theorem webhook_order {config : WebhookConfig}
    {labels : List (Occurrence DeliveryWorker WorkerAction)} {t : DeliveryWorker}
    (run : Run (Occurs (DeliveryWorker.step config)) .start labels t)
    (forward : ∀ label ∈ labels, ¬ TurnsBack label) (fair : ∀ label ∈ labels, ¬ Overtakes label) :
    (∀ label ∈ labels, InOrder label) ∧
    t.answered.Pairwise fun earlier later => earlier.2 = true → later.2 = true →
      earlier.1.subscriptionId = later.1.subscriptionId →
        earlier.1.createdAt ≤ later.1.createdAt := by
  have keeps : ∀ ⦃s label t⦄, s.Ordered → (¬ TurnsBack label ∧ ¬ Overtakes label) ∧
      Occurs (DeliveryWorker.step config) s label t → t.Ordered := by
    rintro s label t ordered ⟨⟨forward, fair⟩, rfl, taken⟩
    exact DeliveryWorker.step_ordered ordered forward fair taken
  have admitted : Run (fun s label t => (¬ TurnsBack label ∧ ¬ Overtakes label) ∧
      Occurs (DeliveryWorker.step config) s label t) .start labels t :=
    run.restrict fun label member => ⟨forward label member, fair label member⟩
  refine ⟨admitted.forall_labels keeps ?_ DeliveryWorker.start_ordered,
    (admitted.stays DeliveryWorker.Ordered (fun _ _ _ taken ordered => keeps ordered taken)
      DeliveryWorker.start_ordered).order⟩
  rintro s label t ordered ⟨⟨-, fair⟩, rfl, -⟩
  exact ordered.inOrder fair

namespace Rehearsal

/-- Another deposit for the target. -/
def laterEvent : IndexedEvent := { fundedEvent with id := "F" }

def laterDelivery : WebhookDelivery :=
  { fundedDelivery with id := "3S", eventId := "F", nextRetryAt := some 3, createdAt := 3 }

/-- A poll with two deliveries of a subscription, up to the request of the second one. -/
def sendingBoth (outcome : HttpOutcome) : List WorkerAction := [
  .store (.create toTarget "S" "secret" 0),
  .store (.insert fundedEvent 2 (fun sub => "2" ++ sub) false),
  .store (.insert laterEvent 3 (fun sub => "3" ++ sub) false),
  .poll 1000000000 [fundedDelivery, laterDelivery], .locate 0, .load 0,
  .readSecret 0 1000000000, .send 0, .reply 0 outcome 1000000000, .locate 0, .load 0,
  .readSecret 0 1000000000, .send 0]

def replyingLast : WorkerAction := .reply 0 (.response 200 "OK") 1000000000

/-- The queue of the subscription waits for the answer to the later delivery. -/
def lastSent (s : DeliveryWorker) : Bool :=
  match s.activeQueue 0 with
  | some ⟨.sent delivery, []⟩ => decide (delivery = laterDelivery)
  | _ => false

end Rehearsal

open Rehearsal in
theorem webhook_order_rehearsed : ∃ t,
    perform (DeliveryWorker.step webhooks) .start
      (sendingBoth (.response 200 "OK") ++ [replyingLast]) = some t ∧
    t.answered.length = 2 ∧
    t.answered.Pairwise fun earlier later => earlier.2 = true → later.2 = true →
      earlier.1.subscriptionId = later.1.subscriptionId →
        earlier.1.createdAt ≤ later.1.createdAt := by
  obtain ⟨t, performed, facts⟩ := perform_any
    (p := fun t => t.answered.length = 2)
    (by decide +kernel : (perform (DeliveryWorker.step webhooks) .start
      (sendingBoth (.response 200 "OK") ++ [replyingLast])).any _ = true)
  have timely : ∀ label ∈ history (DeliveryWorker.step webhooks) .start
      (sendingBoth (.response 200 "OK") ++ [replyingLast]),
      label.action.now.all (fun now => label.before.clock ≤ now) = true ∧
      label.before.store.deliveries.all (fun row => row.status ≠ .pending ∨ row.attempts = 0) =
        true := by
    decide +kernel
  refine ⟨t, performed, of_decide_eq_true facts, (webhook_order (perform_run performed) ?_ ?_).2⟩
  · rintro label member ⟨now, reads, earlier⟩
    obtain ⟨forward, -⟩ := timely label member
    rw [reads] at forward
    exact absurd (of_decide_eq_true forward) (Nat.not_le_of_lt earlier)
  · rintro label member ⟨delivery, row, -, ⟨known, waits, -⟩, -, tried⟩
    have fresh := of_decide_eq_true (List.all_eq_true.mp (timely label member).2 row known)
    exact fresh.elim (fun settled => settled waits) fun untried => by omega

/-- After a delivery has failed its queue goes on, and a younger one succeeds. -/
theorem failed_delivery_overtaken :
    ¬ ∀ (labels : List (Occurrence DeliveryWorker WorkerAction)) (t : DeliveryWorker),
      Run (Occurs (DeliveryWorker.step Rehearsal.webhooks)) .start labels t →
        ∀ label ∈ labels, InOrder label := by
  intro ordered
  obtain ⟨s, performed, facts⟩ := perform_any
    (p := fun s => Rehearsal.retriedDelivery ∈ s.store.deliveries ∧
      Rehearsal.lastSent s = true ∧
      (s.step Rehearsal.webhooks Rehearsal.replyingLast).isSome)
    (by decide +kernel : (perform (DeliveryWorker.step Rehearsal.webhooks) .start
      (Rehearsal.sendingBoth (.response 500 "Internal Server Error"))).any _ = true)
  obtain ⟨known, active, further⟩ := of_decide_eq_true facts
  obtain ⟨t, taken⟩ := Option.isSome_iff_exists.mp further
  have run := (perform_run performed).append
    (.single (⟨rfl, taken⟩ : Occurs (DeliveryWorker.step Rehearsal.webhooks) s
      ⟨s, Rehearsal.replyingLast⟩ t))
  have inOrder := ordered _ t run _ (List.mem_append_right _ List.mem_cons_self)
  unfold Rehearsal.lastSent at active
  split at active
  · next delivery found =>
    obtain rfl := of_decide_eq_true active
    have delivers : Delivers ⟨s, Rehearsal.replyingLast⟩ Rehearsal.laterDelivery :=
      ⟨0, _, _, [], rfl, found, rfl⟩
    exact absurd (inOrder _ Rehearsal.retriedDelivery delivers ⟨known, rfl, rfl⟩) (by decide)
  · cases active

end OnboardingBridge.Indexer
