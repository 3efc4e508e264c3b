import OnboardingBridge.Foundations.Recency
import OnboardingBridge.Foundations.Runs
import OnboardingBridge.Sdk.Cache

/-!
# What the in-memory cache retains

Abstractly the cache is the map of the last writes, without what was deleted and what is expired.
A read never gets anything else, and it gets the last write unless as many other keys as the cache
has room for were used since the key was (`cache_retention`).
-/

set_option autoImplicit false

namespace OnboardingBridge.Sdk

open Foundations

variable {K V : Type} [DecidableEq K]

/-! ## Histories -/

/-- An operation of the cache; of a read also what it got. -/
inductive CacheCall (K V : Type) where
  | get (key : K) (value : Option V)
  | set (key : K) (value : V) (ttlMs : Option Int)
  | delete (key : K)
  | clear

structure CacheEvent (K V : Type) where
  now : Int
  call : CacheCall K V

/-- The cache after an operation. -/
def InMemoryCache.Step (cache : InMemoryCache K V) (event : CacheEvent K V)
    (after : InMemoryCache K V) : Prop :=
  match event.call with
  | .get key value => cache.get event.now key = (value, after)
  | .set key value ttlMs => after = cache.set event.now key value ttlMs
  | .delete key => after = cache.delete key
  | .clear => after = cache.clear

/-- The entry of the last write to a key, unless the key was deleted or the cache cleared since. -/
def lastWrite (key : K) (history : List (CacheEvent K V)) : Option (CacheEntry V) :=
  history.foldl (fun entry event =>
    match event.call with
    | .get _ _ => entry
    | .set other value ttlMs =>
        if other = key then some ⟨value, ttlMs.map fun ttlMs => event.now + ttlMs⟩ else entry
    | .delete other => if other = key then none else entry
    | .clear => none) none

/-- The key that an operation uses: a write, or a read that gets a value. -/
def CacheCall.touches : CacheCall K V → Option K
  | .get key value => value.map fun _ => key
  | .set key _ _ => some key
  | .delete _ => none
  | .clear => none

/-- The other keys that were used since a key was used last. -/
def touchedSince (history : List (CacheEvent K V)) (key : K) : Finset K :=
  history.foldl (fun others event =>
    match event.call.touches with
    | none => others
    | some other => if other = key then ∅ else insert other others) ∅

section History

variable (history : List (CacheEvent K V)) (key : K) (now : Int)

theorem lastWrite_get (other : K) (value : Option V) :
    lastWrite key (history ++ [⟨now, .get other value⟩]) = lastWrite key history := by
  simp [lastWrite]

theorem lastWrite_set (other : K) (value : V) (ttlMs : Option Int) :
    lastWrite key (history ++ [⟨now, .set other value ttlMs⟩]) =
      if other = key then some ⟨value, ttlMs.map fun ttlMs => now + ttlMs⟩
      else lastWrite key history := by
  simp [lastWrite]

theorem lastWrite_delete (other : K) :
    lastWrite key (history ++ [⟨now, .delete other⟩]) =
      if other = key then none else lastWrite key history := by
  simp [lastWrite]

theorem lastWrite_clear : lastWrite key (history ++ [⟨now, .clear⟩]) = none := by
  simp [lastWrite]

theorem touchedSince_append (event : CacheEvent K V) :
    touchedSince (history ++ [event]) key =
      match event.call.touches with
      | none => touchedSince history key
      | some other => if other = key then ∅ else insert other (touchedSince history key) := by
  simp [touchedSince]

end History

/-! ## The invariant -/

/-- How the entries of the cache follow from its history. -/
structure Retains (maxEntries : ℕ) (history : List (CacheEvent K V)) (cache : InMemoryCache K V) :
    Prop where
  limit : cache.maxEntries = some maxEntries
  order : RecencyOrder (touchedSince history) cache.store
  current : ∀ entry ∈ cache.store, lastWrite entry.1 history = some entry.2
  kept : ∀ (now : Int) (key : K) (entry : CacheEntry V), (∀ event ∈ history, event.now ≤ now) →
    lastWrite key history = some entry → entry.expired now = false →
    (touchedSince history key).card < maxEntries → (key, entry) ∈ cache.store

/-- What is expired stays expired. -/
theorem CacheEntry.expired_later {entry : CacheEntry V} {now later : Int}
    (expired : entry.expired now = true) (order : now ≤ later) : entry.expired later = true := by
  unfold CacheEntry.expired at *
  cases ends : entry.expiresAt with
  | none => simp [ends] at expired
  | some expiresAt =>
      simp only [ends, Option.any_some, decide_eq_true_eq] at *
      omega

namespace Retains

variable {maxEntries : ℕ} {history : List (CacheEvent K V)} {cache : InMemoryCache K V}

/-- The entry of a key that is stored is its last write. -/
theorem stored_eq (retains : Retains maxEntries history cache) {key : K}
    {found entry : CacheEntry V} (stored : (key, found) ∈ cache.store)
    (written : lastWrite key history = some entry) : found = entry :=
  Option.some.inj ((retains.current _ stored).symm.trans written)

theorem create {options : InMemoryCacheOptions} (limit : options.maxEntries = some maxEntries) :
    Retains maxEntries [] (InMemoryCache.create options : InMemoryCache K V) := by
  refine ⟨limit, RecencyOrder.nil, fun entry member => ?_, fun now key entry _ written => ?_⟩
  · cases member
  · cases written

/-- An operation that uses a key puts its last write at the end. -/
theorem used (retains : Retains maxEntries history cache) {event : CacheEvent K V} {key : K}
    {entry : CacheEntry V} (touches : event.call.touches = some key)
    (own : lastWrite key (history ++ [event]) = some entry)
    (others : ∀ other, other ≠ key →
      lastWrite other (history ++ [event]) = lastWrite other history) :
    Retains maxEntries (history ++ [event])
      { cache with store := (cache.delete key).store ++ [(key, entry)] } := by
  have since : ∀ other, other ≠ key →
      touchedSince (history ++ [event]) other = insert key (touchedSince history other) := by
    intro other different
    rw [touchedSince_append, touches]
    exact if_neg different.symm
  refine ⟨retains.limit, retains.order.moved_last entry since, ?_, ?_⟩
  · intro other member
    rcases List.mem_append.mp member with before | last
    · obtain ⟨stored, different⟩ := InMemoryCache.mem_delete.mp before
      rw [others other.1 different]
      exact retains.current other stored
    · obtain rfl := List.mem_singleton.mp last
      exact own
  · intro now other kept past written fresh few
    by_cases same : other = key
    · obtain rfl := same
      obtain rfl := Option.some.inj (own.symm.trans written)
      exact List.mem_append_right _ (List.mem_singleton_self _)
    · rw [others other same] at written
      rw [since other same] at few
      have fewBefore := lt_of_le_of_lt (Finset.card_le_card (Finset.subset_insert _ _)) few
      have stored := retains.kept now other kept
        (fun event member => past event (List.mem_append_left _ member)) written fresh fewBefore
      exact List.mem_append_left _ (InMemoryCache.mem_delete.mpr ⟨stored, same⟩)

/-- An operation that uses no key leaves some of the entries, all that are still wanted. -/
theorem unused (retains : Retains maxEntries history cache) {event : CacheEvent K V}
    {store : List (K × CacheEntry V)} (touches : event.call.touches = none)
    (sub : store.Sublist cache.store)
    (current : ∀ entry ∈ store, lastWrite entry.1 (history ++ [event]) = some entry.2)
    (kept : ∀ now, event.now ≤ now → ∀ key entry, (key, entry) ∈ cache.store ∨
      lastWrite key history ≠ some entry → lastWrite key (history ++ [event]) = some entry →
      entry.expired now = false → (key, entry) ∈ store) :
    Retains maxEntries (history ++ [event]) { cache with store } := by
  have since : touchedSince (history ++ [event]) = touchedSince history := by
    funext key
    rw [touchedSince_append, touches]
  refine ⟨retains.limit, ?_, current, ?_⟩
  · rw [since]
    exact retains.order.sublist sub
  · intro now key entry past written fresh few
    rw [since] at few
    refine kept now (past event (List.mem_append_right _ (List.mem_singleton_self _))) key entry ?_
      written fresh
    by_cases before : lastWrite key history = some entry
    · exact .inl (retains.kept now key entry
        (fun event member => past event (List.mem_append_left _ member)) before fresh few)
    · exact .inr before

/-- Sweeping at the time of an operation removes nothing that is wanted later. -/
theorem sweepExpired (retains : Retains maxEntries history cache) {event : CacheEvent K V}
    (member : event ∈ history) : Retains maxEntries history (cache.sweepExpired event.now) := by
  unfold InMemoryCache.sweepExpired
  split
  · exact retains
  · refine ⟨retains.limit, retains.order.sublist List.filter_sublist, ?_, ?_⟩
    · intro entry stored
      exact retains.current entry (List.mem_filter.mp stored).1
    · intro now key entry past written fresh few
      refine List.mem_filter.mpr ⟨retains.kept now key entry past written fresh few, ?_⟩
      cases swept : entry.expired event.now with
      | false => simp
      | true =>
          rw [CacheEntry.expired_later swept (past event member)] at fresh
          cases fresh

end Retains

omit [DecidableEq K] in
theorem InMemoryCache.dropOldest_eq (maxEntries : ℕ) (store : List (K × CacheEntry V)) :
    dropOldest maxEntries store = store.drop (store.length - maxEntries) := by
  induction store with
  | nil => simp [dropOldest]
  | cons entry rest step =>
      rw [dropOldest]
      split
      · next full =>
        rw [List.length_cons] at full ⊢
        rw [step, show rest.length + 1 - maxEntries = rest.length - maxEntries + 1 by omega,
          List.drop_succ_cons]
      · next within =>
        rw [Nat.sub_eq_zero_of_le (not_lt.mp within), List.drop_zero]

namespace Retains

variable {maxEntries : ℕ} {history : List (CacheEvent K V)} {cache : InMemoryCache K V}

/-- The oldest entries that are dropped are not wanted. -/
theorem evictOverflow (retains : Retains maxEntries history cache) :
    Retains maxEntries history cache.evictOverflow ∧
      cache.evictOverflow.store.length ≤ maxEntries := by
  unfold InMemoryCache.evictOverflow
  rw [retains.limit]
  simp only [InMemoryCache.dropOldest_eq]
  constructor
  · refine ⟨rfl, retains.order.sublist (List.drop_sublist _ _), ?_, ?_⟩
    · intro entry stored
      exact retains.current entry (List.mem_of_mem_drop stored)
    · intro now key entry past written fresh few
      exact retains.order.retains (retains.kept now key entry past written fresh few) few
  · rw [List.length_drop]
    omega

/-- After a write, which keeps to the limit. -/
theorem set (retains : Retains maxEntries history cache) (now : Int) (key : K) (value : V)
    (ttlMs : Option Int) :
    Retains maxEntries (history ++ [⟨now, .set key value ttlMs⟩])
        (cache.set now key value ttlMs) ∧
      (cache.set now key value ttlMs).store.length ≤ maxEntries := by
  have written : Retains maxEntries (history ++ [⟨now, .set key value ttlMs⟩]) _ := retains.used rfl
    ((lastWrite_set history key now key value ttlMs).trans (if_pos rfl)) fun other different =>
      (lastWrite_set history other now key value ttlMs).trans (if_neg different.symm)
  have swept := written.sweepExpired (List.mem_append_right history (List.mem_singleton_self _))
  exact swept.evictOverflow

end Retains

/-- A read gets the entry that is stored, unless it is expired. -/
theorem InMemoryCache.get_cases (cache : InMemoryCache K V) (now : Int) (key : K) :
    (∃ entry, (key, entry) ∈ cache.store ∧ entry.expired now = false ∧
      cache.get now key = (some entry.value,
        { cache with store := (cache.delete key).store ++ [(key, entry)] })) ∨
    (∃ entry, (key, entry) ∈ cache.store ∧ entry.expired now = true ∧
      cache.get now key = (none, cache.delete key)) ∨
    ((∀ entry, (key, entry) ∉ cache.store) ∧ cache.get now key = (none, cache)) := by
  unfold InMemoryCache.get
  cases found : cache.store.find? fun entry => entry.1 = key with
  | none =>
      refine .inr (.inr ⟨fun entry stored => ?_, rfl⟩)
      simpa using List.find?_eq_none.mp found _ stored
  | some pair =>
      obtain ⟨name, entry⟩ := pair
      have stored := List.mem_of_find?_eq_some found
      obtain rfl : name = key := by simpa using List.find?_some found
      cases expired : entry.expired now with
      | false => exact .inl ⟨entry, stored, expired, by simp [expired]⟩
      | true => exact .inr (.inl ⟨entry, stored, expired, by simp [expired]⟩)

namespace Retains

variable {maxEntries : ℕ} {history : List (CacheEvent K V)} {cache after : InMemoryCache K V}

/-- After a read that gets an entry, drops one that is expired or finds none. -/
theorem get (retains : Retains maxEntries history cache) {now : Int} {key : K} {value : Option V}
    (got : cache.get now key = (value, after)) :
    Retains maxEntries (history ++ [⟨now, .get key value⟩]) after := by
  have same : ∀ other, lastWrite other (history ++ [⟨now, .get key value⟩]) =
      lastWrite other history := by
    intro other
    exact lastWrite_get history other now key value
  rcases cache.get_cases now key with ⟨entry, stored, -, hit⟩ | ⟨entry, stored, expired, miss⟩ |
    ⟨-, miss⟩
  · obtain ⟨rfl, rfl⟩ := Prod.mk.inj (hit.symm.trans got)
    exact retains.used rfl ((same key).trans (retains.current _ stored)) fun other _ => same other
  · obtain ⟨rfl, rfl⟩ := Prod.mk.inj (miss.symm.trans got)
    refine retains.unused rfl List.filter_sublist ?_ ?_
    · intro other member
      rw [same]
      exact retains.current other (InMemoryCache.mem_delete.mp member).1
    · intro later past other kept wanted written fresh
      rw [same] at written
      refine InMemoryCache.mem_delete.mpr ⟨wanted.resolve_right fun lost => lost written, ?_⟩
      intro same
      change other = key at same
      rw [same] at written
      obtain rfl := retains.stored_eq stored written
      rw [CacheEntry.expired_later expired past] at fresh
      cases fresh
  · obtain ⟨rfl, rfl⟩ := Prod.mk.inj (miss.symm.trans got)
    refine retains.unused rfl (List.Sublist.refl _) ?_ ?_
    · intro other member
      rw [same]
      exact retains.current other member
    · intro later past other kept wanted written fresh
      rw [same] at written
      exact wanted.resolve_right fun lost => lost written

theorem delete (retains : Retains maxEntries history cache) (now : Int) (key : K) :
    Retains maxEntries (history ++ [⟨now, .delete key⟩]) (cache.delete key) := by
  refine retains.unused rfl List.filter_sublist ?_ ?_
  · intro other member
    obtain ⟨stored, different⟩ := InMemoryCache.mem_delete.mp member
    rw [lastWrite_delete, if_neg different.symm]
    exact retains.current other stored
  · intro later past other kept wanted written fresh
    rw [lastWrite_delete] at written
    by_cases same : key = other
    · rw [if_pos same] at written
      cases written
    · rw [if_neg same] at written
      exact InMemoryCache.mem_delete.mpr
        ⟨wanted.resolve_right fun lost => lost written, Ne.symm same⟩

theorem clear (retains : Retains maxEntries history cache) (now : Int) :
    Retains maxEntries (history ++ [⟨now, .clear⟩]) cache.clear := by
  refine retains.unused rfl (List.nil_sublist _) ?_ ?_
  · intro other member
    cases member
  · intro later past other kept wanted written fresh
    rw [lastWrite_clear] at written
    cases written

/-- The invariant is kept by every operation. -/
theorem step (retains : Retains maxEntries history cache) {event : CacheEvent K V}
    (taken : cache.Step event after) : Retains maxEntries (history ++ [event]) after := by
  obtain ⟨now, call⟩ := event
  cases call with
  | get key value => exact retains.get taken
  | set key value ttlMs =>
      obtain rfl := taken
      exact (retains.set now key value ttlMs).1
  | delete key =>
      obtain rfl := taken
      exact retains.delete now key
  | clear =>
      obtain rfl := taken
      exact retains.clear now

end Retains

/-! ## Retention -/

/-- **After every sequence of operations a read gets nothing but the last write, unexpired; it does
get it when fewer other keys than the limit were used since; and a write keeps to the limit.** -/
theorem cache_retention {options : InMemoryCacheOptions} {maxEntries : ℕ}
    (limit : options.maxEntries = some maxEntries) {history : List (CacheEvent K V)}
    {cache : InMemoryCache K V}
    (run : Run InMemoryCache.Step (InMemoryCache.create options) history cache) (now : Int)
    (later : ∀ event ∈ history, event.now ≤ now) (key : K) :
    (∀ value, (cache.get now key).1 = some value →
      ∃ entry, lastWrite key history = some entry ∧ entry.value = value ∧
        entry.expired now = false) ∧
    (∀ entry, lastWrite key history = some entry → entry.expired now = false →
      (touchedSince history key).card < maxEntries →
        (cache.get now key).1 = some entry.value) ∧
    (∀ value ttlMs, (cache.set now key value ttlMs).store.length ≤ maxEntries) := by
  have retains : Retains maxEntries ([] ++ history) cache :=
    @Run.traced _ _ _ (Retains maxEntries) (fun _ _ _ _ sofar taken => sofar.step taken) _ _ _ []
      run (.create limit)
  rw [List.nil_append] at retains
  refine ⟨?_, ?_, fun value ttlMs => (retains.set now key value ttlMs).2⟩
  · intro value got
    rcases cache.get_cases now key with ⟨entry, stored, fresh, hit⟩ | ⟨_, _, _, miss⟩ | ⟨_, miss⟩
    · rw [hit] at got
      exact ⟨entry, retains.current _ stored, Option.some.inj got, fresh⟩
    · rw [miss] at got
      cases got
    · rw [miss] at got
      cases got
  · intro entry written fresh few
    have stored := retains.kept now key entry later written fresh few
    rcases cache.get_cases now key with ⟨found, here, _, hit⟩ | ⟨found, here, expired, _⟩ |
      ⟨missing, _⟩
    · rw [hit, retains.stored_eq here written]
    · rw [retains.stored_eq here written, fresh] at expired
      cases expired
    · exact absurd stored (missing entry)

/-- Two entries fit, a read in between keeps the older one. -/
theorem cache_retention_rehearsed :
    let cache : InMemoryCache ℕ String :=
      ⟨[(1, ⟨"a", none⟩), (3, ⟨"c", some 9⟩)], some 2, 0, 4⟩
    (cache.get 5 1).1 = some "a" ∧ (cache.get 5 2).1 = none := by
  intro cache
  let history : List (CacheEvent ℕ String) :=
    [⟨1, .set 1 "a" none⟩, ⟨2, .set 2 "b" none⟩, ⟨3, .get 1 (some "a")⟩, ⟨4, .set 3 "c" (some 5)⟩]
  have run : Run InMemoryCache.Step (InMemoryCache.create ⟨some 2, some 0⟩) history cache :=
    .cons rfl (.cons rfl (.cons rfl (.cons rfl (.nil _))))
  have later : ∀ event ∈ history, event.now ≤ 5 := by decide
  obtain ⟨-, kept, -⟩ := cache_retention rfl run 5 later 1
  exact ⟨kept ⟨"a", none⟩ rfl rfl (by decide), rfl⟩

end OnboardingBridge.Sdk
