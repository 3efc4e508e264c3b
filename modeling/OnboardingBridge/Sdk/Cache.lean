import Mathlib.Data.List.Basic

/-!
# The in-memory cache

The cache keeps its entries in the order in which they were used last. A read drops
an expired entry. A write drops all expired entries, if the last time was long enough
ago, and then the entries that were not used for longest while there are too many.

Nothing is read that was not written: an operation leaves only entries that were
there before, and the one that it writes.
-/

set_option autoImplicit false

namespace OnboardingBridge.Sdk

structure CacheEntry (V : Type) where
  value : V
  expiresAt : Option Int

/-- Whether an entry is expired at a time, in milliseconds. -/
def CacheEntry.expired {V : Type} (now : Int) (entry : CacheEntry V) : Bool :=
  entry.expiresAt.any fun expiresAt => expiresAt < now

structure InMemoryCacheOptions where
  maxEntries : Option ℕ
  sweepIntervalMs : Option Int

/-- The entries, the one that was used last at the end, and when expired ones were last swept. -/
structure InMemoryCache (K V : Type) where
  store : List (K × CacheEntry V)
  maxEntries : Option ℕ
  sweepIntervalMs : Int
  lastSweep : Int

namespace InMemoryCache

variable {K V : Type}

def create (options : InMemoryCacheOptions) : InMemoryCache K V :=
  ⟨[], options.maxEntries, options.sweepIntervalMs.getD 1000, 0⟩

def clear (cache : InMemoryCache K V) : InMemoryCache K V := { cache with store := [] }

/-- Remove all expired entries, unless this was done less than an interval ago. -/
def sweepExpired (now : Int) (cache : InMemoryCache K V) : InMemoryCache K V :=
  if 0 < cache.sweepIntervalMs ∧ now - cache.lastSweep < cache.sweepIntervalMs then cache
  else
    { cache with
      lastSweep := now
      store := cache.store.filter fun entry => ¬ entry.2.expired now }

/-- Drop the oldest entries while there are more than a number. -/
def dropOldest (maxEntries : ℕ) : List (K × CacheEntry V) → List (K × CacheEntry V)
  | [] => []
  | entry :: rest =>
      if maxEntries < (entry :: rest).length then dropOldest maxEntries rest else entry :: rest

def evictOverflow (cache : InMemoryCache K V) : InMemoryCache K V :=
  match cache.maxEntries with
  | none => cache
  | some maxEntries => { cache with store := dropOldest maxEntries cache.store }

section Keys

variable [DecidableEq K]

def delete (cache : InMemoryCache K V) (key : K) : InMemoryCache K V :=
  { cache with store := cache.store.filter fun entry => entry.1 ≠ key }

/-- Read a value, whose entry becomes the one that was used last. -/
def get (now : Int) (cache : InMemoryCache K V) (key : K) : Option V × InMemoryCache K V :=
  match cache.store.find? fun entry => entry.1 = key with
  | none => (none, cache)
  | some (_, entry) =>
      if entry.expired now = true then (none, cache.delete key)
      else
        (some entry.value,
          { cache with store := (cache.delete key).store ++ [(key, entry)] })

/-- Write a value, which expires after a time when one is given. -/
def set (now : Int) (cache : InMemoryCache K V) (key : K) (value : V) (ttlMs : Option Int) :
    InMemoryCache K V :=
  let entry := ⟨value, ttlMs.map fun ttlMs => now + ttlMs⟩
  let written := { cache with store := (cache.delete key).store ++ [(key, entry)] }
  (written.sweepExpired now).evictOverflow

end Keys

/-! ## What is in the cache -/

theorem dropOldest_sublist (maxEntries : ℕ) (store : List (K × CacheEntry V)) :
    (dropOldest maxEntries store).Sublist store := by
  induction store with
  | nil => exact .slnil
  | cons entry rest ih =>
      rw [dropOldest]
      split
      · exact ih.cons entry
      · exact List.Sublist.refl _

theorem sweepExpired_sublist (now : Int) (cache : InMemoryCache K V) :
    (cache.sweepExpired now).store.Sublist cache.store := by
  unfold sweepExpired
  split
  · exact List.Sublist.refl _
  · exact List.filter_sublist

theorem evictOverflow_sublist (cache : InMemoryCache K V) :
    cache.evictOverflow.store.Sublist cache.store := by
  unfold evictOverflow
  split
  · exact List.Sublist.refl _
  · exact dropOldest_sublist ..

variable [DecidableEq K]

theorem mem_delete {cache : InMemoryCache K V} {key : K} {entry : K × CacheEntry V} :
    entry ∈ (cache.delete key).store ↔ entry ∈ cache.store ∧ entry.1 ≠ key := by
  simp [delete]

/-- A write adds its own entry only. -/
theorem mem_set {now : Int} {cache : InMemoryCache K V} {key : K} {value : V} {ttlMs : Option Int}
    {entry : K × CacheEntry V} (member : entry ∈ (cache.set now key value ttlMs).store) :
    entry ∈ cache.store ∨ entry.2.value = value := by
  have written := (sweepExpired_sublist ..).subset ((evictOverflow_sublist _).subset member)
  rcases List.mem_append.mp written with before | own
  · exact .inl (mem_delete.mp before).1
  · obtain rfl := List.mem_singleton.mp own
    exact .inr rfl

/-- A read adds nothing, and gets the value of an entry. -/
theorem get_spec (now : Int) (cache : InMemoryCache K V) (key : K) :
    (cache.get now key).2.store ⊆ cache.store ∧
      ∀ value, (cache.get now key).1 = some value →
        ∃ entry ∈ cache.store, entry.1 = key ∧ entry.2.value = value := by
  unfold get
  split
  · exact ⟨List.Subset.refl _, fun value none => by cases none⟩
  · next name entry found =>
    have member := List.mem_of_find?_eq_some found
    obtain rfl : name = key := by simpa using List.find?_some found
    split
    · exact ⟨fun other kept => (mem_delete.mp kept).1, fun value none => by cases none⟩
    · refine ⟨fun other kept => ?_, fun value got => ⟨_, member, rfl, Option.some.inj got⟩⟩
      rcases List.mem_append.mp kept with before | own
      · exact (mem_delete.mp before).1
      · obtain rfl := List.mem_singleton.mp own
        exact member

end InMemoryCache

end OnboardingBridge.Sdk
