import OnboardingBridge.Relayer.Events

/-!
# The two files of a relayer

The keys of submitted events and the dead-letter queue. Each of the methods
that change them is a sequence of writes, and each write changes the memory and
then replaces one file. Putting an event into the queue takes two writes: the
stale entry is dropped, and then the new one is pushed.
-/

set_option autoImplicit false

namespace OnboardingBridge.Relayer

open Contract

/-! ## Entries -/

/-- What identifies a source-chain deposit. -/
abbrev Key : Type := Number × String

instance lawfulKey : LawfulBEq Key := inferInstance

def BridgeEvent.key (event : BridgeEvent) : Key := (event.chainId, event.txHash)

/-- An event that could not be submitted. Times are in milliseconds. -/
structure DeadLetterEntry where
  event : BridgeEvent
  enqueuedAt : Nat
  availableSigners : Nat
  requiredSigners : Nat
  reason : String
  attempts : Nat
  nextRetryAt : Nat
  terminal : Bool
deriving DecidableEq

/-- What is stored, in memory and on disk. -/
structure Stores where
  seen : List Key
  entries : List DeadLetterEntry
deriving DecidableEq

namespace Stores

/-- The keys of the dead-lettered events. -/
def letters (stores : Stores) : List Key := stores.entries.map fun entry => entry.event.key

/-- The key is marked as submitted, or its event is dead-lettered. -/
def Holds (stores : Stores) (key : Key) : Prop := key ∈ stores.seen ∨ key ∈ stores.letters

instance (stores : Stores) (key : Key) : Decidable (stores.Holds key) :=
  inferInstanceAs (Decidable (_ ∨ _))

end Stores

/-! ## Writes -/

/-- A change of the memory followed by the replacement of one file. -/
inductive Write where
  | mark (key : Key)
  | drop (key : Key)
  | push (entry : DeadLetterEntry)
deriving DecidableEq

/-- The key a write is about. -/
def Write.key : Write → Key
  | .mark key => key
  | .drop key => key
  | .push entry => entry.event.key

/-- What a write does to the memory. -/
def Stores.apply (stores : Stores) : Write → Stores
  | .mark key => { stores with seen := if key ∈ stores.seen then stores.seen else stores.seen ++ [key] }
  | .drop key => { stores with entries := stores.entries.filter fun entry => entry.event.key ≠ key }
  | .push entry => { stores with entries := stores.entries ++ [entry] }

/-- The file a write replaces gets what the memory then holds. -/
def Stores.persist (disk memory : Stores) : Write → Stores
  | .mark _ => { disk with seen := memory.seen }
  | .drop _ | .push _ => { disk with entries := memory.entries }

/-- `NonceStore.mark`. -/
def mark (key : Key) : List Write := [.mark key]

/-- `DeadLetterQueue.remove`. -/
def remove (key : Key) : List Write := [.drop key]

/-- The entry `DeadLetterQueue.enqueue` makes: the attempts of the stale entry
count. -/
def deadLetter (stores : Stores) (event : BridgeEvent) (available required : Nat) (reason : String)
    (terminal : Bool) (now : Nat) : DeadLetterEntry :=
  let previous := stores.entries.find? fun entry => entry.event.key = event.key
  let attempts := (previous.elim 0 DeadLetterEntry.attempts) + 1
  { event
    enqueuedAt := now
    availableSigners := available
    requiredSigners := required
    reason
    attempts
    nextRetryAt := now + min (60000 * 2 ^ (attempts - 1)) 3600000
    terminal }

/-- `DeadLetterQueue.enqueue`. -/
def enqueue (stores : Stores) (event : BridgeEvent) (available required : Nat) (reason : String)
    (terminal : Bool) (now : Nat) : List Write :=
  remove event.key ++ [.push (deadLetter stores event available required reason terminal now)]

/-! ## What writes do to the keys -/

namespace Stores

variable {stores : Stores} {key other : Key} {entry : DeadLetterEntry}

@[simp] theorem seen_mark : other ∈ (stores.apply (.mark key)).seen ↔
    other = key ∨ other ∈ stores.seen := by
  simp only [apply]
  split
  · next present =>
    constructor
    · exact .inr
    · rintro (rfl | member)
      · exact present
      · exact member
  · simp [or_comm]

@[simp] theorem letters_mark : (stores.apply (.mark key)).letters = stores.letters := rfl

@[simp] theorem seen_drop : (stores.apply (.drop key)).seen = stores.seen := rfl

@[simp] theorem letters_drop : (stores.apply (.drop key)).letters =
    stores.letters.filter (· ≠ key) := by
  simp only [apply, letters, List.filter_map]
  rfl

@[simp] theorem seen_push : (stores.apply (.push entry)).seen = stores.seen := rfl

@[simp] theorem letters_push : (stores.apply (.push entry)).letters =
    stores.letters ++ [entry.event.key] := by
  simp [apply, letters]

/-- A mark keeps what is held. -/
theorem Holds.mark (holds : stores.Holds other) : (stores.apply (.mark key)).Holds other := by
  rcases holds with seen | letter
  · exact .inl (seen_mark.mpr (.inr seen))
  · exact .inr letter

/-- So does a push. -/
theorem Holds.push (holds : stores.Holds other) : (stores.apply (.push entry)).Holds other := by
  rcases holds with seen | letter
  · exact .inl seen
  · exact .inr (by simp [letter])

/-- Dropping an entry loses its key only, and not that if it is marked. -/
theorem Holds.drop (holds : stores.Holds other)
    (kept : other = key → key ∈ stores.seen ∨ key ∉ stores.letters) :
    (stores.apply (.drop key)).Holds other := by
  rcases holds with seen | letter
  · exact .inl seen
  · by_cases same : other = key
    · subst same
      rcases kept rfl with seen | absent
      · exact .inl seen
      · exact absurd letter absent
    · exact .inr (by simp [letter, same])

end Stores

/-! ## The writes that may be pending -/

/-- The writes a stretch may have yet to make: those of a success, which mark a
key and drop its entry, or those of a failure, which drop the stale entry and
push a new one. -/
inductive Pending (stores : Stores) : List Write → Prop where
  | none : Pending stores []
  | success (key : Key) : Pending stores [.mark key, .drop key]
  | marked {key : Key} (seen : key ∈ stores.seen) : Pending stores [.drop key]
  | failure (entry : DeadLetterEntry) : Pending stores [.drop entry.event.key, .push entry]
  | dropped {entry : DeadLetterEntry} (absent : entry.event.key ∉ stores.letters) :
      Pending stores [.push entry]

/-- What the stores hold when the writes are made. -/
def Stores.after (stores : Stores) (writes : List Write) : Stores := writes.foldl Stores.apply stores

/-- After a write the rest is pending. -/
theorem Pending.next {stores : Stores} {next : Write} {rest : List Write}
    (pending : Pending stores (next :: rest)) : Pending (stores.apply next) rest := by
  cases pending with
  | success key => exact .marked (by simp)
  | marked => exact .none
  | failure entry => exact .dropped (by simp)
  | dropped => exact .none

/-- No write makes a second entry with the same key. -/
theorem Pending.letters_nodup {stores : Stores} {next : Write} {rest : List Write}
    (pending : Pending stores (next :: rest)) (nodup : stores.letters.Nodup) :
    (stores.apply next).letters.Nodup := by
  cases pending with
  | success key => exact nodup
  | marked => exact Stores.letters_drop ▸ nodup.filter _
  | failure entry => exact Stores.letters_drop ▸ nodup.filter _
  | dropped absent =>
    rw [Stores.letters_push]
    exact nodup.append (List.nodup_singleton _) (by simpa using absent)

/-- What is marked stays marked. -/
theorem Stores.seen_apply {stores : Stores} {key : Key} (next : Write) (seen : key ∈ stores.seen) :
    key ∈ (stores.apply next).seen := by
  cases next with
  | mark other => exact Stores.seen_mark.mpr (.inr seen)
  | drop => exact seen
  | push => exact seen

theorem Stores.seen_after {stores : Stores} {key : Key} {writes : List Write}
    (seen : key ∈ stores.seen) : key ∈ (stores.after writes).seen := by
  induction writes generalizing stores with
  | nil => exact seen
  | cons next rest ih => exact ih (Stores.seen_apply next seen)

/-- The writes of a success mark the key. -/
theorem Stores.seen_success {stores : Stores} {key other : Key} :
    other ∈ (stores.after (mark key ++ remove key)).seen ↔ other = key ∨ other ∈ stores.seen := by
  simp [mark, remove, after]

/-- The writes of a failure mark nothing. -/
theorem Stores.seen_enqueue {stores : Stores} {event : BridgeEvent} {available required : Nat}
    {reason : String} {terminal : Bool} {now : Nat} {other : Key} :
    other ∈ (stores.after (enqueue stores event available required reason terminal now)).seen ↔
      other ∈ stores.seen := by
  simp [enqueue, remove, after]

/-- After the writes of a success the key is held, with what was held before. -/
theorem Stores.holds_success {stores : Stores} {key other : Key}
    (held : other = key ∨ stores.Holds other) :
    (stores.after (mark key ++ remove key)).Holds other := by
  have marked : key ∈ (stores.apply (.mark key)).seen := by simp
  rcases held with rfl | holds
  · exact .inl (seen_success.mpr (.inl rfl))
  · exact holds.mark.drop fun _ => .inl marked

/-- So it is after those of a failure. -/
theorem Stores.holds_enqueue {stores : Stores} {event : BridgeEvent} {available required : Nat}
    {reason : String} {terminal : Bool} {now : Nat} {other : Key}
    (held : other = event.key ∨ stores.Holds other) :
    (stores.after (enqueue stores event available required reason terminal now)).Holds other := by
  by_cases same : other = event.key
  · subst same
    exact .inr (by simp [enqueue, remove, after, deadLetter])
  · have holds := held.resolve_left same
    exact (holds.drop fun absurd => (same absurd).elim).push

end OnboardingBridge.Relayer
