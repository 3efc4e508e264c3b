import Mathlib.Data.List.Nodup
import Mathlib.Data.List.TakeWhile
import Mathlib.Order.Nat
import OnboardingBridge.Sdk.EventSubscriber

/-!
# Handing events out once

As long as no answer comes in late, the events that were returned are those from the
start on, with none left out. An answer is late when the cursor moved since its request.
The answers that wait to come in fit the events that were handed out, if they were asked
for from the present cursor. As long as no listener is registered again for an event that
it was called for, each is called for an event once.

Nothing keeps two fetches apart: the timer starts one while another is in flight.
-/

set_option autoImplicit false

namespace OnboardingBridge.Sdk

open Foundations

/-! ## What is handed out -/

section Handing

variable {Value : Type}

/-- The event that callbacks are called for, with those that were called. -/
def Cause.handing? : Cause Value → Option (EventResponse Value × Dispatch)
  | .event raw dispatch _ => some (raw, dispatch)
  | .error _ => none

namespace EventSubscriber

/-- The event that is being handed out, if there is one. -/
def current (s : EventSubscriber Value) : List (EventResponse Value × Dispatch) :=
  (s.calling.bind fun calling => calling.cause.handing?).toList

end EventSubscriber

variable (scValToNative : Value → Option Native) (limit : ℕ)

/-- The ledger at which a subscriber begins: its start ledger, or one that was the latest later. -/
def Begins (startLedger : Option ℕ) (opening first : ℕ) : Prop :=
  match startLedger with
  | some ledger => first = ledger
  | none => opening ≤ first

/-- The events are those of the ledgers from the beginning on, one after another and up to some
event, none left out and none twice. -/
def Ledgers.Segment (startLedger : Option ℕ) (opening : ℕ) (ledgers : Ledgers Value)
    (events : List (EventResponse Value)) : Prop :=
  ∃ before after, ledgers.chain = before ++ (events ++ after) ∧
    (events ≠ [] → ∃ first, Begins startLedger opening first ∧
      (∀ raw ∈ before, raw.ledger < first) ∧ ∀ raw ∈ events, first ≤ raw.ledger)

/-- An answer with events comes in, and the cursor moved since they were asked for. -/
def ArrivesLate (label : Occurrence (EventSubscriber Value) (SubscriberAction Value)) : Prop :=
  ∃ index fetch, label.action = .arrive index ∧ label.before.fetches[index]? = some fetch ∧
    fetch.page.getD [] ≠ [] ∧ fetch.request ≠ label.before.cursor.request limit

/-- A callback is registered for a name while an event is being handed to the set of that name, and
it was called for the event already and removed since. -/
def Rejoins (label : Occurrence (EventSubscriber Value) (SubscriberAction Value)) : Prop :=
  ∃ eventName callback raw dispatch wildcard set, label.action = .on eventName callback ∧
    label.before.calling = some ⟨.event raw dispatch wildcard, set⟩ ∧
    set.registered = true ∧ set.eventName = eventName ∧
    (eventName, callback) ∈ dispatch.listeners ∧ callback ∉ label.before.listenersOf eventName

end Handing

/-! ## Ledgers -/

section Ledgers

variable {Value : Type} {ledgers : Ledgers Value} {events : List (EventResponse Value)}

theorem Ledgers.Published.nodup (published : ledgers.Published) : ledgers.chain.Nodup :=
  published.distinct.of_map _

theorem Ledgers.Published.close (published : ledgers.Published)
    (distinct : ((ledgers.chain ++ events).map EventResponse.pagingToken).Nodup)
    (next : ∀ raw ∈ events, raw.ledger = ledgers.latest + 1 ∧
      raw.pagingToken ≠ "" ∧ raw.pagingToken ≠ "now") :
    Ledgers.Published ⟨ledgers.chain ++ events, ledgers.latest + 1⟩ where
  distinct := distinct
  named := fun raw member => by
    rcases List.mem_append.mp member with before | added
    · exact published.named raw before
    · exact (next raw added).2
  ordered := by
    refine List.pairwise_append.mpr ⟨published.ordered, ?_, fun earlier before later added => ?_⟩
    · refine List.pairwise_of_forall_mem_list fun earlier left later right => ?_
      exact ((next earlier left).1.trans (next later right).1.symm).le
    · have closed := published.closed earlier before
      have now := (next later added).1
      omega
  closed := fun raw member => by
    rcases List.mem_append.mp member with before | added
    · exact (published.closed raw before).trans (Nat.le_succ _)
    · exact (next raw added).1.le

/-- The events after the one with a paging token. -/
theorem Ledgers.Published.after_token (published : ledgers.Published)
    {before after : List (EventResponse Value)} {raw : EventResponse Value}
    (parts : ledgers.chain = before ++ raw :: after) :
    (ledgers.chain.dropWhile fun other => other.pagingToken ≠ raw.pagingToken).tail = after := by
  have distinct := published.distinct
  rw [parts, List.map_append, List.map_cons] at distinct
  have apart := (List.nodup_append.mp distinct).2.2
  rw [parts, List.dropWhile_append_of_pos]
  · rw [List.dropWhile_cons_of_neg (by simp), List.tail_cons]
  · intro other member
    simpa using apart _ (List.mem_map_of_mem member) _ List.mem_cons_self

theorem Ledgers.Published.position_token (published : ledgers.Published)
    {before after : List (EventResponse Value)} {raw : EventResponse Value}
    (parts : ledgers.chain = before ++ raw :: after) :
    ledgers.position (.string raw.pagingToken) = before.length + 1 := by
  have member : raw ∈ ledgers.chain := parts ▸ List.mem_append_right _ List.mem_cons_self
  have distinct := published.distinct
  rw [parts, List.map_append, List.map_cons] at distinct
  have apart := (List.nodup_append.mp distinct).2.2
  rw [Ledgers.position, if_neg (published.named raw member).2, parts, List.map_append,
    List.map_cons, List.idxOf_append_of_notMem, List.idxOf_cons_self, List.length_map,
    Nat.add_zero]
  · exact fun earlier => apart _ earlier _ List.mem_cons_self rfl

variable {startLedger : Option ℕ} {opening : ℕ}

theorem Ledgers.Segment.close (segment : ledgers.Segment startLedger opening events)
    (added : List (EventResponse Value)) (latest : ℕ) :
    Ledgers.Segment startLedger opening ⟨ledgers.chain ++ added, latest⟩ events := by
  obtain ⟨before, after, parts, begins⟩ := segment
  refine ⟨before, after ++ added, ?_, begins⟩
  change ledgers.chain ++ added = _
  rw [parts, List.append_assoc, List.append_assoc]

theorem le_of_mem_dropWhile {chain : List (EventResponse Value)} {first : ℕ}
    (ordered : chain.Pairwise fun earlier later => earlier.ledger ≤ later.ledger) :
    ∀ raw ∈ chain.dropWhile fun raw => raw.ledger < first, first ≤ raw.ledger := by
  induction chain with
  | nil => intro raw member; cases member
  | cons head rest ih =>
      obtain ⟨least, ordered⟩ := List.pairwise_cons.mp ordered
      intro raw member
      by_cases early : head.ledger < first
      · rw [List.dropWhile_cons_of_pos (by simpa using early)] at member
        exact ih ordered raw member
      · rw [List.dropWhile_cons_of_neg (by simpa using early)] at member
        rcases List.mem_cons.mp member with rfl | later
        · exact Nat.le_of_not_lt early
        · exact (Nat.le_of_not_lt early).trans (least raw later)

/-- The first events from a ledger on begin a segment. -/
theorem Ledgers.Published.opens (published : ledgers.Published) {first : ℕ}
    (begins : Begins startLedger opening first) (size : ℕ) :
    ledgers.Segment startLedger opening
      ((ledgers.chain.dropWhile fun raw => raw.ledger < first).take size) := by
  refine ⟨ledgers.chain.takeWhile fun raw => raw.ledger < first,
    (ledgers.chain.dropWhile fun raw => raw.ledger < first).drop size, ?_, fun _ =>
      ⟨first, begins, fun raw member => ?_, fun raw member => ?_⟩⟩
  · rw [List.take_append_drop, List.takeWhile_append_dropWhile]
  · simpa using List.mem_takeWhile_imp member
  · exact le_of_mem_dropWhile published.ordered raw (List.mem_of_mem_take member)

/-- The first events after the last one of a segment go on with it. -/
theorem Ledgers.Published.goesOn (published : ledgers.Published)
    {init : List (EventResponse Value)} {last : EventResponse Value}
    (segment : ledgers.Segment startLedger opening (init ++ [last])) (size : ℕ) :
    ledgers.Segment startLedger opening ((init ++ [last]) ++
      ((ledgers.chain.dropWhile fun raw => raw.pagingToken ≠ last.pagingToken).tail).take size) := by
  obtain ⟨before, after, parts, begins⟩ := segment
  obtain ⟨first, opens, early, late⟩ := begins (by simp)
  have around : ledgers.chain = (before ++ init) ++ last :: after := by simp [parts]
  rw [published.after_token around]
  refine ⟨before, after.drop size, ?_, fun _ => ⟨first, opens, early, fun raw member => ?_⟩⟩
  · rw [List.append_assoc _ (after.take size), List.take_append_drop, parts]
  · rcases List.mem_append.mp member with known | next
    · exact late raw known
    · have ordered := published.ordered
      rw [parts] at ordered
      have later := (List.pairwise_append.mp (List.pairwise_append.mp ordered).2.1).2.2
      exact (late last (by simp)).trans (later last (by simp) raw (List.mem_of_mem_take next))

/-- The first events of a segment are one. -/
theorem Ledgers.Segment.left {later : List (EventResponse Value)}
    (segment : ledgers.Segment startLedger opening (events ++ later)) :
    ledgers.Segment startLedger opening events := by
  obtain ⟨before, after, parts, begins⟩ := segment
  refine ⟨before, later ++ after, by rw [parts, List.append_assoc], fun some => ?_⟩
  obtain ⟨first, opens, early, late⟩ := begins (List.append_ne_nil_of_left_ne_nil some later)
  exact ⟨first, opens, early, fun raw member => late raw (List.mem_append_left _ member)⟩

theorem Ledgers.Segment.sublist (segment : ledgers.Segment startLedger opening events) :
    events.Sublist ledgers.chain := by
  obtain ⟨before, after, parts, -⟩ := segment
  rw [parts]
  exact (List.sublist_append_left ..).trans (List.sublist_append_right ..)

end Ledgers

/-! ## Listeners -/

namespace EventSubscriber

section Listeners

variable {Value : Type} {s : EventSubscriber Value} {eventName : String} {callback : ℕ}

theorem addListener_nodup (sets : ∀ entry ∈ s.listeners, entry.2.Nodup) :
    ∀ entry ∈ s.addListener eventName callback, entry.2.Nodup := by
  intro entry member
  obtain ⟨before, listed, rfl⟩ := List.mem_map.mp member
  have distinct : before.2.Nodup := by
    split at listed
    · exact sets before listed
    · rcases List.mem_append.mp listed with known | added
      · exact sets before known
      · obtain rfl := List.mem_singleton.mp added
        exact List.nodup_nil
  split
  · next new => exact List.nodup_append.mpr ⟨distinct, List.nodup_singleton _, by
      rintro other known _ (_ | ⟨_, ⟨⟩⟩) rfl
      exact new.2 known⟩
  · exact distinct

theorem mem_removeListener {entry : String × List ℕ}
    (member : entry ∈ s.removeListener eventName callback) :
    ∃ before ∈ s.listeners, entry.2.Sublist before.2 := by
  obtain ⟨before, listed, rfl⟩ := List.mem_map.mp (List.mem_of_mem_filter member)
  refine ⟨before, listed, ?_⟩
  split
  · exact List.filter_sublist
  · exact List.Sublist.refl _

theorem listenersOf_nodup (sets : ∀ entry ∈ s.listeners, entry.2.Nodup) (eventName : String) :
    (s.listenersOf eventName).Nodup := by
  unfold listenersOf
  cases found : s.listeners.find? fun entry => entry.1 = eventName with
  | none => exact List.nodup_nil
  | some entry => exact sets entry (List.mem_of_find?_eq_some found)

/-- Who is registered stays so when another callback is added. -/
theorem mem_listenersOf_add {name : String} {other : ℕ} (known : other ∈ s.listenersOf name) :
    other ∈ (s.add eventName callback).listenersOf name := by
  simp only [listenersOf, add, addListener, List.find?_map, Function.comp_def] at known ⊢
  cases found : s.listeners.find? fun entry => entry.1 = name with
  | none => simp [found] at known
  | some entry =>
    rw [found] at known
    have kept : (if (s.listeners.any fun entry => entry.1 = eventName) = true then s.listeners
        else s.listeners ++ [(eventName, [])]).find? (fun entry => entry.1 = name) = some entry := by
      split
      · exact found
      · rw [List.find?_append, found, Option.some_or]
    have names : ∀ entry : String × List ℕ,
        (if entry.1 = eventName ∧ callback ∉ entry.2 then (entry.1, entry.2 ++ [callback])
          else entry).1 = entry.1 := by
      intro entry
      split <;> rfl
    simp only [names, kept, Option.map_some, Option.getD_some] at known ⊢
    split
    · exact List.mem_append_left _ known
    · exact known

/-- And the other one is registered too. -/
theorem mem_listenersOf_added : callback ∈ (s.add eventName callback).listenersOf eventName := by
  simp only [listenersOf, add, addListener, List.find?_map, Function.comp_def]
  have names : ∀ entry : String × List ℕ,
      (if entry.1 = eventName ∧ callback ∉ entry.2 then (entry.1, entry.2 ++ [callback])
        else entry).1 = entry.1 := by
    intro entry
    split <;> rfl
  obtain ⟨entry, found⟩ : ∃ entry, (if (s.listeners.any fun entry => entry.1 = eventName) = true
      then s.listeners else s.listeners ++ [(eventName, [])]).find?
        (fun entry => entry.1 = eventName) = some entry := by
    refine Option.isSome_iff_exists.mp (List.find?_isSome.mpr ?_)
    split
    · next any =>
      obtain ⟨entry, member, named⟩ := List.any_eq_true.mp any
      exact ⟨entry, member, named⟩
    · exact ⟨(eventName, []), by simp, by simp⟩
  have named : entry.1 = eventName := by simpa using List.find?_some found
  simp only [names, found, Option.map_some, Option.getD_some, named, true_and]
  split
  · exact List.mem_append_right _ List.mem_cons_self
  · next present => exact not_not.mp present

/-- Who is registered stays so when another callback is removed, or from another set. -/
theorem mem_listenersOf_remove {name : String} {other : ℕ} (known : other ∈ s.listenersOf name)
    (another : name = eventName → other ≠ callback) :
    other ∈ (s.remove eventName callback).listenersOf name := by
  simp only [listenersOf, remove, removeListener] at known ⊢
  generalize s.listeners = listeners at known ⊢
  induction listeners with
  | nil => simp at known
  | cons entry rest ih =>
      obtain ⟨entryName, callbacks⟩ := entry
      rw [List.map_cons, List.filter_cons]
      by_cases here : entryName = name
      · subst here
        rw [List.find?_cons_of_pos (by simp)] at known
        have member : other ∈ callbacks := known
        by_cases same : entryName = eventName
        · have kept : other ∈ callbacks.filter (· ≠ callback) :=
            List.mem_filter.mpr ⟨member, by simpa using another same⟩
          have nonempty := List.ne_nil_of_mem kept
          have stays : ¬ (entryName = eventName ∧ callbacks.filter (· ≠ callback) = []) :=
            fun both => nonempty both.2
          rw [if_pos same, if_pos (decide_eq_true stays), List.find?_cons_of_pos (by simp)]
          exact kept
        · rw [if_neg same, if_pos (by simp [same]), List.find?_cons_of_pos (by simp)]
          exact member
      · rw [List.find?_cons_of_neg (by simpa using here)] at known
        by_cases same : entryName = eventName
        · rw [if_pos same]
          split
          · rw [List.find?_cons_of_neg (by simpa using here)]
            exact ih known
          · exact ih known
        · rw [if_neg same, if_pos (by simp [same]), List.find?_cons_of_neg (by simpa using here)]
          exact ih known

end Listeners

end EventSubscriber

namespace Calling

variable {Value : Type} {s : EventSubscriber Value} {calling : Calling Value}
  {eventName : String} {callback : ℕ} {listenersOf : String → List ℕ}

/-- What is left of a set is registered as long as the set is, and no listener is called twice for
an event. -/
structure Fits (listenersOf : String → List ℕ) (calling : Calling Value) : Prop where
  known : calling.set.registered = true → ∀ callback ∈ calling.set.remaining,
    callback ∈ listenersOf calling.set.eventName
  apart : ∀ raw dispatch wildcard, calling.cause = .event raw dispatch wildcard →
    dispatch.payload.event.name ≠ "*" →
      (dispatch.listeners ++ calling.set.remaining.map (Prod.mk calling.set.eventName)).Nodup ∧
        (wildcard = false → calling.set.eventName ≠ "*" ∧
          ∀ listener ∈ dispatch.listeners, listener.1 ≠ "*")

/-- A callback that was not called for the event may be added. -/
theorem Fits.add (fits : calling.Fits s.listenersOf) (fresh : callback ∉ s.listenersOf eventName)
    (first : ∀ raw dispatch wildcard, calling.cause = .event raw dispatch wildcard →
      calling.set.registered = true → calling.set.eventName = eventName →
        (eventName, callback) ∉ dispatch.listeners) :
    (calling.onSet (·.add eventName callback)).Fits (s.add eventName callback).listenersOf := by
  simp only [onSet, LiveSet.add]
  split
  · next here =>
    obtain ⟨registered, rfl⟩ := here
    refine ⟨fun _ other member => ?_, fun raw dispatch wildcard caused named => ?_⟩
    · rcases List.mem_append.mp member with before | added
      · exact EventSubscriber.mem_listenersOf_add (fits.known registered other before)
      · rw [List.mem_singleton.mp added]
        exact EventSubscriber.mem_listenersOf_added
    · obtain ⟨distinct, rest⟩ := fits.apart raw dispatch wildcard caused named
      refine ⟨?_, rest⟩
      rw [List.map_append, ← List.append_assoc]
      refine List.nodup_append.mpr ⟨distinct, List.nodup_singleton _, ?_⟩
      rintro listener member _ (_ | ⟨_, ⟨⟩⟩) rfl
      rcases List.mem_append.mp member with called | waits
      · exact first raw dispatch wildcard caused registered rfl called
      · obtain ⟨other, left, same⟩ := List.mem_map.mp waits
        obtain rfl := (Prod.mk.inj same).2
        exact fresh (fits.known registered other left)
  · exact ⟨fun registered other member =>
      EventSubscriber.mem_listenersOf_add (fits.known registered other member), fits.apart⟩

/-- Removing a callback calls nobody. -/
theorem Fits.remove (fits : calling.Fits s.listenersOf) (empties : Bool) :
    (calling.onSet (·.delete eventName callback empties)).Fits
      (s.remove eventName callback).listenersOf := by
  simp only [onSet, LiveSet.delete]
  split
  · next here =>
    obtain ⟨registered, rfl⟩ := here
    refine ⟨fun _ other member => ?_, fun raw dispatch wildcard caused named => ?_⟩
    · obtain ⟨left, another⟩ := List.mem_filter.mp member
      exact EventSubscriber.mem_listenersOf_remove (fits.known registered other left)
        fun _ => of_decide_eq_true another
    · obtain ⟨distinct, rest⟩ := fits.apart raw dispatch wildcard caused named
      exact ⟨distinct.sublist (List.filter_sublist.map _ |>.append_left _), rest⟩
  · next elsewhere =>
    refine ⟨fun registered other member => ?_, fits.apart⟩
    exact EventSubscriber.mem_listenersOf_remove (fits.known registered other member)
      fun same => absurd ⟨registered, same⟩ elsewhere

theorem Fits.clear (fits : calling.Fits s.listenersOf) :
    (calling.onSet LiveSet.clear).Fits listenersOf :=
  ⟨fun registered => absurd registered Bool.false_ne_true, fits.apart⟩

/-- The next callback was not called for the event before. -/
theorem Fits.call {rest : List ℕ} (fits : calling.Fits s.listenersOf)
    (next : calling.set.remaining = callback :: rest) :
    (calling.call callback rest).Fits s.listenersOf := by
  obtain ⟨cause, ⟨eventName, registered, remaining⟩⟩ := calling
  obtain rfl : remaining = callback :: rest := next
  refine ⟨fun registered other member => ?_, fun raw dispatch wildcard caused named => ?_⟩
  · exact fits.known registered other (List.mem_cons_of_mem _ member)
  · cases cause with
    | error called => cases caused
    | event raw' before wildcard' =>
      obtain ⟨rfl, rfl, rfl⟩ := Cause.event.inj caused
      obtain ⟨distinct, rest⟩ := fits.apart raw' before wildcard' rfl named
      refine ⟨?_, fun specific => ⟨(rest specific).1, List.forall_mem_append.mpr
        ⟨(rest specific).2, List.forall_mem_singleton.mpr (rest specific).1⟩⟩⟩
      rw [List.append_assoc]
      exact distinct

end Calling

/-! ## Invariant -/

section Invariant

variable {Value : Type} (scValToNative : Value → Option Native) (limit : ℕ)
  (startLedger : Option ℕ) (opening : ℕ)

/-- The cursor of a subscriber that handed some events out. -/
def cursorAfter (handled : List (EventResponse Value)) : Cursor :=
  match handled.getLast? with
  | some raw => .string raw.pagingToken
  | none => .start startLedger

theorem request_of_last (init : List (EventResponse Value)) {last : EventResponse Value}
    (named : last.pagingToken ≠ "now") :
    (cursorAfter startLedger (init ++ [last])).request limit =
      ⟨none, some last.pagingToken, limit⟩ := by
  simp [cursorAfter, Cursor.request, named]

/-- A fetch in flight was asked for from the cursor when some of the events were handed out. When it
is still there, the answer goes on with them. -/
structure Fetch.Fits (ledgers : Ledgers Value) (handled : List (EventResponse Value))
    (fetch : Fetch Value) : Prop where
  asked : ∃ earlier, earlier <+: handled ∧
    fetch.request = (cursorAfter startLedger earlier).request limit
  continues : ∀ page, fetch.page = some page →
    fetch.request = (cursorAfter startLedger handled).request limit →
      ledgers.Segment startLedger opening (handled ++ page)

/-- The events that were handed out are the first ones that were returned, and the cursor is at the
last of them. After them comes the one that is being handed out. -/
structure EventSubscriber.Handed (s : EventSubscriber Value)
    (handled : List (EventResponse Value)) : Prop where
  parts : s.returned = handled ++ (s.current.map Prod.fst ++ s.handling.getD [])
  cursor : s.cursor = cursorAfter startLedger handled
  payloads : s.dispatched.map Dispatch.payload = handled.filterMap (parseEvent scValToNative)
  read : ∀ pair ∈ s.current, parseEvent scValToNative pair.1 = some pair.2.payload
  fits : ∀ fetch ∈ s.fetches, fetch.Fits limit startLedger opening s.ledgers handled

/-- What holds of a subscriber as long as no answer comes in late. -/
structure EventSubscriber.Sound (s : EventSubscriber Value) : Prop where
  published : s.ledgers.Published
  opened : opening ≤ s.ledgers.latest
  idle : s.polling = false
  polls : (∃ entry ∈ s.listeners, entry.2 ≠ []) → s.intervalHandle = true
  sets : ∀ entry ∈ s.listeners, entry.2.Nodup
  segment : s.ledgers.Segment startLedger opening s.returned
  handed : ∃ handled, s.Handed scValToNative limit startLedger opening handled
  listened : ∀ dispatch ∈ s.dispatched, dispatch.payload.event.name ≠ "*" →
    dispatch.listeners.Nodup
  calls : ∀ calling, s.calling = some calling → calling.Fits s.listenersOf

end Invariant

namespace EventSubscriber

section Steps

variable {Value : Type} {scValToNative : Value → Option Native} {limit : ℕ}
  {startLedger : Option ℕ} {opening : ℕ} {s t : EventSubscriber Value}

/-- The answer to a request goes on with the events that were handed out. -/
theorem Sound.serves (sound : s.Sound scValToNative limit startLedger opening)
    {handled : List (EventResponse Value)}
    (segment : s.ledgers.Segment startLedger opening handled) (size : ℕ) :
    s.ledgers.Segment startLedger opening (handled ++
      (s.ledgers.eventsFor ((cursorAfter startLedger handled).request limit)).take size) := by
  rcases List.eq_nil_or_concat' handled with rfl | ⟨init, last, rfl⟩
  · rw [List.nil_append]
    cases startLedger with
    | some ledger =>
        have begins : Begins (some ledger) opening ledger := rfl
        exact sound.published.opens begins size
    | none =>
        have begins : Begins none opening s.ledgers.latest := sound.opened
        exact sound.published.opens begins size
  · have member : last ∈ s.ledgers.chain := segment.sublist.subset (by simp)
    rw [request_of_last _ _ _ (sound.published.named last member).2]
    exact sound.published.goesOn segment size

/-- A request from before an event differs from one from after it. -/
theorem Sound.request_moves (sound : s.Sound scValToNative limit startLedger opening)
    {handled earlier : List (EventResponse Value)} {raw : EventResponse Value}
    (segment : s.ledgers.Segment startLedger opening (handled ++ [raw]))
    (before : earlier <+: handled) :
    (cursorAfter startLedger earlier).request limit ≠
      (cursorAfter startLedger (handled ++ [raw])).request limit := by
  have inside := fun member => (sound.published.named raw (segment.sublist.subset member)).2
  rw [request_of_last _ _ _ (inside (by simp))]
  rcases List.eq_nil_or_concat' earlier with rfl | ⟨init, last, rfl⟩
  · cases startLedger <;> simp [cursorAfter, Cursor.start, Cursor.request]
  · have old : last ∈ handled := before.subset (by simp)
    have known : last ∈ handled ++ [raw] := List.mem_append_left _ old
    have distinct : (handled ++ [raw]).map EventResponse.pagingToken |>.Nodup :=
      sound.published.distinct.sublist (segment.sublist.map _)
    rw [request_of_last _ _ _ (sound.published.named last (segment.sublist.subset known)).2]
    intro same
    have token : last.pagingToken = raw.pagingToken := by simpa using same
    rw [List.map_append] at distinct
    exact (List.nodup_append.mp distinct).2.2 _ (List.mem_map_of_mem old) _
      List.mem_cons_self token

theorem Sound.fetch (sound : s.Sound scValToNative limit startLedger opening) :
    (s.fetch limit).Sound scValToNative limit startLedger opening := by
  obtain ⟨handled, handed⟩ := sound.handed
  refine { sound with
    handed := ⟨handled, handed.parts, handed.cursor, handed.payloads, handed.read,
      fun fetch member => ?_⟩
    calls := sound.calls }
  rcases List.mem_append.mp member with before | new
  · exact handed.fits fetch before
  · obtain rfl := List.mem_singleton.mp new
    exact ⟨⟨handled, List.prefix_rfl, handed.cursor ▸ rfl⟩, fun page answered => by cases answered⟩

/-- The cursor moves to the next event. -/
theorem Sound.passes (sound : s.Sound scValToNative limit startLedger opening)
    {handled rest : List (EventResponse Value)} {raw : EventResponse Value}
    (handed : s.Handed scValToNative limit startLedger opening handled)
    (parts : s.returned = handled ++ raw :: rest) :
    s.moveCursor raw = { s with cursor := .string raw.pagingToken } ∧
      (∀ fetch ∈ s.fetches,
        fetch.Fits limit startLedger opening s.ledgers (handled ++ [raw])) ∧
      s.ledgers.position s.cursor ≤ s.ledgers.position (.string raw.pagingToken) := by
  have member : raw ∈ s.ledgers.chain := sound.segment.sublist.subset (by simp [parts])
  have segment : s.ledgers.Segment startLedger opening ((handled ++ [raw]) ++ rest) := by
    rw [List.append_assoc, List.singleton_append, ← parts]
    exact sound.segment
  refine ⟨if_pos (sound.published.named raw member).1, fun fetch listed => ?_, ?_⟩
  · obtain ⟨earlier, before, asked⟩ := (handed.fits fetch listed).asked
    refine ⟨⟨earlier, before.trans (List.prefix_append ..), asked⟩, fun page _ same => ?_⟩
    exact absurd (asked.symm.trans same) (sound.request_moves segment.left before)
  · obtain ⟨before, after, shape, -⟩ := segment
    have around : s.ledgers.chain = (before ++ handled) ++ raw :: (rest ++ after) := by
      simp [shape]
    rw [sound.published.position_token around, handed.cursor]
    rcases List.eq_nil_or_concat' handled with rfl | ⟨init, last, rfl⟩
    · cases startLedger with
      | some ledger => exact Nat.zero_le _
      | none => exact Nat.zero_le _
    · have at_last : cursorAfter startLedger (init ++ [last]) = .string last.pagingToken := by
        simp [cursorAfter]
      have earlier : s.ledgers.chain = (before ++ init) ++ last :: (raw :: rest ++ after) := by
        simp [shape]
      rw [at_last, sound.published.position_token earlier]
      simp only [List.length_append, List.length_singleton]
      omega

theorem cursorAfter_concat (handled : List (EventResponse Value)) (raw : EventResponse Value) :
    cursorAfter startLedger (handled ++ [raw]) = .string raw.pagingToken := by
  simp [cursorAfter]

/-- An event of an answer begins to be handed out, or cannot be read. -/
theorem Sound.handOut (sound : s.Sound scValToNative limit startLedger opening)
    {raw : EventResponse Value} {rest : List (EventResponse Value)} (idle : s.calling = none)
    (busy : s.handling = some (raw :: rest)) :
    Sound scValToNative limit startLedger opening
        { s.handOut scValToNative raw with handling := some rest } ∧
      s.ledgers.position s.cursor ≤
        (s.handOut scValToNative raw).ledgers.position (s.handOut scValToNative raw).cursor := by
  obtain ⟨handled, handed⟩ := sound.handed
  have parts := handed.parts
  simp only [current, idle, busy, Option.bind_none, Option.toList_none, List.map_nil,
    List.nil_append, Option.getD_some] at parts
  unfold EventSubscriber.handOut
  cases read : parseEvent scValToNative raw with
  | some payload =>
    refine ⟨{ sound with
      handed := ⟨handled, parts, handed.cursor, handed.payloads, ?_, handed.fits⟩
      calls := ?_ }, Nat.le_refl _⟩
    · rintro pair (_ | ⟨_, ⟨⟩⟩)
      exact read
    · rintro calling ⟨⟩
      refine ⟨fun _ _ member => member, fun raw dispatch wildcard caused named => ?_⟩
      obtain ⟨rfl, rfl, rfl⟩ := Cause.event.inj caused
      refine ⟨?_, fun _ => ⟨named, fun _ member => absurd member List.not_mem_nil⟩⟩
      exact (listenersOf_nodup sound.sets _).map fun _ _ same => congrArg Prod.snd same
  | none =>
    obtain ⟨moves, fits, forward⟩ := sound.passes handed parts
    simp only [moves]
    refine ⟨{ sound with
      handed := ⟨handled ++ [raw], ?_, (cursorAfter_concat ..).symm, ?_, ?_, fits⟩
      calls := fun calling busy => absurd (idle.symm.trans busy) nofun }, forward⟩
    · simp only [current, idle, Option.bind_none, Option.toList_none, List.map_nil,
        List.nil_append, Option.getD_some]
      rw [parts, List.append_assoc, List.singleton_append]
    · rw [handed.payloads, List.filterMap_append]
      simp [read]
    · simp [current, idle]

/-- A callback is called, or the next set is gone through, or the event was handed to all. -/
theorem Sound.callNext (sound : s.Sound scValToNative limit startLedger opening)
    {calling : Calling Value} (busy : s.calling = some calling) :
    (s.callNext calling).Sound scValToNative limit startLedger opening ∧
      s.ledgers.position s.cursor ≤
        (s.callNext calling).ledgers.position (s.callNext calling).cursor := by
  obtain ⟨handled, handed⟩ := sound.handed
  have fits := sound.calls calling busy
  obtain ⟨cause, ⟨eventName, registered, remaining⟩⟩ := calling
  have parts := handed.parts
  have read := handed.read
  simp only [current, busy, Option.bind_some] at parts read
  cases remaining with
  | cons callback rest =>
    refine ⟨{ sound with
      handed := ⟨handled, ?_, handed.cursor, handed.payloads, ?_, handed.fits⟩
      calls := ?_ }, Nat.le_refl _⟩
    · cases cause <;> exact parts
    · cases cause with
      | error called => exact read
      | event raw dispatch wildcard =>
        rintro pair (_ | ⟨_, ⟨⟩⟩)
        exact read (raw, dispatch) List.mem_cons_self
    · rintro next ⟨⟩
      exact fits.call rfl
  | nil =>
    cases cause with
    | error called =>
      refine ⟨{ sound with
        handed := ⟨handled, parts, handed.cursor, handed.payloads, read, handed.fits⟩
        calls := ?_ }, Nat.le_refl _⟩
      rintro next ⟨⟩
    | event raw dispatch wildcard =>
      have payload := read (raw, dispatch) List.mem_cons_self
      cases wildcard with
      | false =>
        refine ⟨{ sound with
          handed := ⟨handled, parts, handed.cursor, handed.payloads, read, handed.fits⟩
          calls := ?_ }, Nat.le_refl _⟩
        rintro next ⟨⟩
        refine ⟨fun _ _ member => member, fun raw dispatch wildcard caused named => ?_⟩
        obtain ⟨rfl, rfl, rfl⟩ := Cause.event.inj caused
        obtain ⟨distinct, specific⟩ := fits.apart _ _ _ rfl named
        refine ⟨List.nodup_append.mpr ⟨distinct.sublist (List.sublist_append_left ..), ?_, ?_⟩,
          nofun⟩
        · exact (listenersOf_nodup sound.sets _).map fun _ _ same => congrArg Prod.snd same
        · rintro listener called other member rfl
          obtain ⟨_, -, rfl⟩ := List.mem_map.mp member
          exact (specific rfl).2 _ called rfl
      | true =>
        obtain ⟨moves, fetches, forward⟩ := sound.passes handed parts
        have does : s.callNext ⟨.event raw dispatch true, ⟨eventName, registered, []⟩⟩ =
            { s with
              cursor := .string raw.pagingToken, calling := none
              dispatched := s.dispatched ++ [dispatch] } := by
          simp only [EventSubscriber.callNext, moves]
        rw [does]
        refine ⟨{ sound with
          handed := ⟨handled ++ [raw], ?_, (cursorAfter_concat ..).symm, ?_, ?_, fetches⟩
          listened := ?_
          calls := ?_ }, forward⟩
        · rw [List.append_assoc]
          exact parts
        · rw [List.map_append, handed.payloads, List.filterMap_append]
          simp [payload]
        · rintro pair ⟨⟩
        · refine List.forall_mem_append.mpr ⟨sound.listened, List.forall_mem_singleton.mpr ?_⟩
          exact fun named => (fits.apart _ _ _ rfl named).1.sublist (List.sublist_append_left ..)
        · rintro next ⟨⟩

theorem current_onSet (f : LiveSet → LiveSet) :
    current { s with calling := s.calling.map (·.onSet f) } = s.current := by
  unfold current
  cases s.calling <;> rfl

/-- A callback that was not called for the event is added. -/
theorem Sound.add (sound : s.Sound scValToNative limit startLedger opening) {eventName : String}
    {callback : ℕ} (once : ¬ Rejoins ⟨s, .on eventName callback⟩) {running : Bool}
    (polls : (∃ entry ∈ s.addListener eventName callback, entry.2 ≠ []) → running = true) :
    Sound scValToNative limit startLedger opening
      { s.add eventName callback with intervalHandle := running } := by
  obtain ⟨handled, handed⟩ := sound.handed
  have same : (s.add eventName callback).current = s.current := by
    by_cases known : callback ∈ s.listenersOf eventName
    · simp only [EventSubscriber.add, if_pos known, current]
    · simp only [EventSubscriber.add, if_neg known]
      exact current_onSet (s := s) _
  refine { sound with
    polls := polls
    sets := addListener_nodup sound.sets
    handed := ⟨handled, ?_, handed.cursor, handed.payloads, ?_, handed.fits⟩
    calls := fun calling busy => ?_ }
  · exact same.symm ▸ handed.parts
  · exact same.symm ▸ handed.read
  · by_cases known : callback ∈ s.listenersOf eventName
    · simp only [EventSubscriber.add, if_pos known] at busy
      have fits := sound.calls calling busy
      exact ⟨fun registered other member =>
        mem_listenersOf_add (fits.known registered other member), fits.apart⟩
    · simp only [EventSubscriber.add, if_neg known, Option.map_eq_some_iff] at busy
      obtain ⟨before, earlier, rfl⟩ := busy
      refine (sound.calls before earlier).add known fun raw dispatch wildcard caused registered
        named called => once ⟨eventName, callback, raw, dispatch, wildcard, before.set, rfl, ?_,
          registered, named, called, known⟩
      rw [earlier, ← caused]

/-- A callback is removed. -/
theorem Sound.remove (sound : s.Sound scValToNative limit startLedger opening) {eventName : String}
    {callback : ℕ} {running : Bool}
    (polls : (∃ entry ∈ s.removeListener eventName callback, entry.2 ≠ []) → running = true) :
    Sound scValToNative limit startLedger opening
      { s.remove eventName callback with intervalHandle := running } := by
  obtain ⟨handled, handed⟩ := sound.handed
  refine { sound with
    polls := polls
    sets := fun entry member => ?_
    handed := ⟨handled, ?_, handed.cursor, handed.payloads, ?_, handed.fits⟩
    calls := fun calling busy => ?_ }
  · obtain ⟨before, listed, part⟩ := mem_removeListener member
    exact (sound.sets before listed).sublist part
  · exact (current_onSet (s := s) _).symm ▸ handed.parts
  · exact (current_onSet (s := s) _).symm ▸ handed.read
  · obtain ⟨before, earlier, rfl⟩ := Option.map_eq_some_iff.mp busy
    exact (sound.calls before earlier).remove _

theorem Sound.close (sound : s.Sound scValToNative limit startLedger opening)
    {events : List (EventResponse Value)}
    (distinct : ((s.ledgers.chain ++ events).map EventResponse.pagingToken).Nodup)
    (next : ∀ raw ∈ events, raw.ledger = s.ledgers.latest + 1 ∧
      raw.pagingToken ≠ "" ∧ raw.pagingToken ≠ "now") :
    Sound scValToNative limit startLedger opening
      { s with ledgers := ⟨s.ledgers.chain ++ events, s.ledgers.latest + 1⟩ } :=
  { sound with
    published := sound.published.close distinct next
    opened := sound.opened.trans (Nat.le_succ _)
    segment := sound.segment.close events _
    handed := by
      obtain ⟨handled, handed⟩ := sound.handed
      refine ⟨handled, handed.parts, handed.cursor, handed.payloads, handed.read,
        fun fetch member => ?_⟩
      have fits := handed.fits fetch member
      exact ⟨fits.asked, fun page answered same => (fits.continues page answered same).close _ _⟩
    calls := sound.calls }

/-- What a step keeps, unless an answer comes in late or a callback is registered again. -/
theorem step_sound {action : SubscriberAction Value}
    (sound : s.Sound scValToNative limit startLedger opening)
    (timely : ¬ ArrivesLate limit ⟨s, action⟩) (once : ¬ Rejoins ⟨s, action⟩)
    (taken : s.step scValToNative limit action = some t) :
    t.Sound scValToNative limit startLedger opening := by
  obtain ⟨handled, handed⟩ := sound.handed
  cases action with
  | close events =>
    simp only [step, Option.ite_none_right_eq_some, Option.some.injEq] at taken
    obtain ⟨⟨distinct, next⟩, rfl⟩ := taken
    exact sound.close distinct next
  | on eventName callback =>
    obtain rfl := Option.some.inj taken
    unfold on
    split
    · exact sound
    · split
      · exact sound.add once fun _ => rfl
      · next running =>
        have runs : s.intervalHandle = true := by simpa [sound.idle] using running
        exact sound.add once fun _ => runs
  | unsubscribe eventName callback stops =>
    simp only [step] at taken
    split at taken
    · obtain rfl := Option.some.inj taken
      refine sound.remove fun listened => sound.polls ?_
      obtain ⟨entry, member, nonempty⟩ := listened
      obtain ⟨before, listed, part⟩ := mem_removeListener member
      exact ⟨before, listed, fun empty => nonempty (List.sublist_nil.mp (empty ▸ part))⟩
    · simp only [Option.ite_none_right_eq_some, Option.some.injEq] at taken
      obtain ⟨unheard, rfl⟩ := taken
      refine sound.remove fun listened => ?_
      obtain ⟨entry, member, nonempty⟩ := listened
      have none := List.sum_eq_zero_iff_forall_eq_nat.mp unheard _ (List.mem_map_of_mem member)
      exact absurd (List.length_eq_zero_iff.mp none) nonempty
  | destroy =>
    obtain rfl := Option.some.inj taken
    refine { sound with
      polls := fun listened => by
        obtain ⟨entry, member, -⟩ := listened
        cases member
      sets := fun entry member => by cases member
      handed := ⟨handled, ?_, handed.cursor, handed.payloads, ?_, handed.fits⟩
      calls := fun calling busy => ?_ }
    · exact (current_onSet (s := s) _).symm ▸ handed.parts
    · exact (current_onSet (s := s) _).symm ▸ handed.read
    · obtain ⟨before, earlier, rfl⟩ := Option.map_eq_some_iff.mp busy
      exact (sound.calls before earlier).clear
  | poll =>
    obtain rfl := Option.some.inj taken
    exact sound.fetch
  | tick =>
    simp only [step, Option.ite_none_right_eq_some, Option.some.injEq] at taken
    obtain ⟨-, rfl⟩ := taken
    exact sound.fetch
  | serve index size =>
    simp only [step] at taken
    split at taken
    · next request found =>
      simp only [Option.ite_none_right_eq_some, Option.some.injEq] at taken
      obtain ⟨-, rfl⟩ := taken
      refine { sound with
        handed := ⟨handled, handed.parts, handed.cursor, handed.payloads, handed.read,
          fun fetch member => ?_⟩
        calls := sound.calls }
      rcases List.mem_or_eq_of_mem_set member with before | rfl
      · exact handed.fits fetch before
      · have fits := handed.fits _ (List.mem_of_getElem? found)
        refine ⟨fits.asked, fun page answered same => ?_⟩
        obtain rfl := Option.some.inj answered
        have handedOut : s.ledgers.Segment startLedger opening handled :=
          (handed.parts ▸ sound.segment).left
        rw [show request = _ from same]
        exact sound.serves handedOut size
    · cases taken
  | reject index =>
    simp only [step, Option.ite_none_right_eq_some, Option.some.injEq, Option.isNone_iff_eq_none]
      at taken
    obtain ⟨⟨idle, -, -⟩, rfl⟩ := taken
    have parts := handed.parts
    simp only [current, idle] at parts
    refine { sound with
      handed := ⟨handled, parts, handed.cursor, handed.payloads, nofun, fun fetch member =>
        handed.fits fetch (List.mem_of_mem_eraseIdx member)⟩
      calls := ?_ }
    rintro calling ⟨⟩
    exact ⟨fun _ _ member => member, nofun⟩
  | arrive index =>
    simp only [step] at taken
    split at taken
    · next request page uncalled idle found =>
      obtain rfl := Option.some.inj taken
      have parts := handed.parts
      simp only [current, uncalled, idle, Option.bind_none, Option.toList_none, List.map_nil,
        Option.getD_none, List.append_nil] at parts
      have fits := handed.fits _ (List.mem_of_getElem? found)
      refine { sound with
        segment := ?_
        handed := ⟨handled, ?_, handed.cursor, handed.payloads, ?_,
          fun fetch member => handed.fits fetch (List.mem_of_mem_eraseIdx member)⟩
        calls := fun calling busy => absurd (uncalled.symm.trans busy) nofun }
      · change s.ledgers.Segment startLedger opening (s.returned ++ page)
        by_cases empty : page = []
        · rw [empty, List.append_nil]
          exact sound.segment
        · rw [parts]
          refine fits.continues page rfl ?_
          by_contra moved
          exact timely ⟨index, _, rfl, found, empty, handed.cursor ▸ moved⟩
      · simp [current, uncalled, parts]
      · simp [current, uncalled]
    · cases taken
  | handle =>
    simp only [step] at taken
    split at taken
    · next calling _ busy =>
      obtain rfl := Option.some.inj taken
      exact (sound.callNext busy).1
    · cases taken
    · next uncalled busy =>
      obtain rfl := Option.some.inj taken
      have parts := handed.parts
      rw [busy] at parts
      exact { sound with
        handed := ⟨handled, parts, handed.cursor, handed.payloads, handed.read, handed.fits⟩
        calls := sound.calls }
    · next raw rest uncalled busy =>
      obtain rfl := Option.some.inj taken
      exact (sound.handOut uncalled busy).1

theorem start_sound {ledgers : Ledgers Value} (published : ledgers.Published) :
    (start startLedger ledgers).Sound scValToNative limit startLedger ledgers.latest where
  published := published
  opened := Nat.le_refl _
  idle := rfl
  polls := by
    rintro ⟨entry, member, -⟩
    cases member
  sets := fun entry member => by cases member
  segment := ⟨[], ledgers.chain, rfl, fun some => absurd rfl some⟩
  handed := ⟨[], rfl, rfl, rfl, nofun, fun fetch member => by cases member⟩
  listened := fun dispatch member => by cases member
  calls := nofun

end Steps

end EventSubscriber

/-! ## Runs -/

namespace Rehearsal

def funding (ledger : ℕ) (pagingToken : String) : EventResponse Native where
  topic := [.string "CAddressFunded", .string "asset", .string "source", .string "target"]
  value := .array [.other (some "100"), .other (some "1")]
  ledger := ledger
  pagingToken := pagingToken

/-- The ledgers when a subscriber is made: there is one event, in the latest one. -/
def ledgers : Ledgers Native := ⟨[funding 5 "0000000021474840576-0000000000"], 5⟩

/-- What a fetch does when it is alone: its answer comes in, and its event is handed to a listener
of its name. -/
def fetching : List (SubscriberAction Native) :=
  [.tick, .serve 0 100, .arrive 0, .handle, .handle, .handle, .handle, .handle]

/-- Two fetches one after another, with a new event in between. -/
def following : List (SubscriberAction Native) :=
  .on "CAddressFunded" 0 :: fetching ++
    .close [funding 6 "0000000025769807872-0000000000"] :: fetching

/-- A fetch that is not done when the timer starts the next one. -/
def overlapping : List (SubscriberAction Native) := [
  .on "CAddressFunded" 0, .tick, .tick, .serve 0 100, .serve 1 100,
  .arrive 0, .handle, .handle, .handle, .handle, .handle,
  .arrive 0, .handle, .handle, .handle, .handle, .handle]

end Rehearsal

end OnboardingBridge.Sdk
