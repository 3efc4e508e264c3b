import OnboardingBridge.Foundations.Checkpoints
import OnboardingBridge.Foundations.Machines
import OnboardingBridge.Relayer.SolanaDeposits

/-!
# The Solana listener

Every connection replaces the promise queue by one that begins with a backfill, and
chains the notifications of its subscription behind it; the queues of earlier
connections run on. They all share one checkpoint, the signature that was recorded last.
A step is at most a stretch of code between two awaits, so that the queues interleave in
every way; a request, a handler or a save may fail, the socket may drop, and a restarted
listener goes on from the stored signature. An HTTP URL is configured.

The history of the program's transactions, what was handed over, and how long the history
was when the first page of a backfill was served are there to speak about runs.
-/

set_option autoImplicit false

namespace OnboardingBridge.Relayer

open Foundations

/-! ## Transactions and their lists -/

/-- A finalised transaction that mentions the program. -/
structure SolanaTx where
  signature : Text
  /-- Whether `err` is set. -/
  failed : Bool
  logs : List Text
deriving DecidableEq

/-- The events that a transaction is to hand over. -/
def SolanaListenerConfig.accepted (config : SolanaListenerConfig) (tx : SolanaTx) :
    List BridgeEvent :=
  if tx.failed = true then [] else extractBridgeFundEvents config tx.signature tx.logs

def signatureLimit : Nat := 1000

/-- The answer of `getSignaturesForAddress`: newest first, older than one signature and newer
than another. -/
def getSignaturesForAddress (finalised : List SolanaTx) (before until_ : Option Text) :
    List SolanaTx :=
  let older : List SolanaTx := match before with
    | none => finalised.reverse
    | some signature => (finalised.reverse.dropWhile fun tx => tx.signature ≠ signature).drop 1
  (older.takeWhile fun tx => some tx.signature ≠ until_).take signatureLimit

/-! ## States -/

/-- What the task of a queue is at: a backfill that begins, lists pages (the request is under
way, or served), or replays; a transaction that is fetched, or whose events are handed over one
by one. A queue with nothing to replay is free for its next task. -/
inductive QueuePhase where
  | starting
  | listing (before : Option Text) (pending : List SolanaTx) (until_ : Option Text)
  | listed (pending page : List SolanaTx)
  | replaying (rest : List SolanaTx)
  | fetching (entry : SolanaTx) (rest : List SolanaTx)
  | delivering (tx : SolanaTx) (events : List BridgeEvent) (rest : List SolanaTx)
  | awaiting (tx : SolanaTx) (events : List BridgeEvent) (rest : List SolanaTx)
  | rejected
deriving DecidableEq

/-- Whether a request, a handler or a save may fail. -/
def QueuePhase.mayFail : QueuePhase → Bool
  | .listing .. | .listed .. | .fetching .. | .awaiting .. | .delivering _ [] _ => true
  | .starting | .replaying _ | .delivering _ (_ :: _) _ | .rejected => false

structure DeliveryQueue where
  phase : QueuePhase
  /-- The notifications that are chained behind the task. -/
  waiting : List SolanaTx
  /-- How long the history was when the first page was served. -/
  snapshot : Option Nat
deriving DecidableEq

/-- A subscription tells of what is finalised after it became active, in order. -/
structure Subscription where
  activated : Nat
  next : Nat
deriving DecidableEq

inductive Socket where
  | closed
  | connecting
  | opened (subscription : Option Subscription)
deriving DecidableEq

structure SolanaListener where
  lastSignature : Option Text
  signatureStore : Option Text
  socket : Socket
  /-- The queue of every connection, and which of them is the current one. -/
  queues : List DeliveryQueue
  deliveryQueue : Nat
  /-- The history, oldest first. -/
  finalised : List SolanaTx
  handed : List (Text × BridgeEvent)

namespace SolanaListener

/-- A listener that starts from what its file holds. The resolved promise that the source begins
with is replaced before anything is chained to it. -/
def start (signatureStore : Option Text) (finalised : List SolanaTx) : SolanaListener where
  lastSignature := signatureStore
  signatureStore
  socket := .closed
  queues := []
  deliveryQueue := 0
  finalised
  handed := []

/-- Move the task of a queue on. -/
def advance (s : SolanaListener) (queue : Nat) (next : QueuePhase) : SolanaListener :=
  { s with queues := s.queues.modify queue fun q => { q with phase := next } }

/-- `recordSignature`, when saving works. -/
def recordSignature (s : SolanaListener) (signature : Text) : SolanaListener :=
  { s with signatureStore := some signature, lastSignature := some signature }

/-- How a backfill begins. -/
def backfill (s : SolanaListener) : QueuePhase :=
  match s.lastSignature with
  | none | some [] => .replaying []
  | some signature => .listing none [] (some signature)

/-- The rest of the loop of `backfill` after a page. The checkpoint is read anew. -/
def turnPage (s : SolanaListener) (pending page : List SolanaTx) : QueuePhase :=
  if page = [] then .replaying pending.reverse
  else match page.findIdx? fun entry => some entry.signature = s.lastSignature with
    | some checkpointIndex => .replaying (pending ++ page.take checkpointIndex).reverse
    | none =>
        if page.length < signatureLimit then .replaying (pending ++ page).reverse
        else .listing (page.getLast?.map (·.signature)) (pending ++ page) s.lastSignature

/-- The server answers the request of a queue. -/
def serve (s : SolanaListener) (queue : Nat) (before : Option Text) (pending : List SolanaTx)
    (until_ : Option Text) : SolanaListener :=
  { s with queues := s.queues.modify queue fun q =>
      { q with
        phase := .listed pending (getSignaturesForAddress s.finalised before until_)
        snapshot := q.snapshot.or (some s.finalised.length) } }

end SolanaListener

/-! ## Steps -/

/-- What may happen next; the number is that of a queue. -/
inductive SolanaAction where
  | finalise (tx : SolanaTx)
  | connect
  | opened
  | activated
  | message
  | drop
  | backfill (queue : Nat)
  | serve (queue : Nat)
  | page (queue : Nat)
  | replay (queue : Nat)
  | fetched (queue : Nat)
  | notify (queue : Nat)
  | hand (queue : Nat)
  | handled (queue : Nat)
  | record (queue : Nat)
  | fail (queue : Nat)
  | restart
deriving DecidableEq

open SolanaListener in
/-- What an action does, when it can happen. -/
def SolanaListener.step (config : SolanaListenerConfig) (s : SolanaListener) :
    SolanaAction → Option SolanaListener
  | .finalise tx =>
      if tx.signature = [] ∨ tx.signature ∈ s.finalised.map (·.signature) then none
      else some { s with finalised := s.finalised ++ [tx] }
  | .connect => if s.socket = .closed then some { s with socket := .connecting } else none
  | .opened =>
      if s.socket = .connecting then
        some { s with
          socket := .opened none
          queues := s.queues ++ [⟨.starting, [], none⟩]
          deliveryQueue := s.queues.length }
      else none
  | .activated =>
      if s.socket = .opened none then
        some { s with socket := .opened (some ⟨s.finalised.length, s.finalised.length⟩) }
      else none
  | .message =>
      match s.socket with
      | .opened (some ⟨activated, next⟩) =>
          s.finalised[next]?.map fun tx =>
            { s with
              socket := .opened (some ⟨activated, next + 1⟩)
              queues := s.queues.modify s.deliveryQueue fun q =>
                { q with waiting := q.waiting ++ [tx] } }
      | _ => none
  | .drop => some { s with socket := .closed }
  | .backfill queue =>
      match s.queues[queue]? with
      | some ⟨.starting, _, _⟩ => some (s.advance queue s.backfill)
      | _ => none
  | .serve queue =>
      match s.queues[queue]? with
      | some ⟨.listing before pending until_, _, _⟩ => some (s.serve queue before pending until_)
      | _ => none
  | .page queue =>
      match s.queues[queue]? with
      | some ⟨.listed pending page, _, _⟩ => some (s.advance queue (s.turnPage pending page))
      | _ => none
  | .replay queue =>
      match s.queues[queue]? with
      | some ⟨.replaying (entry :: rest), _, _⟩ =>
          if entry.failed = true then some (s.advance queue (.delivering entry [] rest))
          else some (s.advance queue (.fetching entry rest))
      | _ => none
  | .fetched queue =>
      match s.queues[queue]? with
      | some ⟨.fetching entry rest, _, _⟩ =>
          some (s.advance queue (.delivering entry (config.accepted entry) rest))
      | _ => none
  | .notify queue =>
      match s.queues[queue]? with
      | some ⟨.replaying [], tx :: waiting, _⟩ =>
          some { s with queues := s.queues.modify queue fun q =>
            { q with phase := .delivering tx (config.accepted tx) [], waiting } }
      | _ => none
  | .hand queue =>
      match s.queues[queue]? with
      | some ⟨.delivering tx (event :: events) rest, _, _⟩ =>
          some { s.advance queue (.awaiting tx events rest) with
            handed := s.handed ++ [(tx.signature, event)] }
      | _ => none
  | .handled queue =>
      match s.queues[queue]? with
      | some ⟨.awaiting tx events rest, _, _⟩ =>
          some (s.advance queue (.delivering tx events rest))
      | _ => none
  | .record queue =>
      match s.queues[queue]? with
      | some ⟨.delivering tx [] rest, _, _⟩ =>
          some ((s.advance queue (.replaying rest)).recordSignature tx.signature)
      | _ => none
  | .fail queue =>
      if (s.queues[queue]?).any (fun q => q.phase.mayFail) = true then
        some (s.advance queue .rejected)
      else none
  | .restart =>
      some { s with
        lastSignature := s.signatureStore
        socket := .closed
        queues := []
        deliveryQueue := 0 }

/-! ## What is covered -/

/-- Signatures are those of one transaction, and none is empty. -/
def DistinctSignatures (finalised : List SolanaTx) : Prop :=
  (finalised.map (·.signature)).Nodup ∧ [] ∉ finalised.map (·.signature)

section Coverage

variable (config : SolanaListenerConfig)

/-- The accepted events of a transaction have been handed over. -/
def SolanaListener.Handed (s : SolanaListener) (tx : SolanaTx) : Prop :=
  ∀ event ∈ config.accepted tx, (tx.signature, event) ∈ s.handed

/-- A notification comes in over a subscription that became active after a deposit was finalised
that the backfill of the connection did not see, and that has not been handed over. -/
def Overlooks (label : Occurrence SolanaListener SolanaAction) : Prop :=
  ∃ q seen activated next i tx, label.action = .message ∧
    label.before.queues[label.before.deliveryQueue]? = some q ∧ q.phase ≠ .rejected ∧
    q.snapshot = some seen ∧ label.before.socket = .opened (some ⟨activated, next⟩) ∧
    seen ≤ i ∧ i < activated ∧ label.before.finalised[i]? = some tx ∧
    ¬ label.before.Handed config tx

variable (first : ℕ)

/-- A position that the listener owes nothing, or nothing more. -/
def SolanaListener.Done (s : SolanaListener) (i : ℕ) : Prop :=
  i ≤ first ∨ ∃ tx, s.finalised[i]? = some tx ∧ s.Handed config tx

/-- Everything up to a recorded signature is done. -/
def SolanaListener.Checkpoint (s : SolanaListener) (signature : Option Text) : Prop :=
  ∃ k tx, s.finalised[k]? = some tx ∧ signature = some tx.signature ∧
    DoneWithin (s.Done config first) 0 (k + 1)

/-- The task of a queue leads from what is done to a position. -/
def SolanaListener.Leads (s : SolanaListener) (todo : List SolanaTx) (reached : ℕ) : Prop :=
  ∃ l, DoneWithin (s.Done config first) 0 l ∧
    Covers s.finalised (s.Done config first) l todo reached

/-- What the task of a queue relies on, once the first page was served. -/
def SolanaListener.Relies (s : SolanaListener) (seen reached : ℕ) : QueuePhase → Prop
  | .listing (some before) pending until_ =>
      reached = seen ∧ s.Checkpoint config first until_ ∧
        ∃ m tx, m ≤ seen ∧ s.finalised[m]? = some tx ∧ tx.signature = before ∧
          pending.reverse = (s.finalised.take seen).drop m
  | .listed pending page =>
      reached = seen ∧ ∃ m, m ≤ seen ∧
        (pending ++ page).reverse = (s.finalised.take seen).drop m ∧
        (page.length < signatureLimit → DoneWithin (s.Done config first) 0 m)
  | .replaying rest => s.Leads config first rest reached
  | .fetching entry rest => s.Leads config first (entry :: rest) reached
  | .delivering tx events rest | .awaiting tx events rest =>
      s.Leads config first (tx :: rest) reached ∧
        ∀ event ∈ config.accepted tx, event ∈ events ∨ (tx.signature, event) ∈ s.handed
  | .starting | .listing none _ _ | .rejected => False

/-- A queue leads up to a position: its task does up to what its notifications follow on. -/
inductive SolanaListener.Serves (s : SolanaListener) : DeliveryQueue → ℕ → Prop where
  | rejected {waiting : List SolanaTx} {snapshot : Option ℕ} {last : ℕ} :
      s.Serves ⟨.rejected, waiting, snapshot⟩ last
  | starting {waiting : List SolanaTx} {last : ℕ} :
      (∀ tx ∈ waiting, tx ∈ s.finalised) → last ≤ s.finalised.length →
        s.Serves ⟨.starting, waiting, none⟩ last
  | listing {waiting : List SolanaTx} {until_ : Option Text} {last : ℕ} :
      (∀ tx ∈ waiting, tx ∈ s.finalised) → last ≤ s.finalised.length →
        s.Checkpoint config first until_ → s.Serves ⟨.listing none [] until_, waiting, none⟩ last
  | under {phase : QueuePhase} {waiting : List SolanaTx} {seen reached last : ℕ} :
      seen ≤ s.finalised.length → seen ≤ last → s.Relies config first seen reached phase →
        Covers s.finalised (s.Done config first) reached waiting last →
        s.Serves ⟨phase, waiting, some seen⟩ last

/-- What leads up to a position leads up to the next notification, unless none came yet. -/
def Socket.Follows (socket : Socket) (last : ℕ) : Prop :=
  ∀ activated next, socket = .opened (some ⟨activated, next⟩) → next = activated ∨ next ≤ last

/-- What was recorded is a checkpoint, and every queue serves; the notifications follow on the
current one. -/
structure SolanaListener.Complete (s : SolanaListener) : Prop where
  distinct : DistinctSignatures s.finalised
  shared : s.Checkpoint config first s.lastSignature
  stored : s.Checkpoint config first s.signatureStore
  heard : ∀ activated next, s.socket = .opened (some ⟨activated, next⟩) →
    next ≤ s.finalised.length
  queues : ∀ i q, s.queues[i]? = some q → ∃ last, s.Serves config first q last ∧
    (i = s.deliveryQueue → s.socket.Follows last)

end Coverage

/-! ## Pages of the history -/

section Pages

variable {finalised : List SolanaTx} {i k m : ℕ} {tx other : SolanaTx}

theorem DistinctSignatures.same_position (distinct : DistinctSignatures finalised)
    (here : finalised[i]? = some tx) (there : finalised[k]? = some other)
    (same : tx.signature = other.signature) : i = k := by
  have inside : i < (finalised.map (·.signature)).length := by
    rw [List.length_map]
    exact (List.getElem?_eq_some_iff.mp here).1
  refine (List.getElem?_inj inside distinct.1).mp ?_
  rw [List.getElem?_map, List.getElem?_map, here, there, Option.map_some, Option.map_some, same]

/-- What is older than a transaction. -/
theorem DistinctSignatures.older (distinct : DistinctSignatures finalised)
    (here : finalised[m]? = some tx) :
    (finalised.reverse.dropWhile fun entry => entry.signature ≠ tx.signature).drop 1 =
      (finalised.take m).reverse := by
  obtain ⟨inside, rfl⟩ := List.getElem?_eq_some_iff.mp here
  have shape : finalised.reverse =
      (finalised.drop (m + 1)).reverse ++ finalised[m] :: (finalised.take m).reverse := by
    conv_lhs => rw [← List.take_append_drop m finalised, List.drop_eq_getElem_cons inside]
    simp
  have newer : ∀ entry ∈ (finalised.drop (m + 1)).reverse,
      decide (entry.signature ≠ finalised[m].signature) = true := by
    intro entry member
    obtain ⟨j, found⟩ := List.mem_iff_getElem?.mp (List.mem_reverse.mp member)
    rw [List.getElem?_drop] at found
    refine decide_eq_true fun same => ?_
    have := distinct.same_position found here same
    omega
  rw [shape, List.dropWhile_append_of_pos newer, List.dropWhile_cons_of_neg (by simp),
    List.drop_one, List.tail_cons]

/-- A new transaction has a signature of its own. -/
theorem DistinctSignatures.snoc (distinct : DistinctSignatures finalised) (named : tx.signature ≠ [])
    (fresh : tx.signature ∉ finalised.map (·.signature)) :
    DistinctSignatures (finalised ++ [tx]) := by
  obtain ⟨nodup, nonempty⟩ := distinct
  unfold DistinctSignatures
  rw [List.map_append, List.map_singleton]
  refine ⟨List.nodup_append.mpr ⟨nodup, List.nodup_singleton _, ?_⟩, ?_⟩
  · rintro signature before _ now rfl
    exact fresh (List.mem_singleton.mp now ▸ before)
  · intro member
    rcases List.mem_append.mp member with before | now
    · exact nonempty before
    · exact named (List.mem_singleton.mp now).symm

end Pages

/-! ## Growing -/

section Growing

variable {config : SolanaListenerConfig} {first : ℕ} {s t : SolanaListener}

/-- The history went on, or more was handed over. -/
structure SolanaListener.Grows (s t : SolanaListener) : Prop where
  finalised : s.finalised <+: t.finalised
  handed : ∀ entry ∈ s.handed, entry ∈ t.handed

theorem Socket.Follows.mono {socket : Socket} {last further : ℕ} (follows : socket.Follows last)
    (above : last ≤ further) : socket.Follows further := by
  intro activated next opened
  exact (follows activated next opened).imp_right fun below => below.trans above

namespace SolanaListener

theorem Handed.mono {tx : SolanaTx} (handed : s.Handed config tx) (grows : s.Grows t) :
    t.Handed config tx := fun event member => grows.handed _ (handed event member)

theorem Done.mono {i : ℕ} (done : s.Done config first i) (grows : s.Grows t) :
    t.Done config first i := by
  rcases done with early | ⟨tx, here, handed⟩
  · exact .inl early
  · exact .inr ⟨tx, getElem?_of_grown grows.finalised here, handed.mono grows⟩

theorem doneWithin_mono {l : ℕ} (below : DoneWithin (s.Done config first) 0 l)
    (grows : s.Grows t) : DoneWithin (t.Done config first) 0 l :=
  below.mono fun _ done => done.mono grows

theorem Checkpoint.mono {signature : Option Text} (checkpoint : s.Checkpoint config first signature)
    (grows : s.Grows t) : t.Checkpoint config first signature := by
  obtain ⟨k, tx, here, same, below⟩ := checkpoint
  exact ⟨k, tx, getElem?_of_grown grows.finalised here, same, doneWithin_mono below grows⟩

theorem covers_mono {todo : List SolanaTx} {l last : ℕ}
    (covers : Covers s.finalised (s.Done config first) l todo last) (grows : s.Grows t) :
    Covers t.finalised (t.Done config first) l todo last :=
  covers.mono grows.finalised fun _ done => done.mono grows

theorem Leads.mono {todo : List SolanaTx} {reached : ℕ} (leads : s.Leads config first todo reached)
    (grows : s.Grows t) : t.Leads config first todo reached := by
  obtain ⟨l, below, covers⟩ := leads
  exact ⟨l, doneWithin_mono below grows, covers_mono covers grows⟩

theorem Grows.take {seen : ℕ} (grows : s.Grows t) (within : seen ≤ s.finalised.length) :
    t.finalised.take seen = s.finalised.take seen := by
  obtain ⟨more, grown⟩ := grows.finalised
  rw [← grown, List.take_append_of_le_length within]

theorem Relies.mono {seen reached : ℕ} {phase : QueuePhase}
    (relies : s.Relies config first seen reached phase) (grows : s.Grows t)
    (within : seen ≤ s.finalised.length) : t.Relies config first seen reached phase := by
  cases phase with
  | listing before pending until_ =>
    cases before with
    | none => exact relies
    | some before =>
      obtain ⟨same, checkpoint, m, tx, lower, here, named, slice⟩ := relies
      refine ⟨same, checkpoint.mono grows, m, tx, lower, getElem?_of_grown grows.finalised here,
        named, ?_⟩
      rw [grows.take within, slice]
  | listed pending page =>
    obtain ⟨same, m, lower, slice, below⟩ := relies
    refine ⟨same, m, lower, ?_, fun short => doneWithin_mono (below short) grows⟩
    rw [grows.take within, slice]
  | replaying rest => exact Leads.mono relies grows
  | fetching entry rest => exact Leads.mono relies grows
  | delivering tx events rest =>
    obtain ⟨leads, handed⟩ := relies
    exact ⟨leads.mono grows, fun event member => (handed event member).imp_right (grows.handed _)⟩
  | awaiting tx events rest =>
    obtain ⟨leads, handed⟩ := relies
    exact ⟨leads.mono grows, fun event member => (handed event member).imp_right (grows.handed _)⟩
  | starting => exact relies
  | rejected => exact relies

theorem Serves.mono {q : DeliveryQueue} {last : ℕ} (serves : s.Serves config first q last)
    (grows : s.Grows t) : t.Serves config first q last := by
  have longer : s.finalised.length ≤ t.finalised.length := grows.finalised.length_le
  cases serves with
  | rejected => exact .rejected
  | starting members within =>
    exact .starting (fun tx member => grows.finalised.subset (members tx member))
      (within.trans longer)
  | listing members within checkpoint =>
    exact .listing (fun tx member => grows.finalised.subset (members tx member))
      (within.trans longer) (checkpoint.mono grows)
  | under within below relies covers =>
    exact .under (within.trans longer) below (relies.mono grows within) (covers_mono covers grows)

/-- Growing keeps everything in place, as long as nothing else changes. -/
theorem Complete.grow (complete : s.Complete config first) (grows : s.Grows t)
    (distinct : DistinctSignatures t.finalised) (shared : t.lastSignature = s.lastSignature)
    (stored : t.signatureStore = s.signatureStore) (socket : t.socket = s.socket)
    (queues : t.queues = s.queues) (current : t.deliveryQueue = s.deliveryQueue) :
    t.Complete config first where
  distinct := distinct
  shared := shared ▸ complete.shared.mono grows
  stored := stored ▸ complete.stored.mono grows
  heard activated next opened :=
    (complete.heard activated next (socket ▸ opened)).trans grows.finalised.length_le
  queues i q found := by
    obtain ⟨last, serves, live⟩ := complete.queues i q (queues ▸ found)
    exact ⟨last, serves.mono grows, fun now => socket ▸ live (current ▸ now)⟩

/-- A queue may change, and the socket with the current one. -/
theorem Complete.rewire {queue : ℕ} {socket : Socket} {change : DeliveryQueue → DeliveryQueue}
    (complete : s.Complete config first)
    (heard : ∀ activated next, socket = .opened (some ⟨activated, next⟩) →
      next ≤ s.finalised.length)
    (others : socket = s.socket ∨ queue = s.deliveryQueue)
    (serves : ∀ q last, s.queues[queue]? = some q → s.Serves config first q last →
      (queue = s.deliveryQueue → s.socket.Follows last) →
      ∃ further, s.Serves config first (change q) further ∧
        (queue = s.deliveryQueue → socket.Follows further)) :
    Complete config first { s with socket, queues := s.queues.modify queue change } where
  distinct := complete.distinct
  shared := complete.shared
  stored := complete.stored
  heard := heard
  queues i other there := by
    change (s.queues.modify queue change)[i]? = some other at there
    have grows : s.Grows { s with socket, queues := s.queues.modify queue change } :=
      ⟨List.prefix_rfl, fun _ => id⟩
    by_cases same : queue = i
    · subst same
      rw [List.getElem?_modify_eq] at there
      obtain ⟨q, found, rfl⟩ := Option.map_eq_some_iff.mp there
      obtain ⟨last, before, live⟩ := complete.queues queue q found
      obtain ⟨further, after, follows⟩ := serves q last found before live
      exact ⟨further, after.mono grows, follows⟩
    · rw [List.getElem?_modify_ne change s.queues same] at there
      obtain ⟨last, before, live⟩ := complete.queues i other there
      refine ⟨last, before.mono grows, fun now => ?_⟩
      rcases others with rfl | rfl
      · exact live now
      · exact absurd now.symm same

/-- A queue may change into one that leads at least as far. -/
theorem Complete.update {queue : ℕ} {q : DeliveryQueue} {change : DeliveryQueue → DeliveryQueue}
    (complete : s.Complete config first) (found : s.queues[queue]? = some q)
    (serves : ∀ last, s.Serves config first q last →
      ∃ further, last ≤ further ∧ s.Serves config first (change q) further) :
    Complete config first { s with queues := s.queues.modify queue change } := by
  refine complete.rewire complete.heard (.inl rfl) fun other last same before live => ?_
  obtain rfl : q = other := Option.some.inj (found.symm.trans same)
  obtain ⟨further, above, after⟩ := serves last before
  exact ⟨further, after, fun now => (live now).mono above⟩

/-- The task of a queue may move on to what it still leads through. -/
theorem Complete.advance {queue : ℕ} {phase next : QueuePhase} {waiting : List SolanaTx}
    {snapshot : Option ℕ} (complete : s.Complete config first)
    (found : s.queues[queue]? = some ⟨phase, waiting, snapshot⟩)
    (serves : ∀ last, s.Serves config first ⟨phase, waiting, snapshot⟩ last →
      s.Serves config first ⟨next, waiting, snapshot⟩ last) :
    (s.advance queue next).Complete config first :=
  complete.update found fun last before => ⟨last, le_rfl, serves last before⟩

/-- What was recorded may change to another checkpoint. -/
theorem Complete.recordSignature {signature : Text} (complete : s.Complete config first)
    (checkpoint : s.Checkpoint config first (some signature)) :
    (s.recordSignature signature).Complete config first := by
  have grows : s.Grows (s.recordSignature signature) := ⟨List.prefix_rfl, fun _ => id⟩
  refine ⟨complete.distinct, checkpoint.mono grows, checkpoint.mono grows, complete.heard, ?_⟩
  intro i q found
  obtain ⟨last, serves, live⟩ := complete.queues i q found
  exact ⟨last, serves.mono grows, live⟩

end SolanaListener

end Growing

/-! ## The backfill -/

section Backfill

variable {config : SolanaListenerConfig} {first : ℕ} {s : SolanaListener}

namespace SolanaListener

/-- At the checkpoint everything below is done. -/
theorem Checkpoint.below {signature : Option Text} {m : ℕ} {tx : SolanaTx}
    (checkpoint : s.Checkpoint config first signature)
    (distinct : DistinctSignatures s.finalised) (here : s.finalised[m]? = some tx)
    (same : some tx.signature = signature) : DoneWithin (s.Done config first) 0 (m + 1) := by
  obtain ⟨k, last, there, named, below⟩ := checkpoint
  obtain rfl := distinct.same_position here there (Option.some.inj (same.trans named))
  exact below

/-- A page of what is older than a position goes down to a lower position, and it is short only
when everything below that one is done. -/
theorem page_slice {until_ : Option Text} {m : ℕ} (distinct : DistinctSignatures s.finalised)
    (checkpoint : s.Checkpoint config first until_) (within : m ≤ s.finalised.length) :
    let page := ((s.finalised.take m).reverse.takeWhile fun tx =>
      some tx.signature ≠ until_).take signatureLimit
    ∃ lower ≤ m, page.reverse = (s.finalised.take m).drop lower ∧
      (page.length < signatureLimit → DoneWithin (s.Done config first) 0 lower) := by
  intro page
  have before : page <+: (s.finalised.take m).reverse :=
    (List.take_prefix ..).trans (List.takeWhile_prefix _)
  obtain ⟨rest, shape⟩ := before
  have slice : s.finalised.take m = rest.reverse ++ page.reverse := by
    rw [← List.reverse_append, shape, List.reverse_reverse]
  have total : rest.length ≤ m := by
    have lengths := congrArg List.length slice
    simp at lengths
    omega
  refine ⟨rest.length, total, ?_, fun short => ?_⟩
  · rw [slice, ← List.length_reverse, List.drop_left]
  have whole : page = (s.finalised.take m).reverse.takeWhile
      fun tx => some tx.signature ≠ until_ := by
    refine List.take_of_length_le ?_
    rw [List.length_take] at short
    omega
  have remains : rest = (s.finalised.take m).reverse.dropWhile
      fun tx => some tx.signature ≠ until_ := by
    refine List.append_cancel_left (shape.trans ?_)
    rw [whole, List.takeWhile_append_dropWhile]
  cases rest with
  | nil => exact .empty le_rfl
  | cons last rest =>
    have stopped : some last.signature = until_ := by
      have := List.head?_dropWhile_not (fun tx : SolanaTx => decide (some tx.signature ≠ until_))
        (s.finalised.take m).reverse
      rw [← remains] at this
      simpa using this
    rw [List.reverse_cons, List.append_assoc, List.singleton_append] at slice
    have start : (s.finalised.take m).drop 0 = rest.reverse ++ last :: page.reverse := slice
    obtain ⟨here, -, -⟩ := slice_split start
    rw [Nat.zero_add, List.length_reverse] at here
    exact checkpoint.below distinct here stopped

theorem Leads.of_slice {todo : List SolanaTx} {m seen : ℕ} (lower : m ≤ seen)
    (within : seen ≤ s.finalised.length) (slice : todo = (s.finalised.take seen).drop m)
    (below : DoneWithin (s.Done config first) 0 m) : s.Leads config first todo seen :=
  ⟨m, below, slice ▸ .slice within m lower⟩

/-- A first page is served. -/
theorem Relies.serveFirst {until_ : Option Text} (distinct : DistinctSignatures s.finalised)
    (checkpoint : s.Checkpoint config first until_) :
    s.Relies config first s.finalised.length s.finalised.length
      (.listed [] (getSignaturesForAddress s.finalised none until_)) := by
  obtain ⟨lower, within, slice, below⟩ := page_slice distinct checkpoint le_rfl
  rw [List.take_length] at slice below
  exact ⟨rfl, lower, within, by rw [List.take_length, List.nil_append]; exact slice, below⟩

/-- A later page is served: it goes on below the last one. -/
theorem Relies.serveNext {before : Text} {pending : List SolanaTx} {until_ : Option Text}
    {seen reached : ℕ} (distinct : DistinctSignatures s.finalised)
    (within : seen ≤ s.finalised.length)
    (relies : s.Relies config first seen reached (.listing (some before) pending until_)) :
    s.Relies config first seen reached
      (.listed pending (getSignaturesForAddress s.finalised (some before) until_)) := by
  obtain ⟨same, checkpoint, m, tx, upper, here, rfl, above⟩ := relies
  obtain ⟨lower, under, slice, below⟩ := page_slice distinct checkpoint (upper.trans within)
  simp only [getSignaturesForAddress]
  rw [distinct.older here]
  refine ⟨same, lower, under.trans upper, ?_, below⟩
  rw [List.reverse_append, slice, above, slice_append under upper within]

/-- After a page the backfill replays what it listed, or lists on below. -/
theorem Relies.turnPage {pending page : List SolanaTx} {seen reached : ℕ}
    (complete : s.Complete config first) (within : seen ≤ s.finalised.length)
    (relies : s.Relies config first seen reached (.listed pending page)) :
    s.Relies config first seen reached (s.turnPage pending page) := by
  obtain ⟨rfl, m, lower, slice, below⟩ := relies
  unfold SolanaListener.turnPage
  by_cases none : page = []
  · subst none
    rw [if_pos rfl]
    rw [List.append_nil] at slice
    exact .of_slice lower within slice (below (by decide))
  rw [if_neg none]
  split
  · next checkpointIndex found =>
    obtain ⟨inside, same, -⟩ := List.findIdx?_eq_some_iff_getElem.mp found
    have parts : pending ++ page = pending ++ page.take checkpointIndex ++
        page[checkpointIndex] :: page.drop (checkpointIndex + 1) := by
      rw [List.append_assoc, ← List.drop_eq_getElem_cons inside, List.take_append_drop]
    have split : (s.finalised.take reached).drop m =
        (page.drop (checkpointIndex + 1)).reverse ++ page[checkpointIndex] ::
          (pending ++ page.take checkpointIndex).reverse := by
      rw [← slice, parts, List.reverse_append, List.reverse_cons, List.append_assoc,
        List.singleton_append]
    obtain ⟨here, under, upper⟩ := slice_split split
    refine .of_slice under within upper ?_
    exact complete.shared.below complete.distinct here (of_decide_eq_true same)
  · by_cases short : page.length < signatureLimit
    · rw [if_pos short]
      exact .of_slice lower within slice (below short)
    · rw [if_neg short]
      obtain ⟨earlier, last, rfl⟩ := (List.eq_nil_or_concat' page).resolve_left none
      have split : (s.finalised.take reached).drop m =
          [] ++ last :: (pending ++ earlier).reverse := by
        rw [← slice]
        simp
      obtain ⟨here, -, -⟩ := slice_split split
      rw [List.getLast?_append, List.getLast?_singleton, Option.some_or, Option.map_some]
      exact ⟨rfl, complete.shared, m, last, lower, here, rfl, slice⟩

end SolanaListener

end Backfill

/-! ## Steps keep the coverage -/

namespace SolanaListener

variable {config : SolanaListenerConfig} {first : ℕ} {s t : SolanaListener}

theorem Leads.cons {tx : SolanaTx} {rest : List SolanaTx} {reached : ℕ}
    (leads : s.Leads config first (tx :: rest) reached) :
    ∃ j, s.finalised[j]? = some tx ∧ DoneWithin (s.Done config first) 0 j ∧
      (s.Done config first j → s.Leads config first rest reached) := by
  obtain ⟨l, below, covers⟩ := leads
  exact covers.head below

/-- When all events of the current transaction are handed over, its signature is a checkpoint, and
the task goes on with the rest. -/
theorem Leads.record {tx : SolanaTx} {rest : List SolanaTx} {reached : ℕ}
    (leads : s.Leads config first (tx :: rest) reached) (handed : s.Handed config tx) :
    s.Checkpoint config first (some tx.signature) ∧ s.Leads config first rest reached := by
  obtain ⟨j, here, below, onward⟩ := leads.cons
  have done : s.Done config first j := .inr ⟨tx, here, handed⟩
  exact ⟨⟨j, tx, here, rfl, below.succ done⟩, onward done⟩

/-- A queue with nothing to replay takes its next notification. -/
theorem Serves.notify {tx : SolanaTx} {waiting : List SolanaTx} {snapshot : Option ℕ} {last : ℕ}
    (serves : s.Serves config first ⟨.replaying [], tx :: waiting, snapshot⟩ last) :
    s.Serves config first ⟨.delivering tx (config.accepted tx) [], waiting, snapshot⟩ last := by
  cases serves with
  | under within above relies covers =>
    obtain ⟨l, below, led⟩ := relies
    cases covers with
    | cons here between covers =>
      refine .under within above ⟨⟨l, below, led.snoc here between⟩, ?_⟩ covers
      exact fun event member => .inl member

/-- A notification is chained to the current queue. -/
theorem Serves.message {q : DeliveryQueue} {last activated next : ℕ} {tx : SolanaTx}
    (serves : s.Serves config first q last) (here : s.finalised[next]? = some tx)
    (live : next = activated ∨ next ≤ last)
    (overlooked : ∀ seen, q.phase ≠ .rejected → q.snapshot = some seen → ∀ i tx, seen ≤ i →
      i < activated → s.finalised[i]? = some tx → s.Handed config tx) :
    ∃ further, last ≤ further ∧ next + 1 ≤ further ∧
      s.Serves config first { q with waiting := q.waiting ++ [tx] } further := by
  have known : next + 1 ≤ s.finalised.length := (List.getElem?_eq_some_iff.mp here).1
  have joined : ∀ {waiting : List SolanaTx}, (∀ tx ∈ waiting, tx ∈ s.finalised) →
      ∀ other ∈ waiting ++ [tx], other ∈ s.finalised := by
    intro waiting members other member
    rcases List.mem_append.mp member with before | now
    · exact members other before
    · exact List.mem_singleton.mp now ▸ List.mem_of_getElem? here
  refine ⟨max last (next + 1), le_max_left .., le_max_right .., ?_⟩
  cases serves with
  | rejected => exact .rejected
  | starting members within => exact .starting (joined members) (max_le within known)
  | listing members within checkpoint =>
    exact .listing (joined members) (max_le within known) checkpoint
  | @under phase waiting seen reached last within above relies covers =>
    refine .under within (above.trans (le_max_left ..)) relies (covers.snoc here ?_)
    rcases live with rfl | behind
    · -- what the backfill did not see and the subscription does not tell of is handed over
      intro i from_ below
      have inside : i < s.finalised.length := by omega
      have found := List.getElem?_eq_getElem inside
      by_cases dead : phase = .rejected
      · subst dead
        exact relies.elim
      · exact .inr ⟨_, found, overlooked seen dead rfl i _ (above.trans from_) below found⟩
    · exact .empty behind

/-- The socket changes, and no notification came in yet. -/
theorem Complete.withSocket {socket : Socket} (complete : s.Complete config first)
    (silent : ∀ activated next, socket = .opened (some ⟨activated, next⟩) →
      next = activated ∧ next ≤ s.finalised.length) :
    Complete config first { s with socket } where
  distinct := complete.distinct
  shared := complete.shared
  stored := complete.stored
  heard activated next opened := (silent activated next opened).2
  queues i q found := by
    obtain ⟨last, serves, -⟩ := complete.queues i q found
    refine ⟨last, serves.mono ⟨List.prefix_rfl, fun _ => id⟩, fun _ activated next opened => ?_⟩
    exact .inl (silent activated next opened).1

/-- A connection starts with a queue of its own. -/
theorem Complete.opened (complete : s.Complete config first) :
    Complete config first { s with
      socket := .opened none
      queues := s.queues ++ [⟨.starting, [], none⟩]
      deliveryQueue := s.queues.length } where
  distinct := complete.distinct
  shared := complete.shared
  stored := complete.stored
  heard activated next opened := by cases opened
  queues i q found := by
    have silent : ∀ last, Socket.Follows (.opened none) last := by
      intro last activated next opened
      cases opened
    rcases List.mem_append.mp (List.mem_of_getElem? found) with before | now
    · obtain ⟨j, there⟩ := List.mem_iff_getElem?.mp before
      obtain ⟨last, serves, -⟩ := complete.queues j q there
      exact ⟨last, serves.mono ⟨List.prefix_rfl, fun _ => id⟩, fun _ => silent last⟩
    · obtain rfl := List.mem_singleton.mp now
      exact ⟨0, .starting (fun tx member => absurd member List.not_mem_nil) (Nat.zero_le _),
        fun _ => silent 0⟩

/-- A backfill begins to list what is newer than the recorded signature. -/
theorem Complete.backfill_eq (complete : s.Complete config first) :
    ∃ signature, s.lastSignature = some signature ∧
      s.backfill = .listing none [] (some signature) := by
  obtain ⟨k, tx, here, same, -⟩ := complete.shared
  refine ⟨tx.signature, same, ?_⟩
  unfold SolanaListener.backfill
  rw [same]
  split
  · next absent => cases absent
  · next empty =>
    have named := List.mem_map_of_mem (f := SolanaTx.signature) (List.mem_of_getElem? here)
    rw [Option.some.inj empty] at named
    exact absurd named complete.distinct.2
  · next found =>
    rw [← Option.some.inj found]

attribute [local simp] SolanaListener.step

/-- What happens to the history and to the socket keeps the coverage. -/
theorem Complete.finalise {tx : SolanaTx} (complete : s.Complete config first)
    (taken : s.step config (.finalise tx) = some t) : t.Complete config first := by
  simp only [SolanaListener.step] at taken
  split at taken
  · cases taken
  · next fresh =>
    obtain ⟨named, fresh⟩ := not_or.mp fresh
    obtain rfl := Option.some.inj taken
    exact complete.grow ⟨List.prefix_append .., fun _ => id⟩ (complete.distinct.snoc named fresh)
      rfl rfl rfl rfl rfl

/-- A notification comes in. -/
theorem Complete.message (complete : s.Complete config first)
    (sees : ¬ Overlooks config ⟨s, .message⟩) (taken : s.step config .message = some t) :
    t.Complete config first := by
  simp only [SolanaListener.step] at taken
  split at taken
  · next activated next opened =>
    obtain ⟨tx, here, rfl⟩ := Option.map_eq_some_iff.mp taken
    have known : next + 1 ≤ s.finalised.length := (List.getElem?_eq_some_iff.mp here).1
    refine complete.rewire ?_ (.inr rfl) fun q last found before live => ?_
    · rintro _ _ ⟨rfl, rfl⟩
      exact known
    · have overlooked : ∀ seen, q.phase ≠ .rejected → q.snapshot = some seen → ∀ i other,
          seen ≤ i → i < activated → s.finalised[i]? = some other → s.Handed config other := by
        intro seen alive served i other from_ below there
        by_contra missed
        exact sees ⟨q, seen, activated, next, i, other, rfl, found, alive, served, opened, from_,
          below, there, missed⟩
      obtain ⟨further, -, above, after⟩ :=
        before.message here (live rfl activated next opened) overlooked
      refine ⟨further, after, fun _ => ?_⟩
      rintro _ _ ⟨rfl, rfl⟩
      exact .inr above
  · cases taken

/-- The server answers. -/
theorem Complete.serve {queue : ℕ} (complete : s.Complete config first)
    (taken : s.step config (.serve queue) = some t) : t.Complete config first := by
  simp only [SolanaListener.step] at taken
  split at taken
  · next before pending until_ waiting snapshot found =>
    obtain rfl := Option.some.inj taken
    refine complete.update found fun last serves => ?_
    cases serves with
    | listing members within checkpoint =>
      refine ⟨s.finalised.length, within, .under le_rfl le_rfl
        (.serveFirst complete.distinct checkpoint) (.of_below fun tx member => ?_)⟩
      obtain ⟨j, here⟩ := List.mem_iff_getElem?.mp (members tx member)
      exact ⟨j, (List.getElem?_eq_some_iff.mp here).1, here⟩
    | under within above relies covers =>
      cases before with
      | none => exact relies.elim
      | some before =>
        exact ⟨last, le_rfl, .under within above (relies.serveNext complete.distinct within) covers⟩
  · cases taken

/-- An event is handed over. -/
theorem Complete.hand {queue : ℕ} (complete : s.Complete config first)
    (taken : s.step config (.hand queue) = some t) : t.Complete config first := by
  simp only [SolanaListener.step] at taken
  split at taken
  · next tx event events rest waiting snapshot found =>
    obtain rfl := Option.some.inj taken
    have grown : Complete config first { s with handed := s.handed ++ [(tx.signature, event)] } :=
      complete.grow ⟨List.prefix_rfl, fun _ => List.mem_append_left _⟩ complete.distinct
        rfl rfl rfl rfl rfl
    refine grown.advance found fun last serves => ?_
    cases serves with
    | under within above relies covers =>
      obtain ⟨leads, handed⟩ := relies
      refine .under within above ⟨leads, fun other member => ?_⟩ covers
      rcases handed other member with later | before
      · rcases List.mem_cons.mp later with rfl | later
        · exact .inr (List.mem_append_right _ (List.mem_singleton.mpr rfl))
        · exact .inl later
      · exact .inr before
  · cases taken

/-- A transaction is recorded when all its events are handed over. -/
theorem Complete.record {queue : ℕ} (complete : s.Complete config first)
    (taken : s.step config (.record queue) = some t) : t.Complete config first := by
  simp only [SolanaListener.step] at taken
  split at taken
  · next tx rest waiting snapshot found =>
    obtain rfl := Option.some.inj taken
    have all : ∀ {events : List BridgeEvent} {seen reached : ℕ}, events = [] →
        s.Relies config first seen reached (.delivering tx events rest) →
          s.Checkpoint config first (some tx.signature) ∧ s.Leads config first rest reached := by
      rintro _ seen reached rfl ⟨leads, handed⟩
      exact leads.record fun event member => (handed event member).resolve_left List.not_mem_nil
    have checkpoint : s.Checkpoint config first (some tx.signature) := by
      obtain ⟨last, serves, -⟩ := complete.queues queue _ found
      cases serves with
      | under within above relies covers => exact (all rfl relies).1
    refine Complete.recordSignature ?_ (checkpoint.mono ⟨List.prefix_rfl, fun _ => id⟩)
    refine complete.advance found fun last serves => ?_
    cases serves with
    | under within above relies covers => exact .under within above (all rfl relies).2 covers
  · cases taken

/-- Every action keeps the coverage, unless a notification comes in that overlooks a deposit. -/
theorem step_complete {action : SolanaAction} (complete : s.Complete config first)
    (sees : ¬ Overlooks config ⟨s, action⟩) (taken : s.step config action = some t) :
    t.Complete config first := by
  cases action with
  | finalise tx => exact complete.finalise taken
  | connect =>
    simp only [SolanaListener.step] at taken
    split at taken
    · obtain rfl := Option.some.inj taken
      exact complete.withSocket fun _ _ opened => by cases opened
    · cases taken
  | opened =>
    simp only [SolanaListener.step] at taken
    split at taken
    · obtain rfl := Option.some.inj taken
      exact complete.opened
    · cases taken
  | activated =>
    simp only [SolanaListener.step] at taken
    split at taken
    · obtain rfl := Option.some.inj taken
      refine complete.withSocket ?_
      rintro _ _ ⟨rfl, rfl⟩
      exact ⟨rfl, le_rfl⟩
    · cases taken
  | message => exact complete.message sees taken
  | drop =>
    obtain rfl := Option.some.inj taken
    exact complete.withSocket fun _ _ opened => by cases opened
  | backfill queue =>
    simp only [SolanaListener.step] at taken
    split at taken
    · next waiting snapshot found =>
      obtain rfl := Option.some.inj taken
      obtain ⟨signature, same, began⟩ := complete.backfill_eq
      refine complete.advance found fun last serves => ?_
      rw [began]
      cases serves with
      | starting members within => exact .listing members within (same ▸ complete.shared)
      | under within above relies covers => exact relies.elim
    · cases taken
  | serve queue => exact complete.serve taken
  | page queue =>
    simp only [SolanaListener.step] at taken
    split at taken
    · next pending page waiting snapshot found =>
      obtain rfl := Option.some.inj taken
      refine complete.advance found fun last serves => ?_
      cases serves with
      | under within above relies covers =>
        exact .under within above (relies.turnPage complete within) covers
    · cases taken
  | replay queue =>
    simp only [SolanaListener.step] at taken
    split at taken
    · next entry rest waiting snapshot found =>
      split at taken
      · next failed =>
        obtain rfl := Option.some.inj taken
        refine complete.advance found fun last serves => ?_
        cases serves with
        | under within above relies covers =>
          refine .under within above ⟨relies, fun event member => ?_⟩ covers
          rw [SolanaListenerConfig.accepted, if_pos failed] at member
          cases member
      · obtain rfl := Option.some.inj taken
        refine complete.advance found fun last serves => ?_
        cases serves with
        | under within above relies covers => exact .under within above relies covers
    · cases taken
  | fetched queue =>
    simp only [SolanaListener.step] at taken
    split at taken
    · next entry rest waiting snapshot found =>
      obtain rfl := Option.some.inj taken
      refine complete.advance found fun last serves => ?_
      cases serves with
      | under within above relies covers =>
        exact .under within above ⟨relies, fun event member => .inl member⟩ covers
    · cases taken
  | notify queue =>
    simp only [SolanaListener.step] at taken
    split at taken
    · next tx waiting snapshot found =>
      obtain rfl := Option.some.inj taken
      exact complete.update found fun last serves => ⟨last, le_rfl, serves.notify⟩
    · cases taken
  | hand queue => exact complete.hand taken
  | handled queue =>
    simp only [SolanaListener.step] at taken
    split at taken
    · next tx events rest waiting snapshot found =>
      obtain rfl := Option.some.inj taken
      refine complete.advance found fun last serves => ?_
      cases serves with
      | under within above relies covers => exact .under within above relies covers
    · cases taken
  | record queue => exact complete.record taken
  | fail queue =>
    simp only [SolanaListener.step] at taken
    split at taken
    · next failing =>
      obtain rfl := Option.some.inj taken
      obtain ⟨q, found, -⟩ := (Option.any_eq_true ..).mp failing
      exact complete.advance found fun last serves => .rejected
    · cases taken
  | restart =>
    obtain rfl := Option.some.inj taken
    have stored := complete.stored
    exact {
      distinct := complete.distinct
      shared := stored.mono ⟨List.prefix_rfl, fun _ => id⟩
      stored := stored.mono ⟨List.prefix_rfl, fun _ => id⟩
      heard := fun _ _ opened => by cases opened
      queues := fun i q found => by cases found }

theorem start_complete {finalised : List SolanaTx} {recorded : SolanaTx}
    (distinct : DistinctSignatures finalised) (here : finalised[first]? = some recorded) :
    Complete config first (start (some recorded.signature) finalised) := by
  have checkpoint : Checkpoint config first (start (some recorded.signature) finalised)
      (some recorded.signature) :=
    ⟨first, recorded, here, rfl, fun i _ below => .inl (Nat.le_of_lt_succ below)⟩
  exact {
    distinct
    shared := checkpoint
    stored := checkpoint
    heard := fun _ _ opened => by cases opened
    queues := fun i q found => by cases found }

end SolanaListener

/-! ## Runs -/

/-- In a run in which no notification comes in that overlooks a deposit: whatever signature is
recorded, in memory or in the file, every accepted event of a successful transaction that was
finalised after the one recorded first, and not after the recorded one, has been handed over. -/
theorem solana_listener_complete {config : SolanaListenerConfig} {finalised : List SolanaTx}
    {first : ℕ} {recorded : SolanaTx} {labels : List (Occurrence SolanaListener SolanaAction)}
    {t : SolanaListener} (distinct : DistinctSignatures finalised)
    (here : finalised[first]? = some recorded)
    (run : Run (Occurs (SolanaListener.step config))
      (SolanaListener.start (some recorded.signature) finalised) labels t)
    (sees : ∀ label ∈ labels, ¬ Overlooks config label) :
    ∀ signature, t.lastSignature = some signature ∨ t.signatureStore = some signature →
      ∃ k last, t.finalised[k]? = some last ∧ last.signature = signature ∧
        ∀ i tx, first < i → i ≤ k → t.finalised[i]? = some tx → tx.failed = false →
          ∀ event ∈ extractBridgeFundEvents config tx.signature tx.logs,
            (tx.signature, event) ∈ t.handed := by
  have complete : t.Complete config first := by
    refine run.kept (fun _ _ _ kept admitted taken => ?_) sees
      (SolanaListener.start_complete distinct here)
    exact SolanaListener.step_complete kept admitted taken
  intro signature recorded
  have checkpoint : t.Checkpoint config first (some signature) :=
    recorded.elim (fun same => same ▸ complete.shared) fun same => same ▸ complete.stored
  obtain ⟨k, last, there, named, below⟩ := checkpoint
  refine ⟨k, last, there, (Option.some.inj named).symm, fun i tx above upTo found ok event => ?_⟩
  intro member
  rcases below i (Nat.zero_le i) (Nat.lt_succ_of_le upTo) with early | ⟨other, same, handed⟩
  · omega
  · obtain rfl : tx = other := Option.some.inj (found.symm.trans same)
    refine handed event ?_
    rw [SolanaListenerConfig.accepted, ok]
    exact member

namespace Rehearsal

def recordedTx : SolanaTx := ⟨['1'], false, []⟩

def depositTx : SolanaTx := ⟨zeroSignature, false, linesOf forged⟩

def laterTx : SolanaTx := ⟨['2'], false, []⟩

/-- The subscription is active when a deposit is finalised. -/
def notified : List SolanaAction :=
  [.connect, .opened, .backfill 0, .serve 0, .page 0, .activated, .finalise depositTx, .message,
    .notify 0, .hand 0, .handled 0, .record 0]

/-- The backfill has listed the history, and the subscription is not active yet, when a deposit is
finalised. -/
def overlooked : List SolanaAction :=
  [.connect, .opened, .backfill 0, .serve 0, .page 0, .finalise depositTx, .activated,
    .finalise laterTx, .message, .notify 0, .record 0]

end Rehearsal

theorem solana_listener_complete_rehearsed : ∃ t,
    perform (SolanaListener.step Rehearsal.solana)
      (SolanaListener.start (some Rehearsal.recordedTx.signature) [Rehearsal.recordedTx])
      Rehearsal.notified = some t ∧
    t.finalised[1]? = some Rehearsal.depositTx ∧
    ∀ event ∈ extractBridgeFundEvents Rehearsal.solana Rehearsal.zeroSignature
        (linesOf Rehearsal.forged), (Rehearsal.zeroSignature, event) ∈ t.handed := by
  obtain ⟨t, performed, facts⟩ := perform_any
    (p := fun t => t.lastSignature = some Rehearsal.zeroSignature ∧
      t.finalised = [Rehearsal.recordedTx, Rehearsal.depositTx])
    (by decide +kernel : (perform (SolanaListener.step Rehearsal.solana)
      (SolanaListener.start (some Rehearsal.recordedTx.signature) [Rehearsal.recordedTx])
      Rehearsal.notified).any _ = true)
  obtain ⟨shared, finalised⟩ := of_decide_eq_true facts
  have timely : ∀ label ∈ history (SolanaListener.step Rehearsal.solana)
      (SolanaListener.start (some Rehearsal.recordedTx.signature) [Rehearsal.recordedTx])
      Rehearsal.notified, label.action = .message →
        label.before.socket = .opened (some ⟨1, 1⟩) ∧
        (label.before.queues[label.before.deliveryQueue]?.bind (·.snapshot)) = some 1 := by
    decide +kernel
  have sees : ∀ label ∈ history (SolanaListener.step Rehearsal.solana)
      (SolanaListener.start (some Rehearsal.recordedTx.signature) [Rehearsal.recordedTx])
      Rehearsal.notified, ¬ Overlooks Rehearsal.solana label := by
    rintro label member ⟨q, seen, activated, next, i, tx, message, found, -, served, opened,
      above, below, -⟩
    obtain ⟨socket, snapshot⟩ := timely label member message
    rw [found, Option.bind_some, served] at snapshot
    have same : (⟨activated, next⟩ : Subscription) = ⟨1, 1⟩ :=
      Option.some.inj (Socket.opened.inj (opened.symm.trans socket))
    obtain ⟨rfl, rfl⟩ := Subscription.mk.inj same
    obtain rfl := Option.some.inj snapshot
    exact absurd below (Nat.not_lt_of_le above)
  have first : [Rehearsal.recordedTx][0]? = some Rehearsal.recordedTx := rfl
  obtain ⟨k, last, here, named, all⟩ := solana_listener_complete ⟨by decide, by decide⟩ first
    (perform_run performed) sees _ (.inl shared)
  rw [finalised] at here
  have position : 1 ≤ k := by
    rcases k with _ | k
    · obtain rfl := Option.some.inj here
      exact absurd named (by decide)
    · exact Nat.le_add_left 1 k
  have there : t.finalised[1]? = some Rehearsal.depositTx := by rw [finalised]; rfl
  exact ⟨t, performed, there, all 1 Rehearsal.depositTx (by decide) position there rfl⟩

/-- A deposit that is finalised between the backfill and the subscription is never handed over,
and the next notification moves the checkpoint past it. -/
theorem backfill_gap_skips_deposit :
    ¬ ∀ (labels : List (Occurrence SolanaListener SolanaAction)) (t : SolanaListener),
      Run (Occurs (SolanaListener.step Rehearsal.solana))
        (SolanaListener.start (some Rehearsal.recordedTx.signature) [Rehearsal.recordedTx])
        labels t →
      ∀ signature, t.lastSignature = some signature ∨ t.signatureStore = some signature →
        ∃ k last, t.finalised[k]? = some last ∧ last.signature = signature ∧
          ∀ i tx, 0 < i → i ≤ k → t.finalised[i]? = some tx → tx.failed = false →
            ∀ event ∈ extractBridgeFundEvents Rehearsal.solana tx.signature tx.logs,
              (tx.signature, event) ∈ t.handed := by
  intro complete
  obtain ⟨t, performed, facts⟩ := perform_any
    (p := fun t => t.lastSignature = some ['2'] ∧ t.handed = [] ∧
      t.finalised = [Rehearsal.recordedTx, Rehearsal.depositTx, Rehearsal.laterTx])
    (by decide +kernel : (perform (SolanaListener.step Rehearsal.solana)
      (SolanaListener.start (some Rehearsal.recordedTx.signature) [Rehearsal.recordedTx])
      Rehearsal.overlooked).any _ = true)
  obtain ⟨shared, handed, history⟩ := of_decide_eq_true facts
  obtain ⟨k, last, here, named, all⟩ := complete _ t (perform_run performed) ['2'] (.inl shared)
  rw [history] at here
  have position : k = 2 := by
    rcases k with _ | _ | _ | k
    · obtain rfl := Option.some.inj here
      exact absurd named (by decide)
    · obtain rfl := Option.some.inj here
      exact absurd named (by decide)
    · rfl
    · cases here
  obtain ⟨event, member⟩ := List.exists_mem_of_length_pos
    (by decide +kernel : 0 < (extractBridgeFundEvents Rehearsal.solana
      Rehearsal.depositTx.signature Rehearsal.depositTx.logs).length)
  have delivered := all 1 Rehearsal.depositTx (by decide) (by omega) (by rw [history]; rfl) rfl
    event member
  rw [handed] at delivered
  cases delivered

end OnboardingBridge.Relayer
