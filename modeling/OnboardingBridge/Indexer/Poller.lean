import OnboardingBridge.Foundations.Machines
import OnboardingBridge.Foundations.Numbering
import OnboardingBridge.Indexer.Events

/-!
# The poller of the indexer

A poll asks the RPC for the events from a ledger on, page by page, and stores what it
recognises unless the id is known already. The id has an index in it that is counted per
transaction, over the events of one page.

The chain is the history of the contract's events. The RPC returns a beginning of those
from the start ledger on, in pages of any size; a poll may fail after any event, and only
one that finishes moves the ledger that the next one starts after. What was recognised,
with what was made of it, is there to speak about runs.
-/

set_option autoImplicit false

namespace OnboardingBridge.Indexer

open Foundations Contract Relayer

/-! ## States -/

structure IndexerConfig where
  contractId : String
  lookbackLedgers : Int
  sha256 : List UInt8 → BytesN 32

structure Database where
  events : List IndexedEvent
  lastLedger : Option Int
  /-- The recognised events that were taken from a page, with what was made of them. -/
  identified : List (RawEvent × IndexedEvent)

namespace Database

/-- An empty database. -/
def start : Database where
  events := []
  lastLedger := none
  identified := []

/-- `INSERT OR IGNORE`: an id that is known already stays with its row. -/
def insertEvent (s : Database) (event : IndexedEvent) : Database :=
  if event.id ∈ s.events.map IndexedEvent.id then s
  else { s with events := s.events ++ [event] }

section Polling

variable (config : IndexerConfig)

/-- The ledger that a poll starts from. -/
def startLedger (s : Database) (latest : Int) : Int :=
  match s.lastLedger with
  | some last => last + 1
  | none => max (latest - config.lookbackLedgers) 0

/-- What the loop does with an event that has an index. -/
def indexEvent (now : String) (s : Database) (numbered : RawEvent × Nat) : Database :=
  match parseContractEvent config.sha256 now config.contractId numbered.1 numbered.2 with
  | some indexed =>
      { s.insertEvent indexed with identified := s.identified ++ [(numbered.1, indexed)] }
  | none => s

/-- The loop over the events of a page, with the events that were seen of each transaction. -/
def indexPage (now : String) (eventsSeenPerTx : String → Nat) (s : Database) :
    List RawEvent → Database
  | [] => s
  | raw :: rest =>
      let eventIndex := eventsSeenPerTx raw.transaction
      let seen := Function.update eventsSeenPerTx raw.transaction (eventIndex + 1)
      indexPage now seen (s.indexEvent config now (raw, eventIndex)) rest

/-- Every page counts from zero. -/
def indexPages (now : String) (s : Database) (pages : List (List RawEvent)) : Database :=
  pages.foldl (fun s page => s.indexPage config now (fun _ => 0) page) s

/-- The end of a poll: the ledger moves when there were events. -/
def advanceCursor (s : Database) (startLedger : Int) (served : List RawEvent) : Database :=
  if served = [] then s
  else { s with
    lastLedger := some (served.foldl (fun ledger raw => max ledger raw.ledgerSequence) startLedger) }

def pollOnce (s : Database) (now : String) (startLedger : Int) (pages : List (List RawEvent))
    (finished : Bool) : Database :=
  let indexed := s.indexPages config now pages
  if finished = true then indexed.advanceCursor startLedger pages.flatten else indexed

end Polling

end Database

/-! ## Steps -/

/-- What may happen next: a poll, with pages of the given sizes, or one whose start ledger the RPC
does not keep any more. -/
inductive IndexerAction where
  | poll (latest : Int) (now : String) (sizes : List Nat) (finished : Bool)
  | outOfRange (latest : Int)

/-- Events in pages of given sizes. -/
def paginate {α : Type} : List Nat → List α → List (List α)
  | [], _ => []
  | size :: sizes, events => events.take size :: paginate sizes (events.drop size)

/-- The events from a ledger on. -/
def eventsFrom (chain : List RawEvent) (startLedger : Int) : List RawEvent :=
  chain.filter fun raw => startLedger ≤ raw.ledgerSequence

/-- The pages that a poll gets. -/
def Database.servedPages (config : IndexerConfig) (chain : List RawEvent) (s : Database)
    (latest : Int) (sizes : List Nat) : List (List RawEvent) :=
  paginate sizes (eventsFrom chain (s.startLedger config latest))

/-- What an action does; every action can happen. -/
def Database.step (config : IndexerConfig) (chain : List RawEvent) (s : Database) :
    IndexerAction → Option Database
  | .poll latest now sizes finished =>
      some (s.pollOnce config now (s.startLedger config latest)
        (s.servedPages config chain latest sizes) finished)
  | .outOfRange latest => some { s with lastLedger := some latest }

/-! ## Chains -/

/-- What the RPC returns of a chain: events have an `id` each, a transaction has a hash of 64
characters and belongs to one ledger, and the counters do not overflow. -/
structure EventChain (chain : List RawEvent) : Prop where
  ids : (chain.map RawEvent.id).Nodup
  hashes : ∀ raw ∈ chain, (utf8Bytes raw.transaction).length = 64
  ledgers : ∀ raw ∈ chain, ∀ other ∈ chain, raw.transaction = other.transaction →
    raw.ledgerSequence = other.ledgerSequence
  short : chain.length < 2 ^ 64

/-- The events of a chain, with their positions within their transactions. -/
abbrev positioned (chain : List RawEvent) : List (RawEvent × Nat) :=
  numbered RawEvent.transaction chain

/-- The hash tells the events of the chain apart. -/
def Collisionless (sha256 : List UInt8 → BytesN 32) (chain : List RawEvent) : Prop :=
  ∀ raw index eventType topic raw' index' eventType' topic',
    (raw, index) ∈ positioned chain → raw.recognised = some (eventType, topic) →
    (raw', index') ∈ positioned chain → raw'.recognised = some (eventType', topic') →
    sha256 (idBytes raw eventType topic index) = sha256 (idBytes raw' eventType' topic' index') →
    idBytes raw eventType topic index = idBytes raw' eventType' topic' index'

/-- A page of the poll has a recognised event of a transaction that an earlier page has events of
too. -/
def Straddles (config : IndexerConfig) (chain : List RawEvent)
    (label : Occurrence Database IndexerAction) : Prop :=
  ∃ latest now sizes finished earlier page later raw other,
    label.action = .poll latest now sizes finished ∧
    label.before.servedPages config chain latest sizes = earlier ++ page :: later ∧
    raw ∈ page ∧ raw.recognised.isSome = true ∧ other ∈ earlier.flatten ∧
    other.transaction = raw.transaction

/-- The events that a poll gets. -/
def servedBy (config : IndexerConfig) (chain : List RawEvent)
    (label : Occurrence Database IndexerAction) : List RawEvent :=
  match label.action with
  | .poll latest _ sizes _ => (label.before.servedPages config chain latest sizes).flatten
  | .outOfRange _ => []

/-! ## Ids -/

theorem utf8Bytes_injective : Function.Injective utf8Bytes := by
  intro text text' same
  refine String.toByteArray_inj.mp (ByteArray.ext ?_)
  exact Array.toList_inj.mp same

section Identity

variable {chain : List RawEvent} {sha256 : List UInt8 → BytesN 32} {raw raw' : RawEvent}
  {index index' : ℕ} {eventType eventType' : BridgeEventType} {topic topic' : String}

/-- The hashed bytes tell the transaction and the index. -/
theorem idBytes_inj (hash : (utf8Bytes raw.transaction).length = 64)
    (hash' : (utf8Bytes raw'.transaction).length = 64) (within : index < 2 ^ 64)
    (within' : index' < 2 ^ 64)
    (same : idBytes raw eventType topic index = idBytes raw' eventType' topic' index') :
    raw.transaction = raw'.transaction ∧ index = index' := by
  obtain ⟨front, back⟩ := List.append_inj' same (by simp)
  rw [List.append_assoc, List.append_assoc] at front
  obtain ⟨-, front⟩ := List.append_inj front (by simp)
  obtain ⟨transaction, -⟩ := List.append_inj front (by rw [hash, hash'])
  refine ⟨utf8Bytes_injective transaction, ?_⟩
  exact bigEndian_injOn (by simpa using within) (by simpa using within')
    (List.reverse_injective back)

theorem EventChain.index_lt (ok : EventChain chain) (member : (raw, index) ∈ positioned chain) :
    index < 2 ^ 64 := by
  have below := number_lt RawEvent.transaction member
  rw [Nat.zero_add] at below
  exact below.trans ok.short

/-- Recognised events of the chain have the same id only if they are the same. -/
theorem EventChain.same_of_id (ok : EventChain chain) (unique : Collisionless sha256 chain)
    (member : (raw, index) ∈ positioned chain) (known : raw.recognised = some (eventType, topic))
    (member' : (raw', index') ∈ positioned chain)
    (known' : raw'.recognised = some (eventType', topic'))
    (same : eventId sha256 raw eventType topic index = eventId sha256 raw' eventType' topic' index') :
    raw = raw' := by
  have hashes : sha256 (idBytes raw eventType topic index) =
      sha256 (idBytes raw' eventType' topic' index') :=
    hexText_injective (String.ofList_injective same)
  obtain ⟨transaction, number⟩ := idBytes_inj
    (ok.hashes raw (mem_of_mem_numberFrom _ member)) (ok.hashes raw' (mem_of_mem_numberFrom _ member'))
    (ok.index_lt member) (ok.index_lt member')
    (unique _ _ _ _ _ _ _ _ member known member' known' hashes)
  have key : (fun pair : RawEvent × ℕ => (pair.1.transaction, pair.2)) (raw, index) =
      (fun pair : RawEvent × ℕ => (pair.1.transaction, pair.2)) (raw', index') :=
    Prod.ext transaction number
  have pairs := List.inj_on_of_nodup_map (numberFrom_nodup RawEvent.transaction _ chain) member
    member' key
  exact congrArg Prod.fst pairs

/-- An event of the chain has one position. -/
theorem EventChain.same_position (ok : EventChain chain)
    (member : (raw, index) ∈ positioned chain) (member' : (raw', index') ∈ positioned chain)
    (same : raw.id = raw'.id) : raw = raw' ∧ index = index' := by
  have nodup : ((positioned chain).map fun pair => pair.1.id).Nodup := by
    have ids := ok.ids
    rw [← numberFrom_fst RawEvent.transaction (fun _ => 0) chain, List.map_map] at ids
    exact ids
  have key : (fun pair : RawEvent × ℕ => pair.1.id) (raw, index) =
      (fun pair : RawEvent × ℕ => pair.1.id) (raw', index') := same
  exact Prod.mk.inj (List.inj_on_of_nodup_map nodup member member' key)

end Identity

/-! ## Polls -/

namespace Database

variable {config : IndexerConfig} {chain : List RawEvent} {s t : Database}

/-- What is made of an event, and its id. -/
theorem parse_recognised {sha256 : List UInt8 → BytesN 32} {now contractId : String}
    {raw : RawEvent} {index : ℕ} {indexed : IndexedEvent}
    (parsed : parseContractEvent sha256 now contractId raw index = some indexed) :
    ∃ eventType topic, raw.recognised = some (eventType, topic) ∧
      indexed.id = eventId sha256 raw eventType topic index := by
  unfold parseContractEvent at parsed
  obtain ⟨topics, decoded, parsed⟩ := Option.bind_eq_some_iff.mp parsed
  obtain ⟨eventType, typed, parsed⟩ := Option.bind_eq_some_iff.mp parsed
  obtain rfl := Option.some.inj parsed
  refine ⟨eventType, firstTopicOf topics, ?_, rfl⟩
  simp only [RawEvent.recognised, decoded, typed, Option.bind_eq_bind, Option.bind_some,
    Option.pure_def]

theorem parse_of_recognised {sha256 : List UInt8 → BytesN 32} {raw : RawEvent}
    (known : raw.recognised.isSome = true) (now contractId : String) (index : ℕ) :
    ∃ indexed, parseContractEvent sha256 now contractId raw index = some indexed := by
  obtain ⟨pair, found⟩ := Option.isSome_iff_exists.mp known
  obtain ⟨topics, decoded, found⟩ := Option.bind_eq_some_iff.mp found
  obtain ⟨eventType, typed, -⟩ := Option.bind_eq_some_iff.mp found
  simp only [parseContractEvent, decoded, typed, Option.bind_eq_bind, Option.bind_some,
    Option.pure_def, Option.some.injEq, exists_eq']

/-- What was recognised was numbered as in the chain, and stored once. -/
structure Faithful (config : IndexerConfig) (chain : List RawEvent) (s : Database) : Prop where
  numbered : ∀ raw indexed, (raw, indexed) ∈ s.identified → ∃ index now,
    (raw, index) ∈ positioned chain ∧
      parseContractEvent config.sha256 now config.contractId raw index = some indexed
  nodup : (s.events.map IndexedEvent.id).Nodup
  stored : ∀ raw indexed, (raw, indexed) ∈ s.identified → indexed.id ∈ s.events.map IndexedEvent.id
  rows : ∀ row ∈ s.events, ∃ raw, (raw, row) ∈ s.identified

theorem start_faithful : Faithful config chain start where
  numbered _ _ member := absurd member List.not_mem_nil
  nodup := List.nodup_nil
  stored _ _ member := absurd member List.not_mem_nil
  rows _ member := absurd member List.not_mem_nil

theorem insertEvent_ids (s : Database) (event : IndexedEvent) :
    event.id ∈ (s.insertEvent event).events.map IndexedEvent.id ∧
      ∀ id ∈ s.events.map IndexedEvent.id, id ∈ (s.insertEvent event).events.map IndexedEvent.id := by
  unfold insertEvent
  split
  · next known => exact ⟨known, fun _ => id⟩
  · rw [List.map_append]
    exact ⟨List.mem_append_right _ List.mem_cons_self, fun _ => List.mem_append_left _⟩

theorem insertEvent_nodup {event : IndexedEvent} (nodup : (s.events.map IndexedEvent.id).Nodup) :
    ((s.insertEvent event).events.map IndexedEvent.id).Nodup := by
  unfold insertEvent
  split
  · exact nodup
  · next fresh =>
    rw [List.map_append]
    refine List.nodup_append.mpr ⟨nodup, List.nodup_singleton _, ?_⟩
    rintro id known _ member rfl
    exact fresh (List.mem_singleton.mp member ▸ known)

theorem mem_insertEvent {event row : IndexedEvent} (member : row ∈ (s.insertEvent event).events) :
    row ∈ s.events ∨ row = event := by
  unfold insertEvent at member
  split at member
  · exact .inl member
  · exact (List.mem_append.mp member).imp_right List.mem_singleton.mp

/-- Only the rows and what was identified matter. -/
theorem Faithful.of_same (faithful : s.Faithful config chain) (events : t.events = s.events)
    (identified : t.identified = s.identified) : t.Faithful config chain := by
  obtain ⟨numbered, nodup, stored, rows⟩ := faithful
  constructor
  · rwa [identified]
  · rwa [events]
  · rwa [identified, events]
  · rwa [identified, events]

/-- The end of a poll moves nothing but the ledger. -/
theorem pollOnce_same (config : IndexerConfig) (s : Database) (now : String) (startLedger : Int)
    (pages : List (List RawEvent)) (finished : Bool) :
    (s.pollOnce config now startLedger pages finished).events =
        (s.indexPages config now pages).events ∧
      (s.pollOnce config now startLedger pages finished).identified =
        (s.indexPages config now pages).identified := by
  unfold pollOnce advanceCursor
  split
  · split <;> exact ⟨rfl, rfl⟩
  · exact ⟨rfl, rfl⟩

/-- The id of an event tells which it is. -/
theorem Faithful.ids (faithful : s.Faithful config chain) (ok : EventChain chain)
    (unique : Collisionless config.sha256 chain) {raw raw' : RawEvent}
    {indexed indexed' : IndexedEvent} (made : (raw, indexed) ∈ s.identified)
    (made' : (raw', indexed') ∈ s.identified) : indexed.id = indexed'.id ↔ raw.id = raw'.id := by
  obtain ⟨index, _, position, parsed⟩ := faithful.numbered raw indexed made
  obtain ⟨index', _, position', parsed'⟩ := faithful.numbered raw' indexed' made'
  obtain ⟨eventType, topic, known, named⟩ := parse_recognised parsed
  obtain ⟨eventType', topic', known', named'⟩ := parse_recognised parsed'
  rw [named, named']
  constructor
  · intro same
    exact congrArg RawEvent.id (ok.same_of_id unique position known position' known' same)
  · intro same
    obtain ⟨rfl, rfl⟩ := ok.same_position position position' same
    obtain ⟨rfl, rfl⟩ := Prod.mk.inj (Option.some.inj (known.symm.trans known'))
    rfl

/-- An event that is recognised at its position in the chain is stored unless it was before. -/
theorem Faithful.indexEvent (now : String) {pair : RawEvent × ℕ}
    (faithful : s.Faithful config chain)
    (here : pair.1.recognised.isSome = true → pair ∈ positioned chain) :
    (s.indexEvent config now pair).Faithful config chain ∧
      (∀ entry ∈ s.identified, entry ∈ (s.indexEvent config now pair).identified) ∧
      (pair.1.recognised.isSome = true →
        ∃ indexed, (pair.1, indexed) ∈ (s.indexEvent config now pair).identified) := by
  unfold Database.indexEvent
  cases parsed : parseContractEvent config.sha256 now config.contractId pair.1 pair.2 with
  | none =>
    refine ⟨faithful, fun _ => id, fun known => ?_⟩
    obtain ⟨indexed, found⟩ := parse_of_recognised known now config.contractId pair.2
    rw [parsed] at found
    cases found
  | some indexed =>
    obtain ⟨eventType, topic, known, -⟩ := parse_recognised parsed
    have position := here (by rw [known]; rfl)
    obtain ⟨own, others⟩ := s.insertEvent_ids indexed
    refine ⟨⟨fun raw other member => ?_, insertEvent_nodup faithful.nodup,
      fun raw other member => ?_, fun row member => ?_⟩, fun _ => List.mem_append_left _,
      fun _ => ⟨indexed, List.mem_append_right _ List.mem_cons_self⟩⟩
    · rcases List.mem_append.mp member with before | added
      · exact faithful.numbered raw other before
      · obtain ⟨rfl, rfl⟩ := Prod.mk.inj (List.mem_singleton.mp added)
        exact ⟨pair.2, now, position, parsed⟩
    · rcases List.mem_append.mp member with before | added
      · exact others _ (faithful.stored raw other before)
      · obtain ⟨rfl, rfl⟩ := Prod.mk.inj (List.mem_singleton.mp added)
        exact own
    · rcases mem_insertEvent member with before | rfl
      · obtain ⟨raw, identified⟩ := faithful.rows row before
        exact ⟨raw, List.mem_append_left _ identified⟩
      · exact ⟨pair.1, List.mem_append_right _ List.mem_cons_self⟩

/-- So are events that have their positions, one after the other. -/
theorem Faithful.indexEvents (now : String) {pairs : List (RawEvent × ℕ)}
    (faithful : s.Faithful config chain)
    (here : ∀ pair ∈ pairs, pair.1.recognised.isSome = true → pair ∈ positioned chain) :
    (pairs.foldl (Database.indexEvent config now) s).Faithful config chain ∧
      (∀ entry ∈ s.identified,
        entry ∈ (pairs.foldl (Database.indexEvent config now) s).identified) ∧
      ∀ pair ∈ pairs, pair.1.recognised.isSome = true → ∃ indexed,
        (pair.1, indexed) ∈ (pairs.foldl (Database.indexEvent config now) s).identified := by
  induction pairs generalizing s with
  | nil => exact ⟨faithful, fun _ => id, fun pair member => absurd member List.not_mem_nil⟩
  | cons pair rest ih =>
      obtain ⟨first, here⟩ := List.forall_mem_cons.mp here
      obtain ⟨faithful, kept, known⟩ := faithful.indexEvent now first
      obtain ⟨final, keptOn, later⟩ := ih faithful here
      refine ⟨final, fun entry member => keptOn entry (kept entry member), ?_⟩
      refine List.forall_mem_cons.mpr ⟨fun recognised => ?_, later⟩
      obtain ⟨indexed, member⟩ := known recognised
      exact ⟨indexed, keptOn _ member⟩

theorem indexPage_eq (now : String) (seen : String → ℕ) (s : Database) (page : List RawEvent) :
    s.indexPage config now seen page =
      (numberFrom RawEvent.transaction seen page).foldl (Database.indexEvent config now) s := by
  induction page generalizing seen s with
  | nil => rfl
  | cons raw rest ih => rw [Database.indexPage, ih]; rfl

/-- Every page is numbered on its own. -/
theorem indexPages_eq (now : String) (s : Database) (pages : List (List RawEvent)) :
    s.indexPages config now pages =
      (pages.flatMap (numbered RawEvent.transaction)).foldl (Database.indexEvent config now) s := by
  induction pages generalizing s with
  | nil => rfl
  | cons page rest ih =>
      rw [List.flatMap_cons, List.foldl_append, ← indexPage_eq, ← ih]
      rfl

end Database

theorem paginate_prefix {α : Type} (sizes : List ℕ) (events : List α) :
    (paginate sizes events).flatten <+: events := by
  induction sizes generalizing events with
  | nil => exact List.nil_prefix
  | cons size sizes ih =>
      rw [paginate, List.flatten_cons]
      conv_rhs => rw [← List.take_append_drop size events]
      exact (List.prefix_append_right_inj _).mpr (ih _)

/-! ## Steps number as the chain does -/

section Stepping

variable {config : IndexerConfig} {chain : List RawEvent} {s t : Database}

/-- In a poll that does not split the transaction of an event it recognises, the event has the
number that it has in the chain. -/
theorem numbered_positioned (ok : EventChain chain) {latest : Int} {now : String} {sizes : List ℕ}
    {finished : Bool} (whole : ¬ Straddles config chain ⟨s, .poll latest now sizes finished⟩)
    {pair : RawEvent × ℕ}
    (member : pair ∈ (s.servedPages config chain latest sizes).flatMap
      (numbered RawEvent.transaction))
    (known : pair.1.recognised.isSome = true) : pair ∈ positioned chain := by
  obtain ⟨page, inPages, inPage⟩ := List.mem_flatMap.mp member
  obtain ⟨earlier, later, split⟩ := List.append_of_mem inPages
  have absent : ∀ other ∈ earlier.flatten, other.transaction ≠ pair.1.transaction := by
    intro other before same
    exact whole ⟨latest, now, sizes, finished, earlier, page, later, pair.1, other, rfl, split,
      mem_of_mem_numberFrom _ inPage, known, before, same⟩
  obtain ⟨rest, served⟩ := paginate_prefix sizes (eventsFrom chain (s.startLedger config latest))
  have parts : eventsFrom chain (s.startLedger config latest) =
      earlier.flatten ++ page ++ (later.flatten ++ rest) := by
    rw [← served, show paginate sizes _ = earlier ++ page :: later from split,
      List.flatten_append, List.flatten_cons]
    simp only [List.append_assoc]
  have number := mem_numberFrom_middle RawEvent.transaction (later.flatten ++ rest) inPage absent
  rw [← parts] at number
  refine mem_numberFrom_of_filter RawEvent.transaction (fun raw inA other inB same => ?_) number
  rw [ok.ledgers raw inA other inB same]

/-- What the polls so far got is identified. -/
def Covered (config : IndexerConfig) (chain : List RawEvent)
    (past : List (Occurrence Database IndexerAction)) (s : Database) : Prop :=
  ∀ label ∈ past, ∀ raw ∈ servedBy config chain label, raw.recognised.isSome = true →
    ∃ indexed, (raw, indexed) ∈ s.identified

theorem Database.step_faithful (ok : EventChain chain)
    {past : List (Occurrence Database IndexerAction)} {label : Occurrence Database IndexerAction}
    (faithful : s.Faithful config chain) (covered : Covered config chain past s)
    (whole : ¬ Straddles config chain label)
    (taken : Occurs (Database.step config chain) s label t) :
    t.Faithful config chain ∧ Covered config chain (past ++ [label]) t := by
  obtain ⟨before, action⟩ := label
  obtain ⟨rfl, taken⟩ := taken
  cases action with
  | poll latest now sizes finished =>
    obtain rfl := Option.some.inj taken
    have positions : ∀ pair ∈ (before.servedPages config chain latest sizes).flatMap
        (numbered RawEvent.transaction), pair.1.recognised.isSome = true →
          pair ∈ positioned chain := fun _ => numbered_positioned ok whole
    obtain ⟨indexed, kept, known⟩ := faithful.indexEvents now positions
    rw [← Database.indexPages_eq] at indexed kept known
    obtain ⟨sameEvents, sameIdentified⟩ := before.pollOnce_same config now
      (before.startLedger config latest) (before.servedPages config chain latest sizes) finished
    refine ⟨indexed.of_same sameEvents sameIdentified, fun label member raw served recognised => ?_⟩
    rw [sameIdentified]
    rcases List.mem_append.mp member with earlier | now
    · obtain ⟨event, found⟩ := covered label earlier raw served recognised
      exact ⟨event, kept _ found⟩
    · obtain rfl := List.mem_singleton.mp now
      obtain ⟨page, inPages, inPage⟩ := List.mem_flatten.mp served
      rw [← numberFrom_fst RawEvent.transaction (fun _ => 0) page] at inPage
      obtain ⟨pair, numbers, rfl⟩ := List.mem_map.mp inPage
      exact known pair (List.mem_flatMap.mpr ⟨page, inPages, numbers⟩) recognised
  | outOfRange latest =>
    obtain rfl := Option.some.inj taken
    refine ⟨faithful.of_same rfl rfl, fun label member raw served recognised => ?_⟩
    rcases List.mem_append.mp member with earlier | now
    · exact covered label earlier raw served recognised
    · obtain rfl := List.mem_singleton.mp now
      cases served

end Stepping

/-! ## Runs -/

/-- In a run in which no poll splits the transaction of an event that it recognises over two
pages: recognised events have the same id exactly when they are the same event of the chain, no
two rows have the same id, and every recognised event that a poll got has exactly one row. -/
theorem event_identity {config : IndexerConfig} {chain : List RawEvent}
    {labels : List (Occurrence Database IndexerAction)} {t : Database} (ok : EventChain chain)
    (unique : Collisionless config.sha256 chain)
    (run : Run (Occurs (Database.step config chain)) Database.start labels t)
    (whole : ∀ label ∈ labels, ¬ Straddles config chain label) :
    (∀ raw indexed raw' indexed', (raw, indexed) ∈ t.identified →
      (raw', indexed') ∈ t.identified → (indexed.id = indexed'.id ↔ raw.id = raw'.id)) ∧
    (t.events.map IndexedEvent.id).Nodup ∧
    ∀ label ∈ labels, ∀ raw ∈ servedBy config chain label, raw.recognised.isSome = true →
      ∃! row, row ∈ t.events ∧ (raw, row) ∈ t.identified := by
  let inv : List (Occurrence Database IndexerAction) → Database → Prop := fun past s =>
    s.Faithful config chain ∧ Covered config chain past s
  have final : inv labels t := by
    have nothing : Covered config chain [] Database.start := fun _ member =>
      absurd member List.not_mem_nil
    have start : inv [] Database.start := ⟨Database.start_faithful, nothing⟩
    refine Run.traced ?_ (run.restrict whole) start
    rintro past s label next ⟨faithful, covered⟩ ⟨fits, taken⟩
    exact Database.step_faithful ok faithful covered fits taken
  obtain ⟨faithful, covered⟩ := final
  refine ⟨fun _ _ _ _ => faithful.ids ok unique, faithful.nodup, ?_⟩
  intro label member raw served known
  obtain ⟨indexed, identified⟩ := covered label member raw served known
  obtain ⟨row, stored, named⟩ := List.mem_map.mp (faithful.stored raw indexed identified)
  obtain ⟨other, made⟩ := faithful.rows row stored
  obtain ⟨index, _, position, -⟩ := faithful.numbered raw indexed identified
  obtain ⟨index', _, position', -⟩ := faithful.numbered other row made
  have same : other.id = raw.id := (faithful.ids ok unique made identified).mp named
  obtain ⟨rfl, -⟩ := ok.same_position position' position same
  refine ⟨row, ⟨stored, made⟩, fun row' there => ?_⟩
  have ids : row'.id = row.id := (faithful.ids ok unique there.2 made).mpr rfl
  exact List.inj_on_of_nodup_map faithful.nodup there.1 stored ids

namespace Rehearsal

/-- A deposit, with the base64 of its first topic and a value. -/
def deposit (id : String) (amount : Int) : RawEvent where
  id
  ledger := some 10
  txHash := some "abababababababababababababababababababababababababababababababab"
  topic := some [.string "AAAADwAAAA5DQWRkcmVzc0Z1bmRlZAAA"]
  createdAt := some "2024-06-01T12:00:00Z"
  value := some (.number amount)

/-- A transaction with two deposits. -/
def depositChain : List RawEvent :=
  [deposit "0000000042949672960-0000000000" 5, deposit "0000000042949672960-0000000001" 7]

/-- The hashes of the two strings that the ids are made of, which end in the index. -/
def idSha256 (bytes : List UInt8) : BytesN 32 :=
  if bytes.reverse[7]? = some 0 then
    0xe3653f157c3e887f58dd68dbaea421e66e46dbadc8822fc048b2d5543bf9b5c7
  else 0x5c5c80364e26cf55c3b2817b8cefca715218225a5027179fdb67ee875825d3a9

def indexerConfig : IndexerConfig := ⟨"CONTRACT", 720, idSha256⟩

theorem depositChain_ok : EventChain depositChain where
  ids := by decide
  hashes raw member := by
    rcases List.mem_cons.mp member with rfl | member
    · decide +kernel
    · obtain rfl := List.mem_singleton.mp member
      decide +kernel
  ledgers := by
    have same : ∀ raw ∈ depositChain, raw.ledgerSequence = 10 := by decide
    intro raw member other member' _
    rw [same raw member, same other member']
  short := by decide

/-- The two deposits and their positions. -/
theorem positioned_depositChain : positioned depositChain =
    [(deposit "0000000042949672960-0000000000" 5, 0),
      (deposit "0000000042949672960-0000000001" 7, 1)] := by
  simp [positioned, numbered, numberFrom, depositChain, RawEvent.transaction, deposit]

theorem deposit_recognised (id : String) (amount : Int) :
    (deposit id amount).recognised = some (.cAddressFunded, "CAddressFunded") := by
  have known : (deposit "" 0).recognised = some (.cAddressFunded, "CAddressFunded") := by
    decide +kernel
  exact known

theorem depositChain_collisionless : Collisionless indexerConfig.sha256 depositChain := by
  intro raw index eventType topic raw' index' eventType' topic' member known member' known' same
  rw [positioned_depositChain] at member member'
  have first := deposit_recognised "0000000042949672960-0000000000" 5
  have second := deposit_recognised "0000000042949672960-0000000001" 7
  simp only [List.mem_cons, List.not_mem_nil, or_false, Prod.mk.injEq] at member member'
  rcases member with ⟨rfl, rfl⟩ | ⟨rfl, rfl⟩ <;> rcases member' with ⟨rfl, rfl⟩ | ⟨rfl, rfl⟩
  · rw [first] at known known'
    cases known
    cases known'
    rfl
  · rw [first] at known
    rw [second] at known'
    cases known
    cases known'
    revert same
    decide +kernel
  · rw [second] at known
    rw [first] at known'
    cases known
    cases known'
    revert same
    decide +kernel
  · rw [second] at known known'
    cases known
    cases known'
    rfl

/-- Two polls over both deposits, each of them in one page. -/
def wholePolls : List IndexerAction := [.poll 12 "" [5] false, .poll 12 "" [2] true]

/-- One poll that gets them in two pages. -/
def splitPoll : List IndexerAction := [.poll 12 "" [1, 1] true]

end Rehearsal

open Rehearsal

/-- A poll that gets one page splits nothing. -/
theorem not_straddles_of_single {config : IndexerConfig} {chain : List RawEvent} {s : Database}
    {latest : Int} {now : String} {size : ℕ} {finished : Bool} :
    ¬ Straddles config chain ⟨s, .poll latest now [size] finished⟩ := by
  rintro ⟨_, _, sizes, _, earlier, page, later, _, other, action, pages, -, -, inside, -⟩
  obtain ⟨rfl, -, rfl, -⟩ := IndexerAction.poll.inj action
  have lengths := congrArg List.length pages
  simp only [Database.servedPages, paginate, List.length_append, List.length_cons,
    List.length_nil] at lengths
  obtain rfl : earlier = [] := List.length_eq_zero_iff.mp (by omega)
  cases inside

/-- Deposits of one transaction in one page are stored, and stay apart when they come again. -/
theorem event_identity_rehearsed :
    ∃ t, perform (Database.step indexerConfig depositChain) Database.start wholePolls = some t ∧
      ∀ raw ∈ depositChain, ∃! row, row ∈ t.events ∧ (raw, row) ∈ t.identified := by
  obtain ⟨t, performed, -⟩ := perform_any (p := fun _ => true)
    (by decide +kernel : (perform (Database.step indexerConfig depositChain) Database.start
      wholePolls).any _ = true)
  have whole : ∀ label ∈ history (Database.step indexerConfig depositChain) Database.start
      wholePolls, ¬ Straddles indexerConfig depositChain label := by
    rintro ⟨before, action⟩ member
    have asked := action_mem_history member
    simp only [wholePolls, List.mem_cons, List.not_mem_nil, or_false] at asked
    rcases asked with rfl | rfl <;> exact not_straddles_of_single
  obtain ⟨-, -, stored⟩ := event_identity depositChain_ok depositChain_collisionless
    (perform_run performed) whole
  refine ⟨t, performed, fun raw member => ?_⟩
  have served : servedBy indexerConfig depositChain ⟨Database.start, .poll 12 "" [5] false⟩ =
      depositChain := rfl
  refine stored _ List.mem_cons_self raw (served ▸ member) ?_
  simp only [depositChain, List.mem_cons, List.not_mem_nil, or_false] at member
  rcases member with rfl | rfl
  · rw [deposit_recognised, Option.isSome_some]
  · rw [deposit_recognised, Option.isSome_some]

/-- Deposits of one transaction that come in two pages have the same id, and one of them is not
stored. -/
theorem straddling_transaction_collides : EventChain depositChain ∧
    Collisionless indexerConfig.sha256 depositChain ∧
    ∃ t, Run (Occurs (Database.step indexerConfig depositChain)) Database.start
        (history (Database.step indexerConfig depositChain) Database.start splitPoll) t ∧
      t.identified.map (fun pair => (pair.1.id, pair.2.id)) =
        [("0000000042949672960-0000000000",
          "e3653f157c3e887f58dd68dbaea421e66e46dbadc8822fc048b2d5543bf9b5c7"),
         ("0000000042949672960-0000000001",
          "e3653f157c3e887f58dd68dbaea421e66e46dbadc8822fc048b2d5543bf9b5c7")] ∧
      t.events.length = 1 := by
  obtain ⟨t, performed, facts⟩ := perform_any
    (p := fun t => t.identified.map (fun pair => (pair.1.id, pair.2.id)) =
        [("0000000042949672960-0000000000",
          "e3653f157c3e887f58dd68dbaea421e66e46dbadc8822fc048b2d5543bf9b5c7"),
         ("0000000042949672960-0000000001",
          "e3653f157c3e887f58dd68dbaea421e66e46dbadc8822fc048b2d5543bf9b5c7")] ∧
      t.events.length = 1)
    (by decide +kernel : (perform (Database.step indexerConfig depositChain) Database.start
      splitPoll).any _ = true)
  exact ⟨depositChain_ok, depositChain_collisionless, t, perform_run performed,
    of_decide_eq_true facts⟩

end OnboardingBridge.Indexer
