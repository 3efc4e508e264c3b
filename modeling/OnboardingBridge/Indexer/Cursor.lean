import OnboardingBridge.Indexer.Poller

/-!
# The cursor of the indexer

While the poller waits for the RPC, ledgers close and old ones are dropped. A poll asks
for the events after the last ledger, page by page, and moves the last ledger to that of
the last event. When an answer is an error whose text speaks of the start ledger, it
moves to the tip without reading anything.

An answer is taken from the ledgers at one time and comes in at another one. The events
that a poll got so far are what its cursor stands for.
-/

set_option autoImplicit false

namespace OnboardingBridge.Indexer

open Foundations

/-! ## States -/

/-- What a poll is at: it looks up the tip on the first run, asks for a page, has got one, is done
with all pages, or recovers from an error about the start ledger. -/
inductive PollPhase where
  | idle
  | locating (latest : Option Int)
  | requesting (startLedger : Int) (got : List RawEvent) (maxLedger : Int)
  | served (startLedger : Int) (got page : List RawEvent) (maxLedger : Int) (last : Bool)
  | finishing (maxLedger : Int)
  | recovering (latest : Option Int)

/-- The poller, and the ledgers that the RPC knows: the events in them, the oldest one that is
retained, and the latest one. -/
structure Poller where
  database : Database
  phase : PollPhase
  chain : List RawEvent
  oldest : Int
  latest : Int

namespace Poller

def start (chain : List RawEvent) (oldest latest : Int) : Poller :=
  ⟨.start, .idle, chain, oldest, latest⟩

/-- The events after those that were got. -/
def remaining (s : Poller) (startLedger : Int) (got : List RawEvent) : List RawEvent :=
  (eventsFrom s.chain startLedger).drop got.length

/-- Whether a text occurs in an error. -/
def mentions (message part : String) : Bool :=
  message.toList.tails.any fun rest => part.toList.isPrefixOf rest

/-- Whether an error is taken for one about the start ledger. -/
def isOutOfRange (message : String) : Bool :=
  mentions message "startLedger" || mentions message "out of range" ||
    mentions message "beforeOldestLedger"

end Poller

/-- The ledger that a poll has got to. -/
def maxLedgerOf (startLedger : Int) (events : List RawEvent) : Int :=
  events.foldl (fun ledger raw => max ledger raw.ledgerSequence) startLedger

/-! ## Steps -/

/-- What may happen next: a ledger closes, with its events, or is dropped; a poll begins and goes
on; the RPC answers, with a page of some size or with an error; a poll is interrupted, before or
in the middle of a page. -/
inductive CursorAction where
  | close (events : List RawEvent)
  | drop
  | begin
  | locate
  | located
  | serve (size : ℕ) (last : Bool)
  | reject (message : String)
  | process (now : String)
  | finish
  | locateTip
  | recover
  | interrupt (now : String) (processed : ℕ)

open Poller in
/-- What an action does, when it can happen. A page is empty, or has no cursor, only when there are
no more events. -/
def Poller.step (config : IndexerConfig) (s : Poller) : CursorAction → Option Poller
  | .close events =>
      if events.all (fun raw => raw.ledgerSequence = s.latest + 1) = true then
        some { s with chain := s.chain ++ events, latest := s.latest + 1 }
      else none
  | .drop => if s.oldest < s.latest then some { s with oldest := s.oldest + 1 } else none
  | .begin =>
      match s.phase, s.database.lastLedger with
      | .idle, some last => some { s with phase := .requesting (last + 1) [] (last + 1) }
      | .idle, none => some { s with phase := .locating none }
      | _, _ => none
  | .locate =>
      match s.phase with
      | .locating none => some { s with phase := .locating (some s.latest) }
      | _ => none
  | .located =>
      match s.phase with
      | .locating (some latest) =>
          let fallback := max (latest - config.lookbackLedgers) 0
          some { s with phase := .requesting fallback [] fallback }
      | _ => none
  | .serve size last =>
      match s.phase with
      | .requesting startLedger got maxLedger =>
          let page := (s.remaining startLedger got).take size
          if startLedger < s.oldest ∨ s.latest < startLedger then none
          else if (page.isEmpty || last) = true ∧
              page.length < (s.remaining startLedger got).length then none
          else some { s with phase := .served startLedger got page maxLedger last }
      | _ => none
  | .reject message =>
      match s.phase with
      | .requesting .. =>
          if isOutOfRange message = true then some { s with phase := .recovering none }
          else some { s with phase := .idle }
      | _ => none
  | .process now =>
      match s.phase with
      | .served startLedger got page maxLedger last =>
          if page.isEmpty = true then
            some { s with phase := if got.isEmpty = true then .idle else .finishing maxLedger }
          else
            let maxLedger := maxLedgerOf maxLedger page
            some { s with
              database := s.database.indexPage config now (fun _ => 0) page
              phase := if last = true then .finishing maxLedger
                else .requesting startLedger (got ++ page) maxLedger }
      | _ => none
  | .finish =>
      match s.phase with
      | .finishing maxLedger =>
          some { s with
            database := { s.database with lastLedger := some maxLedger }, phase := .idle }
      | _ => none
  | .locateTip =>
      match s.phase with
      | .recovering none => some { s with phase := .recovering (some s.latest) }
      | _ => none
  | .recover =>
      match s.phase with
      | .recovering (some latest) =>
          some { s with
            database := { s.database with lastLedger := some latest }, phase := .idle }
      | _ => none
  | .interrupt now processed =>
      match s.phase with
      | .served _ _ page _ _ =>
          some { s with
            database := s.database.indexPage config now (fun _ => 0) (page.take processed)
            phase := .idle }
      | _ => some { s with phase := .idle }

/-! ## What is not to be skipped -/

section Skipping

variable (config : IndexerConfig)

/-- The table has a row that was made of an event. -/
def Database.Inserted (s : Database) (raw : RawEvent) : Prop :=
  ∃ row ∈ s.events, ∃ index now,
    parseContractEvent config.sha256 now config.contractId raw index = some row

/-- A recognised event in the ledgers after one, up to another one, that the RPC retains. -/
structure Poller.Retains (s : Poller) (last upTo : Int) (raw : RawEvent) : Prop where
  member : raw ∈ s.chain
  recognised : raw.recognised.isSome = true
  after : last < raw.ledgerSequence
  within : raw.ledgerSequence ≤ upTo
  retained : s.oldest ≤ raw.ledgerSequence

/-- When a step moves the last ledger, what the RPC retains in between is inserted. -/
def NeverSkips (label : Occurrence Poller CursorAction) : Prop :=
  ∀ t last upTo, label.before.step config label.action = some t →
    label.before.database.lastLedger = some last → t.database.lastLedger = some upTo →
      ∀ raw, label.before.Retains last upTo raw → t.database.Inserted config raw

/-- A poll recovers to a tip, and the RPC retains an event up to there that is not inserted. -/
def JumpsOver (label : Occurrence Poller CursorAction) : Prop :=
  label.action = .recover ∧ ∃ latest last raw, label.before.phase = .recovering (some latest) ∧
    label.before.database.lastLedger = some last ∧ label.before.Retains last latest raw ∧
    ¬ label.before.database.Inserted config raw

/-- The events of a page that are recognised, with what is made of them. -/
def madeOf (now : String) (page : List RawEvent) : List (RawEvent × IndexedEvent) :=
  (numbered RawEvent.transaction page).filterMap fun pair =>
    (parseContractEvent config.sha256 now config.contractId pair.1 pair.2).map fun indexed =>
      (pair.1, indexed)

/-- The part of a page that an action stores. -/
def Stores (label : Occurrence Poller CursorAction) (now : String) (part : List RawEvent) : Prop :=
  ∃ startLedger got page maxLedger last,
    label.before.phase = .served startLedger got page maxLedger last ∧
      (label.action = .process now ∧ part = page ∨
        ∃ processed, label.action = .interrupt now processed ∧ part = page.take processed)

/-- An event gets the id that another event got. -/
def Confuses (label : Occurrence Poller CursorAction) : Prop :=
  ∃ now part pair other, Stores label now part ∧ pair ∈ madeOf config now part ∧
    other ∈ label.before.database.identified ++ madeOf config now part ∧
    other.2.id = pair.2.id ∧ other.1 ≠ pair.1

end Skipping

/-! ## Storing a page -/

namespace Database

variable {config : IndexerConfig} {s t : Database}

/-- The rows are what was made of events, and all of that is stored. -/
structure Traced (config : IndexerConfig) (s : Database) : Prop where
  made : ∀ pair ∈ s.identified, ∃ index now,
    parseContractEvent config.sha256 now config.contractId pair.1 index = some pair.2
  stored : ∀ pair ∈ s.identified, pair.2.id ∈ s.events.map IndexedEvent.id
  rows : ∀ row ∈ s.events, ∃ raw, (raw, row) ∈ s.identified

theorem insertEvent_subset (s : Database) (event : IndexedEvent) :
    s.events ⊆ (s.insertEvent event).events := by
  unfold insertEvent
  split
  · exact List.Subset.refl _
  · exact List.subset_append_left ..

theorem Traced.indexEvent (now : String) (pair : RawEvent × ℕ) (traced : s.Traced config) :
    (s.indexEvent config now pair).Traced config ∧
      s.events ⊆ (s.indexEvent config now pair).events ∧
      (s.indexEvent config now pair).identified = s.identified ++
        ((parseContractEvent config.sha256 now config.contractId pair.1 pair.2).map
          fun indexed => (pair.1, indexed)).toList := by
  unfold Database.indexEvent
  cases parsed : parseContractEvent config.sha256 now config.contractId pair.1 pair.2 with
  | none => exact ⟨traced, List.Subset.refl _, (List.append_nil _).symm⟩
  | some indexed =>
    obtain ⟨own, others⟩ := s.insertEvent_ids indexed
    refine ⟨⟨fun entry member => ?_, fun entry member => ?_, fun row member => ?_⟩,
      s.insertEvent_subset indexed, rfl⟩
    · rcases List.mem_append.mp member with before | added
      · exact traced.made entry before
      · obtain rfl := List.mem_singleton.mp added
        exact ⟨pair.2, now, parsed⟩
    · rcases List.mem_append.mp member with before | added
      · exact others _ (traced.stored entry before)
      · obtain rfl := List.mem_singleton.mp added
        exact own
    · rcases mem_insertEvent member with before | rfl
      · obtain ⟨raw, identified⟩ := traced.rows row before
        exact ⟨raw, List.mem_append_left _ identified⟩
      · exact ⟨pair.1, List.mem_append_right _ List.mem_cons_self⟩

theorem Traced.indexEvents (now : String) {pairs : List (RawEvent × ℕ)} (traced : s.Traced config) :
    (pairs.foldl (Database.indexEvent config now) s).Traced config ∧
      s.events ⊆ (pairs.foldl (Database.indexEvent config now) s).events ∧
      (pairs.foldl (Database.indexEvent config now) s).identified = s.identified ++
        pairs.filterMap fun pair =>
          (parseContractEvent config.sha256 now config.contractId pair.1 pair.2).map
            fun indexed => (pair.1, indexed) := by
  induction pairs generalizing s with
  | nil => exact ⟨traced, List.Subset.refl _, (List.append_nil _).symm⟩
  | cons pair rest ih =>
      obtain ⟨first, kept, added⟩ := traced.indexEvent now pair
      obtain ⟨final, keptOn, addedOn⟩ := ih first
      refine ⟨final, List.Subset.trans kept keptOn, ?_⟩
      rw [List.foldl_cons, addedOn, added, List.append_assoc, List.filterMap_cons]
      cases parseContractEvent config.sha256 now config.contractId pair.1 pair.2 <;> rfl

/-- A page stores what is made of its events. -/
theorem Traced.indexPage (now : String) (page : List RawEvent) (traced : s.Traced config) :
    (s.indexPage config now (fun _ => 0) page).Traced config ∧
      s.events ⊆ (s.indexPage config now (fun _ => 0) page).events ∧
      (s.indexPage config now (fun _ => 0) page).identified =
        s.identified ++ madeOf config now page := by
  rw [indexPage_eq]
  exact traced.indexEvents now

theorem indexPage_lastLedger (now : String) (seen : String → ℕ) (s : Database)
    (page : List RawEvent) : (s.indexPage config now seen page).lastLedger = s.lastLedger := by
  induction page generalizing seen s with
  | nil => rfl
  | cons raw rest ih =>
      rw [Database.indexPage, ih, Database.indexEvent]
      split
      · unfold insertEvent
        split <;> rfl
      · rfl

theorem Inserted.mono {raw : RawEvent} (inserted : s.Inserted config raw)
    (kept : s.events ⊆ t.events) : t.Inserted config raw := by
  obtain ⟨row, member, parsed⟩ := inserted
  exact ⟨row, kept member, parsed⟩

/-- So its recognised events are inserted, unless one gets the id of another event. -/
theorem Traced.inserted {now : String} {page : List RawEvent} (traced : s.Traced config)
    (apart : ∀ pair ∈ madeOf config now page,
      ∀ other ∈ s.identified ++ madeOf config now page, other.2.id = pair.2.id → other.1 = pair.1)
    {raw : RawEvent} (member : raw ∈ page) (known : raw.recognised.isSome = true) :
    (s.indexPage config now (fun _ => 0) page).Inserted config raw := by
  obtain ⟨final, -, identified⟩ := traced.indexPage now page
  rw [← numberFrom_fst RawEvent.transaction (fun _ => 0) page] at member
  obtain ⟨pair, numbers, rfl⟩ := List.mem_map.mp member
  obtain ⟨indexed, parsed⟩ := parse_of_recognised known now config.contractId pair.2
  have made : (pair.1, indexed) ∈ madeOf config now page :=
    List.mem_filterMap.mpr ⟨pair, numbers, by rw [parsed]; rfl⟩
  have stored := final.stored (pair.1, indexed) (identified ▸ List.mem_append_right _ made)
  obtain ⟨row, listed, named⟩ := List.mem_map.mp stored
  obtain ⟨other, origin⟩ := final.rows row listed
  have same : other = pair.1 := apart _ made (other, row) (identified ▸ origin) named
  obtain ⟨index, time, again⟩ := final.made (other, row) origin
  exact ⟨row, listed, index, time, same ▸ again⟩

end Database

/-! ## Listing the ledgers -/

section Listing

variable {chain got page : List RawEvent} {first last : Int}

theorem mem_eventsFrom {raw : RawEvent} :
    raw ∈ eventsFrom chain first ↔ raw ∈ chain ∧ first ≤ raw.ledgerSequence := by
  simp [eventsFrom]

theorem maxLedgerOf_append (first : Int) (got page : List RawEvent) :
    maxLedgerOf first (got ++ page) = maxLedgerOf (maxLedgerOf first got) page :=
  List.foldl_append

theorem maxLedgerOf_le {events : List RawEvent} (below : first ≤ last)
    (all : ∀ raw ∈ events, raw.ledgerSequence ≤ last) : maxLedgerOf first events ≤ last := by
  induction events generalizing first with
  | nil => exact below
  | cons raw rest ih =>
      obtain ⟨here, all⟩ := List.forall_mem_cons.mp all
      exact ih (max_le below here) all

end Listing

/-! ## Invariant -/

section Invariant

variable (config : IndexerConfig)

/-- A poll starts after the last ledger. -/
def Database.Follows (s : Database) (startLedger : Int) : Prop :=
  ∀ last, s.lastLedger = some last → startLedger = last + 1

/-- What was got is the beginning of the events from a ledger on, and is inserted. -/
structure Got (chain : List RawEvent) (s : Database) (startLedger : Int) (got : List RawEvent)
    (maxLedger : Int) : Prop where
  follows : s.Follows startLedger
  begins : got <+: eventsFrom chain startLedger
  max : maxLedger = maxLedgerOf startLedger got
  inserted : ∀ raw ∈ got, raw.recognised.isSome = true → s.Inserted config raw

/-- Nothing is missing up to a ledger, which is closed. -/
structure Complete (chain : List RawEvent) (latest startLedger maxLedger : Int)
    (got : List RawEvent) : Prop where
  closed : maxLedger ≤ latest
  all : ∀ raw ∈ chain, startLedger ≤ raw.ledgerSequence → raw.ledgerSequence ≤ maxLedger → raw ∈ got

/-- Where a poll is. -/
def Tracks (chain : List RawEvent) (latest : Int) (s : Database) : PollPhase → Prop
  | .requesting startLedger got maxLedger => Got config chain s startLedger got maxLedger
  | .served startLedger got page maxLedger last =>
      Got config chain s startLedger got maxLedger ∧
        got ++ page <+: eventsFrom chain startLedger ∧
        ((page.isEmpty || last) = true →
          Complete chain latest startLedger (maxLedgerOf maxLedger page) (got ++ page))
  | .finishing maxLedger => ∃ startLedger got, s.Follows startLedger ∧
      Complete chain latest startLedger maxLedger got ∧
      ∀ raw ∈ got, raw.recognised.isSome = true → s.Inserted config raw
  | .locating _ => s.lastLedger = none
  | .idle | .recovering _ => True

/-- The ledgers with events are closed, the table is traced, and the poll is where it says. -/
structure Poller.Sound (s : Poller) : Prop where
  closed : ∀ raw ∈ s.chain, raw.ledgerSequence ≤ s.latest
  traced : s.database.Traced config
  tracks : Tracks config s.chain s.latest s.database s.phase

end Invariant

section Steps

variable {config : IndexerConfig} {chain got page events : List RawEvent} {latest : Int}
  {database : Database} {startLedger maxLedger : Int} {s t : Poller}

/-- The chain may grow above the latest ledger. -/
theorem Got.grow (known : Got config chain database startLedger got maxLedger)
    (events : List RawEvent) : Got config (chain ++ events) database startLedger got maxLedger := by
  refine ⟨known.follows, ?_, known.max, known.inserted⟩
  rw [eventsFrom, List.filter_append]
  exact known.begins.trans (List.prefix_append ..)

theorem Complete.grow (complete : Complete chain latest startLedger maxLedger got)
    (new : ∀ raw ∈ events, raw.ledgerSequence = latest + 1) :
    Complete (chain ++ events) (latest + 1) startLedger maxLedger got := by
  have closed := complete.closed
  refine ⟨by omega, fun raw member above below => ?_⟩
  rcases List.mem_append.mp member with before | now
  · exact complete.all raw before above below
  · have := new raw now
    omega

theorem Tracks.grow {phase : PollPhase} (tracks : Tracks config chain latest database phase)
    (new : ∀ raw ∈ events, raw.ledgerSequence = latest + 1) :
    Tracks config (chain ++ events) (latest + 1) database phase := by
  cases phase with
  | idle => trivial
  | locating answer => exact tracks
  | recovering answer => trivial
  | requesting startLedger got maxLedger => exact Got.grow tracks events
  | served startLedger got page maxLedger last =>
    obtain ⟨known, begins, complete⟩ := tracks
    refine ⟨known.grow events, ?_, fun final => (complete final).grow new⟩
    rw [eventsFrom, List.filter_append]
    exact begins.trans (List.prefix_append ..)
  | finishing maxLedger =>
    obtain ⟨startLedger, got, follows, complete, inserted⟩ := tracks
    exact ⟨startLedger, got, follows, complete.grow new, inserted⟩

namespace Poller

theorem Sound.close (sound : s.Sound config)
    (new : ∀ raw ∈ events, raw.ledgerSequence = s.latest + 1) :
    Sound config { s with chain := s.chain ++ events, latest := s.latest + 1 } := by
  refine ⟨fun raw member => ?_, sound.traced, sound.tracks.grow new⟩
  change raw.ledgerSequence ≤ s.latest + 1
  rcases List.mem_append.mp member with before | now
  · have := sound.closed raw before
    omega
  · exact (new raw now).le

/-- The RPC serves what comes next, and all of it when it says so. -/
theorem Sound.serve {size : ℕ} {last : Bool} (sound : s.Sound config)
    (known : Got config s.chain s.database startLedger got maxLedger)
    (within : startLedger ≤ s.latest)
    (honest : ¬ (((s.remaining startLedger got).take size).isEmpty || last) = true ∨
      ¬ ((s.remaining startLedger got).take size).length < (s.remaining startLedger got).length) :
    Sound config { s with
      phase := .served startLedger got ((s.remaining startLedger got).take size) maxLedger last } := by
  obtain ⟨rest, shape⟩ := known.begins
  have left : s.remaining startLedger got = rest := by
    rw [remaining, ← shape, List.drop_left]
  rw [left] at honest ⊢
  refine ⟨sound.closed, sound.traced, known, ?_, fun final => ⟨?_, fun raw member above _ => ?_⟩⟩
  · rw [← shape]
    exact (List.prefix_append_right_inj _).mpr (List.take_prefix ..)
  · rw [known.max, ← maxLedgerOf_append]
    refine maxLedgerOf_le within fun raw member => ?_
    have listed : raw ∈ eventsFrom s.chain startLedger := by
      rw [← shape]
      rcases List.mem_append.mp member with before | now
      · exact List.mem_append_left _ before
      · exact List.mem_append_right _ (List.mem_of_mem_take now)
    exact sound.closed raw (mem_eventsFrom.mp listed).1
  · have whole : rest.take size = rest := by
      refine List.take_of_length_le ?_
      have full := honest.resolve_left (not_not.mpr final)
      rw [List.length_take] at full
      omega
    rw [whole, shape]
    exact mem_eventsFrom.mpr ⟨member, above⟩

/-- A page is stored, and the poll goes on or is done. -/
theorem Sound.process {now : String} {last : Bool} (sound : s.Sound config)
    (here : s.phase = .served startLedger got page maxLedger last)
    (apart : ¬ Confuses config ⟨s, .process now⟩) :
    Sound config { s with
      database := s.database.indexPage config now (fun _ => 0) page
      phase := if last = true then .finishing (maxLedgerOf maxLedger page)
        else .requesting startLedger (got ++ page) (maxLedgerOf maxLedger page) } := by
  have tracks := sound.tracks
  rw [here] at tracks
  obtain ⟨known, begins, complete⟩ := tracks
  obtain ⟨traced, kept, -⟩ := sound.traced.indexPage now page
  have follows : (s.database.indexPage config now (fun _ => 0) page).Follows startLedger := by
    rw [Database.Follows, Database.indexPage_lastLedger]
    exact known.follows
  have inserted : ∀ raw ∈ got ++ page, raw.recognised.isSome = true →
      (s.database.indexPage config now (fun _ => 0) page).Inserted config raw := by
    intro raw member recognised
    rcases List.mem_append.mp member with before | new
    · exact (known.inserted raw before recognised).mono kept
    · refine sound.traced.inserted (fun pair made other met same => ?_) new recognised
      by_contra different
      exact apart ⟨now, page, pair, other, ⟨startLedger, got, page, maxLedger, last, here,
        .inl ⟨rfl, rfl⟩⟩, made, met, same, different⟩
  refine ⟨sound.closed, traced, ?_⟩
  split
  · next final =>
    exact ⟨startLedger, got ++ page, follows, complete (by rw [final, Bool.or_true]), inserted⟩
  · refine ⟨follows, begins, ?_, inserted⟩
    rw [maxLedgerOf_append, ← known.max]

/-- Every action keeps it, unless an event gets the id of another one. -/
theorem step_sound {action : CursorAction} (sound : s.Sound config)
    (apart : ¬ Confuses config ⟨s, action⟩) (taken : s.step config action = some t) :
    t.Sound config := by
  cases action with
  | close events =>
    simp only [step] at taken
    split at taken
    · next new =>
      obtain rfl := Option.some.inj taken
      exact sound.close fun raw member => of_decide_eq_true (List.all_eq_true.mp new raw member)
    · cases taken
  | drop =>
    simp only [step] at taken
    split at taken
    · obtain rfl := Option.some.inj taken
      exact ⟨sound.closed, sound.traced, sound.tracks⟩
    · cases taken
  | begin =>
    simp only [step] at taken
    split at taken
    · next last _ known =>
      obtain rfl := Option.some.inj taken
      refine ⟨sound.closed, sound.traced, fun other same => ?_, List.nil_prefix, rfl,
        fun raw member => absurd member List.not_mem_nil⟩
      rw [Option.some.inj (known.symm.trans same)]
    · next first =>
      obtain rfl := Option.some.inj taken
      exact ⟨sound.closed, sound.traced, first⟩
    · cases taken
  | locate =>
    simp only [step] at taken
    split at taken
    · next here =>
      obtain rfl := Option.some.inj taken
      have tracks := sound.tracks
      rw [here] at tracks
      exact ⟨sound.closed, sound.traced, tracks⟩
    · cases taken
  | located =>
    simp only [step] at taken
    split at taken
    · next latest here =>
      obtain rfl := Option.some.inj taken
      have tracks := sound.tracks
      rw [here] at tracks
      refine ⟨sound.closed, sound.traced, fun last known => ?_, List.nil_prefix, rfl,
        fun raw member => absurd member List.not_mem_nil⟩
      cases tracks.symm.trans known
    · cases taken
  | serve size last =>
    simp only [step] at taken
    split at taken
    · next startLedger got maxLedger here =>
      have tracks := sound.tracks
      rw [here] at tracks
      split at taken
      · cases taken
      · next inside =>
        split at taken
        · cases taken
        · next honest =>
          obtain rfl := Option.some.inj taken
          exact sound.serve tracks (by omega) (not_and_or.mp honest)
    · cases taken
  | reject message =>
    simp only [step] at taken
    split at taken
    · split at taken
      · obtain rfl := Option.some.inj taken
        exact ⟨sound.closed, sound.traced, trivial⟩
      · obtain rfl := Option.some.inj taken
        exact ⟨sound.closed, sound.traced, trivial⟩
    · cases taken
  | process now =>
    simp only [step] at taken
    split at taken
    · next startLedger got page maxLedger last here =>
      split at taken
      · next empty =>
        obtain rfl := Option.some.inj taken
        have tracks := sound.tracks
        rw [here] at tracks
        obtain ⟨known, begins, complete⟩ := tracks
        refine ⟨sound.closed, sound.traced, ?_⟩
        split
        · trivial
        · obtain rfl := List.isEmpty_iff.mp empty
          rw [List.append_nil] at complete
          exact ⟨startLedger, got, known.follows, complete rfl, known.inserted⟩
      · obtain rfl := Option.some.inj taken
        exact sound.process here apart
    · cases taken
  | finish =>
    simp only [step] at taken
    split at taken
    · obtain rfl := Option.some.inj taken
      exact ⟨sound.closed, ⟨sound.traced.made, sound.traced.stored, sound.traced.rows⟩, trivial⟩
    · cases taken
  | locateTip =>
    simp only [step] at taken
    split at taken
    · obtain rfl := Option.some.inj taken
      exact ⟨sound.closed, sound.traced, trivial⟩
    · cases taken
  | recover =>
    simp only [step] at taken
    split at taken
    · obtain rfl := Option.some.inj taken
      exact ⟨sound.closed, ⟨sound.traced.made, sound.traced.stored, sound.traced.rows⟩, trivial⟩
    · cases taken
  | interrupt now processed =>
    simp only [step] at taken
    split at taken
    · obtain rfl := Option.some.inj taken
      exact ⟨sound.closed, (sound.traced.indexPage now _).1, trivial⟩
    · obtain rfl := Option.some.inj taken
      exact ⟨sound.closed, sound.traced, trivial⟩

/-- Only the end of a poll and a recovery move the last ledger. -/
theorem step_lastLedger {action : CursorAction} (taken : s.step config action = some t) :
    t.database.lastLedger = s.database.lastLedger ∨
    (action = .finish ∧ ∃ maxLedger, s.phase = .finishing maxLedger ∧
      t = { s with database := { s.database with lastLedger := some maxLedger }, phase := .idle }) ∨
    (action = .recover ∧ ∃ latest, s.phase = .recovering (some latest) ∧
      t = { s with database := { s.database with lastLedger := some latest }, phase := .idle }) := by
  cases action with
  | finish =>
    simp only [step] at taken
    split at taken
    · next maxLedger here =>
      exact .inr (.inl ⟨rfl, maxLedger, here, (Option.some.inj taken).symm⟩)
    · cases taken
  | recover =>
    simp only [step] at taken
    split at taken
    · next latest here =>
      exact .inr (.inr ⟨rfl, latest, here, (Option.some.inj taken).symm⟩)
    · cases taken
  | process now =>
    simp only [step] at taken
    split at taken
    · split at taken
      · obtain rfl := Option.some.inj taken
        exact .inl rfl
      · obtain rfl := Option.some.inj taken
        exact .inl (Database.indexPage_lastLedger ..)
    · cases taken
  | interrupt now processed =>
    simp only [step] at taken
    split at taken
    · obtain rfl := Option.some.inj taken
      exact .inl (Database.indexPage_lastLedger ..)
    · obtain rfl := Option.some.inj taken
      exact .inl rfl
  | close events =>
    simp only [step, Option.ite_none_right_eq_some, Option.some.injEq] at taken
    exact .inl (taken.2 ▸ rfl)
  | drop =>
    simp only [step, Option.ite_none_right_eq_some, Option.some.injEq] at taken
    exact .inl (taken.2 ▸ rfl)
  | begin =>
    simp only [step] at taken
    split at taken
    · exact .inl (Option.some.inj taken ▸ rfl)
    · exact .inl (Option.some.inj taken ▸ rfl)
    · cases taken
  | locate =>
    simp only [step] at taken
    split at taken
    · exact .inl (Option.some.inj taken ▸ rfl)
    · cases taken
  | located =>
    simp only [step] at taken
    split at taken
    · exact .inl (Option.some.inj taken ▸ rfl)
    · cases taken
  | serve size last =>
    simp only [step] at taken
    split at taken
    · split at taken
      · cases taken
      · split at taken
        · cases taken
        · exact .inl (Option.some.inj taken ▸ rfl)
    · cases taken
  | reject message =>
    simp only [step] at taken
    split at taken
    · split at taken
      · exact .inl (Option.some.inj taken ▸ rfl)
      · exact .inl (Option.some.inj taken ▸ rfl)
    · cases taken
  | locateTip =>
    simp only [step] at taken
    split at taken
    · exact .inl (Option.some.inj taken ▸ rfl)
    · cases taken

/-- At the end of a poll nothing was skipped; a recovery skips what it jumps over. -/
theorem Sound.neverSkips {action : CursorAction} (sound : s.Sound config)
    (sees : ¬ JumpsOver config ⟨s, action⟩) : NeverSkips config ⟨s, action⟩ := by
  intro t last upTo taken before after raw retained
  rcases step_lastLedger taken with same | ⟨rfl, maxLedger, here, rfl⟩ | ⟨rfl, latest, here, rfl⟩
  · obtain rfl := Option.some.inj (before.symm.trans (same.symm.trans after))
    exact absurd retained.after (Int.not_lt.mpr retained.within)
  · obtain rfl := Option.some.inj after
    have tracks := sound.tracks
    rw [here] at tracks
    obtain ⟨startLedger, got, follows, complete, inserted⟩ := tracks
    have begun := follows last before
    refine inserted raw (complete.all raw retained.member ?_ retained.within) retained.recognised
    rw [begun]
    exact retained.after
  · obtain rfl := Option.some.inj after
    by_contra missing
    exact sees ⟨rfl, latest, last, raw, here, before, retained, missing⟩

theorem start_sound {oldest latest : Int} (closed : ∀ raw ∈ chain, raw.ledgerSequence ≤ latest) :
    (start chain oldest latest).Sound config where
  closed := closed
  traced :=
    { made := fun _ member => absurd member List.not_mem_nil
      stored := fun _ member => absurd member List.not_mem_nil
      rows := fun _ member => absurd member List.not_mem_nil }
  tracks := trivial

end Poller

end Steps

/-! ## Runs -/

/-- In a run in which no event gets the id of another event, and no poll recovers over an event that
the RPC retains and that is not inserted: whenever the last ledger moves, every recognised event in
between that the RPC retains is inserted. -/
theorem cursor_never_skips {config : IndexerConfig} {chain : List RawEvent} {oldest latest : Int}
    {labels : List (Occurrence Poller CursorAction)} {t : Poller}
    (closed : ∀ raw ∈ chain, raw.ledgerSequence ≤ latest)
    (run : Run (Occurs (Poller.step config)) (.start chain oldest latest) labels t)
    (apart : ∀ label ∈ labels, ¬ Confuses config label)
    (sees : ∀ label ∈ labels, ¬ JumpsOver config label) :
    ∀ label ∈ labels, NeverSkips config label := by
  have admitted : Run (fun s label t => (¬ Confuses config label ∧ ¬ JumpsOver config label) ∧
      Occurs (Poller.step config) s label t) (.start chain oldest latest) labels t :=
    run.restrict fun label member => ⟨apart label member, sees label member⟩
  have keeps : ∀ ⦃s label t⦄, s.Sound config →
      (¬ Confuses config label ∧ ¬ JumpsOver config label) ∧
        Occurs (Poller.step config) s label t → t.Sound config := by
    rintro s label t sound ⟨⟨apart, -⟩, rfl, taken⟩
    exact Poller.step_sound sound apart taken
  refine admitted.forall_labels keeps ?_ (Poller.start_sound closed)
  rintro s label t sound ⟨⟨-, sees⟩, rfl, -⟩
  exact sound.neverSkips sees

namespace Rehearsal

/-- The first poll recovers to the tip, as it looks back too far. -/
def recovering : List CursorAction := [
  .begin, .locate, .located,
  .reject "startLedger must be within the ledger range: 5 - 9", .locateTip, .recover]

/-- Then a ledger with a deposit closes, and the next poll gets it. -/
def gettingDeposit : List CursorAction := recovering ++ [
  .close [deposit "0000000042949672960-0000000000" 5], .begin, .serve 100 true, .process "",
  .finish]

/-- Or the next poll comes before it, one ledger above the tip, and the ledger closes before the tip
is looked up. -/
def jumpingAhead : List CursorAction := recovering ++ [
  .begin, .reject "startLedger must be within the ledger range: 5 - 9",
  .close [deposit "0000000042949672960-0000000000" 5], .locateTip]

end Rehearsal

/-- What is made of a page with one event at most is of one event. -/
theorem madeOf_single {config : IndexerConfig} {now : String} {page : List RawEvent}
    (short : page.length ≤ 1) {pair other : RawEvent × IndexedEvent}
    (made : pair ∈ madeOf config now page) (made' : other ∈ madeOf config now page) :
    other = pair := by
  cases page with
  | nil => cases made
  | cons raw rest =>
      obtain rfl : rest = [] := List.length_eq_zero_iff.mp (Nat.le_zero.mp (Nat.le_of_succ_le_succ short))
      simp only [madeOf, numbered, numberFrom, List.filterMap_cons, List.filterMap_nil] at made made'
      cases parsed : parseContractEvent config.sha256 now config.contractId raw 0 with
      | none => simp [parsed] at made
      | some indexed =>
          simp only [parsed, Option.map_some, List.mem_singleton] at made made'
          rw [made, made']

open Rehearsal in
theorem cursor_never_skips_rehearsed :
    ∃ s t, perform (Poller.step indexerConfig) (.start [] 5 9) (gettingDeposit.dropLast) = some s ∧
      s.step indexerConfig .finish = some t ∧ t.database.lastLedger = some 10 ∧
      s.chain.length = 1 ∧ ∀ raw ∈ s.chain, t.database.Inserted indexerConfig raw := by
  obtain ⟨s, performed, facts⟩ := perform_any
    (p := fun s => s.chain.length = 1 ∧ s.database.lastLedger = some 9 ∧ s.oldest = 5 ∧
      (s.chain.all fun raw => raw.recognised.isSome && raw.ledgerSequence = 10) = true ∧
      ((s.step indexerConfig .finish).any fun t => t.database.lastLedger = some 10) = true)
    (by decide +kernel : (perform (Poller.step indexerConfig) (.start [] 5 9)
      gettingDeposit.dropLast).any _ = true)
  obtain ⟨single, last, oldest, chain, further⟩ := of_decide_eq_true facts
  obtain ⟨t, taken, moved⟩ := (Option.any_eq_true ..).mp further
  replace moved := of_decide_eq_true moved
  have run := (perform_run performed).append
    (.single (⟨rfl, taken⟩ : Occurs (Poller.step indexerConfig) s ⟨s, .finish⟩ t))
  have plain : ∀ label ∈ history (Poller.step indexerConfig) (.start [] 5 9)
      gettingDeposit.dropLast,
      (match label.before.phase with
        | .served _ _ page _ _ => page.length ≤ 1 && label.before.database.identified.isEmpty
        | _ => true) = true ∧
      (match label.action with
        | .recover => label.before.database.lastLedger.isNone
        | _ => true) = true := by
    decide +kernel
  have never := cursor_never_skips (fun _ member => absurd member List.not_mem_nil) run ?_ ?_
    ⟨s, .finish⟩ (List.mem_append_right _ List.mem_cons_self)
  · refine ⟨s, t, performed, taken, moved, single, fun raw member => ?_⟩
    have known := Bool.and_eq_true_iff.mp (List.all_eq_true.mp chain raw member)
    have ledger : raw.ledgerSequence = 10 := of_decide_eq_true known.2
    have kept : s.oldest ≤ raw.ledgerSequence := by omega
    exact never t 9 10 taken last moved raw ⟨member, known.1, by omega, ledger.le, kept⟩
  · rintro label member ⟨now, part, pair, other, ⟨_, _, page, _, _, here, stored⟩, made, met, -,
      different⟩
    replace member := (List.mem_append.mp member).resolve_right fun final => by
      rw [List.mem_singleton.mp final] at stored
      rcases stored with ⟨action, -⟩ | ⟨_, action, -⟩ <;> cases action
    have short := (plain label member).1
    rw [here] at short
    obtain ⟨short, fresh⟩ := Bool.and_eq_true_iff.mp short
    rw [List.isEmpty_iff.mp fresh, List.nil_append] at met
    have small : part.length ≤ 1 := by
      have := of_decide_eq_true short
      rcases stored with ⟨-, rfl⟩ | ⟨processed, -, rfl⟩
      · exact this
      · rw [List.length_take]
        omega
    exact different (congrArg Prod.fst (madeOf_single small made met))
  · rintro label member ⟨action, latest, last, raw, -, known, -⟩
    replace member := (List.mem_append.mp member).resolve_right fun final => by
      rw [List.mem_singleton.mp final] at action
      cases action
    have first := (plain label member).2
    rw [action] at first
    rw [known] at first
    cases first

/-- A ledger that closes between the two requests of a poll that was up to date is jumped over. -/
theorem caught_up_poll_skips :
    ¬ ∀ (labels : List (Occurrence Poller CursorAction)) (t : Poller),
      Run (Occurs (Poller.step Rehearsal.indexerConfig)) (.start [] 5 9) labels t →
        ∀ label ∈ labels, NeverSkips Rehearsal.indexerConfig label := by
  intro never
  obtain ⟨s, performed, facts⟩ := perform_any
    (p := fun s => s.chain.length = 1 ∧ s.database.lastLedger = some 9 ∧ s.oldest = 5 ∧
      (s.chain.all fun raw => raw.recognised.isSome && raw.ledgerSequence = 10) = true ∧
      ((s.step Rehearsal.indexerConfig .recover).any fun t =>
        t.database.lastLedger = some 10 ∧ t.database.events.length = 0) = true)
    (by decide +kernel : (perform (Poller.step Rehearsal.indexerConfig) (.start [] 5 9)
      Rehearsal.jumpingAhead).any _ = true)
  obtain ⟨single, last, oldest, chain, further⟩ := of_decide_eq_true facts
  obtain ⟨t, taken, moved⟩ := (Option.any_eq_true ..).mp further
  obtain ⟨moved, empty⟩ := of_decide_eq_true moved
  have run := (perform_run performed).append
    (.single (⟨rfl, taken⟩ : Occurs (Poller.step Rehearsal.indexerConfig) s ⟨s, .recover⟩ t))
  obtain ⟨raw, member⟩ := List.exists_mem_of_length_pos (single ▸ Nat.one_pos)
  have known := Bool.and_eq_true_iff.mp (List.all_eq_true.mp chain raw member)
  have ledger : raw.ledgerSequence = 10 := of_decide_eq_true known.2
  have kept : s.oldest ≤ raw.ledgerSequence := by omega
  obtain ⟨row, stored, -⟩ := never _ t run ⟨s, .recover⟩ (List.mem_append_right _ List.mem_cons_self)
    t 9 10 taken last moved raw ⟨member, known.1, by omega, ledger.le, kept⟩
  rw [List.length_eq_zero_iff.mp empty] at stored
  cases stored

end OnboardingBridge.Indexer
