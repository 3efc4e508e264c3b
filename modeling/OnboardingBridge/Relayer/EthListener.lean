import OnboardingBridge.Foundations.Machines
import OnboardingBridge.Relayer.PayloadAgreement

/-!
# The Ethereum listener

A timer starts polls without waiting for the ones before, and the polls share the
block the next query starts from. A step is a stretch of code between two awaits, so
the steps of overlapping polls interleave in every way; a request may fail, and a
restarted listener goes on from the stored block.

The listener keeps no list of what it handed over. The lists of handed and of settled
logs, and the first block that was ever stored, are there to speak about runs.
-/

set_option autoImplicit false

namespace OnboardingBridge.Relayer

open Foundations

/-! ## Blocks and logs -/

/-- What a block tag denotes: the head of the chain, a number, or nothing. -/
inductive BlockTag where
  | latest
  | number (block : Nat)
  | unreadable
deriving DecidableEq

/-- `parseInt` of a tag; nothing when it is no number. -/
def BlockTag.parseInt : BlockTag → Option Nat
  | .number block => some block
  | .latest | .unreadable => none

/-- The logs of the bridge contract, block by block, and which of them were reorged out. -/
structure EthChain (Log : Type) where
  logs : Nat → List Log
  removed : Log → Bool

/-- The logs of a range of blocks, as `eth_getLogs` returns them. -/
def EthChain.logsBetween {Log : Type} (chain : EthChain Log) (fromBlock toBlock : Nat) :
    List (Nat × Log) :=
  (List.range' fromBlock (toBlock + 1 - fromBlock)).flatMap fun block =>
    (chain.logs block).map fun log => (block, log)

theorem EthChain.mem_logsBetween {Log : Type} {chain : EthChain Log} {fromBlock toBlock : Nat}
    {entry : Nat × Log} :
    entry ∈ chain.logsBetween fromBlock toBlock ↔
      fromBlock ≤ entry.1 ∧ entry.1 ≤ toBlock ∧ entry.2 ∈ chain.logs entry.1 := by
  obtain ⟨block, log⟩ := entry
  simp only [logsBetween, List.mem_flatMap, List.mem_range'_1, List.mem_map, Prod.mk.injEq]
  constructor
  · rintro ⟨other, within, _, member, rfl, rfl⟩
    exact ⟨within.1, by omega, member⟩
  · rintro ⟨above, below, member⟩
    exact ⟨block, ⟨above, by omega⟩, log, member, rfl, rfl⟩

structure EthListenerConfig (Log : Type) where
  maxBlockRange : Nat
  confirmations : Nat
  decode : Log → Option BridgeEvent

/-! ## States -/

/-- What a poll waits for: the head of the chain, to store it as the first block or to
query up to it; the logs of a range; or the handler of an event. -/
inductive Poll (Log : Type) where
  | resolving
  | measuring
  | querying (latest fromBlock queriedToBlock : Nat)
  | delivering (latest queriedToBlock : Nat) (current : Nat × Log) (rest : List (Nat × Log))
  | done

/-- A log that was handed over, and the head that the poll saw. -/
structure Handover (Log : Type) where
  latest : Nat
  block : Nat
  log : Log
  event : BridgeEvent

structure EthListener (Log : Type) where
  fromBlock : BlockTag
  blockStore : Option BlockTag
  polls : List (Poll Log)
  handed : List (Handover Log)
  /-- The logs whose handler has resolved. -/
  settled : List (Nat × Log)
  /-- The first block that was ever stored. -/
  firstStored : Option Nat

namespace EthListener

variable {Log : Type}

/-- A listener that starts from what its file holds. -/
def start (blockStore : Option BlockTag) : EthListener Log where
  fromBlock := blockStore.getD .latest
  blockStore
  polls := []
  handed := []
  settled := []
  firstStored := blockStore.bind BlockTag.parseInt

/-- Move a poll on. -/
def advance (s : EthListener Log) (poll : Nat) (next : Poll Log) : EthListener Log :=
  { s with polls := s.polls.set poll next }

/-- `save` of a block, which may throw. -/
def save (s : EthListener Log) (block : BlockTag) (saved : Bool) : EthListener Log :=
  if saved = true then
    { s with blockStore := some block, firstStored := s.firstStored.or block.parseInt }
  else s

/-- A poll of a fresh listener stores the head, and takes it for the first block unless that
throws. -/
def resolve (s : EthListener Log) (current : BlockTag) (saved : Bool) : EthListener Log :=
  if saved = true then { s.save current saved with fromBlock := current } else s

section Polling

variable (config : EthListenerConfig Log) (chain : EthChain Log)

/-- The range that `getLogs` requests up to a block, if it requests any. -/
def requested (fromBlock toBlock : Nat) : Option Nat :=
  if config.maxBlockRange < 1 then none
  else some (min (fromBlock + config.maxBlockRange - 1) toBlock)

/-- A poll goes on with the head it asked for. It reads the shared block now, and not when it
began. -/
def measure (s : EthListener Log) (poll : Nat) (latestTag : BlockTag) : EthListener Log :=
  match latestTag.parseInt, s.fromBlock.parseInt with
  | some latestNum, some fromBlock =>
      if latestNum - config.confirmations < fromBlock then s.advance poll .done
      else match requested config fromBlock (latestNum - config.confirmations) with
        | some endBlock => s.advance poll (.querying latestNum fromBlock endBlock)
        | none => s.advance poll .done
  | _, _ => s.advance poll .done

/-- The loop over the logs of a query up to the next log that is handed over, or the end. -/
def deliver (s : EthListener Log) (poll latest queriedToBlock : Nat) (saved : Bool) :
    List (Nat × Log) → EthListener Log
  | [] =>
      { (s.advance poll .done).save (.number (queriedToBlock + 1)) saved with
        fromBlock := .number (queriedToBlock + 1) }
  | (block, log) :: rest =>
      if chain.removed log = true then s.deliver poll latest queriedToBlock saved rest
      else match config.decode log with
        | none => s.deliver poll latest queriedToBlock saved rest
        | some event =>
            { s.advance poll (.delivering latest queriedToBlock (block, log) rest) with
              handed := s.handed ++ [⟨latest, block, log, event⟩] }

end Polling

end EthListener

/-! ## Steps -/

/-- What may happen next. Nothing is answered when a request fails. -/
inductive EthAction where
  | poll
  | head (poll : Nat) (answer : Option BlockTag) (saved : Bool)
  | logs (poll : Nat) (answered saved : Bool)
  | handled (poll : Nat) (resolved saved : Bool)
  | restart

open EthListener in
/-- What an action does, when it can happen. -/
def EthListener.step {Log : Type} (config : EthListenerConfig Log) (chain : EthChain Log)
    (s : EthListener Log) : EthAction → Option (EthListener Log)
  | .poll =>
      let began : Poll Log := if s.fromBlock = .latest then .resolving else .measuring
      some { s with polls := s.polls ++ [began] }
  | .head poll answer saved =>
      match s.polls[poll]?, answer with
      | some .resolving, some current => some ((s.advance poll .done).resolve current saved)
      | some .measuring, some latestTag => some (s.measure config poll latestTag)
      | some .resolving, none | some .measuring, none => some (s.advance poll .done)
      | _, _ => none
  | .logs poll answered saved =>
      match s.polls[poll]? with
      | some (.querying latest fromBlock queriedToBlock) =>
          if answered = true then
            some (s.deliver config chain poll latest queriedToBlock saved
              (chain.logsBetween fromBlock queriedToBlock))
          else some (s.advance poll .done)
      | _ => none
  | .handled poll resolved saved =>
      match s.polls[poll]? with
      | some (.delivering latest queriedToBlock current rest) =>
          if resolved = true then
            some ({ s with settled := current :: s.settled }.deliver config chain poll latest
              queriedToBlock saved rest)
          else some (s.advance poll .done)
      | _ => none
  | .restart =>
      some { s with fromBlock := s.blockStore.getD .latest, polls := [] }

/-! ## What is covered -/

section Coverage

variable {Log : Type} (config : EthListenerConfig Log) (chain : EthChain Log)

/-- A log that the listener has to hand over. -/
def EthListenerConfig.counts (log : Log) : Prop :=
  chain.removed log = false ∧ (config.decode log).isSome = true

/-- Every log that counts, from the first stored block up to below another one, is settled or
stands in a list. -/
def EthListener.CoversBut (s : EthListener Log) (block : Nat) (rest : List (Nat × Log)) : Prop :=
  ∀ first, s.firstStored = some first → ∀ b, first ≤ b → b < block →
    ∀ log ∈ chain.logs b, config.counts chain log → (b, log) ∈ s.settled ∨ (b, log) ∈ rest

abbrev EthListener.Covers (s : EthListener Log) (block : Nat) : Prop :=
  s.CoversBut config chain block []

/-- What a poll relies on. -/
def EthListener.Supports (s : EthListener Log) : Poll Log → Prop
  | .querying latest fromBlock queriedToBlock =>
      s.firstStored.isSome ∧ s.Covers config chain fromBlock ∧
        queriedToBlock ≤ latest - config.confirmations
  | .delivering latest queriedToBlock current rest =>
      s.firstStored.isSome ∧ s.CoversBut config chain (queriedToBlock + 1) (current :: rest) ∧
        queriedToBlock ≤ latest - config.confirmations ∧
        ∀ entry ∈ current :: rest, entry.1 ≤ queriedToBlock
  | .resolving | .measuring | .done => True

/-- The shared block and the stored one are covered, and so is what the polls rely on; what was
handed over was confirmed. -/
structure EthListener.Complete (s : EthListener Log) : Prop where
  shared : ∀ block, s.fromBlock = .number block →
    s.firstStored.isSome ∧ s.Covers config chain block
  stored : ∀ block, s.blockStore = some (.number block) →
    s.firstStored.isSome ∧ s.Covers config chain block
  polls : ∀ poll ∈ s.polls, s.Supports config chain poll
  confirmed : ∀ handover ∈ s.handed, handover.block ≤ handover.latest - config.confirmations

/-- The head that a first-run poll asked for comes late: a first block is stored already, and a
log below the head that counts has not been settled. -/
def Skips (label : Occurrence (EthListener Log) EthAction) : Prop :=
  ∃ poll block, label.action = .head poll (some (.number block)) true ∧
    (∃ phase, label.before.polls[poll]? = some phase ∧ phase matches .resolving) ∧
    ¬ label.before.Covers config chain block

end Coverage

/-! ## Steps keep the coverage -/

namespace EthListener

variable {Log : Type} {config : EthListenerConfig Log} {chain : EthChain Log}
  {s t : EthListener Log}

theorem CoversBut.mono {block lower : Nat} {rest rest' : List (Nat × Log)}
    (covered : s.CoversBut config chain block rest) (first : t.firstStored = s.firstStored)
    (below : lower ≤ block)
    (kept : ∀ b log, config.counts chain log → (b, log) ∈ s.settled ∨ (b, log) ∈ rest →
      (b, log) ∈ t.settled ∨ (b, log) ∈ rest') : t.CoversBut config chain lower rest' := by
  intro from_ stored b above under log member counts
  rw [first] at stored
  exact kept b log counts (covered from_ stored b above (lt_of_lt_of_le under below) log member counts)

theorem Covers.mono {block : Nat} (covered : s.Covers config chain block)
    (first : t.firstStored = s.firstStored) (settled : ∀ entry ∈ s.settled, entry ∈ t.settled) :
    t.Covers config chain block :=
  CoversBut.mono covered first le_rfl fun b log _ => Or.imp (settled (b, log)) id

/-- A poll goes on relying on what it relied on while more logs settle. -/
theorem Supports.mono {poll : Poll Log} (supports : s.Supports config chain poll)
    (first : s.firstStored.isSome → t.firstStored = s.firstStored)
    (settled : ∀ entry ∈ s.settled, entry ∈ t.settled) : t.Supports config chain poll := by
  cases poll with
  | querying latest fromBlock queriedToBlock =>
    obtain ⟨stored, covered, confirmed⟩ := supports
    have same := first stored
    exact ⟨same ▸ stored, covered.mono same settled, confirmed⟩
  | delivering latest queriedToBlock current rest =>
    obtain ⟨stored, covered, confirmed, within⟩ := supports
    have same := first stored
    refine ⟨same ▸ stored, covered.mono same le_rfl fun b log _ => ?_, confirmed, within⟩
    exact Or.imp (settled (b, log)) id
  | resolving => trivial
  | measuring => trivial
  | done => trivial

/-- A poll may move on to whatever the listener supports. -/
theorem Complete.advance {poll : Nat} {next : Poll Log} (complete : s.Complete config chain)
    (supports : s.Supports config chain next) : (s.advance poll next).Complete config chain where
  shared := complete.shared
  stored := complete.stored
  polls other member := by
    rcases List.mem_or_eq_of_mem_set member with before | rfl
    · exact complete.polls other before
    · exact supports
  confirmed := complete.confirmed

theorem save_firstStored {block : BlockTag} {saved : Bool} (stored : s.firstStored.isSome) :
    (s.save block saved).firstStored = s.firstStored := by
  obtain ⟨first, found⟩ := Option.isSome_iff_exists.mp stored
  unfold save
  split
  · rw [found, Option.some_or]
  · rfl

theorem save_settled (s : EthListener Log) (block : BlockTag) (saved : Bool) :
    (s.save block saved).settled = s.settled ∧ (s.save block saved).polls = s.polls ∧
      (s.save block saved).handed = s.handed := by
  unfold save
  split <;> exact ⟨rfl, rfl, rfl⟩

/-- The query ends, and the next one starts after it. -/
theorem Complete.moveOn {block : Nat} {saved : Bool} (complete : s.Complete config chain)
    (stored : s.firstStored.isSome) (covered : s.Covers config chain block) :
    Complete config chain { s.save (.number block) saved with fromBlock := .number block } := by
  have first : (s.save (.number block) saved).firstStored = s.firstStored := save_firstStored stored
  obtain ⟨settled, polls, handed⟩ := save_settled s (.number block) saved
  have still : ∀ entry ∈ s.settled, entry ∈ (s.save (.number block) saved).settled :=
    fun entry member => settled ▸ member
  have onward : ∀ lower, s.Covers config chain lower →
      Covers config chain { s.save (.number block) saved with fromBlock := .number block } lower :=
    fun lower here => here.mono first still
  refine ⟨fun lower same => ?_, fun lower found => ?_, fun poll member => ?_, ?_⟩
  · obtain rfl := BlockTag.number.inj same
    exact ⟨first ▸ stored, onward _ covered⟩
  · refine ⟨first ▸ stored, onward lower ?_⟩
    cases saved with
    | true =>
      obtain rfl := BlockTag.number.inj (Option.some.inj found)
      exact covered
    | false => exact (complete.stored lower found).2
  · rw [polls] at member
    exact (complete.polls poll member).mono (fun _ => first) still
  · rw [handed]
    exact complete.confirmed

/-- The loop over the logs of a query hands over the next log that counts, or ends. -/
theorem Complete.deliver {poll latest queriedToBlock : Nat} {saved : Bool}
    {entries : List (Nat × Log)} (complete : s.Complete config chain)
    (stored : s.firstStored.isSome)
    (covered : s.CoversBut config chain (queriedToBlock + 1) entries)
    (confirmed : queriedToBlock ≤ latest - config.confirmations)
    (within : ∀ entry ∈ entries, entry.1 ≤ queriedToBlock) :
    (s.deliver config chain poll latest queriedToBlock saved entries).Complete config chain := by
  induction entries with
  | nil =>
      have supports : s.Supports config chain .done := trivial
      exact (complete.advance supports).moveOn stored covered
  | cons entry rest ih =>
      obtain ⟨block, log⟩ := entry
      have later := (List.forall_mem_cons.mp within).2
      -- a log that does not count need not be handed over
      have skip : ¬ config.counts chain log →
          s.CoversBut config chain (queriedToBlock + 1) rest := by
        intro idle
        refine covered.mono rfl le_rfl fun b other counts => Or.imp id fun member => ?_
        rcases List.mem_cons.mp member with same | member
        · obtain ⟨-, rfl⟩ := Prod.mk.inj same
          exact absurd counts idle
        · exact member
      rw [EthListener.deliver]
      split
      · next removed => exact ih (skip fun ⟨kept, _⟩ => by simp [kept] at removed) later
      · split
        · next undecoded => exact ih (skip fun ⟨_, decodes⟩ => by simp [undecoded] at decodes) later
        · next event decoded =>
          have moved : (s.advance poll
              (.delivering latest queriedToBlock (block, log) rest)).Complete config chain :=
            complete.advance ⟨stored, covered, confirmed, within⟩
          refine ⟨moved.shared, moved.stored, moved.polls, fun handover member => ?_⟩
          rcases List.mem_append.mp member with before | now
          · exact complete.confirmed handover before
          · obtain rfl := List.mem_singleton.mp now
            exact le_trans (within _ List.mem_cons_self) confirmed

theorem Complete.measure {poll : Nat} {latestTag : BlockTag}
    (complete : s.Complete config chain) : (s.measure config poll latestTag).Complete config chain := by
  have ended : (s.advance poll .done).Complete config chain := complete.advance trivial
  unfold EthListener.measure
  split
  · next latestNum fromBlock measured shared =>
    split
    · exact ended
    · next reached =>
      split
      · next endBlock requests =>
        have start : s.fromBlock = .number fromBlock := by
          cases tag : s.fromBlock with
          | number block => rw [tag] at shared; exact congrArg _ (Option.some.inj shared)
          | latest => rw [tag] at shared; cases shared
          | unreadable => rw [tag] at shared; cases shared
        obtain ⟨stored, covered⟩ := complete.shared fromBlock start
        refine complete.advance ⟨stored, covered, ?_⟩
        unfold requested at requests
        split at requests
        · cases requests
        · obtain rfl := Option.some.inj requests
          exact min_le_right _ _
      · exact ended
  · exact ended

/-- A first-run poll stores the head, and skips nothing unless it comes late. -/
theorem Complete.resolve {current : BlockTag} {saved : Bool} (complete : s.Complete config chain)
    (covers : ∀ block, current = .number block → saved = true → s.Covers config chain block) :
    (s.resolve current saved).Complete config chain := by
  cases saved with
  | false => exact complete
  | true =>
    have kept : ∀ block, s.firstStored.isSome → s.Covers config chain block →
        Covers config chain (s.resolve current true) block := by
      intro block stored covered
      exact covered.mono (save_firstStored stored) fun _ member => member
    have onward : ∀ block, current = .number block →
        (s.resolve current true).firstStored.isSome ∧
          Covers config chain (s.resolve current true) block := by
      rintro block rfl
      cases first : s.firstStored with
      | some f =>
        have stored : s.firstStored.isSome := by rw [first]; rfl
        refine ⟨?_, kept block stored (covers block rfl rfl)⟩
        change (s.firstStored.or _).isSome
        rw [first]
        rfl
      | none =>
        -- the head is the first block, and there is nothing below it to hand over
        have fresh : (s.resolve (.number block) true).firstStored = some block := by
          change s.firstStored.or _ = _
          rw [first]
          rfl
        refine ⟨by rw [fresh]; rfl, fun f found b above below => ?_⟩
        rw [fresh] at found
        obtain rfl := Option.some.inj found
        omega
    refine ⟨onward, fun block found => onward block (Option.some.inj found), ?_,
      complete.confirmed⟩
    intro poll member
    exact (complete.polls poll member).mono (fun stored => save_firstStored stored)
      fun _ settled => settled

/-- One step keeps everything below the shared and the stored block covered, unless a first-run
poll comes late. -/
theorem step_complete {action : EthAction} (complete : s.Complete config chain)
    (punctual : ¬ Skips config chain ⟨s, action⟩) (taken : s.step config chain action = some t) :
    t.Complete config chain := by
  have ended : ∀ poll, (s.advance poll .done).Complete config chain :=
    fun poll => complete.advance trivial
  cases action with
  | poll =>
    obtain rfl := Option.some.inj taken
    refine ⟨complete.shared, complete.stored, fun poll member => ?_, complete.confirmed⟩
    rcases List.mem_append.mp member with before | began
    · exact complete.polls poll before
    · obtain rfl := List.mem_singleton.mp began
      split <;> trivial
  | head poll answer saved =>
    simp only [EthListener.step] at taken
    split at taken
    · obtain rfl := Option.some.inj taken
      refine (ended poll).resolve ?_
      rintro block rfl rfl
      by_contra skipped
      exact punctual ⟨poll, block, rfl, ⟨_, ‹s.polls[poll]? = some .resolving›, rfl⟩, skipped⟩
    · obtain rfl := Option.some.inj taken
      exact complete.measure
    · obtain rfl := Option.some.inj taken
      exact ended poll
    · obtain rfl := Option.some.inj taken
      exact ended poll
    · cases taken
  | logs poll answered saved =>
    simp only [EthListener.step] at taken
    split at taken
    · next latest fromBlock queriedToBlock waiting =>
      split at taken
      · obtain rfl := Option.some.inj taken
        obtain ⟨stored, covered, confirmed⟩ :=
          complete.polls _ (List.mem_of_getElem? waiting)
        refine complete.deliver stored ?_ confirmed fun entry member =>
          (EthChain.mem_logsBetween.mp member).2.1
        intro first found b above below log member counts
        by_cases before : b < fromBlock
        · exact .inl ((covered first found b above before log member counts).resolve_right
            List.not_mem_nil)
        · exact .inr (EthChain.mem_logsBetween.mpr ⟨by omega, by omega, member⟩)
      · obtain rfl := Option.some.inj taken
        exact ended poll
    · cases taken
  | handled poll resolved saved =>
    simp only [EthListener.step] at taken
    split at taken
    · next latest queriedToBlock current rest waiting =>
      split at taken
      · obtain rfl := Option.some.inj taken
        obtain ⟨stored, covered, confirmed, within⟩ :=
          complete.polls _ (List.mem_of_getElem? waiting)
        have more : ∀ entry ∈ s.settled, entry ∈ current :: s.settled :=
          fun _ member => List.mem_cons_of_mem _ member
        have settled : Complete config chain { s with settled := current :: s.settled } :=
          ⟨fun block same => ⟨(complete.shared block same).1,
              (complete.shared block same).2.mono rfl more⟩,
            fun block found => ⟨(complete.stored block found).1,
              (complete.stored block found).2.mono rfl more⟩,
            fun other member => (complete.polls other member).mono (fun _ => rfl) more,
            complete.confirmed⟩
        refine settled.deliver stored ?_ confirmed (List.forall_mem_cons.mp within).2
        refine covered.mono rfl le_rfl fun b log _ entry => ?_
        rcases entry with before | listed
        · exact .inl (more _ before)
        · rcases List.mem_cons.mp listed with rfl | later
          · exact .inl List.mem_cons_self
          · exact .inr later
      · obtain rfl := Option.some.inj taken
        exact ended poll
    · cases taken
  | restart =>
    obtain rfl := Option.some.inj taken
    refine ⟨fun block same => complete.stored block ?_, complete.stored,
      fun _ member => absurd member List.not_mem_nil, complete.confirmed⟩
    cases found : s.blockStore with
    | none => rw [found] at same; cases same
    | some tag => rw [found] at same; exact congrArg some same

theorem start_complete (blockStore : Option BlockTag) :
    (start blockStore : EthListener Log).Complete config chain := by
  have first : ∀ block, blockStore = some (.number block) →
      (start blockStore : EthListener Log).firstStored = some block := by
    rintro block rfl
    rfl
  have fresh : ∀ block, blockStore = some (.number block) →
      (start blockStore : EthListener Log).firstStored.isSome ∧
        Covers config chain (start blockStore : EthListener Log) block := by
    intro block stored
    refine ⟨by rw [first block stored]; rfl, fun f found b above below => ?_⟩
    rw [first block stored] at found
    obtain rfl := Option.some.inj found
    omega
  refine ⟨fun block same => fresh block ?_, fresh, fun _ member => absurd member List.not_mem_nil,
    fun _ member => absurd member List.not_mem_nil⟩
  cases blockStore with
  | none => cases same
  | some tag => exact congrArg some same

end EthListener

/-! ## Runs -/

/-- In a run in which no first-run poll comes late: whenever the shared or the stored block has a
number, the handler of every log that counts, from the first stored block up to below that
number, has resolved; and whatever was handed over was confirmed when its poll saw the head. -/
theorem listener_complete {Log : Type} {config : EthListenerConfig Log} {chain : EthChain Log}
    {blockStore : Option BlockTag} {labels : List (Occurrence (EthListener Log) EthAction)}
    {t : EthListener Log}
    (run : Run (Occurs (EthListener.step config chain)) (EthListener.start blockStore) labels t)
    (punctual : ∀ label ∈ labels, ¬ Skips config chain label) :
    (∀ block, t.fromBlock = .number block ∨ t.blockStore = some (.number block) →
      ∀ first, t.firstStored = some first → ∀ b, first ≤ b → b < block →
        ∀ log ∈ chain.logs b, config.counts chain log → (b, log) ∈ t.settled) ∧
      ∀ handover ∈ t.handed, handover.block ≤ handover.latest - config.confirmations := by
  have complete : t.Complete config chain := by
    refine run.kept (fun _ _ _ kept admitted taken => ?_) punctual
      (EthListener.start_complete blockStore)
    exact EthListener.step_complete kept admitted taken
  refine ⟨fun block at_ first found b above below log member counts => ?_, complete.confirmed⟩
  have covered : t.Covers config chain block :=
    at_.elim (fun same => (complete.shared block same).2) fun same => (complete.stored block same).2
  exact (covered first found b above below log member counts).resolve_right List.not_mem_nil

namespace Rehearsal

/-- One deposit, in a single block. -/
def ethChain : EthChain BridgeEvent where
  logs block := if block = 102 then [event] else []
  removed _ := false

def ethConfig : EthListenerConfig BridgeEvent := ⟨2000, 12, some⟩

/-- Two polls overlap, both hand the deposit over, and the first to begin is the last to end. -/
def overlapping : List EthAction :=
  [.poll, .poll, .head 0 (some (.number 118)) false, .head 1 (some (.number 120)) false,
    .logs 1 true false, .logs 0 true false, .handled 1 true true, .handled 0 true true]

/-- Two polls of a fresh listener overlap, and the second learns a later head. -/
def lateHead : List EthAction :=
  [.poll, .poll, .head 0 (some (.number 100)) true, .head 1 (some (.number 105)) true]

end Rehearsal

theorem listener_complete_rehearsed : ∃ t,
    perform (EthListener.step Rehearsal.ethConfig Rehearsal.ethChain)
      (EthListener.start (some (.number 100))) Rehearsal.overlapping = some t ∧
    t.fromBlock = .number 107 ∧ (102, Rehearsal.event) ∈ t.settled := by
  obtain ⟨t, performed, facts⟩ := perform_any
    (p := fun t => t.fromBlock = .number 107 ∧ t.firstStored = some 100)
    (by decide +kernel : (perform (EthListener.step Rehearsal.ethConfig Rehearsal.ethChain)
      (EthListener.start (some (.number 100))) Rehearsal.overlapping).any _ = true)
  obtain ⟨shared, first⟩ := of_decide_eq_true facts
  obtain ⟨complete, -⟩ := listener_complete (perform_run performed) fun label member skips => by
    obtain ⟨poll, block, action, -⟩ := skips
    have asked := action_mem_history member
    rw [action] at asked
    simp [Rehearsal.overlapping] at asked
  refine ⟨t, performed, shared, complete 107 (.inl shared) 100 first 102 (by decide) (by decide) _
    (List.mem_singleton.mpr rfl) ⟨rfl, rfl⟩⟩

/-- A first-run poll that comes late moves the shared block past a deposit that nobody handed
over. -/
theorem late_head_skips_deposit :
    ¬ ∀ (labels : List (Occurrence (EthListener BridgeEvent) EthAction))
      (t : EthListener BridgeEvent),
      Run (Occurs (EthListener.step Rehearsal.ethConfig Rehearsal.ethChain))
        (EthListener.start none) labels t →
      ∀ block, t.fromBlock = .number block → ∀ first, t.firstStored = some first →
        ∀ b, first ≤ b → b < block → ∀ log ∈ Rehearsal.ethChain.logs b,
          Rehearsal.ethConfig.counts Rehearsal.ethChain log → (b, log) ∈ t.settled := by
  intro complete
  obtain ⟨t, performed, facts⟩ := perform_any
    (p := fun t => t.fromBlock = .number 105 ∧ t.firstStored = some 100 ∧ t.settled = [])
    (by decide +kernel : (perform (EthListener.step Rehearsal.ethConfig Rehearsal.ethChain)
      (EthListener.start none) Rehearsal.lateHead).any _ = true)
  obtain ⟨shared, first, settled⟩ := of_decide_eq_true facts
  have member := complete _ t (perform_run performed) 105 shared 100 first 102 (by decide)
    (by decide) Rehearsal.event (List.mem_singleton.mpr rfl) ⟨rfl, rfl⟩
  rw [settled] at member
  cases member

end OnboardingBridge.Relayer
