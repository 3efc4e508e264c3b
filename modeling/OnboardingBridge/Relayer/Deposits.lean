import OnboardingBridge.Relayer.EthListener
import OnboardingBridge.Relayer.ReplayKeys
import OnboardingBridge.Relayer.Steps

/-!
# Deposits of the source chains

A deposit is an event that is logged at a position of its chain. It is confirmed when the
log is one of the bridge's own and final: on Ethereum not removed and as deep as is asked
for, on Solana a line of the innermost program of a transaction that succeeded. The
listeners hand over confirmed deposits only, and the service keeps to what they hand over:
every event that it asks its signers about is that of a confirmed deposit and has passed
the check, whichever way deliveries, retries of dead letters and crashes interleave
(`service_signs_deposits`).
-/

set_option autoImplicit false

namespace OnboardingBridge.Relayer

open Foundations Contract

/-! ## Deposits -/

/-- Where a deposit was logged. -/
inductive Position where
  | ethereum (transaction : BytesN 32) (index : ℕ)
  | solana (signature : Text) (position : ℕ)
deriving DecidableEq

/-- What the replay key of a deposit is the hash of. -/
def Position.bytes : Position → List UInt8
  | .ethereum transaction index => positionBytes transaction.toList index
  | .solana signature position => depositBytes signature position

/-- A position, with the event that is read there. -/
structure Deposit where
  position : Position
  event : BridgeEvent
deriving DecidableEq

/-- The two source chains, and how the listeners read them. -/
structure SourceChains where
  ethereum : EthChain EthLog
  ethereumId : Number
  /-- The head of the Ethereum chain. -/
  head : ℕ
  /-- How many blocks a listener holds back from the head. -/
  confirmations : ℕ
  solana : List SolanaTx
  config : SolanaListenerConfig
  bridge : ProgramId
  configured : config.programId = bridge.text

namespace SourceChains

/-- A deposit was logged on one of the chains, by whatever program and however deep. -/
inductive Holds (chains : SourceChains) : Deposit → Prop where
  | ethereum {block index : ℕ} {log : EthLog} {transaction : BytesN 32} {event : BridgeEvent}
      (logged : log ∈ chains.ethereum.logs block) (here : log.At transaction index)
      (decoded : log.decode chains.config.sha256 chains.ethereumId = some event) :
      Holds chains ⟨.ethereum transaction index, event⟩
  | solana {tx : SolanaTx} {position : ℕ} {event : BridgeEvent} (finalised : tx ∈ chains.solana)
      (here : DepositAt chains.config tx.signature tx.logs position event) :
      Holds chains ⟨.solana tx.signature position, event⟩

/-- A deposit was logged by the bridge, and is there to stay. -/
inductive Confirms (chains : SourceChains) : Deposit → Prop where
  | ethereum {block index : ℕ} {log : EthLog} {transaction : BytesN 32} {event : BridgeEvent}
      (logged : log ∈ chains.ethereum.logs block) (kept : chains.ethereum.removed log = false)
      (deep : block ≤ chains.head - chains.confirmations) (here : log.At transaction index)
      (decoded : log.decode chains.config.sha256 chains.ethereumId = some event) :
      Confirms chains ⟨.ethereum transaction index, event⟩
  | solana {tx : SolanaTx} {before later : List LogEntry} {entry : LogEntry} {event : BridgeEvent}
      (finalised : tx ∈ chains.solana) (succeeded : tx.failed = false)
      (logged : tx.logs = linesOf (before ++ entry :: later))
      (genuine : Genuine chains.config tx.signature chains.bridge before entry event) :
      Confirms chains ⟨.solana tx.signature (before.countP LogEntry.isDeposit), event⟩

variable {chains : SourceChains} {deposit other : Deposit}

/-- A genuine line is the line of its position. -/
theorem depositAt_of_genuine {config : SolanaListenerConfig} {signature : Text}
    {bridge : ProgramId} {before later : List LogEntry} {entry : LogEntry} {event : BridgeEvent}
    (genuine : Genuine config signature bridge before entry event) :
    DepositAt config signature (linesOf (before ++ entry :: later))
      (before.countP LogEntry.isDeposit) event := by
  refine ⟨linesOf before, entry.line, linesOf later, ?_, ?_, ?_, genuine.decoded⟩
  · rw [linesOf, List.map_append, List.map_cons]
  · rw [LogEntry.isDepositLine_line, genuine.deposit]
  · rw [countP_depositLines]

theorem Confirms.holds (confirms : chains.Confirms deposit) : chains.Holds deposit := by
  cases confirms with
  | ethereum logged _ _ here decoded => exact .ethereum logged here decoded
  | solana finalised _ logged genuine =>
    exact .solana finalised (logged ▸ depositAt_of_genuine genuine)

/-- The replay key of a deposit tells its position. -/
theorem Holds.keys {hashed : Set (List UInt8)}
    (unique : Set.InjOn chains.config.sha256 hashed) (holds : chains.Holds deposit)
    (holds' : chains.Holds other) (known : deposit.position.bytes ∈ hashed)
    (known' : other.position.bytes ∈ hashed) :
    deposit.event.txHash = other.event.txHash ↔ deposit.position = other.position := by
  cases holds with
  | ethereum _ here decoded =>
    cases holds' with
    | ethereum _ here' decoded' =>
      rw [eth_keys unique here here' decoded decoded' known known', Position.ethereum.injEq]
    | solana _ here' =>
      have apart := eth_solana_keys unique here decoded here' known known'
      simp only [apart, reduceCtorEq]
  | solana _ here =>
    cases holds' with
    | ethereum _ here' decoded' =>
      have apart := eth_solana_keys unique here' decoded' here known' known
      simp only [apart.symm, reduceCtorEq]
    | solana _ here' =>
      rw [solana_keys unique here here' known known', Position.solana.injEq]

/-- The text of a replay key is that of 32 bytes. -/
theorem Holds.txHash (holds : chains.Holds deposit) :
    deposit.event.txHash = replayKey chains.config.sha256 deposit.position.bytes := by
  cases holds with
  | ethereum _ here decoded => exact (here.decode_key decoded).2
  | solana _ here =>
    obtain ⟨_, -, -, -, key⟩ := here.key
    exact key

/-- A position is that of one log. -/
structure Positioned (chains : SourceChains) : Prop where
  ethereum : ∀ {block block' index : ℕ} {log log' : EthLog} {transaction : BytesN 32},
    log ∈ chains.ethereum.logs block → log' ∈ chains.ethereum.logs block' →
      log.At transaction index → log'.At transaction index → log = log'
  solana : (chains.solana.map (·.signature)).Nodup

theorem Holds.unique (positioned : chains.Positioned) (holds : chains.Holds deposit)
    (holds' : chains.Holds other) (same : deposit.position = other.position) : deposit = other := by
  cases holds with
  | ethereum logged here decoded =>
    cases holds' with
    | ethereum logged' here' decoded' =>
      obtain ⟨rfl, rfl⟩ := Position.ethereum.inj same
      obtain rfl := positioned.ethereum logged logged' here here'
      rw [Option.some.inj (decoded.symm.trans decoded')]
    | solana => cases same
  | solana finalised here =>
    cases holds' with
    | ethereum => cases same
    | solana finalised' here' =>
      obtain ⟨signatures, rfl⟩ := Position.solana.inj same
      obtain rfl := List.inj_on_of_nodup_map positioned.solana finalised finalised' signatures
      rw [here.unique here']

end SourceChains

/-! ## The Ethereum listener -/

section Ethereum

variable {Log : Type} {config : EthListenerConfig Log} {chain : EthChain Log}

/-- The blocks that a poll has queried, or will, are as deep below the head as is asked for, and
the logs it has yet to hand over are of these blocks. -/
def Poll.Sound (config : EthListenerConfig Log) (chain : EthChain Log) (head : ℕ) :
    Poll Log → Prop
  | .querying _ _ queriedToBlock => queriedToBlock ≤ head - config.confirmations
  | .delivering _ _ current rest => ∀ entry ∈ current :: rest,
      entry.2 ∈ chain.logs entry.1 ∧ entry.1 ≤ head - config.confirmations
  | .resolving | .measuring | .done => True

/-- What was handed over is decoded from a log of the chain that was not removed and is deep
enough. -/
structure Handover.Sound (config : EthListenerConfig Log) (chain : EthChain Log) (head : ℕ)
    (handover : Handover Log) : Prop where
  logged : handover.log ∈ chain.logs handover.block
  kept : chain.removed handover.log = false
  deep : handover.block ≤ head - config.confirmations
  decoded : config.decode handover.log = some handover.event

structure EthListener.Sound (config : EthListenerConfig Log) (chain : EthChain Log) (head : ℕ)
    (s : EthListener Log) : Prop where
  polls : ∀ poll ∈ s.polls, poll.Sound config chain head
  handed : ∀ handover ∈ s.handed, handover.Sound config chain head

/-- A head that the listener is told of is not above the head of the chain. -/
def EthAction.Within (head : ℕ) : EthAction → Prop
  | .head _ (some (.number block)) _ => block ≤ head
  | _ => True

namespace EthListener

variable {head : ℕ} {s t : EthListener Log}

theorem Sound.advance (sound : s.Sound config chain head) (poll : ℕ) (next : Poll Log)
    (onward : next.Sound config chain head) : (s.advance poll next).Sound config chain head where
  polls other member := by
    rcases List.mem_or_eq_of_mem_set member with before | rfl
    · exact sound.polls other before
    · exact onward
  handed := sound.handed

theorem Sound.save (sound : s.Sound config chain head) (block : BlockTag) (saved : Bool) :
    (s.save block saved).Sound config chain head := by
  unfold EthListener.save
  split
  · exact ⟨sound.polls, sound.handed⟩
  · exact sound

theorem Sound.deliver {poll latest queriedToBlock : ℕ} {saved : Bool} {rest : List (ℕ × Log)}
    (sound : s.Sound config chain head) (listed : ∀ entry ∈ rest,
      entry.2 ∈ chain.logs entry.1 ∧ entry.1 ≤ head - config.confirmations) :
    (s.deliver config chain poll latest queriedToBlock saved rest).Sound config chain head := by
  induction rest with
  | nil =>
      have moved := (sound.advance poll .done trivial).save
        (.number (queriedToBlock + 1)) saved
      exact ⟨moved.polls, moved.handed⟩
  | cons entry rest ih =>
      obtain ⟨block, log⟩ := entry
      obtain ⟨here, later⟩ := List.forall_mem_cons.mp listed
      rw [EthListener.deliver]
      split
      · exact ih later
      · next kept =>
        split
        · exact ih later
        · next event decoded =>
          have moved := sound.advance poll
            (.delivering latest queriedToBlock (block, log) rest) listed
          refine ⟨moved.polls, fun handover member => ?_⟩
          rcases List.mem_append.mp member with before | new
          · exact sound.handed handover before
          · obtain rfl := List.mem_singleton.mp new
            exact ⟨here.1, Bool.eq_false_of_not_eq_true kept, here.2, decoded⟩

/-- A poll queries no block that is not deep enough. -/
theorem Sound.measure {poll : ℕ} {latestTag : BlockTag} (sound : s.Sound config chain head)
    (told : ∀ block, latestTag.parseInt = some block → block ≤ head) :
    (s.measure config poll latestTag).Sound config chain head := by
  have ended : (s.advance poll .done).Sound config chain head := sound.advance poll _ trivial
  unfold EthListener.measure
  split
  · next latestNum fromBlock measured shared =>
    split
    · exact ended
    · split
      · next endBlock requests =>
        refine sound.advance poll _ ?_
        unfold requested at requests
        split at requests
        · cases requests
        · obtain rfl := Option.some.inj requests
          exact (min_le_right _ _).trans (Nat.sub_le_sub_right (told latestNum measured) _)
      · exact ended
  · exact ended

theorem step_handed {action : EthAction} (sound : s.Sound config chain head)
    (told : action.Within head) (taken : s.step config chain action = some t) :
    t.Sound config chain head := by
  cases action with
  | poll =>
    simp only [EthListener.step] at taken
    obtain rfl := Option.some.inj taken
    refine ⟨fun poll member => ?_, sound.handed⟩
    rcases List.mem_append.mp member with before | new
    · exact sound.polls poll before
    · obtain rfl := List.mem_singleton.mp new
      split <;> trivial
  | head poll answer saved =>
    simp only [EthListener.step] at taken
    split at taken
    · obtain rfl := Option.some.inj taken
      have moved := sound.advance poll .done trivial
      unfold EthListener.resolve
      split
      · have stored := moved.save (by assumption) saved
        exact ⟨stored.polls, stored.handed⟩
      · exact moved
    · next latestTag waiting =>
      obtain rfl := Option.some.inj taken
      refine sound.measure fun block tagged => ?_
      cases latestTag with
      | number latest => exact Option.some.inj tagged ▸ told
      | latest => cases tagged
      | unreadable => cases tagged
    · exact Option.some.inj taken ▸ sound.advance poll _ trivial
    · exact Option.some.inj taken ▸ sound.advance poll _ trivial
    · cases taken
  | logs poll answered saved =>
    simp only [EthListener.step] at taken
    split at taken
    · next waiting =>
      split at taken
      · obtain rfl := Option.some.inj taken
        have deep := sound.polls _ (List.mem_of_getElem? waiting)
        refine sound.deliver fun entry member => ?_
        obtain ⟨-, below, logged⟩ := EthChain.mem_logsBetween.mp member
        exact ⟨logged, below.trans deep⟩
      · exact Option.some.inj taken ▸ sound.advance poll _ trivial
    · cases taken
  | handled poll resolved saved =>
    simp only [EthListener.step] at taken
    split at taken
    · next found =>
      split at taken
      · obtain rfl := Option.some.inj taken
        have listed := sound.polls _ (List.mem_of_getElem? found)
        exact Sound.deliver ⟨sound.polls, sound.handed⟩ (List.forall_mem_cons.mp listed).2
      · exact Option.some.inj taken ▸ sound.advance poll _ trivial
    · cases taken
  | restart =>
    obtain rfl := Option.some.inj taken
    exact ⟨by simp, sound.handed⟩

/-- Whatever a listener hands over, in a run with overlapping polls and restarts, is decoded from
a log of the chain that was not removed and is deep enough. -/
theorem run_handed {blockStore : Option BlockTag}
    {labels : List (Occurrence (EthListener Log) EthAction)}
    (run : Run (Occurs (EthListener.step config chain)) (start blockStore) labels t)
    (told : ∀ label ∈ labels, label.action.Within head) : t.Sound config chain head := by
  have fresh : (start blockStore : EthListener Log).Sound config chain head :=
    ⟨by simp [start], by simp [start]⟩
  refine run.kept ?_ told fresh
  exact fun _ _ _ sound told taken => step_handed sound told taken

end EthListener

end Ethereum

/-! ## What is handed over -/

namespace SourceChains

variable {chains : SourceChains}

/-- How the listener of the Ethereum chain reads logs. -/
def decode (chains : SourceChains) (log : EthLog) : Option BridgeEvent :=
  log.decode chains.config.sha256 chains.ethereumId

/-- A listener of one of the chains hands the event over in some run. -/
inductive Hands (chains : SourceChains) (event : BridgeEvent) : Prop where
  | ethereum {maxBlockRange : ℕ} {blockStore : Option BlockTag}
      {labels : List (Occurrence (EthListener EthLog) EthAction)} {t : EthListener EthLog}
      {handover : Handover EthLog}
      (run : Run (Occurs (EthListener.step ⟨maxBlockRange, chains.confirmations, chains.decode⟩
        chains.ethereum)) (EthListener.start blockStore) labels t)
      (told : ∀ label ∈ labels, label.action.Within chains.head)
      (handed : handover ∈ t.handed) (same : handover.event = event)
  | solana {signatureStore : Option Text} {finalised : List SolanaTx}
      {labels : List (Occurrence SolanaListener SolanaAction)} {t : SolanaListener} {signature : Text}
      (distinct : (finalised.map (·.signature)).Nodup)
      (run : Run (Occurs (SolanaListener.step chains.config))
        (SolanaListener.start signatureStore finalised) labels t)
      (history : t.finalised ⊆ chains.solana) (handed : (signature, event) ∈ t.handed)

/-- The RPC writes the transaction and the index of every Ethereum log as it should, and the lines
of a Solana transaction that succeeded are what programs log while they call one another. -/
structure WellFormed (chains : SourceChains) : Prop where
  ethereum : ∀ block, ∀ log ∈ chains.ethereum.logs block,
    ∃ transaction index, log.At transaction index
  solana : ∀ tx ∈ chains.solana, tx.failed = false →
    ∃ entries programs, tx.logs = linesOf entries ∧ executing entries = some programs

/-- Some confirmed deposit has the event. -/
def Deposited (chains : SourceChains) (event : BridgeEvent) : Prop :=
  ∃ deposit, chains.Confirms deposit ∧ deposit.event = event

theorem Hands.deposited {event : BridgeEvent} (wellFormed : chains.WellFormed)
    (hands : chains.Hands event) : chains.Deposited event := by
  cases hands with
  | ethereum run told handed same =>
    obtain ⟨logged, kept, deep, decoded⟩ := (EthListener.run_handed run told).handed _ handed
    obtain ⟨transaction, index, here⟩ := wellFormed.ethereum _ _ logged
    exact ⟨_, .ethereum logged kept deep here decoded, same⟩
  | solana distinct run history handed =>
    obtain ⟨tx, known, -, accepted⟩ := (SolanaListener.run_sound distinct run).handed _ handed
    rw [SolanaListenerConfig.accepted] at accepted
    split at accepted
    · cases accepted
    · next failed =>
      have succeeded : tx.failed = false := Bool.eq_false_of_not_eq_true failed
      obtain ⟨entries, programs, lines, runs⟩ :=
        wellFormed.solana tx (history known) succeeded
      rw [lines] at accepted
      obtain ⟨before, entry, later, rfl, genuine⟩ :=
        (only_bridge_deposits chains.configured runs).2 _ accepted
      exact ⟨_, .solana (history known) succeeded lines genuine, rfl⟩

end SourceChains

/-! ## The service -/

/-- Whatever the service keeps was heard of, and what it processes has passed the check. -/
structure Service.Keeps (config : Config) (heard : BridgeEvent → Prop) (s : Service) : Prop where
  memory : ∀ entry ∈ s.memory.entries, heard entry.event
  disk : ∀ entry ∈ s.disk.entries, heard entry.event
  writes : ∀ entry, .push entry ∈ s.writes → heard entry.event
  processes : ∀ process ∈ s.processes, heard process.event ∧
    Service.accepts config process.event = true
  sweep : ∀ sweep, s.sweep = some sweep → ∀ event ∈ sweep.pending, heard event

namespace Service

variable {config : Config} {heard : BridgeEvent → Prop} {s t : Service}

theorem start_keeps {disk : Stores} (stored : ∀ entry ∈ disk.entries, heard entry.event)
    (executed resolved : List Key) : (start disk executed resolved).Keeps config heard :=
  ⟨stored, stored, by simp [start], by simp [start], by simp [start]⟩

theorem resolve_keeps (keeps : s.Keeps config heard) (event : BridgeEvent) :
    (s.resolve config event).Keeps config heard := by
  unfold Service.resolve
  split
  · exact ⟨keeps.memory, keeps.disk, keeps.writes, keeps.processes, keeps.sweep⟩
  · exact keeps

/-- The service starts to process an event only if it passes the check. -/
theorem handleEvent_keeps (keeps : s.Keeps config heard) {event : BridgeEvent}
    (told : heard event) : (s.handleEvent config event).Keeps config heard := by
  have kept := keeps.processes
  unfold Service.handleEvent
  split
  · have ignored : (s.ignore event).Keeps config heard :=
      ⟨keeps.memory, keeps.disk, keeps.writes, kept, keeps.sweep⟩
    exact resolve_keeps ignored event
  · split
    · exact ⟨keeps.memory, keeps.disk, keeps.writes, kept, keeps.sweep⟩
    · next accepted =>
      split
      · exact ⟨keeps.memory, keeps.disk, keeps.writes, kept, keeps.sweep⟩
      · refine ⟨keeps.memory, keeps.disk, keeps.writes, fun process member => ?_, keeps.sweep⟩
        rcases List.mem_append.mp member with before | new
        · exact kept process before
        · obtain rfl := List.mem_singleton.mp new
          exact ⟨told, Bool.eq_true_of_not_eq_false accepted⟩

/-- A process moves on with the event it has. -/
theorem advance_keeps (keeps : s.Keeps config heard) {process : ℕ} {event : BridgeEvent}
    {before : Phase} (found : s.processes[process]? = some ⟨event, before⟩) (phase : Phase) :
    (s.advance process event phase).Keeps config heard := by
  refine ⟨keeps.memory, keeps.disk, keeps.writes, fun other member => ?_, keeps.sweep⟩
  rcases List.mem_or_eq_of_mem_set member with earlier | rfl
  · exact keeps.processes other earlier
  · exact keeps.processes ⟨event, before⟩ (List.mem_of_getElem? found)

/-- A dead letter carries the event of its process. -/
theorem finish_keeps (keeps : s.Keeps config heard) {process : ℕ} {event : BridgeEvent}
    {before : Phase} (found : s.processes[process]? = some ⟨event, before⟩) {success : Bool}
    {writes : List Write} (concluding : Concluding s.memory event success writes) :
    (s.finish process event writes).Keeps config heard := by
  obtain ⟨memory, disk, -, processes, sweep⟩ := advance_keeps keeps found .done
  have told : heard event := (keeps.processes ⟨event, before⟩ (List.mem_of_getElem? found)).1
  refine ⟨memory, disk, fun entry pushed => ?_, processes, sweep⟩
  cases concluding with
  | success => simp [mark, remove, Service.finish] at pushed
  | failure =>
    simp only [Service.finish, enqueue, remove, List.singleton_append, List.mem_cons, reduceCtorEq,
      false_or, Write.push.injEq, List.not_mem_nil, or_false] at pushed
    rw [pushed]
    exact told

theorem apply_entries (stores : Stores) (next : Write) {entry : DeadLetterEntry}
    (member : entry ∈ (stores.apply next).entries) :
    entry ∈ stores.entries ∨ next = .push entry := by
  cases next with
  | mark => exact .inl member
  | drop => exact .inl (List.mem_of_mem_filter member)
  | push other =>
    rcases List.mem_append.mp member with before | new
    · exact .inl before
    · exact .inr (by rw [List.mem_singleton.mp new])

theorem write_keeps (keeps : s.Keeps config heard) {next : Write} {rest : List Write}
    (writes : s.writes = next :: rest) : (s.write next rest).Keeps config heard := by
  have pushes : ∀ entry, next = .push entry ∨ .push entry ∈ rest → heard entry.event := by
    intro entry pushed
    refine keeps.writes entry ?_
    rcases pushed with rfl | later
    · exact writes ▸ List.mem_cons_self
    · exact writes ▸ List.mem_cons_of_mem _ later
  have applied : ∀ entry ∈ (s.memory.apply next).entries, heard entry.event := by
    intro entry member
    rcases apply_entries s.memory next member with before | pushed
    · exact keeps.memory entry before
    · exact pushes entry (.inl pushed)
  refine ⟨applied, fun entry member => ?_, fun entry later => pushes entry (.inr later),
    keeps.processes, keeps.sweep⟩
  cases next with
  | mark => exact keeps.disk entry member
  | drop => exact applied entry member
  | push => exact applied entry member

/-- Every action keeps it. A sweep retries the events of dead letters. -/
theorem step_keeps {action : Action} (keeps : s.Keeps config heard)
    (told : ∀ event, action = .deliver event → heard event)
    (taken : s.step config action = some t) : t.Keeps config heard := by
  cases action with
  | sweepNext =>
    simp only [Service.step] at taken
    split at taken
    · next event pending current found =>
      split at taken
      · obtain rfl := Option.some.inj taken
        obtain ⟨here, later⟩ := List.forall_mem_cons.mp (keeps.sweep _ found)
        obtain ⟨memory, disk, writes, processes, -⟩ := handleEvent_keeps keeps here
        refine ⟨memory, disk, writes, processes, fun sweep same => ?_⟩
        obtain rfl := Option.some.inj same
        exact later
      · cases taken
    · cases taken
  | sweep now =>
    cases steps_of_step taken with
    | sweep now idle =>
      unfold Service.retryDeadLetters
      split
      · exact keeps
      · split
        · exact keeps
        · next pending _ =>
          refine ⟨keeps.memory, keeps.disk, keeps.writes, keeps.processes, fun sweep same => ?_⟩
          obtain rfl := Option.some.inj same
          intro event member
          obtain ⟨entry, listed, rfl⟩ := List.mem_map.mp member
          exact keeps.memory entry (List.mem_of_mem_filter listed)
  | deliver event =>
    cases steps_of_step taken with
    | deliver _ idle => exact handleEvent_keeps keeps (told event rfl)
  | sweepEnd =>
    cases steps_of_step taken with
    | sweepEnd idle => exact ⟨keeps.memory, keeps.disk, keeps.writes, keeps.processes, by simp⟩
  | sign process available now =>
    cases steps_of_step taken with
    | sign _ _ _ found idle =>
      unfold Service.signed
      split
      · exact finish_keeps keeps found (.failure ..)
      · exact advance_keeps keeps found _
  | answer process outcome now =>
    cases steps_of_step taken with
    | answer _ _ _ found idle => exact finish_keeps keeps found (conclusion_concluding ..)
  | write =>
    cases steps_of_step taken with
    | write writes => exact write_keeps keeps writes
  | settle call =>
    cases steps_of_step taken with
    | settle _ found idle ended waits =>
      unfold Service.settle
      refine resolve_keeps ?_ _
      exact ⟨keeps.memory, keeps.disk, keeps.writes, keeps.processes, keeps.sweep⟩
  | execute key =>
    cases steps_of_step taken with
    | execute => exact ⟨keeps.memory, keeps.disk, keeps.writes, keeps.processes, keeps.sweep⟩
  | crash =>
    cases steps_of_step taken with
    | crash => exact start_keeps keeps.disk _ _

end Service

/-! ## Signing -/

/-- The message is the hash of the event of one of the deposits, which passes the check. -/
def Vouched (sha256 : List UInt8 → BytesN 32) (sdk : StellarSdk) (deposits : Set Deposit)
    (message : BytesN 32) : Prop :=
  ∃ deposit ∈ deposits, validateBridgeEvent sdk deposit.event = .ok () ∧
    computePayloadHash sha256 deposit.event = some message

/-- When a service hears only of what listeners hand over, from its start or from dead letters of
an earlier one, all it ever asks its signers about is confirmed deposits whose events pass the
check. -/
theorem service_signs_deposits {config : Config} {chains : SourceChains} {disk : Stores}
    {executed resolved : List Key} {labels : List Taken} {t : Service}
    (wellFormed : chains.WellFormed)
    (run : Run (ServiceStep config) (Service.start disk executed resolved) labels t)
    (stored : ∀ entry ∈ disk.entries, chains.Deposited entry.event)
    (delivered : ∀ label ∈ labels, ∀ event, label.action = .deliver event → chains.Hands event)
    {process : Process} (member : process ∈ t.processes) :
    chains.Deposited process.event ∧ validateBridgeEvent config.sdk process.event = .ok () ∧
      ∀ message, computePayloadHash chains.config.sha256 process.event = some message →
        Vouched chains.config.sha256 config.sdk {deposit | chains.Confirms deposit} message := by
  have fresh : (Service.start disk executed resolved).Keeps config chains.Deposited :=
    Service.start_keeps stored executed resolved
  have kept : t.Keeps config chains.Deposited := by
    refine run.invariant (fun label => ∀ event, label.action = .deliver event →
      chains.Hands event) ?_ delivered fresh
    rintro s ⟨before, action⟩ u keeps told ⟨rfl, taken⟩
    exact Service.step_keeps keeps (fun event same => (told event same).deposited wellFormed) taken
  obtain ⟨deposited, accepted⟩ := kept.processes process member
  have valid : validateBridgeEvent config.sdk process.event = .ok () := by
    unfold Service.accepts at accepted
    cases checked : validateBridgeEvent config.sdk process.event with
    | error message => rw [checked] at accepted; cases accepted
    | ok u => rfl
  refine ⟨deposited, valid, fun message signed => ?_⟩
  obtain ⟨deposit, confirms, same⟩ := deposited
  exact ⟨deposit, confirms, same ▸ valid, same ▸ signed⟩

namespace Rehearsal

/-- What the bridge program logs for a deposit. -/
def fundLine : Text :=
  "bridge_fund:".toList ++ (keyOf 1).toList ++ ":".toList ++ (keyOf 0).toList ++ ":1000".toList

/-- The bridge program logs the deposit. -/
def fundEntries : List LogEntry :=
  [.invoke bridgeProgram 1, .message .log fundLine, .success bridgeProgram]

def fundTx : SolanaTx := ⟨zeroSignature, false, linesOf fundEntries⟩

/-- An Ethereum chain without logs, and a Solana chain with one deposit. -/
def sources : SourceChains where
  ethereum := ⟨fun _ => [], fun _ => false⟩
  ethereumId := .integer 1
  head := 0
  confirmations := 12
  solana := [recordedTx, fundTx]
  config := { solana with sha256 := Contract.Rehearsal.checksum }
  bridge := bridgeProgram
  configured := rfl

theorem sources_wellFormed : sources.WellFormed where
  ethereum _ _ logged := absurd logged List.not_mem_nil
  solana tx finalised _ := by
    rcases List.mem_cons.mp finalised with rfl | finalised
    · exact ⟨[], [], rfl, rfl⟩
    · obtain rfl := List.mem_singleton.mp finalised
      exact ⟨fundEntries, [], rfl, by decide⟩

/-- The event of the deposit. -/
def fundEvent : BridgeEvent where
  chainId := .integer 101
  txHash := "5496f352f85ac6997787413166b98ae646a1a6cb3db7c14d38ff3badf4cce644"
  target := keyOf 1
  asset := keyOf 0
  amount := "1000"

/-- The listener is notified of the deposit and hands it over. -/
def heardOf : List SolanaAction :=
  [.connect, .opened, .backfill 0, .serve 0, .page 0, .activated, .finalise fundTx, .message,
    .notify 0, .hand 0]

theorem fundEvent_handed : sources.Hands fundEvent := by
  obtain ⟨t, performed, facts⟩ := perform_any
    (p := fun t => t.finalised = [recordedTx, fundTx] ∧ t.handed = [(zeroSignature, fundEvent)])
    (by decide +kernel : (perform (SolanaListener.step sources.config)
      (SolanaListener.start (some recordedTx.signature) [recordedTx]) heardOf).any _ = true)
  obtain ⟨finalised, handed⟩ := of_decide_eq_true facts
  refine .solana (by decide) (perform_run performed) ?_ (handed ▸ List.mem_singleton.mpr rfl)
  exact finalised ▸ List.Subset.refl _

end Rehearsal

/-- A service that hears of a deposit asks its signers about it. -/
theorem service_signs_deposits_rehearsed : ∃ t : Service,
    t.processes = [⟨Rehearsal.fundEvent, .signing⟩] ∧
    ∀ message, computePayloadHash Contract.Rehearsal.checksum Rehearsal.fundEvent = some message →
      Vouched Contract.Rehearsal.checksum Rehearsal.sdk
        {deposit | Rehearsal.sources.Confirms deposit} message := by
  obtain ⟨t, performed, facts⟩ := Service.performs
    (p := fun t => decide (t.processes = [⟨Rehearsal.fundEvent, .signing⟩]))
    (by decide +kernel : ((Service.start ⟨[], []⟩ [] []).perform ⟨Rehearsal.sdk, 1⟩
      [.deliver Rehearsal.fundEvent]).any _ = true)
  have processes : t.processes = [⟨Rehearsal.fundEvent, .signing⟩] := of_decide_eq_true facts
  have delivered : ∀ label ∈ (Service.start ⟨[], []⟩ [] []).history ⟨Rehearsal.sdk, 1⟩
      [.deliver Rehearsal.fundEvent], ∀ event, label.action = .deliver event →
        Rehearsal.sources.Hands event := by
    intro label member event same
    have only := List.mem_singleton.mp (Service.action_mem member)
    obtain rfl := Action.deliver.inj (only.symm.trans same)
    exact Rehearsal.fundEvent_handed
  refine ⟨t, processes, ?_⟩
  exact (service_signs_deposits Rehearsal.sources_wellFormed
    (Service.perform_run performed) (by simp) delivered
    (processes ▸ List.mem_singleton.mpr rfl)).2.2

end OnboardingBridge.Relayer
