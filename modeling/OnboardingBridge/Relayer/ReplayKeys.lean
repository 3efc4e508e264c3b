import OnboardingBridge.Relayer.Base58
import OnboardingBridge.Relayer.EthLogs
import OnboardingBridge.Relayer.Hexadecimal
import OnboardingBridge.Relayer.SolanaListener

/-!
# Replay keys

The key that the contract remembers of a deposit is the hash of where the deposit was
logged: a transaction and an index in it. The transaction is 32 bytes long on Ethereum
and 64 on Solana and the index always four, so different positions have different
hashed bytes, and base58 loses nothing. The Solana listener hands over what the logs of
finalised transactions hold, whichever way it learns of them.
-/

set_option autoImplicit false

namespace OnboardingBridge.Relayer

open Foundations Contract

/-! ## Positions -/

/-- The bytes that a replay key is the hash of. -/
def positionBytes (transaction : List UInt8) (index : ℕ) : List UInt8 :=
  transaction ++ bigEndian 4 index

theorem positionBytes_inj {transaction transaction' : List UInt8} {index index' : ℕ}
    (fits : index < 2 ^ 32) (fits' : index' < 2 ^ 32)
    (same : positionBytes transaction index = positionBytes transaction' index') :
    transaction = transaction' ∧ index = index' := by
  obtain ⟨transactions, indices⟩ := List.append_inj' same (by simp)
  exact ⟨transactions, bigEndian_injOn (by simpa using fits) (by simpa using fits') indices⟩

/-- Keys are equal only if what they are the hashes of is, when the hash does not collide. -/
theorem replayKey_inj {sha256 : List UInt8 → BytesN 32} {hashed : Set (List UInt8)}
    {bytes bytes' : List UInt8} (unique : Set.InjOn sha256 hashed) (known : bytes ∈ hashed)
    (known' : bytes' ∈ hashed) (same : replayKey sha256 bytes = replayKey sha256 bytes') :
    bytes = bytes' :=
  unique known known' (hexText_injective (String.ofList_injective same))

/-! ## Ethereum -/

/-- A log is that of a transaction at an index, and the RPC writes both in hexadecimal. -/
structure EthLog.At (log : EthLog) (transaction : BytesN 32) (index : ℕ) : Prop where
  hash : ∃ digits, log.transactionHash = some ('0' :: 'x' :: digits) ∧
    hexBytes digits = transaction.toList
  position : log.logIndex.toNumber = some (index : ℚ)

theorem writeIndexBE_eq_some {index : ℕ} {bytes : List UInt8}
    (written : writeIndexBE (index : ℚ) = some bytes) :
    index < 2 ^ 32 ∧ bytes = bigEndian 4 index := by
  unfold writeIndexBE at written
  split at written
  · next fits =>
    have below : index ≤ 0xffffffff := by exact_mod_cast fits.2
    obtain rfl := Option.some.inj written
    refine ⟨by omega, ?_⟩
    rw [Int.floor_natCast, Int.toNat_natCast]
  · cases written

theorem EthLog.At.hashedBytes {log : EthLog} {transaction : BytesN 32} {index : ℕ}
    (here : log.At transaction index) {bytes : List UInt8} (hashed : log.hashedBytes = some bytes) :
    index < 2 ^ 32 ∧ bytes = positionBytes transaction.toList index := by
  obtain ⟨⟨digits, hash, decoded⟩, position⟩ := here
  have stripped : after0x ('0' :: 'x' :: digits) = some digits := rfl
  simp only [EthLog.hashedBytes, hash, position, stripped, decoded, Option.bind_eq_bind,
    Option.bind_some] at hashed
  split at hashed
  · cases hashed
  · split at hashed
    · cases hashed
    · obtain ⟨buffer, written, same⟩ := Option.bind_eq_some_iff.mp hashed
      obtain ⟨fits, rfl⟩ := writeIndexBE_eq_some written
      exact ⟨fits, (Option.some.inj same).symm⟩

/-- The key of a log is the hash of its position. -/
theorem EthLog.At.decode_key {sha256 : List UInt8 → BytesN 32} {chainId : Number} {log : EthLog}
    {transaction : BytesN 32} {index : ℕ} {event : BridgeEvent} (here : log.At transaction index)
    (decoded : log.decode sha256 chainId = some event) :
    index < 2 ^ 32 ∧ event.txHash = replayKey sha256 (positionBytes transaction.toList index) := by
  simp only [EthLog.decode, Option.bind_eq_bind, Option.bind_eq_some_iff, Option.pure_def,
    Option.some.injEq] at decoded
  obtain ⟨bytes, hashed, _, -, _, -, _, -, made⟩ := decoded
  obtain ⟨fits, same⟩ := here.hashedBytes hashed
  refine ⟨fits, ?_⟩
  rw [← made, same]

/-! ## Solana -/

section Lines

variable {config : SolanaListenerConfig} {signature : Text}

/-- The event is that of the `bridge_fund` line at a position, of all such lines in the logs. -/
def DepositAt (config : SolanaListenerConfig) (signature : Text) (logs : List Text) (position : ℕ)
    (event : BridgeEvent) : Prop :=
  ∃ before line after, logs = before ++ line :: after ∧ isDepositLine line = true ∧
    position = before.countP isDepositLine ∧
    decodeLine config signature line position = some event

/-- The key of a line is the hash of its position. -/
theorem decodeLine_key {line : Text} {index : ℕ} {event : BridgeEvent}
    (decoded : decodeLine config signature line index = some event) :
    ∃ sigBytes, base58Decode signature = some sigBytes ∧ sigBytes.length = 64 ∧ index < 2 ^ 32 ∧
      event.txHash = replayKey config.sha256 (positionBytes sigBytes index) := by
  obtain ⟨payload, -, decoded⟩ := Option.bind_eq_some_iff.mp decoded
  split at decoded
  · split at decoded
    · cases decoded
    · split at decoded
      · cases decoded
      · obtain ⟨sigBytes, read, decoded⟩ := Option.bind_eq_some_iff.mp decoded
        split at decoded
        · cases decoded
        · next full =>
          rw [writeUInt32BE_index] at decoded
          split at decoded
          · next fits =>
            obtain ⟨indexBytes, written, made⟩ := Option.bind_eq_some_iff.mp decoded
            have key := congrArg BridgeEvent.txHash (Option.some.inj made)
            refine ⟨sigBytes, read, not_not.mp full, fits, key.symm.trans ?_⟩
            rw [positionBytes, replayKey, Option.some.inj written]
          · cases decoded
  · cases decoded

/-- Every event of some logs is that of a line. -/
theorem mem_extract {logs : List Text} {event : BridgeEvent}
    (member : event ∈ extractBridgeFundEvents config signature logs) :
    ∃ position, DepositAt config signature logs position event := by
  induction logs using List.reverseRecOn with
  | nil => exact absurd member List.not_mem_nil
  | append_singleton earlier line ih =>
      rw [extract_snoc] at member
      rcases List.mem_append.mp member with before | here
      · obtain ⟨position, front, other, back, rfl, deposit, index, decoded⟩ := ih before
        exact ⟨position, front, other, back ++ [line], by simp, deposit, index, decoded⟩
      · rw [lineEvents] at here
        split at here
        · next found =>
          exact ⟨_, earlier, line, [], rfl, found.1, rfl, Option.mem_toList.mp here⟩
        · cases here

theorem DepositAt.lt_count {logs : List Text} {position : ℕ} {event : BridgeEvent}
    (here : DepositAt config signature logs position event) :
    position < logs.countP isDepositLine := by
  obtain ⟨before, line, after, rfl, deposit, rfl, -⟩ := here
  rw [List.countP_append, List.countP_cons_of_pos deposit]
  omega

/-- There is one line at a position. -/
theorem DepositAt.unique {logs : List Text} {position : ℕ} {event event' : BridgeEvent}
    (here : DepositAt config signature logs position event)
    (here' : DepositAt config signature logs position event') : event = event' := by
  obtain ⟨before, line, after, rfl, deposit, index, decoded⟩ := here
  obtain ⟨before', line', after', same, deposit', index', decoded'⟩ := here'
  rcases List.append_eq_append_iff.mp same with ⟨between, rfl, rest⟩ | ⟨between, rfl, rest⟩
  · cases between with
    | nil =>
        obtain ⟨rfl, -⟩ := List.cons.inj rest
        exact Option.some.inj (decoded.symm.trans decoded')
    | cons first between =>
        obtain ⟨rfl, -⟩ := List.cons.inj rest
        rw [index, List.countP_append, List.countP_cons_of_pos deposit] at index'
        omega
  · cases between with
    | nil =>
        obtain ⟨rfl, -⟩ := List.cons.inj rest
        exact Option.some.inj (decoded.symm.trans decoded')
    | cons first between =>
        obtain ⟨rfl, -⟩ := List.cons.inj rest
        rw [index, List.countP_append, List.countP_cons_of_pos deposit'] at index'
        omega

end Lines

/-! ## The listener -/

section Sound

variable {config : SolanaListenerConfig}

/-- The task of a queue holds transactions of the history, and events of theirs. -/
def QueuePhase.Sound (config : SolanaListenerConfig) (finalised : List SolanaTx) :
    QueuePhase → Prop
  | .listing _ pending _ => pending ⊆ finalised
  | .listed pending page => pending ++ page ⊆ finalised
  | .replaying rest => rest ⊆ finalised
  | .fetching entry rest => entry :: rest ⊆ finalised
  | .delivering tx events rest | .awaiting tx events rest =>
      tx :: rest ⊆ finalised ∧ events ⊆ config.accepted tx
  | .starting | .rejected => True

/-- So do the notifications of every queue, and what was handed over is of the history, in which
signatures stay distinct. -/
structure SolanaListener.Sound (config : SolanaListenerConfig) (s : SolanaListener) : Prop where
  distinct : (s.finalised.map (·.signature)).Nodup
  queues : ∀ q ∈ s.queues, q.waiting ⊆ s.finalised ∧ q.phase.Sound config s.finalised
  handed : ∀ entry ∈ s.handed, ∃ tx ∈ s.finalised, entry.1 = tx.signature ∧
    entry.2 ∈ config.accepted tx

theorem QueuePhase.Sound.mono {finalised longer : List SolanaTx} {phase : QueuePhase}
    (sound : phase.Sound config finalised) (grown : finalised ⊆ longer) :
    phase.Sound config longer := by
  cases phase with
  | starting => trivial
  | listing before pending until_ => exact List.Subset.trans sound grown
  | listed pending page => exact List.Subset.trans sound grown
  | replaying rest => exact List.Subset.trans sound grown
  | fetching entry rest => exact List.Subset.trans sound grown
  | delivering tx events rest => exact ⟨List.Subset.trans sound.1 grown, sound.2⟩
  | awaiting tx events rest => exact ⟨List.Subset.trans sound.1 grown, sound.2⟩
  | rejected => trivial

theorem getSignaturesForAddress_subset (finalised : List SolanaTx) (before until_ : Option Text) :
    getSignaturesForAddress finalised before until_ ⊆ finalised := by
  intro tx member
  have older := (List.takeWhile_subset _) (List.mem_of_mem_take member)
  cases before with
  | none => exact List.mem_reverse.mp older
  | some signature =>
      exact List.mem_reverse.mp ((List.dropWhile_suffix _).subset (List.mem_of_mem_drop older))

theorem accepted_subset (tx : SolanaTx) :
    config.accepted tx ⊆ extractBridgeFundEvents config tx.signature tx.logs := by
  intro event member
  rw [SolanaListenerConfig.accepted] at member
  split at member
  · cases member
  · exact member

namespace SolanaListener

variable {s t : SolanaListener}

theorem turnPage_sound {pending page : List SolanaTx}
    (sound : pending ++ page ⊆ s.finalised) : (s.turnPage pending page).Sound config s.finalised := by
  obtain ⟨pendings, pages⟩ := List.append_subset.mp sound
  unfold SolanaListener.turnPage
  split
  · exact (List.reverse_subset ..).mpr pendings
  · split
    · next checkpointIndex _ =>
      refine (List.reverse_subset ..).mpr (List.append_subset.mpr ⟨pendings, ?_⟩)
      exact List.Subset.trans (List.take_subset ..) pages
    · split
      · exact (List.reverse_subset ..).mpr sound
      · exact sound

theorem Sound.modify (sound : s.Sound config) (queue : ℕ) {change : DeliveryQueue → DeliveryQueue}
    (kept : ∀ q, s.queues[queue]? = some q → q.waiting ⊆ s.finalised →
      q.phase.Sound config s.finalised →
      (change q).waiting ⊆ s.finalised ∧ (change q).phase.Sound config s.finalised) :
    Sound config { s with queues := s.queues.modify queue change } where
  distinct := sound.distinct
  queues q member := by
    obtain ⟨i, here⟩ := List.mem_iff_getElem?.mp member
    change (s.queues.modify queue change)[i]? = some q at here
    by_cases same : queue = i
    · subst same
      rw [List.getElem?_modify_eq] at here
      obtain ⟨before, found, rfl⟩ := Option.map_eq_some_iff.mp here
      obtain ⟨waiting, phase⟩ := sound.queues before (List.mem_of_getElem? found)
      exact kept before found waiting phase
    · rw [List.getElem?_modify_ne change s.queues same] at here
      exact sound.queues q (List.mem_of_getElem? here)
  handed := sound.handed

/-- The task of a queue may move on to what it may hold. -/
theorem Sound.advance (sound : s.Sound config) {queue : ℕ} {phase next : QueuePhase}
    {waiting : List SolanaTx} {snapshot : Option ℕ}
    (found : s.queues[queue]? = some ⟨phase, waiting, snapshot⟩)
    (onward : phase.Sound config s.finalised → next.Sound config s.finalised) :
    (s.advance queue next).Sound config := by
  refine sound.modify queue fun q here waits holds => ?_
  obtain rfl := Option.some.inj (found.symm.trans here)
  exact ⟨waits, onward holds⟩

/-- Every action keeps it: what is listed is of the history, and so is what is notified. -/
theorem step_sound {action : SolanaAction} (sound : s.Sound config)
    (taken : s.step config action = some t) : t.Sound config := by
  cases action with
  | finalise tx =>
    simp only [SolanaListener.step] at taken
    split at taken
    · cases taken
    · next fresh =>
      obtain rfl := Option.some.inj taken
      have grown : s.finalised ⊆ s.finalised ++ [tx] := List.subset_append_left ..
      refine ⟨?_, fun q member => ?_, fun entry member => ?_⟩
      · rw [List.map_append, List.map_singleton]
        refine List.nodup_append.mpr ⟨sound.distinct, List.nodup_singleton _, ?_⟩
        rintro signature known _ new rfl
        exact fresh (.inr (List.mem_singleton.mp new ▸ known))
      · obtain ⟨waiting, phase⟩ := sound.queues q member
        exact ⟨List.Subset.trans waiting grown, phase.mono grown⟩
      · obtain ⟨other, known, facts⟩ := sound.handed entry member
        exact ⟨other, grown known, facts⟩
  | connect =>
    simp only [SolanaListener.step] at taken
    split at taken
    · obtain rfl := Option.some.inj taken
      exact ⟨sound.distinct, sound.queues, sound.handed⟩
    · cases taken
  | opened =>
    simp only [SolanaListener.step] at taken
    split at taken
    · obtain rfl := Option.some.inj taken
      refine ⟨sound.distinct, fun q member => ?_, sound.handed⟩
      rcases List.mem_append.mp member with before | new
      · exact sound.queues q before
      · obtain rfl := List.mem_singleton.mp new
        exact ⟨List.nil_subset _, trivial⟩
    · cases taken
  | activated =>
    simp only [SolanaListener.step] at taken
    split at taken
    · obtain rfl := Option.some.inj taken
      exact ⟨sound.distinct, sound.queues, sound.handed⟩
    · cases taken
  | message =>
    simp only [SolanaListener.step] at taken
    split at taken
    · next activated next _ =>
      obtain ⟨tx, here, rfl⟩ := Option.map_eq_some_iff.mp taken
      have chained : Sound config { s with
          queues := s.queues.modify s.deliveryQueue fun q =>
            { q with waiting := q.waiting ++ [tx] } } := by
        refine sound.modify s.deliveryQueue fun q _ waits holds => ⟨?_, holds⟩
        exact List.append_subset.mpr
          ⟨waits, List.cons_subset.mpr ⟨List.mem_of_getElem? here, List.nil_subset _⟩⟩
      exact ⟨chained.distinct, chained.queues, chained.handed⟩
    · cases taken
  | drop =>
    obtain rfl := Option.some.inj taken
    exact ⟨sound.distinct, sound.queues, sound.handed⟩
  | backfill queue =>
    simp only [SolanaListener.step] at taken
    split at taken
    · next found =>
      obtain rfl := Option.some.inj taken
      refine sound.advance found fun _ => ?_
      unfold SolanaListener.backfill
      split
      · exact List.nil_subset _
      · exact List.nil_subset _
      · exact List.nil_subset _
    · cases taken
  | serve queue =>
    simp only [SolanaListener.step] at taken
    split at taken
    · next before pending until_ _ _ found =>
      obtain rfl := Option.some.inj taken
      refine sound.modify queue fun q here waits holds => ⟨waits, ?_⟩
      obtain rfl := Option.some.inj (found.symm.trans here)
      exact List.append_subset.mpr ⟨holds, getSignaturesForAddress_subset ..⟩
    · cases taken
  | page queue =>
    simp only [SolanaListener.step] at taken
    split at taken
    · next found =>
      obtain rfl := Option.some.inj taken
      exact sound.advance found turnPage_sound
    · cases taken
  | replay queue =>
    simp only [SolanaListener.step] at taken
    split at taken
    · next found =>
      split at taken
      · obtain rfl := Option.some.inj taken
        exact sound.advance found fun holds => ⟨holds, List.nil_subset _⟩
      · obtain rfl := Option.some.inj taken
        exact sound.advance found fun holds => holds
    · cases taken
  | fetched queue =>
    simp only [SolanaListener.step] at taken
    split at taken
    · next found =>
      obtain rfl := Option.some.inj taken
      exact sound.advance found fun holds => ⟨holds, List.Subset.refl _⟩
    · cases taken
  | notify queue =>
    simp only [SolanaListener.step] at taken
    split at taken
    · next tx waiting _ found =>
      obtain rfl := Option.some.inj taken
      refine sound.modify queue fun q here waits _ => ?_
      obtain rfl := Option.some.inj (found.symm.trans here)
      obtain ⟨known, later⟩ := List.cons_subset.mp waits
      exact ⟨later, List.cons_subset.mpr ⟨known, List.nil_subset _⟩, List.Subset.refl _⟩
    · cases taken
  | hand queue =>
    simp only [SolanaListener.step] at taken
    split at taken
    · next tx event events rest _ _ found =>
      obtain rfl := Option.some.inj taken
      obtain ⟨-, known, accepted⟩ := sound.queues _ (List.mem_of_getElem? found)
      have moved : (s.advance queue (.awaiting tx events rest)).Sound config :=
        sound.advance found fun holds => ⟨holds.1, (List.cons_subset.mp holds.2).2⟩
      refine ⟨moved.distinct, moved.queues, fun entry member => ?_⟩
      rcases List.mem_append.mp member with before | new
      · exact sound.handed entry before
      · obtain rfl := List.mem_singleton.mp new
        exact ⟨tx, known List.mem_cons_self, rfl, accepted List.mem_cons_self⟩
    · cases taken
  | handled queue =>
    simp only [SolanaListener.step] at taken
    split at taken
    · next found =>
      obtain rfl := Option.some.inj taken
      exact sound.advance found fun holds => holds
    · cases taken
  | record queue =>
    simp only [SolanaListener.step] at taken
    split at taken
    · next tx rest _ _ found =>
      obtain rfl := Option.some.inj taken
      have moved : (s.advance queue (.replaying rest)).Sound config :=
        sound.advance found fun holds => (List.cons_subset.mp holds.1).2
      exact ⟨moved.distinct, moved.queues, moved.handed⟩
    · cases taken
  | fail queue =>
    simp only [SolanaListener.step] at taken
    split at taken
    · next failing =>
      obtain rfl := Option.some.inj taken
      obtain ⟨q, found, -⟩ := (Option.any_eq_true ..).mp failing
      exact sound.advance found fun _ => trivial
    · cases taken
  | restart =>
    obtain rfl := Option.some.inj taken
    exact ⟨sound.distinct, fun q member => absurd member List.not_mem_nil, sound.handed⟩

theorem start_sound {signatureStore : Option Text} {finalised : List SolanaTx}
    (distinct : (finalised.map (·.signature)).Nodup) :
    (start signatureStore finalised).Sound config :=
  ⟨distinct, fun _ member => absurd member List.not_mem_nil,
    fun _ member => absurd member List.not_mem_nil⟩

/-- In every run, what was handed over is a deposit that a finalised transaction logged. -/
theorem run_sound {signatureStore : Option Text} {finalised : List SolanaTx}
    {labels : List (Occurrence SolanaListener SolanaAction)}
    (distinct : (finalised.map (·.signature)).Nodup)
    (run : Run (Occurs (SolanaListener.step config)) (start signatureStore finalised) labels t) :
    t.Sound config := by
  have all : ∀ label ∈ labels, (fun _ : Occurrence SolanaListener SolanaAction => True) label :=
    fun _ _ => trivial
  exact run.kept (fun _ _ _ sound _ taken => step_sound sound taken) all (start_sound distinct)

end SolanaListener

end Sound

/-! ## Deposits have keys of their own -/

/-- What the key of a `bridge_fund` line is the hash of. -/
def depositBytes (signature : Text) (position : ℕ) : List UInt8 :=
  positionBytes ((base58Decode signature).getD []) position

section Keys

variable {config : SolanaListenerConfig} {hashed : Set (List UInt8)}

theorem DepositAt.key {signature : Text} {logs : List Text} {position : ℕ} {event : BridgeEvent}
    (here : DepositAt config signature logs position event) :
    ∃ sigBytes, base58Decode signature = some sigBytes ∧ sigBytes.length = 64 ∧
      position < 2 ^ 32 ∧ event.txHash = replayKey config.sha256 (depositBytes signature position) := by
  obtain ⟨_, line, _, -, -, -, decoded⟩ := here
  obtain ⟨sigBytes, read, full, fits, key⟩ := decodeLine_key decoded
  refine ⟨sigBytes, read, full, fits, ?_⟩
  rw [key, depositBytes, read, Option.getD_some]

theorem eth_keys {log log' : EthLog} {transaction transaction' : BytesN 32} {index index' : ℕ}
    {chainId chainId' : Number} {event event' : BridgeEvent}
    (unique : Set.InjOn config.sha256 hashed)
    (here : log.At transaction index) (here' : log'.At transaction' index')
    (decoded : log.decode config.sha256 chainId = some event)
    (decoded' : log'.decode config.sha256 chainId' = some event')
    (known : positionBytes transaction.toList index ∈ hashed)
    (known' : positionBytes transaction'.toList index' ∈ hashed) :
    event.txHash = event'.txHash ↔ transaction = transaction' ∧ index = index' := by
  obtain ⟨fits, key⟩ := here.decode_key decoded
  obtain ⟨fits', key'⟩ := here'.decode_key decoded'
  constructor
  · intro same
    rw [key, key'] at same
    obtain ⟨transactions, indices⟩ :=
      positionBytes_inj fits fits' (replayKey_inj unique known known' same)
    exact ⟨BytesN.toList_injective transactions, indices⟩
  · rintro ⟨rfl, rfl⟩
    rw [key, key']

theorem solana_keys {signature signature' : Text} {logs logs' : List Text} {position position' : ℕ}
    {event event' : BridgeEvent} (unique : Set.InjOn config.sha256 hashed)
    (here : DepositAt config signature logs position event)
    (here' : DepositAt config signature' logs' position' event')
    (known : depositBytes signature position ∈ hashed)
    (known' : depositBytes signature' position' ∈ hashed) :
    event.txHash = event'.txHash ↔ signature = signature' ∧ position = position' := by
  obtain ⟨sigBytes, read, -, fits, key⟩ := here.key
  obtain ⟨sigBytes', read', -, fits', key'⟩ := here'.key
  constructor
  · intro same
    rw [key, key'] at same
    have bytes := replayKey_inj unique known known' same
    rw [depositBytes, depositBytes, read, read', Option.getD_some, Option.getD_some] at bytes
    obtain ⟨rfl, positions⟩ := positionBytes_inj fits fits' bytes
    exact ⟨base58Decode_inj read read', positions⟩
  · rintro ⟨rfl, rfl⟩
    rw [key, key']

/-- A deposit on Ethereum and one on Solana have different keys. -/
theorem eth_solana_keys {log : EthLog} {transaction : BytesN 32} {index position : ℕ}
    {chainId : Number} {signature : Text} {logs : List Text} {event event' : BridgeEvent}
    (unique : Set.InjOn config.sha256 hashed) (here : log.At transaction index)
    (decoded : log.decode config.sha256 chainId = some event)
    (here' : DepositAt config signature logs position event')
    (known : positionBytes transaction.toList index ∈ hashed)
    (known' : depositBytes signature position ∈ hashed) : event.txHash ≠ event'.txHash := by
  intro same
  obtain ⟨-, key⟩ := here.decode_key decoded
  obtain ⟨sigBytes, read, full, -, key'⟩ := here'.key
  rw [key, key'] at same
  have lengths := congrArg List.length (replayKey_inj unique known known' same)
  rw [depositBytes, read, Option.getD_some] at lengths
  simp [positionBytes, full] at lengths

/-- What was handed over is the deposit at a position of a finalised transaction. -/
structure SolanaListener.Tells (config : SolanaListenerConfig) (s : SolanaListener)
    (entry : Text × BridgeEvent) (tx : SolanaTx) (position : ℕ) : Prop where
  finalised : tx ∈ s.finalised
  signature : entry.1 = tx.signature
  deposit : DepositAt config tx.signature tx.logs position entry.2

theorem SolanaListener.Sound.tells {s : SolanaListener} (sound : s.Sound config)
    {entry : Text × BridgeEvent} (member : entry ∈ s.handed) :
    ∃ tx position, s.Tells config entry tx position := by
  obtain ⟨tx, known, same, accepted⟩ := sound.handed entry member
  obtain ⟨position, here⟩ := mem_extract (accepted_subset tx accepted)
  exact ⟨tx, position, known, same, here⟩

theorem SolanaListener.Sound.same_tx {s : SolanaListener} (sound : s.Sound config)
    {tx tx' : SolanaTx} (known : tx ∈ s.finalised) (known' : tx' ∈ s.finalised)
    (same : tx.signature = tx'.signature) : tx = tx' :=
  List.inj_on_of_nodup_map sound.distinct known known' same

theorem SolanaListener.Tells.keys {s : SolanaListener} {entry entry' : Text × BridgeEvent}
    {tx tx' : SolanaTx} {position position' : ℕ} (unique : Set.InjOn config.sha256 hashed)
    (sound : s.Sound config)
    (known : ∀ tx ∈ s.finalised, ∀ position event,
      DepositAt config tx.signature tx.logs position event →
        depositBytes tx.signature position ∈ hashed)
    (told : s.Tells config entry tx position) (told' : s.Tells config entry' tx' position') :
    (entry.2.txHash = entry'.2.txHash ↔ tx = tx' ∧ position = position') ∧
      (entry.2.txHash = entry'.2.txHash → entry = entry') := by
  have apart := solana_keys unique told.deposit told'.deposit
    (known tx told.finalised position _ told.deposit)
    (known tx' told'.finalised position' _ told'.deposit)
  have positions : entry.2.txHash = entry'.2.txHash → tx = tx' ∧ position = position' := by
    intro same
    obtain ⟨signatures, positions⟩ := apart.mp same
    exact ⟨sound.same_tx told.finalised told'.finalised signatures, positions⟩
  refine ⟨⟨positions, ?_⟩, ?_⟩
  · rintro ⟨rfl, rfl⟩
    exact apart.mpr ⟨rfl, rfl⟩
  · intro same
    obtain ⟨rfl, rfl⟩ := positions same
    exact Prod.ext (told.signature.trans told'.signature.symm)
      (told.deposit.unique told'.deposit)

end Keys

/-- The key of a deposit tells its position: on Ethereum the transaction and the index of the log,
on Solana the transaction and the position of the line. Whatever a Solana listener hands over, in a
run with backfills and notifications in any order, is the deposit at a position, and the same
deposit whenever the key is the same. The hash is injective on the positions in question. -/
theorem replay_keys {config : SolanaListenerConfig} {hashed : Set (List UInt8)}
    (unique : Set.InjOn config.sha256 hashed) :
    (∀ (log log' : EthLog) (transaction transaction' : BytesN 32) (index index' : ℕ)
        (chainId chainId' : Number) (event event' : BridgeEvent),
      log.At transaction index → log'.At transaction' index' →
      log.decode config.sha256 chainId = some event →
      log'.decode config.sha256 chainId' = some event' →
      positionBytes transaction.toList index ∈ hashed →
      positionBytes transaction'.toList index' ∈ hashed →
        (event.txHash = event'.txHash ↔ transaction = transaction' ∧ index = index')) ∧
    (∀ (signature signature' : Text) (logs logs' : List Text) (position position' : ℕ)
        (event event' : BridgeEvent),
      DepositAt config signature logs position event →
      DepositAt config signature' logs' position' event' →
      depositBytes signature position ∈ hashed → depositBytes signature' position' ∈ hashed →
        (event.txHash = event'.txHash ↔ signature = signature' ∧ position = position')) ∧
    (∀ (log : EthLog) (transaction : BytesN 32) (index position : ℕ) (chainId : Number)
        (signature : Text) (logs : List Text) (event event' : BridgeEvent),
      log.At transaction index → log.decode config.sha256 chainId = some event →
      DepositAt config signature logs position event' →
      positionBytes transaction.toList index ∈ hashed → depositBytes signature position ∈ hashed →
        event.txHash ≠ event'.txHash) ∧
    ∀ (signatureStore : Option Text) (finalised : List SolanaTx)
        (labels : List (Occurrence SolanaListener SolanaAction)) (t : SolanaListener),
      (finalised.map (·.signature)).Nodup →
      Run (Occurs (SolanaListener.step config)) (SolanaListener.start signatureStore finalised)
        labels t →
      (∀ tx ∈ t.finalised, ∀ position event,
        DepositAt config tx.signature tx.logs position event →
          depositBytes tx.signature position ∈ hashed) →
      (∀ entry ∈ t.handed, ∃ tx position, t.Tells config entry tx position) ∧
      ∀ entry entry' tx tx' position position',
        t.Tells config entry tx position → t.Tells config entry' tx' position' →
          (entry.2.txHash = entry'.2.txHash ↔ tx = tx' ∧ position = position') ∧
          (entry.2.txHash = entry'.2.txHash → entry = entry') := by
  refine ⟨?_, ?_, ?_, ?_⟩
  · intro log log' transaction transaction' index index' chainId chainId' event event'
    exact eth_keys unique
  · intro signature signature' logs logs' position position' event event'
    exact solana_keys unique
  · intro log transaction index position chainId signature logs event event'
    exact eth_solana_keys unique
  · intro signatureStore finalised labels t distinct run known
    have sound := SolanaListener.run_sound distinct run
    refine ⟨fun entry => sound.tells, ?_⟩
    intro entry entry' tx tx' position position'
    exact SolanaListener.Tells.keys unique sound known

namespace Rehearsal

/-- The data of a log: a target, an asset and an amount. -/
def logData : Text :=
  "0x".toList ++
  "0000000000000000000000000000000000000000000000000000000000000060".toList ++
  "00000000000000000000000000000000000000000000000000000000000000a0".toList ++
  "0000000000000000000000000000000000000000000000000000000000000005".toList ++
  "0000000000000000000000000000000000000000000000000000000000000001".toList ++
  "5400000000000000000000000000000000000000000000000000000000000000".toList ++
  "0000000000000000000000000000000000000000000000000000000000000001".toList ++
  "4100000000000000000000000000000000000000000000000000000000000000".toList

def logTransaction : BytesN 32 :=
  0xabababababababababababababababababababababababababababababababab

/-- Logs of one transaction. -/
def logAt (index : Text) : EthLog where
  transactionHash := some ('0' :: 'x' :: hexText logTransaction.toList)
  logIndex := .text index
  data := some logData

/-- A transaction that logs two deposits. -/
def doubleTx : SolanaTx where
  signature := zeroSignature
  failed := false
  logs := linesOf [
    .invoke bridgeProgram 1, .message .log "bridge_fund:T:A:5".toList,
    .message .log "bridge_fund:T:A:5".toList, .success bridgeProgram]

/-- The positions of the logs and of the deposits, with their hashes. -/
def digests : List (List UInt8 × BytesN 32) := [
  (positionBytes logTransaction.toList 0,
    0x53a4a6e0391a5c8b78798df206bbf76449f7b794cd2497ebe789abbea1dece94),
  (positionBytes logTransaction.toList 1,
    0x2d2f0cb98836aad4705ea58d4ad4ce4ded21c949344a1099b71bdabf875cb2ca),
  (positionBytes (List.replicate 64 0) 0,
    0x1751ac12e70e15b4f76c16775cd329ae55973b612521dab2de828a5cdb6c8ab3),
  (positionBytes (List.replicate 64 0) 1,
    0x2b78a138c485781c6246f49e88ae0f656102e032d7d0b074a395522fd5a4beba)]

def digesting : SolanaListenerConfig where
  programId := bridgeProgram.text
  chainId := .integer 101
  sha256 bytes := (digests.lookup bytes).getD 0

/-- The first deposit comes in as a notification and the listener restarts, which replays both. -/
def toldTwice : List SolanaAction :=
  [.connect, .opened, .backfill 0, .serve 0, .page 0, .activated, .finalise doubleTx, .message,
    .notify 0, .hand 0, .restart, .connect, .opened, .backfill 0, .serve 0, .page 0, .replay 0,
    .fetched 0, .hand 0, .handled 0, .hand 0]

theorem digests_distinct :
    Set.InjOn digesting.sha256 {bytes | bytes ∈ digests.map (·.1)} := by
  have distinct : ∀ bytes ∈ digests.map (·.1), ∀ bytes' ∈ digests.map (·.1),
      digesting.sha256 bytes = digesting.sha256 bytes' → bytes = bytes' := by
    decide +kernel
  exact fun bytes member bytes' member' => distinct bytes member bytes' member'

theorem logAt_at {index : ℕ} {text : Text} (parsed : parseHex text = some (index : ℤ)) :
    (logAt text).At logTransaction index where
  hash := ⟨_, rfl, hexBytes_hexText _⟩
  position := by
    rw [logAt, LogIndex.toNumber, parsed, Option.map_some, Int.cast_natCast]

end Rehearsal

open Rehearsal in
theorem replay_keys_rehearsed :
    (∀ event event', (logAt "0x0".toList).decode digesting.sha256 (.integer 1) = some event →
      (logAt "0x1".toList).decode digesting.sha256 (.integer 1) = some event' →
        event.txHash ≠ event'.txHash) ∧
    ((logAt "0x0".toList).decode digesting.sha256 (.integer 1)).isSome ∧
    ((logAt "0x1".toList).decode digesting.sha256 (.integer 1)).isSome ∧
    ∃ t, perform (SolanaListener.step digesting)
        (SolanaListener.start (some recordedTx.signature) [recordedTx]) toldTwice = some t ∧
      t.handed.length = 3 ∧ ∀ entry ∈ t.handed, ∃ tx position, t.Tells digesting entry tx position := by
  obtain ⟨t, performed, facts⟩ := perform_any
    (p := fun t => t.handed.length = 3 ∧ t.finalised = [recordedTx, doubleTx])
    (by decide +kernel : (perform (SolanaListener.step digesting)
      (SolanaListener.start (some recordedTx.signature) [recordedTx]) toldTwice).any _ = true)
  obtain ⟨handed, finalised⟩ := of_decide_eq_true facts
  obtain ⟨ethereum, -, -, solana⟩ := replay_keys digests_distinct
  refine ⟨fun event event' decoded decoded' same => ?_, by decide +kernel, by decide +kernel,
    t, performed, handed, ?_⟩
  · have apart := (ethereum _ _ _ _ 0 1 _ _ event event' (logAt_at (by decide +kernel))
      (logAt_at (by decide +kernel)) decoded decoded' List.mem_cons_self
      (List.mem_cons_of_mem _ List.mem_cons_self)).mp same
    exact absurd apart.2 (by decide)
  · refine (solana _ _ _ t (by decide) (perform_run performed) fun tx member position event here =>
      ?_).1
    rw [finalised] at member
    have below := here.lt_count
    rcases List.mem_cons.mp member with rfl | member
    · exact absurd below (Nat.not_lt_zero _)
    · obtain rfl := List.mem_singleton.mp member
      have two : doubleTx.logs.countP isDepositLine = 2 := by decide +kernel
      rw [two] at below
      have positions : ∀ position < 2,
          depositBytes doubleTx.signature position ∈ digests.map (·.1) := by decide +kernel
      exact positions position below

end OnboardingBridge.Relayer
