import OnboardingBridge.Contract.FundingEvents
import OnboardingBridge.Indexer.Subscriptions

/-!
# Funding events and subscriptions

The contract publishes a funding with the asset before the source and the target. The
indexer takes the first two topics after the name for the source and the target, labels
no asset, and knows the name of one of the four events only.

So no funding is labelled as it was made, and no subscription for its asset gets it.
-/

set_option autoImplicit false

namespace OnboardingBridge.Indexer

open Foundations Contract Relayer

/-! ## Topics of the contract -/

/-- A topic that is published: a text or an address. -/
inductive Topic where
  | text (value : String)
  | address (value : Address)

/-- The topics that a funding is published with. -/
def fundingTopics : Event → List Topic
  | .cAddressFunded asset source target .. =>
      [.text "CAddressFunded", .address asset, .address source, .address target]
  | .swapAndFunded sourceAsset targetAsset source target .. =>
      [.text "SwapAndFunded", .address sourceAsset, .address targetAsset, .address source,
        .address target]
  | .commitRevealFunded asset source target .. =>
      [.text "CommitRevealFunded", .address asset, .address source, .address target]
  | .metaFundExecuted asset source target .. =>
      [.text "MetaFundExecuted", .address asset, .address source, .address target]
  | _ => []

def addressXdr : Address → List UInt8
  | .account publicKey => bigEndian 4 0 ++ (bigEndian 4 0 ++ publicKey.toList)
  | .contract contractId => bigEndian 4 1 ++ contractId.toList

/-- Bytes with their length, filled up to a multiple of four. -/
def opaqueXdr (bytes : List UInt8) : List UInt8 :=
  bigEndian 4 bytes.length ++ (bytes ++ List.replicate ((4 - bytes.length % 4) % 4) 0)

/-- The encoding of a topic, with the kind of its value when it is a text. -/
def Topic.xdr (kind : ℕ) : Topic → List UInt8
  | .text value => bigEndian 4 kind ++ opaqueXdr (utf8Bytes value)
  | .address value => bigEndian 4 18 ++ addressXdr value

/-- The RPC returns an event with the topics that it was published with, whose texts are strings or
symbols. -/
def Carries (raw : RawEvent) (event : Event) : Prop :=
  ∃ kind texts, (kind = 14 ∨ kind = 15) ∧ raw.topic = some (texts.map Json.string) ∧
    List.Forall₂ (fun (text : String) topic => base64Decode text.toList = some (Topic.xdr kind topic))
      texts (fundingTopics event)

/-- The text that the indexer makes of an address: its kind, and the next 32 bytes. -/
def addressText : Address → String
  | .account publicKey =>
      "scaddress:0:" ++ String.ofList (hexText ((bigEndian 4 0 ++ publicKey.toList).take 32))
  | .contract contractId => "scaddress:1:" ++ String.ofList (hexText contractId.toList)

/-! ## What a funding should lead to -/

/-- The parties of a funding are labelled as they are. -/
def Labels (parsed : Option IndexedEvent) (parties : Parties) : Prop :=
  ∃ indexed, parsed = some indexed ∧
    indexed.data.get "source" = some (.string (addressText parties.source)) ∧
    indexed.data.get "target" = some (.string (addressText parties.target)) ∧
    indexed.data.get "asset" = some (.string (addressText parties.asset))

/-- The filters of a subscription name the parties of a funding. -/
structure Subscription.Names (sub : Subscription) (parties : Parties) : Prop where
  asset : ∀ wanted, sub.assetFilter = some wanted → wanted = addressText parties.asset
  source : ∀ wanted, sub.sourceFilter = some wanted → wanted = addressText parties.source
  target : ∀ wanted, sub.targetFilter = some wanted → wanted = addressText parties.target

/-- An active subscription to all types of events is for a funding when its filters name the
parties. -/
def Filters (parsed : Option IndexedEvent) (parties : Parties) : Prop :=
  ∀ sub : Subscription, sub.active = true → sub.eventType = none →
    ((∃ indexed, parsed = some indexed ∧ sub.For indexed) ↔ sub.Names parties)

/-! ## Reading what was encoded -/

section Reading

theorem getRange_append (before part rest : List UInt8) :
    getRange (before ++ (part ++ rest)) before.length (before.length + part.length) =
      some part := by
  rw [getRange, if_pos (by simp)]
  simp [List.take_append]

theorem readBytes_append (before part rest : List UInt8) :
    readBytes (before ++ (part ++ rest)) before.length part.length =
      .ok (part, before.length + part.length) := by
  rw [readBytes, getRange_append]

theorem readU32_append (before rest : List UInt8) {value : ℕ} (bound : value < 256 ^ 4) :
    readU32 (before ++ (bigEndian 4 value ++ rest)) before.length =
      .ok (value, before.length + 4) := by
  have found := getRange_append before (bigEndian 4 value) rest
  rw [length_bigEndian] at found
  rw [readU32, found]
  simp only [ofBigEndian_bigEndian bound]

theorem readOpaque_append (before bytes rest : List UInt8) (bound : bytes.length < 256 ^ 4) :
    ∃ last, readOpaque (before ++ (opaqueXdr bytes ++ rest)) before.length = .ok (bytes, last) := by
  let padding : List UInt8 := List.replicate ((4 - bytes.length % 4) % 4) 0
  have whole : before ++ (opaqueXdr bytes ++ rest) =
      before ++ (bigEndian 4 bytes.length ++ (bytes ++ (padding ++ rest))) := by
    simp [opaqueXdr, padding]
  have count := readU32_append before (bytes ++ (padding ++ rest)) bound
  have text := readBytes_append (before ++ bigEndian 4 bytes.length) bytes (padding ++ rest)
  have zeros := readBytes_append (before ++ bigEndian 4 bytes.length ++ bytes) padding rest
  simp only [List.append_assoc, List.length_append, length_bigEndian] at text zeros
  have width : padding.length = (4 - bytes.length % 4) % 4 := List.length_replicate
  rw [width] at zeros
  refine ⟨before.length + 4 + bytes.length + (4 - bytes.length % 4) % 4, ?_⟩
  rw [whole, readOpaque, count]
  simp only [bind, Except.bind, pure, Except.pure]
  rw [text]
  simp only
  rw [← Nat.add_assoc] at zeros
  rw [zeros]

theorem fromUTF8_utf8Bytes (text : String) :
    String.fromUTF8? ⟨(utf8Bytes text).toArray⟩ = some text := by
  have same : (⟨(utf8Bytes text).toArray⟩ : ByteArray) = text.toByteArray := by
    simp [utf8Bytes]
  rw [same, String.fromUTF8?, dif_pos text.isValidUTF8]
  rfl

theorem readU32_first {kind : ℕ} (bound : kind < 256 ^ 4) (rest : List UInt8) :
    readU32 (bigEndian 4 kind ++ rest) 0 = .ok (kind, 4) :=
  readU32_append [] rest bound

/-- A text is read back. -/
theorem decodeScval_text {kind : ℕ} (known : kind = 14 ∨ kind = 15) {text : String}
    (short : (utf8Bytes text).length < 256 ^ 4) :
    decodeScval ((Topic.text text).xdr kind) = .ok (.string text) := by
  have bound : kind < 256 ^ 4 := by omega
  obtain ⟨last, opened⟩ := readOpaque_append (bigEndian 4 kind) (utf8Bytes text) [] short
  rw [List.append_nil, length_bigEndian] at opened
  have long : ¬ (bigEndian 4 kind ++ opaqueXdr (utf8Bytes text)).length < 4 := by
    simp [length_bigEndian]
  rw [Topic.xdr, decodeScval, if_neg long, readU32_first bound]
  rcases known with rfl | rfl
  all_goals
    simp only [bind, Except.bind, pure, Except.pure]
    rw [opened]
    simp only [fromUTF8_utf8Bytes]

/-- Of an address, the kind and the next 32 bytes are read. -/
theorem decodeScval_ofKind {nature : ℕ} (bound : nature < 256 ^ 4) {body : List UInt8}
    (long : 32 ≤ body.length) :
    decodeScval (bigEndian 4 18 ++ (bigEndian 4 nature ++ body)) =
      .ok (.string
        ("scaddress:" ++ toString nature ++ ":" ++ String.ofList (hexText (body.take 32)))) := by
  have starts := readU32_append (bigEndian 4 18) body bound
  have key := readBytes_append (bigEndian 4 18 ++ bigEndian 4 nature) (body.take 32) (body.drop 32)
  rw [List.take_append_drop, List.append_assoc, List.length_append, length_bigEndian,
    length_bigEndian, List.length_take, Nat.min_eq_left long] at key
  rw [length_bigEndian] at starts
  rw [decodeScval, if_neg (by simp [length_bigEndian]), readU32_first (by omega)]
  simp only [bind, Except.bind, pure, Except.pure]
  rw [starts]
  simp only
  rw [key]

/-- An address is read to its text. -/
theorem decodeScval_address (kind : ℕ) (address : Address) :
    decodeScval ((Topic.address address).xdr kind) = .ok (.string (addressText address)) := by
  cases address with
  | account publicKey =>
    exact decodeScval_ofKind (by omega) (by simp [BytesN.toList, length_bigEndian])
  | contract contractId =>
    have width : contractId.toList.length = 32 := length_bigEndian ..
    have read := @decodeScval_ofKind 1 (by omega) _ width.ge
    rw [List.take_of_length_le width.le] at read
    exact read

end Reading

/-! ## What the indexer makes of a funding -/

section Labelling

/-- What is read of a topic. -/
def Topic.json : Topic → Json
  | .text value => .string value
  | .address value => .string (addressText value)

theorem decodeRpcScval_topic {kind : ℕ} (known : kind = 14 ∨ kind = 15) {text : String}
    {topic : Topic} (carried : base64Decode text.toList = some (topic.xdr kind))
    (short : ∀ value, topic = .text value → (utf8Bytes value).length < 256 ^ 4) :
    decodeRpcScval (.string text) = topic.json := by
  rw [decodeRpcScval, carried]
  cases topic with
  | text value => simp only [decodeScval_text known (short value rfl), Topic.json]
  | address value => simp only [decodeScval_address, Topic.json]

/-- The names of the events are short. -/
theorem fundingTopics_short {event : Event} {value : String}
    (member : Topic.text value ∈ fundingTopics event) : (utf8Bytes value).length < 256 ^ 4 := by
  have names : value ∈
      ["CAddressFunded", "SwapAndFunded", "CommitRevealFunded", "MetaFundExecuted"] := by
    cases event <;> simp_all [fundingTopics]
  have checked : ∀ name ∈
      ["CAddressFunded", "SwapAndFunded", "CommitRevealFunded", "MetaFundExecuted"],
      (utf8Bytes name).length < 256 ^ 4 := by
    decide +kernel
  exact checked value names

theorem decodeRpcScval_topics {kind : ℕ} (known : kind = 14 ∨ kind = 15) {texts : List String}
    {topics : List Topic}
    (carried : List.Forall₂ (fun (text : String) topic =>
      base64Decode text.toList = some (Topic.xdr kind topic)) texts topics)
    (short : ∀ value, Topic.text value ∈ topics → (utf8Bytes value).length < 256 ^ 4) :
    (texts.map Json.string).map decodeRpcScval = topics.map Topic.json := by
  induction carried with
  | nil => rfl
  | cons first _ ih =>
      have here := decodeRpcScval_topic known first fun value same =>
        short value (same ▸ List.mem_cons_self)
      have later := ih fun value member => short value (List.mem_cons_of_mem _ member)
      rw [List.map_cons, List.map_cons, List.map_cons, here, later]

theorem Carries.decodedTopics {raw : RawEvent} {event : Event} (carries : Carries raw event)
    (named : fundingTopics event ≠ []) :
    raw.decodedTopics = some ((fundingTopics event).map Topic.json) := by
  obtain ⟨kind, texts, known, listed, carried⟩ := carries
  have read := decodeRpcScval_topics known carried fun _ => fundingTopics_short
  have filled : (texts.map Json.string).isEmpty = false := by
    refine List.isEmpty_eq_false_iff.mpr fun none => named ?_
    rw [none] at read
    exact List.map_eq_nil_iff.mp read.symm
  simp only [RawEvent.decodedTopics, listed, Option.bind_eq_bind, Option.bind_some, filled,
    Bool.false_eq_true, if_false, read]

section Parsing

variable {sha256 : List UInt8 → BytesN 32} {now contractId : String} {index : ℕ} {raw : RawEvent}

/-- A funding by `fund_c_address` is labelled with the asset as its source and the source as its
target. -/
theorem parse_cAddressFunded {asset source target : Address} {amount fee : I128}
    (carries : Carries raw (.cAddressFunded asset source target amount fee)) :
    ∃ indexed, parseContractEvent sha256 now contractId raw index = some indexed ∧
      indexed.data.get "source" = some (.string (addressText asset)) ∧
      indexed.data.get "target" = some (.string (addressText source)) ∧
      indexed.data.get "asset" = none := by
  have topics := carries.decodedTopics (by simp [fundingTopics])
  simp only [parseContractEvent, topics, Option.bind_eq_bind, Option.bind_some]
  refine ⟨_, rfl, ?_, ?_, ?_⟩
  all_goals cases raw.value
  all_goals rfl

/-- An event whose name is not known is left out. -/
theorem parse_unknown {event : Event} {name : String} {rest : List Topic}
    (carries : Carries raw event) (topics : fundingTopics event = .text name :: rest)
    (unknown : BridgeEventType.fromTopic name = none) :
    parseContractEvent sha256 now contractId raw index = none := by
  have decoded := carries.decodedTopics (by simp [topics])
  have first : firstTopicOf ((fundingTopics event).map Topic.json) = name := by
    rw [topics]
    rfl
  simp only [parseContractEvent, decoded, Option.bind_eq_bind, Option.bind_some, first, unknown,
    Option.bind_none]

/-- No funding that is indexed has its asset labelled. -/
theorem parse_funding {event : Event} {parties : Parties} {indexed : IndexedEvent}
    (carries : Carries raw event) (named : event.parties = some parties)
    (parsed : parseContractEvent sha256 now contractId raw index = some indexed) :
    indexed.data.get "asset" = none := by
  have left_out {name : String} {rest : List Topic}
      (topics : fundingTopics event = .text name :: rest)
      (unknown : BridgeEventType.fromTopic name = none) : indexed.data.get "asset" = none := by
    rw [parse_unknown carries topics unknown] at parsed
    contradiction
  cases event
  case cAddressFunded asset source target amount fee =>
    obtain ⟨labelled, found, -, -, unlabelled⟩ := parse_cAddressFunded carries
    obtain rfl := Option.some.inj (found.symm.trans parsed)
    exact unlabelled
  case swapAndFunded => exact left_out rfl rfl
  case commitRevealFunded => exact left_out rfl rfl
  case metaFundExecuted => exact left_out rfl rfl
  all_goals cases named

theorem not_labels {event : Event} {parties : Parties} (carries : Carries raw event)
    (named : event.parties = some parties) :
    ¬ Labels (parseContractEvent sha256 now contractId raw index) parties := by
  rintro ⟨indexed, parsed, -, -, labelled⟩
  rw [parse_funding carries named parsed] at labelled
  contradiction

/-- An active subscription to the fundings with an asset. -/
def assetSubscription (asset : Address) : Subscription where
  id := "asset"
  url := "https://example.org"
  eventType := none
  assetFilter := some (addressText asset)
  sourceFilter := none
  targetFilter := none
  active := true
  secret := ""
  createdAt := 0

theorem not_filters {event : Event} {parties : Parties} (carries : Carries raw event)
    (named : event.parties = some parties) :
    ¬ Filters (parseContractEvent sha256 now contractId raw index) parties := by
  intro filters
  have wanted : (assetSubscription parties.asset).Names parties :=
    ⟨fun _ same => (Option.some.inj same).symm, nofun, nofun⟩
  obtain ⟨indexed, parsed, queued⟩ := (filters (assetSubscription parties.asset) rfl rfl).mpr wanted
  have labelled := queued.asset (addressText parties.asset) rfl
  rw [parse_funding carries named parsed] at labelled
  contradiction

end Parsing

end Labelling

/-! ## Fundings and their subscribers -/

/-- A successful call announces every funding that it asks for, and however its announcement is
returned by the RPC, the indexer neither labels the parties nor queues it for the subscriptions
that it is for. -/
theorem funding_unlabelled {env : Env} {request : Request} {start final : World} {reply : Reply}
    {parties : Parties} (asked : parties ∈ request.fundings start.begin)
    (ran : (execute env request).run start.begin = .ok (reply, final)) :
    (∃ event ∈ final.events, event.parties = some parties) ∧
      ∀ event ∈ final.events, event.parties = some parties → ∀ raw, Carries raw event →
        ∀ sha256 now contractId index,
          ¬ Labels (parseContractEvent sha256 now contractId raw index) parties ∧
          ¬ Filters (parseContractEvent sha256 now contractId raw index) parties := by
  have announced := execute_announcing asked (fun _ _ => rfl) ran
  refine ⟨announced, fun event _ named raw carries sha256 now contractId index => ?_⟩
  exact ⟨not_labels carries named, not_filters carries named⟩

namespace Rehearsal

open Contract.Rehearsal

/-- The asset, the source and the target of a funding are contracts. -/
def parties : Parties := ⟨.contract 3, .contract 4, .contract 5⟩

/-- What the RPC returns of the funding. -/
def raw : RawEvent where
  id := "0"
  ledger := some 1
  txHash := some "aa"
  topic := some ([
    "AAAADwAAAA5DQWRkcmVzc0Z1bmRlZAAA",
    "AAAAEgAAAAEAAAAAAAAAAAAAAAAAAAAAAAAAAAAAAAAAAAAAAAAAAw==",
    "AAAAEgAAAAEAAAAAAAAAAAAAAAAAAAAAAAAAAAAAAAAAAAAAAAAABA==",
    "AAAAEgAAAAEAAAAAAAAAAAAAAAAAAAAAAAAAAAAAAAAAAAAAAAAABQ=="].map Json.string)
  createdAt := none
  value := none

def event : Event :=
  .cAddressFunded parties.asset parties.source parties.target (amount 1000 thousand_small)
    (amount 10)

theorem raw_carries : Carries raw event := by
  refine ⟨15, _, .inr rfl, rfl, ?_⟩
  refine .cons ?_ (.cons ?_ (.cons ?_ (.cons ?_ .nil)))
  all_goals decide +kernel

def opening : List (UInt64 × Request) := [
  (0, .initializeContract (address 1) (address 2) 100 none), (0, .addAsset parties.asset none)]

def fund : Request :=
  .fundCAddress parties.source parties.target parties.asset (amount 1000 thousand_small) none none

/-- A source funds a target in a contract with one asset. -/
def funding : Success := attempt (env 0) fund (outcome opening)

theorem funding_succeeds : succeeds (env 0) fund (outcome opening) = true := by
  decide +kernel

theorem funding_asks : parties ∈ funding.request.fundings funding.before.begin := by
  obtain ⟨-, request, -⟩ := attempt_call (env 0) fund (outcome opening)
  rw [funding, request]
  exact List.mem_singleton.mpr rfl

/-- The parties, the amount and the fee of a funding of one target. -/
def fundedBy : Event → Option (Parties × I128 × I128)
  | .cAddressFunded asset source target amount fee => some (⟨asset, source, target⟩, amount, fee)
  | _ => none

theorem event_published : event ∈ funding.after.events := by
  have published : (parties, amount 1000, amount 10) ∈ funding.after.events.filterMap fundedBy := by
    decide +kernel
  obtain ⟨event', member, same⟩ := List.mem_filterMap.mp published
  cases event'
  all_goals simp only [fundedBy, reduceCtorEq, Option.some.injEq, Prod.mk.injEq] at same
  obtain ⟨named, rfl, rfl⟩ := same
  obtain ⟨rfl, rfl, rfl⟩ := Parties.mk.inj named
  exact member

end Rehearsal

theorem funding_unlabelled_rehearsed :
    (∃ event ∈ Rehearsal.funding.after.events, event.parties = some Rehearsal.parties) ∧
      ¬ Labels (parseContractEvent (fun _ => 0) "" "" Rehearsal.raw 0) Rehearsal.parties := by
  have told := funding_unlabelled Rehearsal.funding_asks (attempt_ran Rehearsal.funding_succeeds)
  have unlabelled := told.2 _ Rehearsal.event_published rfl _ Rehearsal.raw_carries
  exact ⟨told.1, (unlabelled (fun _ => 0) "" "" 0).1⟩

/-- The funding of a target is indexed with the asset as its source, and the subscription to the
asset does not get it. -/
theorem funding_mislabelled :
    succeeds (Contract.Rehearsal.env 0) Rehearsal.fund
        (Contract.Rehearsal.outcome Rehearsal.opening) = true ∧
      Rehearsal.event ∈ Rehearsal.funding.after.events ∧
      Rehearsal.event.parties = some Rehearsal.parties ∧
      Carries Rehearsal.raw Rehearsal.event ∧
      ∃ indexed, parseContractEvent (fun _ => 0) "" "" Rehearsal.raw 0 = some indexed ∧
        indexed.data.get "source" = some (.string (addressText Rehearsal.parties.asset)) ∧
        indexed.data.get "source" ≠ some (.string (addressText Rehearsal.parties.source)) ∧
        (assetSubscription Rehearsal.parties.asset).Names Rehearsal.parties ∧
        ¬ (assetSubscription Rehearsal.parties.asset).For indexed := by
  obtain ⟨indexed, parsed, source, -, asset⟩ := parse_cAddressFunded Rehearsal.raw_carries
  refine ⟨Rehearsal.funding_succeeds, Rehearsal.event_published, rfl, Rehearsal.raw_carries, indexed,
    parsed, source, ?_, ⟨fun _ same => (Option.some.inj same).symm, nofun, nofun⟩, ?_⟩
  · rw [source]
    intro same
    have texts := Json.string.inj (Option.some.inj same)
    revert texts
    decide +kernel
  · intro queued
    have labelled := queued.asset (addressText Rehearsal.parties.asset) rfl
    rw [asset] at labelled
    contradiction

end OnboardingBridge.Indexer
