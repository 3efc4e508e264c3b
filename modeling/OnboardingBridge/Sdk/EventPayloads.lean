import Mathlib.Data.List.Basic

/-!
# What the subscriber makes of an event

The RPC returns the topics and the value of an event as contract values, which a
library turns into native ones. The subscriber reads the known events by
position, and passes any other event on as it is. An event that it cannot read
is no payload.
-/

set_option autoImplicit false

namespace OnboardingBridge.Sdk

/-! ## Native values -/

/-- A native value, as far as the subscriber tells them apart. Of any other value only the text that
`String` makes of it matters, if it makes one. -/
inductive Native where
  | null
  | string (text : String)
  | array (items : List Native)
  | other (shown : Option String)

namespace Native

mutual

/-- `String(value)`. -/
def toText : Native → Option String
  | .null => some "null"
  | .string text => some text
  | .array items => (itemTexts items).map fun texts => ",".intercalate texts
  | .other shown => shown

/-- The texts of the items that an array joins, where `null` has none. -/
def itemTexts : List Native → Option (List String)
  | [] => some []
  | .null :: rest => (itemTexts rest).map fun texts => "" :: texts
  | item :: rest =>
      item.toText.bind fun text => (itemTexts rest).map fun texts => text :: texts

end

/-- `value.map(String)` of an array; another value is followed by the defaults of the others. -/
def fieldTexts (defaults : List String) : Native → Option (List String)
  | .array items => items.mapM toText
  | value => value.toText.map fun text => text :: defaults

end Native

/-- The text of a topic, which is empty when there is none. -/
def topicText (topics : List Native) (index : ℕ) : Option String :=
  match topics[index]? with
  | none => some ""
  | some .null => some ""
  | some topic => topic.toText

/-! ## Events -/

/-- An event as the RPC returns it. -/
structure EventResponse (Value : Type) where
  topic : List Value
  value : Value
  ledger : ℕ
  pagingToken : String

/-- An event as it is handed out. A field of a value that is too short is missing. -/
inductive BridgeEvent where
  | cAddressFunded (asset source target : String) (amount fee : Option String)
  | feesWithdrawn (feeCollector : String) (amount asset : Option String)
  | adminProposed (sender recipient : String)
  | adminTransferred (sender recipient : String)
  | feeCollectorTransferProposed (admin newCollector : String)
  | feeCollectorTransferred (sender recipient : String)
  | metaFundExecuted (asset source target : String) (amount fee nonce : Option String)
  | generic (name : String) (topics : List Native) (value : Native)

def BridgeEvent.name : BridgeEvent → String
  | .cAddressFunded .. => "CAddressFunded"
  | .feesWithdrawn .. => "FeesWithdrawn"
  | .adminProposed .. => "AdminProposed"
  | .adminTransferred .. => "AdminTransferred"
  | .feeCollectorTransferProposed .. => "FeeCollectorTransferProposed"
  | .feeCollectorTransferred .. => "FeeCollectorTransferred"
  | .metaFundExecuted .. => "MetaFundExecuted"
  | .generic name .. => name

structure BridgeEventPayload where
  event : BridgeEvent
  ledger : ℕ
  pagingToken : String

/-- The name of an event: that of a missing topic is what `String` makes of `undefined`. -/
def eventName (topics : List Native) : Option String :=
  match topics[0]? with
  | none => some "undefined"
  | some topic => topic.toText

/-- The event of some topics and a value. -/
def readEvent (topics : List Native) (value : Native) : Option BridgeEvent := do
  match ← eventName topics with
  | "CAddressFunded" =>
      let fields ← value.fieldTexts ["0"]
      some (.cAddressFunded (← topicText topics 1) (← topicText topics 2) (← topicText topics 3)
        fields[0]? fields[1]?)
  | "FeesWithdrawn" =>
      let fields ← value.fieldTexts [""]
      some (.feesWithdrawn (← topicText topics 1) fields[0]? fields[1]?)
  | "AdminProposed" => some (.adminProposed (← topicText topics 1) (← topicText topics 2))
  | "AdminTransferred" => some (.adminTransferred (← topicText topics 1) (← topicText topics 2))
  | "FeeCollectorTransferProposed" =>
      some (.feeCollectorTransferProposed (← topicText topics 1) (← topicText topics 2))
  | "FeeCollectorTransferred" =>
      some (.feeCollectorTransferred (← topicText topics 1) (← topicText topics 2))
  | "MetaFundExecuted" =>
      let fields ← value.fieldTexts ["0", "0"]
      some (.metaFundExecuted (← topicText topics 1) (← topicText topics 2) (← topicText topics 3)
        fields[0]? fields[1]? fields[2]?)
  | name => some (.generic name topics value)

/-- What is handed out of an event, unless it cannot be read. -/
def parseEvent {Value : Type} (scValToNative : Value → Option Native)
    (raw : EventResponse Value) : Option BridgeEventPayload := do
  let topics ← raw.topic.mapM scValToNative
  let value ← scValToNative raw.value
  some ⟨← readEvent topics value, raw.ledger, raw.pagingToken⟩

end OnboardingBridge.Sdk
