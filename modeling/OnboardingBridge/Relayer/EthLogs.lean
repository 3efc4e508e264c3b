import Mathlib.Algebra.Order.Floor.Defs
import Mathlib.Data.Rat.Floor
import OnboardingBridge.Relayer.SolanaLogs

/-!
# Logs of Ethereum

What the listener makes of a log of the bridge contract. The replay key is the hash of
the transaction and of the index of the log, and the rest of the event is decoded from
the data that the contract emitted.
-/

set_option autoImplicit false

namespace OnboardingBridge.Relayer

open Foundations Contract

/-! ## Numbers and texts -/

/-- `parseInt` of a text in base 16; nothing when it is no number. -/
def parseHex (text : Text) : Option Int :=
  let unsigned : Text → Option Nat
    | '0' :: 'x' :: digits | '0' :: 'X' :: digits => naturalIn 16 (digits.takeWhile (isDigitIn 16))
    | digits => naturalIn 16 (digits.takeWhile (isDigitIn 16))
  match text.dropWhile isSpace with
  | '-' :: digits => (unsigned digits).map fun value => -(value : Int)
  | '+' :: digits => (unsigned digits).map Int.ofNat
  | digits => (unsigned digits).map Int.ofNat

/-- A decoder of UTF-8 in the middle of a character: what it has read of it, how many bytes it
needs, and between which bounds the next one has to be. -/
structure Utf8Decoder where
  codePoint : Nat
  needed : Nat
  lower : Nat
  upper : Nat

namespace Utf8Decoder

def start : Utf8Decoder := ⟨0, 0, 0x80, 0xbf⟩

/-- What stands for bytes that are no character. -/
def replacement : Char := '\uFFFD'

/-- The first byte of a character. -/
def lead (byte : Nat) : Text × Utf8Decoder :=
  if byte < 0x80 then ([Char.ofNat byte], start)
  else if 0xc2 ≤ byte ∧ byte ≤ 0xdf then ([], ⟨byte % 0x20, 1, 0x80, 0xbf⟩)
  else if 0xe0 ≤ byte ∧ byte ≤ 0xef then
    ([], ⟨byte % 0x10, 2, if byte = 0xe0 then 0xa0 else 0x80, if byte = 0xed then 0x9f else 0xbf⟩)
  else if 0xf0 ≤ byte ∧ byte ≤ 0xf4 then
    ([], ⟨byte % 0x08, 3, if byte = 0xf0 then 0x90 else 0x80, if byte = 0xf4 then 0x8f else 0xbf⟩)
  else ([replacement], start)

/-- A byte that does not go on with a character ends it, and is the first of the next. -/
def push (decoder : Utf8Decoder) (byte : Nat) : Text × Utf8Decoder :=
  if decoder.needed = 0 then lead byte
  else if byte < decoder.lower ∨ decoder.upper < byte then
    (replacement :: (lead byte).1, (lead byte).2)
  else
    let codePoint := decoder.codePoint * 64 + byte % 64
    if decoder.needed = 1 then ([Char.ofNat codePoint], start)
    else ([], ⟨codePoint, decoder.needed - 1, 0x80, 0xbf⟩)

def decode (decoder : Utf8Decoder) : List UInt8 → Text
  | [] => if decoder.needed = 0 then [] else [replacement]
  | byte :: rest => (decoder.push byte.toNat).1 ++ (decoder.push byte.toNat).2.decode rest

end Utf8Decoder

/-- `toString('utf8')` of a buffer. -/
def utf8Text (bytes : List UInt8) : Text := Utf8Decoder.start.decode bytes

/-! ## Logs -/

/-- The index of a log as the RPC returns it. What is no text is what `Number` makes of it: a
finite number, or none. -/
inductive LogIndex where
  | text (value : Text)
  | number (value : Option ℚ)
deriving DecidableEq

def LogIndex.toNumber : LogIndex → Option ℚ
  | .text value => (parseHex value).map fun index : Int => (index : ℚ)
  | .number value => value

/-- The fields that the listener reads; nothing where the RPC returns no text. -/
structure EthLog where
  transactionHash : Option Text
  logIndex : LogIndex
  data : Option Text
deriving DecidableEq

/-- `slice(2)` of a text that starts with `0x`. -/
def after0x (text : Text) : Option Text := after "0x".toList text

/-- `writeUInt32BE` of a number that may have a fraction, which is cut off. -/
def writeIndexBE (index : ℚ) : Option (List UInt8) :=
  if 0 ≤ index ∧ index ≤ 0xffffffff then some (bigEndian 4 ⌊index⌋.toNat) else none

/-- The hexadecimal text of the hash of a position on a source chain. -/
def replayKey (sha256 : List UInt8 → BytesN 32) (position : List UInt8) : String :=
  String.ofList (hexText (sha256 position).toList)

/-- `decodeString`, at an offset that counts digits. -/
def decodeString (data : Text) (byteOffset : Int) : Option Text :=
  if byteOffset < 0 ∨ (data.length : Int) < byteOffset + 64 then none
  else do
    let len ← parseHex ((data.drop byteOffset.toNat).take 64)
    let strHex := (data.drop (byteOffset.toNat + 64)).take (len * 2).toNat
    if (strHex.length : Int) ≠ len * 2 then none else some (utf8Text (hexBytes strHex))

/-- What `decode` hashes for the replay key: the transaction, and the index in four bytes. -/
def EthLog.hashedBytes (log : EthLog) : Option (List UInt8) := do
  let transactionHash ← log.transactionHash
  let digits ← after0x transactionHash
  if transactionHash.length ≠ 66 then none
  else do
    let logIndex ← log.logIndex.toNumber
    if logIndex < 0 then none
    else do
      let logIndexBuf ← writeIndexBE logIndex
      return hexBytes digits ++ logIndexBuf

/-- The target, the asset and the amount in the data of a log. -/
def decodeData (data : Text) : Option (Text × Text × Int) :=
  if data.length < 64 * 3 then none
  else do
    let word := fun n : Nat => (data.drop (n * 64)).take 64
    let targetOffset ← parseHex (word 0)
    let assetOffset ← parseHex (word 1)
    let amountHex := word 2
    if amountHex.length ≠ 64 then none
    else do
      let target ← decodeString data (targetOffset * 2)
      let asset ← decodeString data (assetOffset * 2)
      let amount ← bigInt ("0x" ++ String.ofList amountHex)
      return (target, asset, amount)

/-- `EthChainListener.decode`. -/
def EthLog.decode (sha256 : List UInt8 → BytesN 32) (chainId : Number) (log : EthLog) :
    Option BridgeEvent := do
  let hashed ← log.hashedBytes
  let data ← log.data
  let data ← after0x data
  let (target, asset, amount) ← decodeData data
  return {
    chainId
    txHash := replayKey sha256 hashed
    target := String.ofList target
    asset := String.ofList asset
    amount := toString amount }

end OnboardingBridge.Relayer
