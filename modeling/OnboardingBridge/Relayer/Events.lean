import OnboardingBridge.Contract.Crosschain

/-!
# Bridge events

The events a source-chain listener delivers, the check a relayer makes of them,
the hash it signs for them and the call the SDK submits for them. Strings and
numbers are those of the source's language; keys of addresses are checked and
read by the Stellar SDK, which is a parameter.
-/

set_option autoImplicit false

namespace OnboardingBridge.Relayer

open Foundations Contract

/-! ## Numbers and strings -/

/-- A number of the source: an integer, or one that is none. -/
inductive Number where
  | integer (value : Int)
  | other
deriving DecidableEq

/-- Whether a number is an integer between the bounds of a `u32`. -/
def Number.isU32 : Number → Bool
  | .integer value => 0 ≤ value && value ≤ 0xffffffff
  | .other => false

/-- The value of a digit, small or capital letters included. -/
def digitValue (c : Char) : Option Nat :=
  if '0' ≤ c ∧ c ≤ '9' then some (c.toNat - '0'.toNat)
  else if 'a' ≤ c ∧ c ≤ 'z' then some (c.toNat - 'a'.toNat + 10)
  else if 'A' ≤ c ∧ c ≤ 'Z' then some (c.toNat - 'A'.toNat + 10)
  else none

/-- Whether a character is a digit in a base. -/
def isDigitIn (base : Nat) (c : Char) : Bool := (digitValue c).any fun value => value < base

/-- `Buffer.from` of a string in hexadecimal stops at the first pair that is no
byte. -/
def hexBytes : List Char → List UInt8
  | high :: low :: rest =>
      if isDigitIn 16 high && isDigitIn 16 low then
        UInt8.ofNat (16 * (digitValue high).getD 0 + (digitValue low).getD 0) :: hexBytes rest
      else []
  | _ => []

/-- `Buffer.from` of a string. -/
def utf8Bytes (text : String) : List UInt8 := text.toUTF8.data.toList

/-- The white space of the source's language. -/
def isSpace (c : Char) : Bool :=
  c.toNat ∈ [0x09, 0x0a, 0x0b, 0x0c, 0x0d, 0x20, 0xa0, 0x1680, 0x2028, 0x2029, 0x202f, 0x205f,
    0x3000, 0xfeff] || (0x2000 ≤ c.toNat && c.toNat ≤ 0x200a)

/-- What is left of a string without the white space at its ends. -/
def trim (text : List Char) : List Char :=
  ((text.dropWhile isSpace).reverse.dropWhile isSpace).reverse

/-- The number that digits in a base denote. -/
def naturalIn (base : Nat) (digits : List Char) : Option Nat :=
  if digits ≠ [] ∧ digits.all (isDigitIn base) = true then
    some (digits.foldl (fun value c => value * base + (digitValue c).getD 0) 0)
  else none

/-- `BigInt` of a string; nothing when it throws. -/
def bigInt (text : String) : Option Int :=
  match trim text.toList with
  | [] => some 0
  | '0' :: 'x' :: digits | '0' :: 'X' :: digits => (naturalIn 16 digits).map Int.ofNat
  | '0' :: 'o' :: digits | '0' :: 'O' :: digits => (naturalIn 8 digits).map Int.ofNat
  | '0' :: 'b' :: digits | '0' :: 'B' :: digits => (naturalIn 2 digits).map Int.ofNat
  | '-' :: digits => (naturalIn 10 digits).map fun value => -(value : Int)
  | '+' :: digits => (naturalIn 10 digits).map Int.ofNat
  | digits => (naturalIn 10 digits).map Int.ofNat

/-! ## Events -/

/-- An event of a source chain. -/
structure BridgeEvent where
  chainId : Number
  txHash : String
  target : String
  asset : String
  amount : String
deriving DecidableEq

/-- What the relayer uses of the Stellar SDK. -/
structure StellarSdk where
  isValidEd25519PublicKey : String → Bool
  isValidContract : String → Bool
  /-- The address the host makes of a key; nothing when the constructor throws. -/
  address : String → Option Address

/-- The check of an event, with the text of its error. -/
def validateBridgeEvent (sdk : StellarSdk) (event : BridgeEvent) : Except String Unit := do
  if event.chainId.isU32 = false then throw "chainId must be a u32"
  if ¬ (event.txHash.toList.length = 64 ∧ event.txHash.toList.all (isDigitIn 16) = true) then
    throw "txHash must be 32-byte hex"
  let some amount := bigInt event.amount
    | throw ("Cannot convert " ++ event.amount ++ " to a BigInt")
  if ¬ (event.amount.toList ≠ [] ∧ event.amount.toList.all (isDigitIn 10) = true) ∨ amount ≤ 0 ∨
      2 ^ 127 - 1 < amount then
    throw "amount must be a positive i128 decimal"
  if sdk.isValidEd25519PublicKey event.target = false ∧ sdk.isValidContract event.target = false then
    throw "target must be a valid G or C address"
  if sdk.isValidContract event.asset = false then throw "asset must be a valid C address"

/-! ## The signed hash -/

/-- `writeUInt32BE`; nothing when it throws. -/
def writeUInt32BE : Number → Option (List UInt8)
  | .integer value =>
      if 0 ≤ value ∧ value ≤ 0xffffffff then some (bigEndian 4 value.toNat) else none
  | .other => none

/-- `writeBigUInt64BE`; nothing when it throws. -/
def writeBigUInt64BE (value : Int) : Option (List UInt8) :=
  if 0 ≤ value ∧ value ≤ 0xffffffffffffffff then some (bigEndian 8 value.toNat) else none

section Hashing

variable (sha256 : List UInt8 → BytesN 32)

def computeNonce (chainId : Number) (txHashHex : String) : Option (BytesN 32) := do
  let chainIdBuf ← writeUInt32BE chainId
  let txHashBuf := hexBytes txHashHex.toList
  return sha256 (chainIdBuf ++ txHashBuf)

def encodeAddress (address : String) : BytesN 32 := sha256 (utf8Bytes address)

/-- The amount is written as two unsigned halves. -/
def computePayloadHash (event : BridgeEvent) : Option (BytesN 32) := do
  let chainIdBuf ← writeUInt32BE event.chainId
  let txHashBuf := hexBytes event.txHash.toList
  let targetBuf := encodeAddress sha256 event.target
  let assetBuf := encodeAddress sha256 event.asset
  let amountBig ← bigInt event.amount
  let high ← writeBigUInt64BE (amountBig / 0x10000000000000000)
  let low ← writeBigUInt64BE (amountBig % 0x10000000000000000)
  let nonce ← computeNonce sha256 event.chainId event.txHash
  return sha256 (chainIdBuf ++ txHashBuf ++ targetBuf.toList ++ assetBuf.toList ++ (high ++ low)
    ++ nonce.toList)

end Hashing

/-! ## The submitted call -/

/-- `replace` of the first `0x` by nothing. -/
def dropPrefix0x : List Char → List Char
  | '0' :: 'x' :: rest => rest
  | c :: rest => c :: dropPrefix0x rest
  | [] => []

/-- `nativeToScVal` of a number as a `u32`. -/
def toU32 : Number → Option UInt32
  | .integer value =>
      if 0 ≤ value ∧ value ≤ 0xffffffff then some (UInt32.ofNat value.toNat) else none
  | .other => none

/-- Bytes as a byte string of fixed length. -/
def toBytesN (n : Nat) (bytes : List UInt8) : Option (BytesN n) :=
  if bytes.length = n then some (BitVec.ofNat _ (ofBigEndian bytes)) else none

/-- What `fundCrosschain` submits to the contract for an event, besides the
signatures. -/
def crosschainCall (sdk : StellarSdk) (event : BridgeEvent) : Option Attestation := do
  let txHash ← toBytesN 32 (hexBytes (dropPrefix0x event.txHash.toList))
  let chainId ← toU32 event.chainId
  let target ← sdk.address event.target
  let asset ← sdk.address event.asset
  let amountBig ← bigInt event.amount
  let amount ← I128.ofInt? amountBig
  return { chainId, txHash, target, asset, amount }

end OnboardingBridge.Relayer
