import OnboardingBridge.Relayer.Hexadecimal

/-!
# Values of the Soroban RPC

The RPC returns topics and values of events in base64. The indexer decodes what it
knows and keeps the text of everything else.
-/

set_option autoImplicit false

namespace OnboardingBridge.Indexer

open Relayer

/-- A JSON value. -/
inductive Json where
  | null
  | bool (value : Bool)
  | number (value : Int)
  | string (value : String)
  | array (items : List Json)
  | object (fields : List (String × Json))

def Json.asStr : Json → Option String
  | .string value => some value
  | _ => none

/-- `get` of a key; what is no object has none. -/
def Json.get (value : Json) (key : String) : Option Json :=
  match value with
  | .object fields => fields.lookup key
  | _ => none

/-! ## Base64 -/

def base64Alphabet : Text :=
  "ABCDEFGHIJKLMNOPQRSTUVWXYZabcdefghijklmnopqrstuvwxyz0123456789+/".toList

/-- `decode` of the standard engine: padding is required, and what it cuts off has to be zero. -/
def base64Decode : Text → Option (List UInt8)
  | [] => some []
  | [a, b, '=', '='] => do
      let a ← base64Alphabet.idxOf? a
      let b ← base64Alphabet.idxOf? b
      if b % 16 ≠ 0 then none else some [UInt8.ofNat (a * 4 + b / 16)]
  | [a, b, c, '='] => do
      let a ← base64Alphabet.idxOf? a
      let b ← base64Alphabet.idxOf? b
      let c ← base64Alphabet.idxOf? c
      if c % 4 ≠ 0 then none
      else some [UInt8.ofNat (a * 4 + b / 16), UInt8.ofNat (b % 16 * 16 + c / 4)]
  | a :: b :: c :: d :: rest => do
      let a ← base64Alphabet.idxOf? a
      let b ← base64Alphabet.idxOf? b
      let c ← base64Alphabet.idxOf? c
      let d ← base64Alphabet.idxOf? d
      let rest ← base64Decode rest
      return UInt8.ofNat (a * 4 + b / 16) :: UInt8.ofNat (b % 16 * 16 + c / 4) ::
        UInt8.ofNat (c % 4 * 64 + d) :: rest
  | _ => none

/-! ## XDR -/

section Reading

variable (bytes : List UInt8)

/-- `bytes.get(cursor..end)`. -/
def getRange (cursor last : Nat) : Option (List UInt8) :=
  if last ≤ bytes.length then some ((bytes.take last).drop cursor) else none

def readU32 (cursor : Nat) : Except String (Nat × Nat) :=
  match getRange bytes cursor (cursor + 4) with
  | some value => .ok (Foundations.ofBigEndian value, cursor + 4)
  | none => .error "truncated u32"

def readU64 (cursor : Nat) : Except String (Nat × Nat) :=
  match getRange bytes cursor (cursor + 8) with
  | some value => .ok (Foundations.ofBigEndian value, cursor + 8)
  | none => .error "truncated u64"

def readBytes (cursor length : Nat) : Except String (List UInt8 × Nat) :=
  match getRange bytes cursor (cursor + length) with
  | some value => .ok (value, cursor + length)
  | none => .error "truncated bytes"

def readOpaque (cursor : Nat) : Except String (List UInt8 × Nat) := do
  let (length, cursor) ← readU32 bytes cursor
  let (value, cursor) ← readBytes bytes cursor length
  let padding := (4 - length % 4) % 4
  let (_, cursor) ← readBytes bytes cursor padding
  return (value, cursor)

/-- A number as a signed one of the same width. -/
def asSigned (width value : Nat) : Int :=
  if value < 2 ^ (width - 1) then value else (value : Int) - 2 ^ width

def decodeScval : Except String Json := do
  if bytes.length < 4 then throw "missing ScVal type"
  let (kind, cursor) ← readU32 bytes 0
  match kind with
  | 0 => return .bool ((← readU32 bytes cursor).1 ≠ 0)
  | 1 => return .null
  | 3 => return .number (← readU32 bytes cursor).1
  | 4 => return .number (asSigned 32 (← readU32 bytes cursor).1)
  | 5 | 7 | 8 => return .number (← readU64 bytes cursor).1
  | 6 => return .number (asSigned 64 (← readU64 bytes cursor).1)
  | 13 => return .string ("0x" ++ String.ofList (hexText (← readOpaque bytes cursor).1))
  | 14 | 15 =>
      match String.fromUTF8? ⟨(← readOpaque bytes cursor).1.toArray⟩ with
      | some text => return .string text
      | none => throw "invalid ScVal text"
  | 18 =>
      let (addressKind, cursor) ← readU32 bytes cursor
      let (address, _) ← readBytes bytes cursor 32
      return .string ("scaddress:" ++ toString addressKind ++ ":" ++ String.ofList (hexText address))
  | _ => throw "unsupported ScVal type"

end Reading

/-- A text that is no encoded value stays as it is. -/
def decodeRpcScval (value : Json) : Json :=
  match value with
  | .string encoded =>
      match base64Decode encoded.toList with
      | some bytes =>
          match decodeScval bytes with
          | .ok decoded => decoded
          | .error _ => value
      | none => value
  | _ => value

end OnboardingBridge.Indexer
