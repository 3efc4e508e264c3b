import Mathlib.Data.Nat.Digits.Defs
import OnboardingBridge.Relayer.Events

/-!
# Deposits in the logs of a Solana transaction

The listener reads a transaction's logs line by line. It rebuilds the stack of the
programs that execute from the lines that have the shape of a frame, and takes a
`bridge_fund` line for a deposit when the bridge program is on top of that stack.

Both regular expressions begin with a name that runs up to the next space, so
matching is reading a name and testing what follows it.
-/

set_option autoImplicit false

namespace OnboardingBridge.Relayer

open Foundations Contract

/-! ## Texts -/

/-- A string of the source's language, character by character. -/
abbrev Text := List Char

/-- What follows a text at the start of another. -/
def after : Text → Text → Option Text
  | [], text => some text
  | _ :: _, [] => none
  | c :: first, d :: text => if c = d then after first text else none

theorem after_eq_some {first text rest : Text} :
    after first text = some rest ↔ text = first ++ rest := by
  induction first generalizing text with
  | nil => simp [after, eq_comm]
  | cons c first ih =>
      cases text with
      | nil => simp [after]
      | cons d text =>
          by_cases same : c = d
          · simp [after, same, ih]
          · simp [after, same, Ne.symm same]

@[simp] theorem after_append (first rest : Text) : after first (first ++ rest) = some rest :=
  after_eq_some.mpr rfl

/-- Whether a character ends a line, so that `.` does not match it. -/
def isLineEnd (c : Char) : Bool := c.toNat ∈ [0x0a, 0x0d, 0x2028, 0x2029]

/-! ## Frames -/

/-- The name after `Program` and what follows it. -/
def programLine (line : Text) : Option (Text × Text) :=
  (after "Program ".toList line).map fun rest => rest.span fun c => !isSpace c

/-- What follows the name in `/^Program (\S+) invoke \[\d+\]$/`. -/
def isInvokeTail (tail : Text) : Bool :=
  (after " invoke [".toList tail).any fun depth =>
    decide (depth.takeWhile Char.isDigit ≠ [] ∧ depth.dropWhile Char.isDigit = [']'])

/-- What follows the name in `/^Program (\S+) (?:success|failed:.*)$/`. -/
def isEndTail (tail : Text) : Bool :=
  decide (tail = " success".toList) ||
    (after " failed:".toList tail).any fun reason => reason.all fun c => !isLineEnd c

/-- The name of a line that matches with a tail. -/
def frameName (isTail : Text → Bool) (line : Text) : Option Text :=
  match programLine line with
  | some (name, tail) => if name ≠ [] ∧ isTail tail = true then some name else none
  | none => none

abbrev invokeMatch (line : Text) : Option Text := frameName isInvokeTail line

abbrev endMatch (line : Text) : Option Text := frameName isEndTail line

theorem programLine_eq {name rest : Text} (solid : ∀ c ∈ name, isSpace c = false) :
    programLine ("Program ".toList ++ (name ++ ' ' :: rest)) = some (name, ' ' :: rest) := by
  have taken : (name ++ ' ' :: rest).takeWhile (fun c => !isSpace c) = name := by
    rw [List.takeWhile_append_of_pos fun c member => by simp [solid c member]]
    simp [show isSpace ' ' = true from rfl]
  have dropped : (name ++ ' ' :: rest).dropWhile (fun c => !isSpace c) = ' ' :: rest := by
    rw [List.dropWhile_append_of_pos fun c member => by simp [solid c member]]
    simp [show isSpace ' ' = true from rfl]
  rw [programLine, after_append, Option.map_some, List.span_eq_takeWhile_dropWhile, taken, dropped]

/-- A line with a name that is followed by a space matches when its tail does. -/
theorem frameName_eq {isTail : Text → Bool} {name rest : Text} (named : name ≠ [])
    (solid : ∀ c ∈ name, isSpace c = false) :
    frameName isTail ("Program ".toList ++ (name ++ ' ' :: rest)) =
      if isTail (' ' :: rest) = true then some name else none := by
  rw [frameName, programLine_eq solid]
  simp [named]

/-! ## Signatures -/

def base58Alphabet : Text := "123456789ABCDEFGHJKLMNPQRSTUVWXYZabcdefghijkmnopqrstuvwxyz".toList

/-- `base58Decode`; nothing when it throws. -/
def base58Decode (input : Text) : Option (List UInt8) :=
  if input = [] then none
  else do
    let digits ← input.mapM fun c => base58Alphabet.idxOf? c
    let num := digits.foldl (fun num value => num * 58 + value) 0
    let leadingZeros := (input.takeWhile fun c => c = '1').length
    return List.replicate leadingZeros 0 ++ (Nat.digits 256 num).reverse.map UInt8.ofNat

def hexDigits : Text := "0123456789abcdef".toList

/-- `digest` of a hash in hexadecimal. -/
def hexText (bytes : List UInt8) : Text :=
  bytes.flatMap fun byte =>
    [hexDigits.getD (byte.toNat / 16) '0', hexDigits.getD (byte.toNat % 16) '0']

/-! ## Events -/

structure SolanaListenerConfig where
  programId : Text
  chainId : Number
  sha256 : List UInt8 → BytesN 32

def depositStart : Text := "Program log: bridge_fund:".toList

section Listener

variable (config : SolanaListenerConfig) (signature : Text)

/-- The event of a `bridge_fund` line; nothing when the line is rejected. The caller has checked
how the line starts. -/
def decodeLine (line : Text) (lineIndex : Nat) : Option BridgeEvent := do
  let payload ← after depositStart line
  match payload.splitOn ':' with
  | [target, asset, amount] =>
      if target = [] ∨ asset = [] ∨ amount = [] then none
      else if amount.all Char.isDigit = false then none
      else do
        let sigBytes ← base58Decode signature
        if sigBytes.length ≠ 64 then none
        else do
          let lineIndexBytes ← writeUInt32BE (.integer lineIndex)
          return {
            chainId := config.chainId
            txHash := String.ofList (hexText (config.sha256 (sigBytes ++ lineIndexBytes)).toList)
            target := String.ofList target
            asset := String.ofList asset
            amount := String.ofList amount }
  | _ => none

/-- An index is written while it fits in four bytes. -/
theorem writeUInt32BE_index (index : Nat) : writeUInt32BE (.integer index) =
    if index < 2 ^ 32 then some (bigEndian 4 index) else none := by
  simp only [writeUInt32BE, Int.toNat_natCast]
  refine if_congr ?_ rfl rfl
  omega

/-- The loop of `extractBridgeFundEvents`, with the top of the stack first. -/
def extractFrom (stack : List Text) (bridgeFundLineIndex : Nat) : List Text → List BridgeEvent
  | [] => []
  | line :: rest =>
      match invokeMatch line with
      | some program => extractFrom (program :: stack) bridgeFundLineIndex rest
      | none =>
          match endMatch line with
          | some program => extractFrom (stack.erase program) bridgeFundLineIndex rest
          | none =>
              if (after depositStart line).isNone then extractFrom stack bridgeFundLineIndex rest
              else if stack.head? ≠ some config.programId then
                extractFrom stack (bridgeFundLineIndex + 1) rest
              else
                (decodeLine config signature line bridgeFundLineIndex).toList ++
                  extractFrom stack (bridgeFundLineIndex + 1) rest

def extractBridgeFundEvents (logs : List Text) : List BridgeEvent :=
  extractFrom config signature [] 0 logs

end Listener

/-! ## Line by line -/

/-- What a line does to the stack. -/
def stackAfter (stack : List Text) (line : Text) : List Text :=
  match invokeMatch line with
  | some program => program :: stack
  | none =>
      match endMatch line with
      | some program => stack.erase program
      | none => stack

/-- Whether a line counts as a `bridge_fund` line. -/
def isDepositLine (line : Text) : Bool :=
  (invokeMatch line).isNone && (endMatch line).isNone && (after depositStart line).isSome

/-- What a line adds to the events. -/
def lineEvents (config : SolanaListenerConfig) (signature : Text) (stack : List Text)
    (index : Nat) (line : Text) : List BridgeEvent :=
  if isDepositLine line = true ∧ stack.head? = some config.programId then
    (decodeLine config signature line index).toList
  else []

variable {config : SolanaListenerConfig} {signature : Text}

theorem extractFrom_cons (stack : List Text) (index : Nat) (line : Text) (rest : List Text) :
    extractFrom config signature stack index (line :: rest) =
      lineEvents config signature stack index line ++
        extractFrom config signature (stackAfter stack line)
          (index + if isDepositLine line = true then 1 else 0) rest := by
  rw [extractFrom, lineEvents, stackAfter, isDepositLine]
  cases invokes : invokeMatch line with
  | some program => simp
  | none =>
    cases ends : endMatch line with
    | some program => simp
    | none =>
      cases deposit : after depositStart line with
      | none => simp
      | some payload =>
        by_cases top : stack.head? = some config.programId
        · simp [top]
        · simp [top]

/-- The events of the lines so far stay, and the later lines go on from the stack and the index
that the earlier ones left. -/
theorem extractFrom_append (stack : List Text) (index : Nat) (earlier later : List Text) :
    extractFrom config signature stack index (earlier ++ later) =
      extractFrom config signature stack index earlier ++
        extractFrom config signature (earlier.foldl stackAfter stack)
          (index + earlier.countP isDepositLine) later := by
  induction earlier generalizing stack index with
  | nil => simp [extractFrom]
  | cons line earlier ih =>
      rw [List.cons_append, extractFrom_cons, extractFrom_cons, ih, List.append_assoc,
        List.foldl_cons, List.countP_cons, Nat.add_assoc, Nat.add_comm (ite _ _ _)]

/-- One more line adds what it adds with the stack and the index of the lines before. -/
theorem extract_snoc (earlier : List Text) (line : Text) :
    extractBridgeFundEvents config signature (earlier ++ [line]) =
      extractBridgeFundEvents config signature earlier ++
        lineEvents config signature (earlier.foldl stackAfter []) (earlier.countP isDepositLine)
          line := by
  rw [extractBridgeFundEvents, extractFrom_append, extractFrom_cons, Nat.zero_add, extractFrom,
    List.append_nil]
  rfl

end OnboardingBridge.Relayer
