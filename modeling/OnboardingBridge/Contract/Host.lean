import OnboardingBridge.Contract.Types
import OnboardingBridge.Foundations.Transaction

/-!
# The host of the contract

The contract runs inside a host that keeps its storage, runs the token
contracts it calls, checks authorisations and signatures, and tells the ledger
number and time. A call is a transaction over the world: when it fails, with an
error of the contract or because the host traps, the world is the one it was.

What the contract takes from code that is not its own is a parameter of the
call (`Env`): hashing and signature checking, the textual form of addresses,
which addresses authorised the call, what a pool does, and any reason of its
own a token contract may have to trap. A token is an exact ledger: a transfer
moves exactly the amount or traps.

Entries do not expire, so extending a lifetime changes nothing and is left
out. The keys of the two storage tiers are disjoint, so one store holds both.
-/

set_option autoImplicit false

namespace OnboardingBridge.Contract

open Foundations Foundations.Tx

/-! ## Token ledgers -/

/-- The balances and allowances of every token contract. -/
structure TokenLedger where
  /-- The balance of a holder in an asset. -/
  balance : (asset holder : Address) → I128
  /-- What a spender may take from an owner in an asset. -/
  allowance : (asset owner spender : Address) → I128

namespace TokenLedger

def setBalance (ledger : TokenLedger) (asset holder : Address) (value : I128) : TokenLedger where
  balance := fun asset' holder' =>
    if asset' = asset ∧ holder' = holder then value else ledger.balance asset' holder'
  allowance := ledger.allowance

def setAllowance (ledger : TokenLedger) (asset owner spender : Address) (value : I128) :
    TokenLedger where
  balance := ledger.balance
  allowance := fun asset' owner' spender' =>
    if asset' = asset ∧ owner' = owner ∧ spender' = spender then value
    else ledger.allowance asset' owner' spender'

/-- Take the amount from one balance and add it to another. -/
def move (ledger : TokenLedger) (asset src dst : Address) (amount : I128) :
    Option TokenLedger := do
  guard (0 ≤ amount.val ∧ amount.val ≤ (ledger.balance asset src).val)
  let debited ← (ledger.balance asset src).checkedSub amount
  let spent := ledger.setBalance asset src debited
  let credited ← (spent.balance asset dst).checkedAdd amount
  return spent.setBalance asset dst credited

/-- What a movement of tokens does to every balance. -/
theorem move_eq_some {ledger moved : TokenLedger} {asset src dst : Address} {amount : I128}
    (success : ledger.move asset src dst amount = some moved) :
    0 ≤ amount.val ∧ amount.val ≤ (ledger.balance asset src).val ∧
      moved.allowance = ledger.allowance ∧
      ∀ asset' holder, (moved.balance asset' holder).val =
        (ledger.balance asset' holder).val
          + (if asset' = asset ∧ holder = dst then amount.val else 0)
          - (if asset' = asset ∧ holder = src then amount.val else 0) := by
  simp only [move, Option.bind_eq_bind, Option.bind_eq_some_iff, Option.pure_def,
    Option.some.injEq] at success
  obtain ⟨_, allowed, debited, debit, credited, credit, rfl⟩ := success
  obtain ⟨positive, covered⟩ : 0 ≤ amount.val ∧ amount.val ≤ (ledger.balance asset src).val := by
    by_contra refused
    simp [guard, refused] at allowed
  refine ⟨positive, covered, rfl, fun asset' holder => ?_⟩
  have debitedVal := BoundedInt.checkedSub_eq_some.mp debit
  have creditedVal := BoundedInt.checkedAdd_eq_some.mp credit
  simp only [setBalance, true_and] at creditedVal ⊢
  by_cases sameAsset : asset' = asset
  · subst sameAsset
    by_cases toDst : holder = dst
    · subst toDst
      by_cases fromSrc : holder = src
      · subst fromSrc
        simp only [and_self, if_true] at creditedVal ⊢
        omega
      · simp only [fromSrc, and_self, and_false, if_true, if_false] at creditedVal ⊢
        omega
    · by_cases fromSrc : holder = src
      · subst fromSrc
        simp only [toDst, and_self, and_false, if_true, if_false]
        omega
      · simp [toDst, fromSrc]
  · simp [sameAsset]

/-- A covered movement whose receiver has room succeeds. -/
theorem exists_move {ledger : TokenLedger} {asset src dst : Address} {amount : I128}
    (positive : 0 ≤ amount.val) (covered : amount.val ≤ (ledger.balance asset src).val)
    (room : src ≠ dst → (ledger.balance asset dst).val + amount.val ≤ I128.maxValue) :
    ∃ moved, ledger.move asset src dst amount = some moved := by
  have limit := (ledger.balance asset src).upper
  obtain ⟨debited, debit, debitedVal⟩ : ∃ debited : I128,
      (ledger.balance asset src).checkedSub amount = some debited ∧
        debited.val = (ledger.balance asset src).val - amount.val :=
    BoundedInt.exists_ofInt? (by omega) (by omega)
  have credit : ∃ credited,
      ((ledger.setBalance asset src debited).balance asset dst).checkedAdd amount
        = some credited := by
    by_cases same : src = dst
    · subst same
      obtain ⟨credited, credit, -⟩ : ∃ credited : I128,
          debited.checkedAdd amount = some credited ∧ credited.val = debited.val + amount.val :=
        BoundedInt.exists_ofInt? (by omega) (by omega)
      exact ⟨credited, by simpa [setBalance, BoundedInt.checkedAdd] using credit⟩
    · have lower := (ledger.balance asset dst).lower
      have upper := room same
      simp only [I128.maxValue] at upper
      obtain ⟨credited, credit, -⟩ : ∃ credited : I128,
          (ledger.balance asset dst).checkedAdd amount = some credited ∧
            credited.val = (ledger.balance asset dst).val + amount.val :=
        BoundedInt.exists_ofInt? (by omega) (by omega)
      refine ⟨credited, ?_⟩
      simpa [setBalance, BoundedInt.checkedAdd, Ne.symm same] using credit
  obtain ⟨credited, credit⟩ := credit
  refine ⟨(ledger.setBalance asset src debited).setBalance asset dst credited, ?_⟩
  simp only [move, guard, positive, covered, and_self, if_true, Option.bind_eq_bind,
    Option.pure_def, Option.bind_some]
  rw [debit, Option.bind_some, credit, Option.bind_some]

end TokenLedger

/-! ## The world and the environment of a call -/

/-- A call the bridge makes to a token contract. -/
inductive TokenCall where
  | transfer (asset src dst : Address) (amount : I128)
  | transferFrom (asset spender src dst : Address) (amount : I128)
deriving DecidableEq

/-- How much a token call moves. -/
def TokenCall.amount : TokenCall → I128
  | .transfer _ _ _ amount | .transferFrom _ _ _ _ amount => amount

/-- What a call reads and changes. The last two fields belong to the call: the
events it has published and the token movements it has made, in order. -/
structure World where
  store : KeyedStore DataKey DataKey.Value
  tokens : TokenLedger
  /-- Hash of the code the host runs for the contract. -/
  wasm : BytesN 32
  events : List Event
  invocations : List TokenCall

/-- What stays the same over the life of one deployed instance. -/
structure Host where
  contractAddress : Address
  networkId : BytesN 32
  sha256 : List UInt8 → BytesN 32
  /-- Whether a public key decodes to a verifying key. -/
  verifyingKey : (pubkey : BytesN 32) → Bool
  /-- Strict signature verification under a decoded key. -/
  verifyStrict : (pubkey : BytesN 32) → (message : BytesN 32) → (signature : BytesN 64) → Bool
  /-- The textual form of an address. -/
  strkey : Address → List UInt8

/-- The environment of one call. -/
structure Env where
  host : Host
  timestamp : UInt64
  sequence : UInt32
  /-- The addresses that authorised this call. -/
  authorizes : Address → Bool
  /-- The addresses that authorised the token movements the call makes for them. -/
  authorizesTransfer : Address → Bool
  /-- Reasons of its own for a token contract to trap on a movement. -/
  refuses : TokenCall → Bool
  /-- What a pool's `swap` does to the token ledgers and the amount it returns. -/
  swap : (pool : Address) → (minAmountOut : I128) → TokenLedger → Option (TokenLedger × I128)
  /-- A contract authorises only calls it makes itself, and the host forbids
  the bridge to call itself. -/
  self_unauthorized : authorizes host.contractAddress = false

/-- The bridge's own address. -/
def Env.self (env : Env) : Address := env.host.contractAddress

/-- A call, or a part of one. -/
abbrev Call (α : Type) : Type := Tx World Failure α

namespace World

/-- Store a value. -/
def put (w : World) (key : DataKey) (value : key.Value) : World :=
  { w with store := w.store.set key value }

/-- Remove a stored value. -/
def erase (w : World) (key : DataKey) : World :=
  { w with store := w.store.remove key }

/-- Publish an event. -/
def emit (w : World) (event : Event) : World :=
  { w with events := w.events ++ [event] }

/-- Record a call to a token contract and the ledgers it leaves. -/
def settle (w : World) (tokens : TokenLedger) (call : TokenCall) : World :=
  { w with tokens := tokens, invocations := w.invocations ++ [call] }

/-- The world in which the next call starts. -/
def begin (w : World) : World :=
  { w with events := [], invocations := [] }

section Projections

variable (w : World) (key : DataKey) (value : key.Value) (event : Event) (ledger : TokenLedger)
  (call : TokenCall)

@[simp] theorem put_store : (w.put key value).store = w.store.set key value := rfl
@[simp] theorem put_tokens : (w.put key value).tokens = w.tokens := rfl
@[simp] theorem put_wasm : (w.put key value).wasm = w.wasm := rfl
@[simp] theorem put_events : (w.put key value).events = w.events := rfl
@[simp] theorem put_invocations : (w.put key value).invocations = w.invocations := rfl

@[simp] theorem erase_store : (w.erase key).store = w.store.remove key := rfl
@[simp] theorem erase_tokens : (w.erase key).tokens = w.tokens := rfl
@[simp] theorem erase_wasm : (w.erase key).wasm = w.wasm := rfl
@[simp] theorem erase_events : (w.erase key).events = w.events := rfl
@[simp] theorem erase_invocations : (w.erase key).invocations = w.invocations := rfl

@[simp] theorem emit_store : (w.emit event).store = w.store := rfl
@[simp] theorem emit_tokens : (w.emit event).tokens = w.tokens := rfl
@[simp] theorem emit_wasm : (w.emit event).wasm = w.wasm := rfl
@[simp] theorem emit_events : (w.emit event).events = w.events ++ [event] := rfl
@[simp] theorem emit_invocations : (w.emit event).invocations = w.invocations := rfl

@[simp] theorem settle_store : (w.settle ledger call).store = w.store := rfl
@[simp] theorem settle_tokens : (w.settle ledger call).tokens = ledger := rfl
@[simp] theorem settle_wasm : (w.settle ledger call).wasm = w.wasm := rfl
@[simp] theorem settle_events : (w.settle ledger call).events = w.events := rfl
@[simp] theorem settle_invocations :
    (w.settle ledger call).invocations = w.invocations ++ [call] := rfl

@[simp] theorem begin_store : w.begin.store = w.store := rfl
@[simp] theorem begin_tokens : w.begin.tokens = w.tokens := rfl
@[simp] theorem begin_wasm : w.begin.wasm = w.wasm := rfl
@[simp] theorem begin_events : w.begin.events = [] := rfl
@[simp] theorem begin_invocations : w.begin.invocations = [] := rfl

end Projections

end World

/-! ## What the host offers to the contract -/

/-- Whether a key is stored. -/
def World.has (w : World) (key : DataKey) : Bool := (w.store key).isSome

def save (key : DataKey) (value : key.Value) : Call Unit := .modify fun w => w.put key value

def remove (key : DataKey) : Call Unit := .modify fun w => w.erase key

def publish (event : Event) : Call Unit := .modify fun w => w.emit event

/-- Fail with an error of the contract when the condition holds. -/
abbrev reject (condition : Prop) [Decidable condition] (reason : BridgeError) : Call Unit :=
  rejectIf condition (.error reason)

/-- Go on with the value of a result, or fail with its error. -/
abbrev liftResult {α : Type} (result : Except BridgeError α) : Call α :=
  ofExcept .error result

/-- Go on with the value of an option, or fail with an error of the contract. -/
abbrev okOr {α : Type} (value : Option α) (reason : BridgeError) : Call α :=
  ofOption value (.error reason)

def requireAuth (env : Env) (address : Address) : Call Unit :=
  rejectIf (env.authorizes address = false) .trap

/-- `transfer` of a token contract. The bridge authorises its own payments by
making the call. -/
def transfer (env : Env) (asset src dst : Address) (amount : I128) : Call Unit := do
  rejectIf (src ≠ env.self ∧ env.authorizesTransfer src = false) .trap
  rejectIf (env.refuses (.transfer asset src dst amount) = true) .trap
  let tokens ← .read World.tokens
  let moved ← ofOption (tokens.move asset src dst amount) .trap
  .modify fun w => w.settle moved (.transfer asset src dst amount)

/-- `transfer_from` of a token contract, with the bridge as the spender. -/
def transferFrom (env : Env) (asset src dst : Address) (amount : I128) : Call Unit := do
  rejectIf (env.refuses (.transferFrom asset env.self src dst amount) = true) .trap
  let tokens ← .read World.tokens
  rejectIf ((tokens.allowance asset src env.self).val < amount.val) .trap
  let allowance ← ofOption ((tokens.allowance asset src env.self).checkedSub amount) .trap
  let moved ← ofOption
    ((tokens.setAllowance asset src env.self allowance).move asset src dst amount) .trap
  .modify fun w => w.settle moved (.transferFrom asset env.self src dst amount)

/-- `balance` of a token contract. -/
abbrev balance (asset holder : Address) : Call I128 := .read fun w => w.tokens.balance asset holder

/-- Invoke `swap` of a pool. A pool at the bridge's own address would be a
re-entry, which the host forbids. -/
def invokeSwap (env : Env) (pool : Address) (minAmountOut : I128) : Call I128 := do
  rejectIf (pool = env.self) .trap
  let tokens ← .read World.tokens
  let (swapped, amountOut) ← ofOption (env.swap pool minAmountOut tokens) .trap
  .modify fun w => { w with tokens := swapped }
  return amountOut

/-- Replace the code the host runs for the contract. -/
def updateCurrentContractWasm (hash : BytesN 32) : Call Unit :=
  .modify fun w => { w with wasm := hash }

/-- A successful transfer moves the amount and records the call. -/
theorem transfer_ok {env : Env} {asset src dst : Address} {amount : I128} {w w' : World}
    {u : Unit} (ran : (transfer env asset src dst amount).run w = .ok (u, w')) :
    ∃ moved, w.tokens.move asset src dst amount = some moved ∧
      w' = w.settle moved (.transfer asset src dst amount) := by
  simp only [transfer, run_bind_ok, run_rejectIf_ok, run_read_ok, run_ofOption_ok,
    run_modify_ok] at ran
  obtain ⟨_, _, ⟨-, rfl⟩, _, _, ⟨-, rfl⟩, _, _, ⟨rfl, rfl⟩, moved, _, ⟨moves, rfl⟩, rfl⟩ := ran
  exact ⟨moved, moves, rfl⟩

/-- A successful `transfer_from` spends that much of the allowance, moves the
amount and records the call. -/
theorem transferFrom_ok {env : Env} {asset src dst : Address} {amount : I128} {w w' : World}
    {u : Unit} (ran : (transferFrom env asset src dst amount).run w = .ok (u, w')) :
    ∃ allowance moved,
      allowance.val = (w.tokens.allowance asset src env.self).val - amount.val ∧
      amount.val ≤ (w.tokens.allowance asset src env.self).val ∧
      (w.tokens.setAllowance asset src env.self allowance).move asset src dst amount
        = some moved ∧
      w' = w.settle moved (.transferFrom asset env.self src dst amount) := by
  simp only [transferFrom, run_bind_ok, run_rejectIf_ok, run_read_ok, run_ofOption_ok,
    run_modify_ok] at ran
  obtain ⟨_, _, ⟨-, rfl⟩, _, _, ⟨rfl, rfl⟩, _, _, ⟨enough, rfl⟩, allowance, _, ⟨spends, rfl⟩,
    moved, _, ⟨moves, rfl⟩, rfl⟩ := ran
  exact ⟨allowance, moved, BoundedInt.checkedSub_eq_some.mp spends, not_lt.mp enough, moves, rfl⟩

/-- A successful swap is by another contract and replaces the token ledgers. -/
theorem invokeSwap_ok {env : Env} {pool : Address} {minAmountOut amountOut : I128} {w w' : World}
    (ran : (invokeSwap env pool minAmountOut).run w = .ok (amountOut, w')) :
    pool ≠ env.self ∧ ∃ swapped, env.swap pool minAmountOut w.tokens = some (swapped, amountOut) ∧
      w' = { w with tokens := swapped } := by
  simp only [invokeSwap, run_bind_ok, run_rejectIf_ok, run_read_ok, run_ofOption_ok,
    run_modify_ok, run_pure_ok] at ran
  obtain ⟨_, _, ⟨other, rfl⟩, _, _, ⟨rfl, rfl⟩, ⟨swapped, out⟩, _, ⟨swaps, rfl⟩, _, _, rfl, rfl,
    rfl⟩ := ran
  exact ⟨other, swapped, swaps, rfl⟩

end OnboardingBridge.Contract
