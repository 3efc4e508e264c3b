import OnboardingBridge.Foundations.Runs
import OnboardingBridge.Contract.Footprints

/-!
# Runs of a deployed contract

The contract as a transition system over worlds. A step is a successful call, a
failed call, which leaves the world as it was, or a movement of tokens the
bridge has no part in. The contract starts with an empty storage.

A call that the bridge does not make cannot lower its balances: the bridge
authorises no such call and grants no allowance.
-/

set_option autoImplicit false

namespace OnboardingBridge.Contract

open Foundations Foundations.Tx

/-- A successful call, with the world before it, what it returned and the world
it left. -/
structure Success where
  env : Env
  request : Request
  before : World
  reply : Reply
  after : World

/-- What happens in one step. -/
inductive Label where
  | success (call : Success)
  | failure (env : Env) (request : Request) (before : World) (reason : Failure)
  | external (tokens : TokenLedger)

/-- One step of the contract deployed on a host. -/
inductive Step (host : Host) : World → Label → World → Prop where
  | success {call : Success} (deployed : call.env.host = host)
      (ran : (execute call.env call.request).run call.before.begin = .ok (call.reply, call.after)) :
      Step host call.before (.success call) call.after
  | failure {env : Env} {request : Request} {w : World} {reason : Failure}
      (deployed : env.host = host) (ran : (execute env request).run w.begin = .error reason) :
      Step host w (.failure env request w reason) w
  | external {w : World} {tokens : TokenLedger}
      (kept : ∀ asset, (w.tokens.balance asset host.contractAddress).val ≤
        (tokens.balance asset host.contractAddress).val) :
      Step host w (.external tokens) { w with tokens }

/-- A freshly deployed contract. -/
structure Genesis (host : Host) (w : World) : Prop where
  store : w.store = .empty
  balances : ∀ asset, 0 ≤ (w.tokens.balance asset host.contractAddress).val

/-- A world that a run from a fresh deployment leads to. -/
def Reachable (host : Host) (w : World) : Prop :=
  ∃ start labels, Genesis host start ∧ Run (Step host) start labels w

theorem Reachable.run {host : Host} {w w' : World} {labels : List Label}
    (reachable : Reachable host w) (run : Run (Step host) w labels w') : Reachable host w' := by
  obtain ⟨start, before, fresh, first⟩ := reachable
  exact ⟨start, before ++ labels, fresh, first.append run⟩

/-- A run from a reachable world takes its steps between reachable worlds. -/
theorem Reachable.within {host : Host} {w w' : World} {labels : List Label}
    (reachable : Reachable host w) (run : Run (Step host) w labels w') :
    Run (fun w label w' => Reachable host w ∧ Step host w label w') w labels w' :=
  Run.within (Reachable host) (fun _ _ _ reached taken => reached.run (.single taken)) run reachable

/-- Every successful call of a run was made on the host of the run, in a world
the run reached, and ran as its label records. -/
theorem successful_of_run {host : Host} {w w' : World} {labels : List Label}
    (run : Run (Step host) w labels w') {call : Success} (member : .success call ∈ labels) :
    call.env.host = host ∧
      (execute call.env call.request).run call.before.begin = .ok (call.reply, call.after) ∧
      ∃ earlier, Run (Step host) w earlier call.before := by
  obtain ⟨earlier, later, rfl⟩ := List.append_of_mem member
  obtain ⟨t, first, rest⟩ := run.split
  cases rest with
  | cons taken _ =>
    cases taken with
    | success deployed ran => exact ⟨deployed, ran, earlier, first⟩

/-- What successful calls and movements of other parties keep holds in every
world a run from it reaches. -/
theorem run_world_invariant {host : Host} (inv : World → Prop) (admitted : Success → Prop)
    (calls : ∀ call : Success, call.env.host = host → admitted call → inv call.before →
      (execute call.env call.request).run call.before.begin = .ok (call.reply, call.after) →
      inv call.after)
    (external : ∀ (w : World) (tokens : TokenLedger),
      (∀ asset, (w.tokens.balance asset host.contractAddress).val ≤
        (tokens.balance asset host.contractAddress).val) → inv w → inv { w with tokens })
    {w w' : World} {labels : List Label} (run : Run (Step host) w labels w')
    (all : ∀ call, .success call ∈ labels → admitted call) (start : inv w) : inv w' := by
  refine run.invariant (fun label => ∀ call, label = .success call → admitted call) ?_ ?_ start
  · intro s label t holds allowed taken
    cases taken with
    | success deployed ran => exact calls _ deployed (allowed _ rfl) holds ran
    | failure => exact holds
    | external kept => exact external _ _ kept holds
  · rintro label member call rfl
    exact all call member

/-! ## Rehearsed runs -/

/-- Make a call and record it; a call that fails is recorded as leaving the world
as it was. -/
def attempt (env : Env) (request : Request) (w : World) : Success :=
  match (execute env request).run w.begin with
  | .ok (reply, after) => { env, request, before := w, reply, after }
  | .error _ => { env, request, before := w, reply := .done, after := w }

/-- Whether a call succeeds. -/
def succeeds (env : Env) (request : Request) (w : World) : Bool :=
  ((execute env request).run w.begin).isOk

theorem succeeds_iff {env : Env} {request : Request} {w : World} :
    succeeds env request w = true ↔
      ∃ reply w', (execute env request).run w.begin = .ok (reply, w') := by
  unfold succeeds
  cases (execute env request).run w.begin with
  | error reason => simp [Except.isOk, Except.toBool]
  | ok result => simp [Except.isOk, Except.toBool, Prod.ext_iff]

/-- Make calls one after the other. -/
def rehearse (w : World) : List (Env × Request) → List Success
  | [] => []
  | (env, request) :: rest => attempt env request w :: rehearse (attempt env request w).after rest

/-- The world a sequence of calls leaves. -/
def rehearsed (w : World) : List (Env × Request) → World
  | [] => w
  | (env, request) :: rest => rehearsed (attempt env request w).after rest

theorem attempt_call (env : Env) (request : Request) (w : World) :
    (attempt env request w).env = env ∧ (attempt env request w).request = request ∧
      (attempt env request w).before = w := by
  unfold attempt
  split <;> exact ⟨rfl, rfl, rfl⟩

/-- A call that succeeds ran as it is recorded. -/
theorem attempt_ran {env : Env} {request : Request} {w : World}
    (success : succeeds env request w = true) :
    (execute (attempt env request w).env (attempt env request w).request).run
      (attempt env request w).before.begin =
        .ok ((attempt env request w).reply, (attempt env request w).after) := by
  unfold succeeds at success
  unfold attempt
  cases ran : (execute env request).run w.begin with
  | error reason => simp [ran, Except.isOk, Except.toBool] at success
  | ok result => exact ran

theorem attempt_step {host : Host} {env : Env} {request : Request} {w : World}
    (deployed : env.host = host) (success : succeeds env request w = true) :
    Step host w (.success (attempt env request w)) (attempt env request w).after := by
  obtain ⟨sameEnv, -, sameWorld⟩ := attempt_call env request w
  have taken : Step host (attempt env request w).before (.success (attempt env request w))
      (attempt env request w).after := .success (by rw [sameEnv, deployed]) (attempt_ran success)
  rwa [sameWorld] at taken

/-- Calls that all succeed are the steps of a run. -/
theorem rehearse_run {host : Host} {calls : List (Env × Request)} {w : World}
    (deployed : ∀ call ∈ calls, call.1.host = host)
    (success : ∀ call ∈ rehearse w calls, succeeds call.env call.request call.before = true) :
    Run (Step host) w ((rehearse w calls).map .success) (rehearsed w calls) := by
  induction calls generalizing w with
  | nil => exact .nil w
  | cons call rest ih =>
      obtain ⟨env, request⟩ := call
      obtain ⟨here, later⟩ := List.forall_mem_cons.mp deployed
      obtain ⟨first, others⟩ := List.forall_mem_cons.mp success
      obtain ⟨sameEnv, sameRequest, sameWorld⟩ := attempt_call env request w
      rw [sameEnv, sameRequest, sameWorld] at first
      exact .cons (attempt_step here first) (ih later others)

/-- Every rehearsed call was asked for. -/
theorem mem_rehearse {calls : List (Env × Request)} {w : World} {call : Success}
    (member : call ∈ rehearse w calls) : (call.env, call.request) ∈ calls := by
  induction calls generalizing w with
  | nil => simp [rehearse] at member
  | cons first rest ih =>
      obtain ⟨env, request⟩ := first
      rcases List.mem_cons.mp member with rfl | member
      · obtain ⟨sameEnv, sameRequest, -⟩ := attempt_call env request w
        rw [sameEnv, sameRequest]
        exact List.mem_cons_self
      · exact List.mem_cons_of_mem _ (ih member)

/-! ## A host for rehearsals -/

namespace Rehearsal

def address (n : Nat) : Address := .account (BitVec.ofNat _ n)

def bridge : Address := .contract 0

theorem thousand_small : 1000 < 2 ^ 64 := by decide

theorem fiveThousand_small : 5000 < 2 ^ 64 := by decide

/-- A small amount of tokens. -/
def amount (n : Nat) (small : n < 2 ^ 64 := by decide) : I128 :=
  ⟨n, by omega, by omega⟩

/-- A hash that tells the byte strings of a small history apart. -/
def checksum (bytes : List UInt8) : BytesN 32 :=
  BitVec.ofNat _ (bytes.foldl (fun sum byte => 257 * sum + byte.toNat + 1) 0)

/-- A letter for the kind of an address, and its key in 55 bytes. -/
def strkey : Address → List UInt8
  | .account publicKey => 71 :: bigEndian 55 publicKey.toNat
  | .contract contractId => 67 :: bigEndian 55 contractId.toNat

/-- The only signature of a message under a key. -/
def sign (pubkey message : BytesN 32) : BytesN 64 := pubkey ++ message

def host : Host where
  contractAddress := bridge
  networkId := 0
  sha256 := checksum
  verifyingKey pubkey := decide (pubkey ≠ 0)
  verifyStrict pubkey message signature := decide (signature = sign pubkey message)
  strkey

theorem length_strkey (address : Address) : (strkey address).length = 56 := by
  cases address <;> simp [strkey]

theorem strkey_injective : Function.Injective strkey := by
  have keys {key key' : BytesN 32} (same : bigEndian 55 key.toNat = bigEndian 55 key'.toNat) :
      key = key' := by
    have narrow : 2 ^ (8 * 32) ≤ 256 ^ 55 := by norm_num
    exact BitVec.eq_of_toNat_eq
      (bigEndian_injOn (key.isLt.trans_le narrow) (key'.isLt.trans_le narrow) same)
  intro a b same
  cases a with
  | account publicKey =>
    cases b with
    | account publicKey' => rw [keys (List.cons.inj same).2]
    | contract contractId => exact absurd (List.cons.inj same).1 (by decide)
  | contract contractId =>
    cases b with
    | account publicKey => exact absurd (List.cons.inj same).1 (by decide)
    | contract contractId' => rw [keys (List.cons.inj same).2]

/-- A signature is for one message. -/
theorem sign_injective (pubkey : BytesN 32) : Function.Injective (sign pubkey) := by
  intro message message' same
  have last : ∀ message, (sign pubkey message).setWidth (8 * 32) = message := fun message =>
    BitVec.setWidth_append_eq_right
  rw [← last message, same, last]

/-- The hash is injective on byte strings that it tells apart. -/
theorem checksum_injOn (strings : List (List UInt8))
    (apart : ∀ a ∈ strings, ∀ b ∈ strings, checksum a = checksum b → a = b)
    {known : Set (List UInt8)} (listed : ∀ bytes ∈ known, bytes ∈ strings) :
    Set.InjOn checksum known :=
  fun a member b member' => apart a (listed a member) b (listed b member')

/-- A call that everybody but the bridge authorises, at a given time. -/
def env (timestamp : UInt64) : Env where
  host
  timestamp
  sequence := 0
  authorizes address := decide (address ≠ bridge)
  authorizesTransfer _ := true
  refuses _ := false
  swap _ _ _ := none
  self_unauthorized := by decide

/-- A fresh contract in whose assets everybody holds the same amount. -/
def fresh : World where
  store := .empty
  tokens := { balance := fun _ _ => amount 10000, allowance := fun _ _ _ => amount 10000 }
  wasm := 0
  events := []
  invocations := []

theorem fresh_genesis : Genesis host fresh := ⟨rfl, fun _ => by simp [fresh, amount]⟩

/-- The successful calls of a script of requests, each with its time. -/
def calls (script : List (UInt64 × Request)) : List Success :=
  rehearse fresh (script.map fun (timestamp, request) => (env timestamp, request))

/-- The world a script leaves. -/
def outcome (script : List (UInt64 × Request)) : World :=
  rehearsed fresh (script.map fun (timestamp, request) => (env timestamp, request))

/-- Whether every call of a script succeeds. -/
def goesThrough (script : List (UInt64 × Request)) : Bool :=
  (calls script).all fun call => succeeds call.env call.request call.before

theorem run (script : List (UInt64 × Request)) (success : goesThrough script = true) :
    Run (Step host) fresh ((calls script).map .success) (outcome script) := by
  refine rehearse_run (fun call member => ?_) (List.all_eq_true.mp success)
  obtain ⟨line, -, rfl⟩ := List.mem_map.mp member
  rfl

theorem reachable (script : List (UInt64 × Request)) (success : goesThrough script = true) :
    Reachable host (outcome script) :=
  ⟨fresh, _, fresh_genesis, run script success⟩

/-- What holds of the calls of a script holds of the successful labels of its
run. -/
theorem forall_calls {script : List (UInt64 × Request)} {fact : Success → Prop}
    (all : ∀ call ∈ calls script, fact call) (call : Success)
    (member : .success call ∈ (calls script).map Label.success) : fact call := by
  obtain ⟨call', rehearsed, same⟩ := List.mem_map.mp member
  obtain rfl := Label.success.inj same
  exact all call' rehearsed

/-- No pool of the rehearsal host swaps. -/
theorem no_swap {script : List (UInt64 × Request)} {call : Success}
    (member : call ∈ calls script) (pool : Address) (minAmountOut : I128) (tokens : TokenLedger) :
    call.env.swap pool minAmountOut tokens = none := by
  obtain ⟨line, -, same⟩ := List.mem_map.mp (mem_rehearse member)
  simp only [Prod.mk.injEq] at same
  rw [← same.1]
  rfl

end Rehearsal

end OnboardingBridge.Contract
