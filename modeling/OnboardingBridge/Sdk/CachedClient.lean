import OnboardingBridge.Foundations.Machines
import OnboardingBridge.Sdk.Cache

/-!
# The caching client

A read takes its value from the cache, or else simulates a call of the contract and
stores what it returns. A mutation deletes all cached values when its transaction is
pending, and again when the transaction is confirmed, for which it asks every now and
then.

Between the awaits of one call those of other calls run. Each result carries the
number of the ledger state that it was read from; the code does not know it.
-/

set_option autoImplicit false

namespace OnboardingBridge.Sdk

open Foundations

/-! ## Values -/

inductive CacheKey where
  | getFee
  | getFeeCollector
  | getAdmin
  | isInitialized
deriving DecidableEq

def cacheKeys : List CacheKey := [.getFee, .getFeeCollector, .getAdmin, .isInitialized]

def defaultTtlMs : CacheKey → Int
  | .getFee => 5 * 60 * 1000
  | .getFeeCollector => 24 * 60 * 60 * 1000
  | .getAdmin => 24 * 60 * 60 * 1000
  | .isInitialized => 5 * 60 * 1000

/-- What a view of the contract returns. -/
inductive ViewValue where
  | number (value : ℕ)
  | address (text : String)
  | flag (value : Bool)
deriving DecidableEq

/-- What a simulation results in. -/
inductive SimulationResult where
  | error (text : String)
  | nothing
  | value (value : ViewValue)

/-- A value, and the ledger state that it was fetched from. -/
structure Fetched where
  value : ViewValue
  fetchedAt : ℕ

/-- A cached read: its view of the contract, and what it says of an error. -/
structure CachedRead where
  cacheKey : CacheKey
  method : String
  failure : String

def getFee : CachedRead := ⟨.getFee, "query_fee_bps", "Failed to get fee: "⟩

def getFeeCollector : CachedRead :=
  ⟨.getFeeCollector, "query_fee_collector", "Failed to get fee collector: "⟩

def getAdmin : CachedRead := ⟨.getAdmin, "query_admin", "Failed to get admin: "⟩

def isInitialized : CachedRead :=
  ⟨.isInitialized, "query_is_initialized", "Failed to check initialization: "⟩

/-! ## States -/

/-- Where a read is: the cache was looked up, the simulation is asked for, its result is on the way,
or the value was stored. -/
inductive ReadPhase where
  | checked (cached : Option Fetched)
  | simulating
  | simulated (result : SimulationResult) (fetchedAt : ℕ)
  | stored (fetched : Fetched)

/-- A read in flight, and the states from which on the mutations that were settled when it started
had taken effect. -/
structure Read where
  read : CachedRead
  since : List ℕ
  phase : ReadPhase

/-- A read that has returned or thrown. -/
structure FinishedRead where
  read : CachedRead
  since : List ℕ
  result : Except String Fetched

inductive SendStatus where
  | pending
  | duplicate
  | tryAgainLater
  | error
deriving DecidableEq

inductive TransactionStatus where
  | notFound
  | success
  | failed
deriving DecidableEq

/-- What has become of a transaction: the network has not accepted it, holds it, has applied it, which
made a ledger state, or has included it without effect. -/
inductive Fate where
  | outside
  | held
  | applied (state : ℕ)
  | failed
deriving DecidableEq

/-- What the network says of a transaction. -/
def Fate.status : Fate → TransactionStatus
  | .outside => .notFound
  | .held => .notFound
  | .applied _ => .success
  | .failed => .failed

/-- Where a mutation is: it prepares its transaction, sends it, has got the answer, asks for the
status for the next time, has got the status, waits, has given up or thrown, or has deleted the
cached values after the confirmation. -/
inductive MutationPhase where
  | preparing
  | sending
  | sent (status : SendStatus)
  | confirming (attempts : ℕ)
  | polled (attempts : ℕ) (status : TransactionStatus)
  | sleeping (attempts : ℕ)
  | stopped
  | settled
deriving DecidableEq

/-- Whether a mutation waits for an answer, which may be an error. -/
def MutationPhase.waits : MutationPhase → Bool
  | .preparing | .sending | .sent _ | .confirming _ | .polled _ _ => true
  | .sleeping _ | .stopped | .settled => false

structure Mutation where
  phase : MutationPhase
  fate : Fate

/-- The ledger state from which on a mutation has taken effect, when its confirmation has deleted the
cached values. -/
def Mutation.settledAt (mutation : Mutation) : Option ℕ :=
  match mutation.phase, mutation.fate with
  | .settled, .applied state => some state
  | _, _ => none

/-- A client, its calls in flight, the time, and the contract: how many ledger states there were, and
the results of the views in the present one. -/
structure CachedClient where
  cache : InMemoryCache CacheKey Fetched
  reads : List Read
  mutations : List Mutation
  finished : List FinishedRead
  now : Int
  state : ℕ
  views : String → SimulationResult

namespace CachedClient

def create (options : InMemoryCacheOptions) (now : Int) (state : ℕ)
    (views : String → SimulationResult) : CachedClient :=
  ⟨.create options, [], [], [], now, state, views⟩

/-- The states from which on the settled mutations have taken effect. -/
def settled (s : CachedClient) : List ℕ := s.mutations.filterMap Mutation.settledAt

/-- Delete the cached values of some keys. -/
def invalidate (s : CachedClient) (keys : List CacheKey) : CachedClient :=
  { s with cache := keys.foldl InMemoryCache.delete s.cache }

def finish (s : CachedClient) (index : ℕ) (read : Read) (result : Except String Fetched) :
    CachedClient :=
  { s with
    reads := s.reads.eraseIdx index
    finished := s.finished ++ [⟨read.read, read.since, result⟩] }

end CachedClient

structure CachedClientConfig where
  timeout : Option ℕ
  ttlMs : CacheKey → Option Int

/-- How often a status that is not found is asked for again. -/
def CachedClientConfig.maxAttempts (config : CachedClientConfig) : ℕ :=
  max 1 (config.timeout.getD 30 * 2)

/-! ## Steps -/

/-- What may happen next: time passes; a call of the client starts, or goes on with what it waits
for, or a request of it fails; the RPC answers a request; the network accepts, applies or drops the
transaction of a mutation, or others change the contract. -/
inductive ClientAction where
  | elapse (ms : ℕ)
  | startRead (read : CachedRead)
  | simulate (index : ℕ)
  | failRead (index : ℕ) (message : String)
  | resumeRead (index : ℕ)
  | startMutation
  | send (index : ℕ)
  | accept (index : ℕ)
  | respond (index : ℕ) (status : SendStatus)
  | lookUp (index : ℕ)
  | failMutation (index : ℕ)
  | resumeMutation (index : ℕ)
  | apply (index : ℕ) (views : String → SimulationResult)
  | applyFailed (index : ℕ)
  | change (views : String → SimulationResult)
  | invalidateCache (keys : Option (List CacheKey))

section Machine

variable (config : CachedClientConfig)

/-- A read goes on: it returns a cached value or asks for a simulation, stores the result and
returns it. -/
def CachedClient.resumeRead (s : CachedClient) (index : ℕ) (read : Read) : Option CachedClient :=
  match read.phase with
  | .checked (some cached) => some (s.finish index read (.ok cached))
  | .checked none => some { s with reads := s.reads.set index { read with phase := .simulating } }
  | .simulating => none
  | .simulated (.error text) _ =>
      some (s.finish index read (.error (read.read.failure ++ text)))
  | .simulated .nothing _ =>
      some (s.finish index read (.error (read.read.method ++ " returned no value")))
  | .simulated (.value value) fetchedAt =>
      let key := read.read.cacheKey
      some { s with
        cache := s.cache.set s.now key ⟨value, fetchedAt⟩ (config.ttlMs key)
        reads := s.reads.set index { read with phase := .stored ⟨value, fetchedAt⟩ } }
  | .stored fetched => some (s.finish index read (.ok fetched))

/-- A mutation goes on: it deletes the cached values when its transaction is pending and when it is
confirmed, and asks for the status again when it is not found. -/
def CachedClient.resumeMutation (s : CachedClient) (index : ℕ) (mutation : Mutation) :
    Option CachedClient :=
  let goesOn (s : CachedClient) (phase : MutationPhase) : CachedClient :=
    { s with mutations := s.mutations.set index { mutation with phase := phase } }
  match mutation.phase with
  | .sent .pending => some (goesOn (s.invalidate cacheKeys) (.confirming 0))
  | .sent _ => some (goesOn s .stopped)
  | .polled attempts .notFound =>
      if attempts < config.maxAttempts then some (goesOn s (.sleeping attempts))
      else some (goesOn s .stopped)
  | .polled _ _ => some (goesOn (s.invalidate cacheKeys) .settled)
  | .sleeping attempts => some (goesOn s (.confirming (attempts + 1)))
  | _ => none

/-- What an action does, when it can happen. -/
def CachedClient.step (s : CachedClient) : ClientAction → Option CachedClient
  | .elapse ms => some { s with now := s.now + ms }
  | .startRead read =>
      let got := s.cache.get s.now read.cacheKey
      some { s with
        cache := got.2
        reads := s.reads ++ [⟨read, s.settled, .checked got.1⟩] }
  | .simulate index =>
      match s.reads[index]? with
      | some ⟨read, since, .simulating⟩ =>
          let result := ReadPhase.simulated (s.views read.method) s.state
          some { s with reads := s.reads.set index ⟨read, since, result⟩ }
      | _ => none
  | .failRead index message =>
      match s.reads[index]? with
      | some ⟨read, since, .simulating⟩ =>
          some (s.finish index ⟨read, since, .simulating⟩ (.error message))
      | some ⟨read, since, .simulated result fetchedAt⟩ =>
          some (s.finish index ⟨read, since, .simulated result fetchedAt⟩ (.error message))
      | _ => none
  | .resumeRead index => s.reads[index]?.bind fun read => s.resumeRead config index read
  | .startMutation => some { s with mutations := s.mutations ++ [⟨.preparing, .outside⟩] }
  | .send index =>
      match s.mutations[index]? with
      | some ⟨.preparing, fate⟩ =>
          some { s with mutations := s.mutations.set index ⟨.sending, fate⟩ }
      | _ => none
  | .accept index =>
      match s.mutations[index]? with
      | some ⟨phase, .outside⟩ =>
          if phase = .preparing then none
          else some { s with mutations := s.mutations.set index ⟨phase, .held⟩ }
      | _ => none
  | .respond index status =>
      match s.mutations[index]? with
      | some ⟨.sending, fate⟩ =>
          if status = .pending ∧ fate = .outside then none
          else some { s with mutations := s.mutations.set index ⟨.sent status, fate⟩ }
      | _ => none
  | .lookUp index =>
      match s.mutations[index]? with
      | some ⟨.confirming attempts, fate⟩ =>
          some { s with
            mutations := s.mutations.set index ⟨.polled attempts fate.status, fate⟩ }
      | _ => none
  | .failMutation index =>
      match s.mutations[index]? with
      | some ⟨phase, fate⟩ =>
          if phase.waits = true then
            some { s with mutations := s.mutations.set index ⟨.stopped, fate⟩ }
          else none
      | none => none
  | .resumeMutation index =>
      s.mutations[index]?.bind fun mutation => s.resumeMutation config index mutation
  | .apply index views =>
      match s.mutations[index]? with
      | some ⟨phase, .held⟩ =>
          some { s with
            mutations := s.mutations.set index ⟨phase, .applied (s.state + 1)⟩
            state := s.state + 1
            views := views }
      | _ => none
  | .applyFailed index =>
      match s.mutations[index]? with
      | some ⟨phase, .held⟩ =>
          some { s with mutations := s.mutations.set index ⟨phase, .failed⟩ }
      | _ => none
  | .change views => some { s with state := s.state + 1, views := views }
  | .invalidateCache none => some { s with cache := s.cache.clear }
  | .invalidateCache (some keys) => some (s.invalidate keys)

end Machine

end OnboardingBridge.Sdk
