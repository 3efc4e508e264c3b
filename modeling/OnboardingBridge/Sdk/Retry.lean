import Mathlib.Algebra.Order.Floor.Ring
import Mathlib.Data.List.Infix
import Mathlib.Data.Rat.Floor

/-!
# Retries of RPC calls

A call is made again when it fails with a transient error, after a delay that grows. The loop
stops at the first attempt that succeeds, that fails for good or that is the last, and an abort
ends it before the next call (`retry_loop`). A call that changes state is attempted at most twice.
-/

set_option autoImplicit false

namespace OnboardingBridge.Sdk

/-! ## Numbers -/

/-- A number of JavaScript that counts attempts are compared with. -/
inductive JsNumber where
  | nan
  | negInfinity
  | posInfinity
  | real (value : ℚ)
deriving DecidableEq

/-- `attempt <= limit` -/
def JsNumber.atLeast : JsNumber → ℕ → Bool
  | .nan, _ => false
  | .negInfinity, _ => false
  | .posInfinity, _ => true
  | .real value, attempt => (attempt : ℚ) ≤ value

/-- `attempt >= limit` -/
def JsNumber.atMost : JsNumber → ℕ → Bool
  | .nan, _ => false
  | .negInfinity, _ => true
  | .posInfinity, _ => false
  | .real value, attempt => value ≤ attempt

/-- `Math.min` with a number that is no special one. -/
def JsNumber.min : JsNumber → ℚ → JsNumber
  | .nan, _ => .nan
  | .negInfinity, _ => .negInfinity
  | .posInfinity, other => .real other
  | .real value, other => .real (Min.min value other)

/-! ## Aborts -/

/-- The parts of an attempt: up to its call, up to the end of the call, up to the delay and
up to the end of the delay. -/
inductive Phase where
  | entry
  | call
  | decision
  | sleep

def Phase.index : Phase → ℕ
  | .entry => 0
  | .call => 1
  | .decision => 2
  | .sleep => 3

/-- The parts of all attempts in their order. -/
def moment (attempt : ℕ) (phase : Phase) : ℕ := 4 * attempt + phase.index

/-- A signal that is aborted in some part of some attempt, or never, with what `abortReason`
makes of it. -/
structure AbortSignal (ε : Type) where
  abortedAt : Option ℕ
  reason : ε

/-- The reason of the signal, when it is aborted by the end of a part. -/
def AbortSignal.abortedBy {ε : Type} (signal : AbortSignal ε) (attempt : ℕ) (phase : Phase) :
    Option ε :=
  if signal.abortedAt.any (· ≤ moment attempt phase) then some signal.reason else none

/-! ## The loop -/

structure RetryOptions (ε : Type) where
  maxRetries : Option JsNumber
  baseDelayMs : Option ℚ
  maxDelayMs : Option ℚ
  jitter : Option Bool
  isRetryable : ε → Bool
  signal : Option (AbortSignal ε)
  /-- The error with which the sleep of an attempt rejects, when it does so before an abort. -/
  sleep : Option (ℕ → ℚ → Option ε)

structure RetryAttempt (ε : Type) where
  attempt : ℕ
  maxRetries : JsNumber
  delayMs : ℚ
  error : ε

/-- The calls that were made, what was logged and the result; a rejection may be with `undefined`. -/
structure RetryRun (ε α : Type) where
  calls : List ℕ
  retries : List (RetryAttempt ε)
  result : Except (Option ε) α

def computeBackoffDelay (attempt : ℕ) (baseDelayMs maxDelayMs : ℚ) (jitter : Bool) (random : ℚ) :
    ℚ :=
  let exponential := min (baseDelayMs * 2 ^ attempt) maxDelayMs
  if jitter then (⌊random * (exponential + 1)⌋ : ℤ) else exponential

section Loop

variable {ε α : Type} (options : RetryOptions ε)

/-- A sleep that only waits. -/
def defaultSleep (_attempt : ℕ) (_ms : ℚ) : Option ε := none

/-- The reason of the signal of the options, when it is aborted by the end of a part. -/
def RetryOptions.abortedBy (attempt : ℕ) (phase : Phase) : Option ε :=
  options.signal.bind fun signal => signal.abortedBy attempt phase

/-- What a sleep rejects with: the reason of an abort, or its own error when that comes first. -/
def abortableSleep (attempt : ℕ) (ms : ℚ) : Option ε :=
  (options.abortedBy attempt .decision).or
    (((options.sleep.getD defaultSleep) attempt ms).or (options.abortedBy attempt .sleep))

/-- The loop from an attempt on, with what each call would come to and the random numbers. -/
def retryLoop (fn : ℕ → Except ε α) (random : ℕ → ℚ) :
    ℕ → ℕ → Option ε → Option (RetryRun ε α)
  | 0, _, _ => none
  | fuel + 1, attempt, lastError =>
      let maxRetries := options.maxRetries.getD (.real 3)
      if maxRetries.atLeast attempt then
        match options.abortedBy attempt .entry with
        | some reason => some ⟨[], [], .error (some reason)⟩
        | none =>
            match fn attempt with
            | .ok value => some ⟨[attempt + 1], [], .ok value⟩
            | .error error =>
                match options.abortedBy attempt .call with
                | some reason => some ⟨[attempt + 1], [], .error (some reason)⟩
                | none =>
                    if maxRetries.atMost attempt || !options.isRetryable error then
                      some ⟨[attempt + 1], [], .error (some error)⟩
                    else
                      let delayMs := computeBackoffDelay attempt (options.baseDelayMs.getD 1000)
                        (options.maxDelayMs.getD 30000) (options.jitter.getD true) (random attempt)
                      let retry := ⟨attempt + 1, maxRetries, delayMs, error⟩
                      match abortableSleep options attempt delayMs with
                      | some reason => some ⟨[attempt + 1], [retry], .error (some reason)⟩
                      | none =>
                          (retryLoop fn random fuel (attempt + 1) (some error)).map fun rest =>
                            ⟨(attempt + 1) :: rest.calls, retry :: rest.retries, rest.result⟩
      else some ⟨[], [], .error lastError⟩

/-- The retries of a call, for a number of turns of the loop. -/
def withRetry (fn : ℕ → Except ε α) (random : ℕ → ℚ) (fuel : ℕ) : Option (RetryRun ε α) :=
  retryLoop options fn random fuel 0 none

end Loop

/-! ## Policies -/

/-- A property of an error, as far as it is looked at. -/
inductive ErrorField where
  | text (value : String)
  | number (value : ℚ)
  | other
deriving DecidableEq

/-- What is read of a value that was thrown and is neither `null` nor `undefined`. -/
structure RpcError where
  code : Option ErrorField
  status : Option ErrorField
  statusCode : Option ErrorField
  responseStatus : Option ErrorField
  /-- The message, when it is a text. -/
  message : Option String
  /-- `String(error)` -/
  asText : String
deriving DecidableEq

def retryableErrorCodes : List String :=
  ["ECONNRESET", "ECONNREFUSED", "ECONNABORTED", "ENOTFOUND", "EAI_AGAIN", "ETIMEDOUT", "EPIPE",
    "ENETUNREACH", "EHOSTUNREACH"]

def retryableHttpStatus : List ℚ := [429, 502, 503, 504]

/-- The alternatives of the pattern, which ignores case. -/
def retryableMessages : List String :=
  ["timeout", "timed out", "rate limit", "too many requests", "network error", "socket hang up",
    "fetch failed", "service unavailable", "temporarily unavailable", "connection reset",
    "connection refused", "econnreset", "econnrefused", "enotfound", "eai_again", "etimedout"]

def hasRetryableMessage (message : String) : Bool :=
  retryableMessages.any fun phrase =>
    decide (phrase.toList <:+: message.toList.map Char.toLower)

def isRetryableRpcError : Option RpcError → Bool
  | none => false
  | some error =>
      let byCode : Bool :=
        match error.code with
        | some (.text code) => code ∈ retryableErrorCodes
        | _ => false
      let byStatus : Bool :=
        match (error.status.or error.statusCode).or error.responseStatus with
        | some (.number status) => status ∈ retryableHttpStatus
        | _ => false
      byCode || byStatus || hasRetryableMessage (error.message.getD error.asText)

structure RetryPolicy where
  maxRetries : ℚ
  baseDelayMs : ℚ
  maxDelayMs : ℚ
  jitter : Bool

def viewRetryPolicy : RetryPolicy := ⟨3, 1000, 30000, true⟩

def stateChangingRetryPolicy : RetryPolicy := ⟨1, 1000, 30000, true⟩

structure RpcRetryOptions where
  maxRetries : Option JsNumber
  baseDelayMs : Option ℚ
  maxDelayMs : Option ℚ
  jitter : Option Bool

def viewRpcMethods : List String :=
  ["getAccount", "simulateTransaction", "prepareTransaction", "getTransaction", "getTransactions",
    "getLatestLedger", "getNetwork", "getHealth", "getEvents", "getLedgerEntries",
    "getContractData"]

def stateChangingRpcMethods : List String := ["sendTransaction"]

def resolveViewOptions (o : RpcRetryOptions) : RetryOptions (Option RpcError) where
  maxRetries := some (o.maxRetries.getD (.real viewRetryPolicy.maxRetries))
  baseDelayMs := some (o.baseDelayMs.getD viewRetryPolicy.baseDelayMs)
  maxDelayMs := some (o.maxDelayMs.getD viewRetryPolicy.maxDelayMs)
  jitter := some (o.jitter.getD viewRetryPolicy.jitter)
  isRetryable := isRetryableRpcError
  signal := none
  sleep := none

def resolveStateOptions (o : RpcRetryOptions) : RetryOptions (Option RpcError) :=
  let viewMax := o.maxRetries.getD (.real viewRetryPolicy.maxRetries)
  { maxRetries := some (viewMax.min stateChangingRetryPolicy.maxRetries)
    baseDelayMs := some (o.baseDelayMs.getD stateChangingRetryPolicy.baseDelayMs)
    maxDelayMs := some (o.maxDelayMs.getD stateChangingRetryPolicy.maxDelayMs)
    jitter := some (o.jitter.getD stateChangingRetryPolicy.jitter)
    isRetryable := isRetryableRpcError
    signal := none
    sleep := none }

/-- The call of a method of the wrapped provider; a method of no policy is called once. -/
def withRpcRetry {α : Type} (options : RpcRetryOptions) (name : String)
    (value : ℕ → Except (Option RpcError) α) (random : ℕ → ℚ) (fuel : ℕ) :
    Option (RetryRun (Option RpcError) α) :=
  if name ∈ viewRpcMethods then withRetry (resolveViewOptions options) value random fuel
  else if name ∈ stateChangingRpcMethods then
    withRetry (resolveStateOptions options) value random fuel
  else
    match value 0 with
    | .ok result => some ⟨[1], [], .ok result⟩
    | .error error => some ⟨[1], [], .error (some error)⟩

/-! ## The end of the loop -/

section Ends

variable {ε α : Type} (options : RetryOptions ε) (fn : ℕ → Except ε α) (maxRetries : ℕ)

/-- An attempt that is followed by another one, unless an abort comes before that. -/
def GoesOn (attempt : ℕ) : Prop :=
  ∃ error, fn attempt = .error error ∧ options.isRetryable error = true ∧ attempt < maxRetries ∧
    options.abortedBy attempt .call = none

/-- How the loop ends in an attempt, after how many calls and with which result. -/
inductive Ends (attempt : ℕ) : ℕ → Except (Option ε) α → Prop where
  | succeeded {value : α} (success : fn attempt = .ok value) : Ends attempt (attempt + 1) (.ok value)
  | failed {error : ε} (failure : fn attempt = .error error)
      (running : options.abortedBy attempt .call = none)
      (final : options.isRetryable error = false ∨ attempt = maxRetries) :
      Ends attempt (attempt + 1) (.error (some error))
  | abandoned {error reason : ε} (failure : fn attempt = .error error)
      (aborted : options.abortedBy attempt .call = some reason) :
      Ends attempt (attempt + 1) (.error (some reason))
  | aborted {reason : ε} (aborted : options.abortedBy attempt .entry = some reason) :
      Ends attempt attempt (.error (some reason))

/-- What a run of the loop from an attempt on does. -/
structure Follows (first : ℕ) (run : RetryRun ε α) : Prop where
  ends : ∃ last count, first ≤ last ∧
    (∀ attempt, first ≤ attempt → attempt < last → GoesOn options fn maxRetries attempt) ∧
    Ends options fn maxRetries last count run.result ∧
    run.calls = List.range' (first + 1) (count - first) ∧
    ∀ attempt, first ≤ attempt → attempt < count → options.abortedBy attempt .entry = none

variable {options fn maxRetries}

theorem abortedBy_mono {attempt later : ℕ} {phase after : Phase} {reason : ε}
    (order : moment attempt phase ≤ moment later after)
    (aborted : options.abortedBy attempt phase = some reason) :
    options.abortedBy later after = some reason := by
  obtain ⟨signal, isSignal, here⟩ := Option.bind_eq_some_iff.mp aborted
  refine Option.bind_eq_some_iff.mpr ⟨signal, isSignal, ?_⟩
  unfold AbortSignal.abortedBy at *
  split at here
  · next reached =>
    rw [if_pos]
    · exact here
    · cases isAborted : signal.abortedAt with
      | none => simp [isAborted] at reached
      | some tick =>
          simp only [isAborted, Option.any_some, decide_eq_true_eq] at *
          omega
  · cases here

/-- A sleep that only waits is cut short by an abort only. -/
theorem abortableSleep_eq (waits : ∀ sleep, options.sleep = some sleep →
      ∀ attempt ms, sleep attempt ms = none) (attempt : ℕ) (ms : ℚ) :
    abortableSleep options attempt ms =
      (options.abortedBy attempt .decision).or (options.abortedBy attempt .sleep) := by
  have quiet : (options.sleep.getD defaultSleep) attempt ms = none := by
    cases own : options.sleep with
    | none => rfl
    | some sleep => exact waits sleep own attempt ms
  rw [abortableSleep, quiet, Option.none_or]

theorem Ends.reaches {attempt count : ℕ} {result : Except (Option ε) α}
    (ends : Ends options fn maxRetries attempt count result) : attempt ≤ count := by
  cases ends <;> omega

theorem Follows.later {first : ℕ} {rest : RetryRun ε α} {retry : RetryAttempt ε}
    (follows : Follows options fn maxRetries (first + 1) rest)
    (goesOn : GoesOn options fn maxRetries first)
    (running : options.abortedBy first .entry = none) :
    Follows options fn maxRetries first
      ⟨(first + 1) :: rest.calls, retry :: rest.retries, rest.result⟩ := by
  obtain ⟨last, count, order, earlier, ends, calls, unaborted⟩ := follows.ends
  have counted := ends.reaches
  refine ⟨last, count, by omega, ?_, ends, ?_, ?_⟩
  · intro attempt lower before
    rcases Nat.eq_or_lt_of_le lower with rfl | later
    · exact goesOn
    · exact earlier attempt later before
  · rw [calls, show count - first = count - (first + 1) + 1 by omega, List.range'_succ]
  · intro attempt lower before
    rcases Nat.eq_or_lt_of_le lower with rfl | later
    · exact running
    · exact unaborted attempt later before

/-- A run that ends with the first attempt. -/
theorem Follows.single {first : ℕ} {retries : List (RetryAttempt ε)}
    {result : Except (Option ε) α} (running : options.abortedBy first .entry = none)
    (ends : Ends options fn maxRetries first (first + 1) result) :
    Follows options fn maxRetries first ⟨[first + 1], retries, result⟩ := by
  refine ⟨first, first + 1, le_rfl, ?_, ends, ?_, ?_⟩
  · intro attempt lower before
    omega
  · rw [Nat.add_sub_cancel_left]
    rfl
  · intro attempt lower before
    obtain rfl : attempt = first := by omega
    exact running

/-- A run that ends with an abort between the first attempt and the next one. -/
theorem Follows.cut {first : ℕ} {retries : List (RetryAttempt ε)} {reason : ε}
    (running : options.abortedBy first .entry = none) (goesOn : GoesOn options fn maxRetries first)
    (aborted : options.abortedBy (first + 1) .entry = some reason) :
    Follows options fn maxRetries first ⟨[first + 1], retries, .error (some reason)⟩ := by
  refine ⟨first + 1, first + 1, Nat.le_succ first, ?_, .aborted aborted, ?_, ?_⟩
  · intro attempt lower before
    obtain rfl : attempt = first := by omega
    exact goesOn
  · rw [Nat.add_sub_cancel_left]
    rfl
  · intro attempt lower before
    obtain rfl : attempt = first := by omega
    exact running

/-- One turn of the loop ends it or goes on to the next attempt. -/
theorem retryLoop_turn (random : ℕ → ℚ) (limit : options.maxRetries = some (.real maxRetries))
    (waits : ∀ sleep, options.sleep = some sleep → ∀ attempt ms, sleep attempt ms = none)
    {first : ℕ} (within : first ≤ maxRetries) :
    (∃ run, Follows options fn maxRetries first run ∧ ∀ fuel lastError,
      retryLoop options fn random (fuel + 1) first lastError = some run) ∨
    (GoesOn options fn maxRetries first ∧ options.abortedBy first .entry = none ∧
      ∃ retry error, ∀ fuel lastError, retryLoop options fn random (fuel + 1) first lastError =
        (retryLoop options fn random fuel (first + 1) (some error)).map fun rest =>
          ⟨(first + 1) :: rest.calls, retry :: rest.retries, rest.result⟩) := by
  have enters : (options.maxRetries.getD (.real 3)).atLeast first = true := by
    simpa [limit, JsNumber.atLeast] using within
  have exhausts : (options.maxRetries.getD (.real 3)).atMost first = decide (maxRetries ≤ first) := by
    simp [limit, JsNumber.atMost]
  simp only [retryLoop, enters, if_true, exhausts, abortableSleep_eq waits]
  cases atEntry : options.abortedBy first .entry with
  | some reason =>
      refine .inl ⟨_, ⟨first, first, le_rfl, ?_, .aborted atEntry, ?_, ?_⟩, fun _ _ => rfl⟩
      · intro attempt lower before
        omega
      · rw [Nat.sub_self]
        rfl
      · intro attempt lower before
        omega
  | none =>
      cases outcome : fn first with
      | ok value => exact .inl ⟨_, .single atEntry (.succeeded outcome), fun _ _ => rfl⟩
      | error error =>
          cases inCall : options.abortedBy first .call with
          | some reason =>
              exact .inl ⟨_, .single atEntry (.abandoned outcome inCall), fun _ _ => rfl⟩
          | none =>
              by_cases final : maxRetries ≤ first ∨ options.isRetryable error = false
              · have ends : options.isRetryable error = false ∨ first = maxRetries := by
                  rcases final with last | permanent
                  · exact .inr (le_antisymm within last)
                  · exact .inl permanent
                refine .inl ⟨⟨[first + 1], [], .error (some error)⟩,
                  .single atEntry (.failed outcome inCall ends), fun _ _ => ?_⟩
                exact if_pos (by simpa using final)
              · have goesOn : GoesOn options fn maxRetries first := by
                  refine ⟨error, outcome, ?_, by omega, inCall⟩
                  cases retryable : options.isRetryable error with
                  | true => rfl
                  | false => exact absurd (.inr retryable) final
                have continues : (decide (maxRetries ≤ first) || !options.isRetryable error) =
                    false := by
                  simpa using final
                simp only [continues, Bool.false_eq_true, if_false]
                cases waiting : (options.abortedBy first .decision).or
                    (options.abortedBy first .sleep) with
                | some reason =>
                    have aborted : options.abortedBy (first + 1) .entry = some reason := by
                      rcases Option.or_eq_some_iff.mp waiting with before | ⟨-, during⟩
                      · exact abortedBy_mono (by simp only [moment, Phase.index]; omega) before
                      · exact abortedBy_mono (by simp only [moment, Phase.index]; omega) during
                    exact .inl ⟨_, .cut atEntry goesOn aborted, fun _ _ => rfl⟩
                | none => exact .inr ⟨goesOn, trivial, _, error, fun _ _ => rfl⟩

/-- The loop returns after at most one turn for each attempt. -/
theorem retryLoop_follows (random : ℕ → ℚ) (limit : options.maxRetries = some (.real maxRetries))
    (waits : ∀ sleep, options.sleep = some sleep → ∀ attempt ms, sleep attempt ms = none)
    (turns : ℕ) : ∀ first, first + turns = maxRetries → ∀ lastError,
    ∃ run, (∀ fuel, turns < fuel → retryLoop options fn random fuel first lastError = some run) ∧
      Follows options fn maxRetries first run := by
  induction turns with
  | zero =>
      intro first total lastError
      rcases retryLoop_turn random limit waits (Nat.le.intro total) with
        ⟨run, follows, returns⟩ | ⟨⟨_, _, _, before, _⟩, _⟩
      · refine ⟨run, fun fuel enough => ?_, follows⟩
        obtain ⟨fuel, rfl⟩ := Nat.exists_eq_add_of_lt enough
        rw [Nat.zero_add]
        exact returns fuel lastError
      · omega
  | succ turns step =>
      intro first total lastError
      rcases retryLoop_turn random limit waits (Nat.le.intro total) with
        ⟨run, follows, returns⟩ | ⟨goesOn, running, retry, error, continues⟩
      · refine ⟨run, fun fuel enough => ?_, follows⟩
        obtain ⟨fuel, rfl⟩ := Nat.exists_eq_add_of_lt enough
        exact returns _ lastError
      · obtain ⟨rest, returns, follows⟩ := step (first + 1) (by omega) (some error)
        refine ⟨⟨(first + 1) :: rest.calls, retry :: rest.retries, rest.result⟩,
          fun fuel enough => ?_, follows.later goesOn running⟩
        obtain ⟨fuel, rfl⟩ := Nat.exists_eq_add_of_lt enough
        rw [continues, returns _ (by omega)]
        rfl

end Ends

/-! ## Calls that change state -/

section Send

variable {α : Type} (options : RpcRetryOptions) (value : ℕ → Except (Option RpcError) α)

/-- The first attempt of a call that changes state is followed by a second one. -/
def SendsAgain : Prop :=
  ∃ error, value 0 = .error error ∧ isRetryableRpcError error = true ∧
    (options.maxRetries.getD (.real viewRetryPolicy.maxRetries)).atLeast 1 = true

/-- The capped number of retries: one attempt or two, and only one below one retry. -/
theorem capped_limit (configured : JsNumber) :
    (configured.min stateChangingRetryPolicy.maxRetries).atLeast 1 = configured.atLeast 1 ∧
      (configured.atLeast 1 = true →
        (configured.min stateChangingRetryPolicy.maxRetries).atLeast 0 = true ∧
        (configured.min stateChangingRetryPolicy.maxRetries).atMost 0 = false ∧
        (configured.min stateChangingRetryPolicy.maxRetries).atMost 1 = true) := by
  cases configured with
  | nan => simp [JsNumber.min, JsNumber.atLeast]
  | negInfinity => simp [JsNumber.min, JsNumber.atLeast]
  | posInfinity => simp [JsNumber.min, JsNumber.atLeast, JsNumber.atMost, stateChangingRetryPolicy]
  | real value =>
      simp only [JsNumber.min, JsNumber.atLeast, JsNumber.atMost, stateChangingRetryPolicy,
        decide_eq_true_eq, decide_eq_false_iff_not, Nat.cast_one, Nat.cast_zero, le_min_iff,
        min_le_iff, not_or, not_le, le_refl, and_true, or_true]
      refine ⟨trivial, fun atLeastOne => ⟨⟨?_, ?_⟩, ?_, ?_⟩⟩
      · linarith
      · norm_num
      · linarith
      · norm_num

/-- The limit of the retries of a call that changes state. -/
def stateLimit : JsNumber :=
  (options.maxRetries.getD (.real viewRetryPolicy.maxRetries)).min
    stateChangingRetryPolicy.maxRetries

/-- One turn of the loop of a call that changes state, which no signal aborts. -/
theorem state_turn (random : ℕ → ℚ) (attempt : ℕ) :
    ∃ retry : Option RpcError → RetryAttempt (Option RpcError), ∀ fuel lastError,
    retryLoop (resolveStateOptions options) value random (fuel + 1) attempt lastError =
      if (stateLimit options).atLeast attempt then
        match value attempt with
        | .ok result => some ⟨[attempt + 1], [], .ok result⟩
        | .error error =>
            if (stateLimit options).atMost attempt || !isRetryableRpcError error then
              some ⟨[attempt + 1], [], .error (some error)⟩
            else
              (retryLoop (resolveStateOptions options) value random fuel (attempt + 1)
                (some error)).map fun rest =>
                  ⟨(attempt + 1) :: rest.calls, retry error :: rest.retries, rest.result⟩
      else some ⟨[], [], .error lastError⟩ := by
  refine ⟨fun error => ⟨attempt + 1, stateLimit options, computeBackoffDelay attempt
    (options.baseDelayMs.getD stateChangingRetryPolicy.baseDelayMs)
    (options.maxDelayMs.getD stateChangingRetryPolicy.maxDelayMs)
    (options.jitter.getD stateChangingRetryPolicy.jitter) (random attempt), error⟩, ?_⟩
  intro fuel lastError
  have quiet (phase : Phase) : (resolveStateOptions options).abortedBy attempt phase = none := rfl
  have waits (ms : ℚ) : abortableSleep (resolveStateOptions options) attempt ms = none := rfl
  have limit : (resolveStateOptions options).maxRetries.getD (.real 3) = stateLimit options := rfl
  rw [retryLoop]
  simp only [quiet, waits, limit]
  cases value attempt with
  | ok result => rfl
  | error error => rfl

/-- What comes of the attempts of a call that changes state. -/
theorem send_run (random : ℕ → ℚ) :
    ∃ run, (∀ fuel, 3 ≤ fuel →
        withRpcRetry options "sendTransaction" value random fuel = some run) ∧
      ((run.calls = [] ∧ ¬ SendsAgain options value ∧ run.result = .error none) ∨
        (run.calls = [1] ∧ ¬ SendsAgain options value ∧
          run.result = (value 0).mapError some) ∨
        (run.calls = [1, 2] ∧ SendsAgain options value ∧
          run.result = (value 1).mapError some)) := by
  have isState : ∀ fuel, withRpcRetry options "sendTransaction" value random fuel =
      retryLoop (resolveStateOptions options) value random fuel 0 none := fun _ => rfl
  obtain ⟨firstRetry, first⟩ := state_turn options value random 0
  obtain ⟨secondRetry, second⟩ := state_turn options value random 1
  obtain ⟨sameLimit, allowed⟩ :=
    capped_limit (options.maxRetries.getD (.real viewRetryPolicy.maxRetries))
  change (stateLimit options).atLeast 1 = _ at sameLimit
  change _ → (stateLimit options).atLeast 0 = true ∧ (stateLimit options).atMost 0 = false ∧
    (stateLimit options).atMost 1 = true at allowed
  have turns : ∀ {run}, (∀ fuel, retryLoop (resolveStateOptions options) value random (fuel + 2) 0
      none = some run) → ∀ fuel, 3 ≤ fuel →
        withRpcRetry options "sendTransaction" value random fuel = some run := by
    intro run returns fuel enough
    obtain ⟨more, rfl⟩ := Nat.exists_eq_add_of_le enough
    rw [isState, show 3 + more = more + 1 + 2 by omega]
    exact returns _
  cases enters : (stateLimit options).atLeast 0 with
  | false =>
      refine ⟨⟨[], [], .error none⟩, turns fun fuel => ?_, .inl ⟨rfl, ?_, rfl⟩⟩
      · rw [first, enters]
        rfl
      · rintro ⟨-, -, -, atLeastOne⟩
        rw [(allowed atLeastOne).1] at enters
        cases enters
  | true =>
      cases outcome : value 0 with
      | ok result =>
          refine ⟨⟨[1], [], .ok result⟩, turns fun fuel => ?_, .inr (.inl ⟨rfl, ?_, rfl⟩)⟩
          · rw [first, enters, outcome]
            rfl
          · rintro ⟨error, failure, -⟩
            cases outcome.symm.trans failure
      | error error =>
          cases stops : (stateLimit options).atMost 0 || !isRetryableRpcError error with
          | true =>
              refine ⟨⟨[1], [], .error (some error)⟩, turns fun fuel => ?_,
                .inr (.inl ⟨rfl, ?_, rfl⟩)⟩
              · rw [first, enters, outcome]
                exact if_pos stops
              · rintro ⟨other, failure, retryable, atLeastOne⟩
                obtain rfl := Except.error.inj (outcome.symm.trans failure)
                rw [(allowed atLeastOne).2.1, retryable] at stops
                cases stops
          | false =>
              have retryable : isRetryableRpcError error = true := by
                cases isRetryable : isRetryableRpcError error with
                | true => rfl
                | false => simp [isRetryable] at stops
              cases again : (stateLimit options).atLeast 1 with
              | false =>
                  refine ⟨⟨[1], [firstRetry error], .error (some error)⟩, turns fun fuel => ?_,
                    .inr (.inl ⟨rfl, ?_, rfl⟩)⟩
                  · rw [first, enters, outcome]
                    refine (if_neg (Bool.eq_false_iff.mp stops)).trans ?_
                    rw [second, again]
                    rfl
                  · rintro ⟨-, -, -, atLeastOne⟩
                    rw [← sameLimit, again] at atLeastOne
                    cases atLeastOne
              | true =>
                  have sends : SendsAgain options value :=
                    ⟨error, outcome, retryable, sameLimit.symm.trans again⟩
                  have last := (allowed (sameLimit.symm.trans again)).2.2
                  refine ⟨⟨[1, 2], [firstRetry error], (value 1).mapError some⟩,
                    turns fun fuel => ?_, .inr (.inr ⟨rfl, sends, rfl⟩)⟩
                  rw [first, enters, outcome]
                  refine (if_neg (Bool.eq_false_iff.mp stops)).trans ?_
                  rw [second, again, last]
                  cases value 1 with
                  | ok result => rfl
                  | error other => rfl

end Send

/-! ## The loop as a whole -/

/-- **With a sleep that only waits, the loop calls attempts 1, 2, … up to the first one that ends
it, calls nothing once it is aborted, and ends as that attempt or the abort says; a call that
changes state is attempted at most twice, however many retries are configured.** -/
theorem retry_loop {ε α : Type} (options : RetryOptions ε) (fn : ℕ → Except ε α)
    (random : ℕ → ℚ) {maxRetries : ℕ} (limit : options.maxRetries = some (.real maxRetries))
    (waits : ∀ sleep, options.sleep = some sleep → ∀ attempt ms, sleep attempt ms = none) :
    (∃ run, (∀ fuel, maxRetries < fuel → withRetry options fn random fuel = some run) ∧
      ∃ last count, (∀ attempt < last, GoesOn options fn maxRetries attempt) ∧
        Ends options fn maxRetries last count run.result ∧ run.calls = List.range' 1 count ∧
        ∀ attempt < count, options.abortedBy attempt .entry = none) ∧
    ∀ (configured : RpcRetryOptions) (value : ℕ → Except (Option RpcError) α), ∃ run,
      (∀ fuel, 3 ≤ fuel → withRpcRetry configured "sendTransaction" value random fuel = some run) ∧
        run.calls.length ≤ 2 := by
  constructor
  · obtain ⟨run, returns, follows⟩ :=
      @retryLoop_follows ε α options fn maxRetries random limit waits maxRetries 0 (Nat.zero_add _)
        none
    obtain ⟨last, count, -, earlier, ends, calls, unaborted⟩ := follows.ends
    exact ⟨run, returns, last, count, fun attempt => earlier attempt (Nat.zero_le _), ends, calls,
      fun attempt => unaborted attempt (Nat.zero_le _)⟩
  · intro configured value
    obtain ⟨run, returns, parts⟩ := send_run configured value random
    refine ⟨run, returns, ?_⟩
    rcases parts with ⟨calls, -⟩ | ⟨calls, -⟩ | ⟨calls, -⟩ <;> rw [calls] <;> decide

/-- An abort during the first delay, with a sleep that ignores the signal. -/
theorem retry_loop_rehearsed :
    let options : RetryOptions String :=
      { maxRetries := some (.real (2 : ℕ)), baseDelayMs := some 1, maxDelayMs := some 8,
        jitter := some false, isRetryable := fun _ => true,
        signal := some ⟨some (moment 0 .sleep), "stopped"⟩, sleep := some fun _ _ => none }
    let fn : ℕ → Except String ℕ := fun attempt => if attempt = 0 then .error "timeout" else .ok 7
    ∃ run, withRetry options fn (fun _ => 0) 3 = some run ∧ run.calls = [1] ∧
      run.result = .error (some "stopped") := by
  intro options fn
  have waits : ∀ sleep, options.sleep = some sleep → ∀ attempt ms, sleep attempt ms = none := by
    intro sleep isSleep attempt ms
    rw [← Option.some.inj isSleep]
  obtain ⟨⟨run, returns, -⟩, -⟩ := retry_loop options fn (fun _ => 0) rfl waits
  have evaluated : ∃ retry, withRetry options fn (fun _ => 0) 3 =
      some ⟨[1], [retry], .error (some "stopped")⟩ := ⟨_, rfl⟩
  obtain ⟨retry, evaluated⟩ := evaluated
  obtain rfl := Option.some.inj ((returns 3 (by decide)).symm.trans evaluated)
  exact ⟨_, evaluated, rfl, rfl⟩

end OnboardingBridge.Sdk
