import OnboardingBridge.Contract.BatchDelivery
import OnboardingBridge.Contract.ConfigHistory
import OnboardingBridge.Contract.FundingPaths
import OnboardingBridge.Foundations.Verdicts

/-!
# The errors of a batch

A batch is decided by a list of checks (`BatchCall.checks`): the documented conditions in the order
in which the code looks at them, and between them the conditions that are not documented, which are
an overflow, a missing authorisation, or a balance that is too small. The code follows the list but
for one entry (`batch_decided`): an oversized list of targets fails with the error of an oversized
table of tiers (`batch_errors`).
-/

set_option autoImplicit false

namespace OnboardingBridge.Contract

open Foundations Foundations.Tx

/-! ## The checks -/

/-- A condition whose failure is documented. -/
def documented (condition : Prop) [Decidable condition] (reason : BridgeError) : Check Failure :=
  ⟨decide condition, some (.error reason)⟩

/-- A condition that fails the call with no documented error. -/
def undocumented (condition : Prop) [Decidable condition] : Check Failure :=
  ⟨decide condition, none⟩

/-- Every amount is looked at before it is added to the total of those before it. -/
def amountChecks (minimum : I128) : (total : Int) → List I128 → List (Check Failure)
  | _, [] => []
  | total, amount :: rest =>
      documented (belowMinimum amount minimum) .invalidAmount ::
        undocumented (I128.maxValue < total + amount.val) ::
        amountChecks minimum (total + amount.val) rest

/-- The rate of a source in an asset. -/
def World.quotedFeeBps (w : World) (source asset : Address) : UInt32 :=
  w.bridgeConfig?.elim 0 fun config =>
    w.effectiveFeeBps asset (w.tieredFeeBps source asset config.feeBps)

/-- The arguments of a batch. -/
structure BatchCall where
  source : Address
  targets : List Address
  amounts : List I128
  asset : Address
  nonce : Option UInt64
  deadline : Option UInt64

namespace BatchCall

variable (call : BatchCall) (env : Env) (w : World)

def request : Request :=
  .batchFundCAddress call.source call.targets call.amounts call.asset call.nonce call.deadline

def entries : List (Address × I128) := call.targets.zip call.amounts

/-- The sum of all amounts. -/
def total : Int := (call.amounts.map BoundedInt.val).sum

theorem entriesTotal_eq (lengths : call.targets.length = call.amounts.length) :
    entriesTotal call.entries = call.total := by
  have amounts : call.entries.map Prod.snd = call.amounts := List.map_snd_zip lengths.ge
  rw [entriesTotal, total, ← amounts, List.map_map]
  rfl

/-- The usage of the source today, and what the batch adds to it. -/
def usage : Int :=
  w.dailyUsage call.source call.asset (currentDay env) + deliveredAmounts w.admits call.entries

/-- The source has a daily limit. -/
def Limited : Prop := (w.sourceDailyLimit call.source call.asset).val ≠ 0

instance : Decidable (call.Limited w) := inferInstanceAs (Decidable (_ ≠ _))

def rate : UInt32 := w.quotedFeeBps call.source call.asset

/-- The fees of the entries that are delivered. -/
def fees : Int := deliveredFees w.admits (call.rate w) call.entries

/-- A fee, a counter of the asset or the volume of the source does not fit. -/
def Overflows : Prop :=
  (∃ entry ∈ call.entries, w.admits entry.1 = true ∧
      I128.maxValue < entry.2.val * (call.rate w).toNat) ∨
    I128.maxValue < (w.counters call.asset).accruedFees.val + call.fees w ∨
    I128.maxValue < (w.counters call.asset).totalFeesCollected.val + call.fees w ∨
    I128.maxValue < (w.counters call.asset).totalBridged.val
      + (deliveredAmounts w.admits call.entries - call.fees w) ∨
    I128.maxValue < (w.sourceBridgedVolume call.source call.asset).val
      + deliveredAmounts w.admits call.entries

instance : Decidable (call.Overflows w) := inferInstanceAs (Decidable (_ ∨ _))

def pauseChecks : List (Check Failure) :=
  [documented (w.deactivated = true) .contractDeactivated,
    documented ((w.bridgeConfig?.any fun config => config.paused) = true) .contractPaused]

def limitChecks : List (Check Failure) :=
  [undocumented (call.Limited w ∧ I128.maxValue < call.usage env w),
    documented (call.Limited w ∧
      (w.sourceDailyLimit call.source call.asset).val < call.usage env w) .dailyLimitExceeded]

/-- The last nonce has no successor. -/
def nonceChecks : List (Check Failure) :=
  [documented (∃ nonce ∈ call.nonce, nonce ≠ w.nonceOf call.source) .duplicateNonce,
    undocumented (∃ nonce ∈ call.nonce, nonce.toNat + 1 = 2 ^ 64)]

def pullChecks : List (Check Failure) :=
  [undocumented (env.authorizesTransfer call.source = false),
    undocumented ((w.tokens.balance call.asset call.source).val < call.total)]

/-- The checks of a batch in the order of the code, when an oversized list has the given error. -/
def checks (oversized : BridgeError) : List (Check Failure) :=
  documented (w.initialized = false) .notInitialized ::
  (pauseChecks w ++
  (documented (maxBatchSize < call.targets.length) oversized ::
  documented (call.targets.isEmpty = true) .invalidAmount ::
  documented (expired env call.deadline) .transactionExpired ::
  documented (call.targets.length ≠ call.amounts.length) .mismatchedArrays ::
  documented (w.isAssetWhitelisted call.asset = false) .assetNotWhitelisted ::
  (amountChecks w.minimumAmount 0 call.amounts ++
  (call.limitChecks env w ++
  (undocumented (env.authorizes call.source = false) ::
  (call.nonceChecks w ++
  (call.pullChecks env w ++
  [undocumented (call.Overflows w)])))))))

end BatchCall

/-! ## The parts of the code -/

section Parts

variable {w : World}

/-- A part that only looks at the world leaves it as it is. -/
abbrev Looks {α : Type} (checks : List (Check Failure)) (body : Call α) (w : World) : Prop :=
  Decided checks (fun _ w' => w' = w) body w

theorem checkNotPaused_decided {w : World} (configured : ∃ config, w.bridgeConfig? = some config) :
    Looks [documented (w.deactivated = true) .contractDeactivated,
      documented ((w.bridgeConfig?.any fun config => config.paused) = true) .contractPaused]
      checkNotPaused w := by
  obtain ⟨config, found⟩ := configured
  have paused : readPaused.run w = .ok (config.paused, w) := by
    simp only [readPaused, run_bind_ok, readConfig_ok, run_pure_ok]
    exact ⟨_, _, ⟨config, found, rfl, rfl⟩, rfl, rfl⟩
  have deactivated : Looks [documented (w.deactivated = true) .contractDeactivated]
      checkNotDeactivated w := .congr rfl .of_rejectIf
  rw [found]
  change Decided ([_] ++ [_]) _ _ _
  refine deactivated.bind fun _ w' same => ?_
  rw [same]
  exact .pass paused .of_rejectIf

/-- A sum that is not too small fails if it is too large. -/
theorem safeAdd_decided {a b : I128} (nonneg : 0 ≤ b.val) (w : World) :
    Decided [undocumented (I128.maxValue < a.val + b.val)]
      (fun sum w' => sum.val = a.val + b.val ∧ w' = w) (liftResult (safeAdd a b)) w := by
  refine .of_iff (fun large => ?_) fun fits => ?_
  · cases added : safeAdd a b with
    | error reason => exact ⟨.error reason, rfl, by simp⟩
    | ok sum =>
        have value := safeAdd_ok.mp added
        have upper : sum.val ≤ I128.maxValue := sum.upper
        omega
  · obtain ⟨sum, value⟩ := exists_sum nonneg (not_lt.mp fits)
    rw [safeAdd_ok.mpr value]
    exact ⟨sum, w, rfl, value, rfl⟩

theorem validateAmounts_decided (minimum total : I128) (amounts : List I128) (w : World) :
    Decided (amountChecks minimum total.val amounts)
      (fun result w' => result.val = total.val + (amounts.map BoundedInt.val).sum ∧
        (∀ amount ∈ amounts, 0 < amount.val) ∧ w' = w)
      (validateAmounts minimum total amounts) w := by
  induction amounts generalizing total with
  | nil => exact .of_ok rfl ⟨by simp, by simp, rfl⟩
  | cons amount rest later =>
      rw [amountChecks, validateAmounts]
      refine .rejectIf fun enough => ?_
      have positive : 0 < amount.val := not_le.mp (not_or.mp enough).1
      refine (safeAdd_decided positive.le w).bind fun sum w' added => ?_
      obtain ⟨value, same⟩ := added
      rw [same, ← value]
      refine (later sum).mono fun result w'' _ meets => ?_
      obtain ⟨result, positives, same⟩ := meets
      refine ⟨?_, List.forall_mem_cons.mpr ⟨positive, positives⟩, same⟩
      rw [result, value, List.map_cons, List.sum_cons, add_assoc]

/-- The total of the delivered entries fits when that of all entries does. -/
theorem accessibleTotal_run {w : World} (configured : ∃ config, w.bridgeConfig? = some config)
    {entries : List (Address × I128)} {total : I128}
    (positive : ∀ entry ∈ entries, 0 < entry.2.val)
    (fits : total.val + entriesTotal entries ≤ I128.maxValue) :
    ∃ result, (accessibleTotal total entries).run w = .ok (result, w) ∧
      result.val = total.val + deliveredAmounts w.admits entries := by
  induction entries generalizing total with
  | nil => exact ⟨total, rfl, by simp⟩
  | cons entry rest later =>
      obtain ⟨target, amount⟩ := entry
      obtain ⟨here, others⟩ := List.forall_mem_cons.mp positive
      obtain ⟨error, looked, admitted⟩ := accessError_run configured target
      have room := entriesTotal_nonneg others
      rw [entriesTotal_cons] at fits
      simp only at fits here
      rw [accessibleTotal, run_bind_of_ok looked]
      cases error with
      | some reason =>
          have refused : w.admits target = false := by simpa using admitted
          obtain ⟨result, ran, value⟩ := @later total others (by omega)
          refine ⟨result, ran, ?_⟩
          rw [value, deliveredAmounts_refused refused]
      | none =>
          have accepted : w.admits target = true := admitted.mp rfl
          obtain ⟨sum, sumVal⟩ : ∃ sum : I128, sum.val = total.val + amount.val :=
            exists_sum here.le (by omega)
          obtain ⟨result, ran, value⟩ := @later sum others (by omega)
          refine ⟨result, ?_, ?_⟩
          · rw [Option.isNone_none, if_pos rfl, safeAdd_ok.mpr sumVal]
            exact ran
          · rw [value, sumVal, deliveredAmounts_accepted accepted, add_assoc]

theorem checkDailyLimit_decided (env : Env) (source asset : Address) {amount : I128}
    (nonneg : 0 ≤ amount.val) (w : World) :
    Decided [undocumented ((w.sourceDailyLimit source asset).val ≠ 0 ∧
        I128.maxValue < w.dailyUsage source asset (currentDay env) + amount.val),
      documented ((w.sourceDailyLimit source asset).val ≠ 0 ∧
        (w.sourceDailyLimit source asset).val <
          w.dailyUsage source asset (currentDay env) + amount.val) .dailyLimitExceeded]
      (fun _ w' => Frame {.dailyUsage source asset (currentDay env)} False w w')
      (checkDailyLimit env source asset amount) w := by
  have touches : Touches {.dailyUsage source asset (currentDay env)} False
      (checkDailyLimit env source asset amount) := checkDailyLimit_touches _ _ _ _ rfl
  by_cases limited : (w.sourceDailyLimit source asset).val = 0
  · have ran : (checkDailyLimit env source asset amount).run w = .ok ((), w) := by
      rw [checkDailyLimit, run_read_bind, if_pos limited]
      rfl
    exact .of_passed (by simp [documented, undocumented, limited]) ran (touches ran)
  · simp only [ne_eq, limited, not_false_eq_true, true_and]
    refine .establishes ?_ fun _ _ ran => touches ran
    rw [checkDailyLimit]
    refine .congr (run_read_bind ..) ?_
    rw [if_neg limited]
    refine .congr (run_read_bind ..) ((safeAdd_decided nonneg w).bind fun sum w' added => ?_)
    obtain ⟨value, same⟩ := added
    rw [same, World.dailyUsage, ← value]
    exact .rejectIf fun _ => .of_ok rfl trivial

theorem consumeNonce_decided (caller : Address) (nonce : Option UInt64) (w : World) :
    Decided [documented (∃ n ∈ nonce, n ≠ w.nonceOf caller) .duplicateNonce,
      undocumented (∃ n ∈ nonce, n.toNat + 1 = 2 ^ 64)]
      (fun _ w' => Frame {.nonce caller} False w w') (consumeNonce caller nonce) w := by
  have touches : Touches {.nonce caller} False (consumeNonce caller nonce) :=
    consumeNonce_touches _ _ rfl
  refine .establishes ?_ fun _ _ ran => touches ran
  cases nonce with
  | none => exact .of_passed (by simp [documented, undocumented]) rfl trivial
  | some n =>
      simp only [Option.mem_def, Option.some.injEq, exists_eq_left']
      refine .congr (run_read_bind ..) (.rejectIf fun current => ?_)
      have current : n = w.nonceOf caller := not_not.mp current
      refine .of_succeeds ⟨?_, fun fits => ?_⟩ fun _ _ _ => trivial
      · rintro ⟨_, w', ran, -⟩ last
        obtain ⟨next, found, -⟩ := run_ofOption_bind_ok.mp ran
        rw [← current, if_neg (by omega)] at found
        cases found
      · have bound := n.toNat_lt
        have small : n.toNat + 1 < 2 ^ 64 := by omega
        refine ⟨(), _, run_ofOption_bind_ok.mpr ⟨n + 1, ?_, rfl⟩, trivial⟩
        rw [← current, if_pos small]

/-- A source that is not the bridge pays what it holds, and the bridge gets it. -/
theorem pull_decided {env : Env} (accepted : ∀ call, env.refuses call = false) {w : World}
    (exact : w.tokens.Exact) {source asset : Address} (other : source ≠ env.self) {amount : I128}
    (nonneg : 0 ≤ amount.val) :
    Decided [undocumented (env.authorizesTransfer source = false),
      undocumented ((w.tokens.balance asset source).val < amount.val)]
      (fun _ w' => w'.store = w.store ∧ w'.tokens.Exact ∧
        amount.val ≤ (w'.tokens.balance asset env.self).val)
      (transfer env asset source env.self amount) w := by
  refine .establishes ?_ fun _ w' ran => ?_
  · have same : decide (env.authorizesTransfer source = false) =
        decide (source ≠ env.self ∧ env.authorizesTransfer source = false) := by
      simp [other]
    rw [transfer, undocumented, same]
    refine .unpromised (.rejectIf fun _ => .congr (run_rejectIf_bind (by simp [accepted])) ?_)
    refine .congr (run_read_bind ..) (.of_succeeds ⟨?_, fun covered => ?_⟩ fun _ _ _ => trivial)
    · rintro ⟨_, w', ran, -⟩ short
      obtain ⟨moved, moves, -⟩ := run_ofOption_bind_ok.mp ran
      have covered := (TokenLedger.move_eq_some moves).2.1
      omega
    · obtain ⟨moved, moves⟩ : ∃ moved, w.tokens.move asset source env.self amount = some moved :=
        exact.exists_move nonneg (not_lt.mp covered)
      exact ⟨(), _, run_ofOption_bind_ok.mpr ⟨moved, moves, rfl⟩, trivial⟩
  · obtain ⟨moved, moves, rfl⟩ := transfer_ok ran
    obtain ⟨-, -, -, balances⟩ := TokenLedger.move_eq_some moves
    refine ⟨rfl, exact.move moves, ?_⟩
    have before := exact.nonneg asset env.self
    rw [World.settle_tokens, balances, if_pos (And.intro rfl rfl),
      if_neg fun same => other same.2.symm]
    omega

/-- The re-entrancy guard adds no check between calls. -/
theorem nonReentrant_decided {α : Type} {checks : List (Check Failure)} {body : Call α}
    (idle : w.store .entered = none)
    (inner : Decided checks (fun _ _ => True) body (w.put .entered true)) :
    Decided checks (fun _ _ => True) (nonReentrant body) w := by
  have entered : ¬ (w.store .entered).getD false = true := by simp [idle]
  refine .congr (run_read_bind ..) (.congr (run_rejectIf_bind entered) ?_)
  rw [← List.append_nil checks]
  exact .congr (run_modify_bind ..) (inner.bind fun _ _ _ => .of_ok rfl trivial)

end Parts

/-! ## The delivery and what follows it -/

/-- Nothing differs in the store but what a charge of the source writes. -/
def World.Charged (w t : World) : Prop := ∀ key, key.isClaim = false → t.store key = w.store key

namespace World.Charged

variable {w t : World} (charged : w.Charged t)
include charged

theorem bridgeConfig? : t.bridgeConfig? = w.bridgeConfig? := by
  unfold World.bridgeConfig?
  rw [charged _ rfl, charged _ rfl, charged _ rfl, charged _ rfl]

theorem admits : t.admits = w.admits := by
  funext target
  unfold World.admits World.isBlocked World.isAllowlisted
  rw [charged.bridgeConfig?, charged _ rfl, charged _ rfl]

theorem counters (asset : Address) : t.counters asset = w.counters asset := by
  rw [World.counters, World.counters, charged _ rfl]

theorem volume (source asset : Address) :
    t.sourceBridgedVolume source asset = w.sourceBridgedVolume source asset := by
  rw [World.sourceBridgedVolume, World.sourceBridgedVolume, charged _ rfl]

theorem quotedFeeBps (source asset : Address) :
    t.quotedFeeBps source asset = w.quotedFeeBps source asset := by
  unfold World.quotedFeeBps World.effectiveFeeBps World.tieredFeeBps World.currentTier
    World.feeTiers World.assetFeeCap
  rw [charged.bridgeConfig?, charged.volume, charged _ rfl, charged _ rfl]

/-- The checks other than those of the limit, the nonce and the balance are the same. -/
theorem checks {call : BatchCall} {env : Env} (tokens : t.tokens = w.tokens)
    (nonce : t.store (.nonce call.source) = w.store (.nonce call.source))
    (used : t.store (.dailyUsage call.source call.asset (currentDay env)) =
      w.store (.dailyUsage call.source call.asset (currentDay env))) (oversized : BridgeError) :
    call.checks env t oversized = call.checks env w oversized := by
  have rate : call.rate t = call.rate w := charged.quotedFeeBps _ _
  have usage : call.usage env t = call.usage env w := by
    rw [BatchCall.usage, BatchCall.usage, charged.admits, World.dailyUsage, World.dailyUsage, used]
  have limit : t.sourceDailyLimit call.source call.asset =
      w.sourceDailyLimit call.source call.asset := by
    rw [World.sourceDailyLimit, World.sourceDailyLimit, charged _ rfl]
  have spent : t.nonceOf call.source = w.nonceOf call.source := by
    rw [World.nonceOf, World.nonceOf, nonce]
  have fees : call.fees t = call.fees w := by
    rw [BatchCall.fees, BatchCall.fees, rate, charged.admits]
  have initialized : t.initialized = w.initialized := by
    rw [World.initialized, World.initialized, World.has, World.has, charged _ rfl]
  have deactivated : t.deactivated = w.deactivated := by
    rw [World.deactivated, World.deactivated, World.has, World.has, charged _ rfl]
  have listed : t.isAssetWhitelisted call.asset = w.isAssetWhitelisted call.asset := by
    rw [World.isAssetWhitelisted, World.isAssetWhitelisted, charged _ rfl]
  have minimum : t.minimumAmount = w.minimumAmount := by
    rw [World.minimumAmount, World.minimumAmount, charged _ rfl]
  simp only [BatchCall.checks, BatchCall.pauseChecks, BatchCall.limitChecks, BatchCall.nonceChecks,
    BatchCall.pullChecks, BatchCall.Overflows, BatchCall.Limited, rate, usage, limit, spent, fees,
    initialized, deactivated, listed, minimum, tokens, charged.admits, charged.bridgeConfig?,
    charged.counters, charged.volume]
  congr

theorem rewardable {token : Option Address} {accepts : Address → Bool} (exact : t.tokens.Exact)
    (rewardable : Rewardable token accepts w) : Rewardable token accepts t where
  exact := exact
  accrued asset := charged.counters asset ▸ rewardable.accrued asset
  locked asset := charged.counters asset ▸ rewardable.locked asset
  rate := by
    rw [World.ReferralBounded, charged _ rfl]
    exact rewardable.rate
  configured := (charged _ rfl).trans rewardable.configured
  admits := charged.admits.trans rewardable.admits

end World.Charged

/-- The source is charged, and the bridge holds the total of the batch. -/
structure Pulled (env : Env) (call : BatchCall) (w t : World) : Prop where
  charged : w.Charged t
  exact : t.tokens.Exact
  held : call.total ≤ (t.tokens.balance call.asset env.self).val

/-- What a batch does once its amounts are pulled, at a rate. -/
def concludeBatch (env : Env) (call : BatchCall) (feeBps : UInt32) (successfulTotal : I128) :
    Call Unit := do
  let progress ← deliverBatch env call.source call.asset feeBps ⟨0, 0, 0⟩ call.entries
  onlyIf (0 < progress.refundTotal.val)
    (transfer env call.asset env.self call.source progress.refundTotal)
  incrementSourceBridgedVolume call.source call.asset successfulTotal
  onlyIf (0 < progress.successes) (mintLoyaltyTokens env call.source)
  publish (.batchCompleted call.source progress.successes progress.failures)

/-- The fees and the net amounts of the deliveries are those of the accepted entries. -/
theorem World.Delivers.sums {w : World} {feeBps : UInt32} {entries : List (Address × I128)}
    {deliveries : List Delivery} (delivers : w.Delivers feeBps entries deliveries)
    (positive : ∀ entry ∈ entries, 0 < entry.2.val) :
    feeTotal deliveries = deliveredFees w.admits feeBps entries ∧
      feeTotal deliveries + netTotal deliveries = deliveredAmounts w.admits entries := by
  have amounts : deliveries.map (fun delivery => delivery.amount) =
      (entries.filter fun entry => w.admits entry.1).map Prod.snd := by
    rw [← delivers.entries, List.map_map]
    rfl
  have nonneg : ∀ delivery ∈ deliveries, 0 ≤ delivery.amount.val := by
    intro delivery member
    have listed : (delivery.target, delivery.amount) ∈
        entries.filter fun entry => w.admits entry.1 := by
      rw [← delivers.entries]
      exact List.mem_map_of_mem member
    exact (positive _ (List.mem_of_mem_filter listed)).le
  constructor
  · have fees : ∀ delivery ∈ deliveries,
        delivery.fee.val = feeAt delivery.amount.val feeBps.toNat := fun delivery member =>
      ((calculateFee_charges (nonneg delivery member)).mp (delivers.charged delivery member).1).2
    rw [feeTotal, List.map_congr_left fees, deliveredFees]
    have same := congrArg (List.map fun amount : I128 => feeAt amount.val feeBps.toNat) amounts
    rw [List.map_map, List.map_map] at same
    exact congrArg List.sum same
  · have parts : ∀ delivery ∈ deliveries,
        delivery.fee.val + delivery.net.val = delivery.amount.val := by
      intro delivery member
      have net := (delivers.charged delivery member).2
      omega
    rw [feeTotal, netTotal, ← List.sum_map_add, List.map_congr_left parts, deliveredAmounts]
    have same := congrArg (List.map fun amount : I128 => amount.val) amounts
    rw [List.map_map, List.map_map] at same
    exact congrArg List.sum same

/-- The products of the accepted entries fit. -/
theorem World.Delivers.fit {w : World} {feeBps : UInt32} {entries : List (Address × I128)}
    {deliveries : List Delivery} (delivers : w.Delivers feeBps entries deliveries)
    (positive : ∀ entry ∈ entries, 0 < entry.2.val) {entry : Address × I128}
    (member : entry ∈ entries) (accepted : w.admits entry.1 = true) :
    entry.2.val * feeBps.toNat ≤ I128.maxValue := by
  have listed : entry ∈ entries.filter fun entry => w.admits entry.1 :=
    List.mem_filter.mpr ⟨member, accepted⟩
  rw [← delivers.entries] at listed
  obtain ⟨delivery, made, rfl⟩ := List.mem_map.mp listed
  exact ((calculateFee_charges (positive _ member).le).mp (delivers.charged delivery made).1).1

theorem Rewardable.mints {token : Option Address} {accepts : Address → Bool} {env : Env}
    (accepted : ∀ call, env.refuses call = false) {w : World}
    (rewardable : Rewardable token accepts w) (dst : Address) :
    ∃ w', (mintLoyaltyTokens env dst).run w = .ok ((), w') := by
  refine mintLoyaltyTokens_succeeds.mpr fun asset amount configured enough => ⟨accepted _, ?_⟩
  obtain ⟨-, positive⟩ := loyaltyReward_eq_some configured
  exact rewardable.exact.exists_move positive.le
    (enough.trans (rewardable.figure_le env.self asset))

section Conclude

variable {env : Env} {call : BatchCall} {w t : World} {feeBps : UInt32} {successfulTotal : I128}

/-- What a batch leaves alone until its volume is counted. -/
theorem concludeBatch_volume {progress : BatchProgress} {d p : World} (source asset : Address)
    (delivered : (deliverBatch env call.source call.asset feeBps ⟨0, 0, 0⟩ call.entries).run t =
      .ok (progress, d))
    (refunded : (onlyIf (0 < progress.refundTotal.val)
      (transfer env call.asset env.self call.source progress.refundTotal)).run d = .ok ((), p)) :
    p.sourceBridgedVolume source asset = t.sourceBridgedVolume source asset := by
  have delivers : Touches otherThanVolume True
      (deliverBatch env call.source call.asset feeBps ⟨0, 0, 0⟩ call.entries) :=
    deliverBatch_touches _ _ _ _ _ _ (by simp)
  have refunds : Touches otherThanVolume True (onlyIf (0 < progress.refundTotal.val)
      (transfer env call.asset env.self call.source progress.refundTotal)) :=
    .onlyIf (transfer_touches ..)
  rw [(refunds refunded).volumes, (delivers delivered).volumes]

/-- A batch that goes through overflows nothing. -/
theorem concludeBatch_fits (pulled : Pulled env call w t) (rate : call.rate w ≤ maxFeeBps)
    (positive : ∀ entry ∈ call.entries, 0 < entry.2.val)
    (successful : successfulTotal.val = deliveredAmounts w.admits call.entries) {t' : World}
    (ran : (concludeBatch env call (call.rate w) successfulTotal).run t = .ok ((), t')) :
    ¬ call.Overflows w := by
  obtain ⟨progress, d, delivered, ran⟩ := run_bind_ok.mp ran
  obtain ⟨_, p, refunded, ran⟩ := run_bind_ok.mp ran
  obtain ⟨_, v, counted, ran⟩ := run_bind_ok.mp ran
  obtain ⟨deliveries, delivers, -, posted, -⟩ :=
    deliverBatch_posted rate (fun entry member => (positive entry member).le) delivered
  obtain ⟨feesSum, amountsSum⟩ := delivers.sums positive
  rw [pulled.charged.admits] at feesSum amountsSum
  have feesSum : feeTotal deliveries = call.fees w := feesSum
  have accrued := posted.recorded.earmarked .accruedFees call.asset
  have collected := posted.fees call.asset
  have bridged := posted.bridged call.asset
  simp only [World.books, earmarks_deliveries, pulled.charged.counters, inAsset, if_true] at accrued
  simp only [pulled.charged.counters, inAsset, if_true] at collected bridged
  rw [incrementSourceBridgedVolume, run_read_bind] at counted
  obtain ⟨updated, adds, -⟩ := run_ofExcept_bind_ok.mp counted
  have volume := safeAdd_ok.mp adds
  rw [concludeBatch_volume _ _ delivered refunded, pulled.charged.volume, successful] at volume
  have highest (value : I128) : value.val ≤ I128.maxValue := value.upper
  rintro (⟨entry, member, accepted, large⟩ | large | large | large | large)
  · have product := delivers.fit positive member (pulled.charged.admits ▸ accepted)
    exact absurd product (not_le.mpr large)
  · have upper := highest (d.counters call.asset).accruedFees
    omega
  · have upper := highest (d.counters call.asset).totalFeesCollected
    omega
  · have upper := highest (d.counters call.asset).totalBridged
    omega
  · have upper := highest updated
    omega

/-- A batch that overflows nothing goes through. -/
theorem concludeBatch_runs (accepted : ∀ call, env.refuses call = false)
    (pulled : Pulled env call w t) {token : Option Address}
    (rewardable : Rewardable token w.admits w)
    (configured : ∃ config, w.bridgeConfig? = some config) (rate : call.rate w ≤ maxFeeBps)
    (positive : ∀ entry ∈ call.entries, 0 < entry.2.val)
    (few : call.entries.length < 2 ^ 32) (whole : entriesTotal call.entries ≤ call.total)
    (successful : successfulTotal.val = deliveredAmounts w.admits call.entries)
    (fits : ¬ call.Overflows w) :
    ∃ t', (concludeBatch env call (call.rate w) successfulTotal).run t = .ok ((), t') := by
  simp only [BatchCall.Overflows, not_or, not_exists, not_and, not_lt] at fits
  obtain ⟨products, accrued, collected, bridged, volume⟩ := fits
  have can : CanDeliver env call.asset (call.rate w) w.admits ⟨0, 0, 0⟩ call.entries t := by
    have same := pulled.charged.counters call.asset
    refine ⟨pulled.exact, pulled.charged.bridgeConfig? ▸ configured, pulled.charged.admits,
      positive, ?_, le_rfl, ?_, products, same ▸ accrued, same ▸ collected, same ▸ bridged⟩
    · change 0 + 0 + call.entries.length < 2 ^ 32
      omega
    · have held := pulled.held
      change 0 + entriesTotal call.entries ≤ _
      omega
  obtain ⟨progress, d, delivered, can⟩ := exists_deliverBatch accepted call.source rate can
  have held : progress.refundTotal.val ≤ (d.tokens.balance call.asset env.self).val := by
    have held := can.held
    change progress.refundTotal.val + 0 ≤ _ at held
    omega
  obtain ⟨p, refunded, -, -, -⟩ := payout_run accepted can.exact call.source held
  have nonneg : ∀ entry ∈ call.entries, 0 ≤ entry.2.val := fun entry member =>
    (positive entry member).le
  obtain ⟨sum, sumVal⟩ : ∃ sum : I128, sum.val =
      (p.sourceBridgedVolume call.source call.asset).val + successfulTotal.val := by
    rw [concludeBatch_volume _ _ delivered refunded, pulled.charged.volume]
    refine exists_sum ?_ (successful ▸ volume)
    rw [successful]
    exact deliveredAmounts_nonneg positive
  have counted : (incrementSourceBridgedVolume call.source call.asset successfulTotal).run p =
      .ok ((), p.put (.sourceBridgedVolume call.source call.asset) sum) := by
    rw [incrementSourceBridgedVolume, run_read_bind, safeAdd_ok.mpr sumVal]
    rfl
  have delivering := (deliverBatch_steady env call.source call.asset (call.rate w) ⟨0, 0, 0⟩
    nonneg (pulled.charged.rewardable pulled.exact rewardable) delivered).1
  have refunding := (Keeps.onlyIf (transfer_steady ..) delivering refunded).1
  have counting := (silent_steady
    (incrementSourceBridgedVolume_touches _ _ _ (by simp)) refunding counted).1
  obtain ⟨m, minted⟩ : ∃ m, (onlyIf (0 < progress.successes)
      (mintLoyaltyTokens env call.source)).run
        (p.put (.sourceBridgedVolume call.source call.asset) sum) = .ok ((), m) := by
    rw [onlyIf]
    split
    · exact counting.mints accepted call.source
    · exact ⟨_, rfl⟩
  refine ⟨m.emit (.batchCompleted call.source progress.successes progress.failures), ?_⟩
  rw [concludeBatch, run_bind_of_ok delivered, run_bind_of_ok refunded, run_bind_of_ok counted,
    run_bind_of_ok minted]
  rfl

end Conclude

/-! ## The whole batch -/

theorem World.quotedFeeBps_le {w : World} (bounded : w.FeesBounded) (source asset : Address) :
    w.quotedFeeBps source asset ≤ maxFeeBps := by
  unfold World.quotedFeeBps
  cases found : w.bridgeConfig? with
  | none => exact UInt32.le_iff_toNat_le.mpr (Nat.zero_le _)
  | some config =>
      refine UInt32.le_trans (World.effectiveFeeBps_le ..) ?_
      exact UInt32.le_trans (World.tieredFeeBps_le ..) (bounded.bridgeConfig found)

/-- What a batch does once its arguments are accepted. -/
def pullBatch (env : Env) (call : BatchCall) (total successfulTotal : I128) : Call Unit := do
  checkDailyLimit env call.source call.asset successfulTotal
  requireAuth env call.source
  consumeNonce call.source call.nonce
  transfer env call.asset call.source env.self total
  let globalFeeBps ← readFeeBps
  let tieredFeeBps ← getTieredFeeBps call.source call.asset globalFeeBps
  let effectiveFeeBps ← getEffectiveFeeBps call.asset tieredFeeBps
  concludeBatch env call effectiveFeeBps successfulTotal

section Pull

variable {env : Env} {call : BatchCall} {w : World} {token : Option Address}

theorem conclude_decided (accepted : ∀ call, env.refuses call = false) {t : World}
    (pulled : Pulled env call w t) (rewardable : Rewardable token w.admits w)
    (configured : ∃ config, w.bridgeConfig? = some config) (bounded : w.FeesBounded)
    (positive : ∀ entry ∈ call.entries, 0 < entry.2.val) (few : call.entries.length < 2 ^ 32)
    (whole : entriesTotal call.entries ≤ call.total) {successfulTotal : I128}
    (successful : successfulTotal.val = deliveredAmounts w.admits call.entries) :
    Decided [undocumented (call.Overflows w)] (fun _ _ => True) (do
      let globalFeeBps ← readFeeBps
      let tieredFeeBps ← getTieredFeeBps call.source call.asset globalFeeBps
      let effectiveFeeBps ← getEffectiveFeeBps call.asset tieredFeeBps
      concludeBatch env call effectiveFeeBps successfulTotal) t := by
  have rate : call.rate w ≤ maxFeeBps := World.quotedFeeBps_le bounded _ _
  obtain ⟨config, found⟩ := configured
  have found' : t.bridgeConfig? = some config := pulled.charged.bridgeConfig?.trans found
  refine .pass (readFeeBps_holds.mpr ⟨⟨config, found', rfl⟩, rfl⟩) ?_
  refine .pass (getTieredFeeBps_run ..) (.pass (getEffectiveFeeBps_ok.mpr ⟨rfl, rfl⟩) ?_)
  have quoted : t.effectiveFeeBps call.asset
      (t.tieredFeeBps call.source call.asset config.feeBps) = call.rate w := by
    rw [BatchCall.rate, ← pulled.charged.quotedFeeBps, World.quotedFeeBps, found']
    rfl
  rw [quoted]
  refine .of_succeeds ⟨?_, fun fits => ?_⟩ fun _ _ _ => trivial
  · rintro ⟨_, t', ran, -⟩
    exact concludeBatch_fits pulled rate positive successful ran
  · obtain ⟨t', ran⟩ := concludeBatch_runs accepted pulled rewardable ⟨config, found⟩ rate positive
      few whole successful fits
    exact ⟨(), t', ran, trivial⟩

theorem pullBatch_decided (accepted : ∀ call, env.refuses call = false)
    (rewardable : Rewardable token w.admits w)
    (configured : ∃ config, w.bridgeConfig? = some config) (bounded : w.FeesBounded)
    (positive : ∀ entry ∈ call.entries, 0 < entry.2.val) (few : call.entries.length < 2 ^ 32)
    (whole : entriesTotal call.entries ≤ call.total) {total successfulTotal : I128}
    (sum : total.val = call.total) (nonneg : 0 ≤ total.val)
    (successful : successfulTotal.val = deliveredAmounts w.admits call.entries) :
    Decided (call.limitChecks env w ++ (undocumented (env.authorizes call.source = false) ::
      (call.nonceChecks w ++ (call.pullChecks env w ++ [undocumented (call.Overflows w)]))))
      (fun _ _ => True) (pullBatch env call total successfulTotal) w := by
  have limit := checkDailyLimit_decided env call.source call.asset
    (successful ▸ deliveredAmounts_nonneg positive : 0 ≤ successfulTotal.val) w
  rw [successful] at limit
  refine limit.bind fun _ d charged => .unpromised (.rejectIf fun authorized => ?_)
  have other : call.source ≠ env.self :=
    ne_self_of_authorizes ((Bool.not_eq_false _).mp authorized)
  have spends := consumeNonce_decided call.source call.nonce d
  rw [World.nonceOf, charged.store _ (by simp)] at spends
  refine spends.bind fun _ t spent => ?_
  have nothing : t.tokens = w.tokens :=
    (spent.tokens not_false).trans (charged.tokens not_false)
  have exact : t.tokens.Exact := nothing ▸ rewardable.exact
  have pulls : Decided _ _ (transfer env call.asset call.source env.self total) t :=
    pull_decided accepted exact other nonneg
  rw [nothing, sum] at pulls
  refine pulls.bind fun _ p pulled => ?_
  obtain ⟨same, exact, held⟩ := pulled
  refine conclude_decided accepted ⟨fun key kept => ?_, exact, sum ▸ held⟩ rewardable configured
    bounded positive few whole successful
  rw [same, spent.store key ?_, charged.store key ?_]
  · rintro rfl
    cases kept
  · rintro rfl
    cases kept

end Pull

/-- A batch follows the checks. -/
theorem batch_decided {env : Env} (accepted : ∀ call, env.refuses call = false) (call : BatchCall)
    {w : World} (idle : w.store .entered = none)
    (configured : w.initialized = true → ∃ config, w.bridgeConfig? = some config)
    (bounded : w.FeesBounded) {token : Option Address} (rewardable : Rewardable token w.admits w) :
    Decided (call.checks env w .tooManyFeeTiers) (fun _ _ => True)
      (batchFundCAddress env call.source call.targets call.amounts call.asset call.nonce
        call.deadline) w := by
  have entered {key : DataKey} (other : key ≠ .entered) :
      (w.put .entered true).store key = w.store key := KeyedStore.set_of_ne w.store other true
  have charged : w.Charged (w.put .entered true) := by
    intro key kept
    refine entered ?_
    rintro rfl
    cases kept
  have checks : call.checks env (w.put .entered true) .tooManyFeeTiers =
      call.checks env w .tooManyFeeTiers :=
    charged.checks rfl (entered (by simp)) (entered (by simp)) _
  refine nonReentrant_decided idle ?_
  have configured : (w.put .entered true).initialized = true →
      ∃ config, (w.put .entered true).bridgeConfig? = some config := by
    rw [charged.bridgeConfig?, World.initialized, World.has, charged _ rfl]
    exact configured
  have bounded : (w.put .entered true).FeesBounded :=
    ⟨charged .bridgeConfig rfl ▸ bounded.config, charged .feeBps rfl ▸ bounded.legacy⟩
  have rewardable := charged.rewardable rewardable.exact rewardable
  rw [← charged.admits] at rewardable
  rw [← checks]
  generalize w.put .entered true = s at configured bounded rewardable ⊢
  refine .congr rfl (.rejectIf fun opened => ?_)
  have configured := configured ((Bool.not_eq_false _).mp opened)
  refine (checkNotPaused_decided configured).bind fun _ s' same => ?_
  rw [same]
  refine .rejectIf fun small => .rejectIf fun _ => .rejectIf fun _ => .rejectIf fun lengths => ?_
  refine .congr rfl (.rejectIf fun _ => ?_)
  refine .congr (run_read_bind ..) ?_
  refine (validateAmounts_decided s.minimumAmount 0 call.amounts s).bind fun total s' meets => ?_
  obtain ⟨totalVal, positives, same⟩ := meets
  rw [same]
  have lengths : call.targets.length = call.amounts.length := not_not.mp lengths
  have sum : total.val = call.total := totalVal.trans (Int.zero_add _)
  have whole : entriesTotal call.entries = call.total := call.entriesTotal_eq lengths
  have positive : ∀ entry ∈ call.entries, 0 < entry.2.val := fun entry member =>
    positives _ (List.of_mem_zip member).2
  have few : call.entries.length < 2 ^ 32 := by
    have small : call.targets.length ≤ 100 := not_lt.mp small
    rw [BatchCall.entries, List.length_zip]
    omega
  have room : (0 : I128).val + entriesTotal call.entries ≤ I128.maxValue := by
    have upper : total.val ≤ I128.maxValue := total.upper
    have zero : (0 : I128).val = 0 := rfl
    omega
  obtain ⟨successfulTotal, looked, value⟩ := accessibleTotal_run configured positive room
  refine .pass looked ?_
  have nonneg : 0 ≤ total.val := by
    rw [sum, ← whole]
    exact entriesTotal_nonneg positive
  exact pullBatch_decided accepted rewardable configured bounded positive few whole.le sum nonneg
    (value.trans (Int.zero_add _))

/-! ## The error contract -/

/-- The code looks at the size of the list of targets, and the list is oversized. -/
def BatchCall.Oversized (call : BatchCall) (w : World) : Prop :=
  w.initialized = true ∧ w.deactivated = false ∧
    (w.bridgeConfig?.any fun config => config.paused) = false ∧ maxBatchSize < call.targets.length

/-- What is promised of the errors of a batch: it fails exactly if a check does, with the documented
error of the first one, and a failure leaves everything as it was. -/
structure BatchErrorContract (host : Host) (env : Env) (call : BatchCall) (w : World) : Prop where
  fails : (∃ reason, (execute env call.request).run w.begin = .error reason) ↔
    ∃ check ∈ call.checks env w .batchTooLarge, check.fails = true
  documented : ∀ check reason, Check.first (call.checks env w .batchTooLarge) = some check →
    check.error = some reason → (execute env call.request).run w.begin = .error reason
  unchanged : ∀ reason w', Step host w (.failure env call.request w reason) w' → w' = w

section Contract

variable {env : Env} {call : BatchCall} {w : World}

/-- An oversized list that is looked at fails its check. -/
theorem BatchCall.Oversized.first_checks (exceeds : call.Oversized w) (oversized : BridgeError) :
    Check.first (call.checks env w oversized) = some ⟨true, some (.error oversized)⟩ := by
  obtain ⟨opened, active, running, large⟩ := exceeds
  simp [Check.first, BatchCall.checks, BatchCall.pauseChecks, documented, opened, active, running,
    large]

/-- Otherwise the error of an oversized list does not matter. -/
theorem BatchCall.first_checks (fits : ¬ call.Oversized w) (oversized oversized' : BridgeError) :
    Check.first (call.checks env w oversized) = Check.first (call.checks env w oversized') := by
  cases opened : w.initialized with
  | false => simp [Check.first, BatchCall.checks, documented, opened]
  | true =>
      cases active : w.deactivated with
      | true =>
          simp [Check.first, BatchCall.checks, BatchCall.pauseChecks, documented, opened, active]
      | false =>
          cases running : w.bridgeConfig?.any fun config => config.paused with
          | true =>
              simp [Check.first, BatchCall.checks, BatchCall.pauseChecks, documented, opened,
                active, running]
          | false =>
              have small : ¬ maxBatchSize < call.targets.length :=
                fun large => fits ⟨opened, active, running, large⟩
              simp [Check.first, BatchCall.checks, BatchCall.pauseChecks, documented, opened,
                active, running, small]

/-- A batch meets its error contract unless its list is looked at and oversized. -/
theorem batch_errors {host : Host} (reachable : Reachable host w) (exact : w.tokens.Exact)
    (accepted : ∀ call, env.refuses call = false) (call : BatchCall) :
    BatchErrorContract host env call w ↔ ¬ call.Oversized w := by
  obtain ⟨config, stores⟩ := reachable.stores
  have configured : w.begin.initialized = true → ∃ config, w.begin.bridgeConfig? = some config := by
    intro opened
    have opened : w.initialized = true := opened
    rw [stores.initialized] at opened
    exact ⟨_, stores.bridgeConfig?.trans (Option.some_get opened).symm⟩
  have bounded : w.begin.FeesBounded := (reachable.sound.of_store (World.begin_store w)).fees
  have inner : Decided (call.checks env w.begin .tooManyFeeTiers) _ _ w.begin :=
    batch_decided accepted call reachable.idle configured bounded (reachable.rewardable exact)
  have decided : Decided (call.checks env w .tooManyFeeTiers) (fun _ _ => True)
      (execute env call.request) w.begin := by
    have started : call.checks env w.begin .tooManyFeeTiers = call.checks env w .tooManyFeeTiers :=
      rfl
    rw [← started, ← List.append_nil (call.checks ..)]
    exact inner.bind fun _ _ _ => .of_ok rfl trivial
  constructor
  · intro meets exceeds
    have promised : (execute env call.request).run w.begin = .error (.error .batchTooLarge) :=
      meets.documented _ _ (exceeds.first_checks _) rfl
    rw [decided.error (exceeds.first_checks _) rfl] at promised
    cases promised
  · intro fits
    have decided : Decided (call.checks env w .batchTooLarge) (fun _ _ => True)
        (execute env call.request) w.begin := by
      rw [Decided, BatchCall.first_checks fits .batchTooLarge .tooManyFeeTiers]
      exact decided
    refine ⟨decided.fails_iff, fun check reason found promised => decided.error found promised, ?_⟩
    intro reason w' taken
    cases taken
    rfl

end Contract

namespace Rehearsal

/-- A contract with one asset, in whose ledgers only the bridge and a source hold anything. -/
def scarceWorld : World := { outcome opening with tokens := scarce }

theorem scarceWorld_reachable : Reachable host scarceWorld := by
  have untouched : (outcome opening).tokens = fresh.tokens := by
    with_unfolding_all rfl
  refine (reachable opening (by decide +kernel)).run (.single (.external fun asset => ?_))
  rw [untouched]
  change (10000 : Int) ≤ 20000
  decide

/-- A batch that funds as many targets with an amount of one. -/
def batch (size : Nat) : BatchCall where
  source := address 4
  targets := List.replicate size (address 5)
  amounts := List.replicate size (amount 1)
  asset := address 3
  nonce := none
  deadline := none

end Rehearsal

/-- A batch with as many targets as allowed meets its contract. -/
theorem batch_errors_rehearsed :
    BatchErrorContract Rehearsal.host (Rehearsal.env 0) (Rehearsal.batch 100)
      Rehearsal.scarceWorld := by
  refine (batch_errors Rehearsal.scarceWorld_reachable Rehearsal.scarce_exact (fun _ => rfl)
    (Rehearsal.batch 100)).mpr ?_
  rintro ⟨-, -, -, large⟩
  exact absurd large (by decide)

/-- A batch with one target more fails, but not with the documented error. -/
theorem oversized_batch_misreported :
    Reachable Rehearsal.host Rehearsal.scarceWorld ∧
      (execute (Rehearsal.env 0) (Rehearsal.batch 101).request).run Rehearsal.scarceWorld.begin =
          .error (.error .tooManyFeeTiers) ∧
      ¬ BatchErrorContract Rehearsal.host (Rehearsal.env 0) (Rehearsal.batch 101)
        Rehearsal.scarceWorld := by
  have failed : (execute (Rehearsal.env 0) (Rehearsal.batch 101).request).run
      Rehearsal.scarceWorld.begin = .error (.error .tooManyFeeTiers) := by
    with_unfolding_all rfl
  refine ⟨Rehearsal.scarceWorld_reachable, failed, fun meets => ?_⟩
  have exceeds : (Rehearsal.batch 101).Oversized Rehearsal.scarceWorld := by
    refine ⟨?_, ?_, ?_, by decide⟩ <;> with_unfolding_all rfl
  have promised := meets.documented _ _ (exceeds.first_checks _) rfl
  rw [failed] at promised
  cases promised

end OnboardingBridge.Contract
