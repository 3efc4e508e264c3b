import OnboardingBridge.Contract.Bystanders
import OnboardingBridge.Contract.CounterHistory
import OnboardingBridge.Contract.Supply
import OnboardingBridge.Foundations.Lockstep

/-!
# Loyalty rewards do not interfere

A funding call is run twice: as the contract is configured, and without a loyalty token. Up to the
reward the two runs are in step (`InStep`), because no other part of the call looks at the loyalty
token. The reward step itself cannot fail: what it pays is less than the bridge holds, and in an
exact ledger the receiver has room for it (`mintLoyaltyTokens_lockstep`). Nothing after the reward
can fail, so the two runs return the same and differ at most in two balances of the loyalty token
(`loyalty_neutrality`).
-/

set_option autoImplicit false

namespace OnboardingBridge.Contract

open Foundations Foundations.Tx

/-- The world without a loyalty token. -/
abbrev World.unrewarded (w : World) : World := w.write .loyaltyToken none

theorem unrewarded_unnoticed : Unnoticed World.unrewarded := write_unnoticed rfl none

/-- The second world differs from the first in that it has no loyalty token, and in the balances
of the bridge and of the recipient in that token. -/
structure ButReward (token : Option Address) (bridge : Address) (recipient : Option Address)
    (w v : World) : Prop where
  store : v.store = w.unrewarded.store
  wasm : v.wasm = w.wasm
  allowance : v.tokens.allowance = w.tokens.allowance
  balance : ∀ asset holder,
    ¬ (token = some asset ∧ (holder = bridge ∨ recipient = some holder)) →
      v.tokens.balance asset holder = w.tokens.balance asset holder

/-- The pools a contract may be sent to keep the ledgers exact. -/
def Env.SwapsExactly (env : Env) : Prop :=
  ∀ pool minAmountOut ledger swapped amountOut, ledger.Exact →
    env.swap pool minAmountOut ledger = some (swapped, amountOut) → swapped.Exact

/-! ## What a reward relies on -/

/-- A world in which a reward can be paid, with its loyalty token and the addresses it admits. -/
structure Rewardable (token : Option Address) (accepts : Address → Bool) (w : World) : Prop where
  exact : w.tokens.Exact
  accrued : ∀ asset, 0 ≤ (w.counters asset).accruedFees.val
  locked : ∀ asset, 0 ≤ (w.counters asset).lockedTimelock.val
  rate : w.ReferralBounded
  configured : w.store .loyaltyToken = token
  admits : w.admits = accepts

theorem calculateFee_nonneg {amount fee : I128} {feeBps : UInt32} (nonneg : 0 ≤ amount.val)
    (charged : calculateFee amount feeBps = .ok fee) : 0 ≤ fee.val := by
  rw [((calculateFee_charges nonneg).mp charged).2]
  exact Int.ediv_nonneg (by positivity) (by omega)

section Steady

variable {token : Option Address} {accepts : Address → Bool}

/-- A part of a call that keeps rewards payable. -/
abbrev Steady (token : Option Address) (accepts : Address → Bool) {α : Type} (post : α → Prop)
    (body : Call α) : Prop := Keeps (Rewardable token accepts) post body

/-- What moves no tokens badly and earmarks nothing negative keeps rewards payable. -/
theorem Rewardable.of_recorded {bridge : Address} {journal : List Movement} {w w' : World}
    (before : Rewardable token accepts w) (recorded : Recorded bridge journal w w')
    (exact : w'.tokens.Exact)
    (nonneg : ∀ bucket asset, bucket ≠ .crosschainReserve →
      0 ≤ (journal.map (Movement.earmarks bucket asset)).sum) :
    Rewardable token accepts w' where
  exact
  accrued asset := by
    have after := recorded.earmarked .accruedFees asset
    simp only [World.books] at after
    have grows := nonneg .accruedFees asset (by simp)
    have start := before.accrued asset
    omega
  locked asset := by
    have after := recorded.earmarked .lockedTimelock asset
    simp only [World.books] at after
    have grows := nonneg .lockedTimelock asset (by simp)
    have start := before.locked asset
    omega
  rate := by
    have rate := before.rate
    rwa [World.ReferralBounded, recorded.settings _ rfl rfl]
  configured := (recorded.settings .loyaltyToken rfl rfl).trans before.configured
  admits := (funext recorded.admits).trans before.admits

theorem silent_steady {α : Type} {body : Call α} (silent : Silent body) :
    Steady token accepts (fun _ => True) body := by
  intro w _ w' before ran
  have frame := silent ran
  have exact : w'.tokens.Exact := frame.tokens not_false ▸ before.exact
  -- nothing is recorded, so it does not matter for which bridge
  have recorded : Recorded (.contract 0) [] w w' := .of_frame frame
  exact ⟨before.of_recorded recorded exact (by simp), trivial⟩

theorem accessError_steady (target : Address) :
    Steady token accepts (fun error => error = none ↔ accepts target = true)
      (accessError target) := by
  intro w error w' before ran
  obtain ⟨admitted, -, rfl⟩ := accessError_ok ran
  exact ⟨before, before.admits ▸ admitted⟩

theorem transfer_steady (env : Env) (asset src dst : Address) (amount : I128) :
    Steady token accepts (fun _ => True) (transfer env asset src dst amount) := by
  intro w _ w' before ran
  have recorded : Recorded env.self _ w w' := transfer_records env asset src dst amount ran
  exact ⟨before.of_recorded recorded (transfer_exact before.exact ran) (by simp), trivial⟩

theorem transferFrom_steady (env : Env) (asset src dst : Address) (amount : I128) :
    Steady token accepts (fun _ => True) (transferFrom env asset src dst amount) := by
  intro w _ w' before ran
  have recorded : Recorded env.self _ w w' := transferFrom_records env asset src dst amount ran
  exact ⟨before.of_recorded recorded (transferFrom_exact before.exact ran) (by simp), trivial⟩

theorem invokeSwap_steady {env : Env} (swaps : env.SwapsExactly) (pool : Address)
    (minAmountOut : I128) :
    Steady token accepts (fun _ => True) (invokeSwap env pool minAmountOut) := by
  intro w amountOut w' before ran
  obtain ⟨-, swapped, swap, rfl⟩ := invokeSwap_ok ran
  exact ⟨⟨swaps _ _ _ _ _ before.exact swap, before.accrued, before.locked, before.rate,
    before.configured, before.admits⟩, trivial⟩

theorem updateAssetCountersSplit_steady {asset : Address} {accrued : I128} (fees bridged : I128)
    (nonneg : 0 ≤ accrued.val) :
    Steady token accepts (fun _ => True)
      (updateAssetCountersSplit asset accrued fees bridged) := by
  intro w _ w' before ran
  have recorded : Recorded (.contract 0) _ w w' :=
    updateAssetCountersSplit_records asset accrued fees bridged ran
  have frame : Frame {.assetStats asset} False w w' :=
    updateAssetCountersSplit_touches _ _ _ _ (Set.mem_singleton _) ran
  have exact : w'.tokens.Exact := frame.tokens not_false ▸ before.exact
  refine ⟨before.of_recorded recorded exact fun bucket asset' _ => ?_, trivial⟩
  simp only [List.map_cons, List.map_nil, List.sum_cons, List.sum_nil, Movement.earmarks]
  split <;> omega

theorem incrementLockedTimelock_steady {asset : Address} {amount : I128}
    (nonneg : 0 ≤ amount.val) :
    Steady token accepts (fun _ => True) (incrementLockedTimelock asset amount) := by
  intro w _ w' before ran
  have recorded : Recorded (.contract 0) _ w w' := incrementLockedTimelock_records asset amount ran
  have frame : Frame {.assetStats asset} False w w' :=
    incrementLockedTimelock_touches _ _ (Set.mem_singleton _) ran
  have exact : w'.tokens.Exact := frame.tokens not_false ▸ before.exact
  refine ⟨before.of_recorded recorded exact fun bucket asset' _ => ?_, trivial⟩
  simp only [List.map_cons, List.map_nil, List.sum_cons, List.sum_nil, Movement.earmarks]
  split <;> omega

theorem decrementCrosschainReserve_steady (asset : Address) (amount : I128) :
    Steady token accepts (fun _ => True) (decrementCrosschainReserve asset amount) := by
  intro w _ w' before ran
  have recorded : Recorded (.contract 0) _ w w' := decrementCrosschainReserve_records asset amount ran
  have frame : Frame {.crossChainReserve asset} False w w' :=
    decrementCrosschainReserve_touches _ _ (Set.mem_singleton _) ran
  have exact : w'.tokens.Exact := frame.tokens not_false ▸ before.exact
  refine ⟨before.of_recorded recorded exact fun bucket asset' other => ?_, trivial⟩
  simp [Movement.earmarks, other]

theorem readReferralRate_steady :
    Steady token accepts (fun rate => rate.toNat ≤ 10000) readReferralRate := by
  intro w rate w' before ran
  obtain ⟨rfl, rfl⟩ := run_read_ok.mp ran
  exact ⟨before, before.rate⟩

/-- What is left of a fee after the referrer's share is not negative. -/
theorem payReferral_steady (env : Env) (source asset : Address) {fee : I128}
    (referrer : Option Address) (nonneg : 0 ≤ fee.val) :
    Steady token accepts (fun protocolFee => 0 ≤ protocolFee.val)
      (payReferral env source asset fee referrer) := by
  cases referrer with
  | none => exact .pure nonneg
  | some referrer =>
      refine .bind readReferralRate_steady fun rate within => .ofExcept_bind fun share charged => ?_
      obtain ⟨-, part⟩ := calculateFee_part nonneg within charged
      split
      · refine .bind (transfer_steady ..) fun _ _ => .ofExcept_bind fun protocolFee left => ?_
        have value := safeSub_ok.mp left
        exact .bind (silent_steady (publish_touches rfl)) fun _ _ => .pure (by omega)
      · exact .pure nonneg

/-- The loop counts only entries whose target is admitted. -/
theorem deliverBatch_steady (env : Env) (source asset : Address) (feeBps : UInt32)
    (progress : BatchProgress) {entries : List (Address × I128)}
    (nonneg : ∀ entry ∈ entries, 0 ≤ entry.2.val) :
    Steady token accepts
      (fun result => 0 < result.successes → 0 < progress.successes ∨
        ∃ entry ∈ entries, accepts entry.1 = true)
      (deliverBatch env source asset feeBps progress entries) := by
  induction entries generalizing progress with
  | nil => exact .pure .inl
  | cons entry rest ih =>
      obtain ⟨here, later⟩ := List.forall_mem_cons.mp nonneg
      refine .bind (accessError_steady entry.1) fun error admitted => ?_
      split
      · refine .bind (silent_steady (incrementU32_touches _)) fun _ _ => .ofExcept_bind fun _ _ => ?_
        refine .bind (silent_steady (publish_touches rfl)) fun _ _ => ?_
        intro w result w' before ran
        obtain ⟨after, counted⟩ := ih _ later before ran
        refine ⟨after, fun some => (counted some).imp id ?_⟩
        exact fun ⟨entry', member, accepted⟩ => ⟨entry', List.mem_cons_of_mem _ member, accepted⟩
      · next passes =>
        have accepted : accepts entry.1 = true := admitted.mp (by simpa using passes)
        refine .ofExcept_bind fun fee charged => .ofExcept_bind fun net _ => ?_
        have feeNonneg := calculateFee_nonneg here charged
        refine .bind (.onlyIf (transfer_steady ..)) fun _ _ => ?_
        refine .bind (updateAssetCountersSplit_steady _ _ feeNonneg) fun _ _ => ?_
        refine .bind (silent_steady (incrementU32_touches _)) fun _ _ => ?_
        refine .bind (silent_steady (publish_touches rfl)) fun _ _ => ?_
        intro w result w' before ran
        obtain ⟨after, -⟩ := ih _ later before ran
        exact ⟨after, fun _ => .inr ⟨entry, List.mem_cons_self, accepted⟩⟩

theorem validateAmounts_steady (minimum total : I128) (amounts : List I128) :
    Steady token accepts (fun _ => ∀ amount ∈ amounts, 0 ≤ amount.val)
      (validateAmounts minimum total amounts) := by
  intro w result w' before ran
  obtain ⟨enough, -, rfl⟩ := validateAmounts_ok ran
  refine ⟨before, fun amount member => ?_⟩
  have positive := enough amount member
  simp only [belowMinimum, not_or, not_le] at positive
  exact positive.1.le

end Steady

/-! ## The reward step -/

namespace ButReward

variable {token : Option Address} {bridge : Address} {recipient : Option Address} {w v : World}

theorem refl (token : Option Address) (bridge : Address) (recipient : Option Address)
    (w : World) : ButReward token bridge recipient w w.unrewarded := ⟨rfl, rfl, rfl, fun _ _ _ => rfl⟩

theorem emit (but : ButReward token bridge recipient w v) (event : Event) :
    ButReward token bridge recipient (w.emit event) (v.emit event) :=
  ⟨but.store, but.wasm, but.allowance, but.balance⟩

theorem erase (but : ButReward token bridge recipient w v) {key : DataKey}
    (other : key ≠ .loyaltyToken) :
    ButReward token bridge recipient (w.erase key) (v.erase key) := by
  refine ⟨?_, but.wasm, but.allowance, but.balance⟩
  have erased : (v.erase key).store = (w.unrewarded.erase key).store :=
    congrArg (fun store => store.remove key) but.store
  rw [erased, World.unrewarded, write_erase other]

end ButReward

section InStep

variable {env : Env} {token : Option Address} {accepts : Address → Bool}
  {recipient : Option Address} {after : World → World → Prop}

/-- Two transactions run in step from a world in which a reward can be paid and from the same world
without a loyalty token. -/
abbrev InStep (token : Option Address) (accepts : Address → Bool) {α : Type}
    (after : World → World → Prop) (body body' : Call α) : Prop :=
  Lockstep (fun w v => Rewardable token accepts w ∧ v = w.unrewarded) after body body'

theorem loyaltyReward_eq_some {w : World} {asset : Address} {amount : I128}
    (configured : w.loyaltyReward = some (asset, amount)) :
    w.store .loyaltyToken = some asset ∧ 0 < amount.val := by
  obtain ⟨asset', found, rest⟩ := Option.bind_eq_some_iff.mp configured
  split at rest
  · next positive =>
    obtain ⟨rfl, rfl⟩ := Prod.mk.inj (Option.some.inj rest)
    exact ⟨found, positive⟩
  · cases rest

/-- What the bridge holds covers the figure a reward is compared with. -/
theorem Rewardable.figure_le {w : World} (rewardable : Rewardable token accepts w)
    (bridge asset : Address) :
    (w.rewardFigure bridge asset).val ≤ (w.tokens.balance asset bridge).val := by
  have accrued := rewardable.accrued asset
  have locked := rewardable.locked asset
  have lower := (w.tokens.balance asset bridge).lower
  have upper := (w.tokens.balance asset bridge).upper
  simp only [World.rewardFigure, BoundedInt.saturatingSub_val]
  omega

/-- The reward step does not fail, and changes two balances of the loyalty token at most. -/
theorem mintLoyaltyTokens_lockstep {dst : Address}
    (accepted : ∀ asset amount, token = some asset →
      env.refuses (.transfer asset env.self dst amount) = false) :
    InStep token accepts (ButReward token env.self (some dst)) (mintLoyaltyTokens env dst)
      (mintLoyaltyTokens env dst) := by
  rintro w _ ⟨rewardable, rfl⟩
  have without : (mintLoyaltyTokens env dst).run w.unrewarded = .ok ((), w.unrewarded) := by
    rw [mintLoyaltyTokens_run]
    simp [World.loyaltyReward]
  rw [without, mintLoyaltyTokens_run]
  cases configured : w.loyaltyReward with
  | none => exact .ok (.refl ..)
  | some reward =>
    obtain ⟨asset, amount⟩ := reward
    obtain ⟨found, positive⟩ := loyaltyReward_eq_some configured
    have same : token = some asset := rewardable.configured.symm.trans found
    by_cases low : (w.rewardFigure env.self asset).val < amount.val
    · simp only [low, if_true]
      exact .ok ⟨rfl, rfl, rfl, fun _ _ _ => rfl⟩
    · simp only [low, if_false]
      have covered := (not_lt.mp low).trans (rewardable.figure_le env.self asset)
      obtain ⟨moved, moves⟩ : ∃ moved, w.tokens.move asset env.self dst amount = some moved :=
        rewardable.exact.exists_move positive.le covered
      rw [pay_ok.mpr ⟨accepted asset amount same, moved, moves, rfl⟩]
      obtain ⟨-, -, allowance, balances⟩ := TokenLedger.move_eq_some moves
      refine .ok ⟨rfl, rfl, allowance.symm, fun asset' holder outside => ?_⟩
      have neither : ¬ (asset' = asset ∧ holder = dst) ∧ ¬ (asset' = asset ∧ holder = env.self) := by
        constructor
        · rintro ⟨rfl, rfl⟩
          exact outside ⟨same, .inr rfl⟩
        · rintro ⟨rfl, rfl⟩
          exact outside ⟨same, .inl rfl⟩
      have kept := balances asset' holder
      rw [if_neg neither.1, if_neg neither.2] at kept
      exact BoundedInt.ext (by simpa using kept.symm)

/-- A call that ends with its reward and its event. -/
theorem rewarding_lockstep {dst : Address} (event : Event)
    (accepted : ∀ asset amount, token = some asset →
      env.refuses (.transfer asset env.self dst amount) = false) :
    InStep token accepts (ButReward token env.self (some dst))
      (mintLoyaltyTokens env dst >>= fun _ => publish event)
      (mintLoyaltyTokens env dst >>= fun _ => publish event) :=
  .bind (mintLoyaltyTokens_lockstep accepted) fun _ => .modify fun _ _ but => but.emit event

/-! ## Parts before the reward -/

section Parts

variable {α β : Type} {body : Call α} {rest rest' : α → Call β}

/-- What keeps records only and does not look at the loyalty token runs in step. -/
theorem silent_lockstep (commutes : Commutes World.unrewarded body) (silent : Silent body)
    (next : ∀ a, InStep token accepts after (rest a) (rest' a)) :
    InStep token accepts after (body >>= rest) (body >>= rest') :=
  .carry commutes (silent_steady silent) fun a _ => next a

theorem nonReentrant_lockstep {body : Call α} {bridge : Address}
    (inner : InStep token accepts (ButReward token bridge recipient) body body) :
    InStep token accepts (ButReward token bridge recipient) (nonReentrant body)
      (nonReentrant body) := by
  refine silent_lockstep (stored_commutes unrewarded_unnoticed .entered rfl (·.getD false))
    (.read _) fun _ => .rejectIf fun _ => ?_
  refine silent_lockstep (save_commutes unrewarded_unnoticed _ rfl) (save_touches _ (by simp))
    fun _ => .bind inner fun _ => ?_
  exact .bind (.modify fun _ _ but => but.erase (by simp)) fun _ => .pure _

theorem replying_lockstep {body : Call α} {bridge : Address} {reply : α → Reply}
    (inner : InStep token accepts (ButReward token bridge recipient) body body) :
    InStep token accepts (ButReward token bridge recipient) (replying body reply)
      (replying body reply) := .bind inner fun _ => .pure _

theorem gates_lockstep {rest rest' : Call β} (next : InStep token accepts after rest rest') :
    InStep token accepts after (checkInitialized >>= fun _ => checkNotPaused >>= fun _ => rest)
      (checkInitialized >>= fun _ => checkNotPaused >>= fun _ => rest') := by
  refine silent_lockstep (checkInitialized_commutes unrewarded_unnoticed)
    checkInitialized_touches fun _ => ?_
  exact silent_lockstep (checkNotPaused_commutes unrewarded_unnoticed)
    checkNotPaused_touches fun _ => next

theorem minimum_lockstep {rest rest' : I128 → Call β}
    (next : ∀ minimum, InStep token accepts after (rest minimum) (rest' minimum)) :
    InStep token accepts after (readMinimumAmount >>= rest) (readMinimumAmount >>= rest') :=
  silent_lockstep (stored_commutes unrewarded_unnoticed .minimumAmount rfl (·.getD 0))
    (.read _) next

theorem access_lockstep {target asset : Address} {rest rest' : Call β}
    (next : InStep token accepts after rest rest') :
    InStep token accepts after (checkAccess target >>= fun _ => checkAssetWhitelisted asset >>=
      fun _ => rest) (checkAccess target >>= fun _ => checkAssetWhitelisted asset >>=
      fun _ => rest') := by
  refine silent_lockstep (checkAccess_commutes unrewarded_unnoticed _) (checkAccess_touches _)
    fun _ => ?_
  exact silent_lockstep (checkAssetWhitelisted_commutes unrewarded_unnoticed _)
    (checkAssetWhitelisted_touches _) fun _ => next

theorem dailyLimit_lockstep {source asset : Address} {amount : I128} {rest rest' : Call β}
    (next : InStep token accepts after rest rest') :
    InStep token accepts after (checkDailyLimit env source asset amount >>= fun _ => rest)
      (checkDailyLimit env source asset amount >>= fun _ => rest') :=
  silent_lockstep (checkDailyLimit_commutes unrewarded_unnoticed _ _ _ _)
    (checkDailyLimit_touches _ _ _ _ (by simp)) fun _ => next

theorem authorization_lockstep {source : Address} {nonce : Option UInt64} {rest rest' : Call β}
    (next : InStep token accepts after rest rest') :
    InStep token accepts after (requireAuth env source >>= fun _ => consumeNonce source nonce >>=
      fun _ => rest) (requireAuth env source >>= fun _ => consumeNonce source nonce >>=
      fun _ => rest') := by
  refine silent_lockstep (requireAuth_commutes _ _) (requireAuth_touches _ _) fun _ => ?_
  exact silent_lockstep (consumeNonce_commutes unrewarded_unnoticed _ _)
    (consumeNonce_touches _ _ (by simp)) fun _ => next

theorem transfer_lockstep {asset src dst : Address} {amount : I128} {rest rest' : Call β}
    (next : InStep token accepts after rest rest') :
    InStep token accepts after (transfer env asset src dst amount >>= fun _ => rest)
      (transfer env asset src dst amount >>= fun _ => rest') :=
  .carry (transfer_commutes unrewarded_unnoticed _ _ _ _ _) (transfer_steady ..) fun _ _ => next

theorem payout_lockstep {asset src dst : Address} {amount : I128} {rest rest' : Call β}
    (next : InStep token accepts after rest rest') :
    InStep token accepts after
      (onlyIf (0 < amount.val) (transfer env asset src dst amount) >>= fun _ => rest)
      (onlyIf (0 < amount.val) (transfer env asset src dst amount) >>= fun _ => rest') :=
  .carry (.onlyIf (transfer_commutes unrewarded_unnoticed _ _ _ _ _)) (.onlyIf (transfer_steady ..))
    fun _ _ => next

/-- The rate in force and the fee it takes, which is not negative. -/
theorem fees_lockstep {source asset : Address} {amount : I128} {rest rest' : I128 → I128 → Call β}
    (positive : 0 ≤ amount.val) (next : ∀ fee netAmount : I128, 0 ≤ fee.val →
      InStep token accepts after (rest fee netAmount) (rest' fee netAmount)) :
    InStep token accepts after
      (readFeeBps >>= fun globalFeeBps => getTieredFeeBps source asset globalFeeBps >>=
        fun tieredFeeBps => getEffectiveFeeBps asset tieredFeeBps >>=
        fun effectiveFeeBps => liftResult (calculateFee amount effectiveFeeBps) >>=
        fun fee => liftResult (safeSub amount fee) >>= fun netAmount => rest fee netAmount)
      (readFeeBps >>= fun globalFeeBps => getTieredFeeBps source asset globalFeeBps >>=
        fun tieredFeeBps => getEffectiveFeeBps asset tieredFeeBps >>=
        fun effectiveFeeBps => liftResult (calculateFee amount effectiveFeeBps) >>=
        fun fee => liftResult (safeSub amount fee) >>= fun netAmount => rest' fee netAmount) := by
  refine silent_lockstep (readFeeBps_commutes unrewarded_unnoticed) readFeeBps_touches fun _ => ?_
  refine silent_lockstep (getTieredFeeBps_commutes unrewarded_unnoticed _ _ _)
    (getTieredFeeBps_touches ..) fun _ => ?_
  refine silent_lockstep (getEffectiveFeeBps_commutes unrewarded_unnoticed _ _)
    (getEffectiveFeeBps_touches ..) fun _ => .ofExcept fun fee charged => .ofExcept fun _ _ => ?_
  exact next _ _ (calculateFee_nonneg positive charged)

theorem incrementUserDeposit_lockstep {source asset : Address} {amount : I128}
    {rest rest' : Call β} (next : InStep token accepts after rest rest') :
    InStep token accepts after (incrementUserDeposit source asset amount >>= fun _ => rest)
      (incrementUserDeposit source asset amount >>= fun _ => rest') := by
  have other : DataKey.userDeposit source asset ≠ .loyaltyToken := by simp
  have commutes : Commutes World.unrewarded (incrementUserDeposit source asset amount) := by
    refine .bind (.read fun w => ?_) fun _ => .bind (.ofExcept _ _) fun _ => ?_
    · rw [write_of_ne other]
    · exact .modify fun w => write_put other
  exact silent_lockstep commutes (incrementUserDeposit_touches _ _ _ (by simp)) fun _ => next

/-- What a call accounts for, rewards and reports in the end. -/
theorem settling_lockstep {source asset : Address} {accrued : I128} (fees bridged amount : I128)
    (event : Event) (nonneg : 0 ≤ accrued.val)
    (accepted : ∀ asset amount, token = some asset →
      env.refuses (.transfer asset env.self source amount) = false) :
    let body : Call Unit := updateAssetCountersSplit asset accrued fees bridged >>= fun _ =>
      incrementSourceBridgedVolume source asset amount >>= fun _ =>
      mintLoyaltyTokens env source >>= fun _ => publish event
    InStep token accepts (ButReward token env.self (some source)) body body := by
  refine .carry (updateAssetCountersSplit_commutes unrewarded_unnoticed _ _ _ _)
    (updateAssetCountersSplit_steady _ _ nonneg) fun _ _ => ?_
  refine silent_lockstep (incrementSourceBridgedVolume_commutes unrewarded_unnoticed _ _ _)
    (incrementSourceBridgedVolume_touches _ _ _ (by simp)) fun _ => ?_
  exact rewarding_lockstep event accepted

end Parts

/-! ## The entry points -/

section EntryPoints

variable {source : Address} (accepted : ∀ asset amount, token = some asset →
  env.refuses (.transfer asset env.self source amount) = false)
include accepted

theorem fundCAddress_lockstep {target asset : Address} {amount : I128}
    {nonce deadline : Option UInt64} :
    InStep token accepts (ButReward token env.self (some source))
      (fundCAddress env source target asset amount nonce deadline)
      (fundCAddress env source target asset amount nonce deadline) := by
  refine nonReentrant_lockstep (gates_lockstep (.rejectIf fun _ => ?_))
  refine minimum_lockstep fun minimum => .rejectIf fun enough => ?_
  have positive : 0 ≤ amount.val := (not_le.mp (not_or.mp enough).1).le
  refine access_lockstep (dailyLimit_lockstep (authorization_lockstep ?_))
  refine fees_lockstep positive fun fee netAmount nonneg => ?_
  exact transfer_lockstep (payout_lockstep (settling_lockstep _ _ _ _ nonneg accepted))

theorem fundCAddressWithReferral_lockstep {target asset : Address} {amount : I128}
    {referrer : Option Address} {nonce deadline : Option UInt64} :
    InStep token accepts (ButReward token env.self (some source))
      (fundCAddressWithReferral env source target asset amount referrer nonce deadline)
      (fundCAddressWithReferral env source target asset amount referrer nonce deadline) := by
  refine nonReentrant_lockstep (gates_lockstep (.rejectIf fun _ => .rejectIf fun enough => ?_))
  have positive : 0 ≤ amount.val := (not_le.mp enough).le
  refine minimum_lockstep fun minimum => .rejectIf fun _ => ?_
  refine silent_lockstep (checkAccess_commutes unrewarded_unnoticed _) (checkAccess_touches _)
    fun _ => ?_
  refine silent_lockstep (checkReferrerAccess_commutes unrewarded_unnoticed _)
    (checkReferrerAccess_touches _) fun _ => ?_
  refine silent_lockstep (checkAssetWhitelisted_commutes unrewarded_unnoticed _)
    (checkAssetWhitelisted_touches _) fun _ => dailyLimit_lockstep (.rejectIf fun _ => ?_)
  refine authorization_lockstep (transfer_lockstep ?_)
  refine fees_lockstep positive fun fee netAmount nonneg => payout_lockstep ?_
  refine .carry (payReferral_commutes unrewarded_unnoticed _ _ _ _ _)
    (payReferral_steady _ _ _ _ nonneg) fun protocolFee left => incrementUserDeposit_lockstep ?_
  exact settling_lockstep _ _ _ _ left accepted

theorem revealFund_lockstep {commitmentId : UInt64} {target asset : Address} {amount : I128}
    {nonce : UInt64} :
    InStep token accepts (ButReward token env.self (some source))
      (revealFund env commitmentId source target asset amount nonce)
      (revealFund env commitmentId source target asset amount nonce) := by
  refine nonReentrant_lockstep (gates_lockstep ?_)
  refine silent_lockstep (stored_commutes unrewarded_unnoticed (.commitment commitmentId) rfl id)
    (.read _) fun found => ?_
  refine silent_lockstep (.ofOption _ _) (.ofOption _ _) fun entry => ?_
  refine .rejectIf fun _ => .rejectIf fun _ => .rejectIf fun _ => .rejectIf fun _ => ?_
  refine .rejectIf fun _ => .rejectIf fun _ => .rejectIf fun enough => ?_
  have positive : 0 ≤ amount.val := (not_le.mp enough).le
  refine minimum_lockstep fun minimum => .rejectIf fun _ => ?_
  refine access_lockstep (dailyLimit_lockstep ?_)
  refine silent_lockstep (requireAuth_commutes _ _) (requireAuth_touches _ _) fun _ => ?_
  refine silent_lockstep (save_commutes unrewarded_unnoticed _ rfl) (save_touches _ (by simp))
    fun _ => transfer_lockstep ?_
  refine fees_lockstep positive fun fee netAmount nonneg => ?_
  exact payout_lockstep (settling_lockstep _ _ _ _ nonneg accepted)

theorem fundCAddressWithSwap_lockstep (swaps : env.SwapsExactly)
    {target sourceAsset targetAsset : Address} {sourceAmount minTargetAmount : I128}
    {swapRoute : List Address} {nonce deadline : Option UInt64} :
    InStep token accepts (ButReward token env.self (some source))
      (fundCAddressWithSwap env source target sourceAsset targetAsset sourceAmount
        minTargetAmount swapRoute nonce deadline)
      (fundCAddressWithSwap env source target sourceAsset targetAsset sourceAmount
        minTargetAmount swapRoute nonce deadline) := by
  refine nonReentrant_lockstep (gates_lockstep (.rejectIf fun _ => .rejectIf fun _ => ?_))
  refine minimum_lockstep fun minimum => .rejectIf fun _ => access_lockstep ?_
  refine silent_lockstep (checkAssetWhitelisted_commutes unrewarded_unnoticed _)
    (checkAssetWhitelisted_touches _) fun _ => dailyLimit_lockstep (.rejectIf fun _ => ?_)
  refine silent_lockstep (.ofOption _ _) (.ofOption _ _) fun pool => ?_
  refine silent_lockstep (checkPoolWhitelisted_commutes unrewarded_unnoticed _)
    (checkPoolWhitelisted_touches _) fun _ => authorization_lockstep ?_
  refine transfer_lockstep (transfer_lockstep ?_)
  refine silent_lockstep (balance_commutes unrewarded_unnoticed _ _) (.read _) fun _ => ?_
  refine .carry (invokeSwap_commutes unrewarded_unnoticed _ _ _) (invokeSwap_steady swaps _ _)
    fun _ _ => .rejectIf fun _ => ?_
  refine silent_lockstep (balance_commutes unrewarded_unnoticed _ _) (.read _) fun _ => ?_
  refine .rejectIf fun _ => .ofExcept fun receivedAmount _ => .rejectIf fun received => ?_
  have positive : 0 ≤ receivedAmount.val := (not_le.mp received).le
  refine .rejectIf fun _ => fees_lockstep positive fun fee netAmount nonneg => ?_
  exact payout_lockstep (settling_lockstep _ _ _ _ nonneg accepted)

theorem fundCAddressTimelocked_lockstep {target asset : Address} {amount : I128}
    {releaseTime cliffTime : UInt64} {nonce deadline : Option UInt64} :
    InStep token accepts (ButReward token env.self (some source))
      (fundCAddressTimelocked env source target asset amount releaseTime cliffTime nonce deadline)
      (fundCAddressTimelocked env source target asset amount releaseTime cliffTime nonce
        deadline) := by
  refine nonReentrant_lockstep (gates_lockstep (.rejectIf fun _ => ?_))
  refine minimum_lockstep fun minimum => .rejectIf fun enough => .rejectIf fun _ => ?_
  have positive : 0 ≤ amount.val := (not_le.mp (not_or.mp enough).1).le
  refine access_lockstep (dailyLimit_lockstep (authorization_lockstep (transfer_lockstep ?_)))
  refine silent_lockstep (nextTimelockId_commutes unrewarded_unnoticed)
    (nextTimelockId_touches (by simp)) fun id => ?_
  refine silent_lockstep (save_commutes unrewarded_unnoticed _ rfl) (save_touches _ (by simp))
    fun _ => ?_
  refine .carry (incrementLockedTimelock_commutes unrewarded_unnoticed _ _)
    (incrementLockedTimelock_steady positive) fun _ _ => incrementUserDeposit_lockstep ?_
  exact .bind (mintLoyaltyTokens_lockstep accepted) fun _ =>
    .bind (.modify fun _ _ but => but.emit _) fun _ => .pure id

theorem executeMetaFund_lockstep {params : MetaFundParams} (same : params.source = source)
    {pubkey : BytesN 32} {signature : BytesN 64} :
    InStep token accepts (ButReward token env.self (some source))
      (executeMetaFund env params pubkey signature)
      (executeMetaFund env params pubkey signature) := by
  subst same
  refine nonReentrant_lockstep (gates_lockstep (.rejectIf fun _ => ?_))
  refine silent_lockstep (stored_commutes unrewarded_unnoticed
    (.metaTxNonce params.source params.nonce) rfl (·.getD false)) (.read _) fun _ => ?_
  refine .rejectIf fun _ => .rejectIf fun enough => ?_
  have positive : 0 ≤ params.amount.val := (not_le.mp enough).le
  refine minimum_lockstep fun minimum => .rejectIf fun _ => access_lockstep ?_
  refine dailyLimit_lockstep ?_
  refine silent_lockstep (stored_commutes unrewarded_unnoticed (.metaSigner params.source) rfl id)
    (.read _) fun _ => .rejectIf fun _ => .rejectIf fun _ => ?_
  refine .rejectIf fun _ => .rejectIf fun _ => .rejectIf fun _ => .rejectIf fun _ => ?_
  refine silent_lockstep (verifySignature_commutes _ _ _ _) (verifySignature_touches ..)
    fun _ => ?_
  refine silent_lockstep (save_commutes unrewarded_unnoticed _ rfl) (save_touches _ (by simp))
    fun _ => ?_
  refine .carry (transferFrom_commutes unrewarded_unnoticed _ _ _ _ _) (transferFrom_steady ..)
    fun _ _ => fees_lockstep positive fun fee netAmount nonneg => ?_
  refine payout_lockstep (incrementUserDeposit_lockstep ?_)
  exact settling_lockstep _ _ _ _ nonneg accepted

/-- A payout from the reserve rewards its target. -/
theorem fundCAddressCrosschain_lockstep {chainId : UInt32} {txHash : BytesN 32}
    {target asset : Address} (same : target = source) {amount : I128} {sigs : List RelayerSig} :
    InStep token accepts (ButReward token env.self (some source))
      (fundCAddressCrosschain env chainId txHash target asset amount sigs)
      (fundCAddressCrosschain env chainId txHash target asset amount sigs) := by
  subst same
  refine nonReentrant_lockstep (gates_lockstep ?_)
  refine minimum_lockstep fun minimum => .rejectIf fun _ => access_lockstep ?_
  refine silent_lockstep (stored_commutes unrewarded_unnoticed .relayerThreshold rfl (·.getD 1))
    (.read _) fun threshold => ?_
  refine silent_lockstep (stored_commutes unrewarded_unnoticed .relayerCount rfl (·.getD 0))
    (.read _) fun count => .rejectIf fun _ => ?_
  refine silent_lockstep (stored_commutes unrewarded_unnoticed
    (.crossChainNonce (env.host.crosschainNonce chainId txHash)) rfl (·.getD false)) (.read _)
    fun _ => .rejectIf fun _ => .rejectIf fun _ => .rejectIf fun _ => ?_
  refine silent_lockstep (verifyRelayerSigs_commutes unrewarded_unnoticed _ _ _ _)
    (verifyRelayerSigs_touches ..) fun seen => .rejectIf fun _ => ?_
  refine silent_lockstep (readFeeBps_commutes unrewarded_unnoticed) readFeeBps_touches fun _ => ?_
  refine silent_lockstep (getEffectiveFeeBps_commutes unrewarded_unnoticed _ _)
    (getEffectiveFeeBps_touches ..) fun _ => .ofExcept fun fee _ => .ofExcept fun netAmount _ => ?_
  refine .carry (decrementCrosschainReserve_commutes unrewarded_unnoticed _ _)
    (decrementCrosschainReserve_steady ..) fun _ _ => ?_
  refine silent_lockstep (save_commutes unrewarded_unnoticed _ rfl) (save_touches _ (by simp))
    fun _ => payout_lockstep ?_
  refine .carry (updateAssetCountersSplit_commutes unrewarded_unnoticed _ _ _ _)
    (updateAssetCountersSplit_steady _ _ le_rfl) fun _ _ => ?_
  exact rewarding_lockstep _ accepted

end EntryPoints

/-- A batch rewards its source when the target of some entry is admitted. -/
theorem batchFundCAddress_lockstep {source : Address} {targets : List Address}
    {amounts : List I128} {asset : Address} {nonce deadline : Option UInt64}
    (accepted : targets.any accepts = true → ∀ asset amount, token = some asset →
      env.refuses (.transfer asset env.self source amount) = false) :
    InStep token accepts (ButReward token env.self (if targets.any accepts then some source
        else none))
      (batchFundCAddress env source targets amounts asset nonce deadline)
      (batchFundCAddress env source targets amounts asset nonce deadline) := by
  refine nonReentrant_lockstep (gates_lockstep (.rejectIf fun _ => .rejectIf fun _ => ?_))
  refine .rejectIf fun _ => .rejectIf fun _ => ?_
  refine silent_lockstep (checkAssetWhitelisted_commutes unrewarded_unnoticed _)
    (checkAssetWhitelisted_touches _) fun _ => minimum_lockstep fun minimum => ?_
  refine .carry (validateAmounts_commutes _ _ _) (validateAmounts_steady ..) fun total nonneg => ?_
  have nonneg : ∀ entry ∈ targets.zip amounts, 0 ≤ entry.2.val :=
    fun entry member => nonneg entry.2 (List.of_mem_zip member).2
  refine silent_lockstep (accessibleTotal_commutes unrewarded_unnoticed _ _)
    (accessibleTotal_touches ..) fun successfulTotal => dailyLimit_lockstep ?_
  refine authorization_lockstep (transfer_lockstep ?_)
  refine silent_lockstep (readFeeBps_commutes unrewarded_unnoticed) readFeeBps_touches fun _ => ?_
  refine silent_lockstep (getTieredFeeBps_commutes unrewarded_unnoticed _ _ _)
    (getTieredFeeBps_touches ..) fun _ => ?_
  refine silent_lockstep (getEffectiveFeeBps_commutes unrewarded_unnoticed _ _)
    (getEffectiveFeeBps_touches ..) fun _ => ?_
  refine .carry (deliverBatch_commutes unrewarded_unnoticed _ _ _ _ _ _)
    (deliverBatch_steady _ _ _ _ _ nonneg) fun progress counted => payout_lockstep ?_
  refine silent_lockstep (incrementSourceBridgedVolume_commutes unrewarded_unnoticed _ _ _)
    (incrementSourceBridgedVolume_touches _ _ _ (by simp)) fun _ => ?_
  have rewards : InStep token accepts
      (ButReward token env.self (if targets.any accepts then some source else none))
      (onlyIf (0 < progress.successes) (mintLoyaltyTokens env source))
      (onlyIf (0 < progress.successes) (mintLoyaltyTokens env source)) := by
    by_cases some : 0 < progress.successes
    · obtain none | ⟨entry, member, accepted'⟩ := counted some
      · exact absurd none (by decide)
      · have any : targets.any accepts = true :=
          List.any_eq_true.mpr ⟨entry.1, (List.of_mem_zip member).1, accepted'⟩
        rw [onlyIf, if_pos some, if_pos any]
        exact mintLoyaltyTokens_lockstep (accepted any)
    · rw [onlyIf, if_neg some]
      rintro w _ ⟨-, rfl⟩
      exact .ok (.refl ..)
  exact .bind rewards fun _ => .modify fun _ _ but => but.emit _

end InStep

/-! ## Reachable worlds -/

/-- In a reachable world with exact ledgers a call starts with its reward payable. -/
theorem Reachable.rewardable {host : Host} {w : World} (reachable : Reachable host w)
    (exact : w.tokens.Exact) : Rewardable (w.store .loyaltyToken) w.begin.admits w.begin where
  exact := exact
  accrued := reachable.accrued_nonneg
  locked := reachable.locked_nonneg
  rate := reachable.referralBounded
  configured := rfl
  admits := rfl

/-- In exact ledgers, where the loyalty token has no reasons of its own to refuse a payment, every
funding call does the same with and without a loyalty token, however it is configured: it succeeds
or fails with the same error, returns the same, and leaves the same storage and balances, but for
those of the bridge and the rewarded address in the loyalty token. -/
theorem loyalty_neutrality {host : Host} {w : World} (reachable : Reachable host w)
    (exact : w.tokens.Exact) {env : Env} (swaps : env.SwapsExactly) {request : Request}
    (funds : request.funds = true)
    (accepted : ∀ asset dst amount, w.store .loyaltyToken = some asset →
      request.recipient w.begin = some dst →
      env.refuses (.transfer asset env.self dst amount) = false) :
    Agree (ButReward (w.store .loyaltyToken) env.self (request.recipient w.begin))
      ((execute env request).run w.begin) ((execute env request).run w.begin.unrewarded) := by
  have start := And.intro (reachable.rewardable exact) (Eq.refl w.begin.unrewarded)
  cases request
  all_goals try (exact absurd funds Bool.false_ne_true)
  case fundCAddress =>
    have accepted := fun asset amount found => accepted asset _ amount found rfl
    exact replying_lockstep (fundCAddress_lockstep accepted) start
  case fundCAddressWithReferral =>
    have accepted := fun asset amount found => accepted asset _ amount found rfl
    exact replying_lockstep (fundCAddressWithReferral_lockstep accepted) start
  case revealFund =>
    have accepted := fun asset amount found => accepted asset _ amount found rfl
    exact replying_lockstep (revealFund_lockstep accepted) start
  case fundCAddressWithSwap =>
    have accepted := fun asset amount found => accepted asset _ amount found rfl
    exact replying_lockstep (fundCAddressWithSwap_lockstep accepted swaps) start
  case fundCAddressTimelocked =>
    have accepted := fun asset amount found => accepted asset _ amount found rfl
    exact replying_lockstep (fundCAddressTimelocked_lockstep accepted) start
  case executeMetaFund =>
    have accepted := fun asset amount found => accepted asset _ amount found rfl
    exact replying_lockstep (executeMetaFund_lockstep accepted rfl) start
  case fundCAddressCrosschain =>
    have accepted := fun asset amount found => accepted asset _ amount found rfl
    exact replying_lockstep (fundCAddressCrosschain_lockstep accepted rfl) start
  case batchFundCAddress =>
    have accepted := fun any asset amount found => accepted asset _ amount found (if_pos any)
    exact replying_lockstep (batchFundCAddress_lockstep accepted) start

/-- Ledgers in which only the bridge and a source hold anything. -/
def Rehearsal.scarce : TokenLedger where
  balance _ holder :=
    if holder = bridge then amount 20000
    else if holder = address 4 then amount 5000 fiveThousand_small else 0
  allowance _ _ _ := 0

theorem Rehearsal.scarce_exact : Rehearsal.scarce.Exact := by
  have split (asset holder : Address) : (scarce.balance asset holder).val =
      (if holder = bridge then 20000 else 0) + (if holder = address 4 then 5000 else 0) := by
    by_cases own : holder = bridge
    · subst own
      rfl
    · by_cases source : holder = address 4
      · subst source
        rfl
      · simp only [scarce, own, source, if_false]
        rfl
  refine ⟨fun asset holder => ?_, fun asset holders => ?_⟩
  · rw [split]
    positivity
  · simp only [split, Finset.sum_add_distrib, Finset.sum_ite_eq']
    have large : (25000 : Int) ≤ I128.maxValue := by decide
    split_ifs <;> omega

/-- A funding in the loyalty token itself pays its reward of 500 out of the balance of the bridge,
and is the same funding without it. -/
theorem loyalty_neutrality_rehearsed :
    let script := Rehearsal.opening ++
      [(0, .setLoyaltyToken (Rehearsal.address 3) (Rehearsal.amount 500) none)]
    let w : World := { Rehearsal.outcome script with tokens := Rehearsal.scarce }
    let env := Rehearsal.env 0
    let held (w : World) := (w.tokens.balance (Rehearsal.address 3) (Rehearsal.address 4)).val
    (held (attempt env (Rehearsal.fund 1000) w).after = 4500 ∧
      held (attempt env (Rehearsal.fund 1000) w.unrewarded).after = 4000) ∧
    Agree (ButReward (some (Rehearsal.address 3)) Rehearsal.bridge (some (Rehearsal.address 4)))
      ((execute env (Rehearsal.fund 1000)).run w.begin)
      ((execute env (Rehearsal.fund 1000)).run w.begin.unrewarded) := by
  intro script w env held
  have untouched : (Rehearsal.outcome script).tokens = Rehearsal.fresh.tokens := by
    with_unfolding_all rfl
  have configured : w.store .loyaltyToken = some (Rehearsal.address 3) := by
    with_unfolding_all rfl
  have reachable : Reachable Rehearsal.host w := by
    refine (Rehearsal.reachable script (by decide +kernel)).run (.single (.external ?_))
    intro asset
    rw [untouched]
    change (10000 : Int) ≤ 20000
    decide
  have swaps : env.SwapsExactly := by
    intro pool minAmountOut ledger swapped amountOut _ swap
    cases swap
  have neutral : Agree (ButReward (w.store .loyaltyToken) env.self
      ((Rehearsal.fund 1000).recipient w.begin)) _ _ :=
    loyalty_neutrality reachable Rehearsal.scarce_exact swaps rfl fun _ _ _ _ _ => rfl
  rw [configured] at neutral
  exact ⟨by decide +kernel, neutral⟩

end OnboardingBridge.Contract
