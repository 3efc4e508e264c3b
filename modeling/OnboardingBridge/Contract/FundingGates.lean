import OnboardingBridge.Contract.Modes
import OnboardingBridge.Contract.Outcomes

/-!
# The gates of the funding entry points

Each of the eight entry points that fund a target has its own copy of the checks
for admission. All of them enforce the same conjunction (`Request.Gated`), and the
token calls they make pay nobody but admitted targets and referrers, the source
of a batch, whitelisted pools and the receiver of a reward (`funding_gates`).
-/

set_option autoImplicit false

namespace OnboardingBridge.Contract

open Foundations Foundations.Tx

/-! ## What a funding call names -/

namespace Request

/-- The assets a funding call names. -/
def assets : Request → List Address
  | .fundCAddress _ _ asset _ _ _ | .batchFundCAddress _ _ _ asset _ _
  | .fundCAddressWithReferral _ _ asset _ _ _ _ | .fundCAddressTimelocked _ _ asset _ _ _ _ _
  | .fundCAddressCrosschain _ _ _ asset _ _ | .revealFund _ _ _ asset _ _ => [asset]
  | .fundCAddressWithSwap _ _ sourceAsset targetAsset .. => [sourceAsset, targetAsset]
  | .executeMetaFund params _ _ => [params.asset]
  | _ => []

/-- The gross amounts taken from the source, or attested. -/
def grossAmounts : Request → List I128
  | .fundCAddress _ _ _ amount _ _ | .fundCAddressWithReferral _ _ _ amount _ _ _
  | .fundCAddressTimelocked _ _ _ amount _ _ _ _ | .fundCAddressCrosschain _ _ _ _ amount _
  | .revealFund _ _ _ _ amount _ | .fundCAddressWithSwap _ _ _ _ amount _ _ _ _ => [amount]
  | .batchFundCAddress _ _ amounts _ _ _ => amounts
  | .executeMetaFund params _ _ => [params.amount]
  | _ => []

/-- The deadlines of the call, of the commitment it reveals or of the parameters that
were signed. -/
def deadlines (w : World) : Request → List UInt64
  | .fundCAddress _ _ _ _ _ deadline | .batchFundCAddress _ _ _ _ _ deadline
  | .fundCAddressWithReferral _ _ _ _ _ _ deadline
  | .fundCAddressTimelocked _ _ _ _ _ _ _ deadline
  | .fundCAddressWithSwap _ _ _ _ _ _ _ _ deadline => deadline.toList
  | .revealFund commitmentId .. =>
      ((w.store (.commitment commitmentId)).map CommitmentEntry.deadline).toList
  | .executeMetaFund params _ _ => [params.deadline]
  | _ => []

/-- The targets and the referrer of a funding call. -/
def beneficiaries : Request → List Address
  | .fundCAddress _ target .. | .fundCAddressWithSwap _ target .. | .revealFund _ _ target ..
  | .fundCAddressTimelocked _ target .. | .fundCAddressCrosschain _ _ target .. => [target]
  | .batchFundCAddress _ targets .. => targets
  | .fundCAddressWithReferral _ target _ _ referrer .. => target :: referrer.toList
  | .executeMetaFund params _ _ => [params.target]
  | _ => []

/-- Who pays for a funding call. -/
def payer : Request → Option Address
  | .fundCAddress source .. | .batchFundCAddress source .. | .fundCAddressWithReferral source ..
  | .fundCAddressTimelocked source .. | .revealFund _ source ..
  | .fundCAddressWithSwap source .. => some source
  | .executeMetaFund params _ _ => some params.source
  | _ => none

/-- The pools a call routes tokens through. -/
def route : Request → List Address
  | .fundCAddressWithSwap _ _ _ _ _ _ swapRoute _ _ => swapRoute
  | _ => []

/-- Whether a call skips the targets that are refused, and refunds its source. -/
def skips : Request → Bool
  | .batchFundCAddress .. => true
  | _ => false

end Request

/-- What every funding call has checked. -/
structure Request.Gated (env : Env) (request : Request) (w : World) : Prop where
  listed : ∀ asset ∈ request.assets, w.isAssetWhitelisted asset = true
  enough : ∀ amount ∈ request.grossAmounts, max 1 w.minimumAmount.val ≤ amount.val
  inTime : ∀ deadline ∈ request.deadlines w, env.timestamp ≤ deadline
  admitted : request.skips = false → ∀ target ∈ request.beneficiaries, w.admits target = true
  pools : ∀ pool ∈ request.route, w.isPoolWhitelisted pool = true

/-- The token calls a funding call may make. -/
inductive Request.Lawful (env : Env) (request : Request) (w : World) : TokenCall → Prop
  | pull {asset src : Address} {amount : I128} (pays : request.payer = some src) :
      Lawful env request w (.transfer asset src env.self amount)
  | pullSigned {asset src : Address} {amount : I128} (pays : request.payer = some src) :
      Lawful env request w (.transferFrom asset env.self src env.self amount)
  | delivery {asset dst : Address} {amount : I128} (named : dst ∈ request.beneficiaries)
      (admitted : w.admits dst = true) :
      Lawful env request w (.transfer asset env.self dst amount)
  | refund {asset src : Address} {amount : I128} (skips : request.skips = true)
      (pays : request.payer = some src) :
      Lawful env request w (.transfer asset env.self src amount)
  | swap {asset pool : Address} {amount : I128} (routed : pool ∈ request.route)
      (listed : w.isPoolWhitelisted pool = true) :
      Lawful env request w (.transfer asset env.self pool amount)
  | reward {token dst : Address} {amount : I128}
      (configured : w.loyaltyReward = some (token, amount))
      (earned : request.payer = some dst ∨ dst ∈ request.beneficiaries) :
      Lawful env request w (.transfer token env.self dst amount)

/-! ## The checks -/

theorem enough_of_not_belowMinimum {amount minimum : I128} (enough : ¬ belowMinimum amount minimum) :
    max 1 minimum.val ≤ amount.val := by
  obtain ⟨positive, reaches⟩ := not_or.mp enough
  exact max_le (not_le.mp positive) (not_lt.mp reaches)

theorem inTime_of_not_expired {env : Env} {deadline : Option UInt64}
    (inTime : ¬ expired env deadline) : ∀ last ∈ deadline.toList, env.timestamp ≤ last := by
  intro last given
  obtain rfl : deadline = some last := by simpa using given
  simpa [expired] using inTime

attribute [local simp] Request.assets Request.grossAmounts Request.deadlines Request.skips
  Request.route Request.beneficiaries

theorem fundCAddress_gated {env : Env} {source target asset : Address} {amount : I128}
    {nonce deadline : Option UInt64} {w w' : World} {u : Unit}
    (ran : (fundCAddress env source target asset amount nonce deadline).run w = .ok (u, w')) :
    Request.Gated env (.fundCAddress source target asset amount nonce deadline) w := by
  obtain ⟨mid, ran, -⟩ := nonReentrant_ok ran
  have entered := enter_recorded env.self w
  simp only [run_view_bind_ok checkInitialized_ok, run_view_bind_ok checkNotPaused_ok,
    run_read_bind, run_rejectIf_bind_ok, run_view_bind_ok checkAccess_ok,
    run_view_bind_ok checkAssetWhitelisted_ok, entered.minimumAmount, entered.admits,
    entered.isAssetWhitelisted] at ran
  obtain ⟨_, -, _, -, inTime, enough, _, ⟨admitted, -⟩, _, listed, -⟩ := ran
  refine ⟨?_, ?_, inTime_of_not_expired inTime, fun _ => ?_, by simp [Request.route]⟩
  · simpa [Request.assets] using listed
  · simpa [Request.grossAmounts] using enough_of_not_belowMinimum enough
  · simpa [Request.beneficiaries] using admitted

theorem batchFundCAddress_gated {env : Env} {source asset : Address} {targets : List Address}
    {amounts : List I128} {nonce deadline : Option UInt64} {w w' : World} {u : Unit}
    (ran : (batchFundCAddress env source targets amounts asset nonce deadline).run w
      = .ok (u, w')) :
    Request.Gated env (.batchFundCAddress source targets amounts asset nonce deadline) w := by
  obtain ⟨mid, ran, -⟩ := nonReentrant_ok ran
  have entered := enter_recorded env.self w
  simp only [run_view_bind_ok checkInitialized_ok, run_view_bind_ok checkNotPaused_ok,
    run_read_bind, run_rejectIf_bind_ok, run_view_bind_ok checkAssetWhitelisted_ok,
    entered.minimumAmount, entered.isAssetWhitelisted] at ran
  obtain ⟨_, -, _, -, -, -, inTime, -, _, listed, ran⟩ := ran
  obtain ⟨total, _, validated, -⟩ := run_bind_ok.mp ran
  obtain ⟨enough, -⟩ := validateAmounts_ok validated
  refine ⟨?_, fun amount member => ?_, inTime_of_not_expired inTime, by simp [Request.skips],
    by simp [Request.route]⟩
  · simpa [Request.assets] using listed
  · exact enough_of_not_belowMinimum (enough amount member)

theorem fundCAddressWithReferral_gated {env : Env} {source target asset : Address} {amount : I128}
    {referrer : Option Address} {nonce deadline : Option UInt64} {w w' : World} {u : Unit}
    (ran : (fundCAddressWithReferral env source target asset amount referrer nonce deadline).run w
      = .ok (u, w')) :
    Request.Gated env
      (.fundCAddressWithReferral source target asset amount referrer nonce deadline) w := by
  obtain ⟨mid, ran, -⟩ := nonReentrant_ok ran
  have entered := enter_recorded env.self w
  simp only [run_view_bind_ok checkInitialized_ok, run_view_bind_ok checkNotPaused_ok,
    run_read_bind, run_rejectIf_bind_ok, run_view_bind_ok checkAccess_ok, entered.minimumAmount,
    entered.admits] at ran
  obtain ⟨_, -, _, -, inTime, positive, reaches, _, ⟨admitted, -⟩, ran⟩ := ran
  obtain ⟨_, t, checked, ran⟩ := run_bind_ok.mp ran
  have referred : (∀ dst ∈ referrer, w.admits dst = true) ∧ t = w.put .entered true := by
    cases referrer with
    | none => exact ⟨by simp, (run_pure_ok.mp checked).2⟩
    | some referrer =>
      obtain ⟨⟨admits, -⟩, same⟩ := checkAccess_ok.mp checked
      rw [entered.admits] at admits
      exact ⟨fun dst given => Option.some.inj given ▸ admits, same⟩
  obtain ⟨referred, rfl⟩ := referred
  simp only [run_view_bind_ok checkAssetWhitelisted_ok, entered.isAssetWhitelisted] at ran
  obtain ⟨_, listed, -⟩ := ran
  refine ⟨?_, ?_, inTime_of_not_expired inTime, fun _ => ?_, by simp [Request.route]⟩
  · simpa [Request.assets] using listed
  · simpa [Request.grossAmounts] using
      enough_of_not_belowMinimum (not_or.mpr ⟨positive, reaches⟩)
  · simpa [Request.beneficiaries] using ⟨admitted, referred⟩

theorem fundCAddressWithSwap_gated {env : Env} {source target sourceAsset targetAsset : Address}
    {sourceAmount minTargetAmount : I128} {swapRoute : List Address}
    {nonce deadline : Option UInt64} {w w' : World} {u : Unit}
    (ran : (fundCAddressWithSwap env source target sourceAsset targetAsset sourceAmount
      minTargetAmount swapRoute nonce deadline).run w = .ok (u, w')) :
    Request.Gated env (.fundCAddressWithSwap source target sourceAsset targetAsset sourceAmount
      minTargetAmount swapRoute nonce deadline) w := by
  obtain ⟨mid, ran, -⟩ := nonReentrant_ok ran
  have entered := enter_recorded env.self w
  simp only [run_view_bind_ok checkInitialized_ok, run_view_bind_ok checkNotPaused_ok,
    run_read_bind, run_rejectIf_bind_ok, run_view_bind_ok checkAccess_ok,
    run_view_bind_ok checkAssetWhitelisted_ok, entered.minimumAmount, entered.admits,
    entered.isAssetWhitelisted] at ran
  obtain ⟨_, -, _, -, inTime, positive, reaches, _, ⟨admitted, -⟩, _, fromListed, _, toListed,
    ran⟩ := ran
  refine entered.skip ran (by simp) fun _ _ sofar ran => ?_
  simp only [run_rejectIf_bind_ok, run_ofOption_bind_ok] at ran
  obtain ⟨single, pool, first, ran⟩ := ran
  obtain ⟨_, _, checked, -⟩ := run_bind_ok.mp ran
  have whitelisted := checkPoolWhitelisted_ok checked
  rw [sofar.isPoolWhitelisted] at whitelisted
  obtain ⟨hop, rfl⟩ := List.length_eq_one_iff.mp (not_not.mp single)
  obtain rfl : hop = pool := by simpa using first
  refine ⟨?_, ?_, inTime_of_not_expired inTime, fun _ => ?_, ?_⟩
  · simpa [Request.assets] using ⟨fromListed, toListed⟩
  · simpa [Request.grossAmounts] using
      enough_of_not_belowMinimum (not_or.mpr ⟨(not_or.mp positive).1, reaches⟩)
  · simpa [Request.beneficiaries] using admitted
  · simpa [Request.route] using whitelisted

theorem fundCAddressTimelocked_gated {env : Env} {source target asset : Address} {amount : I128}
    {releaseTime cliffTime : UInt64} {nonce deadline : Option UInt64} {w w' : World} {id : UInt64}
    (ran : (fundCAddressTimelocked env source target asset amount releaseTime cliffTime nonce
      deadline).run w = .ok (id, w')) :
    Request.Gated env (.fundCAddressTimelocked source target asset amount releaseTime cliffTime
      nonce deadline) w := by
  obtain ⟨mid, ran, -⟩ := nonReentrant_ok ran
  have entered := enter_recorded env.self w
  simp only [run_view_bind_ok checkInitialized_ok, run_view_bind_ok checkNotPaused_ok,
    run_read_bind, run_rejectIf_bind_ok, run_view_bind_ok checkAccess_ok,
    run_view_bind_ok checkAssetWhitelisted_ok, entered.minimumAmount, entered.admits,
    entered.isAssetWhitelisted] at ran
  obtain ⟨_, -, _, -, inTime, enough, -, _, ⟨admitted, -⟩, _, listed, -⟩ := ran
  refine ⟨?_, ?_, inTime_of_not_expired inTime, fun _ => ?_, by simp [Request.route]⟩
  · simpa [Request.assets] using listed
  · simpa [Request.grossAmounts] using enough_of_not_belowMinimum enough
  · simpa [Request.beneficiaries] using admitted

theorem fundCAddressCrosschain_gated {env : Env} {chainId : UInt32} {txHash : BytesN 32}
    {target asset : Address} {amount : I128} {sigs : List RelayerSig} {w w' : World} {u : Unit}
    (ran : (fundCAddressCrosschain env chainId txHash target asset amount sigs).run w
      = .ok (u, w')) :
    Request.Gated env (.fundCAddressCrosschain chainId txHash target asset amount sigs) w := by
  obtain ⟨gates, -⟩ := fundCAddressCrosschain_ok.mp ran
  refine ⟨?_, ?_, by simp [Request.deadlines], fun _ => ?_, by simp [Request.route]⟩
  · simpa [Request.assets] using gates.whitelisted
  · simpa [Request.grossAmounts] using enough_of_not_belowMinimum gates.enough
  · simpa [Request.beneficiaries] using gates.admitted

theorem revealFund_gated {env : Env} {commitmentId nonce : UInt64} {source target asset : Address}
    {amount : I128} {w w' : World} {u : Unit}
    (ran : (revealFund env commitmentId source target asset amount nonce).run w = .ok (u, w')) :
    Request.Gated env (.revealFund commitmentId source target asset amount nonce) w := by
  obtain ⟨mid, ran, -⟩ := nonReentrant_ok ran
  have entered := enter_recorded env.self w
  have stored : (w.put .entered true).store (.commitment commitmentId) =
      w.store (.commitment commitmentId) := by simp
  simp only [run_view_bind_ok checkInitialized_ok, run_view_bind_ok checkNotPaused_ok,
    run_read_bind, run_rejectIf_bind_ok, run_ofOption_bind_ok, run_view_bind_ok checkAccess_ok,
    run_view_bind_ok checkAssetWhitelisted_ok, entered.minimumAmount, entered.admits,
    entered.isAssetWhitelisted, stored] at ran
  obtain ⟨_, -, _, -, entry, found, -, inTime, -, -, -, -, positive, reaches, _, ⟨admitted, -⟩, _,
    listed, -⟩ := ran
  refine ⟨?_, ?_, ?_, fun _ => ?_, by simp [Request.route]⟩
  · simpa [Request.assets] using listed
  · simpa [Request.grossAmounts] using
      enough_of_not_belowMinimum (not_or.mpr ⟨positive, reaches⟩)
  · simpa [Request.deadlines, found] using inTime
  · simpa [Request.beneficiaries] using admitted

theorem executeMetaFund_gated {env : Env} {params : MetaFundParams} {pubkey : BytesN 32}
    {signature : BytesN 64} {w w' : World} {u : Unit}
    (ran : (executeMetaFund env params pubkey signature).run w = .ok (u, w')) :
    Request.Gated env (.executeMetaFund params pubkey signature) w := by
  obtain ⟨mid, ran, -⟩ := nonReentrant_ok ran
  have entered := enter_recorded env.self w
  simp only [run_view_bind_ok checkInitialized_ok, run_view_bind_ok checkNotPaused_ok,
    run_read_bind, run_rejectIf_bind_ok, run_view_bind_ok checkAccess_ok,
    run_view_bind_ok checkAssetWhitelisted_ok, entered.minimumAmount, entered.admits,
    entered.isAssetWhitelisted] at ran
  obtain ⟨_, -, _, -, inTime, -, positive, reaches, _, ⟨admitted, -⟩, _, listed, -⟩ := ran
  refine ⟨?_, ?_, ?_, fun _ => ?_, by simp [Request.route]⟩
  · simpa [Request.assets] using listed
  · simpa [Request.grossAmounts] using
      enough_of_not_belowMinimum (not_or.mpr ⟨positive, reaches⟩)
  · simpa [Request.deadlines] using inTime
  · simpa [Request.beneficiaries] using admitted

/-- A successful funding call has checked all of them. -/
theorem execute_gated {env : Env} {request : Request} {reply : Reply} {w w' : World}
    (funds : request.funds = true) (ran : (execute env request).run w = .ok (reply, w')) :
    request.Gated env w := by
  cases request
  all_goals first | exact absurd funds Bool.false_ne_true | skip
  all_goals obtain ⟨_, ran, -⟩ := replying_ok.mp ran
  case fundCAddress => exact fundCAddress_gated ran
  case batchFundCAddress => exact batchFundCAddress_gated ran
  case fundCAddressWithReferral => exact fundCAddressWithReferral_gated ran
  case fundCAddressCrosschain => exact fundCAddressCrosschain_gated ran
  case fundCAddressTimelocked => exact fundCAddressTimelocked_gated ran
  case revealFund => exact revealFund_gated ran
  case fundCAddressWithSwap => exact fundCAddressWithSwap_gated ran
  case executeMetaFund => exact executeMetaFund_gated ran

/-! ## The token calls -/

/-- The keys a funding call writes. -/
def fundingKeys : Set DataKey := {key | key.isRecord = true ∨ key.isCounter = true}

@[simp] theorem mem_fundingKeys {key : DataKey} :
    key ∈ fundingKeys ↔ key.isRecord = true ∨ key.isCounter = true := Iff.rfl

/-- The worlds have the same settings: the roles, rates, lists and rewards. -/
def World.AgreesWith (w start : World) : Prop := ∀ key ∉ fundingKeys, w.store key = start.store key

theorem World.AgreesWith.admits {w start : World} (agrees : w.AgreesWith start) (target : Address) :
    w.admits target = start.admits target := by
  unfold World.admits World.isBlocked World.isAllowlisted World.bridgeConfig?
  simp only [agrees (.blocked target) (by simp), agrees (.allowlisted target) (by simp),
    agrees .bridgeConfig (by simp), agrees .admin (by simp), agrees .feeCollector (by simp),
    agrees .feeBps (by simp)]

theorem World.AgreesWith.loyaltyReward {w start : World} (agrees : w.AgreesWith start) :
    w.loyaltyReward = start.loyaltyReward := by
  unfold World.loyaltyReward World.loyaltyAmountPerFund
  rw [agrees .loyaltyToken (by simp), agrees .loyaltyAmountPerFund (by simp)]

/-- From a world with the settings of the start, the settings stay and the token calls
between the two worlds are all allowed. -/
def PaysWithin (start : World) (allowed : TokenCall → Prop) (w w' : World) : Prop :=
  w.AgreesWith start → w'.AgreesWith start ∧
    ∃ calls, w'.invocations = w.invocations ++ calls ∧ ∀ call ∈ calls, allowed call

instance (start : World) (allowed : TokenCall → Prop) :
    IsPreorder World (PaysWithin start allowed) where
  refl _ agrees := ⟨agrees, [], by simp, by simp⟩
  trans _ _ _ first second agrees := by
    obtain ⟨agrees, calls, earlier, lawful⟩ := first agrees
    obtain ⟨agrees, more, later, lawful'⟩ := second agrees
    refine ⟨agrees, calls ++ more, by rw [later, earlier, List.append_assoc], ?_⟩
    exact List.forall_mem_append.mpr ⟨lawful, lawful'⟩

/-- Every successful run of a part of a call makes allowed token calls only. -/
abbrev Pays (start : World) (allowed : TokenCall → Prop) {α : Type} (body : Call α) : Prop :=
  Preserves (PaysWithin start allowed) body

section Pays

variable {start : World} {allowed : TokenCall → Prop}

/-- What makes no token call makes allowed ones only. -/
theorem Touches.pays {α : Type} {body : Call α} (touches : Touches fundingKeys False body) :
    Pays start allowed body := by
  intro w a w' ran agrees
  have frame := touches ran
  refine ⟨fun key outside => (frame.store key outside).trans (agrees key outside), [], ?_, by simp⟩
  rw [frame.invocations id, List.append_nil]

theorem transfer_pays {env : Env} {asset src dst : Address} {amount : I128}
    (lawful : allowed (.transfer asset src dst amount)) :
    Pays start allowed (transfer env asset src dst amount) := by
  intro w _ w' ran agrees
  obtain ⟨moved, -, rfl⟩ := transfer_ok ran
  exact ⟨agrees, _, rfl, by simpa using lawful⟩

theorem transferFrom_pays {env : Env} {asset src dst : Address} {amount : I128}
    (lawful : allowed (.transferFrom asset env.self src dst amount)) :
    Pays start allowed (transferFrom env asset src dst amount) := by
  intro w _ w' ran agrees
  obtain ⟨_, moved, -, -, -, rfl⟩ := transferFrom_ok ran
  exact ⟨agrees, _, rfl, by simpa using lawful⟩

theorem invokeSwap_pays (env : Env) (pool : Address) (minAmountOut : I128) :
    Pays start allowed (invokeSwap env pool minAmountOut) := by
  intro w _ w' ran agrees
  obtain ⟨-, swapped, -, rfl⟩ := invokeSwap_ok ran
  exact ⟨agrees, [], by simp, by simp⟩

theorem mintLoyaltyTokens_pays {env : Env} {recipient : Address}
    (lawful : ∀ token amount, start.loyaltyReward = some (token, amount) →
      allowed (.transfer token env.self recipient amount)) :
    Pays start allowed (mintLoyaltyTokens env recipient) := by
  intro w _ w' ran agrees
  rw [mintLoyaltyTokens_run, agrees.loyaltyReward] at ran
  cases configured : start.loyaltyReward with
  | none =>
    simp only [configured, Except.ok.injEq, Prod.mk.injEq, true_and] at ran
    exact ran ▸ refl_of (PaysWithin start allowed) w agrees
  | some reward =>
    obtain ⟨token, amount⟩ := reward
    simp only [configured] at ran
    split at ran
    · simp only [Except.ok.injEq, Prod.mk.injEq, true_and] at ran
      subst ran
      exact ⟨agrees, [], by simp, by simp⟩
    · exact transfer_pays (lawful token amount configured) ran agrees

theorem payReferral_pays {env : Env} {source asset : Address} {fee : I128}
    {referrer : Option Address}
    (lawful : ∀ dst ∈ referrer, ∀ amount, allowed (.transfer asset env.self dst amount)) :
    Pays start allowed (payReferral env source asset fee referrer) := by
  cases referrer with
  | none => exact .pure _
  | some referrer =>
    refine Preserves.bind (.read _) fun _ => Preserves.bind (.ofExcept _ _) fun referralFee => ?_
    refine Preserves.ite (Preserves.bind (transfer_pays (lawful _ rfl _)) fun _ => ?_) (.pure _)
    refine Preserves.bind (.ofExcept _ _) fun _ => ?_
    exact Preserves.bind (Touches.pays (publish_touches rfl)) fun _ => .pure _

/-- The delivery loop pays the targets that the start admits. -/
theorem deliverBatch_pays {env : Env} {source asset : Address} {feeBps : UInt32}
    {entries : List (Address × I128)}
    (lawful : ∀ entry ∈ entries, start.admits entry.1 = true →
      ∀ amount, allowed (.transfer asset env.self entry.1 amount)) (progress : BatchProgress) :
    Pays start allowed (deliverBatch env source asset feeBps progress entries) := by
  induction entries generalizing progress with
  | nil => exact .pure _
  | cons entry rest ih =>
      obtain ⟨target, amount⟩ := entry
      obtain ⟨here, later⟩ := List.forall_mem_cons.mp lawful
      intro w result w' ran agrees
      rw [deliverBatch] at ran
      obtain ⟨error, _, checked, goesOn⟩ := run_bind_ok.mp ran
      obtain ⟨admitted, -, rfl⟩ := accessError_ok checked
      rw [agrees.admits] at admitted
      split at goesOn
      · refine (?_ : Pays start allowed _) goesOn agrees
        refine Preserves.bind (Touches.pays (by simp)) fun _ => ?_
        refine Preserves.bind (.ofExcept _ _) fun _ => ?_
        exact Preserves.bind (Touches.pays (publish_touches rfl)) fun _ => ih later _
      · next passes =>
        have within : start.admits target = true := by
          rw [← admitted]
          simpa using passes
        refine (?_ : Pays start allowed _) goesOn agrees
        refine Preserves.bind (.ofExcept _ _) fun _ => Preserves.bind (.ofExcept _ _) fun net => ?_
        refine Preserves.bind (.onlyIf (transfer_pays (here within net))) fun _ => ?_
        refine Preserves.bind (Touches.pays (by simp)) fun _ => ?_
        refine Preserves.bind (Touches.pays (by simp)) fun _ => ?_
        exact Preserves.bind (Touches.pays (publish_touches rfl)) fun _ => ih later _

theorem nonReentrant_pays {α : Type} {body : Call α} (inner : Pays start allowed body) :
    Pays start allowed (nonReentrant body) := by
  refine Preserves.bind (.read _) fun _ => Preserves.bind (.rejectIf _ _) fun _ => ?_
  refine Preserves.bind (Touches.pays (save_touches _ (by simp))) fun _ => ?_
  refine Preserves.bind inner fun _ => ?_
  exact Preserves.bind (Touches.pays (remove_touches (by simp))) fun _ => .pure _

end Pays

/-- A funding call whose targets are admitted, unless it skips those that are refused,
makes lawful token calls only. -/
theorem execute_pays {env : Env} {request : Request} {start : World}
    (funds : request.funds = true) (gated : request.Gated env start) :
    Pays start (request.Lawful env start) (execute env request) := by
  have named (target : Address) (skips : request.skips = false)
      (member : target ∈ request.beneficiaries) (asset : Address) (amount : I128) :
      request.Lawful env start (.transfer asset env.self target amount) :=
    .delivery member (gated.admitted skips target member)
  have rewards (dst : Address) (earned : request.payer = some dst ∨ dst ∈ request.beneficiaries)
      (token : Address) (amount : I128) (configured : start.loyaltyReward = some (token, amount)) :
      request.Lawful env start (.transfer token env.self dst amount) := .reward configured earned
  cases request
  all_goals first | exact absurd funds Bool.false_ne_true | skip
  all_goals refine Preserves.bind (nonReentrant_pays ?_) fun _ => .pure _
  case fundCAddressWithSwap source target sourceAsset targetAsset sourceAmount minTargetAmount
      swapRoute nonce deadline =>
    iterate 11 (refine Preserves.bind (Touches.pays (by simp)) fun _ => ?_)
    refine Preserves.ofOption_bind fun pool first => ?_
    have routed := List.mem_of_mem_head? first
    repeat' with_reducible refine Preserves.bind ?_ fun _ => ?_
    all_goals first
      | with_reducible refine transfer_pays ?_
        first | exact .pull rfl | exact .swap routed (gated.pools pool routed)
      | with_reducible refine Preserves.onlyIf (transfer_pays ?_)
        exact named target rfl (.head _) _ _
      | with_reducible refine mintLoyaltyTokens_pays ?_
        exact rewards source (.inl rfl)
      | with_reducible exact invokeSwap_pays ..
      | refine Touches.pays ?_
        simp [Preserves.ofExcept, requireAuth_touches, readFeeBps_touches,
          checkPoolWhitelisted_touches]
  all_goals repeat' with_reducible refine Preserves.bind ?_ fun _ => ?_
  all_goals first
    | with_reducible refine transfer_pays ?_
      exact .pull rfl
    | with_reducible refine transferFrom_pays ?_
      exact .pullSigned rfl
    | with_reducible refine Preserves.onlyIf (transfer_pays ?_)
      first | exact .refund rfl rfl | exact named _ rfl (.head _) _ _
    | with_reducible refine mintLoyaltyTokens_pays ?_
      first | exact rewards _ (.inl rfl) | exact rewards _ (.inr (.head _))
    | with_reducible refine Preserves.onlyIf (mintLoyaltyTokens_pays ?_)
      exact rewards _ (.inl rfl)
    | with_reducible refine payReferral_pays fun dst given amount => ?_
      exact named dst rfl (.tail _ (Option.mem_toList.mpr given)) _ _
    | with_reducible refine deliverBatch_pays (fun entry member admitted _ => ?_) _
      exact .delivery (List.of_mem_zip member).1 admitted
    | refine Touches.pays ?_
      simp [Preserves.ofExcept, requireAuth_touches, readFeeBps_touches, validateAmounts_touches]

/-! ## Runs -/

/-- The contract was open to a funding call, the call passed all checks, and its token
calls are lawful. -/
structure Success.FundsLawfully (call : Success) : Prop where
  initialized : call.before.initialized = true
  active : call.before.deactivated = false
  unpaused : ¬ call.before.paused
  gated : call.request.Gated call.env call.before
  lawful : ∀ paid ∈ call.after.invocations, call.request.Lawful call.env call.before paid

theorem Success.fundsLawfully {call : Success} (funds : call.request.funds = true)
    (ran : (execute call.env call.request).run call.before.begin = .ok (call.reply, call.after)) :
    call.FundsLawfully := by
  have admitted := execute_admitted _ _ ran
  have later : call.request.initializes = false := by
    obtain ⟨env, request, before, reply, after⟩ := call
    cases request
    case initializeContract | initializeWithWasmHash => cases funds
    all_goals rfl
  have gate : call.request.gate = .running := by
    obtain ⟨env, request, before, reply, after⟩ := call
    cases request
    all_goals first | rfl | cases funds
  have opened : call.before.initialized = true := admitted.initialized.trans (by rw [later]; rfl)
  have running : Gate.Admits .running call.before.begin := gate ▸ admitted.gate
  obtain ⟨active, config, found, clear⟩ : call.before.running := running
  have gated : call.request.Gated call.env call.before.begin := execute_gated funds ran
  have gated : call.request.Gated call.env call.before :=
    ⟨gated.listed, gated.enough, gated.inTime, gated.admitted, gated.pools⟩
  refine ⟨opened, active, ?_, gated, fun paid member => ?_⟩
  · rintro ⟨config', found', set⟩
    obtain rfl := Option.some.inj (found.symm.trans found')
    exact Bool.false_ne_true (clear.symm.trans set)
  · obtain ⟨-, calls, made, lawful⟩ := execute_pays funds gated ran fun _ _ => rfl
    rw [made] at member
    exact lawful paid (by simpa using member)

/-- Every successful funding call of a run found the contract open, passed the same
checks as the other seven, and pays nobody but admitted targets and referrers, the
source of a batch, whitelisted pools and the receiver of a reward. -/
theorem funding_gates {host : Host} {start w : World} {labels : List Label}
    (run : Run (Step host) start labels w) :
    ∀ call, .success call ∈ labels → call.request.funds = true → call.FundsLawfully := by
  intro call member funds
  obtain ⟨-, ran, -⟩ := successful_of_run run member
  exact Success.fundsLawfully funds ran

/-- A batch with a blocked target. -/
theorem funding_gates_rehearsed :
    let script : List (UInt64 × Request) := [
      (0, .initializeContract (Rehearsal.address 1) (Rehearsal.address 2) 100 none),
      (0, .addAsset (Rehearsal.address 3) none), (0, .addToBlocklist (Rehearsal.address 6) none)]
    (attempt (Rehearsal.env 0) (.batchFundCAddress (Rehearsal.address 4)
      [Rehearsal.address 5, Rehearsal.address 6] [Rehearsal.amount 1000, Rehearsal.amount 500]
      (Rehearsal.address 3) none (some 0)) (Rehearsal.outcome script)).FundsLawfully := by
  intro script
  let batch : Request := .batchFundCAddress (Rehearsal.address 4)
    [Rehearsal.address 5, Rehearsal.address 6] [Rehearsal.amount 1000, Rehearsal.amount 500]
    (Rehearsal.address 3) none (some 0)
  have run := Rehearsal.run (script ++ [(0, batch)]) (by decide +kernel)
  have calls : Rehearsal.calls (script ++ [(0, batch)]) = Rehearsal.calls script ++
    [attempt (Rehearsal.env 0) batch (Rehearsal.outcome script)] := rfl
  refine funding_gates run _ (List.mem_map_of_mem ?_) (congrArg Request.funds (attempt_call ..).2.1)
  rw [calls]
  exact List.mem_append_right _ (List.mem_singleton_self _)

end OnboardingBridge.Contract
