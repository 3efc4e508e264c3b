import OnboardingBridge.Contract.Balances
import OnboardingBridge.Contract.Quotes

/-!
# Fundings charge what is quoted

A funding that succeeds in the world of a quote counts the fee that was quoted and pays
its target the net amount that was quoted. A batch charges every entry that it delivers
what is quoted for the amount of the entry before the batch (`quote_charged`).
-/

set_option autoImplicit false

namespace OnboardingBridge.Contract

open Foundations Foundations.Tx

/-! ## The calls that charge one amount -/

/-- A source funds a target with an amount of an asset. -/
structure Funding where
  source : Address
  target : Address
  asset : Address
  amount : I128

namespace Request

/-- What a call charges, if it funds one target from a source and its amount is known before. -/
def funding? : Request → Option Funding
  | .fundCAddress source target asset amount ..
  | .fundCAddressWithReferral source target asset amount ..
  | .revealFund _ source target asset amount _ => some ⟨source, target, asset, amount⟩
  | .executeMetaFund params .. => some ⟨params.source, params.target, params.asset, params.amount⟩
  | _ => none

/-- The token call by which it pulls the amount. -/
def pull (bridge : Address) (funding : Funding) : Request → TokenCall
  | .executeMetaFund .. =>
      .transferFrom funding.asset bridge funding.source bridge funding.amount
  | _ => .transfer funding.asset funding.source bridge funding.amount

end Request

theorem execute_fulfils {env : Env} {request : Request} {funding : Funding} {reply : Reply}
    {w w' : World} (funds : request.funding? = some funding) (bounded : w.FeesBounded)
    (rate : w.ReferralBounded) (fresh : w.invocations = []) (quiet : w.loyaltySkips = [])
    (ran : (execute env request).run w = .ok (reply, w')) :
    ∃ feeBps fee net share, w.Quotes funding.source funding.asset funding.amount feeBps fee net ∧
      share.val = w.referralShare fee.val request.referrer ∧ 0 ≤ share.val ∧ share.val ≤ fee.val ∧
      (∀ given ∈ request.referrer, given ≠ funding.source ∧ given ≠ funding.target) ∧
      Fulfils env funding.source funding.target funding.asset (request.pull env.self funding) fee net
        request.referrer share w w' := by
  cases request <;> simp only [Request.funding?, Option.some.injEq, reduceCtorEq] at funds
  case fundCAddress =>
    subst funds
    obtain ⟨_, ran, -⟩ := replying_ok.mp ran
    obtain ⟨feeBps, fee, net, quotes, fulfils⟩ := fundCAddress_fulfils bounded fresh quiet ran
    exact ⟨feeBps, fee, net, 0, quotes, rfl, le_rfl, fulfils.parts.1, by simp [Request.referrer],
      fulfils⟩
  case fundCAddressWithReferral =>
    subst funds
    obtain ⟨_, ran, -⟩ := replying_ok.mp ran
    obtain ⟨feeBps, fee, net, share, quotes, proportion, nonneg, within, others, fulfils⟩ :=
      fundCAddressWithReferral_fulfils bounded fresh quiet rate ran
    exact ⟨feeBps, fee, net, share, quotes, proportion, nonneg, within, others, fulfils⟩
  case revealFund =>
    subst funds
    obtain ⟨_, ran, -⟩ := replying_ok.mp ran
    obtain ⟨feeBps, fee, net, quotes, fulfils⟩ := revealFund_fulfils bounded fresh quiet ran
    exact ⟨feeBps, fee, net, 0, quotes, rfl, le_rfl, fulfils.parts.1, by simp [Request.referrer],
      fulfils⟩
  case executeMetaFund =>
    subst funds
    obtain ⟨_, ran, -⟩ := replying_ok.mp ran
    obtain ⟨feeBps, fee, net, quotes, fulfils⟩ := executeMetaFund_fulfils bounded fresh quiet ran
    exact ⟨feeBps, fee, net, 0, quotes, rfl, le_rfl, fulfils.parts.1, by simp [Request.referrer],
      fulfils⟩

theorem Request.swaps_of_funding {request : Request} {funding : Funding}
    (funds : request.funding? = some funding) : request.swaps = false := by
  cases request <;> first | rfl | cases funds

/-! ## What a holder receives -/

/-- What a payment of the bridge adds to the balance of another holder. -/
theorem deltas_payoutCalls {bridge asset dst holder : Address} {amount : I128}
    (nonneg : 0 ≤ amount.val) (other : holder ≠ bridge) :
    deltas asset holder (payoutCalls bridge asset dst amount) =
      if holder = dst then amount.val else 0 := by
  unfold payoutCalls
  split
  · simp [TokenCall.delta, other]
  · have zero : amount.val = 0 := by omega
    simp [zero]

/-- A reward adds to nobody but its recipient. -/
theorem deltas_rewardCalls {bridge asset recipient holder : Address} (other : holder ≠ bridge)
    (unrewarded : holder ≠ recipient) (w w' : World) :
    deltas asset holder (rewardCalls bridge (some recipient) w w') = 0 := by
  unfold rewardCalls
  split
  · next same _ =>
    obtain rfl := Option.some.inj same
    split
    · simp [TokenCall.delta, other, unrewarded]
    · rfl
  · rfl

/-- A target that is neither the source nor the bridge nor the referrer receives the net amount
exactly. -/
theorem Fulfils.received {env : Env} {request : Request} {funding : Funding} {fee net : I128}
    {referrer : Option Address} {share : I128} {w w' : World}
    (fulfils : Fulfils env funding.source funding.target funding.asset (request.pull env.self funding)
      fee net referrer share w w') (shared : 0 ≤ share.val)
    (others : ∀ given ∈ referrer, given ≠ funding.target)
    (notSource : funding.target ≠ funding.source) (notBridge : funding.target ≠ env.self) :
    deltas funding.asset funding.target w'.invocations = net.val := by
  have pulled : (request.pull env.self funding).delta funding.asset funding.target = 0 := by
    cases request <;> simp [Request.pull, TokenCall.delta, notSource, notBridge]
  have referred : deltas funding.asset funding.target (referrer.elim [] fun referrer =>
      payoutCalls env.self funding.asset referrer share) = 0 := by
    cases referrer with
    | none => rfl
    | some given =>
      have other : funding.target ≠ given := fun same => others given rfl same.symm
      rw [Option.elim_some, deltas_payoutCalls shared notBridge, if_neg other]
  rw [fulfils.calls, deltas_cons, deltas_append, deltas_append, pulled, referred,
    deltas_payoutCalls fulfils.parts.2 notBridge, if_pos rfl,
    deltas_rewardCalls notBridge notSource]
  omega

/-! ## Quotes are what is charged -/

/-- The rate of a quote is at most the global rate, the cap of the asset and the rate of every tier
that the volume of the source lies in. -/
structure World.Capped (w : World) (source asset : Address) (feeBps : UInt32) : Prop where
  global : ∃ config, w.bridgeConfig? = some config ∧ feeBps ≤ config.feeBps
  cap : feeBps ≤ w.assetFeeCap asset
  tier : ∀ tier ∈ w.feeTiers, tier.contains (w.sourceBridgedVolume source asset) = true →
    feeBps ≤ tier.feeBps

theorem World.Quotes.capped {host : Host} {w : World} (reachable : Reachable host w)
    {source asset : Address} {amount fee net : I128} {feeBps : UInt32}
    (quotes : w.Quotes source asset amount feeBps fee net) : w.Capped source asset feeBps := by
  obtain ⟨global, cap, tier⟩ := quotes.rate_le reachable.tierTable
  exact ⟨global, cap, tier⟩

/-- A world quotes one rate, one fee and one net amount. -/
theorem World.Quotes.unique {w : World} {source asset : Address} {amount fee net fee' net' : I128}
    {feeBps feeBps' : UInt32} (quotes : w.Quotes source asset amount feeBps fee net)
    (quotes' : w.Quotes source asset amount feeBps' fee' net') :
    feeBps = feeBps' ∧ fee = fee' ∧ net = net' := by
  obtain ⟨config, found, rate⟩ := quotes.rate
  obtain ⟨config', found', rate'⟩ := quotes'.rate
  obtain rfl : config = config' := Option.some.inj (found.symm.trans found')
  obtain rfl : feeBps = feeBps' := rate.trans rate'.symm
  obtain rfl : fee = fee' := Except.ok.inj (quotes.charged.symm.trans quotes'.charged)
  exact ⟨rfl, rfl, BoundedInt.ext (quotes.rest.trans quotes'.rest.symm)⟩

/-- A funding that succeeds in the world of a quote counts the quoted fee and pays its target the
quoted net amount. A batch charges each entry that it delivers what is quoted for its amount before
the batch. -/
theorem quote_charged {host : Host} {w : World} (reachable : Reachable host w) {env : Env}
    (deployed : env.host = host) :
    (∀ (funding : Funding) (feeBps : UInt32) (fee net : I128),
      (queryEffectiveFee funding.source funding.asset funding.amount).run w =
          .ok ((feeBps, fee, net), w) →
        w.Capped funding.source funding.asset feeBps ∧
        ∀ (request : Request) (reply : Reply) (w' : World), request.funding? = some funding →
          (execute env request).run w.begin = .ok (reply, w') →
            (∃ share, Fulfils env funding.source funding.target funding.asset
              (request.pull env.self funding) fee net request.referrer share w w') ∧
            (funding.target ≠ funding.source → funding.target ≠ env.self →
              (w'.tokens.balance funding.asset funding.target).val =
                (w.tokens.balance funding.asset funding.target).val + net.val)) ∧
    ∀ (source asset : Address) (targets : List Address) (amounts : List I128)
      (nonce deadline : Option UInt64) (reply : Reply) (w' : World),
      (execute env (.batchFundCAddress source targets amounts asset nonce deadline)).run w.begin =
          .ok (reply, w') →
        ∃ deliveries total refund,
          FulfilsBatch env source asset (targets.zip amounts) deliveries total refund
            (if targets.any w.admits then some source else none) w w' ∧
          ∀ delivery ∈ deliveries, ∃ feeBps, w.Capped source asset feeBps ∧
            (queryEffectiveFee source asset delivery.amount).run w =
              .ok ((feeBps, delivery.fee, delivery.net), w) := by
  subst deployed
  have sound : w.begin.Sound env.self := reachable.sound.of_store rfl
  have rate : w.begin.ReferralBounded := reachable.referralBounded
  refine ⟨fun funding feeBps fee net quoted => ?_, ?_⟩
  · obtain ⟨-, quotes, -⟩ := queryEffectiveFee_ok.mp quoted
    refine ⟨quotes.capped reachable, fun request reply w' funds ran => ?_⟩
    obtain ⟨_, _, _, share, charged, -, shared, -, others, fulfils⟩ :=
      execute_fulfils funds sound.fees rate rfl rfl ran
    have charged : w.Quotes funding.source funding.asset funding.amount _ _ _ :=
      ⟨charged.rate, charged.charged, charged.rest⟩
    obtain ⟨-, rfl, rfl⟩ := quotes.unique charged
    refine ⟨⟨share, fulfils.parts, fulfils.fees, fulfils.bridged, fulfils.accrued, fulfils.calls⟩,
      fun notSource notBridge => ?_⟩
    obtain ⟨calls, made, moved⟩ := execute_balances env (Request.swaps_of_funding funds) ran
    have received := fulfils.received shared (fun given named => (others given named).2) notSource
      notBridge
    rw [made] at received
    rw [moved]
    exact congrArg _ received
  · intro source asset targets amounts nonce deadline reply w' ran
    have initialized : w.initialized = true := (execute_admitted _ _ ran).initialized
    obtain ⟨_, ran, -⟩ := replying_ok.mp ran
    obtain ⟨deliveries, total, refund, fulfils⟩ :=
      batchFundCAddress_fulfils sound.fees rfl rfl ran
    obtain ⟨feeBps, quoted⟩ := fulfils.quoted
    have quotes : ∀ delivery ∈ deliveries,
        w.Quotes source asset delivery.amount feeBps delivery.fee delivery.net :=
      fun delivery member =>
        ⟨(quoted delivery member).rate, (quoted delivery member).charged, (quoted delivery member).rest⟩
    refine ⟨deliveries, total, refund, ⟨fulfils.delivered, ⟨feeBps, quotes⟩, fulfils.parts,
      fulfils.pulled, fulfils.refunded, fulfils.fees, fulfils.bridged, fulfils.accrued,
      fulfils.calls⟩, fun delivery member => ⟨feeBps, (quotes delivery member).capped reachable, ?_⟩⟩
    exact queryEffectiveFee_ok.mpr ⟨initialized, quotes delivery member, rfl⟩

/-- A quote of 10 on 1000 and the funding that charges it. -/
theorem quote_charged_rehearsed :
    let w := Rehearsal.outcome Rehearsal.opening
    let call := attempt (Rehearsal.env 0) (Rehearsal.fund 1000) w
    (call.after.tokens.balance (Rehearsal.address 3) (Rehearsal.address 5)).val =
      (w.tokens.balance (Rehearsal.address 3) (Rehearsal.address 5)).val + 990 := by
  intro w call
  have reachable := Rehearsal.reachable Rehearsal.opening (by decide +kernel)
  have deployed : (Rehearsal.env 0).host = Rehearsal.host := rfl
  have quoted := (quote_charged reachable deployed).1
    ⟨Rehearsal.address 4, Rehearsal.address 5, Rehearsal.address 3, Rehearsal.amount 1000⟩ 100
    (Rehearsal.amount 10) (Rehearsal.amount 990)
    (queryEffectiveFee_ok.mpr ⟨by decide +kernel, ⟨⟨_, rfl, by decide +kernel⟩,
      by decide +kernel, by decide +kernel⟩, rfl⟩)
  have success : succeeds (Rehearsal.env 0) (Rehearsal.fund 1000) w = true := by decide +kernel
  have ran := attempt_ran success
  obtain ⟨sameEnv, sameRequest, sameWorld⟩ :=
    attempt_call (Rehearsal.env 0) (Rehearsal.fund 1000) w
  rw [sameEnv, sameRequest, sameWorld] at ran
  exact (quoted.2 (Rehearsal.fund 1000) _ _ rfl ran).2 (by decide) (by decide)

end OnboardingBridge.Contract
