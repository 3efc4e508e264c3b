import OnboardingBridge.Contract.FundingPaths

/-!
# Fundings with and without a referral

A funding with a referral pays the referrer its share of the fee and does otherwise what the
single funding does. When nothing is to be shared the two succeed alike, up to the counter of the
source's deposits and the checks of the referrer, and leave the same world but for that counter
(`referral_split`).
-/

set_option autoImplicit false

namespace OnboardingBridge.Contract

open Foundations Foundations.Tx

/-! ## Payments that nobody gets a share of -/

/-- A share that rounds to nothing leaves the fee as it is. -/
theorem payReferral_unshared {env : Env} {source asset : Address} {fee : I128}
    {referrer : Option Address} {w : World} (nonneg : 0 ≤ fee.val)
    (unshared : w.referralShare fee.val referrer = 0) :
    (payReferral env source asset fee referrer).run w = .ok (fee, w) := by
  cases referrer with
  | none => rfl
  | some referrer =>
    simp only [payReferral]
    rw [run_read_bind]
    generalize rated : (w.store .referralRate).getD 0 = rate
    have zero : fee.val * rate.toNat / 10000 = 0 := rated ▸ unshared
    have fits : fee.val * rate.toNat ≤ I128.maxValue := by
      have top : (10000 : Int) ≤ I128.maxValue := by decide
      omega
    obtain ⟨share, charged⟩ := exists_calculateFee nonneg fits
    have nothing : ¬ 0 < share.val := by
      rw [((calculateFee_charges nonneg).mp charged).2, feeAt, zero]
      exact lt_irrefl 0
    rw [charged]
    exact congrArg (fun m : Call I128 => m.run w) (if_neg nothing)

/-! ## The counter of deposits -/

/-- The reward step does not look at the deposits of a source. -/
theorem mintLoyaltyTokens_commutes {f : World → World} (aside : Unnoticed f)
    (same : ∀ w, (f w).store .loyaltyToken = w.store .loyaltyToken) (env : Env)
    (recipient : Address) : Commutes f (mintLoyaltyTokens env recipient) := by
  refine .bind (.read same) fun token => ?_
  cases token with
  | none => exact .pure _
  | some token =>
    refine .bind (stored_commutes aside .loyaltyAmountPerFund rfl (·.getD 0)) fun amount => ?_
    refine .ite (.pure _) (.bind (balance_commutes aside _ _) fun held => ?_)
    refine .bind (stored_commutes aside (.assetStats token) rfl (·.getD ⟨0, 0, 0, 0⟩))
      fun counters => ?_
    exact .ite (publish_commutes aside _) (transfer_commutes aside _ _ _ _ _)

theorem conclude_commutes {f : World → World} (aside : Unnoticed f)
    (same : ∀ w, (f w).store .loyaltyToken = w.store .loyaltyToken) (env : Env)
    (source target asset : Address) (amount fee net : I128) :
    Commutes f (conclude env source target asset amount fee net) := by
  refine .bind (updateAssetCountersSplit_commutes aside _ _ _ _) fun _ => ?_
  refine .bind (incrementSourceBridgedVolume_commutes aside _ _ _) fun _ => ?_
  exact .bind (mintLoyaltyTokens_commutes aside same _ _) fun _ => publish_commutes aside _

/-- The deposits of a source in an asset. -/
def World.userDeposit (w : World) (source asset : Address) : I128 :=
  (w.store (.userDeposit source asset)).getD 0

theorem incrementUserDeposit_ok {source asset : Address} {amount : I128} {w w' : World} {u : Unit} :
    (incrementUserDeposit source asset amount).run w = .ok (u, w') ↔
      ∃ deposit, safeAdd (w.userDeposit source asset) amount = .ok deposit ∧
        w' = w.put (.userDeposit source asset) deposit := by
  rw [incrementUserDeposit, run_read_bind, run_ofExcept_bind_ok]
  exact exists_congr fun deposit => and_congr_right fun _ => run_modify_ok

/-! ## The funding with a referral -/

theorem checkReferrerAccess_ok {w w' : World} {referrer : Option Address} {u : Unit} :
    (checkReferrerAccess referrer).run w = .ok (u, w') ↔
      (∀ given ∈ referrer, w.admits given = true ∧ ∃ config, w.bridgeConfig? = some config) ∧
        w' = w := by
  cases referrer with
  | none => simp [checkReferrerAccess, run_pure_ok, -run_pure]
  | some given => simp [checkReferrerAccess, checkAccess_ok]

theorem fundCAddressWithReferral_ok_iff {env : Env} {source target asset : Address} {amount : I128}
    {referrer : Option Address} {nonce deadline : Option UInt64} {w w' : World} {u : Unit} :
    (fundCAddressWithReferral env source target asset amount referrer nonce deadline).run w
        = .ok (u, w') ↔
      w.Takes env source target asset amount deadline ∧
      (∀ given ∈ referrer, w.admits given = true ∧ given ≠ source ∧ given ≠ target) ∧
      ∃ t feeBps fee net p q protocolFee r mid, w.Claims env source asset amount nonce t ∧
        w.Quotes source asset amount feeBps fee net ∧
        (transfer env asset source env.self amount).run t = .ok ((), p) ∧
        (onlyIf (0 < net.val) (transfer env asset env.self target net)).run p = .ok ((), q) ∧
        (payReferral env source asset fee referrer).run q = .ok (protocolFee, r) ∧
        (do
          incrementUserDeposit source asset amount
          updateAssetCountersSplit asset protocolFee fee net
          incrementSourceBridgedVolume source asset amount
          mintLoyaltyTokens env source
          publish (.cAddressFunded asset source target amount fee)).run r = .ok ((), mid) ∧
        w' = mid.erase .entered := by
  have entered := enter_recorded env.self w
  rw [fundCAddressWithReferral, nonReentrant_ok_iff]
  simp only [run_view_bind_ok checkInitialized_ok, run_view_bind_ok checkNotPaused_ok,
    run_read_bind, run_rejectIf_bind_ok, run_view_bind_ok checkAccess_ok,
    run_view_bind_ok checkReferrerAccess_ok,
    run_view_bind_ok checkAssetWhitelisted_ok, entered.minimumAmount, entered.admits,
    entered.isAssetWhitelisted, entered.initialized, entered.running, entered.bridgeConfig?,
    exists_const]
  constructor
  · rintro ⟨idle, mid, ⟨initialized, running, inTime, positive, reaches, ⟨admitted, -⟩, known, listed,
      ran⟩, left⟩
    obtain ⟨_, d, charged, ran⟩ := run_bind_ok.mp ran
    obtain ⟨strangers, ran⟩ := run_rejectIf_bind_ok.mp ran
    obtain ⟨authorized, ran⟩ := requireAuth_bind_ok.mp ran
    obtain ⟨_, t, consumed, ran⟩ := run_bind_ok.mp ran
    obtain ⟨_, p, pulled, ran⟩ := run_bind_ok.mp ran
    obtain ⟨feeBps, fee, net, quoted, ran⟩ := charged_quotes.mp ran
    obtain ⟨_, q, delivered, ran⟩ := run_bind_ok.mp ran
    obtain ⟨protocolFee, r, shared, ran⟩ := run_bind_ok.mp ran
    have claims : w.Claims env source asset amount nonce t := ⟨d, charged, consumed⟩
    refine ⟨⟨idle, initialized, running, inTime, not_or.mpr ⟨positive, reaches⟩, admitted, listed,
      authorized⟩, ?_, t, feeBps, fee, net, p, q, protocolFee, r, mid, claims,
      (claims.pulled pulled).quotes.mp quoted, pulled, delivered, shared, ran, left⟩
    rintro given named
    obtain rfl := Option.mem_def.mp named
    exact ⟨(known given rfl).1, by simpa [not_or] using strangers⟩
  · rintro ⟨takes, welcome, t, feeBps, fee, net, p, q, protocolFee, r, mid, claims, quoted, pulled,
      delivered, shared, ran, left⟩
    have quoted := (claims.pulled pulled).quotes.mpr quoted
    obtain ⟨d, charged, consumed⟩ := claims
    obtain ⟨positive, reaches⟩ := not_or.mp takes.enough
    refine ⟨takes.idle, mid, ⟨takes.initialized, takes.running, takes.inTime, positive, reaches,
      ⟨takes.admitted, takes.running.configured⟩,
      fun given named => ⟨(welcome given named).1, takes.running.configured⟩, takes.listed, ?_⟩, left⟩
    refine run_bind_ok.mpr ⟨(), d, charged, run_rejectIf_bind_ok.mpr ⟨?_, ?_⟩⟩
    · rintro (rfl | rfl)
      · exact (welcome source rfl).2.1 rfl
      · exact (welcome target rfl).2.2 rfl
    refine requireAuth_bind_ok.mpr ⟨takes.authorized, run_bind_ok.mpr ⟨(), t, consumed, ?_⟩⟩
    refine run_bind_ok.mpr ⟨(), p, pulled, charged_quotes.mpr ⟨feeBps, fee, net, quoted, ?_⟩⟩
    exact run_bind_ok.mpr ⟨(), q, delivered, run_bind_ok.mpr ⟨protocolFee, r, shared, ran⟩⟩

/-- When nothing is to be shared, a funding with a referral that passes the checks of the referrer
does what the single funding does and counts the deposit. -/
theorem fundCAddressWithReferral_unshared {env : Env} {source target asset : Address}
    {amount : I128} {referrer : Option Address} {nonce deadline : Option UInt64} {w w' : World}
    {u : Unit} (unshared : ∀ feeBps fee net, w.Quotes source asset amount feeBps fee net →
      w.referralShare fee.val referrer = 0) :
    (fundCAddressWithReferral env source target asset amount referrer nonce deadline).run w
        = .ok (u, w') ↔
      (∀ given ∈ referrer, w.admits given = true ∧ given ≠ source ∧ given ≠ target) ∧
      ∃ deposit w'', safeAdd (w.userDeposit source asset) amount = .ok deposit ∧
        (fundCAddress env source target asset amount nonce deadline).run w = .ok (u, w'') ∧
        w' = w''.put (.userDeposit source asset) deposit := by
  rw [fundCAddressWithReferral_ok_iff]
  have aside (deposit : I128) : Unnoticed fun w : World =>
      w.put (.userDeposit source asset) deposit :=
    @write_unnoticed (.userDeposit source asset) rfl (some deposit)
  have concludes (deposit fee net : I128) : Commutes
      (fun w : World => w.put (.userDeposit source asset) deposit)
      (conclude env source target asset amount fee net) :=
    conclude_commutes (aside deposit) (fun w => by simp) _ _ _ _ _ _ _
  constructor
  · rintro ⟨takes, welcome, t, feeBps, fee, net, p, q, protocolFee, r, mid, claims, quoted, pulled,
      delivered, shared, ran, rfl⟩
    have kept := claims.store pulled delivered
    have nothing : q.referralShare fee.val referrer = 0 := by
      rw [World.referralShare, kept _ rfl]
      exact unshared feeBps fee net quoted
    rw [payReferral_unshared (quoted.fee_nonneg takes.positive.le) nothing] at shared
    obtain ⟨rfl, rfl⟩ := Prod.mk.inj (Except.ok.inj shared)
    obtain ⟨_, s, deposited, ran⟩ := run_bind_ok.mp ran
    obtain ⟨deposit, adds, rfl⟩ := incrementUserDeposit_ok.mp deposited
    obtain ⟨mid, concluded, rfl⟩ := (concludes deposit fee net).ok_iff.mp ran
    rw [World.userDeposit, kept _ rfl] at adds
    refine ⟨welcome, deposit, mid.erase .entered, adds, ?_, (aside deposit).erase _ _ rfl⟩
    exact fundCAddress_ok_iff.mpr ⟨takes, t, feeBps, fee, net, p, q, mid, claims, quoted, pulled,
      delivered, concluded, rfl⟩
  · rintro ⟨welcome, deposit, w'', adds, ran, rfl⟩
    obtain ⟨takes, t, feeBps, fee, net, p, q, mid, claims, quoted, pulled, delivered, concluded,
      rfl⟩ := fundCAddress_ok_iff.mp ran
    have kept := claims.store pulled delivered
    have nothing : q.referralShare fee.val referrer = 0 := by
      rw [World.referralShare, kept _ rfl]
      exact unshared feeBps fee net quoted
    have shared : (payReferral env source asset fee referrer).run q = .ok (fee, q) :=
      payReferral_unshared (quoted.fee_nonneg takes.positive.le) nothing
    refine ⟨takes, welcome, t, feeBps, fee, net, p, q, fee, q, mid.put (.userDeposit source asset)
      deposit, claims, quoted, pulled, delivered, shared, ?_, ((aside deposit).erase _ _ rfl).symm⟩
    refine run_bind_ok.mpr ⟨(), q.put (.userDeposit source asset) deposit, ?_, ?_⟩
    · refine incrementUserDeposit_ok.mpr ⟨deposit, ?_, rfl⟩
      rw [World.userDeposit, kept _ rfl]
      exact adds
    · exact (concludes deposit fee net).ok concluded

/-! ## The two fundings compared -/

/-- The totals, the usages and the volumes of two worlds are the same. -/
structure SameRecords (w w' : World) : Prop where
  fees : ∀ asset, (w.counters asset).totalFeesCollected = (w'.counters asset).totalFeesCollected
  bridged : ∀ asset, (w.counters asset).totalBridged = (w'.counters asset).totalBridged
  usages : ∀ source asset day, w.dailyUsage source asset day = w'.dailyUsage source asset day
  volumes : ∀ source asset, w.sourceBridgedVolume source asset = w'.sourceBridgedVolume source asset

/-- Two worlds that come from one by the same charge, the same volume and the same counts have the
same records. -/
theorem SameRecords.of_steps {env : Env} {source asset : Address} {amount : Int} {charge : Charge}
    {w w' w'' : World} (charged : Charged env charge w w') (charged' : Charged env charge w w'')
    (grown : Bridged source asset amount w w') (grown' : Bridged source asset amount w w'')
    (elsewhere : ∀ other, other ≠ asset → w'.counters other = w''.counters other)
    (fees : (w'.counters asset).totalFeesCollected = (w''.counters asset).totalFeesCollected)
    (bridged : (w'.counters asset).totalBridged = (w''.counters asset).totalBridged) :
    SameRecords w' w'' where
  fees other := by
    by_cases same : other = asset
    · exact same ▸ fees
    · rw [elsewhere other same]
  bridged other := by
    by_cases same : other = asset
    · exact same ▸ bridged
    · rw [elsewhere other same]
  usages source' asset' day := (charged.usage ..).trans (charged'.usage ..).symm
  volumes source' asset' := BoundedInt.ext ((grown ..).trans (grown' ..).symm)

/-- The counters of an asset whose entry is not written stay as they are. -/
theorem execute_elsewhere {env : Env} {request : Request} {reply : Reply} {w w' : World}
    {other : Address} (unwritten : .assetStats other ∉ request.writes)
    (ran : (execute env request).run w = .ok (reply, w')) : w'.counters other = w.counters other := by
  rw [World.counters, World.counters, (execute_frame env request ran).store _ unwritten]

/-- A referrer that is neither the source nor the target nor the bridge receives its share. -/
theorem Fulfils.referred {env : Env} {source target asset : Address} {amount fee net share : I128}
    {given : Address} {w w' : World}
    (fulfils : Fulfils env source target asset (.transfer asset source env.self amount) fee net
      (some given) share w w') (nonneg : 0 ≤ share.val) (notSource : given ≠ source)
    (notTarget : given ≠ target) (notBridge : given ≠ env.self) :
    deltas asset given w'.invocations = share.val := by
  have pulled : TokenCall.delta asset given (.transfer asset source env.self amount) = 0 := by
    simp [TokenCall.delta, notSource, notBridge]
  rw [fulfils.calls, Option.elim_some, deltas_cons, deltas_append, deltas_append, pulled,
    deltas_payoutCalls fulfils.parts.2 notBridge, if_neg notTarget,
    deltas_payoutCalls nonneg notBridge, if_pos rfl, deltas_rewardCalls notBridge notSource]
  omega

/-- A funding with a referral pays the referrer its proportion of the fee, accrues the rest, and
delivers and records what the single funding would. When nothing is to be shared it succeeds
exactly when the single funding does, the referrer is welcome and the counter of deposits has
room, and leaves what the single funding leaves but for that counter. -/
theorem referral_split {host : Host} {w : World} (reachable : Reachable host w) {env : Env}
    (deployed : env.host = host) (source target asset : Address) (amount : I128)
    (referrer : Option Address) (nonce deadline : Option UInt64) :
    (∀ reply w', (execute env (.fundCAddressWithReferral source target asset amount referrer nonce
        deadline)).run w.begin = .ok (reply, w') →
      ∃ feeBps fee net share, w.Quotes source asset amount feeBps fee net ∧
        share.val = w.referralShare fee.val referrer ∧ 0 ≤ share.val ∧ share.val ≤ fee.val ∧
        Fulfils env source target asset (.transfer asset source env.self amount) fee net referrer
          share w w' ∧
        (∀ given ∈ referrer, given ≠ env.self → (w'.tokens.balance asset given).val =
          (w.tokens.balance asset given).val + share.val) ∧
        Charged env ⟨source, asset, amount.val⟩ w w' ∧ Bridged source asset amount.val w w' ∧
        ∀ reply' w'', (execute env (.fundCAddress source target asset amount nonce deadline)).run
            w.begin = .ok (reply', w'') →
          Fulfils env source target asset (.transfer asset source env.self amount) fee net none 0 w
            w'' ∧ SameRecords w' w'') ∧
    ((∀ feeBps fee net, w.Quotes source asset amount feeBps fee net →
        w.referralShare fee.val referrer = 0) →
      ∀ reply w', (execute env (.fundCAddressWithReferral source target asset amount referrer nonce
          deadline)).run w.begin = .ok (reply, w') ↔
        (∀ given ∈ referrer, w.admits given = true ∧ given ≠ source ∧ given ≠ target) ∧
        ∃ deposit w'', safeAdd (w.userDeposit source asset) amount = .ok deposit ∧
          (execute env (.fundCAddress source target asset amount nonce deadline)).run w.begin =
            .ok (reply, w'') ∧
          w' = w''.put (.userDeposit source asset) deposit) := by
  subst deployed
  have sound : w.begin.Sound env.self := reachable.sound.of_store rfl
  have rate : w.begin.ReferralBounded := reachable.referralBounded
  constructor
  · intro reply w' ran
    have charged := execute_charged rfl ran
    obtain ⟨calls, made, moved⟩ := execute_balances env rfl ran
    have elsewhere : ∀ other, other ≠ asset → w'.counters other = w.begin.counters other :=
      fun other different => execute_elsewhere (by simp [Request.writes, dailyUsages, different]) ran
    obtain ⟨_, ran, -⟩ := replying_ok.mp ran
    have grown := fundCAddressWithReferral_bridges _ _ _ _ _ _ _ _ ran
    obtain ⟨feeBps, fee, net, share, quotes, proportion, nonneg, within, others, fulfils⟩ :=
      fundCAddressWithReferral_fulfils sound.fees rfl rfl rate ran
    refine ⟨feeBps, fee, net, share, ⟨quotes.rate, quotes.charged, quotes.rest⟩, proportion, nonneg,
      within, ⟨fulfils.parts, fulfils.fees, fulfils.bridged, fulfils.accrued, fulfils.calls⟩, ?_,
      ⟨charged.usage, charged.within⟩, grown, ?_⟩
    · rintro given named notBridge
      obtain rfl := Option.mem_def.mp named
      have received := fulfils.referred nonneg (others given rfl).1 (others given rfl).2 notBridge
      rw [made] at received
      rw [moved]
      exact congrArg _ received
    · intro reply' w'' single
      have charged' := execute_charged rfl single
      have elsewhere' : ∀ other, other ≠ asset → w''.counters other = w.begin.counters other :=
        fun other different => execute_elsewhere (by simp [Request.writes, dailyUsages, different])
          single
      obtain ⟨_, single, -⟩ := replying_ok.mp single
      have grown' := fundCAddress_bridges _ _ _ _ _ _ _ single
      obtain ⟨feeBps', fee', net', quotes', fulfils'⟩ :=
        fundCAddress_fulfils sound.fees rfl rfl single
      obtain ⟨-, rfl, rfl⟩ := quotes.unique quotes'
      refine ⟨⟨fulfils'.parts, fulfils'.fees, fulfils'.bridged, fulfils'.accrued, fulfils'.calls⟩,
        .of_steps charged charged' grown grown'
          (fun other different => (elsewhere other different).trans (elsewhere' other different).symm)
          ?_ ?_⟩
      · exact BoundedInt.ext (fulfils.fees.trans fulfils'.fees.symm)
      · exact BoundedInt.ext (fulfils.bridged.trans fulfils'.bridged.symm)
  · intro unshared reply w'
    have unshared : ∀ feeBps fee net, w.begin.Quotes source asset amount feeBps fee net →
        w.begin.referralShare fee.val referrer = 0 := fun feeBps fee net quotes =>
      unshared feeBps fee net ⟨quotes.rate, quotes.charged, quotes.rest⟩
    simp only [execute, replying_ok, fundCAddressWithReferral_unshared unshared]
    constructor
    · rintro ⟨u, ⟨welcome, deposit, w'', adds, ran, left⟩, replied⟩
      exact ⟨welcome, deposit, w'', adds, ⟨u, ran, replied⟩, left⟩
    · rintro ⟨welcome, deposit, w'', adds, ⟨u, ran, replied⟩, left⟩
      exact ⟨u, ⟨welcome, deposit, w'', adds, ran, left⟩, replied⟩

/-- At a rate of a half the referrer receives 5 of the fee of 10. -/
theorem referral_split_rehearsed :
    let w := Rehearsal.outcome (Rehearsal.opening ++ [(0, .setReferralRate 5000 none)])
    let call := attempt (Rehearsal.env 0) (.fundCAddressWithReferral (Rehearsal.address 4)
      (Rehearsal.address 5) (Rehearsal.address 3) (Rehearsal.amount 1000)
      (some (Rehearsal.address 6)) none none) w
    (call.after.tokens.balance (Rehearsal.address 3) (Rehearsal.address 6)).val =
      (w.tokens.balance (Rehearsal.address 3) (Rehearsal.address 6)).val + 5 := by
  intro w call
  have reachable := Rehearsal.reachable (Rehearsal.opening ++ [(0, .setReferralRate 5000 none)])
    (by decide +kernel)
  have deployed : (Rehearsal.env 0).host = Rehearsal.host := rfl
  have split := (referral_split reachable deployed (Rehearsal.address 4)
    (Rehearsal.address 5) (Rehearsal.address 3) (Rehearsal.amount 1000)
    (some (Rehearsal.address 6)) none none).1
  have success : succeeds (Rehearsal.env 0) (.fundCAddressWithReferral (Rehearsal.address 4)
      (Rehearsal.address 5) (Rehearsal.address 3) (Rehearsal.amount 1000)
      (some (Rehearsal.address 6)) none none) w = true := by decide +kernel
  have ran := attempt_ran success
  obtain ⟨sameEnv, sameRequest, sameWorld⟩ := attempt_call (Rehearsal.env 0) _ w
  rw [sameEnv, sameRequest, sameWorld] at ran
  obtain ⟨feeBps, fee, net, share, quotes, proportion, -, -, -, received, -⟩ := split _ _ ran
  have quoted : w.Quotes (Rehearsal.address 4) (Rehearsal.address 3) (Rehearsal.amount 1000) 100
      (Rehearsal.amount 10) (Rehearsal.amount 990) :=
    ⟨⟨_, rfl, by decide +kernel⟩, by decide +kernel, by decide +kernel⟩
  obtain ⟨-, rfl, -⟩ := quotes.unique quoted
  have five : share.val = 5 := proportion.trans (by decide +kernel)
  rw [← five]
  exact received _ rfl (by decide)

/-- A source that names itself as its referrer is turned down, though nothing is to be shared and
the single funding goes through. -/
theorem referral_turned_down : ∃ (host : Host) (w : World) (env : Env)
    (source target asset referrer : Address) (amount : I128), Reachable host w ∧ env.host = host ∧
      (∀ feeBps fee net, w.Quotes source asset amount feeBps fee net →
        w.referralShare fee.val (some referrer) = 0) ∧
      succeeds env (.fundCAddress source target asset amount none none) w = true ∧
      succeeds env (.fundCAddressWithReferral source target asset amount (some referrer) none none)
        w = false := by
  refine ⟨Rehearsal.host, Rehearsal.outcome Rehearsal.opening, Rehearsal.env 0, Rehearsal.address 4,
    Rehearsal.address 5, Rehearsal.address 3, Rehearsal.address 4, Rehearsal.amount 1000,
    Rehearsal.reachable Rehearsal.opening (by decide +kernel), rfl, fun feeBps fee net _ => ?_,
    by decide +kernel, by decide +kernel⟩
  have unrated : (Rehearsal.outcome Rehearsal.opening).store .referralRate = none := by
    decide +kernel
  rw [World.referralShare, unrated]
  simp [feeAt]

end OnboardingBridge.Contract
