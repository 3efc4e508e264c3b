import OnboardingBridge.Contract.BatchErrors
import OnboardingBridge.Contract.FundingGates

/-!
# A batch does what single calls do

Without tiers and rewards a batch that succeeds leaves the balances, counters, usage and volumes
that the calls of `fund_c_address` for its delivered entries leave one after the other
(`batch_refines_singles`). The single calls trail the loop of the batch (`Trails`): whatever the
batch has taken from the source and not delivered yet is still with the source.
-/

set_option autoImplicit false

namespace OnboardingBridge.Contract

open Foundations Foundations.Tx

/-! ## Payments -/

section Payments

variable {env : Env} {tokens paid : TokenLedger} {asset dst : Address} {amount : I128}

theorem transfer_ok_iff {src : Address} {w w' : World} {u : Unit} :
    (transfer env asset src dst amount).run w = .ok (u, w') ↔
      ¬ (src ≠ env.self ∧ env.authorizesTransfer src = false) ∧
        env.refuses (.transfer asset src dst amount) = false ∧
        ∃ moved, w.tokens.move asset src dst amount = some moved ∧
          w' = w.settle moved (.transfer asset src dst amount) := by
  simp only [transfer, run_rejectIf_bind_ok, run_read_bind, run_ofOption_bind_ok, run_modify_ok,
    Bool.not_eq_true]

theorem TokenLedger.PaysOut.balances (pays : tokens.PaysOut env asset dst amount paid)
    (asset' holder : Address) :
    (paid.balance asset' holder).val = (tokens.balance asset' holder).val
      + (if asset' = asset ∧ holder = dst then max 0 amount.val else 0)
      - (if asset' = asset ∧ holder = env.self then max 0 amount.val else 0) := by
  rw [PaysOut] at pays
  split at pays
  · next positive =>
    rw [max_eq_right positive.le]
    exact (TokenLedger.move_eq_some pays.2).2.2.2 asset' holder
  · next nothing =>
    simp [pays, max_eq_left (not_lt.mp nothing)]

/-- The bridge pays what it holds to a holder that has room for it. -/
theorem TokenLedger.exists_paysOut
    (accepted : 0 < amount.val → env.refuses (.transfer asset env.self dst amount) = false)
    (covered : amount.val ≤ (tokens.balance asset env.self).val)
    (room : env.self ≠ dst → (tokens.balance asset dst).val + amount.val ≤ I128.maxValue) :
    ∃ paid, tokens.PaysOut env asset dst amount paid := by
  by_cases positive : 0 < amount.val
  · obtain ⟨moved, moves⟩ : ∃ moved, tokens.move asset env.self dst amount = some moved :=
      TokenLedger.exists_move positive.le covered room
    refine ⟨moved, ?_⟩
    rw [PaysOut, if_pos positive]
    exact ⟨accepted positive, moves⟩
  · refine ⟨tokens, ?_⟩
    rw [PaysOut, if_neg positive]

end Payments

/-! ## Single calls -/

namespace BatchCall

variable (call : BatchCall) (env : Env)

/-- The call that funds one entry. -/
def single (entry : Address × I128) : Request :=
  .fundCAddress call.source entry.1 call.asset entry.2 none call.deadline

/-- The keys that a batch or a single call writes. -/
def keys : Set DataKey :=
  {.entered, .assetStats call.asset, .dailyUsage call.source call.asset (currentDay env),
    .sourceBridgedVolume call.source call.asset}

/-- The part of an amount that counts towards a limit. -/
def counted (w : World) (amount : Int) : Int :=
  if (w.sourceDailyLimit call.source call.asset).val = 0 then 0 else amount

end BatchCall

/-- What a single call of an amount does to the storage. -/
structure Funds (env : Env) (call : BatchCall) (amount : I128) (counters : AssetCounters)
    (v v' : World) : Prop where
  unwritten : ∀ key ∉ call.keys env, v'.store key = v.store key
  idle : v'.store .entered = none
  counters : v'.counters call.asset = counters
  volume : (v'.sourceBridgedVolume call.source call.asset).val =
    (v.sourceBridgedVolume call.source call.asset).val + amount.val
  usage : v'.dailyUsage call.source call.asset (currentDay env) =
    v.dailyUsage call.source call.asset (currentDay env) + call.counted v amount.val

/-- A charge within the limit is made. -/
theorem checkDailyLimit_run {env : Env} {source asset : Address} {amount : I128} {w : World}
    (nonneg : 0 ≤ amount.val)
    (limit : (w.sourceDailyLimit source asset).val ≠ 0 →
      w.dailyUsage source asset (currentDay env) + amount.val ≤
        (w.sourceDailyLimit source asset).val) :
    ∃ d, (checkDailyLimit env source asset amount).run w = .ok ((), d) ∧
      Frame {.dailyUsage source asset (currentDay env)} False w d := by
  have decided := checkDailyLimit_decided env source asset nonneg w
  have upper : (w.sourceDailyLimit source asset).val ≤ I128.maxValue := BoundedInt.upper _
  have passed : ∀ check ∈ [undocumented ((w.sourceDailyLimit source asset).val ≠ 0 ∧
        I128.maxValue < w.dailyUsage source asset (currentDay env) + amount.val),
      documented ((w.sourceDailyLimit source asset).val ≠ 0 ∧
        (w.sourceDailyLimit source asset).val <
          w.dailyUsage source asset (currentDay env) + amount.val) .dailyLimitExceeded],
      check.fails = false := by
    simp only [documented, undocumented, List.forall_mem_cons, decide_eq_false_iff_not, not_and,
      not_lt, List.not_mem_nil, false_imp_iff, implies_true, and_true]
    exact ⟨fun limited => (limit limited).trans upper, limit⟩
  obtain ⟨_, d, ran, frame⟩ := decided.passes passed
  exact ⟨d, ran, frame⟩

section Single

variable {env : Env} {call : BatchCall} {target : Address} {amount fee net : I128}
  {feeBps : UInt32} {v : World} {pulled paid : TokenLedger}
  {accruedFees totalBridged totalFeesCollected updated : I128}

/-- A single call that is admitted, within the limit and payable goes through. -/
theorem single_runs (takes : v.Takes env call.source target call.asset amount call.deadline)
    (unrewarded : v.loyaltyReward = none)
    (quotes : v.Quotes call.source call.asset amount feeBps fee net)
    (limit : call.Limited v → v.dailyUsage call.source call.asset (currentDay env) + amount.val ≤
      (v.sourceDailyLimit call.source call.asset).val)
    (authorized : env.authorizesTransfer call.source = true)
    (accepted : env.refuses (.transfer call.asset call.source env.self amount) = false)
    (pulls : v.tokens.move call.asset call.source env.self amount = some pulled)
    (pays : pulled.PaysOut env call.asset target net paid)
    (accrued : accruedFees.val = (v.counters call.asset).accruedFees.val + fee.val)
    (bridged : totalBridged.val = (v.counters call.asset).totalBridged.val + net.val)
    (collected : totalFeesCollected.val = (v.counters call.asset).totalFeesCollected.val + fee.val)
    (volume : updated.val = (v.sourceBridgedVolume call.source call.asset).val + amount.val) :
    ∃ v', (fundCAddress env call.source target call.asset amount none call.deadline).run v =
        .ok ((), v') ∧ v'.tokens = paid ∧
      Funds env call amount { v.counters call.asset with
        accruedFees, totalBridged, totalFeesCollected } v v' := by
  have entered {key : DataKey} (other : key ≠ .entered) :
      (v.put .entered true).store key = v.store key := KeyedStore.set_of_ne v.store other true
  have used : (v.put .entered true).dailyUsage call.source call.asset (currentDay env) =
      v.dailyUsage call.source call.asset (currentDay env) := by
    rw [World.dailyUsage, World.dailyUsage, entered (by simp)]
  have limited : (v.put .entered true).sourceDailyLimit call.source call.asset =
      v.sourceDailyLimit call.source call.asset := by
    rw [World.sourceDailyLimit, World.sourceDailyLimit, entered (by simp)]
  obtain ⟨d, charged, frame⟩ : ∃ d, (checkDailyLimit env call.source call.asset amount).run
      (v.put .entered true) = .ok ((), d) ∧ Frame _ _ (v.put .entered true) d := by
    refine checkDailyLimit_run takes.positive.le ?_
    rw [used, limited]
    exact limit
  have usage := (checkDailyLimit_charges env call.source call.asset amount charged).usage
    call.source call.asset (currentDay env)
  have tokens : d.tokens = v.tokens := frame.tokens not_false
  obtain ⟨p, hp⟩ : ∃ p, p = d.settle pulled (.transfer call.asset call.source env.self amount) :=
    ⟨_, rfl⟩
  have pulling : (transfer env call.asset call.source env.self amount).run d = .ok ((), p) :=
    transfer_ok_iff.mpr ⟨by simp [authorized], accepted, pulled, tokens ▸ pulls, hp⟩
  have held : p.tokens = pulled := hp ▸ rfl
  obtain ⟨q, paying, store, left⟩ : ∃ q, (onlyIf (0 < net.val)
      (transfer env call.asset env.self target net)).run p = .ok ((), q) ∧ q.store = p.store ∧
      q.tokens = paid := TokenLedger.PaysOut.made (held ▸ pays)
  have stored : q.store = d.store := store.trans (hp ▸ rfl)
  have reads {key : DataKey} (idle : key ≠ .entered)
      (other : key ≠ .dailyUsage call.source call.asset (currentDay env)) :
      q.store key = v.store key := by
    rw [stored, frame.store key other, entered idle]
  have counters : q.counters call.asset = v.counters call.asset := by
    rw [World.counters, World.counters, reads (by simp) (by simp)]
  have bridgedVolume : q.sourceBridgedVolume call.source call.asset =
      v.sourceBridgedVolume call.source call.asset := by
    rw [World.sourceBridgedVolume, World.sourceBridgedVolume, reads (by simp) (by simp)]
  have nothing : q.loyaltyReward = none := by
    rw [← unrewarded]
    unfold World.loyaltyReward World.loyaltyAmountPerFund
    rw [reads (by simp) (by simp), reads (by simp) (by simp)]
  obtain ⟨record, hrecord⟩ : ∃ record : AssetCounters, record = { v.counters call.asset with
    accruedFees, totalBridged, totalFeesCollected } := ⟨_, rfl⟩
  have updating : (updateAssetCounters call.asset fee net).run q =
      .ok ((), q.put (.assetStats call.asset) record) := by
    rw [updateAssetCounters]
    refine updateAssetCountersSplit_ok.mpr ⟨accruedFees, totalBridged, totalFeesCollected, ?_⟩
    rw [counters, hrecord]
    exact ⟨accrued, bridged, collected, rfl⟩
  obtain ⟨r, hr⟩ : ∃ r, r = (q.put (.assetStats call.asset) record).put
    (.sourceBridgedVolume call.source call.asset) updated := ⟨_, rfl⟩
  have counting : (incrementSourceBridgedVolume call.source call.asset amount).run
      (q.put (.assetStats call.asset) record) = .ok ((), r) := by
    have same : (q.put (.assetStats call.asset) record).sourceBridgedVolume call.source call.asset =
        q.sourceBridgedVolume call.source call.asset := by
      simp [World.sourceBridgedVolume]
    rw [incrementSourceBridgedVolume, run_read_bind, same, bridgedVolume, safeAdd_ok.mpr volume, hr]
    rfl
  have rewarding : (mintLoyaltyTokens env call.source).run r = .ok ((), r) := by
    have same : r.loyaltyReward = q.loyaltyReward := by
      have token : r.store .loyaltyToken = q.store .loyaltyToken := by simp [hr]
      have perFund : r.store .loyaltyAmountPerFund = q.store .loyaltyAmountPerFund := by simp [hr]
      unfold World.loyaltyReward World.loyaltyAmountPerFund
      rw [token, perFund]
    rw [mintLoyaltyTokens_run, same, nothing]
  have concluding : (conclude env call.source target call.asset amount fee net).run q =
      .ok ((), r.emit (.cAddressFunded call.asset call.source target amount fee)) := by
    rw [conclude, run_bind_of_ok updating, run_bind_of_ok counting, run_bind_of_ok rewarding]
    rfl
  refine ⟨_, fundCAddress_ok_iff.mpr ⟨takes, d, feeBps, fee, net, p, q, _, ⟨d, charged, rfl⟩,
    quotes, pulling, paying, concluding, rfl⟩, ?_, ?_⟩
  · rw [World.erase_tokens, World.emit_tokens, hr]
    exact left
  · refine ⟨fun key outside => ?_, by simp, ?_, ?_, ?_⟩
    · simp only [BatchCall.keys, Set.mem_insert_iff, Set.mem_singleton_iff, not_or] at outside
      obtain ⟨idle, stats, usage, volume⟩ := outside
      simp [hr, idle, stats, volume, reads idle usage]
    · simp [hr, World.counters, hrecord]
    · simp [hr, World.sourceBridgedVolume, volume]
    · have kept : (r.emit (.cAddressFunded call.asset call.source target amount fee)).store
          (.dailyUsage call.source call.asset (currentDay env)) =
          d.store (.dailyUsage call.source call.asset (currentDay env)) := by
        simp [hr, stored]
      rw [used, limited] at usage
      rw [World.dailyUsage, World.erase_store, KeyedStore.remove_of_ne _ (by simp), kept]
      refine usage.trans ?_
      simp [BatchCall.counted, Charge.part]

end Single

/-! ## The worlds of both runs -/

/-- What neither a batch nor its single calls write is as it was. -/
def BatchCall.Unwritten (call : BatchCall) (env : Env) (w v : World) : Prop :=
  ∀ key ∉ call.keys env, v.store key = w.store key

/-- What a successful batch has looked at before its loop, at a rate that no tier changes. -/
structure BatchCall.Checked (call : BatchCall) (env : Env) (feeBps : UInt32) (w : World) :
    Prop where
  initialized : w.initialized = true
  running : w.running
  inTime : ¬ expired env call.deadline
  enough : ∀ entry ∈ call.entries, ¬ belowMinimum entry.2 w.minimumAmount
  listed : w.isAssetWhitelisted call.asset = true
  authorized : env.authorizes call.source = true
  authorizedTransfer : env.authorizesTransfer call.source = true
  limit : (w.sourceDailyLimit call.source call.asset).val ≠ 0 →
    w.dailyUsage call.source call.asset (currentDay env) +
        deliveredAmounts w.admits call.entries ≤
      (w.sourceDailyLimit call.source call.asset).val
  rate : ∃ config, w.bridgeConfig? = some config ∧
    feeBps = w.effectiveFeeBps call.asset config.feeBps
  untiered : w.feeTiers = []
  unrewarded : w.loyaltyReward = none

namespace BatchCall.Unwritten

variable {call : BatchCall} {env : Env} {w v : World} (same : call.Unwritten env w v)
include same

theorem agrees : v.AgreesWith w := by
  intro key outside
  refine same key fun inside => outside ?_
  rcases inside with rfl | rfl | rfl | rfl <;> simp

theorem bridgeConfig? : v.bridgeConfig? = w.bridgeConfig? := by
  have agrees := same.agrees
  unfold World.bridgeConfig?
  rw [agrees _ (by simp), agrees _ (by simp), agrees _ (by simp), agrees _ (by simp)]

theorem limit : v.sourceDailyLimit call.source call.asset =
    w.sourceDailyLimit call.source call.asset := by
  rw [World.sourceDailyLimit, World.sourceDailyLimit, same.agrees _ (by simp)]

/-- A single call is let in where the batch was. -/
theorem takes {feeBps : UInt32} (checked : call.Checked env feeBps w)
    (idle : (v.store .entered).getD false = false) {entry : Address × I128}
    (listed : entry ∈ call.entries) (admitted : w.admits entry.1 = true) :
    v.Takes env call.source entry.1 call.asset entry.2 call.deadline where
  idle := idle
  initialized := by
    rw [World.initialized, World.has, same.agrees _ (by simp)]
    exact checked.initialized
  running := by
    rw [World.running, World.deactivated, World.has, same.agrees _ (by simp), same.bridgeConfig?]
    exact checked.running
  inTime := checked.inTime
  enough := by
    rw [World.minimumAmount, same.agrees _ (by simp)]
    exact checked.enough entry listed
  admitted := (same.agrees.admits entry.1).trans admitted
  listed := by
    rw [World.isAssetWhitelisted, same.agrees _ (by simp)]
    exact checked.listed
  authorized := checked.authorized

/-- A single call is charged as the batch charges its entry. -/
theorem quotes {feeBps : UInt32} (checked : call.Checked env feeBps w) {amount fee net : I128}
    (charged : calculateFee amount feeBps = .ok fee) (rest : net.val = amount.val - fee.val) :
    v.Quotes call.source call.asset amount feeBps fee net := by
  obtain ⟨config, found, rate⟩ := checked.rate
  refine ⟨⟨config, same.bridgeConfig?.trans found, ?_⟩, charged, rest⟩
  have untiered : v.feeTiers = [] := by
    rw [World.feeTiers, same.agrees _ (by simp)]
    exact checked.untiered
  rw [rate, World.tieredFeeBps, World.currentTier, untiered, World.effectiveFeeBps,
    World.effectiveFeeBps, World.assetFeeCap, World.assetFeeCap, same.agrees _ (by simp)]
  rfl

end BatchCall.Unwritten

/-! ## The loop -/

/-- What comes back to the source from entries that have it as their target. -/
def returned (accepts : Address → Bool) (source : Address) (feeBps : UInt32)
    (entries : List (Address × I128)) : Int :=
  ((entries.filter fun entry => accepts entry.1 && decide (entry.1 = source)).map fun entry =>
    max 0 (entry.2.val - feeAt entry.2.val feeBps.toNat)).sum

/-- One turn of the loop. -/
theorem deliverBatch_cons_ok {env : Env} {source asset : Address} {feeBps : UInt32}
    {progress result : BatchProgress} {target : Address} {amount : I128}
    {rest : List (Address × I128)} {s s' : World}
    (ran : (deliverBatch env source asset feeBps progress ((target, amount) :: rest)).run s =
      .ok (result, s')) :
    (s.admits target = false ∧ ∃ progress' event,
      progress'.refundTotal.val = progress.refundTotal.val + amount.val ∧
      (deliverBatch env source asset feeBps progress' rest).run (s.emit event) = .ok (result, s')) ∨
    (s.admits target = true ∧ ∃ fee net p counters progress' event,
      calculateFee amount feeBps = .ok fee ∧ net.val = amount.val - fee.val ∧
      (onlyIf (0 < net.val) (transfer env asset env.self target net)).run s = .ok ((), p) ∧
      (updateAssetCounters asset fee net).run p = .ok ((), p.put (.assetStats asset) counters) ∧
      progress'.refundTotal = progress.refundTotal ∧
      (deliverBatch env source asset feeBps progress' rest).run
        ((p.put (.assetStats asset) counters).emit event) = .ok (result, s')) := by
  rw [deliverBatch] at ran
  obtain ⟨error, _, looked, ran⟩ := run_bind_ok.mp ran
  obtain ⟨admitted, -, rfl⟩ := accessError_ok looked
  cases error with
  | some reason =>
      refine .inl ⟨by simpa using admitted, ?_⟩
      rw [Option.isSome_some, if_pos rfl] at ran
      obtain ⟨failures, _, incremented, ran⟩ := run_bind_ok.mp ran
      rw [(incrementU32_ok incremented).2] at ran
      obtain ⟨refundTotal, added, ran⟩ := run_ofExcept_bind_ok.mp ran
      exact ⟨_, _, safeAdd_ok.mp added, ran⟩
  | none =>
      refine .inr ⟨admitted.mp rfl, ?_⟩
      rw [Option.isSome_none, if_neg Bool.false_ne_true] at ran
      obtain ⟨fee, charged, ran⟩ := run_ofExcept_bind_ok.mp ran
      obtain ⟨net, left, ran⟩ := run_ofExcept_bind_ok.mp ran
      obtain ⟨_, p, paid, ran⟩ := run_bind_ok.mp ran
      obtain ⟨_, u, updated, ran⟩ := run_bind_ok.mp ran
      obtain ⟨successes, _, incremented, ran⟩ := run_bind_ok.mp ran
      rw [(incrementU32_ok incremented).2] at ran
      obtain ⟨counters, rfl⟩ : ∃ counters : AssetCounters,
          u = p.put (.assetStats asset) counters := by
        obtain ⟨_, _, _, -, -, -, same⟩ := updateAssetCountersSplit_ok.mp updated
        exact ⟨_, same⟩
      exact ⟨fee, net, p, counters, { progress with successes }, _, charged, safeSub_ok.mp left,
        paid, updated, rfl, ran⟩

/-- The single calls have funded the entries that the loop of the batch has delivered. What the
batch holds for the entries to come and for the refund is still with the source. -/
structure Trails (env : Env) (call : BatchCall) (feeBps : UInt32) (w : World) (owed : Int)
    (rest : List (Address × I128)) (s v : World) : Prop where
  loop : call.Unwritten env w s
  singles : call.Unwritten env w v
  idle : (v.store .entered).getD false = false
  counters : v.counters call.asset = s.counters call.asset
  balances : ∀ asset holder, (v.tokens.balance asset holder).val =
    (s.tokens.balance asset holder).val
      + (if asset = call.asset ∧ holder = call.source then owed else 0)
      - (if asset = call.asset ∧ holder = env.self then owed else 0)
  covered : 0 ≤ (s.tokens.balance call.asset call.source).val
  held : 0 ≤ (v.tokens.balance call.asset env.self).val
  volume : (v.sourceBridgedVolume call.source call.asset).val + deliveredAmounts w.admits rest =
    (w.sourceBridgedVolume call.source call.asset).val + deliveredAmounts w.admits call.entries
  usage : v.dailyUsage call.source call.asset (currentDay env)
      + call.counted w (deliveredAmounts w.admits rest) =
    w.dailyUsage call.source call.asset (currentDay env)
      + call.counted w (deliveredAmounts w.admits call.entries)
  debited : (v.tokens.balance call.asset call.source).val - deliveredAmounts w.admits rest
      + returned w.admits call.source feeBps rest =
    (w.tokens.balance call.asset call.source).val - deliveredAmounts w.admits call.entries
      + returned w.admits call.source feeBps call.entries

section Returned

variable {accepts : Address → Bool} {source : Address} {feeBps : UInt32} {entry : Address × I128}
  {rest : List (Address × I128)}

theorem returned_refused (refused : accepts entry.1 = false) :
    returned accepts source feeBps (entry :: rest) = returned accepts source feeBps rest := by
  simp [returned, refused]

theorem returned_accepted (accepted : accepts entry.1 = true) :
    returned accepts source feeBps (entry :: rest) =
      (if entry.1 = source then max 0 (entry.2.val - feeAt entry.2.val feeBps.toNat) else 0)
        + returned accepts source feeBps rest := by
  by_cases same : entry.1 = source
  · rw [returned, List.filter_cons_of_pos (by simpa [same] using accepted), List.map_cons,
      List.sum_cons, if_pos same]
    rfl
  · rw [returned, List.filter_cons_of_neg (by simp [same]), if_neg same, zero_add]
    rfl

end Returned

namespace Trails

variable {env : Env} {call : BatchCall} {feeBps : UInt32} {w s v : World} {owed : Int}
  {target : Address} {amount : I128} {rest : List (Address × I128)}

/-- A refused entry stays with the source, to which the batch owes it. -/
theorem refuse (trails : Trails env call feeBps w owed ((target, amount) :: rest) s v)
    (refused : w.admits target = false) (event : Event) :
    Trails env call feeBps w owed rest (s.emit event) v where
  loop := trails.loop
  singles := trails.singles
  idle := trails.idle
  counters := trails.counters
  balances := trails.balances
  covered := trails.covered
  held := trails.held
  volume := by
    rw [← trails.volume, deliveredAmounts_refused refused]
  usage := by
    rw [← trails.usage, deliveredAmounts_refused refused]
  debited := by
    rw [← trails.debited, deliveredAmounts_refused refused, returned_refused refused]

/-- A delivered entry is funded by a single call. -/
theorem deliver (trails : Trails env call feeBps w owed ((target, amount) :: rest) s v)
    (checked : call.Checked env feeBps w)
    (fits : (w.sourceBridgedVolume call.source call.asset).val
      + deliveredAmounts w.admits call.entries ≤ I128.maxValue)
    (listed : (target, amount) ∈ call.entries) (admitted : w.admits target = true)
    (accepted : env.refuses (.transfer call.asset call.source env.self amount) = false)
    (owes : amount.val ≤ owed) (positives : ∀ entry ∈ rest, 0 < entry.2.val) {fee net : I128}
    (charged : calculateFee amount feeBps = .ok fee) (left : net.val = amount.val - fee.val)
    {p : World} (paid : (onlyIf (0 < net.val) (transfer env call.asset env.self target net)).run s =
      .ok ((), p)) {counters : AssetCounters}
    (updated : (updateAssetCounters call.asset fee net).run p =
      .ok ((), p.put (.assetStats call.asset) counters)) (event : Event) :
    ∃ v', (execute env (call.single (target, amount))).run v.begin = .ok (.done, v') ∧
      Trails env call feeBps w (owed - amount.val) rest
        ((p.put (.assetStats call.asset) counters).emit event) v' := by
  have other : call.source ≠ env.self := ne_self_of_authorizes checked.authorized
  have begun : call.Unwritten env w v.begin := trails.singles
  have takes : v.begin.Takes env call.source target call.asset amount call.deadline :=
    begun.takes checked trails.idle listed admitted
  have positive := takes.positive
  have feeVal : fee.val = feeAt amount.val feeBps.toNat :=
    ((calculateFee_charges positive.le).mp charged).2
  have feeNonneg := calculateFee_nonneg positive.le charged
  obtain ⟨store, pays⟩ := payout_leaves paid
  have later : 0 ≤ deliveredAmounts w.admits rest := deliveredAmounts_nonneg positives
  -- the pull
  have source := trails.balances call.asset call.source
  have bridge := trails.balances call.asset env.self
  simp only [and_self, if_true, other, Ne.symm other, and_false, if_false] at source bridge
  have covered := trails.covered
  have held := trails.held
  have bridgeUpper : (s.tokens.balance call.asset env.self).val ≤ I128.maxValue :=
    BoundedInt.upper _
  obtain ⟨pulled, pulls⟩ : ∃ pulled,
      v.begin.tokens.move call.asset call.source env.self amount = some pulled := by
    refine TokenLedger.exists_move positive.le ?_ fun _ => ?_
    · rw [World.begin_tokens]
      omega
    · rw [World.begin_tokens]
      omega
  have pulledBalances := (TokenLedger.move_eq_some pulls).2.2.2
  rw [World.begin_tokens] at pulledBalances
  -- the payout
  obtain ⟨handed, hands⟩ : ∃ handed, pulled.PaysOut env call.asset target net handed := by
    refine TokenLedger.exists_paysOut (fun some => ?_) ?_ fun away => ?_
    · rw [TokenLedger.PaysOut, if_pos some] at pays
      exact pays.1
    · have after := pulledBalances call.asset env.self
      simp only [and_self, if_true, Ne.symm other, and_false, if_false] at after
      omega
    · have mine := pulledBalances call.asset target
      have its := pays.balances call.asset target
      have before := trails.balances call.asset target
      have upper : (p.tokens.balance call.asset target).val ≤ I128.maxValue := BoundedInt.upper _
      have whole : (v.tokens.balance call.asset target).val ≤ I128.maxValue := BoundedInt.upper _
      simp only [true_and, if_true, Ne.symm away, if_false] at mine its before
      split_ifs at mine before <;> omega
  have paidBalances := hands.balances
  -- the records
  obtain ⟨accruedFees, totalBridged, totalFeesCollected, accrued, bridged, collected, same⟩ :=
    updateAssetCountersSplit_ok.mp updated
  have recorded : p.counters call.asset = v.counters call.asset := by
    rw [trails.counters, World.counters, World.counters, store]
  have counters_eq : counters = { v.counters call.asset with
      accruedFees, totalBridged, totalFeesCollected } := by
    have stats := congrArg (fun w : World => w.counters call.asset) same
    rw [← recorded]
    simpa [World.counters] using stats
  rw [recorded] at accrued bridged collected
  have volume := trails.volume
  have limit := trails.usage
  rw [deliveredAmounts_accepted admitted] at volume limit
  simp only at volume limit
  obtain ⟨sum, sumVal⟩ : ∃ sum : I128, sum.val =
      (v.sourceBridgedVolume call.source call.asset).val + amount.val :=
    exists_sum positive.le (by omega)
  have within : call.Limited v.begin →
      v.begin.dailyUsage call.source call.asset (currentDay env) + amount.val ≤
        (v.begin.sourceDailyLimit call.source call.asset).val := by
    intro limited
    rw [BatchCall.Limited, begun.limit] at limited
    have bound := checked.limit limited
    rw [BatchCall.counted, BatchCall.counted, if_neg limited, if_neg limited] at limit
    rw [begun.limit]
    change v.dailyUsage call.source call.asset (currentDay env) + amount.val ≤ _
    omega
  obtain ⟨v', ran, tokens, funds⟩ : ∃ v', (fundCAddress env call.source target call.asset amount
      none call.deadline).run v.begin = .ok ((), v') ∧ v'.tokens = handed ∧
      Funds env call amount _ v.begin v' :=
    single_runs takes (begun.agrees.loyaltyReward.trans checked.unrewarded)
      (begun.quotes checked charged left) within checked.authorizedTransfer accepted pulls hands
      accrued bridged collected sumVal
  refine ⟨v', replying_ok.mpr ⟨(), ran, rfl⟩, ?_⟩
  exact {
    loop := fun key outside => by
      have stats : key ≠ .assetStats call.asset := by
        rintro rfl
        exact outside (by simp [BatchCall.keys])
      rw [World.emit_store, World.put_store, KeyedStore.set_of_ne _ stats, store]
      exact trails.loop key outside
    singles := fun key outside => (funds.unwritten key outside).trans (begun key outside)
    idle := by rw [funds.idle]; rfl
    counters := by
      rw [funds.counters, counters_eq]
      simp [World.counters]
    balances := fun asset holder => by
      have its := pays.balances asset holder
      have mine := paidBalances asset holder
      have between := pulledBalances asset holder
      have before := trails.balances asset holder
      rw [tokens, World.emit_tokens, World.put_tokens, mine, between, before, its]
      split_ifs <;> omega
    covered := by
      have its := pays.balances call.asset call.source
      rw [World.emit_tokens, World.put_tokens, its]
      simp only [true_and, other, if_false]
      split_ifs <;> omega
    held := by
      have mine := paidBalances call.asset env.self
      have between := pulledBalances call.asset env.self
      rw [tokens, mine, between]
      simp only [true_and, if_true, Ne.symm other, if_false]
      split_ifs <;> omega
    volume := by
      rw [funds.volume, ← volume]
      exact Int.add_assoc ..
    usage := by
      rw [funds.usage, ← limit]
      change v.dailyUsage call.source call.asset (currentDay env) + _ + _ = _
      rw [BatchCall.counted, BatchCall.counted, BatchCall.counted, begun.limit]
      split_ifs <;> omega
    debited := by
      have mine := paidBalances call.asset call.source
      have between := pulledBalances call.asset call.source
      have before := trails.debited
      rw [deliveredAmounts_accepted admitted, returned_accepted admitted] at before
      rw [tokens, mine, between, ← before]
      simp only [true_and, if_true, other, if_false, ← feeVal, ← left, eq_comm (a := target)]
      split_ifs <;> omega }

end Trails

/-- The single calls for some entries go through one after the other. -/
def BatchCall.RunsSingles (call : BatchCall) (env : Env) (entries : List (Address × I128))
    (v v' : World) : Prop :=
  ∃ made : List Success, made.map Success.request = entries.map call.single ∧
    (∀ single ∈ made, single.env = env) ∧ Run (Step env.host) v (made.map .success) v'

theorem BatchCall.RunsSingles.cons {call : BatchCall} {env : Env} {entry : Address × I128}
    {rest : List (Address × I128)} {u v v' : World}
    (called : (execute env (call.single entry)).run u.begin = .ok (.done, v))
    (later : call.RunsSingles env rest v v') : call.RunsSingles env (entry :: rest) u v' := by
  obtain ⟨made, requests, envs, run⟩ := later
  let first : Success := ⟨env, call.single entry, u, .done, v⟩
  have taken : Step env.host first.before (.success first) first.after := .success rfl called
  refine ⟨first :: made, ?_, ?_, .cons taken run⟩
  · rw [List.map_cons, List.map_cons, requests]
  · exact List.forall_mem_cons.mpr ⟨rfl, envs⟩

/-- The single calls go through while the loop of the batch does, and trail it to its end. -/
theorem singles_trail {env : Env} {call : BatchCall} {feeBps : UInt32} {w : World}
    (checked : call.Checked env feeBps w)
    (fits : (w.sourceBridgedVolume call.source call.asset).val
      + deliveredAmounts w.admits call.entries ≤ I128.maxValue)
    (accepted : ∀ entry ∈ call.entries, w.admits entry.1 = true →
      env.refuses (.transfer call.asset call.source env.self entry.2) = false)
    {entries : List (Address × I128)} (listed : ∀ entry ∈ entries, entry ∈ call.entries)
    (positive : ∀ entry ∈ entries, 0 < entry.2.val) {progress result : BatchProgress}
    {s s' v : World} (refund : 0 ≤ progress.refundTotal.val)
    (trails : Trails env call feeBps w (progress.refundTotal.val + entriesTotal entries) entries
      s v)
    (ran : (deliverBatch env call.source call.asset feeBps progress entries).run s =
      .ok (result, s')) :
    ∃ v', call.RunsSingles env (entries.filter fun entry => w.admits entry.1) v v' ∧
      Trails env call feeBps w result.refundTotal.val [] s' v' ∧ 0 ≤ result.refundTotal.val := by
  induction entries generalizing progress s v with
  | nil =>
      obtain ⟨rfl, rfl⟩ := run_pure_ok.mp ran
      refine ⟨v, ⟨[], rfl, by simp, .nil v⟩, ?_, refund⟩
      simpa [entriesTotal] using trails
  | cons entry rest later =>
      obtain ⟨target, amount⟩ := entry
      obtain ⟨here, listed⟩ := List.forall_mem_cons.mp listed
      obtain ⟨first, positive⟩ := List.forall_mem_cons.mp positive
      have others := entriesTotal_nonneg positive
      rw [entriesTotal_cons] at trails
      simp only at first trails
      rcases deliverBatch_cons_ok ran with
        ⟨refused, progress', event, counted, ran⟩ |
        ⟨admitted, fee, net, p, counters, progress', event, charged, left, paid, updated, same, ran⟩
      · rw [trails.loop.agrees.admits] at refused
        have next := trails.refuse refused event
        rw [← add_assoc, ← counted] at next
        rw [List.filter_cons_of_neg (by simp [refused])]
        exact later listed positive (by omega) next ran
      · rw [trails.loop.agrees.admits] at admitted
        obtain ⟨v₁, called, next⟩ := trails.deliver checked fits here admitted
          (accepted _ here admitted) (by omega) positive charged left paid updated event
        have owed : progress.refundTotal.val + (amount.val + entriesTotal rest) - amount.val =
            progress'.refundTotal.val + entriesTotal rest := by
          rw [same]
          omega
        rw [owed] at next
        obtain ⟨v', runs, trails, owed⟩ := later listed positive (same ▸ refund) next ran
        rw [List.filter_cons_of_pos (by simpa using admitted)]
        exact ⟨v', runs.cons called, trails, owed⟩

/-! ## The whole batch -/

/-- The balances, the counters, the usage and the volumes are the same. -/
structure SameBooks (w v : World) : Prop where
  balances : w.tokens.balance = v.tokens.balance
  counters : w.counters = v.counters
  usage : w.dailyUsage = v.dailyUsage
  volumes : w.sourceBridgedVolume = v.sourceBridgedVolume

/-- A batch that succeeds has checked its arguments and taken the total of its amounts before the
loop, where no single call has been made yet. -/
theorem batch_starts {env : Env} {call : BatchCall} {w w' : World} {reply : Reply}
    (untiered : w.feeTiers = []) (unrewarded : w.loyaltyReward = none) (spent : call.nonce = none)
    (held : 0 ≤ (w.tokens.balance call.asset env.self).val)
    (ran : (execute env call.request).run w.begin = .ok (reply, w')) :
    ∃ (successfulTotal : I128) (p mid : World), call.Checked env (call.rate w) w ∧
      Trails env call (call.rate w) w (entriesTotal call.entries) call.entries p w ∧
      successfulTotal.val = deliveredAmounts w.admits call.entries ∧
      p.dailyUsage call.source call.asset (currentDay env) =
        w.dailyUsage call.source call.asset (currentDay env)
          + call.counted w (deliveredAmounts w.admits call.entries) ∧
      p.sourceBridgedVolume call.source call.asset =
        w.sourceBridgedVolume call.source call.asset ∧
      (concludeBatch env call (call.rate w) successfulTotal).run p = .ok ((), mid) ∧
      w' = mid.erase .entered := by
  obtain ⟨_, ran, -⟩ := replying_ok.mp ran
  have entered := enter_recorded env.self w.begin
  obtain ⟨idle, mid, ran, left⟩ := nonReentrant_ok_iff.mp ran
  simp only [run_view_bind_ok checkInitialized_ok, run_view_bind_ok checkNotPaused_ok,
    run_read_bind, run_rejectIf_bind_ok, 
    run_view_bind_ok checkAssetWhitelisted_ok, entered.minimumAmount,
    entered.isAssetWhitelisted, entered.initialized, entered.running, exists_const] at ran
  obtain ⟨initialized, running, -, -, inTime, lengths, listed, ran⟩ := ran
  obtain ⟨total, _, validated, ran⟩ := run_bind_ok.mp ran
  obtain ⟨enough, sum, rfl⟩ := validateAmounts_ok validated
  obtain ⟨successfulTotal, _, looked, ran⟩ := run_bind_ok.mp ran
  obtain ⟨reached, rfl⟩ := accessibleTotal_ok looked
  obtain ⟨_, d, charged, ran⟩ := run_bind_ok.mp ran
  obtain ⟨authorized, ran⟩ := requireAuth_bind_ok.mp ran
  have skipped : (consumeNonce call.source none).run d = .ok ((), d) := rfl
  rw [spent, run_bind_of_ok skipped] at ran
  obtain ⟨_, p, pulling, ran⟩ := run_bind_ok.mp ran
  obtain ⟨allowed, -, moved, moves, hp⟩ := transfer_ok_iff.mp pulling
  simp only [run_view_bind_ok readFeeBps_holds] at ran
  obtain ⟨_, ⟨config, found, rfl⟩, ran⟩ := ran
  rw [run_bind_of_ok (getTieredFeeBps_run ..),
    run_bind_of_ok (getEffectiveFeeBps_ok.mpr ⟨rfl, rfl⟩)] at ran
  have touches : Touches {.dailyUsage call.source call.asset (currentDay env)} False
      (checkDailyLimit env call.source call.asset successfulTotal) :=
    checkDailyLimit_touches _ _ _ _ rfl
  have frame := touches charged
  have reads {key : DataKey} (outside : key ≠ .entered)
      (unused : key ≠ .dailyUsage call.source call.asset (currentDay env)) :
      p.store key = w.store key := by
    rw [hp, World.settle_store, frame.store key unused, World.put_store,
      KeyedStore.set_of_ne _ outside, World.begin_store]
  have unwritten : call.Unwritten env w p := by
    intro key outside
    exact reads (fun same => outside (by simp [same, BatchCall.keys]))
      (fun same => outside (by simp [same, BatchCall.keys]))
  have takenFrom : w.Charged p := by
    intro key kept
    refine reads ?_ ?_
    · rintro rfl
      cases kept
    · rintro rfl
      cases kept
  have rate : p.effectiveFeeBps call.asset
      (p.tieredFeeBps call.source call.asset config.feeBps) = call.rate w := by
    rw [BatchCall.rate, ← takenFrom.quotedFeeBps, World.quotedFeeBps, found]
    rfl
  have configured : w.bridgeConfig? = some config := unwritten.bridgeConfig?.symm.trans found
  have plain : call.rate w = w.effectiveFeeBps call.asset config.feeBps := by
    rw [BatchCall.rate, World.quotedFeeBps, configured]
    simp [World.tieredFeeBps, World.currentTier, untiered]
  have lengths : call.targets.length = call.amounts.length := not_not.mp lengths
  have whole : entriesTotal call.entries = total.val := by
    rw [call.entriesTotal_eq lengths, sum]
    exact (Int.zero_add _).symm
  have successful : successfulTotal.val = deliveredAmounts w.admits call.entries := by
    simp only [World.deliverable, entered.admits] at reached
    rw [reached]
    exact Int.zero_add _
  have counts := checkDailyLimit_charges env call.source call.asset successfulTotal charged
  have first : (w.begin.put .entered true).dailyUsage call.source call.asset (currentDay env) =
      w.dailyUsage call.source call.asset (currentDay env) := by
    simp [World.dailyUsage]
  have limited : (w.begin.put .entered true).sourceDailyLimit call.source call.asset =
      w.sourceDailyLimit call.source call.asset := by
    simp [World.sourceDailyLimit]
  have usage : p.dailyUsage call.source call.asset (currentDay env) =
      w.dailyUsage call.source call.asset (currentDay env)
        + call.counted w (deliveredAmounts w.admits call.entries) := by
    have last : p.dailyUsage call.source call.asset (currentDay env) =
        d.dailyUsage call.source call.asset (currentDay env) := by
      rw [World.dailyUsage, World.dailyUsage, hp, World.settle_store]
    rw [last, counts.usage, first, limited, BatchCall.counted, successful]
    simp [Charge.part]
  rw [rate] at ran
  obtain ⟨positive, covered, -, balances⟩ := TokenLedger.move_eq_some moves
  have tokens : d.tokens = w.tokens := frame.tokens not_false
  rw [tokens] at covered balances
  have other : call.source ≠ env.self := ne_self_of_authorizes authorized
  have enough : ∀ entry ∈ call.entries, ¬ belowMinimum entry.2 w.minimumAmount :=
    fun entry member => enough _ (List.of_mem_zip member).2
  refine ⟨successfulTotal, p, mid, ?_, ?_, successful, usage, takenFrom.volume _ _, ran, left⟩
  · have within := counts.within
    rw [counts.usage, first, limited] at within
    simp only [Charge.part, and_self, if_true, successful] at within
    refine ⟨initialized, running, inTime, enough, listed, authorized, ?_, fun some => ?_,
      ⟨config, configured, plain⟩, untiered, unrewarded⟩
    · simpa [other] using allowed
    · simpa [some] using within some
  · refine ⟨unwritten, fun _ _ => rfl, idle, ?_, fun asset holder => ?_, ?_, held, rfl, rfl, rfl⟩
    · rw [World.counters, World.counters, reads (by simp) (by simp)]
    · rw [hp, World.settle_tokens, balances, whole]
      omega
    · rw [hp, World.settle_tokens, balances]
      simp only [and_self, if_true, other, and_false, if_false]
      omega

/-- What follows the loop: the refund, and the volume of all delivered entries at once. -/
theorem concludeBatch_parts {env : Env} {call : BatchCall} {feeBps : UInt32}
    {successfulTotal : I128} {p mid : World} (unrewarded : p.loyaltyReward = none)
    (ran : (concludeBatch env call feeBps successfulTotal).run p = .ok ((), mid)) :
    ∃ (progress : BatchProgress) (s r : World) (updated : I128),
      (deliverBatch env call.source call.asset feeBps ⟨0, 0, 0⟩ call.entries).run p =
        .ok (progress, s) ∧ Frame {.assetStats call.asset} True p s ∧
      s.tokens.PaysOut env call.asset call.source progress.refundTotal r.tokens ∧
      updated.val = (s.sourceBridgedVolume call.source call.asset).val + successfulTotal.val ∧
      mid.store = s.store.set (.sourceBridgedVolume call.source call.asset) updated ∧
      mid.tokens = r.tokens := by
  obtain ⟨progress, s, delivered, ran⟩ := run_bind_ok.mp ran
  obtain ⟨_, r, refunded, ran⟩ := run_bind_ok.mp ran
  obtain ⟨_, c, counted, ran⟩ := run_bind_ok.mp ran
  obtain ⟨_, m, minted, ran⟩ := run_bind_ok.mp ran
  obtain rfl := run_modify_ok.mp ran
  obtain ⟨store, pays⟩ := payout_leaves refunded
  have touches : Touches {.assetStats call.asset} True
      (deliverBatch env call.source call.asset feeBps ⟨0, 0, 0⟩ call.entries) :=
    deliverBatch_touches _ _ _ _ _ _ rfl
  have frame := touches delivered
  rw [incrementSourceBridgedVolume, run_read_bind] at counted
  obtain ⟨updated, added, counted⟩ := run_ofExcept_bind_ok.mp counted
  have sum := safeAdd_ok.mp added
  obtain rfl := run_modify_ok.mp counted
  have token : (r.put (.sourceBridgedVolume call.source call.asset) updated).store .loyaltyToken =
      p.store .loyaltyToken := by
    rw [World.put_store, KeyedStore.set_of_ne _ (by simp), store, frame.store _ (by simp)]
  have perFund : (r.put (.sourceBridgedVolume call.source call.asset) updated).store
      .loyaltyAmountPerFund = p.store .loyaltyAmountPerFund := by
    rw [World.put_store, KeyedStore.set_of_ne _ (by simp), store, frame.store _ (by simp)]
  have nothing : (r.put (.sourceBridgedVolume call.source call.asset) updated).loyaltyReward =
      none := by
    rw [← unrewarded]
    unfold World.loyaltyReward World.loyaltyAmountPerFund
    rw [token, perFund]
  have same : m = r.put (.sourceBridgedVolume call.source call.asset) updated := by
    rcases run_onlyIf_ok.mp minted with ⟨-, minted⟩ | ⟨-, same⟩
    · rw [mintLoyaltyTokens_run, nothing] at minted
      exact (run_pure_ok.mp minted).2
    · exact same
  refine ⟨progress, s, r, updated, delivered, frame, pays, ?_, ?_, ?_⟩
  · rw [sum, World.sourceBridgedVolume, World.sourceBridgedVolume, store]
  · rw [World.emit_store, same, World.put_store, store]
  · rw [World.emit_tokens, same, World.put_tokens]

/-- Without tiers and rewards, a batch that succeeds does what the single calls for its delivered
entries do one after the other: they succeed as well, and leave the same balances, counters, usage
and volumes. The source pays the amounts of these entries, and gets what they send to it. -/
theorem batch_refines_singles {env : Env} {call : BatchCall} {w w' : World} {reply : Reply}
    (untiered : w.feeTiers = []) (unrewarded : w.loyaltyAmountPerFund.val = 0)
    (spent : call.nonce = none) (held : 0 ≤ (w.tokens.balance call.asset env.self).val)
    (accepted : ∀ entry ∈ call.entries, w.admits entry.1 = true →
      env.refuses (.transfer call.asset call.source env.self entry.2) = false)
    (ran : (execute env call.request).run w.begin = .ok (reply, w')) :
    (∃ v, call.RunsSingles env (call.entries.filter fun entry => w.admits entry.1) w v ∧
      SameBooks w' v) ∧
    (w'.tokens.balance call.asset call.source).val =
      (w.tokens.balance call.asset call.source).val - deliveredAmounts w.admits call.entries
        + returned w.admits call.source (call.rate w) call.entries := by
  have unrewarded : w.loyaltyReward = none := by
    rw [World.loyaltyReward, unrewarded]
    cases w.store .loyaltyToken <;> rfl
  obtain ⟨successfulTotal, p, mid, checked, trails, successful, usage, volume, concluded, rfl⟩ :=
    batch_starts untiered unrewarded spent held ran
  have later : p.loyaltyReward = none := trails.loop.agrees.loyaltyReward.trans unrewarded
  obtain ⟨progress, s, r, updated, delivered, frame, pays, counted, stored, tokens⟩ :=
    concludeBatch_parts later concluded
  have sameVolume : s.sourceBridgedVolume call.source call.asset =
      w.sourceBridgedVolume call.source call.asset := by
    rw [← volume, World.sourceBridgedVolume, World.sourceBridgedVolume, frame.store _ (by simp)]
  have total : updated.val = (w.sourceBridgedVolume call.source call.asset).val
      + deliveredAmounts w.admits call.entries := by
    rw [counted, sameVolume, successful]
  have fits : (w.sourceBridgedVolume call.source call.asset).val
      + deliveredAmounts w.admits call.entries ≤ I128.maxValue := total ▸ updated.upper
  have positive : ∀ entry ∈ call.entries, 0 < entry.2.val := fun entry member =>
    not_le.mp (not_or.mp (checked.enough entry member)).1
  have start : Trails env call (call.rate w) w ((0 : I128).val + entriesTotal call.entries)
      call.entries p w := (Int.zero_add (entriesTotal call.entries)).symm ▸ trails
  obtain ⟨v, runs, trails, owed⟩ :=
    singles_trail checked fits accepted (fun _ member => member) positive le_rfl start delivered
  have balances (asset holder : Address) :
      ((mid.erase .entered).tokens.balance asset holder).val =
        (v.tokens.balance asset holder).val := by
    rw [World.erase_tokens, tokens, pays.balances, trails.balances, max_eq_right owed]
  have kept {key : DataKey} (idle : key ≠ .entered)
      (other : key ≠ .sourceBridgedVolume call.source call.asset) :
      (mid.erase .entered).store key = s.store key := by
    rw [World.erase_store, KeyedStore.remove_of_ne _ idle, stored, KeyedStore.set_of_ne _ other]
  have outside {key : DataKey} (other : key ∉ call.keys env) :
      (mid.erase .entered).store key = v.store key := by
    rw [kept (fun same => other (by simp [same, BatchCall.keys]))
      (fun same => other (by simp [same, BatchCall.keys])), trails.loop key other,
      trails.singles key other]
  have debited := trails.debited
  have counts := trails.usage
  have bridges := trails.volume
  simp only [deliveredAmounts_nil, sub_zero, add_zero] at debited counts bridges
  refine ⟨⟨v, runs, ?_, ?_, ?_, ?_⟩, ?_⟩
  · funext asset holder
    exact BoundedInt.ext (balances asset holder)
  · funext asset
    by_cases same : asset = call.asset
    · rw [same, trails.counters, World.counters, World.counters, kept (by simp) (by simp)]
    · rw [World.counters, World.counters, outside (by simp [BatchCall.keys, same])]
  · funext source asset day
    by_cases own : source = call.source ∧ asset = call.asset ∧ day = currentDay env
    · obtain ⟨rfl, rfl, rfl⟩ := own
      rw [World.dailyUsage, kept (by simp) (by simp), frame.store _ (by simp)]
      refine usage.trans ?_
      rw [← counts, BatchCall.counted, ite_self, add_zero]
    · rw [World.dailyUsage, World.dailyUsage, outside (by simpa [BatchCall.keys] using own)]
  · funext source asset
    by_cases own : source = call.source ∧ asset = call.asset
    · obtain ⟨rfl, rfl⟩ := own
      refine BoundedInt.ext ?_
      rw [bridges, ← total]
      simp [World.sourceBridgedVolume, stored]
    · rw [World.sourceBridgedVolume, World.sourceBridgedVolume,
        outside (by simpa [BatchCall.keys] using own)]
  · rw [balances, ← debited]
    exact (Int.add_zero _).symm

namespace Rehearsal

/-- A contract with one asset and a blocked target. -/
def blocking : List (UInt64 × Request) := opening ++ [(0, .addToBlocklist (address 6) none)]

/-- A batch with a target that occurs twice, one that is blocked, and the source itself. -/
def mixedBatch : BatchCall where
  source := address 4
  targets := [address 5, address 6, address 4, address 5]
  amounts := [amount 1000 thousand_small, amount 700, amount 500, amount 300]
  asset := address 3
  nonce := none
  deadline := none

end Rehearsal

/-- The source pays for three entries out of four, and 495 out of 500 come back to it. -/
theorem batch_refines_singles_rehearsed :
    let w := Rehearsal.outcome Rehearsal.blocking
    let w' := (attempt (Rehearsal.env 0) Rehearsal.mixedBatch.request w).after
    (∃ v, Rehearsal.mixedBatch.RunsSingles (Rehearsal.env 0)
        (Rehearsal.mixedBatch.entries.filter fun entry => w.admits entry.1) w v ∧
      SameBooks w' v) ∧
    (w'.tokens.balance (Rehearsal.address 3) (Rehearsal.address 4)).val =
      10000 - (1000 + 500 + 300) + 495 := by
  intro w w'
  have success : succeeds (Rehearsal.env 0) Rehearsal.mixedBatch.request w = true := by
    decide +kernel
  have ran := attempt_ran success
  obtain ⟨sameEnv, sameRequest, sameWorld⟩ :=
    attempt_call (Rehearsal.env 0) Rehearsal.mixedBatch.request w
  rw [sameEnv, sameRequest, sameWorld] at ran
  have untiered : w.feeTiers = [] := by
    with_unfolding_all rfl
  have held : 0 ≤ (w.tokens.balance Rehearsal.mixedBatch.asset (Rehearsal.env 0).self).val := by
    decide +kernel
  have refines := batch_refines_singles untiered (by decide +kernel) rfl held (fun _ _ _ => rfl) ran
  exact ⟨refines.1, by decide +kernel⟩

end OnboardingBridge.Contract
