import OnboardingBridge.Foundations.Totals
import OnboardingBridge.Contract.Outcomes

/-!
# The timelock ledger

In every reachable world the locked counter of an asset is the sum of its
unclaimed entries. Identifiers are handed out once, an entry never changes but
for its claimed flag, and each is paid at most once, when it is mature, to its
target and with the authorisation of the target (`timelock_ledger`).
-/

set_option autoImplicit false

namespace OnboardingBridge.Contract

open Foundations Foundations.Tx

/-! ## The sum of the unclaimed entries -/

/-- What an entry that may be stored still locks of an asset. -/
def lockedBy (asset : Address) : Option TimelockEntry → Int
  | some entry =>
      if entry.claimed = false then inAsset entry.asset entry.amount.val asset else 0
  | none => 0

/-- The sum of the unclaimed entries of an asset. -/
def World.unclaimedTotal (w : World) (asset : Address) : Int :=
  ∑ id, lockedBy asset (w.store (.timelock id))

/-- A call moves the sum of the unclaimed entries as it moves the locked
counter. -/
theorem execute_unclaimedTotal {env : Env} {request : Request} {reply : Reply} {w w' : World}
    (kept : w.DepositsKept) (ran : (execute env request).run w = .ok (reply, w'))
    (asset : Address) :
    w'.unclaimedTotal asset = w.unclaimedTotal asset + request.lockedChange w asset := by
  cases request
  case fundCAddressTimelocked =>
    obtain ⟨id, ran, -⟩ := replying_ok.mp ran
    obtain ⟨-, next, -, -, stored, others⟩ := fundCAddressTimelocked_stores ran
    have free : w.store (.timelock id) = none := by
      cases found : w.store (.timelock id) with
      | none => rfl
      | some entry => exact absurd (kept id entry found).1 (next ▸ UInt64.lt_irrefl _)
    rw [World.unclaimedTotal, total_eq_of_eq_off id fun other different =>
      congrArg (lockedBy asset) (others other different), stored, free]
    simp [lockedBy, Request.lockedChange, World.unclaimedTotal]
  case claimTimelocked id =>
    obtain ⟨_, ran, -⟩ := replying_ok.mp ran
    obtain ⟨entry, stored, unclaimed, -, marked, others⟩ := claimTimelocked_stores ran
    rw [World.unclaimedTotal, total_eq_of_eq_off id fun other different =>
      congrArg (lockedBy asset) (others other different), stored, marked]
    simp [lockedBy, unclaimed, Request.lockedChange, stored, World.unclaimedTotal, inAsset_neg]
  all_goals
    have frame := execute_frame env _ ran
    have entries (id : UInt64) : w'.store (.timelock id) = w.store (.timelock id) :=
      frame.store _ (by simp [Request.writes, dailyUsages])
    simp only [World.unclaimedTotal, entries, Request.lockedChange, Pi.zero_apply, add_zero]

/-- The locked counter of every asset is the sum of its unclaimed entries. -/
def World.LockedAgrees (w : World) : Prop :=
  ∀ asset, (w.counters asset).lockedTimelock.val = w.unclaimedTotal asset

theorem execute_lockedAgrees {env : Env} {request : Request} {reply : Reply} {w w' : World}
    (sound : w.Sound env.self) (agrees : w.LockedAgrees)
    (ran : (execute env request).run w.begin = .ok (reply, w')) : w'.LockedAgrees := by
  have sound : w.begin.Sound env.self := sound.of_store rfl
  obtain ⟨_, _, -, effects⟩ := execute_effects sound ran rfl rfl
  intro asset
  rw [effects.locked, execute_unclaimedTotal sound.deposits ran]
  exact congrArg (· + _) (agrees asset)

theorem Genesis.lockedAgrees {host : Host} {w : World} (fresh : Genesis host w) :
    w.LockedAgrees := by
  intro asset
  simp [World.unclaimedTotal, World.counters, fresh.store, lockedBy]

theorem Reachable.lockedAgrees {host : Host} {w : World} (reachable : Reachable host w) :
    w.LockedAgrees := by
  obtain ⟨start, labels, fresh, run⟩ := reachable
  have kept := run_world_invariant (fun w => w.Sound host.contractAddress ∧ w.LockedAgrees)
    (fun _ => True) ?_ ?_ run (fun _ _ => trivial) ⟨fresh.sound, fresh.lockedAgrees⟩
  · exact kept.2
  · rintro call deployed - ⟨sound, agrees⟩ ran
    refine ⟨sound.run (.single (.success deployed ran)), ?_⟩
    subst deployed
    exact execute_lockedAgrees sound agrees ran
  · rintro w tokens - ⟨sound, agrees⟩
    exact ⟨sound.of_store rfl, agrees⟩

/-! ## Single entries -/

/-- A step in which a deposit succeeds and gets the identifier. -/
def Label.deposits (id : UInt64) (label : Label) : Prop :=
  ∃ call source target asset amount releaseTime cliffTime nonce deadline,
    label = .success call ∧ call.reply = .id id ∧ call.request = .fundCAddressTimelocked source
      target asset amount releaseTime cliffTime nonce deadline

/-- A step in which the claim of an entry succeeds. -/
def Label.claims (id : UInt64) (label : Label) : Prop :=
  ∃ call, label = .success call ∧ call.request = .claimTimelocked id

/-- A deposit finds its identifier unused and stores its entry there. -/
theorem deposit_fresh {host : Host} {w : World} (reachable : Reachable host w) {call : Success}
    (ran : (execute call.env call.request).run w.begin = .ok (call.reply, call.after))
    {source target asset : Address} {amount : I128} {releaseTime cliffTime : UInt64}
    {nonce deadline : Option UInt64} (request : call.request = .fundCAddressTimelocked source target
      asset amount releaseTime cliffTime nonce deadline) :
    ∃ id, call.reply = .id id ∧ w.store (.timelock id) = none ∧ ¬ id < w.timelockId ∧
      id < call.after.timelockId ∧ call.after.store (.timelock id) =
        some ⟨source, target, asset, amount, releaseTime, cliffTime, false⟩ := by
  rw [request] at ran
  obtain ⟨id, ran, reply⟩ := replying_ok.mp ran
  obtain ⟨-, next, fits, counter, stored, -⟩ := fundCAddressTimelocked_stores ran
  have next : id = w.timelockId := next
  refine ⟨id, reply, ?_, next ▸ UInt64.lt_irrefl _, ?_, stored⟩
  · cases found : w.store (.timelock id) with
    | none => rfl
    | some entry =>
      exact absurd (reachable.sound.deposits id entry found).1 (next ▸ UInt64.lt_irrefl _)
  · have one : (1 : UInt64).toNat = 1 := rfl
    rw [counter, UInt64.lt_iff_toNat_lt, UInt64.toNat_add]
    omega

/-- Apart from a claim, which marks its entry, no call changes a stored entry. -/
theorem execute_timelock {env : Env} {request : Request} {reply : Reply} {w w' : World}
    (kept : w.DepositsKept) (ran : (execute env request).run w = .ok (reply, w')) {id : UInt64}
    {entry : TimelockEntry} (stored : w.store (.timelock id) = some entry) :
    w'.store (.timelock id) = some entry ∨ request = .claimTimelocked id ∧
      entry.claimed = false ∧ w'.store (.timelock id) = some { entry with claimed := true } := by
  cases request
  case fundCAddressTimelocked =>
    obtain ⟨new, ran, -⟩ := replying_ok.mp ran
    obtain ⟨-, next, -, -, -, others⟩ := fundCAddressTimelocked_stores ran
    have different : id ≠ new := by
      rintro rfl
      exact UInt64.lt_irrefl _ (next ▸ (kept id entry stored).1)
    exact .inl ((others id different).trans stored)
  case claimTimelocked claimed =>
    obtain ⟨_, ran, -⟩ := replying_ok.mp ran
    obtain ⟨found, before, unclaimed, -, marked, others⟩ := claimTimelocked_stores ran
    by_cases same : id = claimed
    · subst same
      obtain rfl := Option.some.inj (before.symm.trans stored)
      exact .inr ⟨rfl, unclaimed, marked⟩
    · exact .inl ((others id same).trans stored)
  all_goals
    exact .inl (((execute_frame env _ ran).store _ (by simp [Request.writes, dailyUsages])).trans
      stored)

/-- No call lowers the counter of the identifiers. -/
theorem execute_timelockId {env : Env} {request : Request} {reply : Reply} {w w' : World}
    (ran : (execute env request).run w = .ok (reply, w')) {id : UInt64} (below : id < w.timelockId) :
    id < w'.timelockId := by
  by_cases writes : .timelockId ∈ request.writes
  · cases request
    all_goals try (simp [Request.writes, dailyUsages] at writes; done)
    obtain ⟨new, ran, -⟩ := replying_ok.mp ran
    obtain ⟨-, next, fits, counter, -⟩ := fundCAddressTimelocked_stores ran
    have one : (1 : UInt64).toNat = 1 := rfl
    rw [← next, UInt64.lt_iff_toNat_lt] at below
    rw [counter, UInt64.lt_iff_toNat_lt, UInt64.toNat_add]
    omega
  · rwa [World.timelockId, (execute_frame env request ran).store _ writes]

/-- What a claim pays: the entry is mature and its target authorised the claim,
the rest after the fee goes to the target in the only token call of the claim,
and the fee is accrued. -/
structure ClaimPays (call : Success) (id : UInt64) (entry : TimelockEntry) (fee netAmount : I128) :
    Prop where
  stored : call.before.store (.timelock id) = some entry
  unclaimed : entry.claimed = false
  matured : entry.releaseTime ≤ call.env.timestamp
  authorized : call.env.authorizes entry.target = true
  parts : netAmount.val + fee.val = entry.amount.val
  nonneg : 0 ≤ fee.val ∧ 0 ≤ netAmount.val
  invocations : call.after.invocations = if 0 < netAmount.val then
    [.transfer entry.asset call.env.self entry.target netAmount] else []
  accrued : (call.after.counters entry.asset).accruedFees.val =
    (call.before.counters entry.asset).accruedFees.val + fee.val

theorem claim_pays {host : Host} {call : Success} (reachable : Reachable host call.before)
    (ran : (execute call.env call.request).run call.before.begin = .ok (call.reply, call.after))
    {id : UInt64} (request : call.request = .claimTimelocked id) :
    ∃ entry fee netAmount, ClaimPays call id entry fee netAmount := by
  rw [request] at ran
  obtain ⟨_, ran, -⟩ := replying_ok.mp ran
  obtain ⟨-, -, -, entry, stored, unclaimed, matured, authorized, fee, netAmount, charged, net,
    unlocked, paid, counted, decremented, payment, updated, left⟩ := claimTimelocked_ok.mp ran
  have sound : call.before.begin.Sound host.contractAddress := reachable.sound.of_store rfl
  obtain ⟨feeNonneg, feeLe⟩ :=
    feeOf_bounds sound.fees (sound.deposits id entry stored).2.le charged
  have sofar := marking_recorded call.env.self call.before.begin id entry
  have sofar := sofar.trans (decrementLockedTimelock_records _ _ decremented)
  have sofar := sofar.trans (payout_records _ _ _ _ payment)
  have recorded := sofar.trans (updateAssetCounters_records _ _ _ updated)
  refine ⟨entry, fee, netAmount, stored, unclaimed, matured, authorized, by omega,
    ⟨feeNonneg, by omega⟩, ?_, ?_⟩
  · have invocations := recorded.invocations
    rw [left]
    simp only [World.erase_invocations, World.emit_invocations, invocations]
    unfold payout
    split
    · rfl
    · rfl
  · have accrued := recorded.earmarked .accruedFees entry.asset
    have after : call.after.counters entry.asset = counted.counters entry.asset := by
      rw [left]
      simp [World.counters]
    rw [after]
    refine Eq.trans accrued (congrArg (_ + ·) ?_)
    simp

/-! ## Runs -/

/-- A stored entry has stayed as it was, but that it may have been claimed, which
is final. -/
def World.KeepsEntry (w : World) (id : UInt64) (entry : TimelockEntry) : Prop :=
  ∃ claimed, w.store (.timelock id) = some { entry with claimed } ∧
    (entry.claimed = true → claimed = true)

/-- No step loses an entry. -/
theorem Step.keepsEntry {host : Host} {w w' : World} {label : Label} (reachable : Reachable host w)
    (taken : Step host w label w') {id : UInt64} {entry : TimelockEntry}
    (kept : w.KeepsEntry id entry) : w'.KeepsEntry id entry := by
  cases taken with
  | success _ ran =>
    obtain ⟨claimed, stored, final⟩ := kept
    have sound := reachable.sound.of_store (World.begin_store _)
    rcases execute_timelock sound.deposits ran stored with same | ⟨-, -, marked⟩
    · exact ⟨claimed, same, final⟩
    · exact ⟨true, marked, fun _ => rfl⟩
  | failure => exact kept
  | external => exact kept

/-- The entry was claimed. -/
def World.Claimed (w : World) (id : UInt64) : Prop :=
  ∃ entry, w.store (.timelock id) = some entry ∧ entry.claimed = true

/-- A claim finds its entry unclaimed and leaves it claimed. -/
theorem Label.claims_takes {host : Host} {id : UInt64} {w w' : World} {label : Label}
    (taken : Step host w label w') (claims : label.claims id) : ¬ w.Claimed id ∧ w'.Claimed id := by
  obtain ⟨call, rfl, request⟩ := claims
  cases taken with
  | success _ ran =>
    rw [request] at ran
    obtain ⟨_, ran, -⟩ := replying_ok.mp ran
    obtain ⟨entry, stored, unclaimed, -, marked, -⟩ := claimTimelocked_stores ran
    refine ⟨?_, { entry with claimed := true }, marked, rfl⟩
    rintro ⟨entry', stored', claimed⟩
    obtain rfl : entry = entry' := Option.some.inj (stored.symm.trans stored')
    exact Bool.false_ne_true (unclaimed.symm.trans claimed)

/-- A claimed entry stays claimed. -/
theorem Step.claimed {host : Host} {w w' : World} {label : Label} (reachable : Reachable host w)
    (taken : Step host w label w') {id : UInt64} (before : w.Claimed id) : w'.Claimed id := by
  obtain ⟨entry, stored, claimed⟩ := before
  obtain ⟨claimed', stored', final⟩ := taken.keepsEntry reachable ⟨entry.claimed, stored, fun same => same⟩
  exact ⟨_, stored', final claimed⟩

/-- A deposit gets an identifier that was not handed out before and is handed
out after. -/
theorem Label.deposits_takes {host : Host} {id : UInt64} {w w' : World} {label : Label}
    (reachable : Reachable host w) (taken : Step host w label w') (deposits : label.deposits id) :
    ¬ id < w.timelockId ∧ id < w'.timelockId := by
  obtain ⟨call, source, target, asset, amount, releaseTime, cliffTime, nonce, deadline, rfl, reply,
    request⟩ := deposits
  cases taken with
  | success _ ran =>
    obtain ⟨new, reply', -, above, below, -⟩ := deposit_fresh reachable ran request
    obtain rfl := Reply.id.inj (reply.symm.trans reply')
    exact ⟨above, below⟩

theorem Step.timelockId {host : Host} {w w' : World} {label : Label} (taken : Step host w label w')
    {id : UInt64} (below : id < w.timelockId) : id < w'.timelockId := by
  cases taken with
  | success _ ran => exact execute_timelockId ran below
  | failure => exact below
  | external => exact below

/-- Over any run from a reachable world: the locked counter of every asset is the
sum of its unclaimed entries; each deposit stores its entry under an unused
identifier that no other deposit gets; an entry stays as it was stored but that
it may be claimed, which is final; and each entry is claimed at most once, when
it is mature, with the authorisation of its target, which is paid all of it but
the fee. -/
theorem timelock_ledger {host : Host} {w w' : World} {labels : List Label}
    (reachable : Reachable host w) (run : Run (Step host) w labels w') :
    (∀ asset, (w'.counters asset).lockedTimelock.val = w'.unclaimedTotal asset) ∧
    (∀ call source target asset amount releaseTime cliffTime nonce deadline,
      .success call ∈ labels → call.request = .fundCAddressTimelocked source target asset amount
        releaseTime cliffTime nonce deadline →
      ∃ id, call.reply = .id id ∧ call.before.store (.timelock id) = none ∧
        call.after.store (.timelock id) =
          some ⟨source, target, asset, amount, releaseTime, cliffTime, false⟩) ∧
    (∀ id, labels.Pairwise fun earlier later => ¬ (earlier.deposits id ∧ later.deposits id)) ∧
    (∀ id entry, w.store (.timelock id) = some entry → w'.KeepsEntry id entry) ∧
    (∀ id, labels.Pairwise fun earlier later => ¬ (earlier.claims id ∧ later.claims id)) ∧
    (∀ call id, .success call ∈ labels → call.request = .claimTimelocked id →
      ∃ entry fee netAmount, ClaimPays call id entry fee netAmount) := by
  have within := reachable.within run
  refine ⟨(reachable.run run).lockedAgrees, ?_, fun id => ?_, fun id entry stored => ?_,
    fun id => ?_, fun call id member request => ?_⟩
  · intro call source target asset amount releaseTime cliffTime nonce deadline member request
    obtain ⟨-, ran, earlier, before⟩ := successful_of_run run member
    obtain ⟨id, reply, free, -, -, stored⟩ := deposit_fresh (reachable.run before) ran request
    exact ⟨id, reply, free, stored⟩
  · exact within.atMostOnce (fun w => id < w.timelockId) (Label.deposits id)
      (fun _ _ _ taken deposits => Label.deposits_takes taken.1 taken.2 deposits)
      (fun _ _ _ taken below => taken.2.timelockId below)
  · have start : w.KeepsEntry id entry := ⟨entry.claimed, stored, fun claimed => claimed⟩
    have kept {w label w'} (kept : World.KeepsEntry w id entry)
        (taken : Reachable host w ∧ Step host w label w') : World.KeepsEntry w' id entry :=
      taken.2.keepsEntry taken.1 kept
    exact within.invariant (fun _ => True) (fun _ _ _ holds _ taken => kept holds taken)
      (fun _ _ => trivial) start
  · exact within.atMostOnce (fun w => w.Claimed id) (Label.claims id)
      (fun _ _ _ taken claims => Label.claims_takes taken.2 claims)
      (fun _ _ _ taken claimed => taken.2.claimed taken.1 claimed)
  · obtain ⟨-, ran, earlier, before⟩ := successful_of_run run member
    exact claim_pays (reachable.run before) ran request

/-- Two deposits, of which one is claimed, lock what the other one deposited. -/
theorem timelock_ledger_rehearsed :
    let script : List (UInt64 × Request) := [
      (0, .initializeContract (Rehearsal.address 1) (Rehearsal.address 2) 100 none),
      (0, .addAsset (Rehearsal.address 3) none),
      (0, .fundCAddressTimelocked (Rehearsal.address 4) (Rehearsal.address 5) (Rehearsal.address 3)
        (Rehearsal.amount 1000) 5 0 none none),
      (0, .fundCAddressTimelocked (Rehearsal.address 4) (Rehearsal.address 5) (Rehearsal.address 3)
        (Rehearsal.amount 300) 9 0 none none),
      (7, .claimTimelocked 0)]
    ((Rehearsal.outcome script).counters (Rehearsal.address 3)).lockedTimelock.val = 300 ∧
      (Rehearsal.outcome script).unclaimedTotal (Rehearsal.address 3) = 300 := by
  intro script
  have locked : ((Rehearsal.outcome script).counters (Rehearsal.address 3)).lockedTimelock.val
      = 300 := by decide +kernel
  have start : Reachable Rehearsal.host Rehearsal.fresh :=
    ⟨Rehearsal.fresh, [], Rehearsal.fresh_genesis, .nil _⟩
  have ledger := timelock_ledger start (Rehearsal.run script (by decide +kernel))
  exact ⟨locked, (ledger.1 (Rehearsal.address 3)).symm.trans locked⟩

end OnboardingBridge.Contract
