import OnboardingBridge.Contract.Bystanders
import OnboardingBridge.Contract.QuotedCharges

/-!
# The single funding from its admission on

A call that funds one target first checks that it may be admitted (`World.Takes`), then charges
the usage and the nonce of the source, and then pulls, delivers and counts at the rate that was
quoted before the call. The successful runs are those of the parts (`fundCAddress_ok_iff`).
-/

set_option autoImplicit false

namespace OnboardingBridge.Contract

open Foundations Foundations.Tx

/-! ## Admission -/

/-- The checks of a call that funds one target. -/
structure World.Takes (env : Env) (source target asset : Address) (amount : I128)
    (deadline : Option UInt64) (w : World) : Prop where
  idle : (w.store .entered).getD false = false
  initialized : w.initialized = true
  running : w.running
  inTime : ¬ expired env deadline
  enough : ¬ belowMinimum amount w.minimumAmount
  admitted : w.admits target = true
  listed : w.isAssetWhitelisted asset = true
  authorized : env.authorizes source = true

theorem World.running.configured {w : World} (running : w.running) :
    ∃ config, w.bridgeConfig? = some config :=
  running.2.imp fun _ found => found.1

theorem World.Takes.positive {env : Env} {source target asset : Address} {amount : I128}
    {deadline : Option UInt64} {w : World} (takes : w.Takes env source target asset amount deadline) :
    0 < amount.val :=
  not_le.mp (not_or.mp takes.enough).1

/-- What is left of a funding once the amount is pulled. -/
def conclude (env : Env) (source target asset : Address) (amount fee net : I128) : Call Unit := do
  updateAssetCounters asset fee net
  incrementSourceBridgedVolume source asset amount
  mintLoyaltyTokens env source
  publish (.cAddressFunded asset source target amount fee)

/-- The usage and the nonce of a source are charged between the start of a call and the world. -/
def World.Claims (env : Env) (source asset : Address) (amount : I128) (nonce : Option UInt64)
    (w t : World) : Prop :=
  ∃ d, (checkDailyLimit env source asset amount).run (w.put .entered true) = .ok ((), d) ∧
    (consumeNonce source nonce).run d = .ok ((), t)

/-- Whether a key is written while the source is charged. -/
abbrev DataKey.isClaim : DataKey → Bool
  | .nonce _ | .dailyUsage .. | .entered => true
  | _ => false

/-- The keys that a charge of the source may write. -/
def claimKeys : Set DataKey := {key | key.isClaim = true}

@[simp] theorem mem_claimKeys {key : DataKey} : key ∈ claimKeys ↔ key.isClaim = true := Iff.rfl

theorem claimKeys_subset : claimKeys ⊆ admissionKeys := by
  intro key claimed
  cases key <;> first | cases claimed; done | simp

namespace World.Claims

variable {env : Env} {source asset target : Address} {amount net : I128} {nonce : Option UInt64}
  {w t p q : World} (claims : w.Claims env source asset amount nonce t)
include claims

theorem frame : Frame claimKeys False w t := by
  obtain ⟨d, charged, consumed⟩ := claims
  have enters : Touches claimKeys False (save .entered true) := save_touches _ (by simp)
  have daily : Touches claimKeys False (checkDailyLimit env source asset amount) :=
    checkDailyLimit_touches _ _ _ _ (by simp)
  have spent : Touches claimKeys False (consumeNonce source nonce) :=
    consumeNonce_touches _ _ (by simp)
  have first : Frame claimKeys False w (w.put .entered true) := enters rfl
  exact trans_of (Frame claimKeys False) (trans_of (Frame claimKeys False) first (daily charged))
    (spent consumed)

theorem admits : Admits env.self [] w t := .of_frame (claims.frame.widen claimKeys_subset)

/-- The quote is the same before and after the amount is pulled. -/
theorem pulled (pulls : (transfer env asset source env.self amount).run t = .ok ((), p)) :
    Admits env.self [.token (.transfer asset source env.self amount)] w p := by
  have ran : (transfer env asset source env.self amount >>= pure).run t = .ok ((), p) :=
    run_bind_ok.mpr ⟨(), p, pulls, rfl⟩
  obtain ⟨_, _, sofar, -, ran⟩ := claims.admits.pull (transfer_records ..) (by simp) ran
  obtain ⟨-, rfl⟩ := run_pure_ok.mp ran
  exact sofar

/-- What neither a charge nor a payment writes is as it was. -/
theorem store (pulls : (transfer env asset source env.self amount).run t = .ok ((), p))
    (delivers : (onlyIf (0 < net.val) (transfer env asset env.self target net)).run p = .ok ((), q))
    (key : DataKey) (kept : key.isClaim = false) : q.store key = w.store key := by
  obtain ⟨moved, -, rfl⟩ := transfer_ok pulls
  rw [(payout_leaves delivers).1, World.settle_store, claims.frame.store key (by simp [kept])]

end World.Claims

theorem fundCAddress_ok_iff {env : Env} {source target asset : Address} {amount : I128}
    {nonce deadline : Option UInt64} {w w' : World} {u : Unit} :
    (fundCAddress env source target asset amount nonce deadline).run w = .ok (u, w') ↔
      w.Takes env source target asset amount deadline ∧
      ∃ t feeBps fee net p q mid, w.Claims env source asset amount nonce t ∧
        w.Quotes source asset amount feeBps fee net ∧
        (transfer env asset source env.self amount).run t = .ok ((), p) ∧
        (onlyIf (0 < net.val) (transfer env asset env.self target net)).run p = .ok ((), q) ∧
        (conclude env source target asset amount fee net).run q = .ok ((), mid) ∧
        w' = mid.erase .entered := by
  have entered := enter_recorded env.self w
  rw [fundCAddress, nonReentrant_ok_iff]
  simp only [run_view_bind_ok checkInitialized_ok, run_view_bind_ok checkNotPaused_ok,
    run_read_bind, run_rejectIf_bind_ok, run_view_bind_ok checkAccess_ok,
    run_view_bind_ok checkAssetWhitelisted_ok, entered.minimumAmount, entered.admits,
    entered.isAssetWhitelisted, entered.initialized, entered.running, entered.bridgeConfig?,
    exists_const]
  constructor
  · rintro ⟨idle, mid, ⟨initialized, running, inTime, enough, ⟨admitted, -⟩, listed, ran⟩, left⟩
    obtain ⟨_, d, charged, ran⟩ := run_bind_ok.mp ran
    obtain ⟨authorized, ran⟩ := requireAuth_bind_ok.mp ran
    obtain ⟨_, t, consumed, ran⟩ := run_bind_ok.mp ran
    obtain ⟨feeBps, fee, net, quoted, ran⟩ := charged_quotes.mp ran
    obtain ⟨_, p, pulled, ran⟩ := run_bind_ok.mp ran
    obtain ⟨_, q, delivered, ran⟩ := run_bind_ok.mp ran
    have claims : w.Claims env source asset amount nonce t := ⟨d, charged, consumed⟩
    exact ⟨⟨idle, initialized, running, inTime, enough, admitted, listed, authorized⟩,
      t, feeBps, fee, net, p, q, mid, claims, claims.admits.quotes.mp quoted, pulled, delivered, ran,
      left⟩
  · rintro ⟨takes, t, feeBps, fee, net, p, q, mid, claims, quoted, pulled, delivered, ran, left⟩
    have quoted := claims.admits.quotes.mpr quoted
    obtain ⟨d, charged, consumed⟩ := claims
    refine ⟨takes.idle, mid, ⟨takes.initialized, takes.running, takes.inTime, takes.enough,
      ⟨takes.admitted, takes.running.configured⟩, takes.listed, ?_⟩, left⟩
    refine run_bind_ok.mpr ⟨(), d, charged, requireAuth_bind_ok.mpr ⟨takes.authorized, ?_⟩⟩
    refine run_bind_ok.mpr ⟨(), t, consumed, charged_quotes.mpr ⟨feeBps, fee, net, quoted, ?_⟩⟩
    exact run_bind_ok.mpr ⟨(), p, pulled, run_bind_ok.mpr ⟨(), q, delivered, ran⟩⟩

/-! ## Bridged volumes -/

/-- The keys that hold no volume. -/
def otherThanVolume : Set DataKey := {key | key.isVolume = false}

@[simp] theorem mem_otherThanVolume {key : DataKey} :
    key ∈ otherThanVolume ↔ key.isVolume = false := Iff.rfl

/-- The volume of a source in an asset grows by an amount, and no other volume changes. -/
def Bridged (source asset : Address) (amount : Int) (w w' : World) : Prop :=
  ∀ source' asset', (w'.sourceBridgedVolume source' asset').val =
    (w.sourceBridgedVolume source' asset').val +
      if source = source' ∧ asset = asset' then amount else 0

/-- Successful runs bridge an amount. -/
abbrev Bridges (source asset : Address) (amount : Int) {α : Type} (body : Call α) : Prop :=
  Preserves (Bridged source asset amount) body

theorem Frame.volumes {moves : Prop} {w w' : World} (frame : Frame otherThanVolume moves w w')
    (source asset : Address) :
    w'.sourceBridgedVolume source asset = w.sourceBridgedVolume source asset := by
  rw [World.sourceBridgedVolume, World.sourceBridgedVolume, frame.store _ (by simp)]

section Bridges

variable {source asset : Address} {amount : Int}

theorem Bridges.after {α β : Type} {body : Call α} {rest : α → Call β}
    (touches : Touches otherThanVolume True body)
    (next : ∀ a, Bridges source asset amount (rest a)) :
    Bridges source asset amount (body >>= rest) := by
  refine Preserves.after (fun w t w' frame bridged source' asset' => ?_) touches next
  rw [bridged, frame.volumes]

theorem Bridges.before {α β : Type} {body : Call α} {rest : α → Call β}
    (first : Bridges source asset amount body)
    (touches : ∀ a, Touches otherThanVolume True (rest a)) :
    Bridges source asset amount (body >>= rest) := by
  refine Preserves.before (fun w t w' bridged frame source' asset' => ?_) first touches
  rw [frame.volumes, bridged]

theorem Bridges.nonReentrant {α : Type} {body : Call α}
    (inner : Bridges source asset amount body) :
    Bridges source asset amount (nonReentrant body) := by
  refine .after (.read _) fun _ => .after (.rejectIf _ _) fun _ => ?_
  refine .after (save_touches _ (by simp)) fun _ => inner.before fun _ => ?_
  exact .bind (remove_touches (by simp)) fun _ => .pure _

end Bridges

theorem incrementSourceBridgedVolume_bridges (source asset : Address) (amount : I128) :
    Bridges source asset amount.val (incrementSourceBridgedVolume source asset amount) := by
  intro w u w' ran source' asset'
  rw [incrementSourceBridgedVolume, run_read_bind] at ran
  obtain ⟨updated, adds, ran⟩ := run_ofExcept_bind_ok.mp ran
  obtain rfl := run_modify_ok.mp ran
  by_cases same : source = source' ∧ asset = asset'
  · obtain ⟨rfl, rfl⟩ := same
    rw [if_pos ⟨rfl, rfl⟩]
    simpa [World.sourceBridgedVolume] using safeAdd_ok.mp adds
  · have other : DataKey.sourceBridgedVolume source' asset' ≠ .sourceBridgedVolume source asset := by
      rintro ⟨⟩
      exact same ⟨rfl, rfl⟩
    simp [World.sourceBridgedVolume, other, same]

theorem fundCAddress_bridges (env : Env) (source target asset : Address) (amount : I128)
    (nonce deadline : Option UInt64) : Bridges source asset amount.val
      (fundCAddress env source target asset amount nonce deadline) := by
  refine .nonReentrant ?_
  repeat (refine .after ?_ fun _ => ?_; focus simp [Preserves.ofExcept, requireAuth_touches,
    readFeeBps_touches])
  refine Bridges.before (incrementSourceBridgedVolume_bridges ..) fun _ => ?_
  exact .bind (by simp) fun _ => publish_touches rfl

theorem fundCAddressWithReferral_bridges (env : Env) (source target asset : Address) (amount : I128)
    (referrer : Option Address) (nonce deadline : Option UInt64) : Bridges source asset amount.val
      (fundCAddressWithReferral env source target asset amount referrer nonce deadline) := by
  refine .nonReentrant ?_
  repeat (refine .after ?_ fun _ => ?_; focus simp [Preserves.ofExcept, requireAuth_touches,
    readFeeBps_touches])
  refine Bridges.before (incrementSourceBridgedVolume_bridges ..) fun _ => ?_
  exact .bind (by simp) fun _ => publish_touches rfl

end OnboardingBridge.Contract
