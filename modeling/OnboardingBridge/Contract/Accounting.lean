import OnboardingBridge.Contract.Footprints
import OnboardingBridge.Foundations.Custody

/-!
# The books of the bridge

The bridge is the custodian of one balance in every asset and earmarks it in
three buckets: accrued fees, timelocked deposits and the cross-chain reserve.
`World.books` reads the books off a world.

What a part of a call does to the books is a journal of movements, and a part
records a journal when every successful run of it changes the books by the sum
of the journal and makes exactly the token calls in it (`Records`). The rules
at the end take a run of an entry point apart and write its journal on the way.
-/

set_option autoImplicit false

namespace OnboardingBridge.Contract

open Foundations Foundations.Tx

/-! ## Buckets, books and movements -/

inductive Bucket where
  | accruedFees
  | lockedTimelock
  | crosschainReserve
deriving DecidableEq

instance : Fintype Bucket where
  elems := {.accruedFees, .lockedTimelock, .crosschainReserve}
  complete bucket := by cases bucket <;> simp

/-- The books of the bridge at its own address. -/
def World.books (w : World) (bridge : Address) : Books Address Bucket Int
  | .held, asset => (w.tokens.balance asset bridge).val
  | .earmarked .accruedFees, asset => (w.counters asset).accruedFees.val
  | .earmarked .lockedTimelock, asset => (w.counters asset).lockedTimelock.val
  | .earmarked .crosschainReserve, asset => (w.crosschainReserve asset).val

/-- The balance of the bridge in an asset less its three buckets. -/
def World.surplus (w : World) (bridge asset : Address) : Int :=
  (w.tokens.balance asset bridge).val - (w.counters asset).accruedFees.val
    - (w.counters asset).lockedTimelock.val - (w.crosschainReserve asset).val

theorem surplus_books (w : World) (bridge asset : Address) :
    Books.surplus (w.books bridge) asset = w.surplus bridge asset := by
  have buckets : (Finset.univ : Finset Bucket) =
      {.accruedFees, .lockedTimelock, .crosschainReserve} := rfl
  rw [Books.surplus_apply, buckets]
  simp [World.books, World.surplus]
  omega

/-- A change of the books of the bridge. -/
inductive Movement where
  /-- A call to a token contract. -/
  | token (call : TokenCall)
  /-- What a pool leaves the bridge with. -/
  | pool (gain : Address → Int)
  /-- An entry in a bucket. -/
  | earmark (bucket : Bucket) (asset : Address) (amount : Int)

namespace Movement

/-- The books that hold just one movement. -/
def change (bridge : Address) : Movement → Books Address Bucket Int
  | .token (.transfer asset src dst amount) | .token (.transferFrom asset _ src dst amount) =>
      Books.entry .held asset
        ((if dst = bridge then amount.val else 0) - (if src = bridge then amount.val else 0))
  | .pool gain => fun account asset => if account = .held then gain asset else 0
  | .earmark bucket asset amount => Books.entry (.earmarked bucket) asset amount

/-- The token call of a movement, if it is one. -/
def call? : Movement → Option TokenCall
  | .token call => some call
  | _ => none

/-- What a movement adds to the surplus of an asset. -/
def gain (bridge asset : Address) (movement : Movement) : Int :=
  Books.surplus (movement.change bridge) asset

section Gain

variable (bridge asset : Address)

@[simp] theorem gain_transfer (asset' src dst : Address) (amount : I128) :
    gain bridge asset (.token (.transfer asset' src dst amount)) =
      if asset = asset' then
        (if dst = bridge then amount.val else 0) - (if src = bridge then amount.val else 0)
      else 0 := by
  rw [gain, change, Books.surplus_entry_held]

@[simp] theorem gain_transferFrom (asset' spender src dst : Address) (amount : I128) :
    gain bridge asset (.token (.transferFrom asset' spender src dst amount)) =
      if asset = asset' then
        (if dst = bridge then amount.val else 0) - (if src = bridge then amount.val else 0)
      else 0 := by
  rw [gain, change, Books.surplus_entry_held]

@[simp] theorem gain_pool (gained : Address → Int) :
    gain bridge asset (.pool gained) = gained asset := by
  simp [gain, change, Books.surplus_apply]

@[simp] theorem gain_earmark (bucket : Bucket) (asset' : Address) (amount : Int) :
    gain bridge asset (.earmark bucket asset' amount) = if asset = asset' then -amount else 0 := by
  rw [gain, change, Books.surplus_entry_earmarked]

end Gain

/-- What a movement adds to a bucket. -/
def earmarks (bucket : Bucket) (asset : Address) : Movement → Int
  | .earmark bucket' asset' amount => if bucket = bucket' ∧ asset = asset' then amount else 0
  | _ => 0

theorem change_earmarked (bridge : Address) (movement : Movement) (bucket : Bucket)
    (asset : Address) :
    movement.change bridge (.earmarked bucket) asset = movement.earmarks bucket asset := by
  cases movement with
  | token call => cases call <;> simp [change, Books.entry, earmarks]
  | pool gain => simp [change, earmarks]
  | earmark bucket' asset' amount => simp [change, Books.entry, earmarks]

end Movement

/-! ## Keys by their use -/

/-- Whether a funding call keeps a record under a key. -/
abbrev DataKey.isRecord : DataKey → Bool
  | .nonce _ | .dailyUsage .. | .userDeposit .. | .sourceBridgedVolume .. | .timelockId
  | .timelock _ | .commitmentId | .commitment _ | .crossChainNonce _ | .metaTxNonce ..
  | .entered => true
  | _ => false

/-- Whether a key holds a part of the three buckets. -/
abbrev DataKey.isCounter : DataKey → Bool
  | .assetStats _ | .crossChainReserve _ => true
  | _ => false

def recordKeys : Set DataKey := {key | key.isRecord = true}

@[simp] theorem mem_recordKeys {key : DataKey} : key ∈ recordKeys ↔ key.isRecord = true :=
  Iff.rfl

/-- A part of a call that keeps records at most: it moves no tokens, and leaves
the buckets and the settings alone. -/
abbrev Silent {α : Type} (body : Call α) : Prop := Touches recordKeys False body

/-! ## Journals -/

/-- Between the two worlds lie the movements of a journal. -/
structure Recorded (bridge : Address) (journal : List Movement) (w w' : World) : Prop where
  books : w'.books bridge = w.books bridge + (journal.map (Movement.change bridge)).sum
  invocations : w'.invocations = w.invocations ++ journal.filterMap Movement.call?
  settings : ∀ key, key.isRecord = false → key.isCounter = false → w'.store key = w.store key
  loyaltySkips : w'.loyaltySkips = w.loyaltySkips
  nonneg : ∀ call ∈ journal.filterMap Movement.call?, 0 ≤ call.amount.val

/-- Every successful run of a part of a call records the journal. -/
abbrev Records (bridge : Address) (journal : List Movement) {α : Type} (body : Call α) : Prop :=
  Preserves (Recorded bridge journal) body

namespace Recorded

variable {bridge : Address} {journal later : List Movement} {w w' w'' : World}

theorem refl (bridge : Address) (w : World) : Recorded bridge [] w w :=
  ⟨by simp, by simp, fun _ _ _ => rfl, rfl, by simp⟩

theorem trans (first : Recorded bridge journal w w') (second : Recorded bridge later w' w'') :
    Recorded bridge (journal ++ later) w w'' where
  books := by
    rw [second.books, first.books, List.map_append, List.sum_append, add_assoc]
  invocations := by
    rw [second.invocations, first.invocations, List.filterMap_append, List.append_assoc]
  settings key record counter :=
    (second.settings key record counter).trans (first.settings key record counter)
  loyaltySkips := second.loyaltySkips.trans first.loyaltySkips
  nonneg := by
    rw [List.filterMap_append]
    exact List.forall_mem_append.mpr ⟨first.nonneg, second.nonneg⟩

/-- Keeping records moves nothing. -/
theorem of_frame (frame : Frame recordKeys False w w') : Recorded bridge [] w w' where
  books := by
    have counters (asset : Address) : w'.counters asset = w.counters asset := by
      rw [World.counters, World.counters, frame.store _ (by simp)]
    have reserve (asset : Address) : w'.crosschainReserve asset = w.crosschainReserve asset := by
      rw [World.crosschainReserve, World.crosschainReserve, frame.store _ (by simp)]
    funext account asset
    cases account with
    | held => simp [World.books, frame.tokens]
    | earmarked bucket => cases bucket <;> simp [World.books, counters, reserve]
  invocations := by simp [frame.invocations]
  settings key record _ := frame.store key (by simp [record])
  loyaltySkips := frame.loyaltySkips id
  nonneg := by simp

/-- The surplus moves by what the movements add to it. -/
theorem surplus (recorded : Recorded bridge journal w w') (asset : Address) :
    w'.surplus bridge asset =
      w.surplus bridge asset + (journal.map (Movement.gain bridge asset)).sum := by
  rw [← surplus_books, ← surplus_books, recorded.books, Books.surplus_add_sum, List.map_map]
  rfl

/-- A bucket moves by what the movements earmark in it. -/
theorem earmarked (recorded : Recorded bridge journal w w') (bucket : Bucket) (asset : Address) :
    w'.books bridge (.earmarked bucket) asset = w.books bridge (.earmarked bucket) asset +
      (journal.map (Movement.earmarks bucket asset)).sum := by
  rw [recorded.books, Pi.add_apply, Pi.add_apply, Pi.list_sum_apply, Pi.list_sum_apply,
    List.map_map, List.map_map]
  simp only [Function.comp_def, Movement.change_earmarked]

/-- A part of a call that keeps records at most adds nothing to the journal. -/
theorem skip {α β : Type} {body : Call α} {rest : α → Call β} {b : β} {goal : Prop}
    (sofar : Recorded bridge journal w w') (ran : (body >>= rest).run w' = .ok (b, w''))
    (silent : Silent body)
    (next : ∀ a t, Recorded bridge journal w t → (rest a).run t = .ok (b, w'') → goal) : goal := by
  obtain ⟨a, t, first, ran⟩ := run_bind_ok.mp ran
  exact next a t (by simpa using sofar.trans (of_frame (silent first))) ran

/-- The same, for a part whose run is used later. -/
theorem keep {α β : Type} {body : Call α} {rest : α → Call β} {b : β}
    (sofar : Recorded bridge journal w w') (silent : Silent body)
    (ran : (body >>= rest).run w' = .ok (b, w'')) :
    ∃ a t, Recorded bridge journal w t ∧ body.run w' = .ok (a, t) ∧
      (rest a).run t = .ok (b, w'') := by
  obtain ⟨a, t, first, ran⟩ := run_bind_ok.mp ran
  exact ⟨a, t, by simpa using sofar.trans (of_frame (silent first)), first, ran⟩

/-- A part of a call adds the journal it records. -/
theorem step {α β : Type} {body : Call α} {rest : α → Call β} {b : β}
    (sofar : Recorded bridge journal w w') (records : Records bridge later body)
    (ran : (body >>= rest).run w' = .ok (b, w'')) :
    ∃ a t, Recorded bridge (journal ++ later) w t ∧ body.run w' = .ok (a, t) ∧
      (rest a).run t = .ok (b, w'') := by
  obtain ⟨a, t, first, ran⟩ := run_bind_ok.mp ran
  exact ⟨a, t, sofar.trans (records first), first, ran⟩

end Recorded

/-! ## What the helpers record -/

section Helpers

variable {bridge : Address}

theorem Records.onlyIf {condition : Prop} [Decidable condition] {journal : List Movement}
    {body : Call Unit} (records : Records bridge journal body) :
    Records bridge (if condition then journal else []) (onlyIf condition body) := by
  intro w _ w' ran
  rcases run_onlyIf_ok.mp ran with ⟨holds, ran⟩ | ⟨fails, rfl⟩
  · rw [if_pos holds]
    exact records ran
  · rw [if_neg fails]
    exact .refl _ _

/-- Settling a movement of tokens records it. -/
theorem settle_recorded {w : World} {ledger moved : TokenLedger} {call : TokenCall}
    {asset src dst : Address} {amount : I128} (balances : ledger.balance = w.tokens.balance)
    (moves : ledger.move asset src dst amount = some moved) (moving : call.amount = amount)
    (change : Movement.change bridge (.token call) = Books.entry .held asset
      ((if dst = bridge then amount.val else 0) - (if src = bridge then amount.val else 0))) :
    Recorded bridge [.token call] w (w.settle moved call) where
  books := by
    obtain ⟨-, -, -, after⟩ := TokenLedger.move_eq_some moves
    funext account asset'
    simp only [List.map_cons, List.map_nil, List.sum_cons, List.sum_nil, add_zero, change]
    cases account with
    | earmarked bucket =>
      cases bucket <;> simp [World.books, Books.entry, World.counters, World.crosschainReserve]
    | held =>
      simp only [World.books, World.settle_tokens, Pi.add_apply, Books.entry, true_and]
      rw [after asset' bridge, balances]
      simp only [@eq_comm _ bridge dst, @eq_comm _ bridge src]
      by_cases same : asset' = asset
      · simp only [same, true_and, if_true]
        omega
      · simp [same]
  invocations := by simp [Movement.call?]
  settings _ _ _ := rfl
  loyaltySkips := rfl
  nonneg := by
    simpa [Movement.call?, moving] using (TokenLedger.move_eq_some moves).1

theorem transfer_records (env : Env) (asset src dst : Address) (amount : I128) :
    Records bridge [.token (.transfer asset src dst amount)]
      (transfer env asset src dst amount) := by
  intro w _ w' ran
  obtain ⟨moved, moves, rfl⟩ := transfer_ok ran
  exact settle_recorded rfl moves rfl rfl

theorem transferFrom_records (env : Env) (asset src dst : Address) (amount : I128) :
    Records bridge [.token (.transferFrom asset env.self src dst amount)]
      (transferFrom env asset src dst amount) := by
  intro w _ w' ran
  obtain ⟨allowance, moved, -, -, moves, rfl⟩ := transferFrom_ok ran
  exact settle_recorded (by rfl) moves rfl rfl

/-- What storing other counters of an asset does to the books. -/
theorem books_put_counters (w : World) (asset : Address) (counters : AssetCounters) :
    (w.put (.assetStats asset) counters).books bridge = w.books bridge
      + (Books.entry (.earmarked .accruedFees) asset
          (counters.accruedFees.val - (w.counters asset).accruedFees.val)
        + Books.entry (.earmarked .lockedTimelock) asset
          (counters.lockedTimelock.val - (w.counters asset).lockedTimelock.val)) := by
  funext account asset'
  by_cases same : asset' = asset
  · subst same
    cases account with
    | held => simp [World.books, Books.entry]
    | earmarked bucket =>
      cases bucket <;> simp [World.books, Books.entry, World.counters, World.crosschainReserve]
  · cases account with
    | held => simp [World.books, Books.entry]
    | earmarked bucket =>
      cases bucket <;>
        simp [World.books, Books.entry, World.counters, World.crosschainReserve, same]

theorem updateAssetCountersSplit_records (asset : Address) (accruedFees totalFees bridged : I128) :
    Records bridge [.earmark .accruedFees asset accruedFees.val]
      (updateAssetCountersSplit asset accruedFees totalFees bridged) := by
  intro w _ w' ran
  simp only [updateAssetCountersSplit, save, run_bind_ok, run_read_ok, run_ofExcept_ok,
    run_modify_ok] at ran
  obtain ⟨_, _, ⟨rfl, rfl⟩, accrued, _, ⟨accruedSum, rfl⟩, total, _, ⟨-, rfl⟩, fees, _,
    ⟨-, rfl⟩, rfl⟩ := ran
  refine ⟨?_, by simp [Movement.call?], fun key _ counter => ?_, rfl, by simp [Movement.call?]⟩
  · rw [books_put_counters, safeAdd_ok.mp accruedSum]
    simp [Movement.change]
  · have other : key ≠ .assetStats asset := by
      rintro rfl
      simp at counter
    simp [other]

theorem updateAssetCounters_records (asset : Address) (fees bridged : I128) :
    Records bridge [.earmark .accruedFees asset fees.val]
      (updateAssetCounters asset fees bridged) :=
  updateAssetCountersSplit_records asset fees fees bridged

theorem decrementAccruedFees_records (asset : Address) (amount : I128) :
    Records bridge [.earmark .accruedFees asset (-amount.val)]
      (decrementAccruedFees asset amount) := by
  intro w _ w' ran
  simp only [decrementAccruedFees, save, run_bind_ok, run_read_ok, run_ofExcept_ok,
    run_modify_ok] at ran
  obtain ⟨_, _, ⟨rfl, rfl⟩, accrued, _, ⟨difference, rfl⟩, rfl⟩ := ran
  refine ⟨?_, by simp [Movement.call?], fun key _ counter => ?_, rfl, by simp [Movement.call?]⟩
  · rw [books_put_counters, safeSub_ok.mp difference]
    simp [Movement.change]
  · have other : key ≠ .assetStats asset := by
      rintro rfl
      simp at counter
    simp [other]

theorem incrementLockedTimelock_records (asset : Address) (amount : I128) :
    Records bridge [.earmark .lockedTimelock asset amount.val]
      (incrementLockedTimelock asset amount) := by
  intro w _ w' ran
  simp only [incrementLockedTimelock, save, run_bind_ok, run_read_ok, run_ofExcept_ok,
    run_modify_ok] at ran
  obtain ⟨_, _, ⟨rfl, rfl⟩, locked, _, ⟨sum, rfl⟩, rfl⟩ := ran
  refine ⟨?_, by simp [Movement.call?], fun key _ counter => ?_, rfl, by simp [Movement.call?]⟩
  · rw [books_put_counters, safeAdd_ok.mp sum]
    simp [Movement.change]
  · have other : key ≠ .assetStats asset := by
      rintro rfl
      simp at counter
    simp [other]

theorem decrementLockedTimelock_records (asset : Address) (amount : I128) :
    Records bridge [.earmark .lockedTimelock asset (-amount.val)]
      (decrementLockedTimelock asset amount) := by
  intro w _ w' ran
  simp only [decrementLockedTimelock, save, run_bind_ok, run_read_ok, run_ofExcept_ok,
    run_modify_ok] at ran
  obtain ⟨_, _, ⟨rfl, rfl⟩, locked, _, ⟨difference, rfl⟩, rfl⟩ := ran
  refine ⟨?_, by simp [Movement.call?], fun key _ counter => ?_, rfl, by simp [Movement.call?]⟩
  · rw [books_put_counters, safeSub_ok.mp difference]
    simp [Movement.change]
  · have other : key ≠ .assetStats asset := by
      rintro rfl
      simp at counter
    simp [other]

/-- What storing another reserve of an asset does to the books. -/
theorem reserve_recorded {w : World} {asset : Address} {reserve : I128} {amount : Int}
    (moved : reserve.val = (w.crosschainReserve asset).val + amount) :
    Recorded bridge [.earmark .crosschainReserve asset amount] w
      (w.put (.crossChainReserve asset) reserve) where
  books := by
    funext account asset'
    simp only [List.map_cons, List.map_nil, List.sum_cons, List.sum_nil, add_zero,
      Movement.change, Pi.add_apply]
    cases account with
    | held => simp [World.books, Books.entry]
    | earmarked bucket =>
      by_cases same : asset' = asset
      · subst same
        cases bucket <;>
          simp [World.books, Books.entry, World.counters, World.crosschainReserve] at moved ⊢
        exact moved
      · cases bucket <;>
          simp [World.books, Books.entry, World.counters, World.crosschainReserve, same]
  invocations := by simp [Movement.call?]
  settings key _ counter := by
    have other : key ≠ .crossChainReserve asset := by
      rintro rfl
      simp at counter
    simp [other]
  loyaltySkips := rfl
  nonneg := by simp [Movement.call?]

theorem incrementCrosschainReserve_records (asset : Address) (amount : I128) :
    Records bridge [.earmark .crosschainReserve asset amount.val]
      (incrementCrosschainReserve asset amount) := by
  intro w _ w' ran
  simp only [incrementCrosschainReserve, save, run_bind_ok, run_read_ok, run_ofExcept_ok,
    run_modify_ok] at ran
  obtain ⟨_, _, ⟨rfl, rfl⟩, increased, _, ⟨sum, rfl⟩, rfl⟩ := ran
  exact reserve_recorded (safeAdd_ok.mp sum)

theorem decrementCrosschainReserve_records (asset : Address) (amount : I128) :
    Records bridge [.earmark .crosschainReserve asset (-amount.val)]
      (decrementCrosschainReserve asset amount) := by
  intro w _ w' ran
  simp only [decrementCrosschainReserve, save, run_bind_ok, run_read_ok, run_rejectIf_ok,
    run_ofExcept_ok, run_modify_ok] at ran
  obtain ⟨_, _, ⟨rfl, rfl⟩, _, _, ⟨-, rfl⟩, decreased, _, ⟨difference, rfl⟩, rfl⟩ := ran
  exact reserve_recorded (safeSub_ok.mp difference)

/-- A withdrawal from the reserve is covered by it. -/
theorem decrementCrosschainReserve_covered {asset : Address} {amount : I128} {w w' : World}
    {u : Unit} (ran : (decrementCrosschainReserve asset amount).run w = .ok (u, w')) :
    amount.val ≤ (w.crosschainReserve asset).val := by
  simp only [decrementCrosschainReserve, run_bind_ok, run_read_ok, run_rejectIf_ok] at ran
  obtain ⟨_, _, ⟨rfl, rfl⟩, _, _, ⟨covered, -⟩, -⟩ := ran
  exact not_lt.mp covered

end Helpers

end OnboardingBridge.Contract
