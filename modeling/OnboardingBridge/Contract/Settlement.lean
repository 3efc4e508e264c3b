import OnboardingBridge.Contract.Accounting
import OnboardingBridge.Contract.Views

/-!
# Settlements

Each call that moves tokens settles: it records a journal, then perhaps pays a
loyalty reward, and then moves nothing more (`Settled`). The tally of the journal
says how far the call moves the surplus beyond what it pays the bridge itself,
and how far it moves the timelock and reserve buckets.

This module has the notions and the rules that take a call apart; the calls
follow in `FundingSettlement`.
-/

set_option autoImplicit false

namespace OnboardingBridge.Contract

open Foundations Foundations.Tx

/-! ## Payments of the bridge to itself -/

/-- What a token call pays from the bridge to itself in an asset. -/
def selfPaid (bridge asset : Address) : TokenCall → Int
  | .transfer asset' src dst amount =>
      if asset = asset' ∧ src = bridge ∧ dst = bridge then amount.val else 0
  | .transferFrom .. => 0

/-- What a list of token calls pays from the bridge to itself in an asset. -/
def ownPayments (bridge asset : Address) (calls : List TokenCall) : Int :=
  (calls.map (selfPaid bridge asset)).sum

namespace Movement

/-- What a movement adds to the surplus beyond what it pays the bridge itself. -/
def margin (bridge asset : Address) (movement : Movement) : Int :=
  movement.gain bridge asset - ownPayments bridge asset movement.call?.toList

section Margin

variable {bridge : Address} (asset : Address)

@[simp] theorem margin_pay (asset' dst : Address) (amount : I128) :
    margin bridge asset (.token (.transfer asset' bridge dst amount)) =
      if asset = asset' then -amount.val else 0 := by
  by_cases same : asset = asset'
  · by_cases own : dst = bridge
    · simp [margin, call?, ownPayments, selfPaid, same, own]
    · simp [margin, call?, ownPayments, selfPaid, same, own]
  · simp [margin, call?, ownPayments, selfPaid, same]

@[simp] theorem margin_receive (asset' : Address) {src : Address} (amount : I128)
    (other : src ≠ bridge) : margin bridge asset (.token (.transfer asset' src bridge amount)) =
      if asset = asset' then amount.val else 0 := by
  simp [margin, call?, ownPayments, selfPaid, other]

@[simp] theorem margin_receiveFrom (asset' spender : Address) {src : Address} (amount : I128)
    (other : src ≠ bridge) :
    margin bridge asset (.token (.transferFrom asset' spender src bridge amount)) =
      if asset = asset' then amount.val else 0 := by
  simp [margin, call?, ownPayments, selfPaid, other]

@[simp] theorem margin_pool (gained : Address → Int) :
    margin bridge asset (.pool gained) = gained asset := by
  simp [margin, call?, ownPayments]

@[simp] theorem margin_earmark (bucket : Bucket) (asset' : Address) (amount : Int) :
    margin bridge asset (.earmark bucket asset' amount) =
      if asset = asset' then -amount else 0 := by
  simp [margin, call?, ownPayments]

@[simp] theorem earmarks_token (bucket : Bucket) (call : TokenCall) :
    earmarks bucket asset (.token call) = 0 := rfl

@[simp] theorem earmarks_pool (bucket : Bucket) (gained : Address → Int) :
    earmarks bucket asset (.pool gained) = 0 := rfl

@[simp] theorem earmarks_earmark (bucket bucket' : Bucket) (asset' : Address) (amount : Int) :
    earmarks bucket asset (.earmark bucket' asset' amount) =
      if bucket = bucket' ∧ asset = asset' then amount else 0 := rfl

end Margin

/-- Whom the bridge pays by a movement, after the asset it is paid in. -/
def payee? (bridge : Address) : Movement → Option (Address × Address)
  | .token (.transfer asset src dst _) => if src = bridge then some (asset, dst) else none
  | _ => none

section Payee

variable {bridge : Address}

@[simp] theorem payee?_transfer (asset src dst : Address) (amount : I128) :
    payee? bridge (.token (.transfer asset src dst amount)) =
      if src = bridge then some (asset, dst) else none := rfl

@[simp] theorem payee?_transferFrom (asset spender src dst : Address) (amount : I128) :
    payee? bridge (.token (.transferFrom asset spender src dst amount)) = none := rfl

@[simp] theorem payee?_pool (gained : Address → Int) : payee? bridge (.pool gained) = none := rfl

@[simp] theorem payee?_earmark (bucket : Bucket) (asset : Address) (amount : Int) :
    payee? bridge (.earmark bucket asset amount) = none := rfl

end Payee

end Movement

/-- The surplus moves by the margins of the movements and by what the bridge is
paid by itself. -/
theorem Recorded.surplus_margin {bridge : Address} {journal : List Movement} {w w' : World}
    (recorded : Recorded bridge journal w w') (asset : Address) :
    w'.surplus bridge asset = w.surplus bridge asset
      + (journal.map (Movement.margin bridge asset)).sum
      + ownPayments bridge asset (journal.filterMap Movement.call?) := by
  rw [recorded.surplus, add_assoc]
  congr 1
  clear recorded
  induction journal with
  | nil => simp [ownPayments]
  | cons movement rest ih =>
      have calls : ownPayments bridge asset ((movement :: rest).filterMap Movement.call?) =
          ownPayments bridge asset movement.call?.toList
            + ownPayments bridge asset (rest.filterMap Movement.call?) := by
        cases movement <;> simp [ownPayments, List.filterMap_cons, Movement.call?]
      rw [List.map_cons, List.map_cons, List.sum_cons, List.sum_cons, ih, calls, Movement.margin]
      omega

/-! ## Settlements -/

/-- By a journal the bridge pays nobody but the payees, each in its asset. -/
def PaysOnly (bridge : Address) (payees : List (Address × Address)) (journal : List Movement) :
    Prop :=
  ∀ movement ∈ journal, ∀ payee, movement.payee? bridge = some payee → payee ∈ payees

section PaysOnly

variable {bridge : Address} {payees : List (Address × Address)} {journal later : List Movement}

@[simp] theorem paysOnly_nil : PaysOnly bridge payees [] := by
  simp [PaysOnly]

@[simp] theorem paysOnly_cons {movement : Movement} :
    PaysOnly bridge payees (movement :: journal) ↔
      (∀ payee, movement.payee? bridge = some payee → payee ∈ payees) ∧
        PaysOnly bridge payees journal :=
  List.forall_mem_cons

@[simp] theorem paysOnly_append : PaysOnly bridge payees (journal ++ later) ↔
    PaysOnly bridge payees journal ∧ PaysOnly bridge payees later :=
  List.forall_mem_append

theorem PaysOnly.mono {more : List (Address × Address)} (pays : PaysOnly bridge payees journal)
    (included : payees ⊆ more) : PaysOnly bridge more journal :=
  fun movement member payee paid => included (pays movement member payee paid)

end PaysOnly

/-- An amount in one asset and nothing in the others. -/
def inAsset (asset : Address) (amount : Int) (asset' : Address) : Int :=
  if asset' = asset then amount else 0

theorem inAsset_neg (asset : Address) (amount : Int) :
    inAsset asset (-amount) = -inAsset asset amount := by
  funext asset'
  simp only [inAsset, Pi.neg_apply]
  split <;> simp

/-- The sums of a journal, its margin and its entries in two of the buckets, and
whom it pays. -/
structure Tally (bridge : Address) (journal : List Movement) (payees : List (Address × Address))
    (margin locked reserve : Address → Int) : Prop where
  payees : PaysOnly bridge payees journal
  margin : ∀ asset, (journal.map (Movement.margin bridge asset)).sum = margin asset
  locked : ∀ asset, (journal.map (Movement.earmarks .lockedTimelock asset)).sum = locked asset
  reserve : ∀ asset,
    (journal.map (Movement.earmarks .crosschainReserve asset)).sum = reserve asset

/-- The reward step of a call: a recipient's reward is worked out and perhaps
paid, or there is no such step. -/
def Rewarded (env : Env) : (recipient : Option Address) → World → World → Prop
  | some recipient, w, w' => (mintLoyaltyTokens env recipient).run w = .ok ((), w')
  | none, w, w' => w' = w

/-- A call records a journal with the given tally, then takes the reward step,
and then moves nothing more. -/
def Settled (env : Env) (recipient : Option Address) (payees : List (Address × Address))
    (margin locked reserve : Address → Int) (w w' : World) : Prop :=
  ∃ journal settled rewarded, Recorded env.self journal w settled ∧
    Tally env.self journal payees margin locked reserve ∧
    Rewarded env recipient settled rewarded ∧ Recorded env.self [] rewarded w'

/-- What pays only others in an asset pays the bridge itself nothing in it. -/
theorem Tally.ownPayments {bridge : Address} {journal : List Movement}
    {payees : List (Address × Address)} {margin locked reserve : Address → Int}
    (tally : Tally bridge journal payees margin locked reserve) (asset : Address)
    (others : (asset, bridge) ∉ payees) :
    ownPayments bridge asset (journal.filterMap Movement.call?) = 0 := by
  refine List.sum_eq_zero fun paid member => ?_
  obtain ⟨call, called, rfl⟩ := List.mem_map.mp member
  obtain ⟨movement, recorded, same⟩ := List.mem_filterMap.mp called
  have other := tally.payees movement recorded (asset, bridge)
  cases movement with
  | token call' =>
    obtain rfl : call' = call := by simpa [Movement.call?] using same
    cases call' with
    | transfer asset' src dst amount =>
      refine if_neg fun own => others (other ?_)
      simp [own]
    | transferFrom => rfl
  | pool => simp [Movement.call?] at same
  | earmark => simp [Movement.call?] at same

/-! ## Payments out of the bridge -/

/-- The movements of a payment that is made only when it is positive. -/
def payout (bridge asset dst : Address) (amount : I128) : List Movement :=
  if 0 < amount.val then [.token (.transfer asset bridge dst amount)] else []

theorem payout_records (env : Env) (asset dst : Address) (amount : I128) :
    Records env.self (payout env.self asset dst amount)
      (onlyIf (0 < amount.val) (transfer env asset env.self dst amount)) :=
  (transfer_records ..).onlyIf

theorem payout_margin {bridge asset dst : Address} {amount : I128} (nonneg : 0 ≤ amount.val)
    (asset' : Address) : ((payout bridge asset dst amount).map (Movement.margin bridge asset')).sum =
      if asset' = asset then -amount.val else 0 := by
  unfold payout
  split
  · simp
  · have zero : amount.val = 0 := by omega
    simp [zero]

@[simp] theorem paysOnly_payout {bridge asset dst : Address} {amount : I128}
    {payees : List (Address × Address)} :
    PaysOnly bridge payees (payout bridge asset dst amount) ↔
      (0 < amount.val → (asset, dst) ∈ payees) := by
  unfold payout
  split
  · next positive => simp [positive]
  · next none => simp [none]

@[simp] theorem payout_earmarks {bridge asset dst : Address} {amount : I128} (bucket : Bucket)
    (asset' : Address) :
    ((payout bridge asset dst amount).map (Movement.earmarks bucket asset')).sum = 0 := by
  unfold payout
  split <;> simp

/-- The bridge can pay an amount: the token does not refuse the payment, and the
ledger lets it through. -/
def World.Payable (w : World) (env : Env) (asset dst : Address) (amount : I128) : Prop :=
  env.refuses (.transfer asset env.self dst amount) = false ∧
    ∃ moved, w.tokens.move asset env.self dst amount = some moved

/-- A payment of the bridge needs no authorisation. -/
theorem pay_ok {env : Env} {asset dst : Address} {amount : I128} {w w' : World} {u : Unit} :
    (transfer env asset env.self dst amount).run w = .ok (u, w') ↔
      env.refuses (.transfer asset env.self dst amount) = false ∧
        ∃ moved, w.tokens.move asset env.self dst amount = some moved ∧
          w' = w.settle moved (.transfer asset env.self dst amount) := by
  simp only [transfer, run_rejectIf_bind_ok, run_read_bind, run_ofOption_bind_ok, run_modify_ok,
    ne_eq, not_true_eq_false, false_and, not_false_eq_true, true_and, Bool.not_eq_true]

/-- The ledgers a payment leaves when it is made only if it is positive. -/
def TokenLedger.PaysOut (tokens : TokenLedger) (env : Env) (asset dst : Address) (amount : I128)
    (paid : TokenLedger) : Prop :=
  if 0 < amount.val then
    env.refuses (.transfer asset env.self dst amount) = false ∧
      tokens.move asset env.self dst amount = some paid
  else paid = tokens

theorem payout_ok {env : Env} {asset dst : Address} {amount : I128} {w w' : World} {u : Unit} :
    (onlyIf (0 < amount.val) (transfer env asset env.self dst amount)).run w = .ok (u, w') ↔
      ∃ paid, w.tokens.PaysOut env asset dst amount paid ∧
        w' = if 0 < amount.val then w.settle paid (.transfer asset env.self dst amount)
          else w := by
  rw [run_onlyIf_ok]
  unfold TokenLedger.PaysOut
  by_cases positive : 0 < amount.val
  · simp only [positive, true_and, not_true_eq_false, false_and, or_false, pay_ok, if_true]
    constructor
    · rintro ⟨accepts, moved, moves, rfl⟩
      exact ⟨moved, ⟨accepts, moves⟩, rfl⟩
    · rintro ⟨moved, ⟨accepts, moves⟩, rfl⟩
      exact ⟨accepts, moved, moves, rfl⟩
  · simp [positive]

/-- Such a payment changes the ledgers and not the storage. -/
theorem payout_leaves {env : Env} {asset dst : Address} {amount : I128} {w w' : World} {u : Unit}
    (ran : (onlyIf (0 < amount.val) (transfer env asset env.self dst amount)).run w
      = .ok (u, w')) :
    w'.store = w.store ∧ w.tokens.PaysOut env asset dst amount w'.tokens := by
  obtain ⟨paid, pays, rfl⟩ := payout_ok.mp ran
  by_cases positive : 0 < amount.val
  · rw [if_pos positive]
    exact ⟨rfl, pays⟩
  · rw [if_neg positive]
    refine ⟨rfl, ?_⟩
    rw [TokenLedger.PaysOut, if_neg positive]

/-- A payment that its ledgers allow is made. -/
theorem TokenLedger.PaysOut.made {env : Env} {asset dst : Address} {amount : I128} {w : World}
    {paid : TokenLedger} (pays : w.tokens.PaysOut env asset dst amount paid) :
    ∃ w', (onlyIf (0 < amount.val) (transfer env asset env.self dst amount)).run w = .ok ((), w') ∧
      w'.store = w.store ∧ w'.tokens = paid := by
  obtain ⟨w', ran⟩ : ∃ w', (onlyIf (0 < amount.val) (transfer env asset env.self dst amount)).run w
    = .ok ((), w') := ⟨_, payout_ok.mpr ⟨paid, pays, rfl⟩⟩
  obtain ⟨store, pays'⟩ := payout_leaves ran
  refine ⟨w', ran, store, ?_⟩
  by_cases positive : 0 < amount.val
  · simp only [TokenLedger.PaysOut, positive, if_true] at pays pays'
    exact Option.some.inj (pays'.2.symm.trans pays.2)
  · simp only [TokenLedger.PaysOut, positive, if_false] at pays pays'
    rw [pays', pays]

/-- A transfer is never of a negative amount. -/
theorem transfer_nonneg {env : Env} {asset src dst : Address} {amount : I128} {w w' : World}
    {u : Unit} (ran : (transfer env asset src dst amount).run w = .ok (u, w')) :
    0 ≤ amount.val := by
  obtain ⟨moved, moves, -⟩ := transfer_ok ran
  exact (TokenLedger.move_eq_some moves).1

/-- Neither is a `transfer_from`. -/
theorem transferFrom_nonneg {env : Env} {asset src dst : Address} {amount : I128} {w w' : World}
    {u : Unit} (ran : (transferFrom env asset src dst amount).run w = .ok (u, w')) :
    0 ≤ amount.val := by
  obtain ⟨_, moved, -, -, moves, -⟩ := transferFrom_ok ran
  exact (TokenLedger.move_eq_some moves).1

/-! ## Taking calls apart -/

theorem requireAuth_bind_ok {env : Env} {address : Address} {β : Type} {rest : Unit → Call β}
    {w w' : World} {b : β} :
    (requireAuth env address >>= rest).run w = .ok (b, w') ↔
      env.authorizes address = true ∧ (rest ()).run w = .ok (b, w') := by
  rw [requireAuth, run_rejectIf_bind_ok, Bool.not_eq_false]

/-- Whoever authorised a call is not the bridge. -/
theorem ne_self_of_authorizes {env : Env} {address : Address}
    (authorized : env.authorizes address = true) : address ≠ env.self := by
  rintro rfl
  have refused := env.self_unauthorized
  rw [Env.self] at authorized
  rw [refused] at authorized
  exact Bool.false_ne_true authorized

/-- A guarded call finds the re-entrancy flag clear, sets it, runs its body and
removes the flag. -/
theorem nonReentrant_ok_iff {α : Type} {body : Call α} {w w' : World} {a : α} :
    (nonReentrant body).run w = .ok (a, w') ↔ (w.store .entered).getD false = false ∧
      ∃ mid, body.run (w.put .entered true) = .ok (a, mid) ∧ w' = mid.erase .entered := by
  rw [nonReentrant, run_read_bind, run_rejectIf_bind_ok, Bool.not_eq_true, save, run_modify_bind,
    run_bind_ok]
  refine and_congr_right fun _ => ?_
  constructor
  · rintro ⟨result, mid, ran, left⟩
    rw [remove, run_modify_bind, run_pure_ok] at left
    obtain ⟨rfl, rfl⟩ := left
    exact ⟨mid, ran, rfl⟩
  · rintro ⟨mid, ran, rfl⟩
    exact ⟨a, mid, ran, rfl⟩

theorem nonReentrant_ok {α : Type} {body : Call α} {w w' : World} {a : α}
    (ran : (nonReentrant body).run w = .ok (a, w')) :
    ∃ mid, body.run (w.put .entered true) = .ok (a, mid) ∧ w' = mid.erase .entered :=
  (nonReentrant_ok_iff.mp ran).2

theorem enter_recorded (bridge : Address) (w : World) :
    Recorded bridge [] w (w.put .entered true) := by
  have silent : Silent (save .entered true) := save_touches _ (by simp)
  exact .of_frame (silent rfl)

theorem leave_recorded (bridge : Address) (w : World) :
    Recorded bridge [] w (w.erase .entered) := by
  have silent : Silent (remove .entered) := remove_touches (by simp)
  exact .of_frame (silent rfl)

/-! ## Views that only look at settings -/

section Settings

variable {bridge : Address} {journal : List Movement} {w w' : World}
  (recorded : Recorded bridge journal w w')

include recorded

theorem Recorded.bridgeConfig? : w'.bridgeConfig? = w.bridgeConfig? := by
  unfold World.bridgeConfig?
  rw [recorded.settings .bridgeConfig rfl rfl, recorded.settings .admin rfl rfl,
    recorded.settings .feeCollector rfl rfl, recorded.settings .feeBps rfl rfl]

theorem Recorded.admin? : w'.admin? = w.admin? := by
  rw [World.admin?, World.admin?, recorded.settings .bridgeConfig rfl rfl,
    recorded.settings .admin rfl rfl]

theorem Recorded.feeCollector? : w'.feeCollector? = w.feeCollector? := by
  rw [World.feeCollector?, World.feeCollector?, recorded.settings .bridgeConfig rfl rfl,
    recorded.settings .feeCollector rfl rfl]

theorem Recorded.initialized : w'.initialized = w.initialized := by
  rw [World.initialized, World.initialized, World.has, recorded.settings .initialized rfl rfl]
  rfl

theorem Recorded.deactivated : w'.deactivated = w.deactivated := by
  rw [World.deactivated, World.deactivated, World.has, recorded.settings .deactivated rfl rfl]
  rfl

theorem Recorded.running : w'.running ↔ w.running := by
  rw [World.running, World.running, recorded.deactivated, recorded.bridgeConfig?]

theorem Recorded.recoveryAllowed : w'.recoveryAllowed ↔ w.recoveryAllowed := by
  rw [World.recoveryAllowed, World.recoveryAllowed, recorded.deactivated, recorded.bridgeConfig?]

theorem Recorded.feesBounded (bounded : w.FeesBounded) : w'.FeesBounded where
  config := by
    rw [recorded.settings _ rfl rfl]
    exact bounded.config
  legacy := by
    rw [recorded.settings _ rfl rfl]
    exact bounded.legacy

theorem Recorded.feeOf (asset : Address) (amount : I128) :
    w'.feeOf asset amount = w.feeOf asset amount := by
  unfold World.feeOf World.effectiveFeeBps World.assetFeeCap
  rw [recorded.settings (.assetFeeCap asset) rfl rfl, recorded.bridgeConfig?]

theorem Recorded.minimumAmount : w'.minimumAmount = w.minimumAmount := by
  rw [World.minimumAmount, World.minimumAmount, recorded.settings .minimumAmount rfl rfl]

theorem Recorded.admits (target : Address) : w'.admits target = w.admits target := by
  unfold World.admits World.isBlocked World.isAllowlisted
  rw [recorded.settings (.blocked target) rfl rfl, recorded.settings (.allowlisted target) rfl rfl,
    recorded.bridgeConfig?]

theorem Recorded.isAssetWhitelisted (asset : Address) :
    w'.isAssetWhitelisted asset = w.isAssetWhitelisted asset := by
  rw [World.isAssetWhitelisted, World.isAssetWhitelisted,
    recorded.settings .assetWhitelist rfl rfl]

theorem Recorded.isPoolWhitelisted (pool : Address) :
    w'.isPoolWhitelisted pool = w.isPoolWhitelisted pool := by
  rw [World.isPoolWhitelisted, World.isPoolWhitelisted, recorded.settings .poolWhitelist rfl rfl]

theorem Recorded.isRelayer (pubkey : BytesN 32) : w'.isRelayer pubkey = w.isRelayer pubkey := by
  rw [World.isRelayer, World.isRelayer, recorded.settings (.relayer pubkey) rfl rfl]

theorem Recorded.relayerCount : w'.relayerCount = w.relayerCount := by
  rw [World.relayerCount, World.relayerCount, recorded.settings .relayerCount rfl rfl]

theorem Recorded.relayerThreshold : w'.relayerThreshold = w.relayerThreshold := by
  rw [World.relayerThreshold, World.relayerThreshold, recorded.settings .relayerThreshold rfl rfl]

end Settings

/-- What keeps records at most and then leaves the guard moves nothing. -/
theorem leave_silently {bridge : Address} {α : Type} {body : Call α} {w mid w' : World} {a : α}
    (left : w' = mid.erase .entered) (silent : Silent body) (ran : body.run w = .ok (a, mid)) :
    Recorded bridge [] w w' := by
  rw [left]
  exact (Recorded.of_frame (silent ran)).trans (leave_recorded bridge mid)

end OnboardingBridge.Contract
