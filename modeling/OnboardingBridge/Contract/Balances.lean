import OnboardingBridge.Contract.FundingEvents

/-!
# Balances and token calls

Every call but a swap moves the balances of all holders by exactly what its token calls
move between them.
-/

set_option autoImplicit false

namespace OnboardingBridge.Contract

open Foundations Foundations.Tx

/-- What a token call adds to the balance of a holder in an asset. -/
def TokenCall.delta (asset holder : Address) : TokenCall → Int
  | .transfer asset' src dst amount | .transferFrom asset' _ src dst amount =>
      (if asset = asset' ∧ holder = dst then amount.val else 0)
        - (if asset = asset' ∧ holder = src then amount.val else 0)

/-- What a list of token calls adds to it. -/
def deltas (asset holder : Address) (calls : List TokenCall) : Int :=
  (calls.map (TokenCall.delta asset holder)).sum

@[simp] theorem deltas_nil (asset holder : Address) : deltas asset holder [] = 0 := rfl

@[simp] theorem deltas_cons (asset holder : Address) (call : TokenCall) (calls : List TokenCall) :
    deltas asset holder (call :: calls) = call.delta asset holder + deltas asset holder calls :=
  List.sum_cons

@[simp] theorem deltas_append (asset holder : Address) (first second : List TokenCall) :
    deltas asset holder (first ++ second) =
      deltas asset holder first + deltas asset holder second := by
  simp [deltas]

/-- The balances move by what the token calls between the two worlds move. -/
def Balanced (w w' : World) : Prop :=
  ∃ calls, w'.invocations = w.invocations ++ calls ∧ ∀ asset holder,
    (w'.tokens.balance asset holder).val =
      (w.tokens.balance asset holder).val + deltas asset holder calls

instance : IsPreorder World Balanced where
  refl _ := ⟨[], by simp, by simp⟩
  trans _ _ _ := by
    rintro ⟨calls, made, moved⟩ ⟨calls', made', moved'⟩
    refine ⟨calls ++ calls', by rw [made', made, List.append_assoc], fun asset holder => ?_⟩
    rw [moved', moved, deltas_append, add_assoc]

/-- The successful runs of a part of a call move balances by their token calls only. -/
abbrev Balances {α : Type} (body : Call α) : Prop := Preserves Balanced body

theorem Frame.balanced {keys : Set DataKey} {w w' : World} (frame : Frame keys False w w') :
    Balanced w w' :=
  ⟨[], by simp [frame.invocations], by simp [frame.tokens]⟩

section Balances

@[grind ←] theorem save_balances (key : DataKey) (value : key.Value) : Balances (save key value) :=
  Preserves.modify fun _ => ⟨[], by simp, by simp⟩

@[grind ←] theorem remove_balances (key : DataKey) : Balances (remove key) :=
  Preserves.modify fun _ => ⟨[], by simp, by simp⟩

@[grind ←] theorem publish_balances (event : Event) : Balances (publish event) :=
  Preserves.modify fun _ => ⟨[], by simp, by simp⟩

theorem settle_balanced {w : World} {ledger moved : TokenLedger} {call : TokenCall}
    {asset src dst : Address} {amount : I128} (balances : ledger.balance = w.tokens.balance)
    (moves : ledger.move asset src dst amount = some moved)
    (delta : ∀ asset' holder, call.delta asset' holder =
      (if asset' = asset ∧ holder = dst then amount.val else 0)
        - (if asset' = asset ∧ holder = src then amount.val else 0)) :
    Balanced w (w.settle moved call) := by
  obtain ⟨-, -, -, after⟩ := TokenLedger.move_eq_some moves
  refine ⟨[call], rfl, fun asset' holder => ?_⟩
  rw [World.settle_tokens, after, balances, deltas_cons, deltas_nil, delta]
  omega

@[grind ←] theorem transfer_balances (env : Env) (asset src dst : Address) (amount : I128) :
    Balances (transfer env asset src dst amount) := by
  intro w _ w' ran
  obtain ⟨moved, moves, rfl⟩ := transfer_ok ran
  exact settle_balanced rfl moves fun _ _ => rfl

@[grind ←] theorem transferFrom_balances (env : Env) (asset src dst : Address) (amount : I128) :
    Balances (transferFrom env asset src dst amount) := by
  intro w _ w' ran
  obtain ⟨allowance, moved, -, -, moves, rfl⟩ := transferFrom_ok ran
  exact settle_balanced (by rfl) moves fun _ _ => rfl

/-- What moves no tokens moves no balances. -/
theorem still_balances {α : Type} {body : Call α} (touches : Touches Set.univ False body) :
    Balances body :=
  touches.mono fun _ _ frame => frame.balanced

theorem nonReentrant_balances {α : Type} {body : Call α} (inner : Balances body) :
    Balances (nonReentrant body) := by
  refine .bind (.read _) fun _ => .bind (.rejectIf _ _) fun _ => ?_
  refine .bind (save_balances ..) fun _ => .bind inner fun _ => ?_
  exact .bind (remove_balances _) fun _ => .pure _

@[grind ←] theorem mintLoyaltyTokens_balances (env : Env) (recipient : Address) :
    Balances (mintLoyaltyTokens env recipient) := by
  grind [mintLoyaltyTokens]

@[grind ←] theorem payReferral_balances (env : Env) (source asset : Address) (fee : I128)
    (referrer : Option Address) : Balances (payReferral env source asset fee referrer) := by
  cases referrer with
  | none => exact .pure _
  | some referrer => grind [payReferral]

theorem deliverBatch_balances (env : Env) (source asset : Address) (feeBps : UInt32)
    (progress : BatchProgress) (entries : List (Address × I128)) :
    Balances (deliverBatch env source asset feeBps progress entries) := by
  induction entries generalizing progress with
  | nil => exact .pure _
  | cons entry rest ih =>
      rw [deliverBatch]
      refine .bind (still_balances (by simp)) fun error => .ite ?_ ?_
      · refine .bind (still_balances (by simp)) fun _ => .bind (.ofExcept _ _) fun _ => ?_
        exact .bind (publish_balances _) fun _ => ih _
      · refine .bind (.ofExcept _ _) fun _ => .bind (.ofExcept _ _) fun _ => ?_
        refine .bind (.onlyIf (transfer_balances ..)) fun _ => .bind (still_balances (by simp)) fun _ => ?_
        exact .bind (still_balances (by simp)) fun _ => .bind (publish_balances _) fun _ => ih _

/-- Whether a call routes tokens through a pool. -/
def Request.swaps : Request → Bool
  | .fundCAddressWithSwap .. => true
  | _ => false

/-- Every call but a swap moves the balances by its token calls only. -/
theorem execute_balances (env : Env) {request : Request} (plain : request.swaps = false) :
    Balances (execute env request) := by
  by_cases moving : request.movesTokens
  · cases request
    all_goals try first | exact moving.elim | cases plain
    all_goals
      simp only [execute, fundCAddress, batchFundCAddress, withdrawFees,
        fundCAddressWithReferral, reclaimTokens, fundCrosschainReserve, withdrawCrosschainReserve,
        fundCAddressCrosschain, fundCAddressTimelocked, claimTimelocked, revealFund,
        executeMetaFund]
      refine Preserves.bind ?_ fun _ => .pure _
      repeat' first
        | with_reducible refine Preserves.bind ?_ fun _ => ?_
        | with_reducible refine nonReentrant_balances ?_
    all_goals first
      | with_reducible exact transfer_balances ..
      | with_reducible exact transferFrom_balances ..
      | with_reducible exact .onlyIf (transfer_balances ..)
      | with_reducible exact mintLoyaltyTokens_balances ..
      | with_reducible exact .onlyIf (mintLoyaltyTokens_balances ..)
      | with_reducible exact payReferral_balances ..
      | with_reducible exact deliverBatch_balances ..
      | exact still_balances (by simp [Preserves.ofExcept, requireAuth_touches,
          readFeeBps_touches, validateAmounts_touches])
  · exact (execute_administration_frame env moving).mono fun _ _ frame => frame.balanced

end Balances

end OnboardingBridge.Contract
