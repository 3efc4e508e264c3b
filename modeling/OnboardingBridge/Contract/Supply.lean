import Mathlib.Algebra.BigOperators.Group.Finset.Piecewise
import Mathlib.Algebra.Order.BigOperators.Group.Finset
import OnboardingBridge.Contract.Host

/-!
# Token ledgers with a bounded supply

In an exact ledger no balance is negative and what any holders own together fits into an `i128`.
Movements between holders keep a ledger exact, and a movement that the sender covers has room at
the receiver (`TokenLedger.Exact.exists_move`).
-/

set_option autoImplicit false

namespace OnboardingBridge.Contract

open Foundations Foundations.Tx

/-- No balance is negative, and the supply of every asset fits into an `i128`. -/
structure TokenLedger.Exact (ledger : TokenLedger) : Prop where
  nonneg : ∀ asset holder, 0 ≤ (ledger.balance asset holder).val
  supply : ∀ asset (holders : Finset Address),
    ∑ holder ∈ holders, (ledger.balance asset holder).val ≤ I128.maxValue

namespace TokenLedger.Exact

variable {ledger moved : TokenLedger} {asset src dst : Address} {amount : I128}

/-- Two holders together own no more than the supply. -/
theorem pair (exact : ledger.Exact) (asset : Address) (different : src ≠ dst) :
    (ledger.balance asset src).val + (ledger.balance asset dst).val ≤ I128.maxValue := by
  have bound := exact.supply asset {src, dst}
  rwa [Finset.sum_pair different] at bound

/-- In an exact ledger the sender decides whether a movement goes through. -/
theorem exists_move (exact : ledger.Exact) (positive : 0 ≤ amount.val)
    (covered : amount.val ≤ (ledger.balance asset src).val) :
    ∃ moved, ledger.move asset src dst amount = some moved := by
  refine TokenLedger.exists_move positive covered fun different => ?_
  have bound := exact.pair asset different
  omega

/-- What some holders own together changes by what one of them gets and what one of them gives. -/
theorem sum_move (moves : ledger.move asset src dst amount = some moved) (asset' : Address)
    (holders : Finset Address) :
    ∑ holder ∈ holders, (moved.balance asset' holder).val =
      ∑ holder ∈ holders, (ledger.balance asset' holder).val
        + (if asset' = asset ∧ dst ∈ holders then amount.val else 0)
        - (if asset' = asset ∧ src ∈ holders then amount.val else 0) := by
  obtain ⟨-, -, -, balances⟩ := TokenLedger.move_eq_some moves
  simp only [balances, Finset.sum_sub_distrib, Finset.sum_add_distrib]
  by_cases same : asset' = asset
  · simp [same, Finset.sum_ite_eq']
  · simp [same]

theorem move (exact : ledger.Exact) (moves : ledger.move asset src dst amount = some moved) :
    moved.Exact := by
  obtain ⟨positive, covered, -, balances⟩ := TokenLedger.move_eq_some moves
  refine ⟨fun asset' holder => ?_, fun asset' holders => ?_⟩
  · have before := exact.nonneg asset' holder
    rw [balances]
    by_cases giver : asset' = asset ∧ holder = src
    · obtain ⟨rfl, rfl⟩ := giver
      split <;> simp <;> omega
    · rw [if_neg giver]
      split <;> omega
  · rw [sum_move moves]
    have before := exact.supply asset' holders
    by_cases same : asset' = asset
    · subst same
      by_cases gets : dst ∈ holders
      · by_cases gives : src ∈ holders
        · simp only [gets, gives, and_self, if_true]
          omega
        · -- the receiver gets no more than the sender owned
          have wider := exact.supply asset' (insert src holders)
          rw [Finset.sum_insert gives] at wider
          simp only [gets, gives, and_self, and_false, if_true, if_false]
          omega
      · simp only [gets, and_false, if_false]
        split <;> omega
    · simpa [same] using before

theorem setAllowance (exact : ledger.Exact) (asset owner spender : Address) (value : I128) :
    (ledger.setAllowance asset owner spender value).Exact :=
  ⟨exact.nonneg, exact.supply⟩

end TokenLedger.Exact

/-- The movements of a call keep the ledgers exact. -/
theorem transfer_exact {env : Env} {asset src dst : Address} {amount : I128} {w w' : World}
    {u : Unit} (exact : w.tokens.Exact)
    (ran : (transfer env asset src dst amount).run w = .ok (u, w')) : w'.tokens.Exact := by
  obtain ⟨moved, moves, rfl⟩ := transfer_ok ran
  exact exact.move moves

theorem transferFrom_exact {env : Env} {asset src dst : Address} {amount : I128} {w w' : World}
    {u : Unit} (exact : w.tokens.Exact)
    (ran : (transferFrom env asset src dst amount).run w = .ok (u, w')) : w'.tokens.Exact := by
  obtain ⟨allowance, moved, -, -, moves, rfl⟩ := transferFrom_ok ran
  exact (exact.setAllowance ..).move moves

end OnboardingBridge.Contract
