import OnboardingBridge.Contract.Views
import OnboardingBridge.Foundations.Proportions

/-!
# Fee arithmetic

The fee of an amount is a proportion of it in basis points, rounded down. It is worked
out unless the product leaves an `i128`, and splitting an amount saves less than one
unit for each part.
-/

set_option autoImplicit false

namespace OnboardingBridge.Contract

open Foundations

/-- The fee of an amount in basis points. -/
def feeAt (amount rate : Int) : Int := amount * rate / 10000

theorem feeAt_eq_portion (amount rate : Int) : feeAt amount rate = portion amount rate 10000 := rfl

/-- A rate that does not exceed the largest one takes a part of the amount. -/
theorem feeAt_bounds {amount : Int} {feeBps : UInt32} (nonneg : 0 ≤ amount)
    (rate : feeBps ≤ maxFeeBps) :
    0 ≤ feeAt amount feeBps.toNat ∧ feeAt amount feeBps.toNat ≤ amount :=
  rate_bounds nonneg (UInt32.le_denominator rate)

theorem feeAt_mono {amount amount' : Int} {feeBps feeBps' : UInt32} (nonneg : 0 ≤ amount)
    (more : amount ≤ amount') (higher : feeBps ≤ feeBps') :
    feeAt amount feeBps.toNat ≤ feeAt amount' feeBps'.toNat :=
  portion_mono nonneg (by positivity) (by decide) more
    (by exact_mod_cast UInt32.le_iff_toNat_le.mp higher)

/-- At most a tenth is taken. -/
theorem feeAt_le_tenth {amount : Int} {feeBps : UInt32} (nonneg : 0 ≤ amount)
    (rate : feeBps ≤ maxFeeBps) : feeAt amount feeBps.toNat ≤ amount / 10 :=
  calc feeAt amount feeBps.toNat ≤ feeAt amount maxFeeBps.toNat := feeAt_mono nonneg le_rfl rate
    _ = amount * 1000 / (10 * 1000) := rfl
    _ = amount / 10 := Int.mul_ediv_mul_of_pos_left _ _ (by decide)

/-- A fee is charged exactly when the product of the amount and the rate is an `i128`. -/
theorem calculateFee_charges {amount fee : I128} {feeBps : UInt32} (nonneg : 0 ≤ amount.val) :
    calculateFee amount feeBps = .ok fee ↔
      amount.val * feeBps.toNat ≤ I128.maxValue ∧ fee.val = feeAt amount.val feeBps.toNat := by
  have product : 0 ≤ amount.val * feeBps.toNat := by positivity
  rw [calculateFee_ok, Int.tdiv_eq_ediv_of_nonneg product, and_comm, feeAt, I128.exists_val]
  refine and_congr_left fun _ => ?_
  constructor
  · rintro (rfl | ⟨-, fits⟩)
    · simp [I128.maxValue]
    · exact fits
  · exact fun fits => .inr ⟨by omega, fits⟩

/-- Nothing but an overflow goes wrong. -/
theorem calculateFee_error {amount : I128} {feeBps : UInt32} {reason : BridgeError}
    (failed : calculateFee amount feeBps = .error reason) : reason = .overflow := by
  rw [calculateFee] at failed
  split at failed
  · cases failed
  · cases product : safeMul amount (I128.ofU32 feeBps) with
    | ok value =>
        rw [product] at failed
        simp only [safeDiv] at failed
        split at failed <;> cases failed
        rfl
    | error cause =>
        rw [product] at failed
        rw [safeMul] at product
        split at product <;> cases product
        cases failed
        rfl

theorem exists_calculateFee {amount : I128} {feeBps : UInt32} (nonneg : 0 ≤ amount.val)
    (fits : amount.val * feeBps.toNat ≤ I128.maxValue) :
    ∃ fee, calculateFee amount feeBps = .ok fee := by
  have product : 0 ≤ amount.val * feeBps.toNat := by positivity
  have feeNonneg : 0 ≤ feeAt amount.val feeBps.toNat := Int.ediv_nonneg product (by decide)
  have feeLe : feeAt amount.val feeBps.toNat ≤ amount.val * feeBps.toNat :=
    Int.ediv_le_self _ product
  obtain ⟨fee, value⟩ := I128.exists_val.mpr ⟨by omega, feeLe.trans fits⟩
  exact ⟨fee, (calculateFee_charges nonneg).mpr ⟨fits, value⟩⟩

theorem calculateFee_overflow {amount : I128} {feeBps : UInt32} (nonneg : 0 ≤ amount.val) :
    calculateFee amount feeBps = .error .overflow ↔
      I128.maxValue < amount.val * feeBps.toNat := by
  cases computed : calculateFee amount feeBps with
  | error reason =>
      obtain rfl := calculateFee_error computed
      refine iff_of_true rfl (not_le.mp fun fits => ?_)
      obtain ⟨fee, charged⟩ := exists_calculateFee nonneg fits
      rw [computed] at charged
      contradiction
  | ok fee =>
      refine iff_of_false (by simp) (not_lt.mpr ?_)
      exact ((calculateFee_charges nonneg).mp computed).1

/-- The fee and the rest of a positive amount. -/
theorem calculateFee_splits {amount : I128} {feeBps : UInt32} (positive : 0 < amount.val)
    (rate : feeBps ≤ maxFeeBps) (fits : amount.val * feeBps.toNat ≤ I128.maxValue) :
    ∃ fee net, calculateFee amount feeBps = .ok fee ∧ safeSub amount fee = .ok net ∧
      fee.val = amount.val * feeBps.toNat / 10000 ∧ 0 ≤ fee.val ∧ fee.val ≤ amount.val / 10 ∧
      1 ≤ net.val ∧ fee.val + net.val = amount.val := by
  obtain ⟨fee, charged⟩ := exists_calculateFee positive.le fits
  have value := ((calculateFee_charges positive.le).mp charged).2
  obtain ⟨feeNonneg, feeLe⟩ := feeAt_bounds positive.le rate
  have tenth := feeAt_le_tenth positive.le rate
  rw [← value] at feeNonneg feeLe tenth
  obtain ⟨net, rest⟩ := I128.exists_sub feeNonneg feeLe
  exact ⟨fee, net, charged, safeSub_ok.mpr rest, value, feeNonneg, tenth, by omega, by omega⟩

theorem calculateFee_mono {amount amount' fee fee' : I128} {feeBps feeBps' : UInt32}
    (positive : 0 < amount.val) (more : amount.val ≤ amount'.val) (higher : feeBps ≤ feeBps')
    (charged : calculateFee amount feeBps = .ok fee)
    (charged' : calculateFee amount' feeBps' = .ok fee') : fee.val ≤ fee'.val := by
  rw [((calculateFee_charges positive.le).mp charged).2,
    ((calculateFee_charges (positive.le.trans more)).mp charged').2]
  exact feeAt_mono positive.le more higher

/-! ## Splitting an amount -/

/-- What several transfers are charged. -/
theorem charged_sum {amounts fees : List I128} {feeBps : UInt32}
    (positive : ∀ amount ∈ amounts, 0 < amount.val)
    (charged : List.Forall₂ (fun amount fee => calculateFee amount feeBps = .ok fee) amounts fees) :
    fees.map BoundedInt.val =
      (amounts.map BoundedInt.val).map fun amount => portion amount feeBps.toNat 10000 := by
  induction charged with
  | nil => rfl
  | cons here _ ih =>
      obtain ⟨first, later⟩ := List.forall_mem_cons.mp positive
      rw [List.map_cons, List.map_cons, List.map_cons, ih later,
        ((calculateFee_charges first.le).mp here).2, feeAt_eq_portion]

/-- Splitting an amount saves less than one unit for each part. -/
theorem charged_split {amounts fees : List I128} {total fee : I128} {feeBps : UInt32}
    (filled : amounts ≠ []) (positive : ∀ amount ∈ amounts, 0 < amount.val)
    (charged : List.Forall₂ (fun amount fee => calculateFee amount feeBps = .ok fee) amounts fees)
    (sum : total.val = (amounts.map BoundedInt.val).sum)
    (whole : calculateFee total feeBps = .ok fee) :
    (fees.map BoundedInt.val).sum ≤ fee.val ∧
      fee.val < (fees.map BoundedInt.val).sum + amounts.length := by
  have nonneg : 0 ≤ total.val := by
    rw [sum]
    refine List.sum_nonneg fun value member => ?_
    obtain ⟨amount, listed, rfl⟩ := List.mem_map.mp member
    exact (positive amount listed).le
  rw [charged_sum positive charged, ((calculateFee_charges nonneg).mp whole).2, feeAt_eq_portion, sum]
  refine ⟨sum_portion_le _ (by decide) _, ?_⟩
  have length : (amounts.map BoundedInt.val).length = amounts.length := List.length_map _
  rw [← length]
  exact portion_sum_lt _ (by decide) (by simpa using filled)

/-! ## The arithmetic of a fee -/

/-- The fee of a positive amount is its proportion rounded down, at most a tenth of it, and grows
with the amount and the rate. Splitting an amount into parts saves less than one unit each. -/
theorem fee_arithmetic :
    (∀ (amount : I128) (feeBps : UInt32), 0 < amount.val → feeBps ≤ maxFeeBps →
      (calculateFee amount feeBps = .error .overflow ↔
        I128.maxValue < amount.val * feeBps.toNat) ∧
      (amount.val * feeBps.toNat ≤ I128.maxValue →
        ∃ fee net, calculateFee amount feeBps = .ok fee ∧ safeSub amount fee = .ok net ∧
          fee.val = amount.val * feeBps.toNat / 10000 ∧ 0 ≤ fee.val ∧ fee.val ≤ amount.val / 10 ∧
          1 ≤ net.val ∧ fee.val + net.val = amount.val)) ∧
    (∀ (amount amount' fee fee' : I128) (feeBps feeBps' : UInt32), 0 < amount.val →
      amount.val ≤ amount'.val → feeBps ≤ feeBps' → calculateFee amount feeBps = .ok fee →
      calculateFee amount' feeBps' = .ok fee' → fee.val ≤ fee'.val) ∧
    ∀ (amounts fees : List I128) (total fee : I128) (feeBps : UInt32), amounts ≠ [] →
      (∀ amount ∈ amounts, 0 < amount.val) →
      List.Forall₂ (fun amount fee => calculateFee amount feeBps = .ok fee) amounts fees →
      total.val = (amounts.map BoundedInt.val).sum → calculateFee total feeBps = .ok fee →
      (fees.map BoundedInt.val).sum ≤ fee.val ∧
        fee.val < (fees.map BoundedInt.val).sum + amounts.length :=
  ⟨fun _ _ positive rate =>
      ⟨calculateFee_overflow positive.le, calculateFee_splits positive rate⟩,
    fun _ _ _ _ _ _ => calculateFee_mono, fun _ _ _ _ _ => charged_split⟩

/-- The product of the largest amount and the highest rate does not fit. At one percent 999 is
charged nine, and 1998, which is two of it, nineteen. -/
theorem fee_arithmetic_rehearsed :
    calculateFee ⟨2 ^ 127 - 1, by decide, by decide⟩ maxFeeBps = .error .overflow ∧
    (∃ fee net, calculateFee (I128.ofU32 1998) 100 = .ok fee ∧
      safeSub (I128.ofU32 1998) fee = .ok net ∧ fee.val = 1998 * 100 / 10000 ∧
      fee.val + net.val = 1998) ∧
    ∃ part whole, calculateFee (I128.ofU32 999) 100 = .ok part ∧
      calculateFee (I128.ofU32 1998) 100 = .ok whole ∧ part.val ≤ whole.val ∧
      ([part, part].map BoundedInt.val).sum ≤ whole.val ∧
      whole.val < ([part, part].map BoundedInt.val).sum + 2 := by
  obtain ⟨charges, grows, splits⟩ := fee_arithmetic
  have part : calculateFee (I128.ofU32 999) 100 = .ok (I128.ofU32 9) := by decide
  have whole : calculateFee (I128.ofU32 1998) 100 = .ok (I128.ofU32 19) := by decide
  obtain ⟨fee, net, charged, rest, portion, -, -, -, adds⟩ :=
    (charges (I128.ofU32 1998) 100 (by decide) (by decide)).2 (by decide)
  refine ⟨(charges _ _ (by decide) (by decide)).1.mpr (by decide),
    ⟨fee, net, charged, rest, portion, adds⟩, _, _, part, whole, ?_, ?_⟩
  · exact grows _ _ _ _ 100 100 (by decide) (by decide) (by decide) part whole
  · exact splits [I128.ofU32 999, I128.ofU32 999] _ _ _ 100 (by simp) (by simp)
      (.cons part (.cons part .nil)) rfl whole

end OnboardingBridge.Contract
