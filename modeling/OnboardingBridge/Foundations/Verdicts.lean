import OnboardingBridge.Foundations.Transaction

/-!
# Transactions that are decided by a list of checks

A list of checks decides a run when the run fails exactly if one of the checks does, and then with
the error of the first one that fails, unless that check promises no particular error. The rules
follow the syntax of the transaction: each part adds the checks that decide it
(`Decided.rejectIf`, `Decided.step`), and parts that cannot fail add none (`Decided.pass`).
-/

set_option autoImplicit false

namespace Foundations

/-- A check, and the error that a failure of it promises, if any. -/
structure Check (ε : Type) where
  fails : Bool
  error : Option ε

namespace Check

variable {ε : Type}

/-- The first check of a list that fails. -/
def first (checks : List (Check ε)) : Option (Check ε) := checks.find? Check.fails

/-- What comes before the first check that fails has passed. -/
theorem first_eq_some {checks : List (Check ε)} {check : Check ε}
    (found : first checks = some check) :
    check.fails = true ∧ ∃ before after, checks = before ++ check :: after ∧
      ∀ earlier ∈ before, earlier.fails = false := by
  obtain ⟨fails, before, after, same, passed⟩ := List.find?_eq_some_iff_append.mp found
  exact ⟨fails, before, after, same, by simpa using passed⟩

theorem first_eq_none {checks : List (Check ε)} :
    first checks = none ↔ ∀ check ∈ checks, check.fails = false := by
  simp [first]

theorem first_append (checks later : List (Check ε)) :
    first (checks ++ later) = (first checks).or (first later) := by
  rw [first, List.find?_append]
  rfl

end Check

namespace Tx

variable {σ ε α β : Type} {s : σ} {checks later : List (Check ε)} {post : α → σ → Prop}

/-- The run fails exactly if a check does, with the error of the first that fails. A successful
run meets the postcondition. -/
def Decided (checks : List (Check ε)) (post : α → σ → Prop) (m : Tx σ ε α) (s : σ) : Prop :=
  match Check.first checks with
  | some check => ∃ e, m.run s = .error e ∧ ∀ error ∈ check.error, e = error
  | none => ∃ a s', m.run s = .ok (a, s') ∧ post a s'

namespace Decided

/-- The checks of a decided run fail exactly if the run does. -/
theorem fails_iff {m : Tx σ ε α} (decided : Decided checks post m s) :
    (∃ e, m.run s = .error e) ↔ ∃ check ∈ checks, check.fails = true := by
  unfold Decided at decided
  cases found : Check.first checks with
  | some check =>
      rw [found] at decided
      obtain ⟨e, failed, -⟩ := decided
      obtain ⟨fails, before, after, rfl, -⟩ := Check.first_eq_some found
      exact iff_of_true ⟨e, failed⟩ ⟨check, by simp, fails⟩
  | none =>
      rw [found] at decided
      obtain ⟨a, s', ran, -⟩ := decided
      refine iff_of_false ?_ ?_
      · rintro ⟨e, failed⟩
        rw [ran] at failed
        cases failed
      · rintro ⟨check, member, fails⟩
        rw [Check.first_eq_none.mp found check member] at fails
        cases fails

/-- A decided run fails with the error that the first failing check promises. -/
theorem error {m : Tx σ ε α} (decided : Decided checks post m s) {check : Check ε}
    (found : Check.first checks = some check) {e : ε} (promised : check.error = some e) :
    m.run s = .error e := by
  rw [Decided, found] at decided
  obtain ⟨e', failed, same⟩ := decided
  rw [failed, same e promised]

/-- A decided run goes through when all of its checks pass. -/
theorem passes {m : Tx σ ε α} (decided : Decided checks post m s)
    (passed : ∀ check ∈ checks, check.fails = false) :
    ∃ a s', m.run s = .ok (a, s') ∧ post a s' := by
  rwa [Decided, Check.first_eq_none.mpr passed] at decided

/-- A successful run needs no checks. -/
theorem of_ok {m : Tx σ ε α} {a : α} {s' : σ} (ran : m.run s = .ok (a, s')) (meets : post a s') :
    Decided [] post m s := ⟨a, s', ran, meets⟩

theorem of_passed {m : Tx σ ε α} {a : α} {s' : σ}
    (passed : ∀ check ∈ checks, check.fails = false) (ran : m.run s = .ok (a, s'))
    (meets : post a s') : Decided checks post m s := by
  rw [Decided, Check.first_eq_none.mpr passed]
  exact ⟨a, s', ran, meets⟩

theorem congr {m m' : Tx σ ε α} {s s' : σ} (same : m.run s = m'.run s')
    (decided : Decided checks post m' s') : Decided checks post m s := by
  unfold Decided at decided ⊢
  rw [same]
  exact decided

theorem mono {wider : α → σ → Prop} {m : Tx σ ε α} (decided : Decided checks post m s)
    (included : ∀ a s', m.run s = .ok (a, s') → post a s' → wider a s') :
    Decided checks wider m s := by
  unfold Decided at decided ⊢
  cases found : Check.first checks with
  | some check =>
      rw [found] at decided
      exact decided
  | none =>
      rw [found] at decided
      obtain ⟨a, s', ran, meets⟩ := decided
      exact ⟨a, s', ran, included a s' ran meets⟩

/-- What every successful run brings about may be added. -/
theorem establishes {m : Tx σ ε α} (decided : Decided checks (fun _ _ => True) m s)
    (brings : ∀ a s', m.run s = .ok (a, s') → post a s') : Decided checks post m s :=
  decided.mono fun a s' ran _ => brings a s' ran

/-- The checks of a sequence are those of its parts. -/
theorem bind {mid : α → σ → Prop} {post : β → σ → Prop} {m : Tx σ ε α} {k : α → Tx σ ε β}
    (part : Decided checks mid m s)
    (rest : ∀ a s', mid a s' → Decided later post (k a) s') :
    Decided (checks ++ later) post (m >>= k) s := by
  unfold Decided at part ⊢
  rw [Check.first_append]
  cases found : Check.first checks with
  | some check =>
      rw [found] at part
      obtain ⟨e, failed, same⟩ := part
      exact ⟨e, run_bind_of_error failed, same⟩
  | none =>
      rw [found] at part
      obtain ⟨a, s', ran, meets⟩ := part
      rw [Option.none_or, run_bind_of_ok ran]
      exact rest a s' meets

/-- A part that succeeds adds no check. -/
theorem pass {post : β → σ → Prop} {m : Tx σ ε α} {k : α → Tx σ ε β} {a : α} {s' : σ}
    (ran : m.run s = .ok (a, s')) (rest : Decided checks post (k a) s') :
    Decided checks post (m >>= k) s :=
  congr (run_bind_of_ok ran) rest

/-- A part that is decided by one check. -/
theorem of_iff {m : Tx σ ε α} {condition : Prop} [Decidable condition] {error : Option ε}
    (fails : condition → ∃ e, m.run s = .error e ∧ ∀ reason ∈ error, e = reason)
    (passes : ¬ condition → ∃ a s', m.run s = .ok (a, s') ∧ post a s') :
    Decided [⟨decide condition, error⟩] post m s := by
  unfold Decided
  by_cases holds : condition
  · simpa [Check.first, holds] using fails holds
  · simpa [Check.first, holds] using passes holds

/-- A part that succeeds exactly if a condition does not hold, and fails somehow else. -/
theorem of_succeeds {m : Tx σ ε α} {condition : Prop} [Decidable condition]
    (succeeds : (∃ a s', m.run s = .ok (a, s') ∧ post a s') ↔ ¬ condition)
    (meets : ∀ a s', m.run s = .ok (a, s') → post a s') :
    Decided [⟨decide condition, none⟩] post m s := by
  refine of_iff (fun holds => ?_) succeeds.mpr
  cases ran : m.run s with
  | error e => exact ⟨e, rfl, by simp⟩
  | ok result =>
      obtain ⟨a, s'⟩ := result
      exact absurd holds (succeeds.mp ⟨a, s', ran, meets a s' ran⟩)

theorem rejectIf {post : β → σ → Prop} {condition : Prop} [Decidable condition] {e : ε}
    {k : Unit → Tx σ ε β} (rest : ¬ condition → Decided checks post (k ()) s) :
    Decided (⟨decide condition, some e⟩ :: checks) post (Tx.rejectIf condition e >>= k) s := by
  by_cases holds : condition
  · have failed : (Tx.rejectIf condition e : Tx σ ε Unit).run s = .error e := by
      rw [Tx.rejectIf, if_pos holds]
      rfl
    rw [Decided, Check.first, List.find?_cons_of_pos (by simpa using holds)]
    exact ⟨e, run_bind_of_error failed, by simp⟩
  · have decided := rest holds
    rw [Decided, Check.first, List.find?_cons_of_neg (by simpa using holds)]
    rw [Decided, Check.first] at decided
    rwa [run_rejectIf_bind holds]

/-- A check on its own leaves the state as it is. -/
theorem of_rejectIf {condition : Prop} [Decidable condition] {e : ε} :
    Decided [⟨decide condition, some e⟩] (fun _ s' => s' = s)
      (Tx.rejectIf condition e : Tx σ ε Unit) s := by
  refine of_iff (fun holds => ⟨e, ?_, by simp⟩) fun passes => ⟨(), s, ?_, rfl⟩
  · rw [Tx.rejectIf, if_pos holds]
    rfl
  · rw [Tx.rejectIf, if_neg passes]
    rfl

/-- A check whose error is not promised. -/
theorem unpromised {m : Tx σ ε α} {fails : Bool} {error : Option ε}
    (decided : Decided (⟨fails, error⟩ :: checks) post m s) :
    Decided (⟨fails, none⟩ :: checks) post m s := by
  unfold Decided Check.first at decided ⊢
  cases fails with
  | true =>
      obtain ⟨e, failed, -⟩ := decided
      exact ⟨e, failed, by simp⟩
  | false => exact decided

end Decided

end Tx

end Foundations
