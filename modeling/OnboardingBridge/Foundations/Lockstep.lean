import OnboardingBridge.Foundations.Commuting

/-!
# Transactions that run in step

Two transactions run in step when from related states they fail alike or return the same and leave
related states. The rules follow the syntax of the transactions. Where both states differ by a
change that a transaction commutes with, they are carried along together with an invariant
(`Lockstep.carry`).
-/

set_option autoImplicit false

namespace Foundations.Tx

variable {σ ε α β : Type}

/-- Two results that are the same failure, or the same value with related states. -/
inductive Agree (related : σ → σ → Prop) : Except ε (α × σ) → Except ε (α × σ) → Prop where
  | ok {a : α} {s t : σ} (left : related s t) : Agree related (.ok (a, s)) (.ok (a, t))
  | error (e : ε) : Agree related (.error e) (.error e)

/-- From states related in one way two transactions come to results related in another. -/
def Lockstep (before after : σ → σ → Prop) (m m' : Tx σ ε α) : Prop :=
  ∀ ⦃s t⦄, before s t → Agree after (m.run s) (m'.run t)

namespace Lockstep

variable {before between after : σ → σ → Prop}

theorem pure (a : α) : Lockstep before before (Pure.pure a : Tx σ ε α) (Pure.pure a) :=
  fun _ _ related => .ok related

theorem modify {g : σ → σ} (step : ∀ s t, before s t → after (g s) (g t)) :
    Lockstep before after (Tx.modify g : Tx σ ε Unit) (Tx.modify g) :=
  fun s t related => .ok (step s t related)

theorem bind {m m' : Tx σ ε α} {k k' : α → Tx σ ε β} (first : Lockstep before between m m')
    (rest : ∀ a, Lockstep between after (k a) (k' a)) :
    Lockstep before after (m >>= k) (m' >>= k') := by
  intro s t related
  rw [run_bind, run_bind]
  have agree := first related
  generalize m.run s = result, m'.run t = result' at agree ⊢
  cases agree with
  | ok left => exact rest _ left
  | error e => exact .error e

/-- What returns nothing may leave the states as they are. -/
theorem onlyIf {condition : Prop} [Decidable condition] {m m' : Tx σ ε Unit}
    (inner : Lockstep before after m m') (skipped : ∀ s t, before s t → after s t) :
    Lockstep before after (Tx.onlyIf condition m) (Tx.onlyIf condition m') := by
  by_cases holds : condition
  · rw [Tx.onlyIf, Tx.onlyIf, if_pos holds, if_pos holds]
    exact inner
  · rw [Tx.onlyIf, Tx.onlyIf, if_neg holds, if_neg holds]
    exact fun s t related => .ok (skipped s t related)

section Carry

variable {f : σ → σ} {inv : σ → Prop} {post : α → Prop}

/-- What commutes with a change and keeps an invariant runs in step with itself, and what it
returns meets the postcondition. -/
theorem carry {m : Tx σ ε α} {k k' : α → Tx σ ε β} (commutes : Commutes f m)
    (keeps : Keeps inv post m)
    (rest : ∀ a, post a → Lockstep (fun s t => inv s ∧ t = f s) after (k a) (k' a)) :
    Lockstep (fun s t => inv s ∧ t = f s) after (m >>= k) (m >>= k') := by
  rintro s _ ⟨holds, rfl⟩
  rw [run_bind, run_bind, commutes]
  cases ran : m.run s with
  | error e => exact .error e
  | ok result =>
      obtain ⟨left, meets⟩ := keeps holds ran
      exact rest result.1 meets ⟨left, rfl⟩

/-- A passed check may be used by the rest. -/
theorem rejectIf {condition : Prop} [Decidable condition] {e : ε} {k k' : Unit → Tx σ ε β}
    (rest : ¬ condition → Lockstep before after (k ()) (k' ())) :
    Lockstep before after ((Tx.rejectIf condition e : Tx σ ε Unit) >>= k)
      (Tx.rejectIf condition e >>= k') := by
  intro s t related
  rw [run_bind, run_bind]
  by_cases holds : condition
  · rw [Tx.rejectIf, if_pos holds]
    exact .error e
  · rw [Tx.rejectIf, if_neg holds]
    exact rest holds related

/-- The rest may use where a value came from. -/
theorem ofExcept {ε' : Type} {wrap : ε' → ε} {result : Except ε' α} {k k' : α → Tx σ ε β}
    (rest : ∀ a, result = .ok a → Lockstep before after (k a) (k' a)) :
    Lockstep before after ((Tx.ofExcept wrap result : Tx σ ε α) >>= k)
      (Tx.ofExcept wrap result >>= k') := by
  intro s t related
  cases result with
  | error e => exact .error (wrap e)
  | ok a => exact rest a rfl related

end Carry

end Lockstep

/-! ## More of what keeps an invariant -/

section Keeps

variable {inv : σ → Prop}

theorem Keeps.onlyIf {condition : Prop} [Decidable condition] {m : Tx σ ε Unit}
    (inner : Keeps inv (fun _ => True) m) : Keeps inv (fun _ => True) (Tx.onlyIf condition m) := by
  intro s a s' holds ran
  rcases run_onlyIf_ok.mp ran with ⟨-, ran⟩ | ⟨-, rfl⟩
  · exact inner holds ran
  · exact ⟨holds, trivial⟩

/-- The rest may use where a value came from. -/
theorem Keeps.ofExcept_bind {ε' : Type} {wrap : ε' → ε} {result : Except ε' α} {post : β → Prop}
    {k : α → Tx σ ε β} (rest : ∀ a, result = .ok a → Keeps inv post (k a)) :
    Keeps inv post ((Tx.ofExcept wrap result : Tx σ ε α) >>= k) := by
  intro s b s' holds ran
  obtain ⟨a, found, ran⟩ := run_ofExcept_bind_ok.mp ran
  exact rest a found holds ran

end Keeps

end Foundations.Tx
