import OnboardingBridge.Foundations.Transaction

/-!
# What a transaction does not fail with

A transaction fails with an error of its own or of one of its parts. What spares an
error never fails with it, and a sequence spares what all its parts spare. A sequence
that fails with an error either fails in its first part or after it
(`run_bind_error`), so that the parts that spare the error can be passed over.
-/

set_option autoImplicit false

namespace Foundations.Tx

variable {σ ε α β : Type} {e : ε}

theorem run_bind_error {m : Tx σ ε α} {f : α → Tx σ ε β} {s : σ} :
    (m >>= f).run s = .error e ↔
      m.run s = .error e ∨ ∃ a t, m.run s = .ok (a, t) ∧ (f a).run t = .error e := by
  rw [run_bind]
  cases first : m.run s with
  | error reason => simp
  | ok result =>
      obtain ⟨a, t⟩ := result
      constructor
      · exact fun rest => .inr ⟨a, t, rfl, rest⟩
      · rintro (failed | ⟨a', t', same, rest⟩)
        · cases failed
        · cases same
          exact rest

/-- No run fails with the error. -/
def Spares (e : ε) (m : Tx σ ε α) : Prop := ∀ s, m.run s ≠ .error e

section Spares

@[simp, grind ←] theorem Spares.pure (a : α) : Spares e (pure a : Tx σ ε α) := by
  intro s failed
  cases failed

@[simp, grind ←] theorem Spares.read (f : σ → α) : Spares e (read f : Tx σ ε α) := by
  intro s failed
  cases failed

@[simp, grind ←] theorem Spares.modify (f : σ → σ) : Spares e (modify f : Tx σ ε Unit) := by
  intro s failed
  cases failed

@[simp, grind ←] theorem Spares.fail {reason : ε} (other : reason ≠ e) :
    Spares e (fail reason : Tx σ ε α) := by
  intro s failed
  exact other (Except.error.inj failed)

@[simp, grind ←] theorem Spares.bind {m : Tx σ ε α} {f : α → Tx σ ε β} (first : Spares e m)
    (rest : ∀ a, Spares e (f a)) : Spares e (m >>= f) := by
  intro s failed
  rcases run_bind_error.mp failed with here | ⟨a, t, -, later⟩
  · exact first s here
  · exact rest a t later

@[simp] theorem Spares.ite {condition : Prop} [Decidable condition] {m m' : Tx σ ε α}
    (yes : Spares e m) (no : Spares e m') : Spares e (if condition then m else m') := by
  split
  · exact yes
  · exact no

@[simp, grind ←] theorem Spares.rejectIf {condition : Prop} [Decidable condition] {reason : ε}
    (other : reason ≠ e) : Spares e (rejectIf condition reason : Tx σ ε Unit) :=
  .ite (.fail other) (.pure ())

@[simp, grind ←] theorem Spares.onlyIf {condition : Prop} [Decidable condition]
    {m : Tx σ ε Unit} (inner : Spares e m) : Spares e (onlyIf condition m) :=
  .ite inner (.pure ())

@[simp, grind ←] theorem Spares.ofOption {value : Option α} {reason : ε} (other : reason ≠ e) :
    Spares e (ofOption value reason : Tx σ ε α) := by
  cases value with
  | none => exact .fail other
  | some a => exact .pure a

theorem Spares.ofExcept {ε' : Type} {wrap : ε' → ε} {result : Except ε' α}
    (others : ∀ reason, result = .error reason → wrap reason ≠ e) :
    Spares e (ofExcept wrap result : Tx σ ε α) := by
  cases result with
  | error reason => exact .fail (others reason rfl)
  | ok a => exact .pure a

/-- A failure with an error comes after the parts that spare it. -/
theorem Spares.skip {m : Tx σ ε α} {f : α → Tx σ ε β} {s : σ} (spared : Spares e m)
    (failed : (m >>= f).run s = .error e) :
    ∃ a t, m.run s = .ok (a, t) ∧ (f a).run t = .error e :=
  (run_bind_error.mp failed).resolve_left (spared s)

/-- A failure with an error that the rest spares is a failure of the first part. -/
theorem Spares.first {m : Tx σ ε α} {f : α → Tx σ ε β} {s : σ} (spared : ∀ a, Spares e (f a))
    (failed : (m >>= f).run s = .error e) : m.run s = .error e := by
  rcases run_bind_error.mp failed with here | ⟨a, t, -, later⟩
  · exact here
  · exact absurd later (spared a t)

/-- A check with another error has passed. -/
theorem run_rejectIf_bind_other {condition : Prop} [Decidable condition] {reason : ε}
    {f : Unit → Tx σ ε β} {s : σ} (other : reason ≠ e)
    (failed : ((rejectIf condition reason : Tx σ ε Unit) >>= f).run s = .error e) :
    (f ()).run s = .error e := by
  obtain ⟨_, t, passed, rest⟩ := (Spares.rejectIf other).skip failed
  obtain ⟨-, rfl⟩ := run_rejectIf_ok.mp passed
  exact rest

theorem run_ofOption_bind_other {value : Option α} {reason : ε} {f : α → Tx σ ε β} {s : σ}
    (other : reason ≠ e) (failed : ((ofOption value reason : Tx σ ε α) >>= f).run s = .error e) :
    ∃ a, value = some a ∧ (f a).run s = .error e := by
  obtain ⟨a, t, ran, rest⟩ := (Spares.ofOption other).skip failed
  obtain ⟨found, rfl⟩ := run_ofOption_ok.mp ran
  exact ⟨a, found, rest⟩

/-- A check with the error has failed, unless the rest fails so. -/
theorem run_rejectIf_bind_error {condition : Prop} [Decidable condition] {f : Unit → Tx σ ε β}
    {s : σ} (failed : ((rejectIf condition e : Tx σ ε Unit) >>= f).run s = .error e)
    (spared : Spares e (f ())) : condition := by
  by_cases holds : condition
  · exact holds
  · rw [run_rejectIf_bind holds] at failed
    exact absurd failed (spared s)

end Spares

end Foundations.Tx
