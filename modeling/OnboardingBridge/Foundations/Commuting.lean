import OnboardingBridge.Foundations.Transaction

/-!
# Transactions that commute with a change

A transaction commutes with a change of the state when it runs in the changed state as it
does before the change: it fails alike, or returns the same and leaves the changed state.
The rules follow the syntax of the transaction.
-/

set_option autoImplicit false

namespace Foundations.Tx

variable {σ ε α β : Type} {f : σ → σ}

/-- In the changed state the transaction runs as before the change. -/
def Commutes (f : σ → σ) (m : Tx σ ε α) : Prop :=
  ∀ s, m.run (f s) = (m.run s).map fun result => (result.1, f result.2)

/-- A successful run is one in the changed state. -/
theorem Commutes.ok {m : Tx σ ε α} {s s' : σ} {a : α} (commutes : Commutes f m)
    (ran : m.run s = .ok (a, s')) : m.run (f s) = .ok (a, f s') := by
  rw [commutes, ran]
  rfl

/-- A failing run fails alike in the changed state. -/
theorem Commutes.error {m : Tx σ ε α} {s : σ} {e : ε} (commutes : Commutes f m)
    (ran : m.run s = .error e) : m.run (f s) = .error e := by
  rw [commutes, ran]
  rfl

/-- A successful run in the changed state is one before the change. -/
theorem Commutes.ok_iff {m : Tx σ ε α} {s t : σ} {a : α} (commutes : Commutes f m) :
    m.run (f s) = .ok (a, t) ↔ ∃ s', m.run s = .ok (a, s') ∧ t = f s' := by
  rw [commutes]
  cases ran : m.run s with
  | error e => simp [Except.map]
  | ok result =>
      obtain ⟨a', s'⟩ := result
      constructor
      · intro same
        obtain ⟨rfl, rfl⟩ := Prod.mk.inj (Except.ok.inj same)
        exact ⟨s', rfl, rfl⟩
      · rintro ⟨_, same, rfl⟩
        obtain ⟨rfl, rfl⟩ := Prod.mk.inj (Except.ok.inj same)
        rfl

@[simp, grind ←] theorem Commutes.pure (a : α) : Commutes f (pure a : Tx σ ε α) := fun _ => rfl

@[simp, grind ←] theorem Commutes.fail (e : ε) : Commutes f (fail e : Tx σ ε α) := fun _ => rfl

theorem Commutes.read {g : σ → α} (same : ∀ s, g (f s) = g s) :
    Commutes f (read g : Tx σ ε α) := by
  intro s
  rw [run_read, run_read, same]
  rfl

theorem Commutes.modify {g : σ → σ} (same : ∀ s, g (f s) = f (g s)) :
    Commutes f (modify g : Tx σ ε Unit) := by
  intro s
  rw [run_modify, run_modify, same]
  rfl

@[grind ←] theorem Commutes.bind {m : Tx σ ε α} {k : α → Tx σ ε β} (first : Commutes f m)
    (rest : ∀ a, Commutes f (k a)) : Commutes f (m >>= k) := by
  intro s
  rw [run_bind, run_bind, first]
  cases m.run s with
  | error e => rfl
  | ok result => exact rest result.1 result.2

theorem Commutes.ite {condition : Prop} [Decidable condition] {m m' : Tx σ ε α}
    (yes : Commutes f m) (no : Commutes f m') : Commutes f (if condition then m else m') := by
  split
  · exact yes
  · exact no

@[simp, grind ←] theorem Commutes.rejectIf (condition : Prop) [Decidable condition] (e : ε) :
    Commutes f (rejectIf condition e : Tx σ ε Unit) := .ite (.fail e) (.pure ())

@[simp, grind ←] theorem Commutes.onlyIf {condition : Prop} [Decidable condition]
    {m : Tx σ ε Unit} (inner : Commutes f m) : Commutes f (onlyIf condition m) :=
  .ite inner (.pure ())

@[simp, grind ←] theorem Commutes.ofOption (value : Option α) (e : ε) :
    Commutes f (ofOption value e : Tx σ ε α) := by
  cases value with
  | none => exact .fail e
  | some a => exact .pure a

@[grind ←] theorem Commutes.ofExcept {ε' : Type} (wrap : ε' → ε) (result : Except ε' α) :
    Commutes f (ofExcept wrap result : Tx σ ε α) := by
  cases result with
  | error e => exact .fail (wrap e)
  | ok a => exact .pure a

end Foundations.Tx
