import OnboardingBridge.Foundations.Runs

/-!
# Executable machines

A machine is a function that does an action in a state, when the action can
happen. Its steps are labelled with the action and the state it happened in, so
a condition on a step may speak of both. A sequence of actions that can all
happen is a run (`perform_run`), and is found by evaluation.
-/

set_option autoImplicit false

namespace Foundations

variable {σ α : Type}

/-- An action, with the state it happened in. -/
structure Occurrence (σ α : Type) where
  before : σ
  action : α

/-- The steps of a machine, as a labelled transition system. -/
def Occurs (machine : σ → α → Option σ) (s : σ) (label : Occurrence σ α) (t : σ) : Prop :=
  label.before = s ∧ machine s label.action = some t

variable {machine : σ → α → Option σ}

/-- The steps that a sequence of actions takes, with the states in between. -/
def history (machine : σ → α → Option σ) : σ → List α → List (Occurrence σ α)
  | _, [] => []
  | s, action :: rest =>
      ⟨s, action⟩ :: (machine s action).elim [] fun t => history machine t rest

/-- What a sequence of actions does when each of them can happen. -/
def perform (machine : σ → α → Option σ) : σ → List α → Option σ
  | s, [] => some s
  | s, action :: rest => (machine s action).bind fun t => perform machine t rest

theorem perform_run {actions : List α} {s t : σ}
    (performed : perform machine s actions = some t) :
    Run (Occurs machine) s (history machine s actions) t := by
  induction actions generalizing s with
  | nil =>
      obtain rfl : s = t := Option.some.inj performed
      exact .nil s
  | cons action rest ih =>
      obtain ⟨next, taken, performed⟩ := Option.bind_eq_some_iff.mp performed
      rw [history, taken]
      exact .cons ⟨rfl, taken⟩ (ih performed)

/-- A sequence of actions leads to a state with a property when it evaluates to one. -/
theorem perform_any {actions : List α} {s : σ} {p : σ → Bool}
    (holds : (perform machine s actions).any p = true) :
    ∃ t, perform machine s actions = some t ∧ p t = true :=
  (Option.any_eq_true ..).mp holds

/-- The steps of a performance do the actions that were asked for. -/
theorem action_mem_history {actions : List α} {s : σ} {label : Occurrence σ α}
    (member : label ∈ history machine s actions) : label.action ∈ actions := by
  induction actions generalizing s with
  | nil => cases member
  | cons action rest ih =>
      rcases List.mem_cons.mp member with rfl | later
      · exact List.mem_cons_self
      · cases next : machine s action with
        | none => simp [next] at later
        | some t =>
            rw [next] at later
            exact List.mem_cons_of_mem _ (ih later)

/-- An invariant that the actions of a machine keep, when their occurrences are admitted, holds
at the end of a run. -/
theorem Run.kept {inv : σ → Prop} {admitted : Occurrence σ α → Prop}
    (keeps : ∀ ⦃s t action⦄, inv s → admitted ⟨s, action⟩ → machine s action = some t → inv t)
    {s t : σ} {labels : List (Occurrence σ α)} (run : Run (Occurs machine) s labels t)
    (all : ∀ label ∈ labels, admitted label) (start : inv s) : inv t := by
  refine run.invariant admitted ?_ all start
  rintro s ⟨before, action⟩ t here allowed ⟨rfl, taken⟩
  exact keeps here allowed taken

end Foundations
