import Mathlib.Order.Defs.Unbundled
import Mathlib.Algebra.BigOperators.Group.List.Basic
import Mathlib.Data.List.Pairwise

/-!
# Runs of a labelled transition system

A run is a sequence of steps, each from the state the one before it left. The
rules of this module turn facts about one step into facts about every run:

* `Run.invariant` — what every step preserves holds in every state reached;
* `Run.within` — a run that starts in an invariant is a run of the steps within
  the invariant;
* `Run.traced` — an invariant may speak of the labels so far, for instance of what
  happened last (`Since`);
* `Run.counted` — values that steps take from a counter count up from zero;
* `Run.tallied` — a measure that every step moves by what its label costs is moved
  by the sum of the costs;
* `Run.forall_labels` — what an invariant and one step imply about the label
  of the step holds of every label of a run;
* `Run.neverAfter` — after a step that sets a mark comes no step that finds it
  unset, when no step removes the mark;
* `Run.atMostOnce` — so a step that finds a mark unset and sets it happens at
  most once.
-/

set_option autoImplicit false

namespace Foundations

variable {σ Label : Type} {step : σ → Label → σ → Prop}

/-- The states a sequence of labelled steps leads through. -/
inductive Run (step : σ → Label → σ → Prop) : σ → List Label → σ → Prop where
  | nil (s : σ) : Run step s [] s
  | cons {s t u : σ} {label : Label} {rest : List Label} :
      step s label t → Run step t rest u → Run step s (label :: rest) u

namespace Run

theorem single {s t : σ} {label : Label} (taken : step s label t) : Run step s [label] t :=
  .cons taken (.nil t)

theorem append {s t u : σ} {first second : List Label} (run₁ : Run step s first t)
    (run₂ : Run step t second u) : Run step s (first ++ second) u := by
  induction run₁ with
  | nil => exact run₂
  | cons taken _ ih => exact .cons taken (ih run₂)

/-- A run through a sequence in two parts stops between them. -/
theorem split {s u : σ} {first second : List Label} (run : Run step s (first ++ second) u) :
    ∃ t, Run step s first t ∧ Run step t second u := by
  induction first generalizing s with
  | nil => exact ⟨s, .nil s, run⟩
  | cons label first ih =>
      cases run with
      | cons taken rest =>
        obtain ⟨t, run₁, run₂⟩ := ih rest
        exact ⟨t, .cons taken run₁, run₂⟩

/-- What every step whose label is admitted preserves holds at the end of a
run with admitted labels. -/
theorem invariant {inv : σ → Prop} (admitted : Label → Prop)
    (keeps : ∀ ⦃s label t⦄, inv s → admitted label → step s label t → inv t)
    {s u : σ} {labels : List Label} (run : Run step s labels u)
    (all : ∀ label ∈ labels, admitted label) (start : inv s) : inv u := by
  induction run with
  | nil => exact start
  | cons taken _ ih =>
      obtain ⟨here, later⟩ := List.forall_mem_cons.mp all
      exact ih later (keeps start here taken)

/-- What every step preserves holds at the end of a run. -/
theorem stays (inv : σ → Prop) (keeps : ∀ ⦃s label t⦄, step s label t → inv s → inv t)
    {s u : σ} {labels : List Label} (run : Run step s labels u) (start : inv s) : inv u :=
  run.invariant (fun _ => True) (fun _ _ _ here _ taken => keeps taken here)
    (fun _ _ => trivial) start

/-- A run that starts in an invariant is a run of the steps within it. -/
theorem within (inv : σ → Prop) (keeps : ∀ ⦃s label t⦄, inv s → step s label t → inv t)
    {s u : σ} {labels : List Label} (run : Run step s labels u) (start : inv s) :
    Run (fun s label t => inv s ∧ step s label t) s labels u := by
  induction run with
  | nil => exact .nil _
  | cons taken _ ih => exact .cons ⟨start, taken⟩ (ih (keeps start taken))

/-- A run whose labels are all admitted is a run of admitted steps. -/
theorem restrict {admitted : Label → Prop} {s u : σ} {labels : List Label}
    (run : Run step s labels u) (all : ∀ label ∈ labels, admitted label) :
    Run (fun s label t => admitted label ∧ step s label t) s labels u := by
  induction run with
  | nil => exact .nil _
  | cons taken _ ih =>
      obtain ⟨here, later⟩ := List.forall_mem_cons.mp all
      exact .cons ⟨here, taken⟩ (ih later)

/-- An invariant of the state and the labels so far holds at the end of a run. -/
theorem traced {inv : List Label → σ → Prop}
    (keeps : ∀ ⦃past s label t⦄, inv past s → step s label t → inv (past ++ [label]) t)
    {s u : σ} {labels past : List Label} (run : Run step s labels u) (start : inv past s) :
    inv (past ++ labels) u := by
  induction run generalizing past with
  | nil => simpa using start
  | cons taken _ ih =>
      rw [List.append_cons]
      exact ih (keeps start taken)

/-- When a step either leaves a counter alone or takes its value and adds one, the values that
a run takes from zero on are zero, one, two and so on, up to the counter. -/
theorem counted {N : Type} {value : N → ℕ} {takes : Label → Option N} (counter : σ → ℕ)
    (idle : ∀ ⦃s label t⦄, step s label t → takes label = none → counter t = counter s)
    (counts : ∀ ⦃s label t⦄, step s label t → ∀ n, takes label = some n →
      value n = counter s ∧ counter t = value n + 1)
    {s u : σ} {labels : List Label} (run : Run step s labels u) (zero : counter s = 0) :
    (labels.filterMap takes).map value = List.range (counter u) := by
  let inv : List Label → σ → Prop := fun past s =>
    (past.filterMap takes).map value = List.range (counter s)
  have keeps : ∀ ⦃past s label t⦄, inv past s → step s label t → inv (past ++ [label]) t := by
    intro past s label t sofar taken
    change ((past ++ [label]).filterMap takes).map value = List.range (counter t)
    rw [List.filterMap_append, List.map_append, show _ = List.range (counter s) from sofar]
    cases took : takes label with
    | none => simp [took, idle taken took]
    | some n =>
        obtain ⟨now, next⟩ := counts taken n took
        simp [took, next, now, List.range_succ]
  have start : inv [] s := by simp [inv, zero]
  exact run.traced keeps start

/-- A measure that every step moves by the cost of its label is moved by the sum of
the costs. -/
theorem tallied {M : Type} [AddMonoid M] (measure : σ → M) (cost : Label → M)
    (moves : ∀ ⦃s label t⦄, step s label t → measure t = measure s + cost label)
    {s u : σ} {labels : List Label} (run : Run step s labels u) :
    measure u = measure s + (labels.map cost).sum := by
  induction run with
  | nil => simp
  | cons taken _ ih => rw [ih, moves taken, List.map_cons, List.sum_cons, add_assoc]

/-- A label of a run stands between two runs. -/
theorem around {s u : σ} {label : Label} {earlier later : List Label}
    (run : Run step s (earlier ++ label :: later) u) :
    ∃ t v, Run step s earlier t ∧ step t label v ∧ Run step v later u := by
  obtain ⟨t, before, rest⟩ := run.split
  cases rest with
  | cons taken after => exact ⟨t, _, before, taken, after⟩

/-- What an invariant and one step imply about the label of the step holds of
every label of a run. -/
theorem forall_labels {inv : σ → Prop} {fact : Label → Prop}
    (keeps : ∀ ⦃s label t⦄, inv s → step s label t → inv t)
    (implies : ∀ ⦃s label t⦄, inv s → step s label t → fact label)
    {s u : σ} {labels : List Label} (run : Run step s labels u) (start : inv s) :
    ∀ label ∈ labels, fact label := by
  induction run with
  | nil => simp
  | cons taken _ ih =>
      exact List.forall_mem_cons.mpr ⟨implies start taken, ih (keeps start taken)⟩

end Run

/-! ## What happened last -/

/-- Some label opens, and since then all labels keep: the `since` of temporal logic
of the past. -/
def Since (opens keeps : Label → Prop) (past : List Label) : Prop :=
  ∃ before opener between, past = before ++ opener :: between ∧ opens opener ∧
    ∀ label ∈ between, keeps label

namespace Since

variable {opens keeps : Label → Prop} {past : List Label} {label : Label}

theorem now (opened : opens label) : Since opens keeps (past ++ [label]) :=
  ⟨past, label, [], rfl, opened, by simp⟩

theorem still (since : Since opens keeps past) (kept : keeps label) :
    Since opens keeps (past ++ [label]) := by
  obtain ⟨before, opener, between, rfl, opened, all⟩ := since
  refine ⟨before, opener, between ++ [label], by simp, opened, fun other member => ?_⟩
  rcases List.mem_append.mp member with member | member
  · exact all other member
  · exact List.mem_singleton.mp member ▸ kept

theorem opener (since : Since opens keeps past) : ∃ label ∈ past, opens label := by
  obtain ⟨before, opener, between, rfl, opened, -⟩ := since
  exact ⟨opener, by simp, opened⟩

theorem mono {opens' : Label → Prop} (since : Since opens keeps past)
    (included : ∀ label, opens label → opens' label) : Since opens' keeps past := by
  obtain ⟨before, opener, between, shape, opened, all⟩ := since
  exact ⟨before, opener, between, shape, included opener opened, all⟩

/-- After a label that neither opens nor keeps it was opened again. -/
theorem reopened {before between : List Label} (since : Since opens keeps (before ++ label :: between))
    (closes : ¬ keeps label) (idle : ¬ opens label) : ∃ opener ∈ between, opens opener := by
  obtain ⟨before', opener, between', shape, opened, all⟩ := since
  rcases List.append_eq_append_iff.mp shape with ⟨extra, rfl, rest⟩ | ⟨extra, rfl, rest⟩
  · cases extra with
    | nil =>
      obtain ⟨rfl, -⟩ := List.cons.inj rest
      exact absurd opened idle
    | cons first extra =>
      obtain ⟨-, rfl⟩ := List.cons.inj rest
      exact ⟨opener, by simp, opened⟩
  · cases extra with
    | nil =>
      obtain ⟨rfl, -⟩ := List.cons.inj rest
      exact absurd opened idle
    | cons first extra =>
      obtain ⟨-, rfl⟩ := List.cons.inj rest
      exact absurd (all label (by simp)) closes

end Since

namespace Run

section Marks

variable (marked : σ → Prop)

/-- From a marked state no step finds the mark unset. -/
theorem none_hits (hits : Label → Prop)
    (finds : ∀ ⦃s label t⦄, step s label t → hits label → ¬ marked s)
    (keeps : ∀ ⦃s label t⦄, step s label t → marked s → marked t)
    {s u : σ} {labels : List Label} (run : Run step s labels u) (set : marked s) :
    ∀ label ∈ labels, ¬ hits label := by
  induction run with
  | nil => simp
  | cons taken _ ih =>
      exact List.forall_mem_cons.mpr ⟨fun hit => finds taken hit set, ih (keeps taken set)⟩

/-- After a step that sets the mark comes no step that finds it unset. -/
theorem neverAfter (sets hits : Label → Prop)
    (marks : ∀ ⦃s label t⦄, step s label t → sets label → marked t)
    (finds : ∀ ⦃s label t⦄, step s label t → hits label → ¬ marked s)
    (keeps : ∀ ⦃s label t⦄, step s label t → marked s → marked t)
    {s u : σ} {labels : List Label} (run : Run step s labels u) :
    labels.Pairwise fun earlier later => ¬ (sets earlier ∧ hits later) := by
  induction run with
  | nil => exact .nil
  | cons taken rest ih =>
      refine List.pairwise_cons.mpr ⟨fun later member both => ?_, ih⟩
      exact none_hits marked hits finds keeps rest (marks taken both.1) later member both.2

/-- A step that finds the mark unset and sets it happens at most once. -/
theorem atMostOnce (hits : Label → Prop)
    (takes : ∀ ⦃s label t⦄, step s label t → hits label → ¬ marked s ∧ marked t)
    (keeps : ∀ ⦃s label t⦄, step s label t → marked s → marked t)
    {s u : σ} {labels : List Label} (run : Run step s labels u) :
    labels.Pairwise fun earlier later => ¬ (hits earlier ∧ hits later) :=
  neverAfter marked hits hits (fun _ _ _ taken hit => (takes taken hit).2)
    (fun _ _ _ taken hit => (takes taken hit).1) keeps run

end Marks

end Run

end Foundations
