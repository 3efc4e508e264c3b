import Mathlib.Data.List.Infix
import Mathlib.Order.MinMax

/-!
# Checkpoints in a growing log

A reader works through the entries of a log that only grows, and remembers how far it
came. What is done is a set of positions. A list of entries covers a range of the log
when a reader that takes them in order, and finds everything below the range done, has
everything below an entry done by the time it takes that entry (`Covers.head`), so that
it may set its checkpoint there.

Lists that cover are joined end to end (`Covers.append`); a slice of the log covers its
own range (`Covers.slice`).
-/

set_option autoImplicit false

namespace Foundations

variable {α : Type}

/-! ## Ranges -/

/-- Everything in a range of positions is done. -/
def DoneWithin (done : ℕ → Prop) (first last : ℕ) : Prop :=
  ∀ i, first ≤ i → i < last → done i

namespace DoneWithin

variable {done done' : ℕ → Prop} {first middle last : ℕ}

theorem mono (within : DoneWithin done first last) (still : ∀ i, done i → done' i) :
    DoneWithin done' first last := fun i above below => still i (within i above below)

theorem trans (lower : DoneWithin done first middle) (upper : DoneWithin done middle last) :
    DoneWithin done first last := by
  intro i above below
  rcases lt_or_ge i middle with under | beyond
  · exact lower i above under
  · exact upper i beyond below

theorem empty (none : last ≤ first) : DoneWithin done first last := by
  intro i above below
  omega

theorem succ (lower : DoneWithin done first last) (next : done last) :
    DoneWithin done first (last + 1) := by
  intro i above below
  rcases Nat.lt_succ_iff_lt_or_eq.mp below with under | rfl
  · exact lower i above under
  · exact next

theorem max (lower : DoneWithin done first middle) (upper : DoneWithin done first last) :
    DoneWithin done first (max middle last) := by
  intro i above below
  exact (lt_max_iff.mp below).elim (lower i above) (upper i above)

end DoneWithin

/-! ## Lists of entries -/

theorem getElem?_of_grown {log log' : List α} {j : ℕ} {entry : α} (grown : log <+: log')
    (here : log[j]? = some entry) : log'[j]? = some entry := by
  obtain ⟨more, rfl⟩ := grown
  obtain ⟨inside, -⟩ := List.getElem?_eq_some_iff.mp here
  rw [List.getElem?_append_left inside, here]

/-- The entries of a list, taken in order, lead a reader from one position to another: between
an entry and what the entries before it reached, everything is done already. -/
inductive Covers (log : List α) (done : ℕ → Prop) : ℕ → List α → ℕ → Prop where
  | nil {first last : ℕ} : DoneWithin done first last → Covers log done first [] last
  | cons {first j last : ℕ} {entry : α} {rest : List α} :
      log[j]? = some entry → DoneWithin done first j →
        Covers log done (max first (j + 1)) rest last → Covers log done first (entry :: rest) last

namespace Covers

variable {log log' : List α} {done done' : ℕ → Prop} {first middle last : ℕ} {entry : α}
  {rest todo later : List α}

theorem mono (covers : Covers log done first todo last) (grown : log <+: log')
    (still : ∀ i, done i → done' i) : Covers log' done' first todo last := by
  induction covers with
  | nil within => exact .nil (within.mono still)
  | cons here within _ ih => exact .cons (getElem?_of_grown grown here) (within.mono still) ih

/-- A reader may begin lower where the part in between is done. -/
theorem lower (covers : Covers log done middle todo last)
    (within : DoneWithin done first middle) : Covers log done first todo last := by
  induction covers generalizing first with
  | nil above => exact .nil (within.trans above)
  | @cons middle j last entry rest here above _ ih =>
      refine .cons here (within.trans above) (ih fun i over_ below => ?_)
      exact within i (by omega) (by omega)

theorem append (covers : Covers log done first todo middle)
    (onward : Covers log done middle later last) : Covers log done first (todo ++ later) last := by
  induction covers with
  | nil within => exact onward.lower within
  | cons here within _ ih => exact .cons here within (ih onward)

/-- One more entry, when everything before it is done or covered. -/
theorem snoc {j : ℕ} (covers : Covers log done first todo last) (here : log[j]? = some entry)
    (between : DoneWithin done last j) :
    Covers log done first (todo ++ [entry]) (max last (j + 1)) :=
  covers.append (.cons here between (.nil (.empty le_rfl)))

/-- When a reader takes the first entry, everything below it is done. -/
theorem head (covers : Covers log done first (entry :: rest) last)
    (below : DoneWithin done 0 first) :
    ∃ j, log[j]? = some entry ∧ DoneWithin done 0 j ∧
      (done j → ∃ next, DoneWithin done 0 next ∧ Covers log done next rest last) := by
  cases covers with
  | @cons _ j _ _ _ here within covers =>
    have under : DoneWithin done 0 j := below.trans within
    exact ⟨j, here, under, fun now => ⟨_, below.max (under.succ now), covers⟩⟩

/-- Entries below a position lead nowhere else. -/
theorem of_below (members : ∀ entry ∈ todo, ∃ j < first, log[j]? = some entry) :
    Covers log done first todo first := by
  induction todo with
  | nil => exact .nil (.empty le_rfl)
  | cons entry rest ih =>
      obtain ⟨⟨j, under, here⟩, members⟩ := List.forall_mem_cons.mp members
      refine .cons here (.empty under.le) ?_
      rw [max_eq_left under]
      exact ih members

/-- A slice of the log leads from its beginning to its end. -/
theorem slice (within : last ≤ log.length) (first : ℕ) (nonneg : first ≤ last) :
    Covers log done first ((log.take last).drop first) last := by
  induction nonneg using Nat.decreasingInduction with
  | self =>
    rw [List.drop_eq_nil_of_le (List.length_take_le ..)]
    exact .nil (.empty le_rfl)
  | of_succ first under ih =>
    have inside : first < (log.take last).length := by rw [List.length_take]; omega
    rw [List.drop_eq_getElem_cons inside, List.getElem_take]
    refine .cons (List.getElem?_eq_getElem _) (.empty le_rfl) ?_
    rw [max_eq_right (Nat.le_succ first)]
    exact ih

end Covers

/-- Two slices that meet are one. -/
theorem slice_append {log : List α} {first middle last : ℕ} (lower : first ≤ middle)
    (upper : middle ≤ last) (within : last ≤ log.length) :
    (log.take middle).drop first ++ (log.take last).drop middle = (log.take last).drop first := by
  have inside : first ≤ ((log.take last).take middle).length := by
    rw [List.take_take, List.length_take]
    omega
  have parts := congrArg (List.drop first) (List.take_append_drop middle (log.take last))
  rw [List.drop_append_of_le_length inside, List.take_take, min_eq_left upper] at parts
  exact parts

/-- An entry of a slice stands in the log, and the slice goes on above it. -/
theorem slice_split {log lower upper : List α} {entry : α} {first last : ℕ}
    (slice : (log.take last).drop first = lower ++ entry :: upper) :
    log[first + lower.length]? = some entry ∧ first + lower.length < last ∧
      upper = (log.take last).drop (first + lower.length + 1) := by
  have here : ((log.take last).drop first)[lower.length]? = some entry := by
    rw [slice, List.getElem?_append_right le_rfl, Nat.sub_self, List.getElem?_cons_zero]
  rw [List.getElem?_drop] at here
  obtain ⟨inside, -⟩ := List.getElem?_eq_some_iff.mp here
  rw [List.length_take] at inside
  have under : first + lower.length < last := lt_of_lt_of_le inside (min_le_left ..)
  refine ⟨by rwa [List.getElem?_take_of_lt under] at here, under, ?_⟩
  rw [Nat.add_assoc, ← List.drop_drop, slice, ← List.drop_drop, List.drop_left, List.drop_one,
    List.tail_cons]

end Foundations
