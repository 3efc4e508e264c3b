import Mathlib.Data.List.Pairwise
import Mathlib.Order.Lattice

/-!
# Tables of disjoint intervals

A table lists entries with a least and a greatest point, each above the one before. At
most one entry spans a point, so a search for the first that spans it finds that one,
whatever order it goes in (`Ascending.find?_eq_some`, `Ascending.find?_perm`).
-/

set_option autoImplicit false

namespace Foundations

variable {ι α : Type} [LinearOrder α] {least greatest : ι → α}

/-- An entry spans a point between its bounds, both included. -/
def Spans (least greatest : ι → α) (point : α) (entry : ι) : Prop :=
  least entry ≤ point ∧ point ≤ greatest entry

instance (point : α) : DecidablePred (Spans least greatest point) :=
  fun entry => inferInstanceAs (Decidable (least entry ≤ point ∧ point ≤ greatest entry))

/-- The entries are intervals, each above the one before. -/
structure Ascending (least greatest : ι → α) (entries : List ι) : Prop where
  filled : ∀ entry ∈ entries, least entry ≤ greatest entry
  above : entries.Pairwise fun entry later => greatest entry < least later

namespace Ascending

variable {entries : List ι} {point : α}

theorem nil : Ascending least greatest [] := ⟨nofun, .nil⟩

theorem tail {entry : ι} (ascending : Ascending least greatest (entry :: entries)) :
    Ascending least greatest entries :=
  ⟨fun later member => ascending.filled later (List.mem_cons_of_mem _ member),
    ascending.above.tail⟩

/-- An entry below the others of a table may come before them. -/
theorem cons {entry : ι} (filled : least entry ≤ greatest entry)
    (first : ∀ later ∈ entries, greatest entry < least later)
    (ascending : Ascending least greatest entries) :
    Ascending least greatest (entry :: entries) :=
  ⟨List.forall_mem_cons.mpr ⟨filled, ascending.filled⟩, .cons first ascending.above⟩

/-- What spans a point is not spanned by what comes after. -/
theorem alone {entry later : ι} (ascending : Ascending least greatest (entry :: entries))
    (member : later ∈ entries) (spans : Spans least greatest point entry) :
    ¬ Spans least greatest point later := by
  intro spans'
  have above : greatest entry < least later := (List.pairwise_cons.mp ascending.above).1 _ member
  exact absurd (le_trans spans'.1 spans.2) (not_le.mpr above)

/-- At most one place of the table spans a point. -/
theorem length_filter_le_one (ascending : Ascending least greatest entries) (point : α) :
    (entries.filter fun entry => decide (Spans least greatest point entry)).length ≤ 1 := by
  induction entries with
  | nil => exact Nat.zero_le _
  | cons entry rest ih =>
      by_cases spans : Spans least greatest point entry
      · have none : rest.filter (fun later => decide (Spans least greatest point later)) = [] := by
          refine List.filter_eq_nil_iff.mpr fun later member => ?_
          simpa using ascending.alone member spans
        rw [List.filter_cons_of_pos (by simpa using spans), none]
        exact Nat.le_refl 1
      · rw [List.filter_cons_of_neg (by simpa using spans)]
        exact ih ascending.tail

theorem unique (ascending : Ascending least greatest entries) {entry entry' : ι}
    (member : entry ∈ entries) (member' : entry' ∈ entries)
    (spans : Spans least greatest point entry) (spans' : Spans least greatest point entry') :
    entry = entry' := by
  induction entries with
  | nil => contradiction
  | cons first rest ih =>
      rcases List.mem_cons.mp member with rfl | later <;>
        rcases List.mem_cons.mp member' with rfl | later'
      · rfl
      · exact absurd spans' (ascending.alone later' spans)
      · exact absurd spans (ascending.alone later spans')
      · exact ih ascending.tail later later'

/-- The first entry that spans a point, in any order of the entries, is the one that does. -/
theorem find?_eq_some (ascending : Ascending least greatest entries) {order : List ι}
    (same : order.Perm entries) {entry : ι} :
    order.find? (fun entry => decide (Spans least greatest point entry)) = some entry ↔
      entry ∈ entries ∧ Spans least greatest point entry := by
  constructor
  · intro found
    exact ⟨same.subset (List.mem_of_find?_eq_some found), by simpa using List.find?_some found⟩
  · rintro ⟨member, spans⟩
    cases found : order.find? (fun entry => decide (Spans least greatest point entry)) with
    | none =>
        have missed := List.find?_eq_none.mp found entry (same.symm.subset member)
        simp [spans] at missed
    | some entry' =>
        have member' := same.subset (List.mem_of_find?_eq_some found)
        have spans' : Spans least greatest point entry' := by simpa using List.find?_some found
        rw [ascending.unique member' member spans' spans]

theorem find?_perm (ascending : Ascending least greatest entries) {order : List ι}
    (same : order.Perm entries) :
    order.find? (fun entry => decide (Spans least greatest point entry)) =
      entries.find? fun entry => decide (Spans least greatest point entry) :=
  Option.ext fun _ =>
    (ascending.find?_eq_some same).trans (ascending.find?_eq_some (.refl _)).symm

end Ascending

end Foundations
