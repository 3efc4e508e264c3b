import Mathlib.Data.List.Nodup

/-!
# A set that is stored three times

A roster keeps its members as a list, as a flag for each candidate and as a
number. The three agree when the list has no duplicates, its length is the number
and it has the flagged candidates (`Agrees`); adding and removing a member keep
that. A threshold is a quorum when the members, once there are any, can reach it.
-/

set_option autoImplicit false

namespace Foundations

/-- A set of members, stored as a flag each, as a list and as a number. -/
structure Roster (α : Type) where
  flags : α → Bool
  members : List α
  count : Nat

namespace Roster

variable {α : Type} [DecidableEq α] {roster : Roster α} {candidate : α} {threshold : Nat}

/-- Add a candidate unless it is flagged. -/
def add (roster : Roster α) (candidate : α) : Roster α :=
  if roster.flags candidate = true then roster
  else ⟨Function.update roster.flags candidate true, roster.members ++ [candidate], roster.count + 1⟩

/-- Remove a candidate if it is flagged, and count the members that are left. -/
def remove (roster : Roster α) (candidate : α) : Roster α :=
  if roster.flags candidate = true then
    ⟨Function.update roster.flags candidate false, roster.members.erase candidate,
      (roster.members.erase candidate).length⟩
  else roster

/-- The list, the flags and the number describe the same set. -/
structure Agrees (roster : Roster α) : Prop where
  count : roster.count = roster.members.length
  nodup : roster.members.Nodup
  flagged : ∀ candidate, candidate ∈ roster.members ↔ roster.flags candidate = true

theorem Agrees.add (agrees : roster.Agrees) (candidate : α) : (roster.add candidate).Agrees := by
  unfold Roster.add
  split
  · exact agrees
  · next unflagged =>
    have absent : candidate ∉ roster.members := fun member =>
      unflagged ((agrees.flagged candidate).mp member)
    refine ⟨?_, ?_, fun other => ?_⟩
    · simp [agrees.count]
    · exact agrees.nodup.append (List.nodup_singleton _) (by simpa using absent)
    · by_cases same : other = candidate
      · simp [same]
      · simp [same, agrees.flagged]

theorem Agrees.remove (agrees : roster.Agrees) (candidate : α) :
    (roster.remove candidate).Agrees := by
  unfold Roster.remove
  split
  · refine ⟨rfl, agrees.nodup.erase candidate, fun other => ?_⟩
    simp only [agrees.nodup.mem_erase_iff, agrees.flagged]
    by_cases same : other = candidate
    · simp [same]
    · simp [same]
  · exact agrees

/-- Removing a member leaves one member less. -/
theorem Agrees.count_remove (agrees : roster.Agrees) (flagged : roster.flags candidate = true) :
    (roster.remove candidate).count = roster.count - 1 := by
  simp only [Roster.remove, flagged, if_true, agrees.count]
  exact List.length_erase_of_mem ((agrees.flagged candidate).mpr flagged)

/-- The threshold is positive, and is reached once all members join in, unless there
are none. -/
def Quorum (roster : Roster α) (threshold : Nat) : Prop :=
  1 ≤ threshold ∧ threshold ≤ max 1 roster.count

omit [DecidableEq α] in
theorem Quorum.reached (quorum : roster.Quorum threshold) (inhabited : 0 < roster.count) :
    threshold ≤ roster.count := by
  obtain ⟨-, within⟩ := quorum
  omega

theorem Quorum.add (quorum : roster.Quorum threshold) (candidate : α) :
    (roster.add candidate).Quorum threshold := by
  obtain ⟨positive, within⟩ := quorum
  unfold Roster.add
  split
  · exact ⟨positive, within⟩
  · refine ⟨positive, ?_⟩
    show threshold ≤ max 1 (roster.count + 1)
    omega

/-- A member may go when the others are as many as the threshold. -/
theorem Quorum.remove (agrees : roster.Agrees) (quorum : roster.Quorum threshold)
    (spare : roster.flags candidate = true → threshold ≤ roster.count - 1) :
    (roster.remove candidate).Quorum threshold := by
  by_cases flagged : roster.flags candidate = true
  · refine ⟨quorum.1, ?_⟩
    rw [agrees.count_remove flagged]
    have enough := spare flagged
    omega
  · rw [Roster.remove, if_neg flagged]
    exact quorum

/-- After an addition there are members. -/
theorem Agrees.inhabited_add (agrees : roster.Agrees) (candidate : α) :
    0 < (roster.add candidate).count := by
  unfold Roster.add
  split
  · next flagged =>
    rw [agrees.count]
    exact List.length_pos_of_mem ((agrees.flagged candidate).mpr flagged)
  · exact Nat.succ_pos _

end Roster

end Foundations
