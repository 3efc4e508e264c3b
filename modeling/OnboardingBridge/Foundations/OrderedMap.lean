import Mathlib.Data.List.Pairwise
import Mathlib.Order.Lattice

/-!
# Maps ordered by their keys

A map is a list of entries with strictly increasing keys. The order is part of
the type, so iterating over a map visits its keys once each and in order.
-/

set_option autoImplicit false

namespace Foundations

/-- A finite map whose entries are listed in increasing order of their keys. -/
structure OrderedMap (κ β : Type) [LinearOrder κ] where
  entries : List (κ × β)
  sorted : entries.Pairwise fun earlier later => earlier.1 < later.1

namespace OrderedMap

variable {κ β : Type} [LinearOrder κ]

/-- Put an entry at its place, replacing the entry with the same key. -/
def insertEntry (key : κ) (value : β) : List (κ × β) → List (κ × β)
  | [] => [(key, value)]
  | entry :: rest =>
      if key < entry.1 then (key, value) :: entry :: rest
      else if key = entry.1 then (key, value) :: rest
      else entry :: insertEntry key value rest

theorem mem_insertEntry {key : κ} {value : β} {entries : List (κ × β)} {found : κ × β}
    (member : found ∈ insertEntry key value entries) :
    found = (key, value) ∨ found ∈ entries := by
  induction entries with
  | nil => simpa [insertEntry] using member
  | cons entry rest ih =>
      simp only [insertEntry] at member
      split at member
      · simpa using member
      · split at member
        · rcases List.mem_cons.mp member with here | later
          · exact .inl here
          · exact .inr (List.mem_cons_of_mem _ later)
        · rcases List.mem_cons.mp member with here | later
          · exact .inr (here ▸ List.mem_cons_self ..)
          · exact (ih later).imp_right (List.mem_cons_of_mem _)

theorem insertEntry_sorted (key : κ) (value : β) {entries : List (κ × β)}
    (sorted : entries.Pairwise fun earlier later => earlier.1 < later.1) :
    (insertEntry key value entries).Pairwise fun earlier later => earlier.1 < later.1 := by
  induction entries with
  | nil => simp [insertEntry]
  | cons entry rest ih =>
      obtain ⟨first, others⟩ := List.pairwise_cons.mp sorted
      simp only [insertEntry]
      split
      · next before =>
        refine List.pairwise_cons.mpr ⟨fun later member => ?_, sorted⟩
        rcases List.mem_cons.mp member with rfl | member
        · exact before
        · exact lt_trans before (first later member)
      · next notBefore =>
        split
        · next same =>
          exact List.pairwise_cons.mpr ⟨fun later member => same ▸ first later member, others⟩
        · next different =>
          refine List.pairwise_cons.mpr ⟨fun later member => ?_, ih others⟩
          rcases mem_insertEntry member with rfl | member
          · exact lt_of_le_of_ne (not_lt.mp notBefore) (Ne.symm different)
          · exact first later member

def empty : OrderedMap κ β := ⟨[], .nil⟩

/-- The value at a key. -/
def get (map : OrderedMap κ β) (key : κ) : Option β :=
  (map.entries.find? fun entry => entry.1 = key).map Prod.snd

theorem get_eq_some {map : OrderedMap κ β} {key : κ} {value : β} :
    map.get key = some value ↔ (key, value) ∈ map.entries := by
  obtain ⟨entries, sorted⟩ := map
  simp only [get]
  induction entries with
  | nil => simp
  | cons entry rest ih =>
      obtain ⟨first, others⟩ := List.pairwise_cons.mp sorted
      by_cases same : entry.1 = key
      · have absent : (key, value) ∉ rest := fun member =>
          lt_irrefl _ (same ▸ first _ member)
        rw [List.find?_cons_of_pos (by simpa using same), List.mem_cons]
        simp only [absent, or_false, Option.map_some, Option.some.injEq, Prod.ext_iff, same,
          true_and, eq_comm]
      · have different : (key, value) ≠ entry := fun equal => same (equal ▸ rfl)
        rw [List.find?_cons_of_neg (by simpa using same), ih others, List.mem_cons]
        simp [different]

/-- Set the value at a key. -/
def set (map : OrderedMap κ β) (key : κ) (value : β) : OrderedMap κ β where
  entries := insertEntry key value map.entries
  sorted := insertEntry_sorted key value map.sorted

/-- Remove the entry at a key. -/
def remove (map : OrderedMap κ β) (key : κ) : OrderedMap κ β where
  entries := map.entries.filter fun entry => entry.1 ≠ key
  sorted := map.sorted.filter _

end OrderedMap

end Foundations
