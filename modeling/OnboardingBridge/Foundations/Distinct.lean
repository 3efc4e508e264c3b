import Mathlib.Data.Finset.Card
import Mathlib.Data.List.Nodup

/-!
# Distinct keys

From a list in which several entries may have the same key, the first of each key is
kept. What is kept has distinct keys, and there are as many as distinct keys in the
list (`atLeast_iff_length`).
-/

set_option autoImplicit false

namespace Foundations

variable {α κ : Type}

/-- The entries of a list whose key neither was seen before nor belongs to an earlier entry. -/
def keepFirst [DecidableEq κ] (key : α → κ) (seen : List κ) : List α → List α
  | [] => []
  | entry :: rest =>
      if key entry ∈ seen then keepFirst key seen rest
      else entry :: keepFirst key (key entry :: seen) rest

/-- At least so many keys have a property. -/
def AtLeast (n : ℕ) (has : κ → Prop) : Prop :=
  ∃ keys : Finset κ, n ≤ keys.card ∧ ∀ key ∈ keys, has key

theorem AtLeast.mono {n : ℕ} {has has' : κ → Prop} (enough : AtLeast n has)
    (still : ∀ key, has key → has' key) : AtLeast n has' := by
  obtain ⟨keys, count, all⟩ := enough
  exact ⟨keys, count, fun key member => still key (all key member)⟩

section

variable [DecidableEq κ] (key : α → κ)

theorem keepFirst_subset (seen : List κ) (entries : List α) :
    ∀ entry ∈ keepFirst key seen entries, entry ∈ entries := by
  induction entries generalizing seen with
  | nil => exact fun entry member => member
  | cons first rest ih =>
      intro entry member
      rw [keepFirst] at member
      split at member
      · exact List.mem_cons_of_mem _ (ih seen entry member)
      · rcases List.mem_cons.mp member with rfl | later
        · exact List.mem_cons_self
        · exact List.mem_cons_of_mem _ (ih _ entry later)

/-- The keys that are kept are those of the list that were not seen. -/
theorem mem_keepFirst_keys (seen : List κ) (entries : List α) (k : κ) :
    k ∈ (keepFirst key seen entries).map key ↔ k ∈ entries.map key ∧ k ∉ seen := by
  induction entries generalizing seen with
  | nil => simp [keepFirst]
  | cons first rest ih =>
      rw [keepFirst]
      split
      · next known =>
        rw [ih, List.map_cons, List.mem_cons]
        constructor
        · exact fun both => ⟨.inr both.1, both.2⟩
        · rintro ⟨rfl | later, fresh⟩
          · exact absurd known fresh
          · exact ⟨later, fresh⟩
      · next fresh =>
        rw [List.map_cons, List.map_cons, List.mem_cons, List.mem_cons, ih, List.mem_cons]
        by_cases same : k = key first
        · simp [same, fresh]
        · simp [same]

theorem keepFirst_keys_nodup (seen : List κ) (entries : List α) :
    ((keepFirst key seen entries).map key).Nodup := by
  induction entries generalizing seen with
  | nil => exact List.nodup_nil
  | cons first rest ih =>
      rw [keepFirst]
      split
      · exact ih seen
      · refine List.nodup_cons.mpr ⟨fun member => ?_, ih _⟩
        exact ((mem_keepFirst_keys key _ rest _).mp member).2 List.mem_cons_self

/-- As many entries are kept as there are distinct keys. -/
theorem atLeast_iff_length (entries : List α) (n : ℕ) :
    AtLeast n (· ∈ entries.map key) ↔ n ≤ (keepFirst key [] entries).length := by
  have nodup := keepFirst_keys_nodup key [] entries
  have card : ((keepFirst key [] entries).map key).toFinset.card =
      (keepFirst key [] entries).length := by
    rw [List.toFinset_card_of_nodup nodup, List.length_map]
  have members : ∀ k, k ∈ ((keepFirst key [] entries).map key).toFinset ↔
      k ∈ entries.map key := by
    intro k
    rw [List.mem_toFinset, mem_keepFirst_keys]
    exact and_iff_left List.not_mem_nil
  constructor
  · rintro ⟨keys, count, all⟩
    rw [← card]
    exact count.trans (Finset.card_le_card fun k member => (members k).mpr (all k member))
  · intro count
    exact ⟨_, card ▸ count, fun k member => (members k).mp member⟩

end

end Foundations
