import Mathlib.Data.Finset.Card
import Mathlib.Data.List.Nodup

/-!
# Orders of recency

Entries are kept with the one that was used last at the end. An entry that is dropped from the
front, because there are more entries than a limit, was followed by as many others as the limit
allows (`RecencyOrder.retains`).
-/

set_option autoImplicit false

namespace Foundations

variable {K E : Type}

/-- Entries with keys of their own, each of which is followed by keys that were touched since its
own key was touched last. -/
structure RecencyOrder (touched : K → Finset K) (entries : List (K × E)) : Prop where
  distinct : (entries.map Prod.fst).Nodup
  recent : entries.Pairwise fun older newer => newer.1 ∈ touched older.1

namespace RecencyOrder

variable {touched touched' : K → Finset K} {entries kept : List (K × E)} {key : K}

theorem nil : RecencyOrder touched ([] : List (K × E)) := ⟨List.nodup_nil, List.Pairwise.nil⟩

theorem sublist (order : RecencyOrder touched entries) (sub : kept.Sublist entries) :
    RecencyOrder touched kept :=
  ⟨order.distinct.sublist (sub.map _), order.recent.sublist sub⟩

variable [DecidableEq K]

/-- An entry is put at the end, whether there was one of its key or not. -/
theorem moved_last (order : RecencyOrder touched entries) (entry : E)
    (touches : ∀ other, other ≠ key → touched' other = insert key (touched other)) :
    RecencyOrder touched' ((entries.filter fun other => other.1 ≠ key) ++ [(key, entry)]) := by
  have others : ∀ other ∈ entries.filter (fun other => other.1 ≠ key), other.1 ≠ key := by
    intro other member
    simpa using (List.mem_filter.mp member).2
  have remaining := order.sublist (List.filter_sublist (p := fun other => other.1 ≠ key))
  constructor
  · rw [List.map_append, List.map_singleton, List.nodup_append]
    refine ⟨remaining.distinct, List.nodup_singleton key, ?_⟩
    intro name member last isLast same
    obtain rfl := List.mem_singleton.mp isLast
    obtain ⟨other, memberOther, rfl⟩ := List.mem_map.mp member
    exact others other memberOther same
  · rw [List.pairwise_append]
    refine ⟨?_, List.pairwise_singleton _ _, ?_⟩
    · refine remaining.recent.imp_of_mem ?_
      intro older newer memberOlder _ recent
      rw [touches older.1 (others older memberOlder)]
      exact Finset.mem_insert_of_mem recent
    · intro older memberOlder last isLast
      obtain rfl := List.mem_singleton.mp isLast
      rw [touches older.1 (others older memberOlder)]
      exact Finset.mem_insert_self key _

/-- What is dropped to keep to a limit was followed by that many keys. -/
theorem retains (order : RecencyOrder touched entries) {limit : ℕ} {entry : K × E}
    (member : entry ∈ entries) (few : (touched entry.1).card < limit) :
    entry ∈ entries.drop (entries.length - limit) := by
  rw [← List.take_append_drop (entries.length - limit) entries] at member
  rcases List.mem_append.mp member with dropped | remains
  · exfalso
    have whole := order.recent
    rw [← List.take_append_drop (entries.length - limit) entries] at whole
    have after := (List.pairwise_append.mp whole).2.2 entry dropped
    have keys : ((entries.drop (entries.length - limit)).map Prod.fst).toFinset ⊆
        touched entry.1 := by
      intro name isKey
      obtain ⟨newer, memberNewer, rfl⟩ := List.mem_map.mp (List.mem_toFinset.mp isKey)
      exact after newer memberNewer
    have distinct := (order.sublist (List.drop_sublist (entries.length - limit) entries)).distinct
    have count := Finset.card_le_card keys
    rw [List.toFinset_card_of_nodup distinct, List.length_map, List.length_drop] at count
    have some : 0 < entries.length - limit := by
      rcases Nat.eq_zero_or_pos (entries.length - limit) with none | some
      · rw [none] at dropped
        cases dropped
      · exact some
    omega
  · exact remains

end RecencyOrder

end Foundations
