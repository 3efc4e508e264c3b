import Mathlib.Algebra.Group.Nat.Defs
import Mathlib.Data.List.Nodup
import Mathlib.Logic.Function.Basic

/-!
# Numbering entries by key

The entries of a list are numbered, those of each key on their own. Key and number
together tell the entries of a numbered list apart (`numberFrom_nodup`). A list may be
numbered in parts: an entry has its number already when no earlier part has its key
(`mem_numberFrom_middle`). Leaving out all entries of some keys keeps the numbers of
the others (`mem_numberFrom_of_filter`).
-/

set_option autoImplicit false

namespace Foundations

variable {α κ : Type} [DecidableEq κ] (key : α → κ)

/-- Number the entries of a list, each key from what was counted of it before. -/
def numberFrom (counted : κ → ℕ) : List α → List (α × ℕ)
  | [] => []
  | entry :: rest =>
      (entry, counted (key entry)) ::
        numberFrom (Function.update counted (key entry) (counted (key entry) + 1)) rest

/-- What is counted after a list. -/
def countedAfter (counted : κ → ℕ) : List α → κ → ℕ
  | [] => counted
  | entry :: rest =>
      countedAfter (Function.update counted (key entry) (counted (key entry) + 1)) rest

/-- Number a list from zero. -/
abbrev numbered (entries : List α) : List (α × ℕ) := numberFrom key (fun _ => 0) entries

theorem numberFrom_append (counted : κ → ℕ) (entries later : List α) :
    numberFrom key counted (entries ++ later) =
      numberFrom key counted entries ++
        numberFrom key (countedAfter key counted entries) later := by
  induction entries generalizing counted with
  | nil => rfl
  | cons entry rest ih => rw [List.cons_append, numberFrom, ih]; rfl

theorem numberFrom_fst (counted : κ → ℕ) (entries : List α) :
    (numberFrom key counted entries).map Prod.fst = entries := by
  induction entries generalizing counted with
  | nil => rfl
  | cons entry rest ih => rw [numberFrom, List.map_cons, ih]

/-- An entry with a key that does not occur leaves the count of that key alone. -/
theorem countedAfter_of_absent {counted : κ → ℕ} {entries : List α} {k : κ}
    (absent : ∀ entry ∈ entries, key entry ≠ k) :
    countedAfter key counted entries k = counted k := by
  induction entries generalizing counted with
  | nil => rfl
  | cons entry rest ih =>
      obtain ⟨other, absent⟩ := List.forall_mem_cons.mp absent
      rw [countedAfter, ih absent, Function.update_of_ne other.symm]

theorem le_number {counted : κ → ℕ} {entries : List α} {pair : α × ℕ}
    (member : pair ∈ numberFrom key counted entries) : counted (key pair.1) ≤ pair.2 := by
  induction entries generalizing counted with
  | nil => cases member
  | cons entry rest ih =>
      rcases List.mem_cons.mp member with rfl | later
      · exact Nat.le_refl _
      · have above := ih later
        by_cases same : key pair.1 = key entry
        · rw [same, Function.update_self] at above
          rw [same]
          exact Nat.le_of_succ_le above
        · rwa [Function.update_of_ne same] at above

theorem number_lt {counted : κ → ℕ} {entries : List α} {pair : α × ℕ}
    (member : pair ∈ numberFrom key counted entries) :
    pair.2 < counted (key pair.1) + entries.length := by
  induction entries generalizing counted with
  | nil => cases member
  | cons entry rest ih =>
      rw [List.length_cons]
      rcases List.mem_cons.mp member with rfl | later
      · exact Nat.lt_add_of_pos_right (Nat.succ_pos _)
      · have below := ih later
        by_cases same : key pair.1 = key entry
        · rw [same, Function.update_self] at below
          rw [same]
          omega
        · rw [Function.update_of_ne same] at below
          omega

/-- Key and number tell the entries apart. -/
theorem numberFrom_nodup (counted : κ → ℕ) (entries : List α) :
    ((numberFrom key counted entries).map fun pair => (key pair.1, pair.2)).Nodup := by
  induction entries generalizing counted with
  | nil => exact List.nodup_nil
  | cons entry rest ih =>
      refine List.nodup_cons.mpr ⟨fun member => ?_, ih _⟩
      obtain ⟨pair, later, same⟩ := List.mem_map.mp member
      obtain ⟨sameKey, sameNumber⟩ := Prod.mk.inj same
      have above := le_number key later
      rw [sameKey, Function.update_self] at above
      omega

/-- The number of an entry depends on what was counted of its key only. -/
theorem mem_numberFrom_congr {counted counted' : κ → ℕ} {entries : List α} {pair : α × ℕ}
    (member : pair ∈ numberFrom key counted entries)
    (same : counted (key pair.1) = counted' (key pair.1)) :
    pair ∈ numberFrom key counted' entries := by
  induction entries generalizing counted counted' with
  | nil => cases member
  | cons entry rest ih =>
      rcases List.mem_cons.mp member with rfl | later
      · rw [numberFrom, ← same]
        exact List.mem_cons_self
      · refine List.mem_cons_of_mem _ (ih later ?_)
        by_cases own : key pair.1 = key entry
        · rw [own] at same ⊢
          rw [Function.update_self, Function.update_self, same]
        · rw [Function.update_of_ne own, Function.update_of_ne own, same]

theorem mem_numberFrom_left {counted : κ → ℕ} {entries : List α} {pair : α × ℕ}
    (later : List α) (member : pair ∈ numberFrom key counted entries) :
    pair ∈ numberFrom key counted (entries ++ later) := by
  rw [numberFrom_append]
  exact List.mem_append_left _ member

/-- An entry of a part has its number in the whole when no earlier part has its key. -/
theorem mem_numberFrom_middle {counted : κ → ℕ} {earlier part : List α} {pair : α × ℕ}
    (later : List α) (member : pair ∈ numberFrom key counted part)
    (absent : ∀ entry ∈ earlier, key entry ≠ key pair.1) :
    pair ∈ numberFrom key counted (earlier ++ part ++ later) := by
  refine mem_numberFrom_left key later ?_
  rw [numberFrom_append]
  exact List.mem_append_right _
    (mem_numberFrom_congr key member (countedAfter_of_absent key absent).symm)

theorem mem_of_mem_numberFrom {counted : κ → ℕ} {entries : List α} {pair : α × ℕ}
    (member : pair ∈ numberFrom key counted entries) : pair.1 ∈ entries := by
  rw [← numberFrom_fst key counted entries]
  exact List.mem_map_of_mem member

/-- Leaving out all entries of some keys keeps the numbers of the others. -/
theorem mem_numberFrom_of_filter {p : α → Bool} {counted : κ → ℕ} {entries : List α}
    {pair : α × ℕ} (whole : ∀ a ∈ entries, ∀ b ∈ entries, key a = key b → p a = p b)
    (member : pair ∈ numberFrom key counted (entries.filter p)) :
    pair ∈ numberFrom key counted entries := by
  induction entries generalizing counted with
  | nil => exact member
  | cons entry rest ih =>
      have later : ∀ a ∈ rest, ∀ b ∈ rest, key a = key b → p a = p b := fun a inA b inB =>
        whole a (List.mem_cons_of_mem _ inA) b (List.mem_cons_of_mem _ inB)
      cases kept : p entry with
      | true =>
        rw [List.filter_cons_of_pos kept] at member
        rcases List.mem_cons.mp member with rfl | further
        · exact List.mem_cons_self
        · exact List.mem_cons_of_mem _ (ih later further)
      | false =>
        rw [List.filter_cons_of_neg (by simp [kept])] at member
        refine List.mem_cons_of_mem _ (mem_numberFrom_congr key (ih later member) ?_)
        obtain ⟨inRest, stays⟩ := List.mem_filter.mp (mem_of_mem_numberFrom key member)
        have other : key pair.1 ≠ key entry := by
          intro same
          rw [whole _ (List.mem_cons_of_mem _ inRest) _ List.mem_cons_self same, kept] at stays
          cases stays
        rw [Function.update_of_ne other]

end Foundations
