import OnboardingBridge.Foundations.BigEndian

/-!
# Words and tails of an ABI payload

A payload of the Ethereum ABI is read in words of 32 bytes. A word may be an offset at which a
tail lies: the length of a content in a word, and then the content. Where a tail lies in the
payload, what lies beside it and whether tails overlap makes no difference to what is read
(`wordAt_eq_some`, `contentAt_eq_some`).
-/

set_option autoImplicit false

namespace Foundations

/-! ## Parts of a payload -/

/-- The payload holds a part at an offset. -/
def HoldsAt (payload : List UInt8) (offset : ℕ) (part : List UInt8) : Prop :=
  ∃ before rest, payload = before ++ (part ++ rest) ∧ before.length = offset

theorem holdsAt_iff {payload part : List UInt8} {offset : ℕ} :
    HoldsAt payload offset part ↔
      offset + part.length ≤ payload.length ∧ (payload.drop offset).take part.length = part := by
  constructor
  · rintro ⟨before, rest, rfl, rfl⟩
    simp
  · rintro ⟨within, same⟩
    refine ⟨payload.take offset, (payload.drop offset).drop part.length, ?_, ?_⟩
    · conv_lhs => rw [← List.take_append_drop offset payload,
        ← List.take_append_drop part.length (payload.drop offset), same]
    · rw [List.length_take]
      omega

/-- Two parts one after the other. -/
theorem holdsAt_append {payload first second : List UInt8} {offset : ℕ} :
    HoldsAt payload offset (first ++ second) ↔
      HoldsAt payload offset first ∧ HoldsAt payload (offset + first.length) second := by
  simp only [holdsAt_iff, List.length_append, ← List.drop_drop, List.take_add]
  constructor
  · rintro ⟨within, same⟩
    have long : ((payload.drop offset).take first.length).length = first.length := by
      rw [List.length_take, List.length_drop]
      omega
    obtain ⟨here, later⟩ := List.append_inj same long
    exact ⟨⟨by omega, here⟩, by omega, later⟩
  · rintro ⟨⟨-, here⟩, within, later⟩
    exact ⟨by omega, by rw [here, later]⟩

/-! ## Words -/

/-- The word at an offset, if the payload is long enough. -/
def wordAt (payload : List UInt8) (offset : ℕ) : Option ℕ :=
  if offset + 32 ≤ payload.length then some (ofBigEndian ((payload.drop offset).take 32)) else none

theorem wordAt_eq_some {payload : List UInt8} {offset value : ℕ} :
    wordAt payload offset = some value ↔
      value < 256 ^ 32 ∧ HoldsAt payload offset (bigEndian 32 value) := by
  rw [holdsAt_iff, length_bigEndian, wordAt]
  constructor
  · intro read
    split at read
    · next within =>
      obtain rfl := Option.some.inj read
      have long : ((payload.drop offset).take 32).length = 32 := by
        rw [List.length_take, List.length_drop]
        omega
      have same := bigEndian_ofBigEndian ((payload.drop offset).take 32)
      have bound := ofBigEndian_lt ((payload.drop offset).take 32)
      rw [long] at same bound
      exact ⟨bound, within, same.symm⟩
    · cases read
  · rintro ⟨bound, within, same⟩
    rw [if_pos within, same, ofBigEndian_bigEndian bound]

/-! ## Tails -/

/-- The tail that holds a content. -/
def tailOf (content : List UInt8) : List UInt8 := bigEndian 32 content.length ++ content

/-- The content of the tail at an offset, if the payload is long enough. -/
def contentAt (payload : List UInt8) (offset : ℕ) : Option (List UInt8) := do
  let length ← wordAt payload offset
  if offset + 32 + length ≤ payload.length then
    some ((payload.drop (offset + 32)).take length)
  else none

theorem contentAt_eq_some {payload content : List UInt8} {offset : ℕ} :
    contentAt payload offset = some content ↔
      content.length < 256 ^ 32 ∧ HoldsAt payload offset (tailOf content) := by
  rw [tailOf, holdsAt_append, length_bigEndian, contentAt, Option.bind_eq_bind,
    Option.bind_eq_some_iff]
  constructor
  · rintro ⟨length, read, taken⟩
    obtain ⟨bound, held⟩ := wordAt_eq_some.mp read
    split at taken
    · next within =>
      obtain rfl := Option.some.inj taken
      have long : ((payload.drop (offset + 32)).take length).length = length := by
        rw [List.length_take, List.length_drop]
        omega
      rw [long]
      refine ⟨bound, held, holdsAt_iff.mpr ⟨by omega, by rw [long]⟩⟩
    · cases taken
  · rintro ⟨bound, held, inside⟩
    obtain ⟨within, same⟩ := holdsAt_iff.mp inside
    exact ⟨content.length, wordAt_eq_some.mpr ⟨bound, held⟩, by rw [if_pos within, same]⟩

end Foundations
