import Mathlib.Order.Lattice
import Mathlib.Tactic.Common

/-!
# Integers within bounds

A bounded integer carries the proof that it lies between two bounds, so a
value outside them cannot be built. The checked operations return nothing when
the exact result lies outside the bounds; the saturating difference returns
the nearest bound.

Each checked operation has one rule: it returns `c` exactly when the value of
`c` is the exact result (`checkedAdd_eq_some` and the rules beside it).
-/

set_option autoImplicit false

namespace Foundations

/-- An integer between two bounds, both included. -/
@[ext] structure BoundedInt (lo hi : Int) where
  val : Int
  lower : lo ≤ val
  upper : val ≤ hi
deriving DecidableEq

namespace BoundedInt

variable {lo hi : Int}

/-- The bounded integer with a given value, when the value is within bounds. -/
def ofInt? (lo hi x : Int) : Option (BoundedInt lo hi) :=
  if within : lo ≤ x ∧ x ≤ hi then some ⟨x, within.1, within.2⟩ else none

theorem ofInt?_eq_some {x : Int} {c : BoundedInt lo hi} :
    ofInt? lo hi x = some c ↔ c.val = x := by
  unfold ofInt?
  split
  · constructor
    · rintro ⟨⟩
      rfl
    · intro same
      exact congrArg some (BoundedInt.ext same.symm)
  · next outside =>
    constructor
    · rintro ⟨⟩
    · rintro rfl
      exact absurd ⟨c.lower, c.upper⟩ outside

/-- A value within bounds is reached. -/
theorem exists_ofInt? {x : Int} (lower : lo ≤ x) (upper : x ≤ hi) :
    ∃ c, ofInt? lo hi x = some c ∧ c.val = x :=
  ⟨⟨x, lower, upper⟩, by simp [ofInt?, lower, upper], rfl⟩

def checkedAdd (a b : BoundedInt lo hi) : Option (BoundedInt lo hi) :=
  ofInt? lo hi (a.val + b.val)

def checkedSub (a b : BoundedInt lo hi) : Option (BoundedInt lo hi) :=
  ofInt? lo hi (a.val - b.val)

def checkedMul (a b : BoundedInt lo hi) : Option (BoundedInt lo hi) :=
  ofInt? lo hi (a.val * b.val)

/-- Division that rounds toward zero; division by zero returns nothing. -/
def checkedDiv (a b : BoundedInt lo hi) : Option (BoundedInt lo hi) :=
  if b.val = 0 then none else ofInt? lo hi (a.val.tdiv b.val)

/-- The difference, or the bound it overshoots. -/
def saturatingSub (a b : BoundedInt lo hi) : BoundedInt lo hi where
  val := max lo (min hi (a.val - b.val))
  lower := le_max_left ..
  upper := max_le (le_trans a.lower a.upper) (min_le_left ..)

theorem checkedAdd_eq_some {a b c : BoundedInt lo hi} :
    checkedAdd a b = some c ↔ c.val = a.val + b.val :=
  ofInt?_eq_some

theorem checkedSub_eq_some {a b c : BoundedInt lo hi} :
    checkedSub a b = some c ↔ c.val = a.val - b.val :=
  ofInt?_eq_some

theorem checkedMul_eq_some {a b c : BoundedInt lo hi} :
    checkedMul a b = some c ↔ c.val = a.val * b.val :=
  ofInt?_eq_some

theorem checkedDiv_eq_some {a b c : BoundedInt lo hi} :
    checkedDiv a b = some c ↔ b.val ≠ 0 ∧ c.val = a.val.tdiv b.val := by
  by_cases zero : b.val = 0
  · simp [checkedDiv, zero]
  · simp [checkedDiv, zero, ofInt?_eq_some]

theorem saturatingSub_val (a b : BoundedInt lo hi) :
    (saturatingSub a b).val = max lo (min hi (a.val - b.val)) := rfl

end BoundedInt

end Foundations
