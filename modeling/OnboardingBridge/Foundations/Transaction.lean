import Mathlib.Order.Defs.Unbundled

/-!
# Transactions with rollback

A transaction reads and changes a state and either returns a value together
with the state it leaves, or fails. A failure carries no state: the caller
still has the state it started from, which is rollback.

The rules come in two forms. The inversion rules (`run_bind_ok` and the rules
beside it) take a successful run of a compound transaction apart into the runs
of its parts. The preservation rules (`Preserves.bind` and the rules beside
it) show that every successful run relates the two states by a preorder, and
they follow the syntax of the transaction.
-/

set_option autoImplicit false

namespace Foundations

/-- A transaction over the state `σ` with failures `ε`. -/
def Tx (σ ε α : Type) : Type := σ → Except ε (α × σ)

namespace Tx

variable {σ ε α β : Type}

/-- Run a transaction from a state. -/
def run (m : Tx σ ε α) (s : σ) : Except ε (α × σ) := m s

/-- Two transactions that run alike are the same. -/
theorem ext {m m' : Tx σ ε α} (same : ∀ s, m.run s = m'.run s) : m = m' := funext same

instance : Monad (Tx σ ε) where
  pure a := fun s => .ok (a, s)
  bind m f := fun s =>
    match m s with
    | .ok (a, s') => f a s'
    | .error e => .error e

/-- Fail with a reason. -/
def fail (e : ε) : Tx σ ε α := fun _ => .error e

/-- Read a part of the state. -/
def read (f : σ → α) : Tx σ ε α := fun s => .ok (f s, s)

/-- Change the state. -/
def modify (f : σ → σ) : Tx σ ε Unit := fun s => .ok ((), f s)

/-- Fail when the condition holds, and go on otherwise. -/
def rejectIf (condition : Prop) [Decidable condition] (e : ε) : Tx σ ε Unit :=
  if condition then fail e else pure ()

/-- Run a part only when the condition holds. -/
def onlyIf (condition : Prop) [Decidable condition] (m : Tx σ ε Unit) : Tx σ ε Unit :=
  if condition then m else pure ()

/-- Return the value of an option, or fail. -/
def ofOption (value : Option α) (e : ε) : Tx σ ε α :=
  match value with
  | some a => pure a
  | none => fail e

/-- Return the value of a result, or fail with its error. -/
def ofExcept {ε' : Type} (wrap : ε' → ε) (result : Except ε' α) : Tx σ ε α :=
  match result with
  | .ok a => pure a
  | .error e => fail (wrap e)

/-! ## What a successful run did -/

@[simp] theorem run_pure (a : α) (s : σ) : (pure a : Tx σ ε α).run s = .ok (a, s) := rfl

@[simp] theorem run_fail (e : ε) (s : σ) : (fail e : Tx σ ε α).run s = .error e := rfl

@[simp] theorem run_read (f : σ → α) (s : σ) : (read f : Tx σ ε α).run s = .ok (f s, s) := rfl

@[simp] theorem run_modify (f : σ → σ) (s : σ) :
    (modify f : Tx σ ε Unit).run s = .ok ((), f s) := rfl

theorem run_bind (m : Tx σ ε α) (f : α → Tx σ ε β) (s : σ) :
    (m >>= f).run s =
      match m.run s with
      | .ok (a, s') => (f a).run s'
      | .error e => .error e := rfl

/-- A sequence that starts with a successful run goes on with the rest. -/
theorem run_bind_of_ok {m : Tx σ ε α} {f : α → Tx σ ε β} {s s' : σ} {a : α}
    (first : m.run s = .ok (a, s')) : (m >>= f).run s = (f a).run s' := by
  rw [run_bind, first]

/-- A sequence whose first part fails, fails in the same way. -/
theorem run_bind_of_error {m : Tx σ ε α} {f : α → Tx σ ε β} {s : σ} {e : ε}
    (first : m.run s = .error e) : (m >>= f).run s = .error e := by
  rw [run_bind, first]

/-- A sequence succeeds when its parts succeed one after the other. -/
theorem run_bind_ok {m : Tx σ ε α} {f : α → Tx σ ε β} {s s' : σ} {b : β} :
    (m >>= f).run s = .ok (b, s') ↔
      ∃ a t, m.run s = .ok (a, t) ∧ (f a).run t = .ok (b, s') := by
  rw [run_bind]
  cases first : m.run s with
  | error e => simp
  | ok result =>
      obtain ⟨a, t⟩ := result
      constructor
      · exact fun rest => ⟨a, t, rfl, rest⟩
      · rintro ⟨a', t', same, rest⟩
        cases same
        exact rest

theorem run_pure_ok {a b : α} {s s' : σ} :
    (pure a : Tx σ ε α).run s = .ok (b, s') ↔ b = a ∧ s' = s := by
  simp [eq_comm]

theorem run_read_ok {f : σ → α} {b : α} {s s' : σ} :
    (read f : Tx σ ε α).run s = .ok (b, s') ↔ b = f s ∧ s' = s := by
  simp [eq_comm]

theorem run_modify_ok {f : σ → σ} {b : Unit} {s s' : σ} :
    (modify f : Tx σ ε Unit).run s = .ok (b, s') ↔ s' = f s := by
  simp [eq_comm]

theorem run_rejectIf_ok {condition : Prop} [Decidable condition] {e : ε} {b : Unit} {s s' : σ} :
    (rejectIf condition e : Tx σ ε Unit).run s = .ok (b, s') ↔ ¬ condition ∧ s' = s := by
  by_cases holds : condition
  · simp [rejectIf, holds]
  · simp [rejectIf, holds, eq_comm]

theorem run_onlyIf_ok {condition : Prop} [Decidable condition] {m : Tx σ ε Unit} {b : Unit}
    {s s' : σ} : (onlyIf condition m).run s = .ok (b, s') ↔
      (condition ∧ m.run s = .ok (b, s')) ∨ (¬ condition ∧ s' = s) := by
  by_cases holds : condition
  · simp [onlyIf, holds]
  · simp [onlyIf, holds, eq_comm]

theorem run_ofOption_ok {value : Option α} {e : ε} {b : α} {s s' : σ} :
    (ofOption value e : Tx σ ε α).run s = .ok (b, s') ↔ value = some b ∧ s' = s := by
  cases value with
  | none => simp [ofOption]
  | some a => simp [ofOption, eq_comm]

theorem run_ofExcept_ok {ε' : Type} {wrap : ε' → ε} {result : Except ε' α} {b : α} {s s' : σ} :
    (ofExcept wrap result : Tx σ ε α).run s = .ok (b, s') ↔ result = .ok b ∧ s' = s := by
  cases result with
  | error e => simp [ofExcept]
  | ok a => simp [ofExcept, eq_comm]

/-- A sequence that starts with a check succeeds when the check passes and the
rest succeeds. -/
theorem run_rejectIf_bind_ok {condition : Prop} [Decidable condition] {e : ε}
    {f : Unit → Tx σ ε β} {s s' : σ} {b : β} :
    ((rejectIf condition e : Tx σ ε Unit) >>= f).run s = .ok (b, s') ↔
      ¬ condition ∧ (f ()).run s = .ok (b, s') := by
  simp only [run_bind_ok, run_rejectIf_ok]
  constructor
  · rintro ⟨_, _, ⟨passes, rfl⟩, rest⟩
    exact ⟨passes, rest⟩
  · rintro ⟨passes, rest⟩
    exact ⟨(), s, ⟨passes, rfl⟩, rest⟩

/-- A sequence that starts by reading goes on with what it read. -/
theorem run_read_bind (f : σ → α) (rest : α → Tx σ ε β) (s : σ) :
    (read f >>= rest).run s = (rest (f s)).run s := rfl

/-- A sequence that starts by changing the state goes on in the changed state. -/
theorem run_modify_bind (f : σ → σ) (rest : Unit → Tx σ ε β) (s : σ) :
    (modify f >>= rest).run s = (rest ()).run (f s) := rfl

/-- A sequence that starts with a part that only looks at the state goes on in
the same state. -/
theorem run_view_bind_ok {m : Tx σ ε α} {holds : σ → α → Prop}
    (view : ∀ {s s' : σ} {a : α}, m.run s = .ok (a, s') ↔ holds s a ∧ s' = s)
    {f : α → Tx σ ε β} {s s' : σ} {b : β} :
    (m >>= f).run s = .ok (b, s') ↔ ∃ a, holds s a ∧ (f a).run s = .ok (b, s') := by
  simp [run_bind_ok, view, and_assoc]

theorem run_ofOption_bind_ok {value : Option α} {e : ε} {f : α → Tx σ ε β} {s s' : σ} {b : β} :
    ((ofOption value e : Tx σ ε α) >>= f).run s = .ok (b, s') ↔
      ∃ a, value = some a ∧ (f a).run s = .ok (b, s') := by
  simp [run_bind_ok, run_ofOption_ok, and_assoc]

theorem run_ofExcept_bind_ok {ε' : Type} {wrap : ε' → ε} {result : Except ε' α}
    {f : α → Tx σ ε β} {s s' : σ} {b : β} :
    ((ofExcept wrap result : Tx σ ε α) >>= f).run s = .ok (b, s') ↔
      ∃ a, result = .ok a ∧ (f a).run s = .ok (b, s') := by
  simp [run_bind_ok, run_ofExcept_ok, and_assoc]

/-- A passed check leaves the rest of the sequence to run. -/
theorem run_rejectIf_bind {condition : Prop} [Decidable condition] {e : ε}
    {f : Unit → Tx σ ε β} {s : σ} (passes : ¬ condition) :
    ((rejectIf condition e : Tx σ ε Unit) >>= f).run s = (f ()).run s := by
  rw [run_bind, rejectIf, if_neg passes]
  rfl

/-! ## What every successful run keeps -/

/-- Every successful run relates the state it starts from to the one it
leaves. -/
def Preserves (related : σ → σ → Prop) (m : Tx σ ε α) : Prop :=
  ∀ ⦃s : σ⦄ ⦃a : α⦄ ⦃s' : σ⦄, m.run s = .ok (a, s') → related s s'

section Preserves

variable {related : σ → σ → Prop}

theorem Preserves.mono {wider : σ → σ → Prop} {m : Tx σ ε α}
    (preserves : Preserves related m) (included : ∀ s s', related s s' → wider s s') :
    Preserves wider m :=
  fun _ _ _ ran => included _ _ (preserves ran)

variable [IsPreorder σ related]

@[simp, grind ←] theorem Preserves.pure (a : α) : Preserves related (pure a : Tx σ ε α) := by
  intro s b s' ran
  obtain ⟨-, rfl⟩ := run_pure_ok.mp ran
  exact refl_of related s'

omit [IsPreorder σ related] in
@[simp, grind ←] theorem Preserves.fail (e : ε) : Preserves related (fail e : Tx σ ε α) := by
  intro s b s' ran
  exact absurd ran (by simp)

@[simp, grind ←] theorem Preserves.read (f : σ → α) : Preserves related (read f : Tx σ ε α) := by
  intro s b s' ran
  obtain ⟨-, rfl⟩ := run_read_ok.mp ran
  exact refl_of related s'

@[simp, grind ←] theorem Preserves.rejectIf (condition : Prop) [Decidable condition] (e : ε) :
    Preserves related (rejectIf condition e : Tx σ ε Unit) := by
  intro s b s' ran
  obtain ⟨-, rfl⟩ := run_rejectIf_ok.mp ran
  exact refl_of related s'

@[simp, grind ←] theorem Preserves.onlyIf {condition : Prop} [Decidable condition] {m : Tx σ ε Unit}
    (inner : Preserves related m) : Preserves related (onlyIf condition m) := by
  intro s b s' ran
  rcases run_onlyIf_ok.mp ran with ⟨-, ran⟩ | ⟨-, rfl⟩
  · exact inner ran
  · exact refl_of related s'

@[simp, grind ←] theorem Preserves.ofOption (value : Option α) (e : ε) :
    Preserves related (ofOption value e : Tx σ ε α) := by
  intro s b s' ran
  obtain ⟨-, rfl⟩ := run_ofOption_ok.mp ran
  exact refl_of related s'

@[grind ←] theorem Preserves.ofExcept {ε' : Type} (wrap : ε' → ε) (result : Except ε' α) :
    Preserves related (ofExcept wrap result : Tx σ ε α) := by
  intro s b s' ran
  obtain ⟨-, rfl⟩ := run_ofExcept_ok.mp ran
  exact refl_of related s'

omit [IsPreorder σ related] in
theorem Preserves.modify {f : σ → σ} (step : ∀ s, related s (f s)) :
    Preserves related (modify f : Tx σ ε Unit) := by
  intro s b s' ran
  obtain rfl := run_modify_ok.mp ran
  exact step s

@[grind ←] theorem Preserves.bind {m : Tx σ ε α} {f : α → Tx σ ε β}
    (first : Preserves related m) (rest : ∀ a, Preserves related (f a)) :
    Preserves related (m >>= f) := by
  intro s b s' ran
  obtain ⟨a, t, ran₁, ran₂⟩ := run_bind_ok.mp ran
  exact trans_of related (first ran₁) (rest a ran₂)

omit [IsPreorder σ related] in
/-- The rest of a sequence may use where a value came from. -/
theorem Preserves.ofOption_bind {value : Option α} {e : ε} {f : α → Tx σ ε β}
    (rest : ∀ a, value = some a → Preserves related (f a)) :
    Preserves related ((Tx.ofOption value e : Tx σ ε α) >>= f) := by
  intro s b s' ran
  obtain ⟨a, found, ran⟩ := run_ofOption_bind_ok.mp ran
  exact rest a found ran

omit [IsPreorder σ related] in
theorem Preserves.ite {condition : Prop} [Decidable condition] {m m' : Tx σ ε α}
    (yes : Preserves related m) (no : Preserves related m') :
    Preserves related (if condition then m else m') := by
  split
  · exact yes
  · exact no

omit [IsPreorder σ related] in
/-- A sequence brings about a relation that its first part brings about and the rest leaves alone. -/
theorem Preserves.before {quiet : σ → σ → Prop} {m : Tx σ ε α} {f : α → Tx σ ε β}
    (absorbs : ∀ s t u, related s t → quiet t u → related s u) (first : Preserves related m)
    (rest : ∀ a, Preserves quiet (f a)) : Preserves related (m >>= f) := by
  intro s b s' ran
  obtain ⟨a, t, ran₁, ran₂⟩ := run_bind_ok.mp ran
  exact absorbs s t s' (first ran₁) (rest a ran₂)

omit [IsPreorder σ related] in
/-- It brings about what its rest does, when the first part leaves that alone. -/
theorem Preserves.after {quiet : σ → σ → Prop} {m : Tx σ ε α} {f : α → Tx σ ε β}
    (absorbs : ∀ s t u, quiet s t → related t u → related s u) (first : Preserves quiet m)
    (rest : ∀ a, Preserves related (f a)) : Preserves related (m >>= f) := by
  intro s b s' ran
  obtain ⟨a, t, ran₁, ran₂⟩ := run_bind_ok.mp ran
  exact absorbs s t s' (first ran₁) (rest a ran₂)

end Preserves

/-! ## What a successful run needs -/

/-- Successful runs start in states that meet the condition. -/
def Requires (condition : σ → Prop) (m : Tx σ ε α) : Prop :=
  ∀ ⦃s : σ⦄ ⦃a : α⦄ ⦃s' : σ⦄, m.run s = .ok (a, s') → condition s

section Requires

variable {condition : σ → Prop}

/-- A sequence needs what its first part needs. -/
theorem Requires.bind {m : Tx σ ε α} {f : α → Tx σ ε β} (first : Requires condition m) :
    Requires condition (m >>= f) := by
  intro s b s' ran
  obtain ⟨a, t, ran₁, -⟩ := run_bind_ok.mp ran
  exact first ran₁

/-- A sequence needs what its rest needs, when the first part does not bring it
about. -/
theorem Requires.after {m : Tx σ ε α} {f : α → Tx σ ε β}
    (kept : Preserves (fun s s' => condition s' → condition s) m)
    (rest : ∀ a, Requires condition (f a)) : Requires condition (m >>= f) := by
  intro s b s' ran
  obtain ⟨a, t, ran₁, ran₂⟩ := run_bind_ok.mp ran
  exact kept ran₁ (rest a ran₂)

theorem Requires.both {other : σ → Prop} {m : Tx σ ε α} (first : Requires condition m)
    (second : Requires other m) : Requires (fun s => condition s ∧ other s) m :=
  fun _ _ _ ran => ⟨first ran, second ran⟩

end Requires

/-! ## What a successful run brings about -/

/-- Successful runs leave states that meet the postcondition. -/
def Ensures (post : σ → Prop) (m : Tx σ ε α) : Prop :=
  ∀ ⦃s : σ⦄ ⦃a : α⦄ ⦃s' : σ⦄, m.run s = .ok (a, s') → post s'

section Ensures

variable {post : σ → Prop}

theorem Ensures.modify {f : σ → σ} (step : ∀ s, post (f s)) :
    Ensures post (modify f : Tx σ ε Unit) := by
  intro s a s' ran
  obtain rfl := run_modify_ok.mp ran
  exact step s

/-- A sequence brings about what its rest brings about. -/
theorem Ensures.bind {m : Tx σ ε α} {f : α → Tx σ ε β} (rest : ∀ a, Ensures post (f a)) :
    Ensures post (m >>= f) := by
  intro s b s' ran
  obtain ⟨a, t, -, ran⟩ := run_bind_ok.mp ran
  exact rest a ran

/-- It brings about what its first part does, when the rest keeps it. -/
theorem Ensures.before {m : Tx σ ε α} {f : α → Tx σ ε β} (first : Ensures post m)
    (kept : ∀ a, Preserves (fun s s' => post s → post s') (f a)) : Ensures post (m >>= f) := by
  intro s b s' ran
  obtain ⟨a, t, ran₁, ran₂⟩ := run_bind_ok.mp ran
  exact kept a ran₂ (first ran₁)

end Ensures

/-! ## What a successful run establishes -/

/-- From a state in an invariant every successful run leaves a state in it, and
returns a value that meets the postcondition. -/
def Keeps (inv : σ → Prop) (post : α → Prop) (m : Tx σ ε α) : Prop :=
  ∀ ⦃s : σ⦄ ⦃a : α⦄ ⦃s' : σ⦄, inv s → m.run s = .ok (a, s') → inv s' ∧ post a

section Keeps

variable {inv : σ → Prop}

theorem Keeps.pure {post : α → Prop} {a : α} (meets : post a) :
    Keeps inv post (pure a : Tx σ ε α) := by
  intro s b s' holds ran
  obtain ⟨rfl, rfl⟩ := run_pure_ok.mp ran
  exact ⟨holds, meets⟩

theorem Keeps.modify {f : σ → σ} (step : ∀ s, inv s → inv (f s)) :
    Keeps inv (fun _ => True) (modify f : Tx σ ε Unit) := by
  intro s b s' holds ran
  obtain rfl := run_modify_ok.mp ran
  exact ⟨step s holds, trivial⟩

/-- What the first part returns may be used to show that the rest keeps the
invariant. -/
theorem Keeps.bind {post : α → Prop} {post' : β → Prop} {m : Tx σ ε α} {f : α → Tx σ ε β}
    (first : Keeps inv post m) (rest : ∀ a, post a → Keeps inv post' (f a)) :
    Keeps inv post' (m >>= f) := by
  intro s b s' holds ran
  obtain ⟨a, t, ran₁, ran₂⟩ := run_bind_ok.mp ran
  obtain ⟨there, meets⟩ := first holds ran₁
  exact rest a meets there ran₂

/-- A passed check may be used by the rest. -/
theorem Keeps.rejectIf_bind {post : β → Prop} {condition : Prop} [Decidable condition] {e : ε}
    {f : Unit → Tx σ ε β} (rest : ¬ condition → Keeps inv post (f ())) :
    Keeps inv post ((rejectIf condition e : Tx σ ε Unit) >>= f) := by
  intro s b s' holds ran
  obtain ⟨passes, ran⟩ := run_rejectIf_bind_ok.mp ran
  exact rest passes holds ran

/-- A part that relates states by what keeps the invariant keeps it. -/
theorem Keeps.of_preserves {related : σ → σ → Prop} {m : Tx σ ε α}
    (preserves : Preserves related m) (keeps : ∀ s s', related s s' → inv s → inv s') :
    Keeps inv (fun _ => True) m :=
  fun _ _ _ holds ran => ⟨keeps _ _ (preserves ran) holds, trivial⟩

end Keeps

end Tx

end Foundations
