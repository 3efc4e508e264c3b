import Mathlib.Logic.Function.Basic

/-!
# Keyed stores

A store maps every key to an optional value whose type depends on the key.
Two stores agree outside a set of keys when they hold the same value at every
other key. That relation is the frame of an operation: it names the keys the
operation may write, and every statement about the other keys carries over.
-/

set_option autoImplicit false

namespace Foundations

/-- A store: at each key either nothing or a value of the key's type. -/
def KeyedStore (κ : Type) (V : κ → Type) : Type := (key : κ) → Option (V key)

namespace KeyedStore

variable {κ : Type} [DecidableEq κ] {V : κ → Type}

/-- The store that holds nothing. -/
def empty : KeyedStore κ V := fun _ => none

/-- Store a value at a key. -/
def set (store : KeyedStore κ V) (key : κ) (value : V key) : KeyedStore κ V :=
  Function.update store key (some value)

/-- Remove the value at a key. -/
def remove (store : KeyedStore κ V) (key : κ) : KeyedStore κ V :=
  Function.update store key none

omit [DecidableEq κ] in
@[simp] theorem empty_apply (key : κ) : (empty : KeyedStore κ V) key = none := rfl

@[simp] theorem set_self (store : KeyedStore κ V) (key : κ) (value : V key) :
    store.set key value key = some value :=
  Function.update_self ..

@[simp] theorem set_of_ne (store : KeyedStore κ V) {key other : κ} (different : other ≠ key)
    (value : V key) : store.set key value other = store other :=
  Function.update_of_ne different ..

@[simp] theorem remove_self (store : KeyedStore κ V) (key : κ) :
    store.remove key key = none :=
  Function.update_self ..

@[simp] theorem remove_of_ne (store : KeyedStore κ V) {key other : κ} (different : other ≠ key) :
    store.remove key other = store other :=
  Function.update_of_ne different ..

end KeyedStore

end Foundations
