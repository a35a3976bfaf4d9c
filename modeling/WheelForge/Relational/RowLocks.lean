import Mathlib.Logic.Function.Basic

/-!
# Row locks

Which transaction holds the exclusive lock of a row. A transaction takes a free lock and gives back
all it has when it ends; neither touches what another transaction holds (`acquire_other`,
`release_other`). `forall_update` carries a property of every transaction over the step of one.
-/

set_option autoImplicit false

namespace WheelForge.Relational

universe u v

/-- The holder of the lock of each row. -/
abbrev RowLocks (κ : Type u) := κ → Option Nat

namespace RowLocks

variable {κ : Type u} {locks : RowLocks κ} {k k' : κ} {i j : Nat}

/-- The locks after `i` took that of `k`. -/
def acquire [DecidableEq κ] (locks : RowLocks κ) (k : κ) (i : Nat) : RowLocks κ :=
  Function.update locks k (some i)

/-- The locks after `i` ended. -/
def release (locks : RowLocks κ) (i : Nat) : RowLocks κ := fun k =>
  if locks k = some i then none else locks k

@[simp] theorem acquire_self [DecidableEq κ] : locks.acquire k i k = some i :=
  Function.update_self ..

theorem acquire_other [DecidableEq κ] (hfree : locks k = none) (h : locks k' = some j) :
    locks.acquire k i k' = some j := by
  have hne : k' ≠ k := by
    rintro rfl
    cases hfree.symm.trans h
  rw [acquire, Function.update_of_ne hne, h]

theorem release_other (hne : j ≠ i) (h : locks k = some j) : locks.release i k = some j := by
  rw [release, h, if_neg fun heq => hne (Option.some.inj heq)]

end RowLocks

/-- A property of all transactions after the step of one. -/
theorem forall_update {σ : Type v} {P : Nat → σ → Prop} {f : Nat → Option σ} {i : Nat} {x : σ}
    (hself : P i x) (hother : ∀ j y, j ≠ i → f j = some y → P j y) :
    ∀ j y, Function.update f i (some x) j = some y → P j y := by
  intro j y hj
  by_cases heq : j = i
  · subst heq
    rw [Function.update_self] at hj
    cases hj
    exact hself
  · rw [Function.update_of_ne heq] at hj
    exact hother j y heq hj

end WheelForge.Relational
