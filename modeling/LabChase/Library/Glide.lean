import Mathlib.Algebra.Order.Floor.Div
import Mathlib.Algebra.Order.Monoid.Defs
import Mathlib.Tactic.Common

/-!
# Gliding to a goal

Something starts at `start` and moves on by `step` again and again, but not beyond `goal`.  After `k` moves it is at
`position goal start step k`, which is one more capped move from where it was before (`position_succ`), and it has
arrived after the distance, divided by the step and rounded up (`position_lt_iff`).
-/

namespace Glide

section Ordered

variable {α : Type*} [AddCommMonoid α] [LinearOrder α]

def position (goal start step : α) (k : ℕ) : α := min goal (start + k • step)

theorem position_le (goal start step : α) (k : ℕ) : position goal start step k ≤ goal := min_le_left _ _

theorem position_zero {goal start : α} (h : start ≤ goal) (step : α) : position goal start step 0 = start := by
  rw [position, zero_nsmul, add_zero, min_eq_right h]

theorem position_succ [IsOrderedAddMonoid α] {step : α} (h : 0 ≤ step) (goal start : α) (k : ℕ) :
    position goal start step (k + 1) = min goal (position goal start step k + step) := by
  have hgoal : goal ≤ goal + step := le_add_of_nonneg_right h
  rw [position, position, ← min_add_add_right, ← min_assoc, min_eq_left hgoal, succ_nsmul, add_assoc]

/-- Before the goal nothing is cut off. -/
theorem position_of_lt {goal start step : α} {k : ℕ} (h : position goal start step k < goal) :
    position goal start step k = start + k • step :=
  min_eq_right (le_of_lt ((min_lt_iff.1 h).resolve_left (lt_irrefl _)))

end Ordered

theorem position_lt_iff {goal start step : ℕ} (hstep : 0 < step) (k : ℕ) :
    position goal start step k < goal ↔ k < (goal - start) ⌈/⌉ step := by
  rw [position, min_lt_iff, or_iff_right (lt_irrefl _), ← not_le, ← not_le, ceilDiv_le_iff_le_mul hstep, smul_eq_mul,
    mul_comm step]
  omega

end Glide
