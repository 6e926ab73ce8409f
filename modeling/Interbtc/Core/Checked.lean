import Mathlib.Algebra.Group.Nat.Defs
import Mathlib.Data.Nat.Sqrt

/-!
# Checked arithmetic

Operations on unsigned integers of a fixed width, which have no result where it leaves their
range. The width is given by the largest value.
-/

namespace Core

/-- The sum, if it is in range. -/
def checkedAdd (max a b : ℕ) : Option ℕ := if a + b ≤ max then some (a + b) else none

/-- The difference, if it is not negative. -/
def checkedSub (a b : ℕ) : Option ℕ := if b ≤ a then some (a - b) else none

/-- The product, if it is in range. -/
def checkedMul (max a b : ℕ) : Option ℕ := if a * b ≤ max then some (a * b) else none

/-- The quotient, if the divisor is not zero. -/
def checkedDiv (a b : ℕ) : Option ℕ := if b = 0 then none else some (a / b)

/-- Convert to a narrower width. -/
def tryInto (max a : ℕ) : Option ℕ := if a ≤ max then some a else none

/-- The largest integer of 256 bits. -/
def maxU256 : ℕ := 2 ^ 256 - 1

variable {max a b c : ℕ}

theorem checkedAdd_eq_some : checkedAdd max a b = some c ↔ a + b ≤ max ∧ a + b = c := by
  simp only [checkedAdd, Option.ite_none_right_eq_some, Option.some.injEq]

theorem checkedSub_eq_some : checkedSub a b = some c ↔ b ≤ a ∧ a - b = c := by
  simp only [checkedSub, Option.ite_none_right_eq_some, Option.some.injEq]

theorem checkedMul_eq_some : checkedMul max a b = some c ↔ a * b ≤ max ∧ a * b = c := by
  simp only [checkedMul, Option.ite_none_right_eq_some, Option.some.injEq]

theorem checkedDiv_eq_some : checkedDiv a b = some c ↔ b ≠ 0 ∧ a / b = c := by
  simp only [checkedDiv, Option.ite_none_left_eq_some, Option.some.injEq, ne_eq]

theorem tryInto_eq_some : tryInto max a = some c ↔ a ≤ max ∧ a = c := by
  simp only [tryInto, Option.ite_none_right_eq_some, Option.some.injEq]

end Core
