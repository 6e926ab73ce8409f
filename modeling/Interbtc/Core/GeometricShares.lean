import Mathlib.Algebra.BigOperators.Ring.Finset
import Mathlib.Algebra.Order.BigOperators.Group.Finset
import Mathlib.Data.Fintype.BigOperators
import Mathlib.Data.Nat.Sqrt
import Mathlib.Tactic.Linarith
import Mathlib.Tactic.Ring

/-!
# Geometric shares

Shares whose squares are bounded by the squares of weights add up to at most the same share of the
sum of the weights.
-/

namespace Core

variable {ι : Type} {q x y x' y' : ℕ}

/-- The products of two shares are bounded like their squares. -/
theorem mul_mul_le_of_squares (h : x * x * q ≤ y * y) (h' : x' * x' * q ≤ y' * y') :
    x * x' * q ≤ y * y' := by
  rw [← Nat.mul_self_le_mul_self_iff]
  calc x * x' * q * (x * x' * q) = x * x * q * (x' * x' * q) := by ring
    _ ≤ y * y * (y' * y') := Nat.mul_le_mul h h'
    _ = y * y' * (y * y') := by ring

/-- Bounds on squares add up to one on the square of the sum. -/
theorem add_squares_le (h : x * x * q ≤ y * y) (h' : x' * x' * q ≤ y' * y') :
    (x + x') * (x + x') * q ≤ (y + y') * (y + y') := by
  have hcross := mul_mul_le_of_squares h h'
  calc (x + x') * (x + x') * q = x * x * q + 2 * (x * x' * q) + x' * x' * q := by ring
    _ ≤ y * y + 2 * (y * y') + y' * y' := by linarith
    _ = (y + y') * (y + y') := by ring

/-- Bounds on the squares of the parts are one on the square of their sum. -/
theorem sum_squares_le (s : Finset ι) {f g : ι → ℕ} (h : ∀ i ∈ s, f i * f i * q ≤ g i * g i) :
    (∑ i ∈ s, f i) * (∑ i ∈ s, f i) * q ≤ (∑ i ∈ s, g i) * ∑ i ∈ s, g i := by
  classical
  induction s using Finset.induction_on with
  | empty => simp only [Finset.sum_empty, zero_mul, le_refl]
  | insert i s hi ih =>
    rw [Finset.sum_insert hi, Finset.sum_insert hi]
    exact add_squares_le (h i (Finset.mem_insert_self i s))
      (ih fun j hj => h j (Finset.mem_insert_of_mem hj))

/-- Shares of the geometric mean of two totals, each bounded by the mean of a contribution valued
in either total, add up to at most the whole mean. -/
theorem sum_le_sqrt (s : Finset ι) {share c₀ c₁ : ι → ℕ}
    (h : ∀ i ∈ s, share i * share i * (4 * ((∑ j ∈ s, c₀ j) * ∑ j ∈ s, c₁ j)) ≤
      (c₀ i * (∑ j ∈ s, c₁ j) + c₁ i * ∑ j ∈ s, c₀ j) *
        (c₀ i * (∑ j ∈ s, c₁ j) + c₁ i * ∑ j ∈ s, c₀ j))
    (hpos : 0 < (∑ j ∈ s, c₀ j) * ∑ j ∈ s, c₁ j) :
    ∑ i ∈ s, share i ≤ Nat.sqrt ((∑ j ∈ s, c₀ j) * ∑ j ∈ s, c₁ j) := by
  have hsum := sum_squares_le s h
  rw [Finset.sum_add_distrib, ← Finset.sum_mul, ← Finset.sum_mul] at hsum
  set A := ∑ j ∈ s, c₀ j
  set B := ∑ j ∈ s, c₁ j
  rw [Nat.le_sqrt]
  refine Nat.le_of_mul_le_mul_right ?_ (Nat.mul_pos (by decide : 0 < 4) hpos)
  calc (∑ i ∈ s, share i) * (∑ i ∈ s, share i) * (4 * (A * B))
      ≤ (A * B + B * A) * (A * B + B * A) := hsum
    _ = A * B * (4 * (A * B)) := by ring

end Core
