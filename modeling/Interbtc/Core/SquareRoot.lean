import Mathlib.Data.Nat.Sqrt
import Mathlib.Tactic.Linarith

/-!
# Growth of integer square roots

How much the integer square root of a number grows when something is added to the number.
-/

namespace Core

variable {n k : ℕ}

/-- The root grows with its argument. -/
theorem sqrt_le_sqrt_add : Nat.sqrt n ≤ Nat.sqrt (n + k) :=
  Nat.sqrt_le_sqrt (Nat.le_add_right n k)

/-- The growth times the sum of the roots is at most what was added, up to rounding. -/
theorem sqrt_growth_mul_le : (Nat.sqrt (n + k) - Nat.sqrt n) *
    (Nat.sqrt (n + k) + Nat.sqrt n) ≤ k + 2 * Nat.sqrt n := by
  obtain ⟨d, hd⟩ := Nat.exists_eq_add_of_le (sqrt_le_sqrt_add (n := n) (k := k))
  have hroot : Nat.sqrt (n + k) * Nat.sqrt (n + k) ≤ n + k := Nat.sqrt_le (n + k)
  have hn : n ≤ Nat.sqrt n * Nat.sqrt n + Nat.sqrt n + Nat.sqrt n := Nat.sqrt_le_add n
  rw [hd] at hroot ⊢
  rw [Nat.add_sub_cancel_left]
  nlinarith only [hroot, hn]

/-- The number of a root, the growth of which is bounded, against a larger root. -/
theorem square_mul_le {t : ℕ} (hk : 2 * t + 2 ≤ k) :
    (t * t + t + t) * (k + 2 * t) ≤ k * (t + 1) * (2 * t + 1) := by
  obtain ⟨j, rfl⟩ := Nat.exists_eq_add_of_le hk
  nlinarith only [Nat.zero_le (j * (t * t)), Nat.zero_le (j * t), Nat.zero_le j, Nat.zero_le t]

/-- Once enough is added, the growth times the number is outweighed by the addition times a
larger root. -/
theorem mul_sqrt_growth_le {m e : ℕ} (hm : m ≤ n) (he : Nat.sqrt n < e)
    (hk : 2 * Nat.sqrt n + 2 ≤ k) : m * (Nat.sqrt (n + k) - Nat.sqrt n) ≤ k * e := by
  have hgrowth := @sqrt_growth_mul_le n k
  have hn : n ≤ Nat.sqrt n * Nat.sqrt n + Nat.sqrt n + Nat.sqrt n := Nat.sqrt_le_add n
  obtain ⟨d, hd⟩ := Nat.exists_eq_add_of_le (@sqrt_le_sqrt_add n k)
  rw [hd, Nat.add_sub_cancel_left] at hgrowth ⊢
  generalize Nat.sqrt n = t at he hk hgrowth hn
  rcases Nat.eq_zero_or_pos d with rfl | hpos
  · exact Nat.zero_le _
  refine Nat.le_of_mul_le_mul_right (?_ : m * d * (2 * t + 1) ≤ k * e * (2 * t + 1)) (Nat.succ_pos _)
  calc m * d * (2 * t + 1) = m * (d * (2 * t + 1)) := Nat.mul_assoc _ _ _
    _ ≤ m * (d * (t + d + t)) := Nat.mul_le_mul_left m (Nat.mul_le_mul_left d (by omega))
    _ ≤ (t * t + t + t) * (k + 2 * t) := Nat.mul_le_mul (hm.trans hn) hgrowth
    _ ≤ k * (t + 1) * (2 * t + 1) := square_mul_le hk
    _ ≤ k * e * (2 * t + 1) := Nat.mul_le_mul_right _ (Nat.mul_le_mul_left k he)

end Core
