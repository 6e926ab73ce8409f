import Mathlib.Tactic.Linarith
import Mathlib.Tactic.Ring

/-!
# A fee before and after a division

A share of an amount is taken as a fee, and the amount is divided into units or by a price. Both
are rounded down, and their order makes a difference of at most one unit.
-/

namespace Core

/-- The share of the whole units is at most the share of the amount. -/
theorem share_mul_le (n m f F : ℕ) : m * (n / m * f / F) ≤ n * f / F := by
  rcases Nat.eq_zero_or_pos F with rfl | hF
  · rw [Nat.div_zero, Nat.div_zero, Nat.mul_zero]
  rw [Nat.le_div_iff_mul_le hF]
  calc m * (n / m * f / F) * F = m * (n / m * f / F * F) := Nat.mul_assoc _ _ _
    _ ≤ m * (n / m * f) := Nat.mul_le_mul_left m (Nat.div_mul_le_self _ _)
    _ = m * (n / m) * f := (Nat.mul_assoc _ _ _).symm
    _ ≤ n * f := Nat.mul_le_mul_right f (Nat.mul_div_le n m)

/-- What is divided after the fee is at most what the fee is taken of after the division. -/
theorem sub_fee_div_le (n m f F : ℕ) : (n - n * f / F) / m ≤ n / m - n / m * f / F := by
  rcases Nat.eq_zero_or_pos m with rfl | hm
  · rw [Nat.div_zero]
    exact Nat.zero_le _
  have hshare : m * (n / m * f / F) ≤ n * f / F := share_mul_le n m f F
  have hlt : n < m * (n / m + 1) := Nat.lt_mul_div_succ n hm
  rw [Nat.div_le_iff_le_mul_add_pred hm, Nat.mul_sub]
  rw [Nat.mul_add, Nat.mul_one] at hlt
  omega

/-- It is at most one unit less. -/
theorem le_sub_fee_div (n m f F : ℕ) : n / m - n / m * f / F ≤ (n - n * f / F) / m + 1 := by
  rcases Nat.eq_zero_or_pos m with rfl | hm
  · rw [Nat.div_zero, Nat.zero_mul, Nat.zero_div]
    exact Nat.zero_le _
  rcases Nat.eq_zero_or_pos F with rfl | hF
  · rw [Nat.div_zero, Nat.div_zero]
    exact Nat.le_succ _
  rcases Nat.lt_or_ge F f with hlt | hle
  · -- a fee above the whole leaves nothing
    have hall : n / m ≤ n / m * f / F := by
      rw [Nat.le_div_iff_mul_le hF]
      exact Nat.mul_le_mul_left _ hlt.le
    rw [Nat.sub_eq_zero_of_le hall]
    exact Nat.zero_le _
  have hwhole : m * (n / m) + n % m = n := Nat.div_add_mod n m
  have hfee : n * f / F ≤ m * (n / m * f / F + 1) + n % m := by
    apply Nat.div_le_of_le_mul
    calc n * f = m * (n / m * f) + n % m * f := by rw [← Nat.mul_assoc, ← Nat.add_mul, hwhole]
      _ ≤ m * (F * (n / m * f / F + 1)) + n % m * F :=
        Nat.add_le_add (Nat.mul_le_mul_left m (Nat.lt_mul_div_succ _ hF).le)
          (Nat.mul_le_mul_left _ hle)
      _ = F * (m * (n / m * f / F + 1) + n % m) := by ring
  have hunits : (n / m - n / m * f / F - 1) * m ≤ n - n * f / F := by
    rw [Nat.sub_sub, Nat.sub_mul, Nat.mul_comm (n / m) m, Nat.mul_comm _ m]
    omega
  have hle' := (Nat.le_div_iff_mul_le hm).mpr hunits
  omega

/-- An amount less its fee, from below and from above. -/
theorem sub_fee_bounds {f F : ℕ} (hf : f ≤ F) (hF : 0 < F) (n : ℕ) :
    n * (F - f) ≤ (n - n * f / F) * F ∧ (n - n * f / F) * F < n * (F - f) + F := by
  have hfee : n * f / F * F ≤ n * f := Nat.div_mul_le_self _ _
  have hrest : n * f < n * f / F * F + F := Nat.lt_div_mul_add hF
  have hwhole : n * f ≤ n * F := Nat.mul_le_mul_left n hf
  rw [Nat.mul_sub, Nat.sub_mul]
  omega

/-- An amount is divided by a price and a fee is taken of it. To take the fee first gives at most
one unit less. -/
theorem priced_sub_fee_le {f F : ℕ} (hf : f ≤ F) (hF : 0 < F) (c P p : ℕ) :
    c * P / p - c * P / p * f / F ≤ (c - c * f / F) * P / p + 1 := by
  rcases Nat.eq_zero_or_pos p with rfl | hp
  · rw [Nat.div_zero, Nat.zero_sub]
    exact Nat.zero_le _
  have hpriced : c * P / p * p ≤ c * P := Nat.div_mul_le_self _ _
  have hlast : (c - c * f / F) * P < ((c - c * f / F) * P / p + 1) * p := by
    rw [Nat.mul_comm _ p]
    exact Nat.lt_mul_div_succ _ hp
  generalize c * P / p = g at *
  obtain ⟨-, hless⟩ := sub_fee_bounds hf hF g
  obtain ⟨hnet, -⟩ := sub_fee_bounds hf hF c
  generalize g - g * f / F = e at *
  generalize (c - c * f / F) * P / p = a at *
  generalize c - c * f / F = n at *
  by_contra! hlt
  have hle : (a + 2) * F ≤ e * F := Nat.mul_le_mul_right F hlt
  have hshare : (a + 1) * F < g * (F - f) := by linarith
  have hscaled : (a + 1) * F * p < n * P * F := by
    calc (a + 1) * F * p < g * (F - f) * p := Nat.mul_lt_mul_of_pos_right hshare hp
      _ = g * p * (F - f) := by ring
      _ ≤ c * P * (F - f) := Nat.mul_le_mul_right _ hpriced
      _ = c * (F - f) * P := by ring
      _ ≤ n * F * P := Nat.mul_le_mul_right _ hnet
      _ = n * P * F := by ring
  have hback : n * P * F < (a + 1) * p * F := Nat.mul_lt_mul_of_pos_right hlast hF
  linarith

/-- At a price that is not below the unit it gives at most one unit more. -/
theorem sub_fee_priced_le {P p f F : ℕ} (hf : f ≤ F) (hF : 0 < F) (hP : P ≤ p) (c : ℕ) :
    (c - c * f / F) * P / p ≤ c * P / p - c * P / p * f / F + 1 := by
  rcases Nat.eq_zero_or_pos p with rfl | hp
  · rw [Nat.div_zero]
    exact Nat.zero_le _
  have hpriced : c * P < (c * P / p + 1) * p := by
    rw [Nat.mul_comm _ p]
    exact Nat.lt_mul_div_succ _ hp
  have hlast : (c - c * f / F) * P / p * p ≤ (c - c * f / F) * P := Nat.div_mul_le_self _ _
  generalize c * P / p = g at *
  obtain ⟨hnet, -⟩ := sub_fee_bounds hf hF g
  obtain ⟨-, hless⟩ := sub_fee_bounds hf hF c
  generalize g - g * f / F = e at *
  generalize (c - c * f / F) * P / p = a at *
  generalize c - c * f / F = n at *
  by_contra! hlt
  have hle : (e + 2) * F ≤ a * F := Nat.mul_le_mul_right F hlt
  have hunit : 0 < P := Nat.pos_of_mul_pos_left
    ((Nat.mul_pos (Nat.zero_lt_of_lt hlt) hp).trans_le hlast)
  have hscaled : a * F * p < (e + 2) * F * p := by
    calc a * F * p = a * p * F := by ring
      _ ≤ n * P * F := Nat.mul_le_mul_right _ hlast
      _ = n * F * P := by ring
      _ < (c * (F - f) + F) * P := Nat.mul_lt_mul_of_pos_right hless hunit
      _ = c * P * (F - f) + F * P := by ring
      _ ≤ (g + 1) * p * (F - f) + F * p :=
        Nat.add_le_add (Nat.mul_le_mul_right _ hpriced.le) (Nat.mul_le_mul_left _ hP)
      _ = (g * (F - f) + (F - f) + F) * p := by ring
      _ ≤ (e * F + F + F) * p :=
        Nat.mul_le_mul_right _ (by omega)
      _ = (e + 2) * F * p := by ring
  have hback : (e + 2) * F * p ≤ a * F * p := Nat.mul_le_mul_right p hle
  linarith

end Core
