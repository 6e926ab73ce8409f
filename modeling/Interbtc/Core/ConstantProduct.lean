import Mathlib.Algebra.Order.Ring.Int
import Mathlib.Tactic.Linarith
import Mathlib.Tactic.Ring

/-!
# Constant products

An exchange takes an amount into one reserve and pays an amount out of the other. Two exchanges in
opposite directions, each computed from the reserves before both, keep the product together; two
in the same direction may not.
-/

namespace Core

/-- The product of two reserves does not shrink when `x` is taken into the first one and `v` is
paid out of the second one. -/
structure KeepsProduct (r₀ r₁ x v : ℕ) : Prop where
  le : v ≤ r₁
  product : r₀ * r₁ ≤ (r₀ + x) * (r₁ - v)

namespace KeepsProduct

variable {r₀ r₁ x v y u : ℕ} {r₀' r₁' : ℤ}

/-- A swap of nothing keeps the product. -/
theorem zero (r₀ r₁ : ℕ) : KeepsProduct r₀ r₁ 0 0 := ⟨Nat.zero_le _, le_rfl⟩

/-- Over the integers the product of the reserves does not fall. -/
theorem product_int (h : KeepsProduct r₀ r₁ x v) :
    (r₀ : ℤ) * r₁ ≤ (r₀ + x) * (r₁ - v) := by
  have := h.product
  rw [← Nat.cast_sub h.le]
  exact_mod_cast this

/-- An exchange does not empty a reserve. -/
theorem lt (h : KeepsProduct r₀ r₁ x v) (h₀ : 0 < r₀) (h₁ : 0 < r₁) : v < r₁ := by
  by_contra hge
  have hzero : r₁ - v = 0 := by omega
  have hproduct := h.product
  rw [hzero, mul_zero] at hproduct
  exact absurd hproduct (Nat.mul_pos h₀ h₁).not_ge

/-- Of one reserve with itself an exchange pays at most what it takes. -/
theorem le_self (h : KeepsProduct r₀ r₀ x v) (h₀ : 0 < r₀) : v ≤ x := by
  have hproduct := h.product_int
  have hprod : (0 : ℤ) ≤ x * v := by positivity
  have hpos : (0 : ℤ) < r₀ := by exact_mod_cast h₀
  have hle : (r₀ : ℤ) * v ≤ r₀ * x := by linarith
  exact_mod_cast le_of_mul_le_mul_left hle hpos

/-- An exchange in each direction, and whatever the reserves get besides. -/
theorem both (h : KeepsProduct r₀ r₁ x v) (h' : KeepsProduct r₁ r₀ y u)
    (h₀ : (r₀ : ℤ) + x - u ≤ r₀') (h₁ : (r₁ : ℤ) + y - v ≤ r₁') :
    (r₀ : ℤ) * r₁ ≤ r₀' * r₁' := by
  have hforward := h.product_int
  have hbackward := h'.product_int
  have hle : (v : ℤ) ≤ r₁ := by exact_mod_cast h.le
  have hle' : (u : ℤ) ≤ r₀ := by exact_mod_cast h'.le
  have hxy : (0 : ℤ) ≤ x * y := by positivity
  have huv : (0 : ℤ) ≤ u * v := by positivity
  calc (r₀ : ℤ) * r₁ ≤ (r₀ + x - u) * (r₁ + y - v) := by linarith
    _ ≤ r₀' * r₁' := mul_le_mul h₀ h₁ (by linarith [Int.natCast_nonneg y])
        (le_trans (by linarith [Int.natCast_nonneg x]) h₀)

end KeepsProduct

/-! ## Prices -/

section Prices

variable {r₀ r₁ x v F g : ℕ}

/-- The part `g` of `F` of a payment buys at least `v` exactly if it covers the price of `v`. -/
theorem le_payout_iff (hpos : 0 < r₀ * F + x * g) (hv : v ≤ r₁) :
    v ≤ x * g * r₁ / (r₀ * F + x * g) ↔ r₀ * v * F ≤ x * ((r₁ - v) * g) := by
  obtain ⟨k, rfl⟩ := Nat.exists_eq_add_of_le hv
  rw [Nat.le_div_iff_mul_le hpos, Nat.add_sub_cancel_left]
  have hleft : v * (r₀ * F + x * g) = r₀ * v * F + x * g * v := by ring
  have hright : x * g * (v + k) = x * (k * g) + x * g * v := by ring
  rw [hleft, hright, Nat.add_le_add_iff_right]

/-- A payment that covers the price keeps the product, as no more than all of it buys. -/
theorem KeepsProduct.of_price (hF : 0 < F) (hg : g ≤ F) (hv : v ≤ r₁)
    (hprice : r₀ * v * F ≤ x * ((r₁ - v) * g)) : KeepsProduct r₀ r₁ x v where
  le := hv
  product := by
    obtain ⟨k, rfl⟩ := Nat.exists_eq_add_of_le hv
    rw [Nat.add_sub_cancel_left] at hprice ⊢
    have hle : r₀ * v * F ≤ x * k * F :=
      calc r₀ * v * F ≤ x * (k * g) := hprice
        _ ≤ x * (k * F) := Nat.mul_le_mul_left _ (Nat.mul_le_mul_left _ hg)
        _ = x * k * F := (Nat.mul_assoc _ _ _).symm
    have hcancel := Nat.le_of_mul_le_mul_right hle hF
    nlinarith

end Prices

end Core
