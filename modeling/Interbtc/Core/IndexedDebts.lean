import Interbtc.Core.Sums
import Mathlib.Algebra.Order.BigOperators.Ring.Finset
import Mathlib.Algebra.Order.Field.Basic
import Mathlib.Data.Nat.Cast.Order.Field
import Mathlib.Data.Rat.Cast.Order
import Mathlib.Tactic.FieldSimp
import Mathlib.Tactic.Linarith
import Mathlib.Tactic.Ring

/-!
# Debts that grow with an index

A debt is a principal with the index it was written at, and it grows as the index does. The
total is kept beside the debts. It is covered as long as it grows no faster than the index,
and as long as no debt is written down by more than the total.
-/

namespace Core

/-- Debts with the index and the total that are kept for all of them. -/
structure IndexedDebts (κ : Type) where
  index : ℕ
  total : ℕ
  principal : κ → ℕ
  /-- The index a debt was written at. -/
  since : κ → ℕ

namespace IndexedDebts

variable {κ : Type} [Fintype κ] {d : IndexedDebts κ}

/-- A debt with its growth, not rounded. -/
def exact (d : IndexedDebts κ) (k : κ) : ℚ := d.principal k * d.index / d.since k

/-- The total is at most what is owed. -/
def Covered (d : IndexedDebts κ) : Prop := (d.total : ℚ) ≤ ∑ k, d.exact k

/-- The index grows, and the total by no larger a factor. -/
theorem Covered.grow (h : d.Covered) {i t : ℕ} (hindex : d.index ≠ 0)
    (ht : (t : ℚ) ≤ d.total * i / d.index) : Covered { d with index := i, total := t } := by
  have hpos : (0 : ℚ) < d.index := by exact_mod_cast Nat.pos_of_ne_zero hindex
  have hsum : ∑ k, exact { d with index := i, total := t } k = (∑ k, d.exact k) * (i / d.index) := by
    rw [Finset.sum_mul]
    refine Finset.sum_congr rfl fun k _ => ?_
    simp only [exact]
    field_simp
  calc (t : ℚ) ≤ d.total * (i / d.index) := by rwa [← mul_div_assoc]
    _ ≤ (∑ k, d.exact k) * (i / d.index) := mul_le_mul_of_nonneg_right h (by positivity)
    _ = _ := hsum.symm

/-- A debt is written, and the total changes by no more than the debt. -/
theorem Covered.write [DecidableEq κ] (h : d.Covered) {k : κ} {p t : ℕ} (hindex : d.index ≠ 0)
    (ht : t - d.total ≤ p - d.exact k) :
    Covered { d with
      total := t
      principal := Function.update d.principal k p
      since := Function.update d.since k d.index } := by
  have hpos : (d.index : ℚ) ≠ 0 := by exact_mod_cast hindex
  have hoff (j : κ) (hj : j ≠ k) : exact { d with
      total := t
      principal := Function.update d.principal k p
      since := Function.update d.since k d.index } j = d.exact j := by
    simp only [exact, Function.update_of_ne hj]
  have hsum := sum_of_eq_off k hoff
  have hself : exact { d with
      total := t
      principal := Function.update d.principal k p
      since := Function.update d.since k d.index } k = p := by
    simp only [exact, Function.update_self]
    exact mul_div_cancel_right₀ _ hpos
  unfold Covered at h ⊢
  rw [hsum, hself]
  linarith

/-! ## Rounding -/

/-- The growth of a total, where the factor and the product are both rounded down. -/
theorem roundedDown_le {n i j scale : ℕ} :
    ((n * (i * scale / j) / scale : ℕ) : ℚ) ≤ n * i / j := by
  rcases Nat.eq_zero_or_pos scale with rfl | hscale
  · simp only [Nat.div_zero, Nat.cast_zero]
    positivity
  have hscale' : (0 : ℚ) < scale := by exact_mod_cast hscale
  calc ((n * (i * scale / j) / scale : ℕ) : ℚ)
      ≤ ((n * (i * scale / j) : ℕ) : ℚ) / scale := Nat.cast_div_le
    _ = n * ((i * scale / j : ℕ) : ℚ) / scale := by rw [Nat.cast_mul]
    _ ≤ n * (((i * scale : ℕ) : ℚ) / j) / scale := by gcongr; exact Nat.cast_div_le
    _ = n * i / j := by rw [Nat.cast_mul]; field_simp

/-- What the factor of a debt loses when it is rounded down is no more than what the debt gains
when it is rounded up. -/
def Uncut (scale p i j : ℕ) : Prop :=
  p * (i * scale % j) ≤ j * ((scale - p * (i * scale / j) % scale) % scale)

instance (scale p i j : ℕ) : Decidable (Uncut scale p i j) :=
  inferInstanceAs (Decidable (_ ≤ _))

theorem Uncut.self {scale p i : ℕ} : Uncut scale p i i := by
  unfold Uncut
  rw [Nat.mul_mod_right, Nat.mul_zero]
  exact Nat.zero_le _

/-- Without principal there is nothing to cut. -/
theorem Uncut.of_eq_zero {scale p i j : ℕ} (hp : p = 0) : Uncut scale p i j := by
  unfold Uncut
  rw [hp, Nat.zero_mul]
  exact Nat.zero_le _

/-- A debt that is not cut is read as no less than it is. -/
theorem Uncut.le {scale p i j n : ℕ} (h : Uncut scale p i j) (hscale : scale ≠ 0) (hj : j ≠ 0)
    (hn : n * scale = p * (i * scale / j) + (scale - p * (i * scale / j) % scale) % scale) :
    (p : ℚ) * i / j ≤ n := by
  have hj' : (0 : ℚ) < j := by exact_mod_cast Nat.pos_of_ne_zero hj
  have hscale' : (0 : ℚ) < scale := by exact_mod_cast Nat.pos_of_ne_zero hscale
  have hdiv := Nat.div_add_mod (i * scale) j
  have hle : p * i * scale ≤ n * j * scale := by
    calc p * i * scale = p * (j * (i * scale / j) + i * scale % j) := by rw [hdiv, Nat.mul_assoc]
      _ = j * (p * (i * scale / j)) + p * (i * scale % j) := by ring
      _ ≤ j * (p * (i * scale / j)) + j * ((scale - p * (i * scale / j) % scale) % scale) :=
        Nat.add_le_add_left h _
      _ = j * (n * scale) := by rw [hn, Nat.mul_add]
      _ = n * j * scale := by ring
  rw [div_le_iff₀ hj']
  exact_mod_cast Nat.le_of_mul_le_mul_right hle (Nat.pos_of_ne_zero hscale)

end IndexedDebts

end Core
