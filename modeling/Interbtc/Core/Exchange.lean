import Mathlib.Algebra.Order.Field.Basic
import Mathlib.Data.Nat.Cast.Order.Field
import Mathlib.Tactic.FieldSimp

/-!
# Exchanges that are rounded down

Amounts are whole numbers of units, and a unit of a good is worth something of its kind. What
an exchange gives is worth no more than what it takes, however many exchanges follow it.
-/

namespace Core

/-- A good is of a kind, in which a unit of it is worth so much. -/
@[ext]
structure Good (γ K : Type*) where
  kind : γ
  worth : K

namespace Good

variable {γ K : Type*} [Field K]

/-- A unit of the scaled good is worth `r` units of the good. -/
def scale (r : K) (g : Good γ K) : Good γ K := ⟨g.kind, r * g.worth⟩

variable [LinearOrder K] {g h k : Good γ K} {n m l : ℕ}

/-- Units of `h` are worth no more than units of `g`: there are none, or the goods are of one
kind and their worth compares. -/
def NoMore (g : Good γ K) (n : ℕ) (h : Good γ K) (m : ℕ) : Prop :=
  m = 0 ∨ (h.kind = g.kind ∧ 0 < h.worth ∧ m * h.worth ≤ n * g.worth)

theorem NoMore.zero : NoMore g n h 0 := .inl rfl

theorem NoMore.refl (hg : 0 < g.worth) : NoMore g n g n := .inr ⟨rfl, hg, le_rfl⟩

variable [IsStrictOrderedRing K]

/-- Conversions that give no more each give no more in sequence. -/
theorem NoMore.trans (hgh : NoMore g n h m) (hhk : NoMore h m k l) : NoMore g n k l := by
  rcases hhk with rfl | ⟨hkind, hpos, hle⟩
  · exact .zero
  rcases hgh with rfl | ⟨hkind', -, hle'⟩
  · -- what is worth nothing is exchanged for nothing
    rw [Nat.cast_zero, zero_mul] at hle
    have hl : (l : K) ≤ 0 := nonpos_of_mul_nonpos_left hle hpos
    rw [Nat.cast_nonpos.mp hl]
    exact .zero
  · exact .inr ⟨hkind.trans hkind', hpos, hle.trans hle'⟩

/-- Nobody comes back to a good with more of it. -/
theorem NoMore.le (hgg : NoMore g n g m) : m ≤ n := by
  rcases hgg with rfl | ⟨-, hpos, hle⟩
  · exact Nat.zero_le n
  · exact Nat.cast_le.mp (le_of_mul_le_mul_right hle hpos)

/-- The scaled good is exchanged for the good. -/
theorem noMore_mul_div (hg : 0 < g.worth) (n r d : ℕ) :
    NoMore (g.scale ((r : K) / d)) n g (n * r / d) := by
  refine .inr ⟨rfl, hg, ?_⟩
  calc ((n * r / d : ℕ) : K) * g.worth
      ≤ ((n * r : ℕ) : K) / d * g.worth := mul_le_mul_of_nonneg_right Nat.cast_div_le hg.le
    _ = n * (r / d * g.worth) := by rw [Nat.cast_mul, mul_div_assoc, mul_assoc]

/-- The good is exchanged for the scaled good. -/
theorem noMore_div_mul (hg : 0 < g.worth) {r d : ℕ} (hr : r ≠ 0) (hd : d ≠ 0) (n : ℕ) :
    NoMore g n (g.scale ((r : K) / d)) (n * d / r) := by
  have hr' : (0 : K) < r := Nat.cast_pos.mpr (Nat.pos_of_ne_zero hr)
  have hd' : (0 : K) < d := Nat.cast_pos.mpr (Nat.pos_of_ne_zero hd)
  have hrate : (0 : K) < r / d := div_pos hr' hd'
  refine .inr ⟨rfl, mul_pos hrate hg, ?_⟩
  calc ((n * d / r : ℕ) : K) * (r / d * g.worth)
      ≤ ((n * d : ℕ) : K) / r * (r / d * g.worth) :=
        mul_le_mul_of_nonneg_right Nat.cast_div_le (mul_pos hrate hg).le
    _ = n * g.worth := by
      rw [Nat.cast_mul]
      field_simp

end Good

end Core
