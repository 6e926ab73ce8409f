import Mathlib.Algebra.Order.Ring.Nat
import Mathlib.Tactic.GCongr

/-!
# Linear interpolation between natural numbers

A value that moves from one number to another over a time, in a straight line that is rounded
towards where it starts.
-/

namespace Core

/-- The value at the time `t` of a move from `a` at the time `t₀` to `b` at the time `t₁`. -/
def interpolate (a b t₀ t₁ t : ℕ) : ℕ :=
  if t₁ ≤ t then b
  else if a ≤ b then a + (b - a) * (t - t₀) / (t₁ - t₀)
  else a - (a - b) * (t - t₀) / (t₁ - t₀)

variable {a b t₀ t₁ t t' : ℕ}

/-- A move that is not over has gone at most the whole way. -/
theorem way_le {d : ℕ} (h : t < t₁) : d * (t - t₀) / (t₁ - t₀) ≤ d := by
  refine Nat.div_le_of_le_mul ?_
  rw [Nat.mul_comm]
  gcongr

/-- After the end of a ramp its second value stands. -/
theorem interpolate_of_le (h : t₁ ≤ t) : interpolate a b t₀ t₁ t = b := if_pos h

/-- Before the end of a ramp it is followed linearly, up or down. -/
theorem interpolate_of_lt (h : t < t₁) : interpolate a b t₀ t₁ t =
    if a ≤ b then a + (b - a) * (t - t₀) / (t₁ - t₀) else a - (a - b) * (t - t₀) / (t₁ - t₀) :=
  if_neg (not_le.mpr h)

/-- A move starts where it says, unless it is over at once and goes somewhere else. -/
theorem interpolate_start (h : t₀ < t₁ ∨ a = b) : interpolate a b t₀ t₁ t₀ = a := by
  unfold interpolate
  rw [Nat.sub_self, Nat.mul_zero, Nat.zero_div, Nat.mul_zero, Nat.zero_div]
  rcases h with h | rfl
  · rw [if_neg (not_le.mpr h)]
    simp
  · simp

/-- A rising move stays between its ends and never falls. -/
theorem interpolate_rises (h : a ≤ b) (ht : t ≤ t') :
    a ≤ interpolate a b t₀ t₁ t ∧ interpolate a b t₀ t₁ t ≤ interpolate a b t₀ t₁ t' ∧
      interpolate a b t₀ t₁ t' ≤ b := by
  have hway : ∀ t, t < t₁ → interpolate a b t₀ t₁ t = a + (b - a) * (t - t₀) / (t₁ - t₀) := by
    intro t hlt
    rw [interpolate_of_lt hlt, if_pos h]
  have hmem : ∀ t, a ≤ interpolate a b t₀ t₁ t ∧ interpolate a b t₀ t₁ t ≤ b := by
    intro t
    rcases Nat.lt_or_ge t t₁ with hlt | hle
    · have hgone : (b - a) * (t - t₀) / (t₁ - t₀) ≤ b - a := way_le hlt
      rw [hway t hlt]
      exact ⟨Nat.le_add_right _ _, (Nat.add_le_add_left hgone a).trans_eq (Nat.add_sub_cancel' h)⟩
    · rw [interpolate_of_le hle]
      exact ⟨h, le_rfl⟩
  refine ⟨(hmem t).1, ?_, (hmem t').2⟩
  rcases Nat.lt_or_ge t' t₁ with hlt | hle
  · rw [hway t (ht.trans_lt hlt), hway t' hlt]
    gcongr
  · rw [interpolate_of_le hle]
    exact (hmem t).2

/-- A falling move stays between its ends and never rises. -/
theorem interpolate_falls (h : b ≤ a) (ht : t ≤ t') :
    b ≤ interpolate a b t₀ t₁ t' ∧ interpolate a b t₀ t₁ t' ≤ interpolate a b t₀ t₁ t ∧
      interpolate a b t₀ t₁ t ≤ a := by
  have hway : ∀ t, t < t₁ → interpolate a b t₀ t₁ t = a - (a - b) * (t - t₀) / (t₁ - t₀) := by
    intro t hlt
    rw [interpolate_of_lt hlt]
    split
    · obtain rfl : a = b := by omega
      simp
    · rfl
  have hmem : ∀ t, b ≤ interpolate a b t₀ t₁ t ∧ interpolate a b t₀ t₁ t ≤ a := by
    intro t
    rcases Nat.lt_or_ge t t₁ with hlt | hle
    · have hgone : (a - b) * (t - t₀) / (t₁ - t₀) ≤ a - b := way_le hlt
      rw [hway t hlt]
      exact ⟨(Nat.sub_sub_self h).ge.trans (Nat.sub_le_sub_left hgone a), Nat.sub_le _ _⟩
    · rw [interpolate_of_le hle]
      exact ⟨le_rfl, h⟩
  refine ⟨(hmem t').1, ?_, (hmem t).2⟩
  rcases Nat.lt_or_ge t' t₁ with hlt | hle
  · rw [hway t (ht.trans_lt hlt), hway t' hlt]
    gcongr
  · rw [interpolate_of_le hle]
    exact (hmem t).1

/-- The value is between the ends. -/
theorem interpolate_mem : min a b ≤ interpolate a b t₀ t₁ t ∧ interpolate a b t₀ t₁ t ≤ max a b :=
    by
  rcases Nat.le_total a b with h | h
  · obtain ⟨h₁, -, h₂⟩ := @interpolate_rises a b t₀ t₁ t t h le_rfl
    exact ⟨(min_le_left a b).trans h₁, h₂.trans (le_max_right a b)⟩
  · obtain ⟨h₁, -, h₂⟩ := @interpolate_falls a b t₀ t₁ t t h le_rfl
    exact ⟨(min_le_right a b).trans h₁, h₂.trans (le_max_left a b)⟩

end Core
