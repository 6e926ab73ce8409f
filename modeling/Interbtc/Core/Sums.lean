import Mathlib.Algebra.BigOperators.Ring.Finset
import Mathlib.Data.Fintype.BigOperators
import Mathlib.Algebra.Order.BigOperators.Group.Finset
import Mathlib.Tactic.Abel

/-!
# Sums over storage maps

A storage map with finitely many keys is a function, and a write is
`Function.update`. The sum of a quantity read from the entries changes by the
entry that was written only.
-/

namespace Core

variable {κ τ M : Type} [Fintype κ] [DecidableEq κ]

omit [Fintype κ] in
/-- A write replaces one summand of those that are added up. -/
theorem sum_update_add_of_mem [AddCommMonoid M] {t : Finset κ} (g : κ → τ → M) (f : κ → τ)
    {k : κ} (hk : k ∈ t) (v : τ) :
    ∑ j ∈ t, g j (Function.update f k v j) + g k (f k) = ∑ j ∈ t, g j (f j) + g k v := by
  have h₁ := Finset.add_sum_erase t (fun j => g j (Function.update f k v j)) hk
  have h₂ := Finset.add_sum_erase t (fun j => g j (f j)) hk
  have h : ∑ j ∈ t.erase k, g j (Function.update f k v j) = ∑ j ∈ t.erase k, g j (f j) := by
    refine Finset.sum_congr rfl fun j hj => ?_
    rw [Function.update_of_ne (Finset.ne_of_mem_erase hj)]
  simp only [Function.update_self] at h₁
  rw [← h₁, ← h₂, h]
  abel

/-- A write replaces one summand. -/
theorem sum_update_add [AddCommMonoid M] (g : κ → τ → M) (f : κ → τ) (k : κ) (v : τ) :
    ∑ j, g j (Function.update f k v j) + g k (f k) = ∑ j, g j (f j) + g k v :=
  sum_update_add_of_mem g f (Finset.mem_univ k) v

/-- A write replaces one summand, with subtraction. -/
theorem sum_update [AddCommGroup M] (g : κ → τ → M) (f : κ → τ) (k : κ) (v : τ) :
    ∑ j, g j (Function.update f k v j) = ∑ j, g j (f j) - g k (f k) + g k v := by
  rw [sub_add_eq_add_sub, ← sum_update_add, add_sub_cancel_right]

/-- Two families that agree off one index differ in sum by the terms at that index. -/
theorem sum_of_eq_off [AddCommGroup M] {g g' : κ → M} (k : κ) (h : ∀ j, j ≠ k → g' j = g j) :
    ∑ j, g' j = ∑ j, g j - g k + g' k := by
  have hg : g' = Function.update g k (g' k) := by
    funext j
    rcases eq_or_ne j k with rfl | hj
    · rw [Function.update_self]
    · rw [Function.update_of_ne hj, h j hj]
  have hsum := sum_update (fun _ m => m) g k (g' k)
  rwa [← hg] at hsum

end Core
