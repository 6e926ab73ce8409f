import Mathlib.Algebra.BigOperators.Intervals
import Mathlib.Algebra.Order.BigOperators.Group.Finset
import Mathlib.Data.List.Nodup

/-!
# Baskets

A basket lists amounts at the positions of the kinds that they are of. A kind can stand at
several positions, and then its amounts add up.
-/

namespace Core

variable {κ : Type} [DecidableEq κ] {kinds : List κ} {xs ys zs : List ℕ} {c d : κ} {i n x y : ℕ}

/-- What the first positions hold of a kind. -/
def firstOf (kinds : List κ) (xs : List ℕ) (n : ℕ) (c : κ) : ℕ :=
  ∑ i ∈ Finset.range n, if kinds[i]? = some c then xs.getD i 0 else 0

/-- What a basket holds of a kind. -/
def totalOf (kinds : List κ) (xs : List ℕ) (c : κ) : ℕ := firstOf kinds xs kinds.length c

/-- The `i`-th entry counts towards its own kind only. -/
theorem firstOf_succ (h : kinds[i]? = some d) :
    firstOf kinds xs (i + 1) c = firstOf kinds xs i c + if c = d then xs.getD i 0 else 0 := by
  rw [firstOf, Finset.sum_range_succ, h]
  simp only [Option.some.injEq, eq_comm (a := d), firstOf]

theorem firstOf_succ_of_eq_zero (h : xs.getD i 0 = 0) :
    firstOf kinds xs (i + 1) = firstOf kinds xs i := by
  funext c
  rw [firstOf, Finset.sum_range_succ, h, ite_self, add_zero, firstOf]

/-- Positions without a kind hold nothing. -/
theorem firstOf_eq_totalOf (h : kinds.length ≤ n) : firstOf kinds xs n = totalOf kinds xs := by
  funext c
  refine (Finset.sum_subset (Finset.range_subset_range.mpr h) fun i _ hi => ?_).symm
  rw [Finset.mem_range, not_lt] at hi
  rw [List.getElem?_eq_none hi]
  exact if_neg nofun

/-- Larger entries have larger totals. -/
theorem totalOf_mono (h : ∀ i < kinds.length, xs.getD i 0 ≤ ys.getD i 0) :
    totalOf kinds xs c ≤ totalOf kinds ys c := by
  unfold totalOf firstOf
  refine Finset.sum_le_sum fun i hi => ?_
  split
  · exact h i (Finset.mem_range.mp hi)
  · exact le_rfl

/-- Entries that add up below others have totals that do. -/
theorem totalOf_add_le (h : ∀ i < kinds.length, xs.getD i 0 + ys.getD i 0 ≤ zs.getD i 0) :
    totalOf kinds xs c + totalOf kinds ys c ≤ totalOf kinds zs c := by
  unfold totalOf firstOf
  rw [← Finset.sum_add_distrib]
  refine Finset.sum_le_sum fun i hi => ?_
  split
  · exact h i (Finset.mem_range.mp hi)
  · exact le_rfl

/-- A position counts for the kind that stands there. -/
theorem le_totalOf (h : kinds[i]? = some c) : xs.getD i 0 ≤ totalOf kinds xs c := by
  obtain ⟨hi, -⟩ := List.getElem?_eq_some_iff.mp h
  have hterm := Finset.single_le_sum
    (f := fun j => if kinds[j]? = some c then xs.getD j 0 else 0)
    (fun j _ => Nat.zero_le _) (Finset.mem_range.mpr hi)
  rw [if_pos h] at hterm
  exact hterm

/-- Replacing an amount replaces it in the total of its kind. -/
theorem totalOf_set (hd : kinds[i]? = some d) (hx : xs[i]? = some x) :
    totalOf kinds (xs.set i y) c + (if c = d then x else 0) =
      totalOf kinds xs c + if c = d then y else 0 := by
  obtain ⟨hi, -⟩ := List.getElem?_eq_some_iff.mp hd
  obtain ⟨hlt, -⟩ := List.getElem?_eq_some_iff.mp hx
  have hmem : i ∈ Finset.range kinds.length := Finset.mem_range.mpr hi
  unfold totalOf firstOf
  rw [← Finset.sum_erase_add _ _ hmem, ← Finset.sum_erase_add (Finset.range kinds.length) _ hmem]
  have hrest : ∀ j ∈ (Finset.range kinds.length).erase i,
      (if kinds[j]? = some c then (xs.set i y).getD j 0 else 0) =
        if kinds[j]? = some c then xs.getD j 0 else 0 := by
    intro j hj
    rw [List.getD_eq_getElem?_getD, List.getElem?_set_ne (Finset.ne_of_mem_erase hj).symm,
      List.getD_eq_getElem?_getD]
  rw [Finset.sum_congr rfl hrest]
  have hnew : (xs.set i y).getD i 0 = y := by
    rw [List.getD_eq_getElem?_getD, List.getElem?_set_self hlt]
    rfl
  have hold : xs.getD i 0 = x := by
    rw [List.getD_eq_getElem?_getD, hx]
    rfl
  simp only [hd, hnew, hold, Option.some.injEq, eq_comm (a := d)]
  exact Nat.add_right_comm _ _ _

@[simp] theorem totalOf_replicate_zero : totalOf kinds (List.replicate n 0) c = 0 := by
  unfold totalOf firstOf
  refine Finset.sum_eq_zero fun i _ => ?_
  rw [List.getD_eq_getElem?_getD, List.getElem?_replicate]
  split
  · split
    · rfl
    · rfl
  · rfl

/-- A basket of one amount. -/
theorem totalOf_single (hd : kinds[i]? = some d) (hi : i < n) :
    totalOf kinds ((List.replicate n 0).set i x) c = if c = d then x else 0 := by
  have hzero : (List.replicate n 0)[i]? = some 0 := by
    rw [List.getElem?_replicate, if_pos hi]
  have hset := totalOf_set (c := c) (y := x) hd hzero
  rw [totalOf_replicate_zero, ite_self, add_zero, zero_add] at hset
  exact hset

/-- In a basket of different kinds each position is the total of its kind. -/
theorem totalOf_of_nodup (hn : kinds.Nodup) (h : kinds[i]? = some c) :
    totalOf kinds xs c = xs.getD i 0 := by
  obtain ⟨hi, hget⟩ := List.getElem?_eq_some_iff.mp h
  unfold totalOf firstOf
  rw [Finset.sum_eq_single_of_mem i (Finset.mem_range.mpr hi), if_pos h]
  intro j hj hne
  refine if_neg fun hj' => hne ?_
  obtain ⟨hlt, hget'⟩ := List.getElem?_eq_some_iff.mp hj'
  exact (List.Nodup.getElem_inj_iff hn).mp (hget'.trans hget.symm)

end Core
