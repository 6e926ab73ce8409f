import Mathlib.Data.List.Sort

/-!
# Medians

The middle of some values in order, or the mean of the two values in the middle.
-/

namespace Core

/-- The value in the middle, and the lower one of two. -/
def lowerMiddle (xs : List ℕ) : Option ℕ := (xs.insertionSort (· ≤ ·))[(xs.length - 1) / 2]?

/-- The value in the middle, and the upper one of two. -/
def upperMiddle (xs : List ℕ) : Option ℕ := (xs.insertionSort (· ≤ ·))[xs.length / 2]?

/-- The mean of the values in the middle, rounded down. -/
def medianOf (xs : List ℕ) : Option ℕ := do
  let a ← lowerMiddle xs
  let b ← upperMiddle xs
  some ((a + b) / 2)

@[simp] theorem medianOf_nil : medianOf [] = none := rfl

/-- Of an odd number of values one is in the middle. -/
theorem upperMiddle_eq_lowerMiddle {xs : List ℕ} (h : xs.length % 2 = 1) :
    upperMiddle xs = lowerMiddle xs := by
  unfold upperMiddle lowerMiddle
  rw [show xs.length / 2 = (xs.length - 1) / 2 by omega]

/-- Only the empty list has no lower middle. -/
theorem lowerMiddle_eq_none {xs : List ℕ} : lowerMiddle xs = none ↔ xs = [] := by
  rw [lowerMiddle, List.getElem?_eq_none_iff, List.length_insertionSort,
    ← List.length_eq_zero_iff]
  omega

/-- Only the empty list has no upper middle. -/
theorem upperMiddle_eq_none {xs : List ℕ} : upperMiddle xs = none ↔ xs = [] := by
  rw [upperMiddle, List.getElem?_eq_none_iff, List.length_insertionSort,
    ← List.length_eq_zero_iff]
  omega

/-- Only of no values there is no median. -/
theorem medianOf_eq_none {xs : List ℕ} : medianOf xs = none ↔ xs = [] := by
  constructor
  · intro h
    by_contra hne
    obtain ⟨a, ha⟩ := Option.ne_none_iff_exists'.mp (mt lowerMiddle_eq_none.mp hne)
    obtain ⟨b, hb⟩ := Option.ne_none_iff_exists'.mp (mt upperMiddle_eq_none.mp hne)
    rw [medianOf, ha, hb] at h
    cases h
  · intro h
    rw [h, medianOf_nil]

/-- With an odd number of values the median is the one in the middle. -/
theorem medianOf_odd {xs : List ℕ} (h : xs.length % 2 = 1) : medianOf xs = lowerMiddle xs := by
  unfold medianOf
  rw [upperMiddle_eq_lowerMiddle h]
  cases lowerMiddle xs with
  | none => rfl
  | some a =>
    change some ((a + a) / 2) = some a
    rw [← Nat.mul_two, Nat.mul_div_cancel a Nat.two_pos]

end Core
