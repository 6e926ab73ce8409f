import Interbtc.Core.Sums

/-!
# Open obligations

Obligations are kept in a table under their identifiers. What is due to one party is
the sum over the table, and it is covered by a counter that every opening increases and
every settlement decreases. A party may be pooled with others, and then one counter
covers the dues of all that are pooled together.
-/

namespace Core

/-! ## What is due -/

section Due

variable {H R V : Type} [Fintype H]

/-- The sum of what the open obligations of a table owe to `v`. -/
def due (owes : R → V → ℕ) (open? : H → Option R) (v : V) : ℕ :=
  ∑ h, (open? h).elim 0 fun r => owes r v

variable {owes : R → V → ℕ} {o : H → Option R} {h : H} {r : R}

/-- Without obligations nothing is due. -/
theorem due_empty (v : V) : due owes (fun _ : H => none) v = 0 := by
  simp [due]

variable (owes) in
/-- One obligation is at most what is due. -/
theorem owes_le_due (hr : o h = some r) (v : V) : owes r v ≤ due owes o v := by
  have hle := Finset.single_le_sum (f := fun h => (o h).elim 0 fun r => owes r v)
    (fun _ _ => Nat.zero_le _) (Finset.mem_univ h)
  rwa [hr] at hle

variable [DecidableEq H]

variable (owes) in
/-- A settled obligation is no longer due. -/
theorem due_close (hr : o h = some r) (v : V) :
    due owes (Function.update o h none) v + owes r v = due owes o v := by
  have hsum := sum_update_add (fun _ o => Option.elim o 0 fun r => owes r v) o h none
  simp only [hr, Option.elim_some, Option.elim_none, add_zero] at hsum
  exact hsum

/-- Opening an obligation adds what it owes; one under the same identifier is lost. -/
theorem due_open_le (v : V) :
    due owes (Function.update o h (some r)) v ≤ due owes o v + owes r v := by
  have hsum := sum_update_add (fun _ o => Option.elim o 0 fun r => owes r v) o h (some r)
  simp only [Option.elim_some] at hsum
  unfold due
  omega

end Due

/-! ## Pooled dues -/

section Pooled

variable {V P : Type} [Fintype V] [DecidableEq P]

/-- The sum of a quantity over the members of a pool. -/
def pooled (isPooled : V → Bool) (pool : V → P) (d : V → ℕ) (p : P) : ℕ :=
  ∑ v, if isPooled v ∧ pool v = p then d v else 0

variable {b : V → Bool} {pool : V → P} {d d' : V → ℕ} {v : V}

/-- Smaller demands pool to less. -/
theorem pooled_mono (h : ∀ v, b v → d' v ≤ d v) (p : P) : pooled b pool d' p ≤ pooled b pool d p :=
    by
  refine Finset.sum_le_sum fun v _ => ?_
  split
  · rename_i hv
    exact h v hv.1
  · exact Nat.le_refl 0

/-- Only the demands of the members are pooled. -/
theorem pooled_congr (h : ∀ v, b v → d' v = d v) (p : P) : pooled b pool d' p = pooled b pool d p :=
  Nat.le_antisymm (pooled_mono (fun v hv => (h v hv).le) p)
    (pooled_mono (fun v hv => (h v hv).ge) p)

/-- A pool counts each of its members. -/
theorem le_pooled (hv : b v) : d v ≤ pooled b pool d (pool v) := by
  have hle := Finset.single_le_sum
    (f := fun u => if b u ∧ pool u = pool v then d u else 0)
    (fun _ _ => Nat.zero_le _) (Finset.mem_univ v)
  rwa [if_pos ⟨hv, rfl⟩] at hle

/-- A pool without members counts nothing. -/
theorem pooled_none (p : P) : pooled (fun _ => false) pool d p = 0 := by
  simp [pooled]

variable [DecidableEq V]

/-- One member's quantity changes by its own difference. -/
theorem pooled_of_eq_off (h : ∀ u, u ≠ v → d' u = d u) (p : P) :
    pooled b pool d' p + (if b v ∧ pool v = p then d v else 0) =
      pooled b pool d p + (if b v ∧ pool v = p then d' v else 0) := by
  have hd : d' = Function.update d v (d' v) := by
    funext u
    rcases eq_or_ne u v with rfl | hu
    · rw [Function.update_self]
    · rw [Function.update_of_ne hu, h u hu]
  have hsum := sum_update_add (fun u n => if b u ∧ pool u = p then n else 0) d v (d' v)
  rw [← hd] at hsum
  exact hsum

/-- A party that joins its pool adds its quantity. -/
theorem pooled_join (hv : b v = false) (p : P) :
    pooled (Function.update b v true) pool d p =
      pooled b pool d p + if pool v = p then d v else 0 := by
  have hsum := sum_update_add (fun u (c : Bool) => if c ∧ pool u = p then d u else 0) b v true
  simp only [hv, Bool.false_eq_true, false_and, if_false, add_zero, true_and] at hsum
  exact hsum

/-- A party that leaves its pool takes its quantity with it. -/
theorem pooled_leave (hv : b v = true) (p : P) :
    pooled (Function.update b v false) pool d p + (if pool v = p then d v else 0) =
      pooled b pool d p := by
  have hsum := sum_update_add (fun u (c : Bool) => if c ∧ pool u = p then d u else 0) b v false
  simp only [hv, Bool.false_eq_true, false_and, if_false, add_zero, true_and] at hsum
  exact hsum

end Pooled

end Core
