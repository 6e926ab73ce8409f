import Interbtc.Core.StakeLedger

/-!
# Slashes and the order of bookkeeping

Where nothing is rounded, a slash takes the same share of every *stored* stake.
Bringing one account up to date before the slash therefore shifts the loss from
that account to the others, unless it had nothing pending or nobody else staked.
-/

namespace Core.StakeLedger

variable {ι : Type} [DecidableEq ι] [Fintype ι] {L : StakeLedger ι} {i : ι} {x : ℚ}

/-- Nobody is owed anything, and the settled stakes add up to the recorded total. -/
structure Balanced (L : StakeLedger ι) : Prop where
  covered : Covered .exact L
  pending_nonneg : ∀ i, 0 ≤ L.pending .exact i
  sum_settled : ∑ i, L.settled .exact i = L.current

omit [DecidableEq ι] [Fintype ι] in
/-- A slash takes from every stake in proportion. -/
theorem settled_slash (x : ℚ) (j : ι) :
    (L.slash .exact x).settled .exact j = L.settled .exact j - L.stake j * (x / L.total) := by
  simp only [settled, pending, slash, Rounding.exact_round]
  ring

omit [Fintype ι] in
/-- A deposit adds to one settled stake. -/
theorem settled_deposit (a : ℚ) (j : ι) :
    (L.deposit .exact i a).settled .exact j =
      if j = i then L.settled .exact j + a else L.settled .exact j := by
  rw [settled, pending_deposit]
  split
  · rename_i hj
    subst hj
    simp only [deposit, settled, pending, Rounding.exact_round, Function.update_self]
    ring
  · rename_i hj
    simp [deposit, settled, hj]

omit [Fintype ι] in
/-- A withdrawal takes from one settled stake. -/
theorem settled_withdraw (a : ℚ) (j : ι) :
    (L.withdraw .exact i a).settled .exact j =
      if j = i then L.settled .exact j - a else L.settled .exact j := by
  rw [settled, pending_withdraw]
  split
  · rename_i hj
    subst hj
    simp only [withdraw, settled, pending, Rounding.exact_round, Function.update_self]
    ring
  · rename_i hj
    simp [withdraw, settled, hj]

omit [Fintype ι] in
/-- A slash after one stake was applied weighs that one by its settled stake. -/
theorem settled_apply_slash (x : ℚ) (j : ι) :
    ((L.apply .exact i).slash .exact x).settled .exact j =
      L.settled .exact j - (if j = i then L.settled .exact i else L.stake j) *
        (x / (L.total - L.pending .exact i)) := by
  rw [settled_slash, settled_apply]
  have htotal : (L.apply .exact i).total = L.total - L.pending .exact i := rfl
  rw [htotal]
  by_cases h : j = i
  · simp [apply, h]
  · simp [apply, h]

namespace Balanced

omit [DecidableEq ι] in
/-- The empty ledger is balanced. -/
theorem empty : Balanced (StakeLedger.empty : StakeLedger ι) where
  covered := .empty
  pending_nonneg i := by simp [StakeLedger.empty, pending]
  sum_settled := by simp [StakeLedger.empty, settled, pending]

/-- One step keeps a ledger balanced. -/
theorem step {L' : StakeLedger ι} (h : Balanced L) (hstep : Step .exact L L') : Balanced L' where
  covered := hstep.covered h.covered
  pending_nonneg i := by
    have hlag : Lagging .exact 0 L := fun j => by simpa using h.pending_nonneg j
    simpa using hstep.lagging h.covered hlag i
  sum_settled := by
    have hlag : Lagging .exact 0 L := fun j => by simpa using h.pending_nonneg j
    have hdrift := hstep.drift h.covered (hstep.lagging h.covered hlag)
    rw [drift, drift, h.sum_settled, sub_self, abs_zero, Rounding.exact_ulp, zero_mul,
      add_zero] at hdrift
    exact sub_eq_zero.mp (abs_nonpos_iff.mp hdrift)

omit [DecidableEq ι] in
/-- The current stake is not negative. -/
theorem current_nonneg (h : Balanced L) : 0 ≤ L.current := by
  rw [← h.sum_settled]
  exact Finset.sum_nonneg fun j _ => h.covered.settled_nonneg j

omit [DecidableEq ι] in
/-- The current stake is at most the total. -/
theorem current_le_total (h : Balanced L) : L.current ≤ L.total := by
  rw [← h.sum_settled, h.covered.total_eq]
  exact Finset.sum_le_sum fun j _ => sub_le_self _ (h.pending_nonneg j)

omit [DecidableEq ι] in
/-- The stored total with one account up to date still bears what is left. -/
theorem current_le (h : Balanced L) (i : ι) : L.current ≤ L.total - L.pending .exact i := by
  have hsum : ∑ j, L.settled .exact j + ∑ j, L.pending .exact j = L.total := by
    rw [h.covered.total_eq, ← Finset.sum_add_distrib]
    simp [settled]
  have hle := Finset.single_le_sum (f := fun j => L.pending .exact j)
    (fun j _ => h.pending_nonneg j) (Finset.mem_univ i)
  rw [h.sum_settled] at hsum
  linarith

/-- Two stakes are at most the total. -/
theorem stake_add_le_total (h : Balanced L) {i j : ι} (hji : j ≠ i) :
    L.stake i + L.stake j ≤ L.total := by
  rw [h.covered.total_eq, ← Finset.sum_pair hji.symm]
  exact Finset.sum_le_sum_of_subset_of_nonneg (Finset.subset_univ _)
    fun j _ _ => h.covered.stake_nonneg j

omit [DecidableEq ι] in
/-- Whoever stores nothing has nothing. -/
theorem settled_eq_zero (h : Balanced L) (hi : L.stake i = 0) : L.settled .exact i = 0 := by
  refine le_antisymm ?_ (h.covered.settled_nonneg i)
  have := h.pending_nonneg i
  rw [settled, hi]
  linarith

/-- What a slash leaves to `i`, if it wipes everybody else out. -/
private theorem settled_slash_nonneg (h : Balanced L) (hT : 0 < L.total) (hxc : x ≤ L.current)
    (hle : ∀ j, j ≠ i → L.settled .exact j ≤ L.stake j * (x / L.total)) :
    0 ≤ L.settled .exact i - L.stake i * (x / L.total) := by
  have h₁ := Finset.add_sum_erase Finset.univ (fun j => L.settled .exact j) (Finset.mem_univ i)
  have h₂ := Finset.add_sum_erase Finset.univ (fun j => L.stake j * (x / L.total))
    (Finset.mem_univ i)
  have h₃ : ∑ j ∈ Finset.univ.erase i, L.settled .exact j ≤
      ∑ j ∈ Finset.univ.erase i, L.stake j * (x / L.total) :=
    Finset.sum_le_sum fun j hj => hle j (Finset.ne_of_mem_erase hj)
  have h₄ : ∑ j, L.stake j * (x / L.total) = x := by
    rw [← Finset.sum_mul, ← h.covered.total_eq, mul_div_cancel₀ x hT.ne']
  rw [h.sum_settled] at h₁
  linarith

/-- Somebody else is slashed more once `i` is up to date, or `i` is slashed less. -/
private theorem exists_settled_ne (h : Balanced L) {j : ι} (hji : j ≠ i) (hj : 0 < L.stake j)
    (hx : 0 < x) (hxc : x ≤ L.current) (hp : 0 < L.pending .exact i) :
    ∃ k, max 0 (((L.apply .exact i).slash .exact x).settled .exact k) ≠
      max 0 ((L.slash .exact x).settled .exact k) := by
  by_contra heq
  push Not at heq
  have hT' : 0 < L.total - L.pending .exact i := (hx.trans_le hxc).trans_le (h.current_le i)
  have hT : 0 < L.total := by linarith
  have hshare : x / L.total < x / (L.total - L.pending .exact i) :=
    div_lt_div_of_pos_left hx hT' (by linarith)
  have hwiped : ∀ k, k ≠ i → L.settled .exact k ≤ L.stake k * (x / L.total) := by
    intro k hk
    rcases eq_or_lt_of_le (h.covered.stake_nonneg k) with hzero | hpos
    · rw [h.settled_eq_zero hzero.symm, ← hzero, zero_mul]
    · have hkeq := heq k
      rw [settled_apply_slash, settled_slash, if_neg hk] at hkeq
      have hmul := mul_lt_mul_of_pos_left hshare hpos
      by_contra hlt
      rw [max_eq_right (by linarith : 0 ≤ L.settled .exact k - L.stake k * (x / L.total))] at hkeq
      have hlt' := max_lt (by linarith : 0 < L.settled .exact k - L.stake k * (x / L.total))
        (by linarith : L.settled .exact k -
          L.stake k * (x / (L.total - L.pending .exact i)) < _)
      exact hlt'.ne hkeq
  have hi := heq i
  rw [settled_apply_slash, settled_slash, if_pos rfl,
    max_eq_right (h.settled_slash_nonneg hT hxc hwiped), max_eq_right] at hi
  · -- Both shares are equal only if `i` stores the whole total.
    have hcross : L.settled .exact i * L.total =
        L.stake i * (L.total - L.pending .exact i) := by
      have h₁ : L.settled .exact i * (x / (L.total - L.pending .exact i)) =
          L.stake i * (x / L.total) := by linarith
      field_simp at h₁
      linarith
    have halone : L.pending .exact i * (L.total - L.stake i) = 0 := by
      rw [settled] at hcross
      linarith
    have := h.stake_add_le_total hji
    rcases mul_eq_zero.mp halone with hzero | hzero <;> linarith
  · have hle : x / (L.total - L.pending .exact i) ≤ 1 :=
      (div_le_one hT').mpr (hxc.trans (h.current_le i))
    have := mul_le_mul_of_nonneg_left hle (h.covered.settled_nonneg i)
    linarith

/-- Bringing `i` up to date does not change what a following slash leaves to anybody exactly
when there is nothing to slash, nothing pending, or nobody else to share the slash with. -/
theorem apply_slash_iff (h : Balanced L) (i : ι) (hx : 0 ≤ x) (hxc : x ≤ L.current) :
    (∀ j, max 0 (((L.apply .exact i).slash .exact x).settled .exact j) =
        max 0 ((L.slash .exact x).settled .exact j)) ↔
      x = 0 ∨ L.pending .exact i = 0 ∨ ∀ j, j ≠ i → L.stake j = 0 := by
  constructor
  · intro heq
    by_contra hne
    push Not at hne
    obtain ⟨hx0, hp0, j, hji, hj0⟩ := hne
    obtain ⟨k, hk⟩ := h.exists_settled_ne hji
      (lt_of_le_of_ne (h.covered.stake_nonneg j) (Ne.symm hj0)) (lt_of_le_of_ne hx hx0.symm) hxc
      (lt_of_le_of_ne (h.pending_nonneg i) hp0.symm)
    exact hk (heq k)
  · intro hcond j
    rw [settled_apply_slash, settled_slash]
    rcases hcond with rfl | hp | halone
    · simp
    · have hi : L.settled .exact i = L.stake i := by rw [settled, hp, sub_zero]
      rw [hp, sub_zero, hi]
      split
      · rename_i hj
        rw [hj]
      · rfl
    · have hcur : L.settled .exact i = L.current := by
        rw [← h.sum_settled, Finset.sum_eq_single i
          (fun k _ hk => h.settled_eq_zero (halone k hk)) (by simp)]
      have htot : L.stake i = L.total := by
        rw [h.covered.total_eq, Finset.sum_eq_single i (fun k _ hk => halone k hk) (by simp)]
      split
      · rename_i hj
        have hT' : L.total - L.pending .exact i = L.settled .exact i := by rw [← htot, settled]
        rw [hj, hT', htot]
        rcases eq_or_lt_of_le hx with rfl | hxpos
        · simp
        · have hs : 0 < L.settled .exact i := by linarith
          have hT : 0 < L.total := by
            have := h.pending_nonneg i
            linarith
          rw [mul_div_cancel₀ x hs.ne', mul_div_cancel₀ x hT.ne']
      · rename_i hj
        rw [halone j hj]
        simp

omit [DecidableEq ι] in
/-- A slash leaves everybody the same fraction of the settled stake exactly when there is
nothing to slash or everybody has the same fraction of the stored stake pending. -/
theorem slash_fraction_iff (h : Balanced L) (hx : 0 ≤ x) (hxc : x ≤ L.current) :
    (∀ j, max 0 ((L.slash .exact x).settled .exact j) =
        L.settled .exact j * (1 - x / L.current)) ↔
      x = 0 ∨ ∀ j, L.stake j * L.current = L.settled .exact j * L.total := by
  rcases eq_or_lt_of_le hx with rfl | hxpos
  · simp only [true_or, iff_true]
    intro j
    rw [settled_slash]
    simpa using h.covered.settled_nonneg j
  have hC : 0 < L.current := hxpos.trans_le hxc
  have hT : L.total ≠ 0 := (hC.trans_le h.current_le_total).ne'
  have hshare : ∀ j, L.settled .exact j - L.stake j * (x / L.total) =
      L.settled .exact j * (1 - x / L.current) ↔
        L.stake j * L.current = L.settled .exact j * L.total := by
    intro j
    rw [mul_sub, mul_one, sub_right_inj]
    field_simp
  simp only [settled_slash, hxpos.ne', false_or]
  constructor
  · intro heq j
    -- The fractions add up to what is left, so nobody's remainder is clamped.
    have hsum : ∑ k, (max 0 (L.settled .exact k - L.stake k * (x / L.total)) -
        (L.settled .exact k - L.stake k * (x / L.total))) = 0 := by
      rw [Finset.sum_sub_distrib, Finset.sum_sub_distrib, ← Finset.sum_mul, ← h.covered.total_eq,
        mul_div_cancel₀ x hT, Finset.sum_congr rfl fun k _ => heq k, ← Finset.sum_mul,
        h.sum_settled, mul_sub, mul_one, mul_div_cancel₀ x hC.ne']
      ring
    have hzero := (Finset.sum_eq_zero_iff_of_nonneg fun k _ =>
      sub_nonneg.mpr (le_max_right _ _)).mp hsum j (Finset.mem_univ j)
    rw [← hshare, ← heq j]
    linarith
  · intro hall j
    rw [(hshare j).mpr (hall j), max_eq_right]
    refine mul_nonneg (h.covered.settled_nonneg j) (sub_nonneg.mpr ?_)
    exact (div_le_one hC).mpr hxc

end Balanced

end Core.StakeLedger
