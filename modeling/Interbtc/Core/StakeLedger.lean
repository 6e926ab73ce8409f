import Interbtc.Core.FixedPoint
import Interbtc.Core.Sums
import Mathlib.Tactic.GCongr

/-!
# Lazily slashed stake

A ledger of stakes that are slashed all at once by raising one accumulator, the
slash per token. The slash reaches the stored stake of an account only when that
account is next brought up to date; until then it is pending.
-/

namespace Core

/-- Stored stakes, their tallies, and the accumulators they share. -/
structure StakeLedger (ι : Type) where
  total : ℚ
  current : ℚ
  perToken : ℚ
  stake : ι → ℚ
  tally : ι → ℚ

namespace StakeLedger

variable {ι : Type} [DecidableEq ι] (rd : Rounding) (L : StakeLedger ι)

/-- The ledger nobody has staked in. -/
def empty : StakeLedger ι := ⟨0, 0, 0, fun _ => 0, fun _ => 0⟩

/-- The slash that has not reached the stored stake yet. -/
def pending (i : ι) : ℚ := rd.round (L.stake i * L.perToken) - L.tally i

/-- The stake once the pending slash is taken off. -/
def settled (i : ι) : ℚ := L.stake i - L.pending rd i

/-- Bring one account up to date. -/
def apply (i : ι) : StakeLedger ι :=
  { L with
    total := L.total - L.pending rd i
    stake := Function.update L.stake i (L.settled rd i)
    tally := Function.update L.tally i (rd.round (L.settled rd i * L.perToken)) }

/-- Add to the stored stake of one account. -/
def deposit (i : ι) (a : ℚ) : StakeLedger ι :=
  { L with
    total := L.total + a
    current := L.current + a
    stake := Function.update L.stake i (L.stake i + a)
    tally := Function.update L.tally i (L.tally i + rd.round (L.perToken * a)) }

/-- Take from the stored stake of one account; a ledger left empty forgets the
rest of its slash-adjusted total. -/
def withdraw (i : ι) (a : ℚ) : StakeLedger ι :=
  { L with
    total := L.total - a
    current := if L.total - a = 0 then 0 else L.current - a
    stake := Function.update L.stake i (L.stake i - a)
    tally := Function.update L.tally i (L.tally i - rd.round (L.perToken * a)) }

/-- Slash every account at once. -/
def slash (x : ℚ) : StakeLedger ι :=
  { L with
    current := L.current - x
    perToken := L.perToken + rd.round (x / L.total) }

/-- Sum of the stakes once every pending slash is taken off, less the recorded total. -/
def drift [Fintype ι] : ℚ := ∑ i, L.settled rd i - L.current

/-- The number of accounts with a stored stake or a tally. -/
def participants [Fintype ι] : ℕ :=
  (Finset.univ.filter fun i => L.stake i ≠ 0 ∨ L.tally i ≠ 0).card

variable {rd L} {i : ι}

/-! ## Pending slashes -/

/-- Applying clears the pending slash of one holder. -/
theorem pending_apply (j : ι) :
    (L.apply rd i).pending rd j = if j = i then 0 else L.pending rd j := by
  by_cases h : j = i
  · simp [pending, apply, h]
  · simp [pending, apply, h]

/-- Applying changes no settled stake. -/
theorem settled_apply (j : ι) : (L.apply rd i).settled rd j = L.settled rd j := by
  rw [settled, pending_apply]
  by_cases h : j = i
  · simp [apply, h]
  · simp [apply, h, settled]

/-- A deposit changes the pending slash of its holder by rounding only. -/
theorem pending_deposit (a : ℚ) (j : ι) :
    (L.deposit rd i a).pending rd j =
      if j = i then rd.round ((L.stake i + a) * L.perToken) -
        (L.tally i + rd.round (L.perToken * a))
      else L.pending rd j := by
  by_cases h : j = i
  · simp [pending, deposit, h]
  · simp [pending, deposit, h]

/-- A withdrawal changes the pending slash of its holder by rounding only. -/
theorem pending_withdraw (a : ℚ) (j : ι) :
    (L.withdraw rd i a).pending rd j =
      if j = i then rd.round ((L.stake i - a) * L.perToken) -
        (L.tally i - rd.round (L.perToken * a))
      else L.pending rd j := by
  by_cases h : j = i
  · simp [pending, withdraw, h]
  · simp [pending, withdraw, h]

/-- A deposit adds at most one rounding step to the pending slash. -/
theorem pending_deposit_mem (rd : Rounding) {a : ℚ} (hk : 0 ≤ L.perToken) (hs : 0 ≤ L.stake i)
    (ha : 0 ≤ a) :
    L.pending rd i ≤ (L.deposit rd i a).pending rd i ∧
      (L.deposit rd i a).pending rd i ≤ L.pending rd i + rd.ulp := by
  have hsk := mul_nonneg hs hk
  have hka := mul_nonneg hk ha
  have h₁ := rd.round_add_le hsk hka
  have h₂ := rd.round_add_ge hsk hka
  have h : (L.stake i + a) * L.perToken = L.stake i * L.perToken + L.perToken * a := by ring
  rw [pending_deposit, if_pos rfl, h, pending]
  constructor <;> linarith

/-- A withdrawal takes at most one rounding step off the pending slash. -/
theorem pending_withdraw_mem (rd : Rounding) {a : ℚ} (hk : 0 ≤ L.perToken) (ha : 0 ≤ a)
    (has : a ≤ L.stake i) :
    L.pending rd i - rd.ulp ≤ (L.withdraw rd i a).pending rd i ∧
      (L.withdraw rd i a).pending rd i ≤ L.pending rd i := by
  have hsk := mul_nonneg (sub_nonneg.mpr has) hk
  have hka := mul_nonneg hk ha
  have h₁ := rd.round_add_le hsk hka
  have h₂ := rd.round_add_ge hsk hka
  have h : (L.stake i - a) * L.perToken + L.perToken * a = L.stake i * L.perToken := by ring
  rw [h] at h₁ h₂
  rw [pending_withdraw, if_pos rfl, pending]
  constructor <;> linarith

omit [DecidableEq ι] in
/-- A slash of `x` takes `x / total` of every stored stake, up to one rounding step. -/
theorem pending_slash_mem (rd : Rounding) {x : ℚ} (hk : 0 ≤ L.perToken) (hs : 0 ≤ L.stake i)
    (hx : 0 ≤ x / L.total) :
    L.pending rd i + L.stake i * rd.round (x / L.total) - rd.ulp ≤
        (L.slash rd x).pending rd i ∧
      (L.slash rd x).pending rd i ≤
        L.pending rd i + L.stake i * rd.round (x / L.total) + rd.ulp := by
  have hsk := mul_nonneg hs hk
  have hd := mul_nonneg hs (rd.round_nonneg hx)
  have h₁ := rd.round_add_le hsk hd
  have h₂ := rd.round_add_ge hsk hd
  have h₃ := rd.round_le hd
  have h₄ := rd.le_round_add hd
  simp only [pending, slash, mul_add]
  constructor <;> linarith

omit [DecidableEq ι] in
/-- Who has no stake is not slashed. -/
theorem pending_slash_of_stake_eq_zero (x : ℚ) (hs : L.stake i = 0) :
    (L.slash rd x).pending rd i = L.pending rd i := by
  simp [pending, slash, hs]

/-! ## Slashes that every account can bear -/

variable [Fintype ι]

/-- No account owes more than its stored stake, and the stored total is the sum of the
stored stakes. -/
structure Covered (rd : Rounding) (L : StakeLedger ι) : Prop where
  perToken_nonneg : 0 ≤ L.perToken
  stake_nonneg : ∀ i, 0 ≤ L.stake i
  pending_le : ∀ i, L.pending rd i ≤ L.stake i
  total_eq : L.total = ∑ i, L.stake i

namespace Covered

omit [DecidableEq ι] in
/-- The empty ledger is covered. -/
theorem empty : Covered rd (StakeLedger.empty : StakeLedger ι) where
  perToken_nonneg := le_rfl
  stake_nonneg _ := le_rfl
  pending_le _ := by simp [StakeLedger.empty, pending]
  total_eq := by simp [StakeLedger.empty]

omit [DecidableEq ι] in
/-- No settled stake is negative. -/
theorem settled_nonneg (h : Covered rd L) (j : ι) : 0 ≤ L.settled rd j :=
  sub_nonneg.mpr (h.pending_le j)

omit [DecidableEq ι] in
/-- The total of the stakes is not negative. -/
theorem total_nonneg (h : Covered rd L) : 0 ≤ L.total := by
  rw [h.total_eq]
  exact Finset.sum_nonneg fun j _ => h.stake_nonneg j

private theorem sum_stake_update (h : Covered rd L) (i : ι) (v : ℚ) :
    ∑ j, Function.update L.stake i v j = L.total - L.stake i + v := by
  rw [h.total_eq]
  exact sum_update (fun _ q => q) L.stake i v

/-- Applying a slash keeps a ledger covered. -/
theorem apply (h : Covered rd L) (i : ι) : Covered rd (L.apply rd i) where
  perToken_nonneg := h.perToken_nonneg
  stake_nonneg j := by
    rcases eq_or_ne j i with rfl | hj
    · simpa [StakeLedger.apply] using h.settled_nonneg j
    · simpa [StakeLedger.apply, hj] using h.stake_nonneg j
  pending_le j := by
    rw [pending_apply]
    rcases eq_or_ne j i with rfl | hj
    · simpa [StakeLedger.apply] using h.settled_nonneg j
    · simpa [StakeLedger.apply, hj] using h.pending_le j
  total_eq := by
    have hsum := h.sum_stake_update i (L.settled rd i)
    simp only [StakeLedger.apply]
    rw [hsum, settled]
    ring

/-- A deposit of at least one rounding step covers the slash it may add. -/
theorem deposit (h : Covered rd L) (i : ι) {a : ℚ} (ha : 0 ≤ a) (hulp : a = 0 ∨ rd.ulp ≤ a) :
    Covered rd (L.deposit rd i a) where
  perToken_nonneg := h.perToken_nonneg
  stake_nonneg j := by
    rcases eq_or_ne j i with rfl | hj
    · simpa [StakeLedger.deposit] using add_nonneg (h.stake_nonneg j) ha
    · simpa [StakeLedger.deposit, hj] using h.stake_nonneg j
  pending_le j := by
    rcases eq_or_ne j i with rfl | hj
    · have h₁ := (pending_deposit_mem rd h.perToken_nonneg (h.stake_nonneg j) ha).2
      have h₂ := h.pending_le j
      rcases hulp with rfl | hulp
      · simpa [StakeLedger.deposit, pending] using h₂
      · simp only [StakeLedger.deposit, Function.update_self] at h₁ ⊢
        linarith
    · rw [pending_deposit, if_neg hj]
      simpa [StakeLedger.deposit, hj] using h.pending_le j
  total_eq := by
    have hsum := h.sum_stake_update i (L.stake i + a)
    simp only [StakeLedger.deposit]
    rw [hsum]
    ring

/-- A withdrawal of at most the settled stake leaves enough for the pending slash. -/
theorem withdraw (h : Covered rd L) (i : ι) {a : ℚ} (ha : 0 ≤ a) (has : a ≤ L.stake i)
    (hset : a ≤ L.settled rd i) : Covered rd (L.withdraw rd i a) where
  perToken_nonneg := h.perToken_nonneg
  stake_nonneg j := by
    rcases eq_or_ne j i with rfl | hj
    · simpa [StakeLedger.withdraw] using has
    · simpa [StakeLedger.withdraw, hj] using h.stake_nonneg j
  pending_le j := by
    rcases eq_or_ne j i with rfl | hj
    · have h₁ := (pending_withdraw_mem rd h.perToken_nonneg ha has).2
      rw [settled] at hset
      simp only [StakeLedger.withdraw, Function.update_self] at h₁ ⊢
      linarith
    · rw [pending_withdraw, if_neg hj]
      simpa [StakeLedger.withdraw, hj] using h.pending_le j
  total_eq := by
    have hsum := h.sum_stake_update i (L.stake i - a)
    simp only [StakeLedger.withdraw]
    rw [hsum]
    ring

omit [DecidableEq ι] in
/-- A slash keeps the stakes covered exactly when every account can bear it. -/
theorem slash (h : Covered rd L) {x : ℚ} (hx : 0 ≤ x)
    (hcov : ∀ j, (L.slash rd x).pending rd j ≤ L.stake j) : Covered rd (L.slash rd x) where
  perToken_nonneg := add_nonneg h.perToken_nonneg
    (rd.round_nonneg (div_nonneg hx h.total_nonneg))
  stake_nonneg := h.stake_nonneg
  pending_le := hcov
  total_eq := h.total_eq

end Covered

/-! ## How far the settled stakes drift from the recorded total -/

/-- No account is owed more than `n` rounding steps. -/
def Lagging (rd : Rounding) (n : ℕ) (L : StakeLedger ι) : Prop :=
  ∀ i, -(n * rd.ulp) ≤ L.pending rd i

omit [DecidableEq ι] [Fintype ι] in
/-- The empty ledger lags behind by nothing. -/
theorem Lagging.empty : Lagging rd 0 (StakeLedger.empty : StakeLedger ι) := by
  intro i
  simp [StakeLedger.empty, pending]

omit [DecidableEq ι] [Fintype ι] in
/-- A smaller lag is within a larger one. -/
theorem Lagging.mono {m n : ℕ} (hmn : m ≤ n) (h : Lagging rd m L) : Lagging rd n L := by
  intro i
  have hm : (m : ℚ) ≤ n := by exact_mod_cast hmn
  have := mul_le_mul_of_nonneg_right hm rd.ulp_nonneg
  linarith [h i]

/-- Applying a slash causes no drift. -/
theorem drift_apply : (L.apply rd i).drift rd = L.drift rd := by
  simp only [drift, settled_apply]
  rfl

/-- A deposit drifts by a rounding step at most. -/
theorem drift_deposit (rd : Rounding) {a : ℚ} (hk : 0 ≤ L.perToken) (hs : 0 ≤ L.stake i)
    (ha : 0 ≤ a) :
    |(L.deposit rd i a).drift rd| ≤ |L.drift rd| + rd.ulp := by
  have hp := pending_deposit_mem rd hk hs ha
  have hoff : ∀ j, j ≠ i → (L.deposit rd i a).settled rd j = L.settled rd j := by
    intro j hj
    rw [settled, pending_deposit, if_neg hj]
    simp [deposit, hj, settled]
  have hself : (L.deposit rd i a).settled rd i =
      L.stake i + a - (L.deposit rd i a).pending rd i := by
    simp [settled, deposit]
  have hsum := sum_of_eq_off i hoff
  have hcur : (L.deposit rd i a).current = L.current + a := rfl
  have hd : (L.deposit rd i a).drift rd =
      L.drift rd - ((L.deposit rd i a).pending rd i - L.pending rd i) := by
    rw [drift, drift, hsum, hself, hcur, settled]
    ring
  rw [hd]
  have habs := abs_sub (L.drift rd) ((L.deposit rd i a).pending rd i - L.pending rd i)
  rw [abs_of_nonneg (by linarith : 0 ≤ (L.deposit rd i a).pending rd i - L.pending rd i)] at habs
  linarith

/-- A withdrawal drifts by a rounding step at most. -/
theorem drift_withdraw (rd : Rounding) {a : ℚ} (hk : 0 ≤ L.perToken) (ha : 0 ≤ a)
    (has : a ≤ L.stake i)
    (htotal : L.total - a ≠ 0) :
    |(L.withdraw rd i a).drift rd| ≤ |L.drift rd| + rd.ulp := by
  have hp := pending_withdraw_mem rd hk ha has
  have hoff : ∀ j, j ≠ i → (L.withdraw rd i a).settled rd j = L.settled rd j := by
    intro j hj
    rw [settled, pending_withdraw, if_neg hj]
    simp [withdraw, hj, settled]
  have hself : (L.withdraw rd i a).settled rd i =
      L.stake i - a - (L.withdraw rd i a).pending rd i := by
    simp [settled, withdraw]
  have hsum := sum_of_eq_off i hoff
  have hcur : (L.withdraw rd i a).current = L.current - a := if_neg htotal
  have hd : (L.withdraw rd i a).drift rd =
      L.drift rd + (L.pending rd i - (L.withdraw rd i a).pending rd i) := by
    rw [drift, drift, hsum, hself, hcur, settled]
    ring
  rw [hd]
  have habs := abs_add_le (L.drift rd) (L.pending rd i - (L.withdraw rd i a).pending rd i)
  rw [abs_of_nonneg (by linarith : 0 ≤ L.pending rd i - (L.withdraw rd i a).pending rd i)] at habs
  linarith

omit [DecidableEq ι] in
/-- A quantity that each participant contributes at most `c` to. -/
private theorem sum_le_participants {f : ι → ℚ} {c : ℚ}
    (hf : ∀ i, (L.stake i ≠ 0 ∨ L.tally i ≠ 0) → f i ≤ c)
    (hf₀ : ∀ i, L.stake i = 0 → L.tally i = 0 → f i ≤ 0) :
    ∑ i, f i ≤ c * L.participants := by
  have h : ∀ i, f i ≤ if L.stake i ≠ 0 ∨ L.tally i ≠ 0 then c else 0 := by
    intro i
    split
    · exact hf i ‹_›
    · rename_i hi
      rw [not_or, not_not, not_not] at hi
      exact hf₀ i hi.1 hi.2
  refine (Finset.sum_le_sum fun i _ => h i).trans_eq ?_
  rw [← Finset.sum_filter, Finset.sum_const, nsmul_eq_mul, mul_comm]
  rfl

omit [DecidableEq ι] in
/-- In an empty ledger only the rounding of the tallies is left. -/
theorem drift_of_total_eq_zero {n : ℕ} (hcov : Covered rd L) (hlag : Lagging rd n L)
    (htotal : L.total = 0) (hcur : L.current = 0) :
    |L.drift rd| ≤ rd.ulp * (n * L.participants) := by
  have hzero : ∀ i, L.stake i = 0 := by
    have hsum := hcov.total_eq.symm.trans htotal
    rw [Finset.sum_eq_zero_iff_of_nonneg fun i _ => hcov.stake_nonneg i] at hsum
    exact fun i => hsum i (Finset.mem_univ i)
  have hsettled : ∀ i, L.settled rd i = -L.pending rd i := fun i => by
    rw [settled, hzero i, zero_sub]
  have hle : ∑ i, L.settled rd i ≤ n * rd.ulp * L.participants := by
    refine sum_le_participants (fun i _ => ?_) (fun i hs ht => ?_)
    · rw [hsettled]
      linarith [hlag i]
    · simp [settled, pending, hs, ht]
  have hge : 0 ≤ ∑ i, L.settled rd i := Finset.sum_nonneg fun i _ => hcov.settled_nonneg i
  rw [drift, hcur, sub_zero, abs_of_nonneg hge]
  linarith

omit [DecidableEq ι] in
/-- A slash drifts by a rounding step for each token and each participant at most. -/
theorem drift_slash {x : ℚ} (hcov : Covered rd L) (hx : 0 ≤ x) (htotal : L.total ≠ 0) :
    |(L.slash rd x).drift rd| ≤ |L.drift rd| + rd.ulp * (L.total + L.participants) := by
  have htot : 0 < L.total := lt_of_le_of_ne hcov.total_nonneg htotal.symm
  have hq : 0 ≤ x / L.total := div_nonneg hx htot.le
  have hd₁ := rd.round_le hq
  have hd₂ := rd.le_round_add hq
  set d := rd.round (x / L.total) with hd
  have hxd : d * L.total ≤ x := by rwa [← le_div_iff₀ htot]
  have hxd' : x ≤ (d + rd.ulp) * L.total := by rwa [← div_le_iff₀ htot]
  -- Each account loses its share of the slash, up to one rounding step.
  have hmem : ∀ i, L.settled rd i - (L.slash rd x).settled rd i =
      (L.slash rd x).pending rd i - L.pending rd i := by
    intro i
    simp only [settled, slash]
    ring
  have hlow : ∑ i, (L.stake i * d - (L.settled rd i - (L.slash rd x).settled rd i)) ≤
      rd.ulp * L.participants := by
    refine sum_le_participants (fun i _ => ?_) (fun i hs _ => ?_)
    · have := (pending_slash_mem rd hcov.perToken_nonneg (hcov.stake_nonneg i) hq).1
      rw [hmem]
      linarith
    · rw [hmem, pending_slash_of_stake_eq_zero x hs, hs]
      simp
  have hupp : ∑ i, (L.settled rd i - (L.slash rd x).settled rd i - L.stake i * d) ≤
      rd.ulp * L.participants := by
    refine sum_le_participants (fun i _ => ?_) (fun i hs _ => ?_)
    · have := (pending_slash_mem rd hcov.perToken_nonneg (hcov.stake_nonneg i) hq).2
      rw [hmem]
      linarith
    · rw [hmem, pending_slash_of_stake_eq_zero x hs, hs]
      simp
  rw [Finset.sum_sub_distrib, Finset.sum_sub_distrib, ← Finset.sum_mul, ← hcov.total_eq]
    at hlow hupp
  have hcur : (L.slash rd x).current = L.current - x := rfl
  have hdrift : (L.slash rd x).drift rd = L.drift rd +
      (x - (∑ i, L.settled rd i - ∑ i, (L.slash rd x).settled rd i)) := by
    rw [drift, drift, hcur]
    ring
  rw [hdrift]
  refine (abs_add_le _ _).trans ?_
  gcongr
  have hu := mul_nonneg rd.ulp_nonneg htot.le
  rw [abs_le]
  constructor <;> linarith

/-! ## Steps -/

/-- What one operation may do to a ledger. -/
inductive Step (rd : Rounding) (L : StakeLedger ι) : StakeLedger ι → Prop
  | stay : Step rd L L
  | apply (i : ι) : Step rd L (L.apply rd i)
  | deposit (i : ι) (a : ℚ) (ha : 0 ≤ a) (hulp : a = 0 ∨ rd.ulp ≤ a) :
      Step rd L ((L.apply rd i).deposit rd i a)
  | withdraw (i : ι) (a : ℚ) (ha : 0 ≤ a) (has : a ≤ L.settled rd i) :
      Step rd L ((L.apply rd i).withdraw rd i a)
  /-- A withdrawal that does not bring the account up to date first. -/
  | withdrawStale (i : ι) (a : ℚ) (ha : 0 ≤ a) (has : a ≤ L.stake i)
      (hset : a ≤ L.settled rd i) : Step rd L (L.withdraw rd i a)
  | slash (x : ℚ) (hx : 0 ≤ x) (htotal : L.total ≠ 0)
      (hcov : ∀ i, (L.slash rd x).pending rd i ≤ L.stake i) : Step rd L (L.slash rd x)

namespace Step

variable {L' : StakeLedger ι}

omit [Fintype ι] in
private theorem stake_apply_self : (L.apply rd i).stake i = L.settled rd i := by
  simp [StakeLedger.apply]

/-- Every step keeps a ledger covered. -/
theorem covered (h : Step rd L L') (hL : Covered rd L) : Covered rd L' := by
  cases h with
  | stay => exact hL
  | apply i => exact hL.apply i
  | deposit i a ha hulp => exact (hL.apply i).deposit i ha hulp
  | withdraw i a ha has =>
    refine (hL.apply i).withdraw i ha ?_ ?_
    · rwa [stake_apply_self]
    · rwa [settled_apply]
  | withdrawStale i a ha has hset => exact hL.withdraw i ha has hset
  | slash x hx htotal hcov => exact hL.slash hx hcov

omit [Fintype ι] in
private theorem lagging_apply {n : ℕ} (hlag : Lagging rd n L) : Lagging rd n (L.apply rd i) := by
  intro j
  rw [pending_apply]
  split
  · have := mul_nonneg (Nat.cast_nonneg (α := ℚ) n) rd.ulp_nonneg
    linarith
  · exact hlag j

omit [Fintype ι] in
private theorem lagging_withdraw {n : ℕ} {a : ℚ} (hk : 0 ≤ L.perToken) (ha : 0 ≤ a)
    (has : a ≤ L.stake i) (hlag : Lagging rd n L) :
    Lagging rd (n + 1) (L.withdraw rd i a) := by
  intro j
  rcases eq_or_ne j i with rfl | hj
  · have h₁ := (pending_withdraw_mem rd hk ha has).1
    have h₂ := hlag j
    push_cast
    linarith
  · rw [pending_withdraw, if_neg hj]
    exact (hlag.mono n.le_succ) j

/-- One step leaves the accounts owed at most one more rounding step. -/
theorem lagging {n : ℕ} (h : Step rd L L') (hL : Covered rd L) (hlag : Lagging rd n L) :
    Lagging rd (n + 1) L' := by
  cases h with
  | stay => exact hlag.mono n.le_succ
  | apply i => exact (lagging_apply hlag).mono n.le_succ
  | deposit i a ha hulp =>
    intro j
    have hlag' := (lagging_apply (i := i) hlag).mono n.le_succ j
    rcases eq_or_ne j i with rfl | hj
    · have hA := hL.apply j
      exact hlag'.trans (pending_deposit_mem rd hA.perToken_nonneg (hA.stake_nonneg j) ha).1
    · rwa [pending_deposit, if_neg hj]
  | withdraw i a ha has =>
    refine lagging_withdraw (hL.apply i).perToken_nonneg ha ?_ (lagging_apply hlag)
    rwa [stake_apply_self]
  | withdrawStale i a ha has hset => exact lagging_withdraw hL.perToken_nonneg ha has hlag
  | slash x hx htotal hcov =>
    intro j
    have hq : 0 ≤ x / L.total := div_nonneg hx hL.total_nonneg
    have h₁ := (pending_slash_mem rd hL.perToken_nonneg (hL.stake_nonneg j) hq).1
    have h₂ := mul_nonneg (hL.stake_nonneg j) (rd.round_nonneg hq)
    have h₃ := hlag j
    push_cast
    linarith

/-- What one step may add to the drift, in rounding steps, `n` steps into a run. -/
def cost (n : ℕ) (L L' : StakeLedger ι) : ℚ :=
  1 + L.total + L.participants + n * L'.participants

omit [DecidableEq ι] in
/-- A larger lag costs more. -/
theorem cost_mono {m n : ℕ} (hmn : m ≤ n) : cost m L L' ≤ cost n L L' := by
  have hm : (m : ℚ) ≤ n := by exact_mod_cast hmn
  have := mul_le_mul_of_nonneg_right hm (Nat.cast_nonneg (α := ℚ) L'.participants)
  simp only [cost]
  linarith

private theorem drift_withdraw_le {n : ℕ} {a : ℚ} (hk : 0 ≤ L.perToken) (ha : 0 ≤ a)
    (has : a ≤ L.stake i) (hcov : Covered rd (L.withdraw rd i a))
    (hlag : Lagging rd n (L.withdraw rd i a)) :
    |(L.withdraw rd i a).drift rd| ≤
      |L.drift rd| + rd.ulp * (1 + n * (L.withdraw rd i a).participants) := by
  have hu := rd.ulp_nonneg
  have hn : (0 : ℚ) ≤ n * (L.withdraw rd i a).participants := by positivity
  by_cases htotal : L.total - a = 0
  · have h := drift_of_total_eq_zero hcov hlag htotal (if_pos htotal)
    have := abs_nonneg (L.drift rd)
    linarith
  · have h := drift_withdraw rd hk ha has htotal
    have := mul_nonneg hu hn
    linarith

/-- Every step drifts by its cost at most. -/
theorem drift {n : ℕ} (h : Step rd L L') (hL : Covered rd L) (hlag : Lagging rd (n + 1) L') :
    |L'.drift rd| ≤ |L.drift rd| + rd.ulp * cost (n + 1) L L' := by
  have hcov' := h.covered hL
  have hu := rd.ulp_nonneg
  have htot := mul_nonneg hu hL.total_nonneg
  have hp := mul_nonneg hu (Nat.cast_nonneg (α := ℚ) L.participants)
  have hn : 0 ≤ rd.ulp * ((n + 1 : ℕ) * (L'.participants : ℚ)) := by positivity
  simp only [cost, mul_add, mul_one]
  cases h with
  | stay => linarith
  | apply i =>
    rw [drift_apply]
    linarith
  | deposit i a ha hulp =>
    have hA := hL.apply i
    have h₁ := drift_deposit rd hA.perToken_nonneg (hA.stake_nonneg i) ha
    rw [drift_apply] at h₁
    linarith
  | withdraw i a ha has =>
    have h₁ := drift_withdraw_le (hL.apply i).perToken_nonneg ha
      (by rwa [stake_apply_self]) hcov' hlag
    rw [drift_apply] at h₁
    linarith
  | withdrawStale i a ha has hset =>
    have h₁ := drift_withdraw_le hL.perToken_nonneg ha has hcov' hlag
    linarith
  | slash x hx htotal hcov =>
    have h₁ := drift_slash hL hx htotal
    linarith

end Step

end StakeLedger

end Core
