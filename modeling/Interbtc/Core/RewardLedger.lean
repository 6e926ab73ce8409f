import Interbtc.Core.SlashOrder

/-!
# Rewards on lazily slashed stake

Rewards in one currency are kept as one accumulator, the reward per token, and a
tally per account. What an account has accrued is its settled stake times the
accumulator, less its tally.
-/

namespace Core

/-- The reward accumulator, the tallies, and the recorded sum of unclaimed rewards. -/
structure RewardLedger (ι : Type) where
  unclaimed : ℚ
  perToken : ℚ
  tally : ι → ℚ

namespace RewardLedger

variable {ι : Type} [DecidableEq ι] (rd : Rounding) (R : RewardLedger ι)

/-- Keep the accrued reward of an account whose stake grows by `a`. -/
def deposit (i : ι) (a : ℚ) : RewardLedger ι :=
  { R with tally := Function.update R.tally i (R.tally i + rd.round (R.perToken * a)) }

/-- Keep the accrued reward of an account whose stake shrinks by `a`. -/
def withdraw (i : ι) (a : ℚ) : RewardLedger ι :=
  { R with tally := Function.update R.tally i (R.tally i - rd.round (R.perToken * a)) }

/-- Spread a reward over the slash-adjusted total stake, if there is any. -/
def increase (current reward : ℚ) : RewardLedger ι :=
  if current = 0 then R
  else { R with perToken := R.perToken + rd.round (reward / current) }

/-- Spread what a slash of `x` takes from the accrued rewards over the stake it leaves. -/
def slash (current x : ℚ) : RewardLedger ι :=
  R.increase rd current (rd.round (R.perToken * x))

/-- Spread a new reward and record it as unclaimed. -/
def distribute (current reward : ℚ) : RewardLedger ι :=
  if current = 0 then R
  else { R.increase rd current reward with unclaimed := R.unclaimed + reward }

/-- Pay a reward out and restart the tally of the account. -/
def claim (i : ι) (stake reward : ℚ) : RewardLedger ι :=
  { R with
    unclaimed := R.unclaimed - reward
    tally := Function.update R.tally i (rd.round (stake * R.perToken)) }

/-! ## Solvency under exact arithmetic -/

/-- What an account has accrued and not claimed. -/
def accrued (L : StakeLedger ι) (R : RewardLedger ι) (i : ι) : ℚ :=
  L.settled .exact i * R.perToken - R.tally i

/-- What all accounts could claim. -/
def outstanding [Fintype ι] (L : StakeLedger ι) (R : RewardLedger ι) : ℚ :=
  ∑ i, max 0 (accrued L R i)

/-- A slash that cannot take from the rewards anybody has accrued. -/
inductive FairSlash (L : StakeLedger ι) (R : RewardLedger ι) :
    StakeLedger ι → RewardLedger ι → Prop
  | stay : FairSlash L R L R
  /-- The slash takes the same fraction of everybody's stake and leaves some. -/
  | proportional (x : ℚ) (hx : 0 ≤ x) (hlt : x < L.current)
      (hfair : ∀ i, L.stake i * L.current = L.settled .exact i * L.total) :
      FairSlash L R (L.slash .exact x) (R.slash .exact (L.current - x) x)
  /-- Nothing has been distributed yet. -/
  | unrewarded (x : ℚ) (hzero : R.perToken = 0) :
      FairSlash L R (L.slash .exact x) (R.slash .exact (L.current - x) x)

/-- What one operation may do to the stakes and the rewards, with the reward it spreads and
the reward it pays. -/
inductive Step (L : StakeLedger ι) (R : RewardLedger ι) :
    StakeLedger ι → RewardLedger ι → ℚ → ℚ → Prop
  | stay : Step L R L R 0 0
  | apply (i : ι) : Step L R (L.apply .exact i) R 0 0
  | deposit (i : ι) (a : ℚ) :
      Step L R ((L.apply .exact i).deposit .exact i a) (R.deposit .exact i a) 0 0
  | withdraw (i : ι) (a : ℚ) :
      Step L R ((L.apply .exact i).withdraw .exact i a) (R.withdraw .exact i a) 0 0
  | withdrawStale (i : ι) (a : ℚ) :
      Step L R (L.withdraw .exact i a) (R.withdraw .exact i a) 0 0
  | slash {L' R'} (h : FairSlash L R L' R') : Step L R L' R' 0 0
  | distribute (x : ℚ) (hx : 0 ≤ x) :
      Step L R L (R.distribute .exact L.current x) (if L.current = 0 then 0 else x) 0
  | claim (i : ι) (reward : ℚ) (hle : reward ≤ max 0 (accrued L R i)) :
      Step L R (L.apply .exact i)
        (R.claim .exact i ((L.apply .exact i).stake i) reward) 0 reward
  /-- A claim that does not bring the account up to date first. -/
  | claimStale (i : ι) (reward : ℚ) (hle : reward ≤ max 0 (accrued L R i)) :
      Step L R L (R.claim .exact i (L.stake i) reward) 0 reward

variable {L L' : StakeLedger ι} {R R' : RewardLedger ι} {i : ι}

/-- Applying a slash changes no reward. -/
theorem accrued_apply (j : ι) : accrued (L.apply .exact i) R j = accrued L R j := by
  rw [accrued, accrued, StakeLedger.settled_apply]

/-- A deposit changes no reward. -/
theorem accrued_deposit (a : ℚ) (j : ι) :
    accrued (L.deposit .exact i a) (R.deposit .exact i a) j = accrued L R j := by
  rw [accrued, accrued, StakeLedger.settled_deposit]
  rcases eq_or_ne j i with rfl | hj
  · simp only [deposit, Function.update_self, if_true, Rounding.exact_round]
    ring
  · simp [deposit, hj]

/-- A withdrawal changes no reward. -/
theorem accrued_withdraw (a : ℚ) (j : ι) :
    accrued (L.withdraw .exact i a) (R.withdraw .exact i a) j = accrued L R j := by
  rw [accrued, accrued, StakeLedger.settled_withdraw]
  rcases eq_or_ne j i with rfl | hj
  · simp only [withdraw, Function.update_self, if_true, Rounding.exact_round]
    ring
  · simp [withdraw, hj]

omit [DecidableEq ι] in
private theorem accrued_slash {x : ℚ} (hx : 0 ≤ x) (hlt : x < L.current)
    (hfair : ∀ i, L.stake i * L.current = L.settled .exact i * L.total) (htotal : L.total ≠ 0)
    (j : ι) :
    accrued (L.slash .exact x) (R.slash .exact (L.current - x) x) j = accrued L R j := by
  have hC : L.current ≠ 0 := (hx.trans_lt hlt).ne'
  have hC' : L.current - x ≠ 0 := (sub_pos.mpr hlt).ne'
  have hstake : L.stake j = L.settled .exact j * L.total / L.current := by
    rw [← hfair j, mul_div_cancel_right₀ _ hC]
  rw [accrued, accrued, StakeLedger.settled_slash, hstake]
  simp only [slash, increase, if_neg hC', Rounding.exact_round]
  field_simp
  ring

omit [DecidableEq ι] in
private theorem accrued_slash_of_perToken_eq_zero (hzero : R.perToken = 0) (x : ℚ) (j : ι) :
    accrued (L.slash .exact x) (R.slash .exact (L.current - x) x) j = accrued L R j := by
  have hslash : R.slash .exact (L.current - x) x = R := by
    obtain ⟨unclaimed, perToken, tally⟩ := R
    subst hzero
    simp [slash, increase]
  rw [hslash, accrued, accrued, hzero, mul_zero, mul_zero]

namespace FairSlash

omit [DecidableEq ι] in
/-- A fair slash changes no reward. -/
theorem accrued_eq [Fintype ι] (h : FairSlash L R L' R') (hL : L.Balanced) (j : ι) :
    accrued L' R' j = accrued L R j := by
  cases h with
  | stay => rfl
  | proportional x hx hlt hfair =>
    exact accrued_slash hx hlt hfair ((hx.trans_lt hlt).trans_le hL.current_le_total).ne' j
  | unrewarded x hzero => exact accrued_slash_of_perToken_eq_zero hzero x j

omit [DecidableEq ι] in
theorem perToken_nonneg (h : FairSlash L R L' R') (hR : 0 ≤ R.perToken) : 0 ≤ R'.perToken := by
  cases h with
  | stay => exact hR
  | proportional x hx hlt hfair =>
    simp only [RewardLedger.slash, increase, Rounding.exact_round]
    split
    · exact hR
    · exact add_nonneg hR (div_nonneg (mul_nonneg hR hx) (sub_pos.mpr hlt).le)
  | unrewarded x hzero =>
    simp only [RewardLedger.slash, increase, Rounding.exact_round, hzero]
    split
    · exact hR
    · simp

end FairSlash

/-- After a claim its holder has accrued what the settled stake exceeds the claimed one by. -/
theorem accrued_claim (stake reward : ℚ) (j : ι) :
    accrued L (R.claim .exact i stake reward) j =
      if j = i then (L.settled .exact i - stake) * R.perToken else accrued L R j := by
  rcases eq_or_ne j i with rfl | hj
  · simp only [accrued, claim, Function.update_self, if_true, Rounding.exact_round]
    ring
  · simp [accrued, claim, hj]

namespace Step

variable [Fintype ι] {spread paid : ℚ}

/-- The reward per token does not become negative. -/
theorem perToken_nonneg (h : Step L R L' R' spread paid) (hL : L.Balanced)
    (hR : 0 ≤ R.perToken) : 0 ≤ R'.perToken := by
  have hcur := hL.current_nonneg
  cases h with
  | stay | apply | deposit | withdraw | withdrawStale | claim | claimStale => exact hR
  | slash h => exact h.perToken_nonneg hR
  | distribute x hx =>
    simp only [RewardLedger.distribute, increase, Rounding.exact_round]
    split
    · exact hR
    · exact add_nonneg hR (div_nonneg hx hcur)

private theorem outstanding_claim {stake : ℚ} (reward : ℚ) (hstake : L.settled .exact i ≤ stake)
    (hR : 0 ≤ R.perToken) (hle : reward ≤ max 0 (accrued L R i)) :
    outstanding L (R.claim .exact i stake reward) + reward ≤ outstanding L R := by
  have hoff : ∀ j, j ≠ i → max 0 (accrued L (R.claim .exact i stake reward) j) =
      max 0 (accrued L R j) := by
    intro j hj
    rw [accrued_claim, if_neg hj]
  have hself : max 0 (accrued L (R.claim .exact i stake reward) i) = 0 := by
    rw [accrued_claim, if_pos rfl]
    exact max_eq_left (mul_nonpos_of_nonpos_of_nonneg (sub_nonpos.mpr hstake) hR)
  rw [outstanding, outstanding, sum_of_eq_off i hoff, hself]
  linarith

omit [DecidableEq ι] in
private theorem outstanding_congr (h : ∀ j, accrued L' R' j = accrued L R j) :
    outstanding L' R' = outstanding L R := by
  simp only [outstanding, h]

/-- What the accounts could claim grows by at most what is spread, and shrinks by at least what
is paid. -/
theorem outstanding_le (h : Step L R L' R' spread paid) (hL : L.Balanced)
    (hR : 0 ≤ R.perToken) : outstanding L' R' + paid ≤ outstanding L R + spread := by
  cases h with
  | stay => exact le_rfl
  | apply i => rw [outstanding_congr fun j => accrued_apply j]
  | deposit i a =>
    rw [outstanding_congr fun j => (accrued_deposit a j).trans (accrued_apply j)]
  | withdraw i a =>
    rw [outstanding_congr fun j => (accrued_withdraw a j).trans (accrued_apply j)]
  | withdrawStale i a => rw [outstanding_congr fun j => accrued_withdraw a j]
  | slash h => rw [outstanding_congr fun j => h.accrued_eq hL j]
  | distribute x hx =>
    by_cases hcur : L.current = 0
    · simp [RewardLedger.distribute, hcur]
    · -- Everybody's accrued reward grows by the share of the settled stake.
      have hgrow : ∀ j, max 0 (accrued L (R.distribute .exact L.current x) j) ≤
          max 0 (accrued L R j) + L.settled .exact j * (x / L.current) := by
        intro j
        have hacc : accrued L (R.distribute .exact L.current x) j =
            accrued L R j + L.settled .exact j * (x / L.current) := by
          simp only [accrued, RewardLedger.distribute, increase, if_neg hcur, Rounding.exact_round]
          ring
        have hshare : 0 ≤ L.settled .exact j * (x / L.current) :=
          mul_nonneg (hL.covered.settled_nonneg j) (div_nonneg hx hL.current_nonneg)
        rw [hacc]
        refine max_le (add_nonneg (le_max_left _ _) hshare) ?_
        linarith [le_max_right 0 (accrued L R j)]
      have hsum := Finset.sum_le_sum fun j (_ : j ∈ Finset.univ) => hgrow j
      rw [Finset.sum_add_distrib, ← Finset.sum_mul, hL.sum_settled, mul_div_cancel₀ x hcur] at hsum
      rw [if_neg hcur, add_zero]
      exact hsum
  | claim i reward hle =>
    have hstake : (L.apply .exact i).settled .exact i ≤ (L.apply .exact i).stake i :=
      sub_le_self _ ((hL.step (.apply i)).pending_nonneg i)
    have h := outstanding_claim paid hstake hR (by rwa [accrued_apply])
    have hsame : outstanding (L.apply .exact i) R = outstanding L R :=
      outstanding_congr fun j => accrued_apply j
    linarith
  | claimStale i reward hle =>
    have h := outstanding_claim paid (sub_le_self _ (hL.pending_nonneg i)) hR hle
    linarith

end Step

end RewardLedger

end Core
