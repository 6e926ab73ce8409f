import Interbtc.Reward.Steps
import Mathlib.Algebra.BigOperators.Field

/-!
# Stakers do not extract more than was paid in

Truncation never favours the stakers by more than one unit of the last digit for each
operation: a reward that is spread is truncated, and so is the product a tally is charged.
-/

namespace Interbtc.Rewards

open Core FixedPointNumber LawfulFixedPoint

variable {PoolId StakeId CurrencyId F : Type} [DecidableEq PoolId] [DecidableEq StakeId]
  [DecidableEq CurrencyId] [FixedPointNumber F] [LawfulFixedPoint F] [Fintype StakeId]
  {s : Rewards PoolId StakeId CurrencyId F} {p : PoolId} {c : CurrencyId}

/-- The stakes of every pool add up, and rewards per token have only grown. -/
structure Sound (s : Rewards PoolId StakeId CurrencyId F) : Prop where
  tracked : Tracked s
  shares : ∀ c p, (s.shares c p).Sound

omit [DecidableEq PoolId] [DecidableEq StakeId] [DecidableEq CurrencyId] [Fintype StakeId] in
private theorem shares_default (c : CurrencyId) (p : PoolId) :
    (default : Rewards PoolId StakeId CurrencyId F).shares c p = .empty := by
  simp [shares, default, ShareLedger.empty]

omit [DecidableEq PoolId] [DecidableEq StakeId] [DecidableEq CurrencyId] in
/-- At first the pallet is sound. -/
theorem Sound.default : Sound (default : Rewards PoolId StakeId CurrencyId F) where
  tracked := .default
  shares c p := by
    rw [shares_default]
    exact .empty

variable [RewardConfig PoolId StakeId CurrencyId]

/-- Every call keeps the pallet sound. -/
theorem Sound.step (hs : Sound s) (op : Op PoolId StakeId CurrencyId F) : Sound (step s op) := by
  have hstep := step_stepped hs.tracked op
  refine ⟨hstep.tracked, fun c p => ?_⟩
  by_cases hp : p = op.poolId
  · rw [hp]
    exact (hstep.pool c).sound (hs.shares c op.poolId)
  · rw [hstep.others c p hp]
    exact hs.shares c p

/-- Every run keeps the pallet sound. -/
theorem Sound.run (hs : Sound s) (ops : List (Op PoolId StakeId CurrencyId F)) :
    Sound (run Rewards.step s ops) :=
  run_preserves (fun _ op h => h.step op) hs ops

omit [Fintype StakeId] in
private theorem costs_other {op : Op PoolId StakeId CurrencyId F}
    (hp : p ≠ op.poolId) : op.distributed c p s = 0 ∧ op.withdrawn c p s = 0 := by
  cases op with
  | depositStake | withdrawStake | setStake => exact ⟨rfl, rfl⟩
  | distributeReward q d reward => exact ⟨if_neg fun h => hp h.2.1.symm, rfl⟩
  | withdrawReward q i d => exact ⟨rfl, if_neg fun h => hp h.2.symm⟩

/-- One operation costs a pool at most one rounding step, and another pool nothing. -/
theorem reserve_step_le (hs : Sound s) (op : Op PoolId StakeId CurrencyId F) :
    ShareLedger.reserve (rounding F) ((step s op).shares c p) + op.withdrawn c p s ≤
      ShareLedger.reserve (rounding F) (s.shares c p) + op.distributed c p s +
        if op.poolId = p then (rounding F).ulp else 0 := by
  have hstep := step_stepped hs.tracked op
  by_cases hp : op.poolId = p
  · subst hp
    rw [if_pos rfl]
    exact (hstep.pool c).reserve_le (hs.shares c op.poolId)
  · obtain ⟨hdistributed, hwithdrawn⟩ := costs_other (s := s) (c := c) (Ne.symm hp)
    rw [if_neg hp, hstep.others c p (Ne.symm hp), hdistributed, hwithdrawn, add_zero, add_zero]

private theorem reserve_run_le (hs : Sound s) (ops : List (Op PoolId StakeId CurrencyId F)) :
    ShareLedger.reserve (rounding F) ((run step s ops).shares c p) +
        accrue step (fun s op => op.withdrawn c p s) s ops ≤
      ShareLedger.reserve (rounding F) (s.shares c p) +
        accrue step (fun s op => op.distributed c p s) s ops +
        (ops.countP fun op => op.poolId = p) * (rounding F).ulp := by
  induction ops generalizing s with
  | nil => simp [accrue]
  | cons op ops ih =>
    have hrest := ih (hs.step op)
    have hone := reserve_step_le (c := c) (p := p) hs op
    rw [run_cons, accrue, accrue, List.countP_cons]
    by_cases hp : op.poolId = p
    · simp only [hp, decide_true, if_true] at hone ⊢
      push_cast
      linarith
    · simp only [hp, decide_false, if_false, Bool.false_eq_true, add_zero] at hone ⊢
      linarith

/-- In 128-bit fixed-point arithmetic, after any run: the total of a pool is the sum of its
stakes, and what has been withdrawn of a currency and what is still pending exceed what has
been distributed by at most one unit of the last digit for each operation on the pool. -/
theorem rewards_solvent (ops : List (Op PoolId StakeId CurrencyId FixedI128)) (p : PoolId)
    (c : CurrencyId) :
    let s := run step default ops
    (s.totalStake p).inner = ∑ i, (s.stake p i).inner ∧
      accrue step (fun s op => op.withdrawn c p s) default ops +
          ∑ i, (toRat (s.stake p i) * toRat (s.rewardPerToken c p) -
            toRat (s.rewardTally c p i)) ≤
        accrue step (fun s op => op.distributed c p s) default ops +
          (ops.countP fun op => op.poolId = p) * (1 / FixedI128.DIV) := by
  intro s
  have hs := Sound.default.run ops
  constructor
  · have htotal := (hs.shares c p).total_eq
    have hD : (FixedI128.DIV : ℚ) ≠ 0 := by exact_mod_cast FixedI128.DIV_pos.ne'
    change ((s.totalStake p).inner : ℚ) / FixedI128.DIV =
      ∑ i, ((s.stake p i).inner : ℚ) / FixedI128.DIV at htotal
    rw [← Finset.sum_div, div_left_inj' hD] at htotal
    exact_mod_cast htotal
  · have hrun := reserve_run_le (c := c) (p := p) (Sound.default (F := FixedI128)) ops
    have hsum : ∑ i, (toRat (s.stake p i) * toRat (s.rewardPerToken c p) -
        toRat (s.rewardTally c p i)) ≤ ShareLedger.reserve (rounding FixedI128) (s.shares c p) :=
      ShareLedger.sum_pending_le
    have hulp : (rounding FixedI128).ulp = 1 / FixedI128.DIV := rfl
    rw [shares_default, ShareLedger.reserve_empty, zero_add, hulp] at hrun
    linarith

end Interbtc.Rewards
