import Interbtc.Staking.Soundness

/-!
# The slash-adjusted stakes add up

`TotalCurrentStake` is the sum of the slash-adjusted stakes of a pool, up to a
rounding budget, while every slash can be borne. Without that the clamp at zero
hides what a nominator owes beyond the stored stake.
-/

namespace Interbtc.Staking

open Core FixedPointNumber LawfulFixedPoint
open Core.FixedI128 (whole)

variable {AccountId CurrencyId F : Type} [DecidableEq AccountId] [DecidableEq CurrencyId]
  [FixedPointNumber F] [LawfulFixedPoint F] [Fintype AccountId] {native : CurrencyId}
  {v : VaultId AccountId CurrencyId} {s : Staking AccountId CurrencyId F} {i : ℕ}

/-- A step whose withdrawals stay within the pool they name and whose slash can be borne. -/
def Op.Sound (s : Staking AccountId CurrencyId F) (op : Op AccountId CurrencyId F) : Prop :=
  op.WithinPool s ∧ op.Bearable s

instance (s : Staking AccountId CurrencyId F) : DecidablePred (Op.WithinPool s)
  | .withdrawStake v n amount index =>
    inferInstanceAs (Decidable (amount.1 = 0 ∨ index.getD (s.nonce v) = s.nonce v ∨
      (toRat amount.1 ≤ (s.pool v (index.getD (s.nonce v))).ledger.stake n ∧
        toRat amount.1 ≤ (s.pool v (index.getD (s.nonce v))).ledger.settled (rounding F) n)))
  | .depositStake .. | .slashStake .. | .distributeReward .. | .withdrawReward ..
  | .forceRefund .. => inferInstanceAs (Decidable True)

instance (s : Staking AccountId CurrencyId F) : DecidablePred (Op.Sound s) :=
  fun op => inferInstanceAs (Decidable (op.WithinPool s ∧ op.Bearable s))

/-- The rounding steps a run may add to the drift of one pool. A deposit or a withdrawal costs
one, a slash one for each token and each nominator of the pool, and a withdrawal that empties
the pool leaves one for each nominator and each earlier step. -/
def roundingBudget (native : CurrencyId) (v : VaultId AccountId CurrencyId) (i : ℕ)
    (s : Staking AccountId CurrencyId F) (ops : List (Op AccountId CurrencyId F)) : ℚ :=
  accrue (step native) (fun s op => StakeLedger.Step.cost ops.length (s.pool v i).ledger
    ((step native s op).pool v i).ledger) s ops

/-- Sound runs keep the stakes covered. -/
theorem covered_run {ops : List (Op AccountId CurrencyId F)}
    (h : Meets (step native) Op.Sound s ops) (hs : Covered s) : Covered (run (step native) s ops) :=
  run_invariant (fun _ _ hs hop => hs.step hop.1 hop.2) hs h

omit [LawfulFixedPoint F] [Fintype AccountId] [DecidableEq AccountId] [DecidableEq CurrencyId] in
private theorem default_ledger [LawfulFixedPoint F] :
    ((default : Staking AccountId CurrencyId F).pool v i).ledger = .empty := by
  simp [Staking.default, Pool.default, Pool.ledger, StakeLedger.empty]

/-- The drift of a pool stays within the rounding budget of the run. -/
theorem abs_drift_le {ops : List (Op AccountId CurrencyId F)}
    (h : Meets (step native) Op.Sound default ops) :
    |((run (step native) default ops).pool v i).ledger.drift (rounding F)| ≤
      (rounding F).ulp * roundingBudget native v i default ops := by
  rw [roundingBudget, ← accrue_mul_left]
  have hstart : |((default : Staking AccountId CurrencyId F).pool v i).ledger.drift
      (rounding F)| = 0 := by
    rw [default_ledger]
    simp [StakeLedger.empty, StakeLedger.drift, StakeLedger.settled, StakeLedger.pending]
  have hlag : StakeLedger.Lagging (rounding F) 0
      ((default : Staking AccountId CurrencyId F).pool v i).ledger := by
    rw [default_ledger]
    exact .empty
  have hrun := run_bounded
    (fun n s => Covered s ∧ StakeLedger.Lagging (rounding F) n (s.pool v i).ledger)
    (fun s => |(s.pool v i).ledger.drift (rounding F)|)
    (fun s op => (rounding F).ulp * StakeLedger.Step.cost ops.length
      (s.pool v i).ledger ((step native s op).pool v i).ledger)
    ?_ ?_ 0 (Nat.zero_add _).le ⟨Covered.default, hlag⟩ h
  · rwa [hstart, zero_add] at hrun
  · intro n s op _ hs hop
    have hstep := ledger_step native hop.1 hop.2 v i
    exact ⟨hs.1.step hop.1 hop.2, hstep.lagging (hs.1 v i) hs.2⟩
  · intro n s op hn hs hop
    have hstep := ledger_step native hop.1 hop.2 v i
    refine (hstep.drift (hs.1 v i) (hstep.lagging (hs.1 v i) hs.2)).trans ?_
    gcongr
    · exact (rounding F).ulp_nonneg
    · exact StakeLedger.Step.cost_mono hn

/-- In a run whose slashes can be borne and whose withdrawals stay within the pool they name,
the slash-adjusted stakes of a pool add up to its total current stake, up to rounding and
exactly where nothing is rounded. -/
theorem precise_stakes_add_up {ops : List (Op AccountId CurrencyId F)}
    (h : Meets (step native) Op.Sound default ops) (v : VaultId AccountId CurrencyId) (i : ℕ)
    (precise : AccountId → F)
    (hp : ∀ n, (run (step native) default ops).computePreciseStakeAtIndex i v n =
      .ok (precise n)) :
    |∑ n, toRat (precise n) -
        toRat ((run (step native) default ops).pool v i).totalCurrentStake| ≤
      (rounding F).ulp * roundingBudget native v i default ops ∧
    ((rounding F).ulp = 0 → ∑ n, toRat (precise n) =
      toRat ((run (step native) default ops).pool v i).totalCurrentStake) := by
  have hcov := covered_run h .default v i
  have hsum : ∑ n, toRat (precise n) =
      ∑ n, ((run (step native) default ops).pool v i).ledger.settled (rounding F) n := by
    refine Finset.sum_congr rfl fun n _ => ?_
    rw [Pool.toRat_computePreciseStake (hp n), max_eq_right (hcov.settled_nonneg n)]
  have hdrift := abs_drift_le (v := v) (i := i) h
  rw [hsum]
  refine ⟨hdrift, fun hulp => ?_⟩
  rw [hulp, zero_mul] at hdrift
  exact sub_eq_zero.mp (abs_nonpos_iff.mp hdrift)

/-! ## Runs of one vault -/

/-- Two nominators of a vault that is slashed. -/
theorem precise_stakes_add_up_slashed :
    |∑ _n : Fin 2, toRat (whole 75).1 -
        toRat ((run (step 2) default slashedOps).pool soleVault 0).totalCurrentStake| ≤
      (rounding FixedI128).ulp * roundingBudget 2 soleVault 0 default slashedOps ∧
    ((rounding FixedI128).ulp = 0 → ∑ _n : Fin 2, toRat (whole 75).1 =
      toRat ((run (step 2) default slashedOps).pool soleVault 0).totalCurrentStake) :=
  precise_stakes_add_up (by decide +kernel) soleVault 0 (fun _ => (whole 75).1) (by decide +kernel)

/-- Both nominators are slashed, one is brought up to date, and both are slashed again. -/
def partlyAppliedOps : List (Op (Fin 2) (Fin 3) FixedI128) :=
  [.depositStake soleVault 0 (whole 100), .depositStake soleVault 1 (whole 100),
    .slashStake soleVault (whole 100), .depositStake soleVault 0 (whole 0),
    .slashStake soleVault (whole 90)]

/-- The nominator that was brought up to date keeps `20`, more than the `10` that are left. -/
theorem partly_applied_slash_overcounts :
    (run (step 2) default partlyAppliedOps).computePreciseStakeAtIndex 0 soleVault 0 =
        .ok (whole 20).1 ∧
      (run (step 2) default partlyAppliedOps).computePreciseStakeAtIndex 0 soleVault 1 =
        .ok (whole 0).1 ∧
      ((run (step 2) default partlyAppliedOps).pool soleVault 0).totalCurrentStake =
        (whole 10).1 := by
  refine ⟨?_, ?_, ?_⟩
  · decide +kernel
  · decide +kernel
  · decide +kernel

end Interbtc.Staking
