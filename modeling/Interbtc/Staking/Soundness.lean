import Interbtc.Staking.Steps

/-!
# Withdrawals stay within the stake

While slashes can be borne and withdrawals name the current nonce, no stored
stake becomes negative and nobody takes more than their slash-adjusted stake. A
withdrawal that names an older nonce is checked against the wrong pool.
-/

namespace Interbtc.Staking

open Core FixedPointNumber LawfulFixedPoint
open Core.FixedI128 (whole)

variable {AccountId CurrencyId F : Type} [DecidableEq AccountId] [DecidableEq CurrencyId]
  [FixedPointNumber F] [LawfulFixedPoint F] {native : CurrencyId}
  {v w : VaultId AccountId CurrencyId} {n : AccountId}
  {s s' : Staking AccountId CurrencyId F} {q r : Pool AccountId CurrencyId F} {i j : ℕ}

/-! ## Conditions on a step -/

/-- A withdrawal takes nothing or names the current nonce. -/
def Op.NamesCurrent (s : Staking AccountId CurrencyId F) : Op AccountId CurrencyId F → Prop
  | .withdrawStake v _ amount index => amount.1 = 0 ∨ index.getD (s.nonce v) = s.nonce v
  | _ => True

/-- A withdrawal that names an older nonce takes no more than what the pool of that nonce
stores for the nominator, less the pending slash. -/
def Op.WithinPool (s : Staking AccountId CurrencyId F) : Op AccountId CurrencyId F → Prop
  | .withdrawStake v n amount index =>
    let pool := (s.pool v (index.getD (s.nonce v))).ledger
    amount.1 = 0 ∨ index.getD (s.nonce v) = s.nonce v ∨
      (toRat amount.1 ≤ pool.stake n ∧ toRat amount.1 ≤ pool.settled (rounding F) n)
  | _ => True

/-- A slash leaves no nominator owing more than the stored stake. -/
def Op.Bearable (s : Staking AccountId CurrencyId F) : Op AccountId CurrencyId F → Prop
  | .slashStake v amount =>
    let pool := (s.pool v (s.nonce v)).ledger
    ∀ n, (pool.slash (rounding F) (toRat amount.1)).pending (rounding F) n ≤ pool.stake n
  | _ => True

omit [LawfulFixedPoint F] in
instance (s : Staking AccountId CurrencyId F) : DecidablePred (Op.NamesCurrent s)
  | .withdrawStake v _ amount index =>
    inferInstanceAs (Decidable (amount.1 = 0 ∨ index.getD (s.nonce v) = s.nonce v))
  | .depositStake .. | .slashStake .. | .distributeReward .. | .withdrawReward ..
  | .forceRefund .. => inferInstanceAs (Decidable True)

instance [Fintype AccountId] (s : Staking AccountId CurrencyId F) : DecidablePred (Op.Bearable s)
  | .slashStake v amount =>
    inferInstanceAs (Decidable (∀ n, (((s.pool v (s.nonce v)).ledger).slash (rounding F)
      (toRat amount.1)).pending (rounding F) n ≤ (s.pool v (s.nonce v)).ledger.stake n))
  | .depositStake .. | .withdrawStake .. | .distributeReward .. | .withdrawReward ..
  | .forceRefund .. => inferInstanceAs (Decidable True)

omit [DecidableEq AccountId] [DecidableEq CurrencyId] in
private theorem Op.NamesCurrent.withinPool {op : Op AccountId CurrencyId F}
    (h : op.NamesCurrent s) :
    op.WithinPool s := by
  cases op with
  | withdrawStake v n amount index => exact h.imp id .inl
  | _ => trivial

/-! ## What a step does to the ledger of a pool -/

variable [Fintype AccountId]

/-- Every pool's stakes are covered. -/
def Covered (s : Staking AccountId CurrencyId F) : Prop :=
  ∀ v i, StakeLedger.Covered (rounding F) (s.pool v i).ledger

omit [DecidableEq AccountId] [DecidableEq CurrencyId] in
/-- At first the stakes are covered. -/
theorem Covered.default : Covered (.default : Staking AccountId CurrencyId F) := by
  intro v i
  have h : ((Staking.default : Staking AccountId CurrencyId F).pool v i).ledger = .empty := by
    simp [Staking.default, Pool.default, Pool.ledger, StakeLedger.empty]
  rw [h]
  exact .empty

private theorem ulp_of_nonneg {a : F} (ha : 0 ≤ a) : toRat a = 0 ∨ (rounding F).ulp ≤ toRat a := by
  rcases eq_or_lt_of_le (toRat_nonneg.mpr ha) with h | h
  · exact .inl h.symm
  · exact .inr (ulp_le h)

omit [Fintype AccountId] in
private theorem step_setPool (h : StakeLedger.Step (rounding F) (s.pool v i).ledger q.ledger) :
    StakeLedger.Step (rounding F) (s.pool w j).ledger ((s.setPool v i q).pool w j).ledger := by
  rw [setPool_pool]
  split
  · rename_i hwj
    rw [hwj.1, hwj.2]
    exact h
  · exact .stay

omit [Fintype AccountId] in
private theorem step_deposit {a : F} (ha : 0 ≤ a) {u : Unit}
    (h : (depositStake native v n a).run s = .ok u s') :
    StakeLedger.Step (rounding F) (s.pool w j).ledger (s'.pool w j).ledger := by
  obtain ⟨q, rfl, hl, -⟩ := run_depositStake h
  refine step_setPool ?_
  rw [hl]
  exact .deposit n _ (toRat_nonneg.mpr ha) (ulp_of_nonneg ha)

omit [Fintype AccountId] in
private theorem step_withdraw {a : {a : F // 0 ≤ a}} {index : Option ℕ} {u : Unit}
    (hin : Op.WithinPool s (.withdrawStake v n a index))
    (h : (withdrawStake native v n a.1 index).run s = .ok u s') :
    StakeLedger.Step (rounding F) (s.pool w j).ledger (s'.pool w j).ledger := by
  obtain ⟨q, hq, ⟨_, rfl⟩ | ⟨hne, hle, p, r, hp, rfl, hl, -⟩⟩ := run_withdrawStake h
  · refine step_setPool ?_
    rw [hq.1]
    exact .apply n
  · rcases eq_or_ne (index.getD (s.nonce v)) (s.nonce v) with hi | hi
    · -- The pool that is checked is the pool that is withdrawn from.
      rw [hi, setPool_setPool]
      rw [hi, setPool_pool_self] at hp
      subst hp
      refine step_setPool ?_
      rw [hl, hq.1]
      exact .withdraw n _ (toRat_nonneg.mpr a.2) hle
    · rw [setPool_pool, if_neg fun h => hi h.2] at hp
      subst hp
      obtain ⟨hs, hset⟩ := (hin.resolve_left hne).resolve_left hi
      rw [setPool_pool]
      split
      · rename_i hwj
        rw [hl, hwj.1, hwj.2]
        exact .withdrawStale n _ (toRat_nonneg.mpr a.2) hs hset
      · refine step_setPool ?_
        rw [hq.1]
        exact .apply n

omit [Fintype AccountId] in
private theorem step_forceRefund {refunded : ℤ}
    (h : (forceRefund native v).run s = .ok refunded s') :
    StakeLedger.Step (rounding F) (s.pool w j).ledger (s'.pool w j).ledger := by
  obtain ⟨stake, s₁, s₂, hstake, hw, rfl, hd⟩ := run_forceRefund h
  have hstake' : 0 ≤ stake := toRat_nonneg.mp hstake
  have h₁ := step_withdraw (w := w) (j := j) (a := ⟨stake, hstake'⟩) (.inr (.inl rfl)) hw
  have hnonce : s₁.nonce = s.nonce := by
    obtain ⟨q, -, ⟨_, rfl⟩ | ⟨_, _, _, r, -, rfl, -⟩⟩ := run_withdrawStake hw <;> rfl
  -- The deposit touches the pool of the next nonce only, the withdrawal the current one.
  obtain ⟨q, rfl, hl, -⟩ := run_depositStake hd
  simp only [Function.update_self, hnonce] at hl ⊢
  rw [setPool_pool]
  split
  · rename_i hwj
    have hsame : s₁.pool v (s.nonce v + 1) = s.pool v (s.nonce v + 1) := by
      obtain ⟨q, -, ⟨_, rfl⟩ | ⟨_, _, _, r, -, rfl, -⟩⟩ := run_withdrawStake hw <;>
        simp [setPool_pool]
    rw [hl, hwj.1, hwj.2, hsame]
    exact .deposit _ _ hstake (ulp_of_nonneg hstake')
  · exact h₁

omit [Fintype AccountId] in
/-- One operation takes at most one step in the ledger of each pool. -/
theorem ledger_step (native : CurrencyId) {op : Op AccountId CurrencyId F} (hin : op.WithinPool s)
    (hbear : op.Bearable s) (v : VaultId AccountId CurrencyId) (i : ℕ) :
    StakeLedger.Step (rounding F) (s.pool v i).ledger ((step native s op).pool v i).ledger := by
  unfold step
  rcases (op.call native).commit_cases s with ⟨_, h⟩ | ⟨_, h⟩
  · generalize (op.call native).commit s = s' at h ⊢
    cases op with
    | depositStake w n amount => exact step_deposit amount.2 h
    | withdrawStake w n amount index => exact step_withdraw hin h
    | slashStake w amount =>
      rcases run_slashStake h with ⟨_, rfl⟩ | ⟨hne, htotal, q, rfl, hl, -⟩
      · exact .stay
      · refine step_setPool ?_
        rw [hl]
        exact .slash _ (toRat_nonneg.mpr amount.2) htotal hbear
    | distributeReward c w reward =>
      obtain ⟨_, _, hcall, hret⟩ := Call.run_bind_eq_ok.mp h
      obtain ⟨-, rfl⟩ := Call.run_pure_eq_ok.mp hret
      obtain ⟨q, rfl, hl, -⟩ := run_distributeReward hcall
      refine step_setPool ?_
      rw [hl]
      exact .stay
    | withdrawReward index c w n =>
      obtain ⟨_, _, hcall, hret⟩ := Call.run_bind_eq_ok.mp h
      obtain ⟨-, rfl⟩ := Call.run_pure_eq_ok.mp hret
      obtain ⟨q, hq, p, r, rfl, rfl, -, hl, -⟩ := run_withdrawReward hcall
      have hset : StakeLedger.Step (rounding F) (s.pool v i).ledger
          ((s.setPool w (s.nonce w) q).pool v i).ledger := by
        refine step_setPool ?_
        rw [hq.1]
        exact .apply n
      rw [setPool_pool]
      split
      · rename_i hwj
        obtain ⟨rfl, rfl⟩ := hwj
        rwa [hl]
      · exact hset
    | forceRefund w =>
      obtain ⟨_, _, hcall, hret⟩ := Call.run_bind_eq_ok.mp h
      obtain ⟨-, rfl⟩ := Call.run_pure_eq_ok.mp hret
      exact step_forceRefund hcall
  · rw [h]
    exact .stay

/-- A call within the pool and bearable keeps the stakes covered. -/
theorem Covered.step {op : Op AccountId CurrencyId F} (h : Covered s) (hin : op.WithinPool s)
    (hbear : op.Bearable s) : Covered (Staking.step native s op) :=
  fun v i => (ledger_step native hin hbear v i).covered (h v i)

/-! ## Withdrawals -/

omit [LawfulFixedPoint F] [Fintype AccountId] in
/-- Whichever nonce it names, a withdrawal is checked against the stake in the current pool. -/
theorem withdrawStake_le_precise {a : F} {index : Option ℕ} {u : Unit}
    (h : (withdrawStake native v n a index).run s = .ok u s') :
    a = 0 ∨ ∃ precise, s.computePreciseStakeAtIndex (s.nonce v) v n = .ok precise ∧
      a ≤ precise := by
  simp only [withdrawStake, applySlash, Call.run_bind_eq_ok, Call.run_get_eq_ok,
    Call.run_ite_eq_ok, Call.run_pure_eq_ok, Call.run_throw_eq_ok, and_false, false_or,
    Lens.run_zoom_eq_ok] at h
  obtain ⟨_, _, ⟨rfl, rfl⟩, x, s₁, ⟨_, _, ⟨rfl, rfl⟩, q, happly, rfl⟩, h⟩ := h
  rcases h with ⟨hzero, -⟩ | ⟨-, hle, -⟩
  · exact .inl hzero
  · refine .inr ⟨max 0 x, Pool.computePreciseStake_of_applySlash happly, ?_⟩
    exact (not_lt.mp hle).trans (le_max_right _ _)

/-- In a run whose slashes can be borne and whose withdrawals name the current nonce, no stored
stake is negative, and a withdrawal takes at most the slash-adjusted stake of its pool. -/
theorem withdraw_within_stake {ops : List (Op AccountId CurrencyId F)}
    (h : Meets (step native) (fun s op => op.NamesCurrent s ∧ op.Bearable s) default ops)
    (v : VaultId AccountId CurrencyId) (n : AccountId) :
    let s := run (step native) default ops
    (∀ i, 0 ≤ (s.pool v i).stake n) ∧
      ∀ (amount : {a : F // 0 ≤ a}) (index : Option ℕ) (s' : Staking AccountId CurrencyId F),
        Op.NamesCurrent s (.withdrawStake v n amount index) →
        (withdrawStake native v n amount.1 index).run s = .ok () s' →
        amount.1 = 0 ∨ ∃ precise,
          s.computePreciseStakeAtIndex (index.getD (s.nonce v)) v n = .ok precise ∧
            amount.1 ≤ precise := by
  have hcov : Covered (run (step native) (default : Staking AccountId CurrencyId F) ops) :=
    run_invariant (fun s op hs hop => hs.step hop.1.withinPool hop.2) .default h
  refine ⟨fun i => toRat_nonneg.mp ((hcov v i).stake_nonneg n), fun amount index s' hcur hw => ?_⟩
  rcases hcur with hzero | hi
  · exact .inl hzero
  · rw [hi]
    exact withdrawStake_le_precise hw

/-! ## Runs of one vault -/

/-- The vault of account `0` with collateral currency `0` and wrapped currency `1`; the native
currency of these runs is `2`. -/
def soleVault : VaultId (Fin 2) (Fin 3) := ⟨0, ⟨0, 1⟩⟩

/-- The vault and one nominator deposit, and are slashed. -/
def slashedOps : List (Op (Fin 2) (Fin 3) FixedI128) :=
  [.depositStake soleVault 0 (whole 100), .depositStake soleVault 1 (whole 100),
    .slashStake soleVault (whole 50)]

/-- A withdrawal after a slash. -/
theorem withdraw_within_stake_slashed :
    (∀ i, 0 ≤ ((run (step 2) default slashedOps).pool soleVault i).stake 1) ∧
      ((whole 30).1 = 0 ∨ ∃ precise,
        (run (step 2) default slashedOps).computePreciseStakeAtIndex 0 soleVault 1 = .ok precise ∧
          (whole 30).1 ≤ precise) := by
  have hmeets : Meets (step 2) (fun s op => op.NamesCurrent s ∧ op.Bearable s) default
      slashedOps := by decide +kernel
  have h := withdraw_within_stake hmeets soleVault 1
  refine ⟨h.1, h.2 (whole 30) (some 0) _ (.inr ?_) (Call.run_eq_ok_commit ?_)⟩
  · decide +kernel
  · decide +kernel

/-- The nominator's stake of `100` is refunded, and `300` are deposited anew. -/
def refundedOps : List (Op (Fin 2) (Fin 3) FixedI128) :=
  [.depositStake soleVault 0 (whole 100), .depositStake soleVault 1 (whole 100),
    .forceRefund soleVault, .depositStake soleVault 1 (whole 300)]

/-- A withdrawal of `300` that names the refunded pool succeeds and leaves `-200` there. -/
theorem stale_withdrawal_overdraws :
    (run (step 2) default refundedOps).computePreciseStakeAtIndex 0 soleVault 1 =
        .ok (whole 100).1 ∧
      (withdrawStake 2 soleVault 1 (whole 300).1 (some 0)).succeeds
        (run (step 2) default refundedOps) = true ∧
      ((step 2 (run (step 2) default refundedOps)
        (.withdrawStake soleVault 1 (whole 300) (some 0))).pool soleVault 0).stake 1 < 0 := by
  refine ⟨?_, ?_, ?_⟩
  · decide +kernel
  · decide +kernel
  · decide +kernel

end Interbtc.Staking
