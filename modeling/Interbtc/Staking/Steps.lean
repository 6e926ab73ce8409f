import Interbtc.Staking.Refinement

/-!
# What one staking operation does

A successful operation replaces the pool of the current nonce, and a withdrawal
that names another nonce also replaces that pool. Every other pool stays.
-/

namespace Interbtc.Staking

open Core FixedPointNumber LawfulFixedPoint

variable {AccountId CurrencyId F : Type} [DecidableEq AccountId] [DecidableEq CurrencyId]
  {native : CurrencyId} {v w : VaultId AccountId CurrencyId} {n : AccountId} {c : CurrencyId}
  {s s' : Staking AccountId CurrencyId F} {q r : Pool AccountId CurrencyId F} {i j : ℕ}

/-! ## Replacing a pool -/

/-- Replace one pool. -/
def setPool (s : Staking AccountId CurrencyId F) (v : VaultId AccountId CurrencyId) (i : ℕ)
    (q : Pool AccountId CurrencyId F) : Staking AccountId CurrencyId F :=
  (poolAt v i).set q s

/-- Storing a pool keeps the nonces. -/
@[simp] theorem setPool_nonce : (s.setPool v i q).nonce = s.nonce := rfl

/-- A pool that is stored is found. -/
@[simp] theorem setPool_pool_self : (s.setPool v i q).pool v i = q := by
  simp [setPool, poolAt]

/-- A pool that is stored replaces one pool. -/
theorem setPool_pool : (s.setPool v i q).pool w j = if w = v ∧ j = i then q else s.pool w j := by
  by_cases hw : w = v
  · subst hw
    by_cases hj : j = i
    · simp [setPool, poolAt, hj]
    · simp [setPool, poolAt, hj]
  · simp [setPool, poolAt, hw]

/-- The pool stored last counts. -/
@[simp] theorem setPool_setPool : (s.setPool v i q).setPool v i r = s.setPool v i r := by
  simp [setPool, poolAt]

variable [FixedPointNumber F] [LawfulFixedPoint F] {a x : F}

omit [FixedPointNumber F] [LawfulFixedPoint F] in
private theorem run_zoom_poolAt {ε α : Type} {y : Call ε (Pool AccountId CurrencyId F) α} {b : α} :
    ((poolAt v i).zoom y).run s = .ok b s' ↔
      ∃ q, y.run (s.pool v i) = .ok b q ∧ s' = s.setPool v i q := by
  rw [Lens.run_zoom_eq_ok]
  constructor
  · rintro ⟨q, h, rfl⟩
    exact ⟨q, h, rfl⟩
  · rintro ⟨q, h, rfl⟩
    exact ⟨q, h, rfl⟩

/-! ## Each call -/

/-- The current pool with the slash of `n` applied. -/
def Applied (s : Staking AccountId CurrencyId F) (v : VaultId AccountId CurrencyId)
    (n : AccountId) (q : Pool AccountId CurrencyId F) : Prop :=
  q.ledger = (s.pool v (s.nonce v)).ledger.apply (rounding F) n ∧
    ∀ c, q.rewards c = (s.pool v (s.nonce v)).rewards c

/-- Applying slashes settles a stake in the current pool. -/
theorem run_applySlash (h : (applySlash v n).run s = .ok x s') :
    ∃ q, s' = s.setPool v (s.nonce v) q ∧ s.Applied v n q ∧
      toRat x = (s.pool v (s.nonce v)).ledger.settled (rounding F) n := by
  simp only [applySlash, Call.run_bind_eq_ok, Call.run_get_eq_ok, run_zoom_poolAt] at h
  obtain ⟨_, _, ⟨rfl, rfl⟩, q, h, rfl⟩ := h
  obtain ⟨hl, hr, hx⟩ := Pool.run_applySlash h
  exact ⟨q, rfl, ⟨hl, hr⟩, hx⟩

/-- A deposit settles and adds. -/
theorem run_depositStake {u : Unit} (h : (depositStake native v n a).run s = .ok u s') :
    ∃ q, s' = s.setPool v (s.nonce v) q ∧
      q.ledger = ((s.pool v (s.nonce v)).ledger.apply (rounding F) n).deposit (rounding F) n
        (toRat a) ∧
      Pool.RewardsFollow (rewardCurrencies native v) (·.deposit (rounding F) n (toRat a))
        (s.pool v (s.nonce v)) q := by
  simp only [depositStake, Call.run_bind_eq_ok, Call.run_get_eq_ok, run_zoom_poolAt] at h
  obtain ⟨_, _, ⟨rfl, rfl⟩, x, s₁, happly, r, hadd, rfl⟩ := h
  obtain ⟨q, rfl, ⟨hl, hr⟩, -⟩ := run_applySlash happly
  rw [setPool_pool_self] at hadd
  obtain ⟨hl', hr'⟩ := Pool.run_addStake hadd
  refine ⟨r, setPool_setPool, ?_, fun hnodup c => ?_⟩
  · rw [hl', hl]
  · rw [hr' hnodup c, hr c]

/-- A successful withdrawal takes nothing, or takes the amount from the pool of the named
nonce after comparing it with the stake in the current pool. -/
theorem run_withdrawStake {index : Option ℕ} {u : Unit}
    (h : (withdrawStake native v n a index).run s = .ok u s') :
    ∃ q, s.Applied v n q ∧
      ((a = 0 ∧ s' = s.setPool v (s.nonce v) q) ∨
        (a ≠ 0 ∧ toRat a ≤ (s.pool v (s.nonce v)).ledger.settled (rounding F) n ∧
          ∃ p r, p = (s.setPool v (s.nonce v) q).pool v (index.getD (s.nonce v)) ∧
            s' = (s.setPool v (s.nonce v) q).setPool v (index.getD (s.nonce v)) r ∧
            r.ledger = p.ledger.withdraw (rounding F) n (toRat a) ∧
            Pool.RewardsFollow (rewardCurrencies native v)
              (·.withdraw (rounding F) n (toRat a)) p r)) := by
  simp only [withdrawStake, Call.run_bind_eq_ok, Call.run_get_eq_ok, Call.run_ite_eq_ok,
    Call.run_pure_eq_ok, Call.run_throw_eq_ok, and_false, false_or, run_zoom_poolAt] at h
  obtain ⟨_, _, ⟨rfl, rfl⟩, x, s₁, happly, h⟩ := h
  obtain ⟨q, rfl, hq, hx⟩ := run_applySlash happly
  refine ⟨q, hq, ?_⟩
  rcases h with ⟨hzero, _, rfl⟩ | ⟨hzero, hle, r, hrem, rfl⟩
  · exact .inl ⟨hzero, rfl⟩
  · refine .inr ⟨hzero, ?_, _, r, rfl, rfl, Pool.run_removeStake hrem⟩
    rw [← hx, toRat_le_iff]
    exact not_lt.mp hle

/-- A slash is spread over the current pool. -/
theorem run_slashStake {u : Unit} (h : (slashStake native v a).run s = .ok u s') :
    (a = 0 ∧ s' = s) ∨
      (a ≠ 0 ∧ (s.pool v (s.nonce v)).ledger.total ≠ 0 ∧
        ∃ q, s' = s.setPool v (s.nonce v) q ∧
          q.ledger = (s.pool v (s.nonce v)).ledger.slash (rounding F) (toRat a) ∧
          Pool.RewardsFollow (rewardCurrencies native v)
            (·.slash (rounding F) q.ledger.current (toRat a)) (s.pool v (s.nonce v)) q) := by
  simp only [slashStake, Call.run_bind_eq_ok, Call.run_get_eq_ok, run_zoom_poolAt] at h
  obtain ⟨_, _, ⟨rfl, rfl⟩, q, h, rfl⟩ := h
  rcases Pool.run_slashStake h with ⟨hzero, rfl⟩ | ⟨hzero, htotal, hl, hr⟩
  · refine .inl ⟨hzero, ?_⟩
    simp [setPool, poolAt]
  · exact .inr ⟨hzero, htotal, q, rfl, hl, hr⟩

/-- A reward is spread over the current pool. -/
theorem run_distributeReward (h : (distributeReward c v a).run s = .ok x s') :
    ∃ q, s' = s.setPool v (s.nonce v) q ∧ q.ledger = (s.pool v (s.nonce v)).ledger ∧
      q.rewards c = ((s.pool v (s.nonce v)).rewards c).distribute (rounding F)
        (s.pool v (s.nonce v)).ledger.current (toRat a) ∧
      (∀ c', c' ≠ c → q.rewards c' = (s.pool v (s.nonce v)).rewards c') ∧
      x = if (s.pool v (s.nonce v)).totalCurrentStake = 0 then 0 else a := by
  simp only [distributeReward, Call.run_bind_eq_ok, Call.run_get_eq_ok, run_zoom_poolAt] at h
  obtain ⟨_, _, ⟨rfl, rfl⟩, q, h, rfl⟩ := h
  exact ⟨q, rfl, Pool.run_distributeReward h⟩

/-- A claim settles the current pool and pays from the named one. -/
theorem run_withdrawReward {index : Option ℕ} {reward : ℤ}
    (h : (withdrawReward index c v n).run s = .ok reward s') :
    ∃ q, s.Applied v n q ∧ ∃ p r, p = (s.setPool v (s.nonce v) q).pool v (index.getD (s.nonce v)) ∧
      s' = (s.setPool v (s.nonce v) q).setPool v (index.getD (s.nonce v)) r ∧
      p.computeReward c n = .ok reward ∧ r.ledger = p.ledger ∧
      r.rewards c = (p.rewards c).claim (rounding F) n (p.ledger.stake n) reward ∧
      ∀ c', c' ≠ c → r.rewards c' = p.rewards c' := by
  simp only [withdrawReward, withdrawRewardAtIndex, Call.run_bind_eq_ok, Call.run_get_eq_ok,
    run_zoom_poolAt] at h
  obtain ⟨_, _, ⟨rfl, rfl⟩, x, s₁, happly, r, h, rfl⟩ := h
  obtain ⟨q, rfl, ha, -⟩ := run_applySlash happly
  exact ⟨q, ha, _, r, rfl, rfl, Pool.run_claimReward h⟩

omit [FixedPointNumber F] [LawfulFixedPoint F] in
private theorem run_incrementNonce {u : Unit} (h : (incrementNonce v).run s = .ok u s') :
    s' = { s with nonce := Function.update s.nonce v (s.nonce v + 1) } := by
  simp only [incrementNonce, Call.run_bind_eq_ok, Call.run_get_eq_ok, Call.run_ensure_eq_ok,
    Call.run_set_eq_ok] at h
  obtain ⟨_, _, ⟨rfl, rfl⟩, _, _, ⟨_, rfl⟩, rfl⟩ := h
  rfl

/-- A forced refund withdraws the vault's own stake from the current pool and deposits it in
the pool of the next nonce. -/
theorem run_forceRefund {refunded : ℤ} (h : (forceRefund native v).run s = .ok refunded s') :
    ∃ stake : F, ∃ s₁ s₂,
      0 ≤ toRat stake ∧
      (withdrawStake native v v.accountId stake (some (s.nonce v))).run s = .ok () s₁ ∧
      s₂ = { s₁ with nonce := Function.update s₁.nonce v (s₁.nonce v + 1) } ∧
      (depositStake native v v.accountId stake).run s₂ = .ok () s' := by
  simp only [forceRefund, Call.run_bind_eq_ok, Call.run_get_eq_ok, Call.run_ofExcept_eq_ok,
    Call.run_ofOption_eq_ok] at h
  obtain ⟨_, _, ⟨rfl, rfl⟩, k, _, ⟨hk, rfl⟩, stake, _, ⟨hstake, rfl⟩, _, s₁, hw, _, s₂, hi, _, s₃,
    hd, _, _, ⟨_, rfl⟩, _, rfl⟩ := h
  refine ⟨stake, s₁, s₂, ?_, hw, run_incrementNonce hi, hd⟩
  rw [toRat_fromInteger hstake, Pool.computeStake_eq_ok hk]
  exact_mod_cast truncate_nonneg (le_max_left _ _)

end Interbtc.Staking
