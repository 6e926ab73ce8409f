import Interbtc.Currency.Flows
import Interbtc.Farming.Pallet

/-!
# What the calls of the farming pallet do

A call moves tokens, it is an operation on the reward pools, and it writes schedules.
-/

namespace Interbtc

open Core MultiCurrency RewardsApi

namespace Farming

variable {AccountId CurrencyId Tokens Pools : Type} [DecidableEq AccountId]
  [DecidableEq CurrencyId] [MultiCurrency Tokens AccountId CurrencyId]
  [RewardsApi Pools CurrencyId AccountId CurrencyId] [FarmingConfig AccountId CurrencyId]
  {s s' : Farming CurrencyId Tokens Pools} {origin : FarmingOrigin AccountId CurrencyId}
  {pool reward p c : CurrencyId} {α : Type} {a : α} {u : Unit}

open FarmingConfig

/-! ## Parts of the storage -/

omit [DecidableEq AccountId] [DecidableEq CurrencyId]
  [MultiCurrency Tokens AccountId CurrencyId] [RewardsApi Pools CurrencyId AccountId CurrencyId]
  [FarmingConfig AccountId CurrencyId] in
/-- A call on the balances changes nothing else. -/
theorem run_withTokens {x : Call TokensError Tokens α} :
    (withTokens x : FarmingCall CurrencyId Tokens Pools α).run s = .ok a s' ↔
      ∃ t, x.run s.tokens = .ok a t ∧ { s with tokens := t } = s' := by
  rw [withTokens, Call.run_mapError_eq_ok, Lens.run_zoom_eq_ok]
  rfl

omit [DecidableEq AccountId] [DecidableEq CurrencyId]
  [MultiCurrency Tokens AccountId CurrencyId] [RewardsApi Pools CurrencyId AccountId CurrencyId]
  [FarmingConfig AccountId CurrencyId] in
/-- A call on the pools changes nothing else. -/
theorem run_withPools {x : Call DispatchError Pools α} :
    (withPools x : FarmingCall CurrencyId Tokens Pools α).run s = .ok a s' ↔
      ∃ r, x.run s.rewardPools = .ok a r ∧ { s with rewardPools := r } = s' := by
  rw [withPools, Call.run_mapError_eq_ok, Lens.run_zoom_eq_ok]
  rfl

omit [DecidableEq AccountId] [MultiCurrency Tokens AccountId CurrencyId]
  [RewardsApi Pools CurrencyId AccountId CurrencyId] [FarmingConfig AccountId CurrencyId] in
/-- A schedule that is stored replaces the one of its pool and reward. -/
theorem rewardSchedules_setSchedule (schedule : Option RewardSchedule) :
    (s.setSchedule pool reward schedule).rewardSchedules p c =
      if p = pool ∧ c = reward then schedule else s.rewardSchedules p c := by
  rw [setSchedule]
  dsimp only
  by_cases hp : p = pool
  · subst hp
    rw [Function.update_self]
    by_cases hc : c = reward
    · subst hc
      rw [Function.update_self, if_pos ⟨rfl, rfl⟩]
    · rw [Function.update_of_ne hc, if_neg fun h => hc h.2]
  · rw [Function.update_of_ne hp, if_neg fun h => hp h.1]

omit [DecidableEq AccountId] [DecidableEq CurrencyId]
  [MultiCurrency Tokens AccountId CurrencyId] [RewardsApi Pools CurrencyId AccountId CurrencyId] in
private theorem run_ensureRoot : (ensureRoot origin : FarmingCall CurrencyId Tokens Pools Unit).run
    s =
    .ok u s' ↔ origin = .root ∧ s = s' := by
  cases origin with
  | root => simp only [ensureRoot, Call.run_pure_eq_ok, true_and]
  | signed who => simp only [ensureRoot, Call.run_throw_eq_ok, reduceCtorEq, false_and]

omit [DecidableEq AccountId] [DecidableEq CurrencyId]
  [MultiCurrency Tokens AccountId CurrencyId] [RewardsApi Pools CurrencyId AccountId CurrencyId] in
/-- Only an account passes. -/
theorem run_ensureSigned {who : {who : AccountId // ∀ p : CurrencyId, who ≠ poolAccountId p}} :
    (ensureSigned origin : FarmingCall CurrencyId Tokens Pools _).run s = .ok who s' ↔
      origin = .signed who ∧ s = s' := by
  cases origin with
  | root => simp only [ensureSigned, Call.run_throw_eq_ok, reduceCtorEq, false_and]
  | signed w => simp only [ensureSigned, Call.run_pure_eq_ok, FarmingOrigin.signed.injEq]

/-! ## Calls -/

section Calls

variable [LawfulMultiCurrency Tokens]

omit [RewardsApi Pools CurrencyId AccountId CurrencyId] in
/-- The treasury pays for a schedule that is stored. -/
theorem run_updateRewardSchedule {periodCount amount : ℕ}
    (h : (updateRewardSchedule origin pool reward periodCount amount :
      FarmingCall CurrencyId Tokens Pools Unit).run s = .ok u s') :
    ∃ t, Transfers reward (treasuryAccountId CurrencyId)
        (poolAccountId (FarmingConfig.sort AccountId pool) : AccountId) amount s.tokens t ∧
      s' = { s with tokens := t }.setSchedule (FarmingConfig.sort AccountId pool) reward (some
        ⟨(s.schedule (FarmingConfig.sort AccountId pool) reward).periodCount + periodCount,
          (balances t (poolAccountId (FarmingConfig.sort AccountId pool) : AccountId) reward).free /
            ((s.schedule (FarmingConfig.sort AccountId pool) reward).periodCount +
              periodCount)⟩) := by
  simp only [updateRewardSchedule, Call.run_bind_eq_ok, run_ensureRoot, run_withTokens,
    Call.run_get_eq_ok, Call.run_ensure_eq_ok, Call.run_modify_eq_ok] at h
  obtain ⟨_, _, ⟨-, rfl⟩, _, _, ⟨t, htransfer, rfl⟩, _, _, ⟨rfl, rfl⟩, _, _, ⟨-, rfl⟩, rfl⟩ := h
  exact ⟨t, run_transfer htransfer, rfl⟩

omit [RewardsApi Pools CurrencyId AccountId CurrencyId] in
/-- The treasury gets back what the pool holds, and the schedule is forgotten. -/
theorem run_removeRewardSchedule
    (h : (removeRewardSchedule origin pool reward : FarmingCall CurrencyId Tokens Pools Unit).run
      s = .ok u s') :
    ∃ t, Transfers reward (poolAccountId (FarmingConfig.sort AccountId pool) : AccountId)
        (treasuryAccountId CurrencyId) (s.freeBalance reward
          (poolAccountId (FarmingConfig.sort AccountId pool) : AccountId)) s.tokens t ∧
      s' = { s with tokens := t }.setSchedule (FarmingConfig.sort AccountId pool) reward none := by
  simp only [removeRewardSchedule, Call.run_bind_eq_ok, run_ensureRoot, run_withTokens,
    Call.run_get_eq_ok, Call.run_modify_eq_ok] at h
  obtain ⟨_, _, ⟨-, rfl⟩, _, _, ⟨rfl, rfl⟩, _, _, ⟨t, htransfer, rfl⟩, rfl⟩ := h
  exact ⟨t, run_transfer htransfer, rfl⟩

/-- All free tokens of the caller are staked and reserved. -/
theorem run_deposit {lengthRewards : ℕ}
    (h : (deposit origin pool lengthRewards : FarmingCall CurrencyId Tokens Pools Unit).run s =
      .ok u s') :
    ∃ who : {who : AccountId // ∀ p : CurrencyId, who ≠ poolAccountId p}, ∃ t r,
      (depositStake (FarmingConfig.sort AccountId pool) who.1
        (s.freeBalance (FarmingConfig.sort AccountId pool) who.1)).run s.rewardPools = .ok () r ∧
      balances t = (balances s.tokens).modify who.1 (FarmingConfig.sort AccountId pool)
        (·.hold (s.freeBalance (FarmingConfig.sort AccountId pool) who.1)) ∧
      s' = { s with tokens := t, rewardPools := r } := by
  simp only [deposit, Call.run_bind_eq_ok, run_ensureSigned, run_withTokens, run_withPools,
    Call.run_get_eq_ok, Call.run_ensure_eq_ok] at h
  obtain ⟨who, _, ⟨-, rfl⟩, _, _, ⟨rfl, rfl⟩, _, _, ⟨-, rfl⟩, _, _, ⟨t, hreserve, rfl⟩, r, hstake,
    rfl⟩ := h
  exact ⟨who, t, r, hstake, (LawfulMultiCurrency.run_reserve _ _ _ _ _ hreserve).2, rfl⟩

/-- A stake that is withdrawn is unreserved. -/
theorem run_withdraw {amount lengthRewards : ℕ}
    (h : (withdraw origin pool amount lengthRewards :
      FarmingCall CurrencyId Tokens Pools Unit).run s = .ok u s') :
    ∃ who : {who : AccountId // ∀ p : CurrencyId, who ≠ poolAccountId p}, ∃ t r,
      (withdrawStake (FarmingConfig.sort AccountId pool) who.1 amount).run s.rewardPools =
        .ok () r ∧
      amount ≤ (balances s.tokens who.1 (FarmingConfig.sort AccountId pool)).reserved ∧
      balances t = (balances s.tokens).modify who.1 (FarmingConfig.sort AccountId pool)
        (·.release amount) ∧
      s' = { s with tokens := t, rewardPools := r } := by
  simp only [withdraw, Farming.unreserve, Call.run_bind_eq_ok, run_ensureSigned, run_withPools,
    Call.run_get_eq_ok, Call.run_ensure_eq_ok, Call.run_set_eq_ok, Call.run_pure_eq_ok] at h
  obtain ⟨who, _, ⟨-, rfl⟩, _, _, ⟨rfl, rfl⟩, _, _, ⟨-, rfl⟩, _, _, ⟨_, _, ⟨rfl, rfl⟩, _, _, rfl,
    rfl, rfl⟩, _, _, ⟨hremaining, rfl⟩, r, hstake, rfl⟩ := h
  obtain ⟨hleft, -, hbalances⟩ := LawfulMultiCurrency.unreserve_eq
    (FarmingConfig.sort AccountId pool) who.1 amount s.tokens
  rw [hleft] at hremaining
  exact ⟨who, _, r, hstake, by omega, hbalances, rfl⟩

/-- The pool pays the reward that is withdrawn. -/
theorem run_claim
    (h : (claim origin pool reward : FarmingCall CurrencyId Tokens Pools Unit).run s = .ok u s') :
    ∃ who : {who : AccountId // ∀ p : CurrencyId, who ≠ poolAccountId p}, ∃ x t r,
      (withdrawReward (FarmingConfig.sort AccountId pool) who.1 reward).run s.rewardPools =
        .ok x r ∧
      Transfers reward (poolAccountId (FarmingConfig.sort AccountId pool) : AccountId) who.1 x
        s.tokens t ∧
      s' = { s with tokens := t, rewardPools := r } := by
  simp only [claim, Call.run_bind_eq_ok, run_ensureSigned, run_withTokens, run_withPools] at h
  obtain ⟨who, _, ⟨-, rfl⟩, x, _, ⟨r, hreward, rfl⟩, t, htransfer, rfl⟩ := h
  exact ⟨who, x, t, r, hreward, run_transfer htransfer, rfl⟩

end Calls

/-! ## Blocks -/

omit [DecidableEq AccountId] [MultiCurrency Tokens AccountId CurrencyId]
  [FarmingConfig AccountId CurrencyId] in
/-- A schedule either takes its next step, or the distribution fails and it stays. -/
theorem run_distributeSchedule {entry : (CurrencyId × CurrencyId) × RewardSchedule}
    (h : (distributeSchedule entry : FarmingCall CurrencyId Tokens Pools Unit).run s = .ok u s') :
    (∃ r, 0 < entry.2.periodCount ∧
        (distributeReward entry.1.1 entry.1.2 entry.2.perPeriod).run s.rewardPools = .ok () r ∧
        s' = { s with rewardPools := r }.setSchedule entry.1.1 entry.1.2
          (some { entry.2 with periodCount := entry.2.periodCount - 1 })) ∨
      (0 < entry.2.periodCount ∧ s' = s) ∨
      entry.2.periodCount = 0 ∧ s' = s.setSchedule entry.1.1 entry.1.2 none := by
  unfold distributeSchedule RewardSchedule.take at h
  by_cases hpos : 0 < entry.2.periodCount
  · rw [if_pos hpos] at h
    simp only [Call.run_bind_eq_ok, Call.run_attempt_eq_ok] at h
    obtain ⟨result, s₁, ⟨_, rfl, hrun⟩ | ⟨e, rfl, hrun⟩, h⟩ := h
    · rw [tryDistributeReward, Call.run_transactional_eq_ok, run_withPools] at hrun
      obtain ⟨r, hdistribute, rfl⟩ := hrun
      obtain rfl := Call.run_modify_eq_ok.mp h
      exact .inl ⟨r, hpos, hdistribute, rfl⟩
    · obtain rfl := Call.eq_of_transactional_error hrun
      exact .inr (.inl ⟨hpos, (Call.run_pure_eq_ok.mp h).2.symm⟩)
  · rw [if_neg hpos] at h
    obtain rfl := Call.run_modify_eq_ok.mp h
    exact .inr (.inr ⟨by omega, rfl⟩)

end Farming

end Interbtc
