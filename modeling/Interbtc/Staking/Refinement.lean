import Interbtc.Core.RewardLedger
import Interbtc.Staking.Pallet

/-!
# Pools refine ledgers

Read as rational numbers, a pool is a ledger of lazily slashed stake with one
reward ledger for each currency. A successful call on a pool is the operation of
that name on its ledgers.
-/

namespace Interbtc

open Core FixedPointNumber LawfulFixedPoint

section Entries

variable {σ F : Type} [FixedPointNumber F] {entry : Lens σ F} {amount value : F} {s s' : σ}

/-- An addition in place stores the sum. -/
theorem run_checkedAddMut_eq_ok :
    (checkedAddMut entry amount).run s = .ok value s' ↔
      checkedAdd (entry.get s) amount = some value ∧ entry.set value s = s' := by
  simp only [checkedAddMut, Call.run_bind_eq_ok, Call.run_get_eq_ok, Call.run_ofOption_eq_ok,
    Call.run_modify_eq_ok, Call.run_pure_eq_ok]
  constructor
  · rintro ⟨_, _, ⟨rfl, rfl⟩, _, _, ⟨h, rfl⟩, _, _, h', rfl, rfl⟩
    exact ⟨h, h'⟩
  · rintro ⟨h, h'⟩
    exact ⟨s, s, ⟨rfl, rfl⟩, value, s, ⟨h, rfl⟩, ⟨⟩, s', h', rfl, rfl⟩

/-- A subtraction in place stores the difference. -/
theorem run_checkedSubMut_eq_ok :
    (checkedSubMut entry amount).run s = .ok value s' ↔
      checkedSub (entry.get s) amount = some value ∧ entry.set value s = s' := by
  simp only [checkedSubMut, Call.run_bind_eq_ok, Call.run_get_eq_ok, Call.run_ofOption_eq_ok,
    Call.run_modify_eq_ok, Call.run_pure_eq_ok]
  constructor
  · rintro ⟨_, _, ⟨rfl, rfl⟩, _, _, ⟨h, rfl⟩, _, _, h', rfl, rfl⟩
    exact ⟨h, h'⟩
  · rintro ⟨h, h'⟩
    exact ⟨s, s, ⟨rfl, rfl⟩, value, s, ⟨h, rfl⟩, ⟨⟩, s', h', rfl, rfl⟩

end Entries

namespace Pool

variable {AccountId CurrencyId F : Type} [FixedPointNumber F] [LawfulFixedPoint F]
  {p p' : Pool AccountId CurrencyId F} {n : AccountId} {c : CurrencyId} {a v : F}

/-- The stakes of a pool. -/
def ledger (p : Pool AccountId CurrencyId F) : StakeLedger AccountId where
  total := toRat p.totalStake
  current := toRat p.totalCurrentStake
  perToken := toRat p.slashPerToken
  stake n := toRat (p.stake n)
  tally n := toRat (p.slashTally n)

/-- The rewards of a pool in one currency. -/
def rewards (p : Pool AccountId CurrencyId F) (c : CurrencyId) : RewardLedger AccountId where
  unclaimed := toRat (p.totalRewards c)
  perToken := toRat (p.rewardPerToken c)
  tally n := toRat (p.rewardTally c n)

/-- Each of the listed currencies' rewards is updated, and no other's. The list names the
wrapped and the native currency, and the update is made twice where these are the same. -/
def RewardsFollow [DecidableEq CurrencyId] (currencies : List CurrencyId)
    (f : RewardLedger AccountId → RewardLedger AccountId)
    (p p' : Pool AccountId CurrencyId F) : Prop :=
  currencies.Nodup → ∀ c, p'.rewards c = if c ∈ currencies then f (p.rewards c) else p.rewards c

/-! ## Views -/

/-- The slashes since, up to the rounding of one product. -/
theorem computeAmountToSlash_eq_ok {stake slashPerToken slashTally : F}
    (h : computeAmountToSlash stake slashPerToken slashTally = .ok v) :
    toRat v = (rounding F).round (toRat stake * toRat slashPerToken) - toRat slashTally := by
  obtain ⟨m, hm, hv⟩ := except_bind_eq_ok.mp h
  rw [toRat_sub (okOr_eq_ok.mp hv), toRat_mul (okOr_eq_ok.mp hm)]

/-- The stake after slashes is what is settled, if positive. -/
theorem toRat_computePreciseStake (h : p.computePreciseStake n = .ok v) :
    toRat v = max 0 (p.ledger.settled (rounding F) n) := by
  obtain ⟨t, ht, h⟩ := except_bind_eq_ok.mp h
  obtain ⟨d, hd, h⟩ := except_bind_eq_ok.mp h
  rw [← except_pure_eq_ok.mp h, toRat_max, toRat_zero, toRat_sub (okOr_eq_ok.mp hd),
    computeAmountToSlash_eq_ok ht]
  rfl

/-- The truncated stake is what is settled, truncated. -/
theorem computeStake_eq_ok {i : ℤ} (h : p.computeStake n = .ok i) :
    i = truncate (max 0 (p.ledger.settled (rounding F) n)) := by
  obtain ⟨v, hv, h⟩ := except_bind_eq_ok.mp h
  rw [truncateToInner_eq (okOr_eq_ok.mp h), toRat_computePreciseStake hv]

/-- The reward is the share of the settled stake less the tally. -/
theorem computeReward_eq_ok {i : ℤ} (h : p.computeReward c n = .ok i) :
    i = max 0 (truncate ((rounding F).round
      (max 0 (p.ledger.settled (rounding F) n) * (p.rewards c).perToken) -
        (p.rewards c).tally n)) := by
  obtain ⟨v, hv, h⟩ := except_bind_eq_ok.mp h
  obtain ⟨m, hm, h⟩ := except_bind_eq_ok.mp h
  obtain ⟨d, hd, h⟩ := except_bind_eq_ok.mp h
  obtain ⟨r, hr, h⟩ := except_bind_eq_ok.mp h
  rw [← except_pure_eq_ok.mp h, truncateToInner_eq (okOr_eq_ok.mp hr),
    toRat_sub (okOr_eq_ok.mp hd), toRat_mul (okOr_eq_ok.mp hm), toRat_computePreciseStake hv]
  rfl

/-! ## Calls -/

variable [DecidableEq AccountId]

omit [FixedPointNumber F] [LawfulFixedPoint F] in
private theorem comp_update {τ : Type} (f : F → τ) (g : AccountId → F) (x : F) :
    (fun m => f (Function.update g n x m)) = Function.update (fun m => f (g m)) n (f x) :=
  Function.comp_update f g n x

/-- Applying slashes settles a stake. -/
theorem run_applySlash (h : (applySlash n).run p = .ok v p') :
    p'.ledger = p.ledger.apply (rounding F) n ∧ (∀ c, p'.rewards c = p.rewards c) ∧
      toRat v = p.ledger.settled (rounding F) n := by
  simp only [applySlash, Call.run_bind_eq_ok, Call.run_get_eq_ok, Call.run_ofExcept_eq_ok,
    run_checkedSubMut_eq_ok, Call.run_ofOption_eq_ok, Call.run_modify_eq_ok,
    Call.run_pure_eq_ok] at h
  obtain ⟨_, _, ⟨rfl, rfl⟩, t, _, ⟨ht, rfl⟩, total, _, ⟨htotal, rfl⟩, stake, _, ⟨hstake, rfl⟩,
    tally, _, ⟨htally, rfl⟩, _, _, rfl, rfl, rfl⟩ := h
  have ht' := computeAmountToSlash_eq_ok ht
  have hsettled : toRat stake = p.ledger.settled (rounding F) n := by
    rw [toRat_sub hstake, ht']
    rfl
  have htotal' : toRat total = p.ledger.total - p.ledger.pending (rounding F) n := by
    rw [toRat_sub htotal, ht']
    rfl
  have htally' := toRat_mul htally
  rw [hsettled] at htally'
  refine ⟨?_, fun _ => rfl, hsettled⟩
  simp only [ledger, TotalStake, Stake, SlashTally, comp_update, htotal', hsettled, htally']
  rfl

variable [DecidableEq CurrencyId] {currencies : List CurrencyId}

omit [LawfulFixedPoint F] [DecidableEq CurrencyId] in
/-- Applying the slash computes the precise stake before it is clamped at zero. -/
theorem computePreciseStake_of_applySlash (h : (applySlash n).run p = .ok v p') :
    p.computePreciseStake n = .ok (max 0 v) := by
  simp only [applySlash, Call.run_bind_eq_ok, Call.run_get_eq_ok, Call.run_ofExcept_eq_ok,
    run_checkedSubMut_eq_ok, Call.run_ofOption_eq_ok, Call.run_modify_eq_ok,
    Call.run_pure_eq_ok] at h
  obtain ⟨_, _, ⟨rfl, rfl⟩, t, _, ⟨ht, rfl⟩, _, _, ⟨_, rfl⟩, stake, _, ⟨hstake, rfl⟩,
    _, _, ⟨_, rfl⟩, _, _, rfl, rfl, rfl⟩ := h
  refine except_bind_eq_ok.mpr ⟨t, ht, except_bind_eq_ok.mpr ⟨stake, okOr_eq_ok.mpr hstake, ?_⟩⟩
  exact except_pure_eq_ok.mpr rfl

omit [DecidableEq AccountId] in
/-- A loop over the reward currencies updates one currency after the other. -/
private theorem run_forM_rewards
    {body : CurrencyId → Call DispatchError (Pool AccountId CurrencyId F) Unit}
    {g : StakeLedger AccountId → RewardLedger AccountId → RewardLedger AccountId}
    (hbody : ∀ c p p', (body c).run p = .ok () p' → p'.ledger = p.ledger ∧
      p'.rewards c = g p.ledger (p.rewards c) ∧ ∀ c', c' ≠ c → p'.rewards c' = p.rewards c')
    {u : PUnit} (h : (currencies.forM body).run p = .ok u p') :
    p'.ledger = p.ledger ∧ RewardsFollow currencies (g p.ledger) p p' := by
  induction currencies generalizing p with
  | nil =>
    obtain ⟨_, rfl⟩ := Call.run_pure_eq_ok.mp h
    exact ⟨rfl, fun _ c => (if_neg List.not_mem_nil).symm⟩
  | cons d currencies ih =>
    obtain ⟨_, p₁, h₁, h₂⟩ := Call.run_bind_eq_ok.mp h
    obtain ⟨hl₁, hr₁, ho₁⟩ := hbody d p p₁ h₁
    obtain ⟨hl₂, hr₂⟩ := ih h₂
    refine ⟨hl₂.trans hl₁, fun hnodup c => ?_⟩
    obtain ⟨hd, hnodup⟩ := List.nodup_cons.mp hnodup
    rw [hr₂ hnodup c, hl₁]
    rcases eq_or_ne c d with rfl | hcd
    · rw [if_neg hd, if_pos List.mem_cons_self, hr₁]
    · simp only [List.mem_cons, hcd, false_or, ho₁ c hcd]

private theorem rewards_set_rewardTally (x : F) (c' : CurrencyId) :
    ((RewardTally c n).set x p).rewards c' =
      if c' = c then { p.rewards c with tally := Function.update (p.rewards c).tally n (toRat x) }
      else p.rewards c' := by
  by_cases hc : c' = c
  · subst hc
    simp only [rewards, RewardTally, Function.update_self, comp_update, if_true]
  · simp only [rewards, RewardTally, Function.update_of_ne hc, if_neg hc]

omit [DecidableEq AccountId] in
private theorem rewards_set_rewardPerToken (x : F) (c' : CurrencyId) :
    ((RewardPerToken c).set x p).rewards c' =
      if c' = c then { p.rewards c with perToken := toRat x } else p.rewards c' := by
  by_cases hc : c' = c
  · subst hc
    simp only [rewards, RewardPerToken, Function.update_self, if_true]
  · simp only [rewards, RewardPerToken, Function.update_of_ne hc, if_neg hc]

omit [DecidableEq AccountId] in
private theorem rewards_set_totalRewards (x : F) (c' : CurrencyId) :
    ((TotalRewards c).set x p).rewards c' =
      if c' = c then { p.rewards c with unclaimed := toRat x } else p.rewards c' := by
  by_cases hc : c' = c
  · subst hc
    simp only [rewards, TotalRewards, Function.update_self, if_true]
  · simp only [rewards, TotalRewards, Function.update_of_ne hc, if_neg hc]

private theorem run_addRewardTally {u : Unit} (h : (addRewardTally n a c).run p = .ok u p') :
    p'.ledger = p.ledger ∧ p'.rewards c = (p.rewards c).deposit (rounding F) n (toRat a) ∧
      ∀ c', c' ≠ c → p'.rewards c' = p.rewards c' := by
  simp only [addRewardTally, Call.run_bind_eq_ok, Call.run_get_eq_ok, run_checkedAddMut_eq_ok,
    Call.run_ofOption_eq_ok, Call.run_pure_eq_ok] at h
  obtain ⟨_, _, ⟨rfl, rfl⟩, x, _, ⟨hx, rfl⟩, y, _, ⟨hy, rfl⟩, _, rfl⟩ := h
  refine ⟨rfl, ?_, fun c' hc' => ?_⟩
  · rw [rewards_set_rewardTally, if_pos rfl, toRat_add hy, toRat_mul hx]
    rfl
  · rw [rewards_set_rewardTally, if_neg hc']

/-- A tally falls as the reward ledger says. -/
theorem run_subRewardTally {u : Unit} (h : (subRewardTally n a c).run p = .ok u p') :
    p'.ledger = p.ledger ∧ p'.rewards c = (p.rewards c).withdraw (rounding F) n (toRat a) ∧
      ∀ c', c' ≠ c → p'.rewards c' = p.rewards c' := by
  simp only [subRewardTally, Call.run_bind_eq_ok, Call.run_get_eq_ok, run_checkedSubMut_eq_ok,
    Call.run_ofOption_eq_ok, Call.run_pure_eq_ok] at h
  obtain ⟨_, _, ⟨rfl, rfl⟩, x, _, ⟨hx, rfl⟩, y, _, ⟨hy, rfl⟩, _, rfl⟩ := h
  refine ⟨rfl, ?_, fun c' hc' => ?_⟩
  · rw [rewards_set_rewardTally, if_pos rfl, toRat_sub hy, toRat_mul hx]
    rfl
  · rw [rewards_set_rewardTally, if_neg hc']

/-- Stake is added as the ledgers say. -/
theorem run_addStake {u : Unit} (h : (addStake currencies n a).run p = .ok u p') :
    p'.ledger = p.ledger.deposit (rounding F) n (toRat a) ∧
      RewardsFollow currencies (·.deposit (rounding F) n (toRat a)) p p' := by
  simp only [addStake, Call.run_bind_eq_ok, Call.run_get_eq_ok, run_checkedAddMut_eq_ok,
    Call.run_ofOption_eq_ok] at h
  obtain ⟨stake, _, ⟨hstake, rfl⟩, total, _, ⟨htotal, rfl⟩, current, _, ⟨hcurrent, rfl⟩, _, _,
    ⟨rfl, rfl⟩, m, _, ⟨hm, rfl⟩, tally, _, ⟨htally, rfl⟩, h⟩ := h
  obtain ⟨hl, hr⟩ := run_forM_rewards (g := fun _ R => R.deposit (rounding F) n (toRat a))
    (fun c q q' hq => run_addRewardTally hq) h
  have hstake' := toRat_add hstake
  have htotal' := toRat_add htotal
  have hcurrent' := toRat_add hcurrent
  have htally' := toRat_add htally
  rw [toRat_mul hm] at htally'
  refine ⟨hl.trans ?_, hr⟩
  simp only [ledger, TotalStake, TotalCurrentStake, Stake, SlashTally, comp_update, hstake',
    htotal', hcurrent', htally']
  rfl

/-- Stake is removed as the ledgers say. -/
theorem run_removeStake {u : Unit} (h : (removeStake currencies n a).run p = .ok u p') :
    p'.ledger = p.ledger.withdraw (rounding F) n (toRat a) ∧
      RewardsFollow currencies (·.withdraw (rounding F) n (toRat a)) p p' := by
  simp only [removeStake, Call.run_bind_eq_ok, Call.run_get_eq_ok, run_checkedSubMut_eq_ok,
    Call.run_ofOption_eq_ok, Call.run_ite_eq_ok, Call.run_modify_eq_ok, Call.run_pure_eq_ok] at h
  obtain ⟨stake, _, ⟨hstake, rfl⟩, total, _, ⟨htotal, rfl⟩, current, _, ⟨hcurrent, rfl⟩, _, p₁,
    hif, _, _, ⟨rfl, rfl⟩, m, _, ⟨hm, rfl⟩, tally, _, ⟨htally, rfl⟩, h⟩ := h
  obtain ⟨hl, hr⟩ := run_forM_rewards (g := fun _ R => R.withdraw (rounding F) n (toRat a))
    (fun c q q' hq => run_subRewardTally hq) h
  have hstake' := toRat_sub hstake
  have htotal' := toRat_sub htotal
  have hcurrent' := toRat_sub hcurrent
  have htally' := toRat_sub htally
  rw [toRat_mul hm] at htally'
  rcases hif with ⟨hzero, rfl⟩ | ⟨hzero, _, rfl⟩
  · refine ⟨hl.trans ?_, hr⟩
    rw [← toRat_eq_zero, htotal'] at hzero
    simp only [ledger, TotalStake, TotalCurrentStake, Stake, SlashTally, comp_update, hstake',
      htotal', htally', toRat_zero, StakeLedger.withdraw, StakeLedger.mk.injEq, true_and]
    exact ⟨(if_pos hzero).symm, trivial⟩
  · refine ⟨hl.trans ?_, hr⟩
    rw [← toRat_eq_zero, htotal'] at hzero
    simp only [ledger, TotalStake, TotalCurrentStake, Stake, SlashTally, comp_update, hstake',
      htotal', hcurrent', htally', StakeLedger.withdraw, StakeLedger.mk.injEq, true_and]
    exact ⟨(if_neg hzero).symm, trivial⟩

omit [DecidableEq AccountId] in
private theorem run_increaseRewards (h : (increaseRewards c a).run p = .ok v p') :
    p'.ledger = p.ledger ∧
      p'.rewards c = (p.rewards c).increase (rounding F) p.ledger.current (toRat a) ∧
      (∀ c', c' ≠ c → p'.rewards c' = p.rewards c') ∧
      v = if p.totalCurrentStake = 0 then 0 else a := by
  simp only [increaseRewards, Call.run_bind_eq_ok, Call.run_get_eq_ok, Call.run_ite_eq_ok,
    Call.run_pure_eq_ok, Call.run_ofOption_eq_ok, run_checkedAddMut_eq_ok] at h
  obtain ⟨_, _, ⟨rfl, rfl⟩, ⟨hzero, rfl, rfl⟩ | ⟨hzero, q, _, ⟨hq, rfl⟩, r, _, ⟨hr, rfl⟩, rfl, rfl⟩⟩
    := h
  · refine ⟨rfl, ?_, fun _ _ => rfl, (if_pos hzero).symm⟩
    have hcur : p.ledger.current = 0 := toRat_eq_zero.mpr hzero
    rw [RewardLedger.increase, if_pos hcur]
  · refine ⟨rfl, ?_, fun c' hc' => ?_, (if_neg hzero).symm⟩
    · have hcur : p.ledger.current ≠ 0 := fun h => hzero (toRat_eq_zero.mp h)
      rw [RewardLedger.increase, if_neg hcur, rewards_set_rewardPerToken, if_pos rfl, toRat_add hr,
        toRat_div hq]
      rfl
    · rw [rewards_set_rewardPerToken, if_neg hc']

omit [DecidableEq AccountId] in
private theorem run_replenishRewards {u : Unit} (h : (replenishRewards a c).run p = .ok u p') :
    p'.ledger = p.ledger ∧
      p'.rewards c = (p.rewards c).slash (rounding F) p.ledger.current (toRat a) ∧
      ∀ c', c' ≠ c → p'.rewards c' = p.rewards c' := by
  simp only [replenishRewards, Call.run_bind_eq_ok, Call.run_get_eq_ok, Call.run_ofOption_eq_ok,
    Call.run_pure_eq_ok] at h
  obtain ⟨_, _, ⟨rfl, rfl⟩, x, _, ⟨hx, rfl⟩, y, _, hy, _, rfl⟩ := h
  obtain ⟨hl, hr, ho, -⟩ := run_increaseRewards hy
  rw [toRat_mul hx] at hr
  exact ⟨hl, hr, ho⟩

omit [DecidableEq AccountId] in
/-- A slash is spread as the ledgers say. -/
theorem run_slashStake {u : Unit} (h : (slashStake currencies a).run p = .ok u p') :
    (a = 0 ∧ p' = p) ∨
      (a ≠ 0 ∧ p.ledger.total ≠ 0 ∧ p'.ledger = p.ledger.slash (rounding F) (toRat a) ∧
        RewardsFollow currencies (·.slash (rounding F) p'.ledger.current (toRat a)) p p') := by
  simp only [slashStake, Call.run_bind_eq_ok, Call.run_get_eq_ok, Call.run_ite_eq_ok,
    Call.run_pure_eq_ok, Call.run_throw_eq_ok, Call.run_ofOption_eq_ok, run_checkedAddMut_eq_ok,
    run_checkedSubMut_eq_ok, and_false, false_or] at h
  obtain ⟨_, _, ⟨rfl, rfl⟩, ⟨hzero, _, rfl⟩ | ⟨hzero, htotal, d, _, ⟨hd, rfl⟩, k, _, ⟨hk, rfl⟩,
    current, _, ⟨hcurrent, rfl⟩, h⟩⟩ := h
  · exact .inl ⟨hzero, rfl⟩
  · obtain ⟨hl, hr⟩ := run_forM_rewards
      (g := fun L R => R.slash (rounding F) L.current (toRat a))
      (fun c q q' hq => run_replenishRewards hq) h
    have hk' := toRat_add hk
    rw [toRat_div hd] at hk'
    have hcurrent' := toRat_sub hcurrent
    refine .inr ⟨hzero, fun h => htotal (toRat_eq_zero.mp h), hl.trans ?_, ?_⟩
    · simp only [ledger, SlashPerToken, TotalCurrentStake, hk', hcurrent']
      rfl
    · rw [hl]
      exact hr

omit [DecidableEq AccountId] in
/-- A reward is spread as the reward ledger says. -/
theorem run_distributeReward (h : (distributeReward c a).run p = .ok v p') :
    p'.ledger = p.ledger ∧
      p'.rewards c = (p.rewards c).distribute (rounding F) p.ledger.current (toRat a) ∧
      (∀ c', c' ≠ c → p'.rewards c' = p.rewards c') ∧
      v = if p.totalCurrentStake = 0 then 0 else a := by
  simp only [distributeReward, Call.run_bind_eq_ok, Call.run_ite_eq_ok, Call.run_pure_eq_ok,
    run_checkedAddMut_eq_ok] at h
  obtain ⟨r, p₁, h₁, h₂⟩ := h
  obtain ⟨hl, hr, ho, hv⟩ := run_increaseRewards h₁
  have hcur : p.ledger.current = 0 ↔ p.totalCurrentStake = 0 := toRat_eq_zero
  rcases h₂ with ⟨hzero, rfl, rfl⟩ | ⟨hzero, x, _, ⟨hx, rfl⟩, rfl, rfl⟩
  · refine ⟨hl, ?_, ho, by rw [← hv, hzero]⟩
    rw [hr, RewardLedger.distribute, RewardLedger.increase]
    split
    · rfl
    · rename_i hne
      rw [hcur] at hne
      rw [if_neg hne] at hv
      rw [← hv, hzero, toRat_zero, add_zero]
  · refine ⟨hl, ?_, fun c' hc' => ?_, hv⟩
    · have hne : p.totalCurrentStake ≠ 0 := fun h => hzero (by rw [hv, if_pos h])
      rw [if_neg hne] at hv
      subst hv
      have hx' : toRat x = (p₁.rewards c).unclaimed + toRat r := toRat_add hx
      rw [rewards_set_totalRewards, if_pos rfl, hx', hr, RewardLedger.distribute,
        RewardLedger.increase, if_neg (hcur.not.mpr hne), if_neg (hcur.not.mpr hne)]
    · rw [rewards_set_totalRewards, if_neg hc', ho c' hc']

/-- A claim pays the reward and settles its tally. -/
theorem run_claimReward {i : ℤ} (h : (claimReward c n).run p = .ok i p') :
    p.computeReward c n = .ok i ∧ p'.ledger = p.ledger ∧
      p'.rewards c = (p.rewards c).claim (rounding F) n (p.ledger.stake n) i ∧
      ∀ c', c' ≠ c → p'.rewards c' = p.rewards c' := by
  simp only [claimReward, Call.run_bind_eq_ok, Call.run_get_eq_ok, Call.run_ofExcept_eq_ok,
    Call.run_ofOption_eq_ok, run_checkedSubMut_eq_ok, Call.run_modify_eq_ok,
    Call.run_pure_eq_ok] at h
  obtain ⟨_, _, ⟨rfl, rfl⟩, r, _, ⟨hr, rfl⟩, f, _, ⟨hf, rfl⟩, t, _, ⟨ht, rfl⟩, _, _, ⟨rfl, rfl⟩,
    m, _, ⟨hm, rfl⟩, _, _, rfl, rfl, rfl⟩ := h
  refine ⟨hr, rfl, ?_, fun c' hc' => ?_⟩
  · have ht' := toRat_sub ht
    rw [toRat_fromInteger hf] at ht'
    rw [rewards_set_rewardTally, if_pos rfl, rewards_set_totalRewards, if_pos rfl, toRat_mul hm,
      ht']
    rfl
  · rw [rewards_set_rewardTally, if_neg hc', rewards_set_totalRewards, if_neg hc']

end Pool

end Interbtc
