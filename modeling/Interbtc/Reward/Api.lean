import Interbtc.Reward.Steps

/-!
# The interface of the reward pallet

Other pallets take the reward pallet as a parameter. What they rely on is said of ledgers of
shares: each successful call is the operation of that name on the ledgers of its pool.
-/

namespace Interbtc

open Core

/-- The calls that other pallets make of the reward pallet. -/
class RewardsApi (Pools : Type) (PoolId StakeId CurrencyId : outParam Type) where
  rewardCurrenciesLen : Pools → PoolId → ℕ
  distributeReward : PoolId → CurrencyId → ℕ → Call DispatchError Pools Unit
  withdrawReward : PoolId → StakeId → CurrencyId → Call DispatchError Pools ℕ
  depositStake : PoolId → StakeId → ℕ → Call DispatchError Pools Unit
  withdrawStake : PoolId → StakeId → ℕ → Call DispatchError Pools Unit

open RewardsApi

/-- The ledgers that the calls keep, one for each pool and each currency of its rewards. -/
class LawfulRewardsApi (Pools : Type) {PoolId StakeId CurrencyId : Type} [DecidableEq PoolId]
    [DecidableEq StakeId] [DecidableEq CurrencyId]
    [RewardsApi Pools PoolId StakeId CurrencyId] where
  rounding : Rounding
  ledger : Pools → CurrencyId → PoolId → ShareLedger StakeId
  Valid : Pools → Prop
  run_distributeReward : ∀ (p : PoolId) (c : CurrencyId) (x : ℕ) (s s' : Pools), Valid s →
    (distributeReward p c x).run s = .ok () s' → Valid s' ∧
      (x ≠ 0 → (ledger s c p).total ≠ 0) ∧
      ∀ d q, ledger s' d q =
        if d = c ∧ q = p ∧ x ≠ 0 then (ledger s d q).spread rounding x else ledger s d q
  run_distributeReward_error : ∀ (p : PoolId) (c : CurrencyId) (x : ℕ) (s s' : Pools)
    (e : DispatchError), Valid s → (distributeReward p c x).run s = .error e s' → Valid s' ∧
      ∀ d q, ledger s' d q = ledger s d q ∨ (d = c ∧ q = p ∧ (ledger s d q).total ≠ 0 ∧
        ledger s' d q = (ledger s d q).spread rounding x)
  run_withdrawReward : ∀ (p : PoolId) (i : StakeId) (c : CurrencyId) (x : ℕ) (s s' : Pools),
    Valid s → (withdrawReward p i c).run s = .ok x s' → Valid s' ∧
      (x : ℤ) = (ledger s c p).payable rounding i ∧
      ∀ d q, ledger s' d q =
        if d = c ∧ q = p then (ledger s d q).claim rounding i else ledger s d q
  run_depositStake : ∀ (p : PoolId) (i : StakeId) (x : ℕ) (s s' : Pools), Valid s →
    (depositStake p i x).run s = .ok () s' → Valid s' ∧
      ∀ d q, ledger s' d q =
        if q = p then (ledger s d q).deposit rounding i x else ledger s d q
  run_withdrawStake : ∀ (p : PoolId) (i : StakeId) (x : ℕ) (s s' : Pools), Valid s →
    (withdrawStake p i x).run s = .ok () s' → Valid s' ∧
      (∀ d, (x : ℚ) ≤ (ledger s d p).stake i) ∧
      ∀ d q, ledger s' d q =
        if q = p then (ledger s d q).withdraw rounding i x else ledger s d q

/-! ## Steps of the ledgers -/

namespace LawfulRewardsApi

variable {Pools PoolId StakeId CurrencyId : Type} [DecidableEq PoolId] [DecidableEq StakeId]
  [DecidableEq CurrencyId] [RewardsApi Pools PoolId StakeId CurrencyId] [LawfulRewardsApi Pools]
  {s s' : Pools} {p : PoolId} {i : StakeId} {c : CurrencyId} {x : ℕ}

/-- A distribution credits the pool at most what is distributed. -/
theorem step_distributeReward (hs : Valid PoolId StakeId CurrencyId s)
    (h : (distributeReward p c x).run s = .ok () s') (d : CurrencyId) (q : PoolId) :
    ShareLedger.Step (rounding Pools PoolId StakeId CurrencyId) (ledger s d q : ShareLedger StakeId)
      (ledger s' d q) (if d = c ∧ q = p then (x : ℚ) else 0) 0 := by
  obtain ⟨-, htotal, hledger⟩ := run_distributeReward p c x s s' hs h
  rw [hledger]
  by_cases hx : x = 0
  · rw [if_neg fun h => h.2.2 hx, hx, Nat.cast_zero, ite_self]
    exact .stay
  · by_cases hkey : d = c ∧ q = p
    · obtain ⟨rfl, rfl⟩ := hkey
      rw [if_pos ⟨rfl, rfl, hx⟩, if_pos ⟨rfl, rfl⟩]
      exact .spread _ (Nat.cast_nonneg _) (htotal hx)
    · rw [if_neg fun h => hkey ⟨h.1, h.2.1⟩, if_neg hkey]
      exact .stay

/-- A withdrawal debits the pool what is paid. -/
theorem step_withdrawReward (hs : Valid PoolId StakeId CurrencyId s)
    (h : (withdrawReward p i c).run s = .ok x s') (d : CurrencyId) (q : PoolId) :
    ShareLedger.Step (rounding Pools PoolId StakeId CurrencyId) (ledger s d q : ShareLedger StakeId)
      (ledger s' d q) 0 (if d = c ∧ q = p then (x : ℚ) else 0) := by
  obtain ⟨-, hpaid, hledger⟩ := run_withdrawReward p i c x s s' hs h
  rw [hledger]
  by_cases hkey : d = c ∧ q = p
  · obtain ⟨rfl, rfl⟩ := hkey
    have hx : (x : ℚ) =
        ((ledger s d q).payable (rounding Pools PoolId StakeId CurrencyId) i : ℚ) := by
      exact_mod_cast congrArg (Int.cast : ℤ → ℚ) hpaid
    rw [if_pos ⟨rfl, rfl⟩, if_pos ⟨rfl, rfl⟩, hx]
    exact .claim i
  · rw [if_neg hkey, if_neg hkey]
    exact .stay

/-- A deposit neither credits nor debits a pool. -/
theorem step_depositStake (hs : Valid PoolId StakeId CurrencyId s)
    (h : (depositStake p i x).run s = .ok () s') (d : CurrencyId) (q : PoolId) :
    ShareLedger.Step (rounding Pools PoolId StakeId CurrencyId) (ledger s d q : ShareLedger StakeId)
      (ledger s' d q) 0 0 := by
  obtain ⟨-, hledger⟩ := run_depositStake p i x s s' hs h
  rw [hledger]
  by_cases hq : q = p
  · rw [if_pos hq]
    exact .deposit _ _ (Nat.cast_nonneg _)
  · rw [if_neg hq]
    exact .stay

/-- A withdrawal of stake neither credits nor debits a pool. -/
theorem step_withdrawStake (hs : Valid PoolId StakeId CurrencyId s)
    (h : (withdrawStake p i x).run s = .ok () s') (d : CurrencyId) (q : PoolId) :
    ShareLedger.Step (rounding Pools PoolId StakeId CurrencyId) (ledger s d q : ShareLedger StakeId)
      (ledger s' d q) 0 0 := by
  obtain ⟨-, hle, hledger⟩ := run_withdrawStake p i x s s' hs h
  rw [hledger]
  by_cases hq : q = p
  · subst hq
    rw [if_pos rfl]
    exact .withdraw _ _ (Nat.cast_nonneg _) (hle d)
  · rw [if_neg hq]
    exact .stay

end LawfulRewardsApi

namespace Rewards

open FixedPointNumber LawfulFixedPoint

variable {PoolId StakeId CurrencyId F : Type} [DecidableEq PoolId] [DecidableEq StakeId]
  [DecidableEq CurrencyId] [FixedPointNumber F] [LawfulFixedPoint F]
  {s s' : Rewards PoolId StakeId CurrencyId F} {p : PoolId} {i : StakeId} {c : CurrencyId}
  {cs : List CurrencyId} {g : CurrencyId → ShareLedger StakeId}

instance [RewardConfig PoolId StakeId CurrencyId] :
    RewardsApi (Rewards PoolId StakeId CurrencyId F) PoolId StakeId CurrencyId where
  rewardCurrenciesLen s p := (s.rewardCurrencies p).length
  distributeReward := Rewards.distributeReward
  withdrawReward := Rewards.withdrawReward
  depositStake := Rewards.depositStake
  withdrawStake := Rewards.withdrawStake

omit [DecidableEq StakeId] [DecidableEq CurrencyId] in
private theorem Changes.shares_eq (h : Changes p cs g s s') (d : CurrencyId) (q : PoolId) :
    s'.shares d q = if q = p then g d else s.shares d q := by
  by_cases hq : q = p
  · rw [if_pos hq, hq, h.pool]
  · rw [if_neg hq, h.others d q hq]

omit [DecidableEq StakeId] in
private theorem run_distributeReward [RewardConfig PoolId StakeId CurrencyId] {x : ℕ}
    (hs : Tracked s)
    (h : (Rewards.distributeReward p c x).run s = .ok () s') : Tracked s' ∧
      (x ≠ 0 → (s.shares c p).total ≠ 0) ∧ ∀ d q, s'.shares d q =
        if d = c ∧ q = p ∧ x ≠ 0 then (s.shares d q).spread (rounding F) x
        else s.shares d q := by
  simp only [Rewards.distributeReward, toFixed, Call.run_bind_eq_ok, Call.run_ofOption_eq_ok] at h
  obtain ⟨reward, _, ⟨hreward, rfl⟩, h⟩ := h
  have hvalue : toRat reward = x := by
    rw [toRat_fromInteger hreward]
    rfl
  by_cases hx : x = 0
  · have hzero : reward = 0 := by
      rw [hx, Nat.cast_zero] at hvalue
      exact toRat_eq_zero.mp hvalue
    rw [distributeRewardFixed, if_pos hzero] at h
    obtain ⟨-, rfl⟩ := Call.run_pure_eq_ok.mp h
    refine ⟨hs, fun h => absurd hx h, fun d q => ?_⟩
    rw [if_neg fun h => h.2.2 hx]
  · have hne : reward ≠ 0 := by
      intro hzero
      rw [hzero, toRat_zero] at hvalue
      exact hx (by exact_mod_cast hvalue.symm)
    obtain ⟨htotal, -, hchanges⟩ := run_distributeRewardFixed hs h hne
    refine ⟨hchanges.tracked, fun _ h => htotal (toRat_eq_zero.mp h), fun d q => ?_⟩
    rw [hchanges.shares_eq, hvalue]
    by_cases hq : q = p
    · rw [if_pos hq, hq]
      by_cases hd : d = c
      · rw [if_pos hd, if_pos ⟨hd, rfl, hx⟩]
      · rw [if_neg hd, if_neg fun h => hd h.1]
    · rw [if_neg hq, if_neg fun h => hq h.2.1]

omit [DecidableEq StakeId] [LawfulFixedPoint F] in
private theorem Tracked.withCurrency (hs : Tracked s) : Tracked { s with
    rewardCurrencies := Function.update s.rewardCurrencies p
      (withCurrency c (s.rewardCurrencies p)) } where
  nodup q := by
    by_cases hq : q = p
    · subst hq
      simpa using nodup_withCurrency (hs.nodup q)
    · simpa [hq] using hs.nodup q
  perToken d q hd := by
    by_cases hq : q = p
    · subst hq
      have hd' : d ∉ Rewards.withCurrency c (s.rewardCurrencies q) := by simpa using hd
      exact hs.perToken d q fun hmem => hd' (mem_withCurrency.mpr (.inl hmem))
    · exact hs.perToken d q (by simpa [hq] using hd)

omit [DecidableEq PoolId] [DecidableEq StakeId] [DecidableEq CurrencyId] [LawfulFixedPoint F] in
private theorem eq_of_checkedAddMut_error {entry : Lens (Rewards PoolId StakeId CurrencyId F) F}
    {amount : F} {e : DispatchError} (h : (checkedAddMut entry amount).run s = .error e s') :
    s' = s := by
  obtain h | ⟨_, t, hget, h⟩ := Call.run_bind_eq_error.mp h
  · cases h
  · obtain ⟨rfl, rfl⟩ := Call.run_get_eq_ok.mp hget
    obtain h | ⟨_, t, hvalue, h⟩ := Call.run_bind_eq_error.mp h
    · exact (Frames.ofOption _ _ : Frames id _).error _ _ _ h
    · cases h

omit [DecidableEq StakeId] [FixedPointNumber F] [LawfulFixedPoint F] in
private theorem rewardPerToken_set {y : F} {d : CurrencyId} {q : PoolId} (h : ¬(d = c ∧ q = p)) :
    ((RewardPerToken c p).set y s).rewardPerToken d q = s.rewardPerToken d q := by
  simp only [RewardPerToken, Function.update_apply]
  by_cases hd : d = c
  · rw [if_pos hd, Function.update_of_ne fun hq => h ⟨hd, hq⟩, hd]
  · rw [if_neg hd]

omit [DecidableEq StakeId] [FixedPointNumber F] [LawfulFixedPoint F] in
private theorem eq_of_trackCurrency_error [RewardConfig PoolId StakeId CurrencyId]
    {e : DispatchError}
    (h : (trackCurrency p c).run s = .error e s') : s' = s := by
  obtain h | ⟨_, t, hget, h⟩ := Call.run_bind_eq_error.mp h
  · cases h
  obtain ⟨rfl, rfl⟩ := Call.run_get_eq_ok.mp hget
  split at h
  · cases h
  · obtain h | ⟨_, t, -, h⟩ := Call.run_bind_eq_error.mp h
    · exact (Frames.ensure _ _ : Frames id _).error _ _ _ h
    · cases h

omit [DecidableEq StakeId] in
/-- A distribution that fails after the reward per token was raised leaves it raised. -/
theorem run_distributeReward_error [RewardConfig PoolId StakeId CurrencyId] {x : ℕ}
    {e : DispatchError} (hs : Tracked s)
    (h : (Rewards.distributeReward p c x).run s = .error e s') : Tracked s' ∧
      ∀ d q, s'.shares d q = s.shares d q ∨ (d = c ∧ q = p ∧ (s.shares d q).total ≠ 0 ∧
        s'.shares d q = (s.shares d q).spread (rounding F) x) := by
  obtain h | ⟨reward, t, hreward, h⟩ := Call.run_bind_eq_error.mp h
  · obtain rfl : s' = s := (Frames.ofOption _ _ : Frames id _).error _ _ _ h
    exact ⟨hs, fun _ _ => .inl rfl⟩
  obtain ⟨hfixed, rfl⟩ := Call.run_ofOption_eq_ok.mp hreward
  have hvalue : toRat reward = x := by
    rw [toRat_fromInteger hfixed]
    rfl
  unfold distributeRewardFixed at h
  split at h
  · cases h
  obtain h | ⟨_, t, hget, h⟩ := Call.run_bind_eq_error.mp h
  · cases h
  obtain ⟨rfl, rfl⟩ := Call.run_get_eq_ok.mp hget
  obtain h | ⟨_, t, hensure, h⟩ := Call.run_bind_eq_error.mp h
  · obtain rfl : s' = s := (Frames.ensure _ _ : Frames id _).error _ _ _ h
    exact ⟨hs, fun _ _ => .inl rfl⟩
  obtain ⟨htotal, rfl⟩ := Call.run_ensure_eq_ok.mp hensure
  obtain h | ⟨_, t, htrack, h⟩ := Call.run_bind_eq_error.mp h
  · obtain rfl := eq_of_trackCurrency_error h
    exact ⟨hs, fun _ _ => .inl rfl⟩
  obtain ⟨-, rfl⟩ := run_trackCurrency htrack
  obtain h | ⟨perToken, t, hofOption, h⟩ := Call.run_bind_eq_error.mp h
  · obtain rfl : s' = _ := (Frames.ofOption _ _ : Frames id _).error _ _ _ h
    exact ⟨hs.withCurrency, fun _ _ => .inl rfl⟩
  obtain ⟨hdiv, rfl⟩ := Call.run_ofOption_eq_ok.mp hofOption
  obtain h | ⟨y, t, hmut, h⟩ := Call.run_bind_eq_error.mp h
  · obtain rfl := eq_of_checkedAddMut_error h
    exact ⟨hs.withCurrency, fun _ _ => .inl rfl⟩
  obtain ⟨hadd, rfl⟩ := run_checkedAddMut_eq_ok.mp hmut
  obtain h | ⟨_, t, -, h⟩ := Call.run_bind_eq_error.mp h
  · obtain rfl := eq_of_checkedAddMut_error h
    have hperToken := toRat_add hadd
    rw [toRat_div hdiv, hvalue] at hperToken
    have htracked : Tracked { s with
        rewardCurrencies := Function.update s.rewardCurrencies p
          (Rewards.withCurrency c (s.rewardCurrencies p)) } := hs.withCurrency
    refine ⟨⟨htracked.nodup, fun d q hd => ?_⟩, fun d q => ?_⟩
    · have hold := htracked.perToken d q hd
      by_cases hkey : d = c ∧ q = p
      · obtain ⟨rfl, rfl⟩ := hkey
        have hd' : d ∉ Rewards.withCurrency d (s.rewardCurrencies q) := by
          simpa [RewardPerToken] using hd
        exact absurd (mem_withCurrency.mpr (.inr rfl)) hd'
      · rw [rewardPerToken_set hkey]
        exact hold
    · by_cases hkey : d = c ∧ q = p
      · obtain ⟨rfl, rfl⟩ := hkey
        refine .inr ⟨rfl, rfl, fun h => htotal (toRat_eq_zero.mp h), ?_⟩
        ext j
        · rfl
        · rfl
        · simpa [shares, RewardPerToken, ShareLedger.spread] using hperToken
        · rfl
      · refine .inl ?_
        ext j
        · rfl
        · rfl
        · exact congrArg toRat (rewardPerToken_set hkey)
        · rfl
  · cases h

private theorem run_withdrawReward {x : ℕ} (hs : Tracked s)
    (h : (Rewards.withdrawReward p i c).run s = .ok x s') : Tracked s' ∧
      (x : ℤ) = (s.shares c p).payable (rounding F) i ∧ ∀ d q, s'.shares d q =
        if d = c ∧ q = p then (s.shares d q).claim (rounding F) i else s.shares d q := by
  simp only [Rewards.withdrawReward, Call.run_bind_eq_ok, Call.run_ofOption_eq_ok, toBalance] at h
  obtain ⟨reward, _, hwithdraw, hreward, rfl⟩ := h
  obtain ⟨rfl, hchanges⟩ := run_withdrawRewardFixed hs hwithdraw
  refine ⟨hchanges.tracked, ?_, fun d q => ?_⟩
  · split at hreward
    · rw [← Option.some.inj hreward]
      omega
    · cases hreward
  · rw [hchanges.shares_eq]
    by_cases hq : q = p
    · rw [if_pos hq, hq]
      by_cases hd : d = c
      · rw [if_pos hd, if_pos ⟨hd, rfl⟩]
      · rw [if_neg hd, if_neg fun h => hd h.1]
    · rw [if_neg hq, if_neg fun h => hq h.2]

private theorem run_depositStake {x : ℕ} (hs : Tracked s)
    (h : (Rewards.depositStake p i x).run s = .ok () s') : Tracked s' ∧
      ∀ d q, s'.shares d q =
        if q = p then (s.shares d q).deposit (rounding F) i x else s.shares d q := by
  simp only [Rewards.depositStake, toFixed, Call.run_bind_eq_ok, Call.run_ofOption_eq_ok] at h
  obtain ⟨amount, _, ⟨hamount, rfl⟩, h⟩ := h
  have hvalue : toRat amount = x := by
    rw [toRat_fromInteger hamount]
    rfl
  have hchanges := run_depositStakeFixed hs h
  refine ⟨hchanges.tracked, fun d q => ?_⟩
  rw [hchanges.shares_eq, hvalue]
  by_cases hq : q = p
  · rw [if_pos hq, if_pos hq, hq]
  · rw [if_neg hq, if_neg hq]

private theorem run_withdrawStake {x : ℕ} (hs : Tracked s)
    (h : (Rewards.withdrawStake p i x).run s = .ok () s') : Tracked s' ∧
      (∀ d, (x : ℚ) ≤ (s.shares d p).stake i) ∧ ∀ d q, s'.shares d q =
        if q = p then (s.shares d q).withdraw (rounding F) i x else s.shares d q := by
  simp only [Rewards.withdrawStake, toFixed, Call.run_bind_eq_ok, Call.run_ofOption_eq_ok] at h
  obtain ⟨amount, _, ⟨hamount, rfl⟩, h⟩ := h
  have hvalue : toRat amount = x := by
    rw [toRat_fromInteger hamount]
    rfl
  obtain ⟨hle, hchanges⟩ := run_withdrawStakeFixed hs h
  refine ⟨hchanges.tracked, fun d => ?_, fun d q => ?_⟩
  · rw [← hvalue]
    exact toRat_le_iff.mpr hle
  · rw [hchanges.shares_eq, hvalue]
    by_cases hq : q = p
    · rw [if_pos hq, if_pos hq, hq]
    · rw [if_neg hq, if_neg hq]

/-- The reward pallet keeps the ledgers that it reads as. -/
instance [RewardConfig PoolId StakeId CurrencyId] :
    LawfulRewardsApi (Rewards PoolId StakeId CurrencyId F) where
  rounding := LawfulFixedPoint.rounding F
  ledger := shares
  Valid := Tracked
  run_distributeReward _ _ _ _ _ := Rewards.run_distributeReward
  run_distributeReward_error _ _ _ _ _ _ := Rewards.run_distributeReward_error
  run_withdrawReward _ _ _ _ _ _ := Rewards.run_withdrawReward
  run_depositStake _ _ _ _ _ := Rewards.run_depositStake
  run_withdrawStake _ _ _ _ _ := Rewards.run_withdrawStake

end Rewards

end Interbtc
