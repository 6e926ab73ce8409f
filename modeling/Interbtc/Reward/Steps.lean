import Interbtc.Core.Run
import Interbtc.Core.ShareLedger
import Interbtc.Reward.Pallet
import Interbtc.Staking.Refinement

/-!
# What one call on the reward pallet does

Read as rational numbers, a pool and a currency are a ledger of shares. A successful call
is the operation of that name on the ledgers of its pool, and leaves every other pool alone.
-/

namespace Interbtc.Rewards

open Core FixedPointNumber LawfulFixedPoint

variable {PoolId StakeId CurrencyId F : Type} [DecidableEq PoolId] [DecidableEq StakeId]
  [DecidableEq CurrencyId] [FixedPointNumber F] [LawfulFixedPoint F]
  {s s' t : Rewards PoolId StakeId CurrencyId F} {p q : PoolId} {i j : StakeId} {c d : CurrencyId}
  {a : F} {cs : List CurrencyId} {u : Unit}

/-- The shares of one pool, and the rewards in one currency. -/
def shares (s : Rewards PoolId StakeId CurrencyId F) (c : CurrencyId) (p : PoolId) :
    ShareLedger StakeId where
  total := toRat (s.totalStake p)
  stake i := toRat (s.stake p i)
  perToken := toRat (s.rewardPerToken c p)
  tally i := toRat (s.rewardTally c p i)

/-- A currency that is not tracked in a pool has not been distributed in it. -/
structure Tracked (s : Rewards PoolId StakeId CurrencyId F) : Prop where
  nodup : ∀ p, (s.rewardCurrencies p).Nodup
  perToken : ∀ c p, c ∉ s.rewardCurrencies p → s.rewardPerToken c p = 0

omit [DecidableEq PoolId] [DecidableEq StakeId] [DecidableEq CurrencyId]
  [LawfulFixedPoint F] in
/-- At first there are no reward currencies. -/
theorem Tracked.default : Tracked (.default : Rewards PoolId StakeId CurrencyId F) where
  nodup _ := List.nodup_nil
  perToken _ _ _ := rfl

omit [DecidableEq PoolId] [DecidableEq StakeId] [DecidableEq CurrencyId]
  [LawfulFixedPoint F] in
private theorem Tracked.of_eq (h : Tracked s)
    (hcurrencies : s'.rewardCurrencies = s.rewardCurrencies)
    (hper : s'.rewardPerToken = s.rewardPerToken) : Tracked s' where
  nodup p := by
    rw [hcurrencies]
    exact h.nodup p
  perToken c p hc := by
    rw [hper]
    exact h.perToken c p (hcurrencies ▸ hc)

/-! ## Tallies -/

/-- Some tallies of one stake have changed, and nothing else. -/
structure Tallied (cs : List CurrencyId) (p : PoolId) (i : StakeId) (δ : CurrencyId → ℚ)
    (s s' : Rewards PoolId StakeId CurrencyId F) : Prop where
  totalStake : s'.totalStake = s.totalStake
  stake : s'.stake = s.stake
  rewardPerToken : s'.rewardPerToken = s.rewardPerToken
  rewardCurrencies : s'.rewardCurrencies = s.rewardCurrencies
  tally : ∀ c q j, toRat (s'.rewardTally c q j) =
    toRat (s.rewardTally c q j) + if c ∈ cs ∧ q = p ∧ j = i then δ c else 0

omit [DecidableEq PoolId] [DecidableEq StakeId] [DecidableEq CurrencyId] in
private theorem Tallied.cons [DecidableEq PoolId] [DecidableEq StakeId] [DecidableEq CurrencyId]
    {δ : CurrencyId → ℚ} (hd : d ∉ cs) (h : Tallied [d] p i δ s t)
    (h' : Tallied cs p i δ t s') : Tallied (d :: cs) p i δ s s' where
  totalStake := h'.totalStake.trans h.totalStake
  stake := h'.stake.trans h.stake
  rewardPerToken := h'.rewardPerToken.trans h.rewardPerToken
  rewardCurrencies := h'.rewardCurrencies.trans h.rewardCurrencies
  tally c q j := by
    rw [h'.tally, h.tally]
    by_cases hc : c = d
    · subst hc
      simp [hd]
    · simp [hc]

private theorem tallied_set {x : F} {y : ℚ} (hx : toRat x = toRat (s.rewardTally d p i) + y) :
    Tallied [d] p i (fun _ => y) s ((RewardTally d p i).set x s) where
  totalStake := rfl
  stake := rfl
  rewardPerToken := rfl
  rewardCurrencies := rfl
  tally c q j := by
    by_cases hc : c = d
    · subst hc
      by_cases hq : q = p
      · subst hq
        by_cases hj : j = i
        · subst hj
          simpa [RewardTally] using hx
        · simp [RewardTally, hj]
      · simp [RewardTally, hq]
    · simp [RewardTally, hc]

private theorem run_addRewardTally (h : (addRewardTally p i a d).run s = .ok u s') :
    Tallied [d] p i (fun c => (rounding F).round (toRat (s.rewardPerToken c p) * toRat a)) s s' := by
  simp only [addRewardTally, Call.run_bind_eq_ok, Call.run_get_eq_ok, Call.run_ofOption_eq_ok,
    run_checkedAddMut_eq_ok, Call.run_pure_eq_ok] at h
  obtain ⟨_, _, ⟨rfl, rfl⟩, m, _, ⟨hm, rfl⟩, x, _, ⟨hx, rfl⟩, -, rfl⟩ := h
  have hx' := toRat_add hx
  rw [toRat_mul hm] at hx'
  have ht := tallied_set hx'
  refine ⟨ht.totalStake, ht.stake, ht.rewardPerToken, ht.rewardCurrencies, fun c q j => ?_⟩
  rw [ht.tally]
  by_cases hc : c = d
  · rw [hc]
  · simp [hc]

private theorem run_subRewardTally (h : (subRewardTally p i a d).run s = .ok u s') :
    Tallied [d] p i (fun c => -(rounding F).round (toRat (s.rewardPerToken c p) * toRat a)) s
      s' := by
  simp only [subRewardTally, Call.run_bind_eq_ok, Call.run_get_eq_ok, Call.run_ofOption_eq_ok,
    run_checkedSubMut_eq_ok, Call.run_pure_eq_ok] at h
  obtain ⟨_, _, ⟨rfl, rfl⟩, m, _, ⟨hm, rfl⟩, x, _, ⟨hx, rfl⟩, -, rfl⟩ := h
  have hx' := toRat_sub hx
  rw [toRat_mul hm, sub_eq_add_neg] at hx'
  have ht := tallied_set hx'
  refine ⟨ht.totalStake, ht.stake, ht.rewardPerToken, ht.rewardCurrencies, fun c q j => ?_⟩
  rw [ht.tally]
  by_cases hc : c = d
  · rw [hc]
  · simp [hc]

/-- A loop over the tracked currencies updates one tally after the other. -/
private theorem run_forM_tallies
    {body : CurrencyId → Call DispatchError (Rewards PoolId StakeId CurrencyId F) Unit}
    (δ : (CurrencyId → PoolId → F) → CurrencyId → ℚ)
    (hbody : ∀ c s s', (body c).run s = .ok () s' → Tallied [c] p i (δ s.rewardPerToken) s s')
    (hnodup : cs.Nodup) {u : PUnit} (h : (cs.forM body).run s = .ok u s') :
    Tallied cs p i (δ s.rewardPerToken) s s' := by
  induction cs generalizing s with
  | nil =>
    obtain ⟨-, rfl⟩ := Call.run_pure_eq_ok.mp h
    exact ⟨rfl, rfl, rfl, rfl, fun c q j => by simp⟩
  | cons d cs ih =>
    obtain ⟨hd, hnodup⟩ := List.nodup_cons.mp hnodup
    obtain ⟨_, t, h₁, h₂⟩ := Call.run_bind_eq_ok.mp h
    have ht := hbody d s t h₁
    have hrest := ih hnodup h₂
    rw [ht.rewardPerToken] at hrest
    exact ht.cons hd hrest

/-! ## Stakes -/

/-- A deposit adds to the stake and to its total. -/
theorem run_depositStakeFixed_stake (h : (depositStakeFixed p i a).run s = .ok u s') :
    ∃ x y, checkedAdd (s.stake p i) a = some x ∧ checkedAdd (s.totalStake p) a = some y ∧
      s'.stake = Function.update s.stake p (Function.update (s.stake p) i x) ∧
      s'.totalStake = Function.update s.totalStake p y := by
  simp only [depositStakeFixed, Call.run_bind_eq_ok, run_checkedAddMut_eq_ok,
    Call.run_get_eq_ok] at h
  obtain ⟨x, _, ⟨hx, rfl⟩, y, _, ⟨hy, rfl⟩, _, _, ⟨rfl, rfl⟩, h⟩ := h
  have hkeeps := Keeps.forM (f := fun s : Rewards PoolId StakeId CurrencyId F =>
    (s.stake, s.totalStake)) (fun c s _ s' h => Prod.ext (run_addRewardTally h).stake
      (run_addRewardTally h).totalStake) _ _ _ _ h
  exact ⟨x, y, hx, hy, congrArg Prod.fst hkeeps, congrArg Prod.snd hkeeps⟩

/-- A withdrawal subtracts from the stake and from its total. -/
theorem run_withdrawStakeFixed_stake (h : (withdrawStakeFixed p i a).run s = .ok u s') :
    ∃ x y, checkedSub (s.stake p i) a = some x ∧ checkedSub (s.totalStake p) a = some y ∧
      s'.stake = Function.update s.stake p (Function.update (s.stake p) i x) ∧
      s'.totalStake = Function.update s.totalStake p y := by
  simp only [withdrawStakeFixed, Call.run_bind_eq_ok, run_checkedSubMut_eq_ok,
    Call.run_get_eq_ok, Call.run_ensure_eq_ok] at h
  obtain ⟨_, _, ⟨rfl, rfl⟩, _, _, ⟨-, rfl⟩, x, _, ⟨hx, rfl⟩, y, _, ⟨hy, rfl⟩, h⟩ := h
  have hkeeps := Keeps.forM (f := fun s : Rewards PoolId StakeId CurrencyId F =>
    (s.stake, s.totalStake)) (fun c s _ s' h => Prod.ext (run_subRewardTally h).stake
      (run_subRewardTally h).totalStake) _ _ _ _ h
  exact ⟨x, y, hx, hy, congrArg Prod.fst hkeeps, congrArg Prod.snd hkeeps⟩

/-! ## Calls -/

/-- The tracked currencies of one pool and its ledgers are now those given, and no other pool has
changed. -/
structure Changes (p : PoolId) (cs : List CurrencyId) (g : CurrencyId → ShareLedger StakeId)
    (s s' : Rewards PoolId StakeId CurrencyId F) : Prop where
  tracked : Tracked s'
  currencies : s'.rewardCurrencies = Function.update s.rewardCurrencies p cs
  pool : ∀ c, s'.shares c p = g c
  others : ∀ c q, q ≠ p → s'.shares c q = s.shares c q

/-- A stake and the total are written, and then the tallies of the tracked currencies. -/
private theorem changes_of_tallied (hs : Tracked s) {x y : F} {δ : CurrencyId → ℚ}
    (hδ : ∀ c, s.rewardPerToken c p = 0 → δ c = 0)
    (h : Tallied (s.rewardCurrencies p) p i δ ((TotalStake p).set y ((Stake p i).set x s)) s') :
    Changes p (s.rewardCurrencies p) (fun c =>
      { total := toRat y
        stake := Function.update (s.shares c p).stake i (toRat x)
        perToken := (s.shares c p).perToken
        tally := Function.update (s.shares c p).tally i ((s.shares c p).tally i + δ c) }) s s' where
  tracked := hs.of_eq h.rewardCurrencies h.rewardPerToken
  currencies := by
    rw [Function.update_eq_self]
    exact h.rewardCurrencies
  pool c := by
    have hperToken : s'.rewardPerToken = s.rewardPerToken := h.rewardPerToken
    ext j
    · simp [shares, h.totalStake, TotalStake]
    · rw [shares, h.stake]
      by_cases hj : j = i
      · subst hj
        simp [TotalStake, Stake]
      · simp [TotalStake, Stake, shares, hj]
    · simp only [shares, hperToken]
    · have htally := h.tally c p j
      have hzero : c ∉ s.rewardCurrencies p → δ c = 0 := fun hc => hδ c (hs.perToken c p hc)
      simp only [shares]
      rw [htally]
      by_cases hj : j = i
      · subst hj
        by_cases hc : c ∈ s.rewardCurrencies p
        · simp [hc, TotalStake, Stake]
        · simp [hc, hzero hc, TotalStake, Stake]
      · simp [hj, TotalStake, Stake]
  others c q hq := by
    have hperToken : s'.rewardPerToken = s.rewardPerToken := h.rewardPerToken
    ext j
    · simp [shares, h.totalStake, TotalStake, Stake, hq]
    · simp [shares, h.stake, TotalStake, Stake, hq]
    · simp only [shares, hperToken]
    · simp [shares, h.tally, TotalStake, Stake, hq]

/-- A deposit changes the ledger of every reward currency. -/
theorem run_depositStakeFixed (hs : Tracked s) (h : (depositStakeFixed p i a).run s = .ok u s') :
    Changes p (s.rewardCurrencies p)
      (fun c => (s.shares c p).deposit (rounding F) i (toRat a)) s s' := by
  simp only [depositStakeFixed, Call.run_bind_eq_ok, run_checkedAddMut_eq_ok,
    Call.run_get_eq_ok] at h
  obtain ⟨x, _, ⟨hx, rfl⟩, y, _, ⟨hy, rfl⟩, _, _, ⟨rfl, rfl⟩, h⟩ := h
  have htallied : Tallied (s.rewardCurrencies p) p i
      (fun c => (rounding F).round (toRat (s.rewardPerToken c p) * toRat a))
      ((TotalStake p).set y ((Stake p i).set x s)) s' :=
    run_forM_tallies (fun r c => (rounding F).round (toRat (r c p) * toRat a))
      (fun c s s' h => run_addRewardTally h) (hs.nodup p) h
  have hchanges := changes_of_tallied hs (fun c hc => by simp only [hc, toRat_zero, zero_mul,
    Rounding.round_zero]) htallied
  refine ⟨hchanges.tracked, hchanges.currencies, fun c => ?_, hchanges.others⟩
  rw [hchanges.pool, toRat_add hx, toRat_add hy]
  rfl

/-- A withdrawal takes no more than is staked. -/
theorem run_withdrawStakeFixed (hs : Tracked s)
    (h : (withdrawStakeFixed p i a).run s = .ok u s') :
    a ≤ s.stake p i ∧
      Changes p (s.rewardCurrencies p)
        (fun c => (s.shares c p).withdraw (rounding F) i (toRat a)) s s' := by
  simp only [withdrawStakeFixed, Call.run_bind_eq_ok, run_checkedSubMut_eq_ok,
    Call.run_get_eq_ok, Call.run_ensure_eq_ok] at h
  obtain ⟨_, _, ⟨rfl, rfl⟩, _, _, ⟨hle, rfl⟩, x, _, ⟨hx, rfl⟩, y, _, ⟨hy, rfl⟩, h⟩ := h
  have htallied : Tallied (s.rewardCurrencies p) p i
      (fun c => -(rounding F).round (toRat (s.rewardPerToken c p) * toRat a))
      ((TotalStake p).set y ((Stake p i).set x s)) s' :=
    run_forM_tallies (fun r c => -(rounding F).round (toRat (r c p) * toRat a))
      (fun c s s' h => run_subRewardTally h) (hs.nodup p) h
  have hchanges := changes_of_tallied hs (fun c hc => by simp only [hc, toRat_zero, zero_mul,
    Rounding.round_zero, neg_zero]) htallied
  refine ⟨hle, hchanges.tracked, hchanges.currencies, fun c => ?_, hchanges.others⟩
  rw [hchanges.pool, toRat_sub hx, toRat_sub hy, ← sub_eq_add_neg]
  rfl

/-- The tracked currencies once `c` is distributed. -/
def withCurrency (c : CurrencyId) (cs : List CurrencyId) : List CurrencyId :=
  if c ∈ cs then cs else cs ++ [c]

/-- A currency that is added belongs to the list. -/
theorem mem_withCurrency : d ∈ withCurrency c cs ↔ d ∈ cs ∨ d = c := by
  unfold withCurrency
  split
  · rename_i hc
    constructor
    · exact .inl
    · rintro (hd | rfl)
      · exact hd
      · exact hc
  · simp

/-- No currency is listed twice. -/
theorem nodup_withCurrency (h : cs.Nodup) : (withCurrency c cs).Nodup := by
  unfold withCurrency
  split
  · exact h
  · rename_i hc
    rw [← List.concat_eq_append]
    exact h.concat hc

omit [FixedPointNumber F] [LawfulFixedPoint F] [DecidableEq StakeId] in
/-- A currency is listed, or added while there is room. -/
theorem run_trackCurrency [RewardConfig PoolId StakeId CurrencyId]
    (h : (trackCurrency p c).run s = .ok u s') :
    (c ∈ s.rewardCurrencies p ∨ (s.rewardCurrencies p).length <
        RewardConfig.maxRewardCurrencies PoolId StakeId CurrencyId) ∧
      s' = { s with
        rewardCurrencies := Function.update s.rewardCurrencies p
          (withCurrency c (s.rewardCurrencies p)) } := by
  simp only [trackCurrency, Call.run_bind_eq_ok, Call.run_get_eq_ok, Call.run_ite_eq_ok,
    Call.run_pure_eq_ok, Call.run_ensure_eq_ok, Call.run_set_eq_ok] at h
  obtain ⟨_, _, ⟨rfl, rfl⟩, ⟨hc, -, rfl⟩ | ⟨hc, _, _, ⟨hlt, rfl⟩, rfl⟩⟩ := h
  · exact ⟨.inl hc, by simp [withCurrency, hc]⟩
  · exact ⟨.inr hlt, by simp [withCurrency, hc]⟩

omit [DecidableEq StakeId] in
/-- Only the reward in the currency that is distributed grows. -/
theorem run_distributeRewardFixed [RewardConfig PoolId StakeId CurrencyId] (hs : Tracked s)
    (h : (distributeRewardFixed p c a).run s = .ok u s') (ha : a ≠ 0) :
    s.totalStake p ≠ 0 ∧
      (c ∈ s.rewardCurrencies p ∨ (s.rewardCurrencies p).length <
        RewardConfig.maxRewardCurrencies PoolId StakeId CurrencyId) ∧
      Changes p (withCurrency c (s.rewardCurrencies p)) (fun d =>
        if d = c then (s.shares d p).spread (rounding F) (toRat a) else s.shares d p) s s' := by
  simp only [distributeRewardFixed, if_neg ha, Call.run_bind_eq_ok, run_checkedAddMut_eq_ok,
    Call.run_get_eq_ok, Call.run_ensure_eq_ok, Call.run_ofOption_eq_ok, Call.run_pure_eq_ok] at h
  obtain ⟨_, _, ⟨rfl, rfl⟩, _, _, ⟨htotal, rfl⟩, _, t, htrack, x, _, ⟨hx, rfl⟩, y, _, ⟨hy, rfl⟩,
    z, _, ⟨-, rfl⟩, -, rfl⟩ := h
  obtain ⟨hroom, rfl⟩ := run_trackCurrency htrack
  refine ⟨htotal, hroom, ⟨fun q => ?_, fun d q hd => ?_⟩, rfl, fun d => ?_, fun d q hq => ?_⟩
  · by_cases hq : q = p
    · subst hq
      simpa [TotalRewards, RewardPerToken] using nodup_withCurrency (hs.nodup q)
    · simpa [TotalRewards, RewardPerToken, hq] using hs.nodup q
  · by_cases hq : q = p
    · subst hq
      have hd' : d ∉ withCurrency c (s.rewardCurrencies q) := by
        simpa [TotalRewards, RewardPerToken] using hd
      obtain ⟨hmem, hdc⟩ := not_or.mp (fun h => hd' (mem_withCurrency.mpr h))
      have hold := hs.perToken d q hmem
      simpa [TotalRewards, RewardPerToken, hdc] using hold
    · have hd' : d ∉ s.rewardCurrencies q := by
        simpa [TotalRewards, RewardPerToken, hq] using hd
      have hold := hs.perToken d q hd'
      by_cases hdc : d = c
      · subst hdc
        simpa [TotalRewards, RewardPerToken, hq] using hold
      · simpa [TotalRewards, RewardPerToken, hdc] using hold
  · by_cases hdc : d = c
    · subst hdc
      rw [if_pos rfl]
      have hperToken := toRat_add hy
      rw [toRat_div hx] at hperToken
      ext j
      · rfl
      · rfl
      · simpa [shares, TotalRewards, RewardPerToken, ShareLedger.spread] using hperToken
      · rfl
    · rw [if_neg hdc]
      ext j
      · rfl
      · rfl
      · simp [shares, TotalRewards, RewardPerToken, hdc]
      · rfl
  · ext j
    · rfl
    · rfl
    · by_cases hdc : d = c
      · subst hdc
        simp [shares, TotalRewards, RewardPerToken, hq]
      · simp [shares, TotalRewards, RewardPerToken, hdc]
    · rfl

omit [DecidableEq PoolId] [DecidableEq StakeId] [DecidableEq CurrencyId] in
private theorem computeReward_eq_ok {x : ℤ} (h : s.computeReward p i c = .ok x) :
    x = (s.shares c p).payable (rounding F) i := by
  simp only [computeReward, except_bind_eq_ok, okOr_eq_ok] at h
  obtain ⟨m, hm, y, hy, hx⟩ := h
  rw [truncateToInner_eq hx, toRat_sub hy, toRat_mul hm]
  rfl

/-- A withdrawal of the reward pays what is payable. -/
theorem run_withdrawRewardFixed (hs : Tracked s) {x : ℤ}
    (h : (withdrawRewardFixed p i c).run s = .ok x s') :
    x = (s.shares c p).payable (rounding F) i ∧ Changes p (s.rewardCurrencies p) (fun d =>
      if d = c then (s.shares d p).claim (rounding F) i else s.shares d p) s s' := by
  simp only [withdrawRewardFixed, Call.run_bind_eq_ok, run_checkedSubMut_eq_ok,
    Call.run_get_eq_ok, Call.run_ofExcept_eq_ok, Call.run_ofOption_eq_ok, Call.run_modify_eq_ok,
    Call.run_pure_eq_ok] at h
  obtain ⟨_, _, ⟨rfl, rfl⟩, x, _, ⟨hx, rfl⟩, y, _, ⟨-, rfl⟩, z, _, ⟨-, rfl⟩, m, _, ⟨hm, rfl⟩,
    _, _, rfl, rfl, rfl⟩ := h
  refine ⟨computeReward_eq_ok hx, hs.of_eq rfl rfl, (Function.update_eq_self _ _).symm,
    fun d => ?_, fun d q hq => ?_⟩
  · by_cases hdc : d = c
    · subst hdc
      rw [if_pos rfl]
      have htally := toRat_mul hm
      ext j
      · rfl
      · rfl
      · rfl
      · by_cases hj : j = i
        · subst hj
          simpa [shares, RewardTally, TotalRewards, ShareLedger.claim] using htally
        · simp [shares, RewardTally, TotalRewards, ShareLedger.claim, hj]
    · rw [if_neg hdc]
      ext j
      · rfl
      · rfl
      · rfl
      · simp [shares, RewardTally, TotalRewards, hdc]
  · ext j
    · rfl
    · rfl
    · rfl
    · by_cases hdc : d = c
      · subst hdc
        simp [shares, RewardTally, TotalRewards, hq]
      · simp [shares, RewardTally, TotalRewards, hdc]

omit [DecidableEq PoolId] [DecidableEq StakeId] [DecidableEq CurrencyId] in
/-- The stake of an account, truncated. -/
theorem getStake_eq_ok {x : ℕ} (h : s.getStake p i = .ok x) :
    (x : ℤ) = truncate (toRat (s.stake p i)) := by
  simp only [getStake, except_bind_eq_ok, okOr_eq_ok, toBalance] at h
  obtain ⟨y, hy, hx⟩ := h
  rw [← truncateToInner_eq hy]
  split at hx
  · rw [← Option.some.inj hx]
    omega
  · cases hx

/-- Setting a stake deposits what is missing, or withdraws what is too much. -/
theorem run_setStake (hs : Tracked s) {amount : ℕ}
    (h : (setStake p i amount).run s = .ok u s') :
    (∃ x : ℚ, 0 ≤ x ∧ x = amount - truncate (toRat (s.stake p i)) ∧
      Changes p (s.rewardCurrencies p)
        (fun c => (s.shares c p).deposit (rounding F) i x) s s') ∨
    (∃ x : ℚ, 0 ≤ x ∧ x = truncate (toRat (s.stake p i)) - amount ∧ x ≤ toRat (s.stake p i) ∧
      Changes p (s.rewardCurrencies p)
        (fun c => (s.shares c p).withdraw (rounding F) i x) s s') ∨
    ((amount : ℤ) = truncate (toRat (s.stake p i)) ∧ s' = s) := by
  simp only [setStake, depositStake, withdrawStake, toFixed, Call.run_bind_eq_ok,
    Call.run_get_eq_ok, Call.run_ofExcept_eq_ok, Call.run_ofOption_eq_ok, Call.run_ite_eq_ok,
    Call.run_pure_eq_ok] at h
  obtain ⟨_, _, ⟨rfl, rfl⟩, current, _, ⟨hcurrent, rfl⟩, h⟩ := h
  have hget := getStake_eq_ok hcurrent
  rcases h with ⟨hlt, a, _, ⟨ha, rfl⟩, h⟩ | ⟨hge, ⟨hlt, a, _, ⟨ha, rfl⟩, h⟩ | ⟨hle, -, rfl⟩⟩
  · have ha' := toRat_fromInteger ha
    refine .inl ⟨toRat a, ?_, ?_, run_depositStakeFixed hs h⟩
    · rw [ha']
      exact_mod_cast Nat.zero_le _
    · rw [ha', ← hget]
      push_cast [hlt.le]
      ring
  · have ha' := toRat_fromInteger ha
    obtain ⟨hle, hchanges⟩ := run_withdrawStakeFixed hs h
    refine .inr (.inl ⟨toRat a, ?_, ?_, toRat_le_iff.mpr hle, hchanges⟩)
    · rw [ha']
      exact_mod_cast Nat.zero_le _
    · rw [ha', ← hget]
      push_cast [hlt.le]
      ring
  · exact .inr (.inr ⟨by omega, rfl⟩)

/-! ## Operations -/

/-- A call on the pallet, its amount not negative. -/
inductive Op (PoolId StakeId CurrencyId F : Type) [FixedPointNumber F]
  | depositStake (poolId : PoolId) (stakeId : StakeId) (amount : {a : F // 0 ≤ a})
  | withdrawStake (poolId : PoolId) (stakeId : StakeId) (amount : {a : F // 0 ≤ a})
  | setStake (poolId : PoolId) (stakeId : StakeId) (amount : ℕ)
  | distributeReward (poolId : PoolId) (currencyId : CurrencyId) (reward : {a : F // 0 ≤ a})
  | withdrawReward (poolId : PoolId) (stakeId : StakeId) (currencyId : CurrencyId)

variable [RewardConfig PoolId StakeId CurrencyId]

namespace Op

/-- The pool an operation is about. -/
def poolId : Op PoolId StakeId CurrencyId F → PoolId
  | .depositStake p _ _ | .withdrawStake p _ _ | .setStake p _ _ | .distributeReward p _ _
  | .withdrawReward p _ _ => p

/-- The call of an operation, its result dropped. -/
def call : Op PoolId StakeId CurrencyId F →
    Call DispatchError (Rewards PoolId StakeId CurrencyId F) Unit
  | .depositStake p i amount => depositStakeFixed p i amount.1
  | .withdrawStake p i amount => withdrawStakeFixed p i amount.1
  | .setStake p i amount => Rewards.setStake p i amount
  | .distributeReward p c reward => distributeRewardFixed p c reward.1
  | .withdrawReward p i c => do let _ ← withdrawRewardFixed p i c

/-- The reward in one currency that an operation distributes in a pool. -/
def distributed (c : CurrencyId) (p : PoolId) (s : Rewards PoolId StakeId CurrencyId F) :
    Op PoolId StakeId CurrencyId F → ℚ
  | .distributeReward q d reward =>
    if d = c ∧ q = p ∧ (distributeRewardFixed q d reward.1).succeeds s = true then
      toRat reward.1
    else 0
  | _ => 0

/-- The reward in one currency that an operation pays to the stakers of a pool. -/
def withdrawn (c : CurrencyId) (p : PoolId) (s : Rewards PoolId StakeId CurrencyId F) :
    Op PoolId StakeId CurrencyId F → ℚ
  | .withdrawReward q i d =>
    if d = c ∧ q = p then (((withdrawRewardFixed q i d).value? s).getD 0 : ℤ) else 0
  | _ => 0

end Op

/-- One operation as a transaction: a failed one changes nothing. -/
def step (s : Rewards PoolId StakeId CurrencyId F) (op : Op PoolId StakeId CurrencyId F) :
    Rewards PoolId StakeId CurrencyId F :=
  op.call.commit s

omit [LawfulFixedPoint F] in
/-- A withdrawal of rewards pays, or changes nothing. -/
theorem step_withdrawReward_cases (s : Rewards PoolId StakeId CurrencyId F) (p : PoolId)
    (i : StakeId) (c : CurrencyId) :
    (∃ x, (withdrawRewardFixed p i c).run s = .ok x (step s (.withdrawReward p i c))) ∨
      ((withdrawRewardFixed p i c).value? s = none ∧ step s (.withdrawReward p i c) = s) := by
  cases hx : (withdrawRewardFixed p i c).run s with
  | ok x t =>
    have hstep : step s (.withdrawReward p i c) = t :=
      Call.commit_of_ok (Call.run_bind_eq_ok.mpr ⟨x, t, hx, rfl⟩)
    exact .inl ⟨x, by rw [hstep]⟩
  | error e t =>
    refine .inr ⟨by rw [Call.value?, hx], ?_⟩
    rcases (Op.withdrawReward p i c).call.commit_cases s with ⟨u, h⟩ | ⟨-, h⟩
    · obtain ⟨y, t', h, -⟩ := Call.run_bind_eq_ok.mp h
      cases hx.symm.trans h
    · exact h

/-- An operation takes one step in the shares of its pool. -/
structure Stepped (op : Op PoolId StakeId CurrencyId F)
    (s s' : Rewards PoolId StakeId CurrencyId F) : Prop where
  tracked : Tracked s'
  pool : ∀ c, ShareLedger.Step (rounding F) (s.shares c op.poolId) (s'.shares c op.poolId)
    (op.distributed c op.poolId s) (op.withdrawn c op.poolId s)
  others : ∀ c q, q ≠ op.poolId → s'.shares c q = s.shares c q

private theorem stepped_of_changes {op : Op PoolId StakeId CurrencyId F}
    {g : CurrencyId → ShareLedger StakeId} (h : Changes op.poolId cs g s s')
    (hg : ∀ c, ShareLedger.Step (rounding F) (s.shares c op.poolId) (g c)
      (op.distributed c op.poolId s) (op.withdrawn c op.poolId s)) : Stepped op s s' where
  tracked := h.tracked
  pool c := by
    rw [h.pool]
    exact hg c
  others := h.others

private theorem stepped_refl {op : Op PoolId StakeId CurrencyId F} (hs : Tracked s)
    (hdistributed : ∀ c, op.distributed c op.poolId s = 0)
    (hwithdrawn : ∀ c, op.withdrawn c op.poolId s = 0) : Stepped op s s where
  tracked := hs
  pool c := by
    rw [hdistributed, hwithdrawn]
    exact .stay
  others _ _ _ := rfl

/-- Every call is a step of the ledgers. -/
theorem step_stepped (hs : Tracked s) (op : Op PoolId StakeId CurrencyId F) :
    Stepped op s (step s op) := by
  cases op with
  | depositStake p i amount =>
    rcases (Op.depositStake p i amount).call.commit_cases s with ⟨_, h⟩ | ⟨_, h⟩
    · exact stepped_of_changes (run_depositStakeFixed hs h) fun c =>
        .deposit i _ (toRat_nonneg.mpr amount.2)
    · rw [step, h]
      exact stepped_refl hs (fun _ => rfl) fun _ => rfl
  | withdrawStake p i amount =>
    rcases (Op.withdrawStake p i amount).call.commit_cases s with ⟨_, h⟩ | ⟨_, h⟩
    · obtain ⟨hle, hchanges⟩ := run_withdrawStakeFixed hs h
      exact stepped_of_changes hchanges fun c =>
        .withdraw i _ (toRat_nonneg.mpr amount.2) (toRat_le_iff.mpr hle)
    · rw [step, h]
      exact stepped_refl hs (fun _ => rfl) fun _ => rfl
  | setStake p i amount =>
    rcases (Op.setStake p i amount).call.commit_cases s with ⟨_, h⟩ | ⟨_, h⟩
    · rcases run_setStake hs h with ⟨x, hx, -, hchanges⟩ | ⟨x, hx, -, hle, hchanges⟩ | ⟨-, hsame⟩
      · exact stepped_of_changes hchanges fun c => .deposit i x hx
      · exact stepped_of_changes hchanges fun c => .withdraw i x hx hle
      · rw [step, hsame]
        exact stepped_refl hs (fun _ => rfl) fun _ => rfl
    · rw [step, h]
      exact stepped_refl hs (fun _ => rfl) fun _ => rfl
  | distributeReward p d reward =>
    rcases (Op.distributeReward p d reward).call.commit_cases s with ⟨u, h⟩ | ⟨hfails, h⟩
    · have hsucceeds : (distributeRewardFixed p d reward.1).succeeds s = true :=
        Call.succeeds_iff.mpr ⟨u, _, h⟩
      by_cases hzero : reward.1 = 0
      · have hrun : (Op.distributeReward p d reward).call.run s = .ok () s := by
          rw [Op.call, distributeRewardFixed, if_pos hzero]
          rfl
        rw [step, Call.commit_of_ok hrun]
        refine stepped_refl hs (fun c => ?_) fun _ => rfl
        simp [Op.distributed, hzero]
      · obtain ⟨htotal, -, hchanges⟩ := run_distributeRewardFixed hs h hzero
        refine stepped_of_changes hchanges fun c => ?_
        by_cases hc : c = d
        · subst hc
          rw [if_pos rfl, Op.distributed, if_pos ⟨rfl, rfl, hsucceeds⟩]
          exact .spread _ (toRat_nonneg.mpr reward.2) fun h => htotal (toRat_eq_zero.mp h)
        · rw [if_neg hc, Op.distributed, if_neg fun h => hc h.1.symm]
          exact .stay
    · rw [step, h]
      refine stepped_refl hs (fun c => ?_) fun _ => rfl
      rw [Op.distributed, if_neg]
      rintro ⟨-, -, hsucceeds⟩
      exact Bool.false_ne_true (hfails.symm.trans hsucceeds)
  | withdrawReward p i d =>
    rcases step_withdrawReward_cases s p i d with ⟨x, h⟩ | ⟨hnone, h⟩
    · have hvalue := Call.value?_of_ok h
      obtain ⟨hx, hchanges⟩ := run_withdrawRewardFixed hs h
      refine stepped_of_changes hchanges fun c => ?_
      by_cases hc : c = d
      · subst hc
        rw [if_pos rfl, Op.withdrawn, if_pos ⟨rfl, rfl⟩, hvalue, Option.getD_some, hx]
        exact .claim i
      · rw [if_neg hc, Op.withdrawn, if_neg fun h => hc h.1.symm]
        exact .stay
    · rw [h]
      refine stepped_refl hs (fun _ => rfl) fun c => ?_
      rw [Op.withdrawn, hnone, Option.getD_none, Int.cast_zero, ite_self]

end Interbtc.Rewards
