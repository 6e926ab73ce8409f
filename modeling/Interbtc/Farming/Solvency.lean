import Interbtc.Core.Run
import Interbtc.Farming.Effects
import Interbtc.Reward.Solvency

/-!
# Stakes are reserved, and rewards are paid in

The account of a pool holds what the stakers of the pool can claim and what the schedules still
release. Tokens are lost to the stakers only where a schedule is updated or removed: then what
they have not claimed yet is planned for other periods, or goes back to the treasury.
-/

namespace Interbtc.Farming

open Core MultiCurrency RewardsApi FarmingConfig

variable {AccountId CurrencyId Tokens Pools : Type} [DecidableEq AccountId]
  [DecidableEq CurrencyId] [MultiCurrency Tokens AccountId CurrencyId]
  [RewardsApi Pools CurrencyId AccountId CurrencyId] [LawfulRewardsApi Pools]
  {s s' : Farming CurrencyId Tokens Pools} {p c pool reward : CurrencyId} {u : Unit}

/-- The stakes of a pool, and its rewards in one currency. -/
def shares (s : Farming CurrencyId Tokens Pools) (c p : CurrencyId) : ShareLedger AccountId :=
  LawfulRewardsApi.ledger s.rewardPools c p

/-- What a schedule still releases. -/
def scheduled (s : Farming CurrencyId Tokens Pools) (p c : CurrencyId) : ℕ :=
  (s.schedule p c).periodCount * (s.schedule p c).perPeriod

/-- What a pool has to keep of one currency: for what is not claimed yet, and for the schedule. -/
def owed [Fintype AccountId] (s : Farming CurrencyId Tokens Pools) (p c : CurrencyId) : ℚ :=
  ShareLedger.reserve (LawfulRewardsApi.rounding Pools CurrencyId AccountId CurrencyId)
    (s.shares c p) + s.scheduled p c

omit [DecidableEq AccountId] [MultiCurrency Tokens AccountId CurrencyId]
  [RewardsApi Pools CurrencyId AccountId CurrencyId] [LawfulRewardsApi Pools] in
private theorem schedule_setSchedule (schedule : Option RewardSchedule) :
    (s.setSchedule pool reward schedule).schedule p c =
      if p = pool ∧ c = reward then schedule.getD .default else s.schedule p c := by
  rw [Farming.schedule, rewardSchedules_setSchedule]
  split
  · rfl
  · rfl

omit [DecidableEq AccountId] [MultiCurrency Tokens AccountId CurrencyId]
  [RewardsApi Pools CurrencyId AccountId CurrencyId] [LawfulRewardsApi Pools] in
private theorem scheduled_setSchedule_self (schedule : Option RewardSchedule) :
    (s.setSchedule pool reward schedule).scheduled pool reward =
      (schedule.getD .default).periodCount * (schedule.getD .default).perPeriod := by
  rw [scheduled, schedule_setSchedule, if_pos ⟨rfl, rfl⟩]

omit [DecidableEq AccountId] [MultiCurrency Tokens AccountId CurrencyId]
  [RewardsApi Pools CurrencyId AccountId CurrencyId] [LawfulRewardsApi Pools] in
private theorem scheduled_setSchedule_of_ne (h : ¬(p = pool ∧ c = reward))
    (schedule : Option RewardSchedule) :
    (s.setSchedule pool reward schedule).scheduled p c = s.scheduled p c := by
  rw [scheduled, schedule_setSchedule, if_neg h]
  rfl

/-- The pools are valid, their stakes add up, and nothing is locked on their accounts. -/
structure Sound [Fintype AccountId] [FarmingConfig AccountId CurrencyId]
    (s : Farming CurrencyId Tokens Pools) : Prop where
  valid : LawfulRewardsApi.Valid CurrencyId AccountId CurrencyId s.rewardPools
  shares : ∀ c p : CurrencyId, (s.shares c p).Sound
  frozen : ∀ p c : CurrencyId, (balances s.tokens (poolAccountId p : AccountId) c).frozen = 0

/-! ## Blocks -/

section Blocks

variable [Fintype AccountId] [FarmingConfig AccountId CurrencyId]

/-- What the distribution of some schedules changes: no tokens and no stakes, and of what is owed
it only rounds what it distributes. -/
structure Distributes (keys : List (CurrencyId × CurrencyId))
    (s s' : Farming CurrencyId Tokens Pools) : Prop where
  sound : Sound s'
  tokens : s'.tokens = s.tokens
  stake : ∀ c p i, (s'.shares c p).stake i = (s.shares c p).stake i
  others : ∀ p c, (p, c) ∉ keys →
    s'.owed p c = s.owed p c ∧ s'.rewardSchedules p c = s.rewardSchedules p c
  owed : ∀ p c, s'.owed p c ≤
    s.owed p c + (LawfulRewardsApi.rounding Pools CurrencyId AccountId CurrencyId).ulp

private theorem Distributes.refl (hs : Sound s) (keys : List (CurrencyId × CurrencyId)) :
    Distributes keys s s where
  sound := hs
  tokens := rfl
  stake _ _ _ := rfl
  others _ _ _ := ⟨rfl, rfl⟩
  owed _ _ := le_add_of_nonneg_right (Rounding.ulp_nonneg _)

private theorem Distributes.trans {s₁ : Farming CurrencyId Tokens Pools}
    {key : CurrencyId × CurrencyId} {keys : List (CurrencyId × CurrencyId)} (hkey : key ∉ keys)
    (h : Distributes [key] s s₁) (h' : Distributes keys s₁ s') :
    Distributes (key :: keys) s s' where
  sound := h'.sound
  tokens := h'.tokens.trans h.tokens
  stake c p i := (h'.stake c p i).trans (h.stake c p i)
  others p c hnot := by
    obtain ⟨hne, hnot⟩ := not_or.mp (fun hmem => hnot (List.mem_cons.mpr hmem))
    obtain ⟨howed, hschedule⟩ := h.others p c (fun hmem => hne (List.mem_singleton.mp hmem))
    obtain ⟨howed', hschedule'⟩ := h'.others p c hnot
    exact ⟨howed'.trans howed, hschedule'.trans hschedule⟩
  owed p c := by
    by_cases hmem : (p, c) ∈ keys
    · have hne : (p, c) ∉ [key] := by
        intro hkey'
        rw [List.mem_singleton.mp hkey'] at hmem
        exact hkey hmem
      rw [← (h.others p c hne).1]
      exact h'.owed p c
    · rw [(h'.others p c hmem).1]
      exact h.owed p c

private theorem distributes_schedule {entry : (CurrencyId × CurrencyId) × RewardSchedule}
    (hs : Sound s)
    (hcurrent : s.rewardSchedules entry.1.1 entry.1.2 = some entry.2)
    (h : (distributeSchedule entry : FarmingCall CurrencyId Tokens Pools Unit).run s = .ok u s') :
    Distributes [entry.1] s s' := by
  have hulp := (LawfulRewardsApi.rounding Pools CurrencyId AccountId CurrencyId).ulp_nonneg
  have hschedule : s.schedule entry.1.1 entry.1.2 = entry.2 := by
    rw [Farming.schedule, hcurrent]
    rfl
  have hne : ∀ p c, (p, c) ∉ [entry.1] → ¬(p = entry.1.1 ∧ c = entry.1.2) := by
    rintro p c hnot ⟨rfl, rfl⟩
    exact hnot (List.mem_singleton.mpr rfl)
  rcases run_distributeSchedule h with ⟨r, hpos, hrun, rfl⟩ | ⟨-, rfl⟩ | ⟨hzero, rfl⟩
  · obtain ⟨hvalid, -, hledger⟩ :=
      LawfulRewardsApi.run_distributeReward _ _ _ _ _ hs.valid hrun
    have hstep (d q : CurrencyId) : ShareLedger.Step
        (LawfulRewardsApi.rounding Pools CurrencyId AccountId CurrencyId) (s.shares d q) _ _ _ :=
      LawfulRewardsApi.step_distributeReward hs.valid hrun d q
    refine ⟨⟨hvalid, fun d q => (hstep d q).sound (hs.shares d q), hs.frozen⟩, rfl,
      fun d q i => ?_, fun q d hnot => ⟨?_, ?_⟩, fun q d => ?_⟩
    · change (LawfulRewardsApi.ledger r d q).stake i = _
      rw [hledger]
      split
      · rfl
      · rfl
    · have hkey := hne q d hnot
      rw [owed, owed, scheduled_setSchedule_of_ne hkey]
      change ShareLedger.reserve _ (LawfulRewardsApi.ledger r d q) + _ = _
      rw [hledger, if_neg fun h => hkey ⟨h.2.1, h.1⟩]
      rfl
    · rw [rewardSchedules_setSchedule, if_neg (hne q d hnot)]
    · have hreserve := (hstep d q).reserve_le (hs.shares d q)
      rw [owed, owed]
      change ShareLedger.reserve _ (LawfulRewardsApi.ledger r d q) + _ ≤ _
      by_cases hkey : q = entry.1.1 ∧ d = entry.1.2
      · obtain ⟨rfl, rfl⟩ := hkey
        rw [if_pos ⟨rfl, rfl⟩, add_zero] at hreserve
        rw [scheduled_setSchedule_self, scheduled, hschedule]
        have hcount : entry.2.periodCount * entry.2.perPeriod =
            (entry.2.periodCount - 1) * entry.2.perPeriod + entry.2.perPeriod := by
          rw [← Nat.succ_mul, Nat.succ_eq_add_one, Nat.sub_add_cancel hpos]
        rw [hcount, Option.getD_some]
        push_cast
        linarith
      · rw [scheduled_setSchedule_of_ne hkey]
        rw [if_neg fun h => hkey ⟨h.2, h.1⟩, add_zero, add_zero] at hreserve
        change _ + (s.scheduled q d : ℚ) ≤ _
        linarith
  · exact .refl hs _
  · refine ⟨⟨hs.valid, hs.shares, hs.frozen⟩, rfl, fun _ _ _ => rfl, fun q d hnot => ⟨?_, ?_⟩,
      fun q d => ?_⟩
    · rw [owed, owed, scheduled_setSchedule_of_ne (hne q d hnot)]
      rfl
    · rw [rewardSchedules_setSchedule, if_neg (hne q d hnot)]
    · by_cases hkey : q = entry.1.1 ∧ d = entry.1.2
      · obtain ⟨rfl, rfl⟩ := hkey
        rw [owed, owed, scheduled_setSchedule_self, scheduled, hschedule, hzero, Option.getD_none]
        change _ + ((0 * _ : ℕ) : ℚ) ≤ _
        rw [Nat.zero_mul, Nat.zero_mul]
        exact le_add_of_nonneg_right hulp
      · rw [owed, owed, scheduled_setSchedule_of_ne hkey]
        exact le_add_of_nonneg_right hulp

/-- Schedules that were read before are still the same when it is their turn. -/
theorem distributes_schedules {entries : List ((CurrencyId × CurrencyId) × RewardSchedule)}
    (hs : Sound s) (hnodup : (entries.map Prod.fst).Nodup)
    (hcurrent : ∀ entry ∈ entries, s.rewardSchedules entry.1.1 entry.1.2 = some entry.2)
    {v : PUnit} (h : (entries.forM distributeSchedule :
      FarmingCall CurrencyId Tokens Pools PUnit).run s = .ok v s') :
    Distributes (entries.map Prod.fst) s s' := by
  induction entries generalizing s with
  | nil =>
    obtain ⟨-, rfl⟩ := Call.run_pure_eq_ok.mp h
    exact .refl hs _
  | cons entry entries ih =>
    obtain ⟨hentry, hnodup⟩ := List.nodup_cons.mp hnodup
    obtain ⟨_, s₁, hfirst, hrest⟩ := Call.run_bind_eq_ok.mp h
    have hdistributes := distributes_schedule hs (hcurrent entry List.mem_cons_self) hfirst
    refine hdistributes.trans hentry (ih hdistributes.sound hnodup (fun other hother => ?_) hrest)
    have hne : (other.1.1, other.1.2) ∉ [entry.1] := by
      intro hmem
      have hsame : other.1 = entry.1 := List.mem_singleton.mp hmem
      exact hentry (hsame ▸ List.mem_map_of_mem hother)
    rw [(hdistributes.others _ _ hne).2]
    exact hcurrent other (List.mem_cons_of_mem _ hother)

omit [DecidableEq AccountId] [DecidableEq CurrencyId] [MultiCurrency Tokens AccountId CurrencyId]
  [RewardsApi Pools CurrencyId AccountId CurrencyId] [LawfulRewardsApi Pools] [Fintype AccountId]
  [FarmingConfig AccountId CurrencyId] in
/-- The schedules are read in the order of their keys. -/
theorem keys_sublist (keys : List (CurrencyId × CurrencyId)) :
    ((keys.filterMap fun key => (s.rewardSchedules key.1 key.2).map fun schedule =>
      (key, schedule)).map Prod.fst).Sublist keys := by
  induction keys with
  | nil => exact .slnil
  | cons key keys ih =>
    rw [List.filterMap_cons]
    cases hkey : s.rewardSchedules key.1 key.2 with
    | none => exact ih.cons key
    | some schedule => exact ih.cons_cons key

private theorem distributes_onInitialize {now : ℕ} (hs : Sound s)
    (h : (onInitialize AccountId now : FarmingCall CurrencyId Tokens Pools Unit).run s =
      .ok u s') : ∃ keys, Distributes keys s s' := by
  simp only [onInitialize, Call.run_ite_eq_ok, Call.run_bind_eq_ok, Call.run_get_eq_ok,
    Call.run_pure_eq_ok] at h
  rcases h with ⟨-, _, _, ⟨rfl, rfl⟩, h⟩ | ⟨-, -, rfl⟩
  · refine ⟨_, distributes_schedules hs ?_ (fun entry hentry => ?_) h⟩
    · exact (keys_sublist (keyOrder AccountId)).nodup keyOrder_nodup
    · obtain ⟨key, -, hkey⟩ := List.mem_filterMap.mp hentry
      obtain ⟨schedule, hschedule, rfl⟩ := Option.map_eq_some_iff.mp hkey
      exact hschedule
  · exact ⟨[], .refl hs _⟩

end Blocks

/-! ## What a pool is short of -/

section Steps

variable [Fintype AccountId] [FarmingConfig AccountId CurrencyId]

/-- What the stakers of a pool have not claimed yet. -/
def unclaimed (s : Farming CurrencyId Tokens Pools) (p c : CurrencyId) : ℚ :=
  ShareLedger.reserve (LawfulRewardsApi.rounding Pools CurrencyId AccountId CurrencyId)
    (s.shares c p)

/-- What is missing on the account of a pool. -/
def shortfall (s : Farming CurrencyId Tokens Pools) (p c : CurrencyId) : ℚ :=
  max 0 (s.owed p c - s.freeBalance c (poolAccountId p : AccountId))

private theorem Sound.unclaimed_nonneg (hs : Sound s) : 0 ≤ s.unclaimed p c := by
  refine Finset.sum_nonneg fun i _ => le_max_of_le_right (sub_nonneg.mpr ?_)
  exact Rounding.round_le _
    (mul_nonneg ((hs.shares c p).stake_nonneg i) (hs.shares c p).perToken_nonneg)

private theorem owed_le : s.owed p c ≤ s.freeBalance c (poolAccountId p : AccountId) + s.shortfall p
    c := by
  linarith [le_max_right 0 (s.owed p c - s.freeBalance c (poolAccountId p : AccountId)),
    show s.shortfall p c = max 0 (s.owed p c - s.freeBalance c (poolAccountId p : AccountId)) from
      rfl]

private theorem shortfall_le {loss : ℚ} (hloss : 0 ≤ loss)
    (h : s'.owed p c + s.freeBalance c (poolAccountId p : AccountId) ≤
      s.owed p c + s'.freeBalance c (poolAccountId p : AccountId) + loss) :
    s'.shortfall p c ≤ s.shortfall p c + loss := by
  have howed := owed_le (s := s) (p := p) (c := c)
  refine max_le ?_ ?_
  · exact add_nonneg (le_max_left _ _) hloss
  · linarith

/-- What one operation can take from the stakers of a pool: a rounding step, or all that they have
not claimed when the schedule is changed. -/
def loss (p c : CurrencyId) (s : Farming CurrencyId Tokens Pools) :
    FarmingOp AccountId CurrencyId → ℚ
  | .updateRewardSchedule _ pool reward _ _ | .removeRewardSchedule _ pool reward =>
    if FarmingConfig.sort AccountId pool = p ∧ reward = c then s.unclaimed p c else 0
  | .transfer _ _ _ _ => 0
  | _ => (LawfulRewardsApi.rounding Pools CurrencyId AccountId CurrencyId).ulp

private theorem Sound.loss_nonneg (hs : Sound s) (op : FarmingOp AccountId CurrencyId) :
    0 ≤ loss p c s op := by
  have hulp := (LawfulRewardsApi.rounding Pools CurrencyId AccountId CurrencyId).ulp_nonneg
  cases op with
  | updateRewardSchedule =>
    rw [loss]
    split
    · exact hs.unclaimed_nonneg
    · exact le_rfl
  | removeRewardSchedule =>
    rw [loss]
    split
    · exact hs.unclaimed_nonneg
    · exact le_rfl
  | transfer => exact le_rfl
  | onInitialize => exact hulp
  | deposit => exact hulp
  | withdraw => exact hulp
  | claim => exact hulp

private theorem Sound.of_tokens {t : Tokens} (hs : Sound s)
    (hfrozen : ∀ who d, (balances t who d).frozen = (balances s.tokens who d).frozen) :
    Sound { s with tokens := t } where
  valid := hs.valid
  shares := hs.shares
  frozen q d := (hfrozen _ d).trans (hs.frozen q d)

private theorem Sound.setSchedule (hs : Sound s) (schedule : Option RewardSchedule) :
    Sound (s.setSchedule pool reward schedule) where
  valid := hs.valid
  shares := hs.shares
  frozen := hs.frozen

/-! ## Each call -/

section Calls

variable [LawfulMultiCurrency Tokens] {origin : FarmingOrigin AccountId CurrencyId}

/-- After an update the pool lacks exactly what was not claimed before, less what the division
leaves over. -/
theorem owed_updateRewardSchedule {periodCount amount : ℕ}
    (h : (updateRewardSchedule origin pool reward periodCount amount :
      FarmingCall CurrencyId Tokens Pools Unit).run s = .ok u s') :
    s'.owed (FarmingConfig.sort AccountId pool) reward =
      s'.freeBalance reward (poolAccountId (FarmingConfig.sort AccountId pool) : AccountId) +
        (s.unclaimed (FarmingConfig.sort AccountId pool) reward -
          (s'.freeBalance reward (poolAccountId (FarmingConfig.sort AccountId pool) : AccountId) %
            ((s.schedule (FarmingConfig.sort AccountId pool) reward).periodCount + periodCount)
              : ℕ)) := by
  obtain ⟨t, -, rfl⟩ := run_updateRewardSchedule h
  have hdiv := Nat.div_add_mod (balances t
    (poolAccountId (FarmingConfig.sort AccountId pool) : AccountId) reward).free
    ((s.schedule (FarmingConfig.sort AccountId pool) reward).periodCount + periodCount)
  have hcast := congrArg (Nat.cast : ℕ → ℚ) hdiv
  rw [owed, scheduled_setSchedule_self, Option.getD_some, unclaimed]
  change ShareLedger.reserve _ (s.shares reward (FarmingConfig.sort AccountId pool)) + _ =
    ((balances t _ reward).free : ℚ) + (_ - (((balances t _ reward).free % _ : ℕ) : ℚ))
  push_cast at hcast ⊢
  linarith

private theorem step_updateRewardSchedule {periodCount amount : ℕ} (hs : Sound s)
    (h : (updateRewardSchedule origin pool reward periodCount amount :
      FarmingCall CurrencyId Tokens Pools Unit).run s = .ok u s') :
    Sound s' ∧ s'.shortfall p c ≤ s.shortfall p c +
      loss p c s (.updateRewardSchedule origin pool reward periodCount amount) := by
  have howed := owed_updateRewardSchedule h
  obtain ⟨t, htransfer, rfl⟩ := run_updateRewardSchedule h
  refine ⟨(hs.of_tokens htransfer.frozen).setSchedule _, ?_⟩
  rw [loss]
  by_cases hkey : FarmingConfig.sort AccountId pool = p ∧ reward = c
  · obtain ⟨rfl, rfl⟩ := hkey
    rw [if_pos ⟨rfl, rfl⟩]
    have hshort : 0 ≤ s.shortfall (FarmingConfig.sort AccountId pool) reward := le_max_left _ _
    refine max_le (add_nonneg hshort hs.unclaimed_nonneg) ?_
    rw [howed, add_sub_cancel_left]
    exact (sub_le_self _ (Nat.cast_nonneg _)).trans (le_add_of_nonneg_left hshort)
  · have hne : ¬(p = FarmingConfig.sort AccountId pool ∧ c = reward) :=
      fun h => hkey ⟨h.1.symm, h.2.symm⟩
    have hfree := htransfer.le_free (d := c) (poolAccountId p)
      (fun h => treasury_ne_pool p h.2.symm)
    rw [if_neg hkey]
    refine shortfall_le le_rfl ?_
    rw [owed, owed, scheduled_setSchedule_of_ne hne, add_zero]
    exact add_le_add_right (Nat.cast_le.mpr hfree) _

private theorem step_removeRewardSchedule (hs : Sound s)
    (h : (removeRewardSchedule origin pool reward : FarmingCall CurrencyId Tokens Pools Unit).run
      s = .ok u s') :
    Sound s' ∧ s'.shortfall p c ≤ s.shortfall p c +
      loss p c s (.removeRewardSchedule origin pool reward) := by
  obtain ⟨t, htransfer, rfl⟩ := run_removeRewardSchedule h
  refine ⟨(hs.of_tokens htransfer.frozen).setSchedule _, ?_⟩
  rw [loss]
  by_cases hkey : FarmingConfig.sort AccountId pool = p ∧ reward = c
  · obtain ⟨rfl, rfl⟩ := hkey
    rw [if_pos ⟨rfl, rfl⟩]
    have hshort : 0 ≤ s.shortfall (FarmingConfig.sort AccountId pool) reward := le_max_left _ _
    refine max_le (add_nonneg hshort hs.unclaimed_nonneg) ?_
    rw [owed, scheduled_setSchedule_self]
    change ShareLedger.reserve _ (s.shares reward (FarmingConfig.sort AccountId pool)) +
      ((0 * 0 : ℕ) : ℚ) - _ ≤ _
    rw [Nat.zero_mul, Nat.cast_zero, add_zero]
    exact (sub_le_self _ (Nat.cast_nonneg _)).trans (le_add_of_nonneg_left hshort)
  · have hne : ¬(p = FarmingConfig.sort AccountId pool ∧ c = reward) :=
      fun h => hkey ⟨h.1.symm, h.2.symm⟩
    have hfree := htransfer.le_free (d := c) (poolAccountId p)
      (fun h => hne ⟨poolAccountId_injective h.2, h.1⟩)
    rw [if_neg hkey]
    refine shortfall_le le_rfl ?_
    rw [owed, owed, scheduled_setSchedule_of_ne hne, add_zero]
    exact add_le_add_right (Nat.cast_le.mpr hfree) _

omit [LawfulMultiCurrency Tokens] in
/-- A call that changes stakes costs a pool at most one rounding step. -/
theorem step_of_shares {t : Tokens} {r : Pools} (paid : CurrencyId → CurrencyId → ℚ) (hs : Sound s)
    (hvalid : LawfulRewardsApi.Valid CurrencyId AccountId CurrencyId r)
    (hfrozen : ∀ who d, (balances t who d).frozen = (balances s.tokens who d).frozen)
    (hshares : ∀ d q, ShareLedger.Step
      (LawfulRewardsApi.rounding Pools CurrencyId AccountId CurrencyId) (s.shares d q)
      (LawfulRewardsApi.ledger r d q) 0 (paid d q))
    (hfree : ((balances s.tokens (poolAccountId p : AccountId) c).free : ℚ) ≤
      (balances t (poolAccountId p : AccountId) c).free + paid c p) :
    Sound { s with tokens := t, rewardPools := r } ∧
      shortfall { s with tokens := t, rewardPools := r } p c ≤ s.shortfall p c +
        (LawfulRewardsApi.rounding Pools CurrencyId AccountId CurrencyId).ulp := by
  have hreserve := (hshares c p).reserve_le (hs.shares c p)
  refine ⟨⟨hvalid, fun d q => (hshares d q).sound (hs.shares d q),
    fun q d => (hfrozen _ d).trans (hs.frozen q d)⟩, shortfall_le (Rounding.ulp_nonneg _) ?_⟩
  change ShareLedger.reserve _ (LawfulRewardsApi.ledger r c p) + (s.scheduled p c : ℚ) +
    ((balances s.tokens (poolAccountId p : AccountId) c).free : ℚ) ≤
      ShareLedger.reserve _ (s.shares c p) + (s.scheduled p c : ℚ) +
        ((balances t (poolAccountId p : AccountId) c).free : ℚ) + _
  linarith

private theorem step_deposit {lengthRewards : ℕ} (hs : Sound s)
    (h : (deposit origin pool lengthRewards : FarmingCall CurrencyId Tokens Pools Unit).run s =
      .ok u s') :
    Sound s' ∧ s'.shortfall p c ≤ s.shortfall p c +
      loss p c s (.deposit origin pool lengthRewards) := by
  obtain ⟨who, t, r, hstake, hbalances, rfl⟩ := run_deposit h
  have hvalid := (LawfulRewardsApi.run_depositStake _ _ _ _ _ hs.valid hstake).1
  refine step_of_shares (fun _ _ => 0) hs hvalid (fun w d => ?_)
    (LawfulRewardsApi.step_depositStake hs.valid hstake) ?_
  · rw [hbalances, modify_keeps AccountData.frozen rfl]
  · rw [hbalances, modify_apply, if_neg fun h => who.2 p h.2.symm, add_zero]

private theorem step_withdraw {amount lengthRewards : ℕ} (hs : Sound s)
    (h : (withdraw origin pool amount lengthRewards :
      FarmingCall CurrencyId Tokens Pools Unit).run s = .ok u s') :
    Sound s' ∧ s'.shortfall p c ≤ s.shortfall p c +
      loss p c s (.withdraw origin pool amount lengthRewards) := by
  obtain ⟨who, t, r, hstake, -, hbalances, rfl⟩ := run_withdraw h
  have hvalid := (LawfulRewardsApi.run_withdrawStake _ _ _ _ _ hs.valid hstake).1
  refine step_of_shares (fun _ _ => 0) hs hvalid (fun w d => ?_)
    (LawfulRewardsApi.step_withdrawStake hs.valid hstake) ?_
  · rw [hbalances, modify_keeps AccountData.frozen rfl]
  · rw [hbalances, modify_apply, if_neg fun h => who.2 p h.2.symm, add_zero]

private theorem step_claim (hs : Sound s)
    (h : (claim origin pool reward : FarmingCall CurrencyId Tokens Pools Unit).run s = .ok u s') :
    Sound s' ∧ s'.shortfall p c ≤ s.shortfall p c + loss p c s (.claim origin pool reward) := by
  obtain ⟨who, x, t, r, hreward, htransfer, rfl⟩ := run_claim h
  have hvalid := (LawfulRewardsApi.run_withdrawReward _ _ _ _ _ _ hs.valid hreward).1
  refine step_of_shares
    (fun d q => if d = reward ∧ q = FarmingConfig.sort AccountId pool then (x : ℚ) else 0)
    hs hvalid htransfer.frozen (LawfulRewardsApi.step_withdrawReward hs.valid hreward) ?_
  by_cases hkey : c = reward ∧ p = FarmingConfig.sort AccountId pool
  · obtain ⟨rfl, rfl⟩ := hkey
    have hfree := htransfer.free (poolAccountId (FarmingConfig.sort AccountId pool)) c
    have hin : 0 ≤ flow c who.1 x c
        (poolAccountId (FarmingConfig.sort AccountId pool) : AccountId) := flow_nonneg
    rw [flow_self] at hfree
    rw [if_pos ⟨rfl, rfl⟩]
    exact_mod_cast (by omega : (balances s.tokens _ c).free ≤ (balances t _ c).free + x)
  · have hfree := htransfer.le_free (d := c) (poolAccountId p)
      (fun h => hkey ⟨h.1, poolAccountId_injective h.2⟩)
    rw [if_neg hkey, add_zero]
    exact_mod_cast hfree

omit [LawfulMultiCurrency Tokens] in
private theorem step_onInitialize {now : ℕ} (hs : Sound s)
    (h : (onInitialize AccountId now : FarmingCall CurrencyId Tokens Pools Unit).run s =
      .ok u s') :
    Sound s' ∧ s'.shortfall p c ≤ s.shortfall p c +
      loss p c s (.onInitialize now : FarmingOp AccountId CurrencyId) := by
  obtain ⟨keys, hdistributes⟩ := distributes_onInitialize hs h
  refine ⟨hdistributes.sound, shortfall_le (Rounding.ulp_nonneg _) ?_⟩
  have howed : s'.owed p c ≤ s.owed p c +
      loss p c s (.onInitialize now : FarmingOp AccountId CurrencyId) := hdistributes.owed p c
  rw [freeBalance, freeBalance, hdistributes.tokens]
  linarith

/-- What one operation of the pallet can take from the stakers of a pool. -/
theorem step_loss (hs : Sound s) (op : FarmingOp AccountId CurrencyId) :
    Sound (step s op) ∧ (step s op).shortfall p c ≤ s.shortfall p c + loss p c s op := by
  rcases (dispatch op : FarmingCall CurrencyId Tokens Pools Unit).commit_cases s with
    ⟨_, hrun⟩ | ⟨-, hsame⟩
  · cases op with
    | onInitialize now => exact step_onInitialize hs hrun
    | updateRewardSchedule origin pool reward periodCount amount =>
      exact step_updateRewardSchedule hs hrun
    | removeRewardSchedule origin pool reward => exact step_removeRewardSchedule hs hrun
    | deposit origin pool lengthRewards => exact step_deposit hs hrun
    | withdraw origin pool amount lengthRewards => exact step_withdraw hs hrun
    | claim origin pool reward => exact step_claim hs hrun
    | transfer who dest currencyId amount =>
      obtain ⟨t, htransfer, hstep⟩ := run_withTokens.mp hrun
      have hmoves := run_transfer htransfer
      rw [step, ← hstep]
      refine ⟨hs.of_tokens hmoves.frozen, shortfall_le le_rfl ?_⟩
      have hfree := hmoves.le_free (d := c) (poolAccountId p)
        (fun h => who.2 p h.2.symm)
      rw [loss, add_zero]
      exact add_le_add_right (Nat.cast_le.mpr hfree) _
  · rw [step, hsame]
    exact ⟨hs, le_add_of_nonneg_right (hs.loss_nonneg op)⟩

/-! ## Runs -/

/-- What a pool is short of after a run, the operations of the run have taken. -/
theorem shortfall_run_le (p c : CurrencyId) (hs : Sound s)
    (ops : List (FarmingOp AccountId CurrencyId)) :
    Sound (run step s ops) ∧
      (run step s ops).shortfall p c ≤ s.shortfall p c + accrue step (loss p c) s ops := by
  induction ops generalizing s with
  | nil =>
    rw [run_nil, accrue, add_zero]
    exact ⟨hs, le_rfl⟩
  | cons op ops ih =>
    obtain ⟨hsound, hloss⟩ := step_loss (p := p) (c := c) hs op
    obtain ⟨hrun, hrest⟩ := ih hsound
    rw [run_cons, accrue, ← add_assoc]
    exact ⟨hrun, hrest.trans (add_le_add_left hloss _)⟩

/-- What the reward pallet pays, the pool can transfer. -/
theorem claim_succeeds {who : {who : AccountId // ∀ p : CurrencyId, who ≠ poolAccountId p}}
    (hs : Sound s) (hshort : s.shortfall (FarmingConfig.sort AccountId pool) reward < 1)
    (h : (withdrawReward (FarmingConfig.sort AccountId pool) who.1 reward :
      Call DispatchError Pools ℕ).succeeds s.rewardPools = true) :
    (claim (.signed who) pool reward : FarmingCall CurrencyId Tokens Pools Unit).succeeds s =
      true := by
  obtain ⟨x, r, hreward⟩ := Call.succeeds_iff.mp h
  obtain ⟨-, hpaid, -⟩ := LawfulRewardsApi.run_withdrawReward _ _ _ _ _ _ hs.valid hreward
  have hreserve : (x : ℚ) ≤ s.owed (FarmingConfig.sort AccountId pool) reward := by
    have hle := (hs.shares reward (FarmingConfig.sort AccountId pool)).payable_le_reserve
      (LawfulRewardsApi.rounding Pools CurrencyId AccountId CurrencyId) who.1
    have hcast : (x : ℚ) = ((s.shares reward (FarmingConfig.sort AccountId pool)).payable
        (LawfulRewardsApi.rounding Pools CurrencyId AccountId CurrencyId) who.1 : ℚ) := by
      exact_mod_cast congrArg (Int.cast : ℤ → ℚ) hpaid
    rw [hcast]
    exact hle.trans (le_add_of_nonneg_right (Nat.cast_nonneg _))
  have hfree : x ≤ s.freeBalance reward
      (poolAccountId (FarmingConfig.sort AccountId pool) : AccountId) := by
    have howed := owed_le (s := s) (p := FarmingConfig.sort AccountId pool) (c := reward)
    have hlt : (x : ℚ) < s.freeBalance reward
        (poolAccountId (FarmingConfig.sort AccountId pool) : AccountId) + 1 := by
      linarith
    exact Nat.lt_succ_iff.mp (by exact_mod_cast hlt)
  have htransfer : (transfer reward (poolAccountId (FarmingConfig.sort AccountId pool)) who.1 x :
      Call TokensError Tokens Unit).succeeds s.tokens = true := by
    refine (LawfulMultiCurrency.transfer_succeeds _ _ _ _ _).mpr (.inr (.inr ?_))
    rw [hs.frozen]
    exact hfree
  obtain ⟨_, t, ht⟩ := Call.succeeds_iff.mp htransfer
  refine Call.succeeds_iff.mpr ⟨(), { s with tokens := t, rewardPools := r }, ?_⟩
  simp only [claim, Call.run_bind_eq_ok, run_ensureSigned, run_withTokens, run_withPools]
  exact ⟨who, s, ⟨rfl, rfl⟩, x, { s with rewardPools := r }, ⟨r, hreward, rfl⟩, t, ht, rfl⟩

/-- The account of a pool covers what is unclaimed and what is still scheduled, up to what the
operations of the run have taken, and no claim fails for a lack of tokens before that is a whole
unit. -/
theorem rewards_are_funded (p c : CurrencyId) (hs : Sound s)
    (ops : List (FarmingOp AccountId CurrencyId)) :
    (run step s ops).unclaimed p c + (run step s ops).scheduled p c ≤
        (run step s ops).freeBalance c (poolAccountId p : AccountId) +
          (s.shortfall p c + accrue step (loss p c) s ops) ∧
      (s.shortfall p c + accrue step (loss p c) s ops < 1 →
        ∀ (who : {who : AccountId // ∀ p : CurrencyId, who ≠ poolAccountId p})
          (pool : CurrencyId), FarmingConfig.sort AccountId pool = p →
          (withdrawReward p who.1 c : Call DispatchError Pools ℕ).succeeds
            (run step s ops).rewardPools = true →
          (dispatch (.claim (.signed who) pool c) :
            FarmingCall CurrencyId Tokens Pools Unit).succeeds (run step s ops) = true) := by
  obtain ⟨hsound, hshort⟩ := shortfall_run_le p c hs ops
  refine ⟨?_, fun hlt who pool hpool h => ?_⟩
  · have howed := owed_le (s := run step s ops) (p := p) (c := c)
    rw [owed] at howed
    rw [unclaimed]
    linarith
  · subst hpool
    exact claim_succeeds hsound (hshort.trans_lt hlt) h

/-! ## Stakes -/

/-- What an account has staked beyond what is reserved for it. -/
def excess (s : Farming CurrencyId Tokens Pools) (c p : CurrencyId) (i : AccountId) : ℚ :=
  (s.shares c p).stake i - (balances s.tokens i p).reserved

/-- A stake is raised with the reserved tokens, and it is lowered with them. -/
theorem excess_step (hs : Sound s) (op : FarmingOp AccountId CurrencyId) (i : AccountId) :
    (step s op).excess c p i = s.excess c p i := by
  rcases (dispatch op : FarmingCall CurrencyId Tokens Pools Unit).commit_cases s with
    ⟨_, hrun⟩ | ⟨-, hsame⟩
  · rw [step]
    revert hrun
    generalize (dispatch op : FarmingCall CurrencyId Tokens Pools Unit).commit s = s'
    intro hrun
    cases op with
    | onInitialize now =>
      obtain ⟨keys, hdistributes⟩ := distributes_onInitialize hs hrun
      rw [excess, excess, hdistributes.stake, hdistributes.tokens]
    | updateRewardSchedule origin pool reward periodCount amount =>
      obtain ⟨t, htransfer, rfl⟩ := run_updateRewardSchedule hrun
      exact congrArg (fun x : ℕ => (s.shares c p).stake i - x) (htransfer.reserved i p)
    | removeRewardSchedule origin pool reward =>
      obtain ⟨t, htransfer, rfl⟩ := run_removeRewardSchedule hrun
      exact congrArg (fun x : ℕ => (s.shares c p).stake i - x) (htransfer.reserved i p)
    | deposit origin pool lengthRewards =>
      obtain ⟨who, t, r, hstake, hbalances, rfl⟩ := run_deposit hrun
      obtain ⟨-, hledger⟩ := LawfulRewardsApi.run_depositStake _ _ _ _ _ hs.valid hstake
      change (LawfulRewardsApi.ledger r c p).stake i - (balances t i p).reserved = _
      rw [hledger, hbalances, modify_apply, excess]
      by_cases hp : p = FarmingConfig.sort AccountId pool
      · subst hp
        rw [if_pos rfl]
        by_cases hi : i = who.1
        · subst hi
          rw [if_pos ⟨rfl, rfl⟩]
          simp only [ShareLedger.deposit, Function.update_self, AccountData.hold, Nat.cast_add]
          exact add_sub_add_right_eq_sub _ _ _
        · rw [if_neg fun h => hi h.2]
          simp only [ShareLedger.deposit, Function.update_of_ne hi]
          rfl
      · rw [if_neg hp, if_neg fun h => hp h.1]
        rfl
    | withdraw origin pool amount lengthRewards =>
      obtain ⟨who, t, r, hstake, hle, hbalances, rfl⟩ := run_withdraw hrun
      obtain ⟨-, -, hledger⟩ := LawfulRewardsApi.run_withdrawStake _ _ _ _ _ hs.valid hstake
      change (LawfulRewardsApi.ledger r c p).stake i - (balances t i p).reserved = _
      rw [hledger, hbalances, modify_apply, excess]
      by_cases hp : p = FarmingConfig.sort AccountId pool
      · subst hp
        rw [if_pos rfl]
        by_cases hi : i = who.1
        · subst hi
          rw [if_pos ⟨rfl, rfl⟩]
          simp only [ShareLedger.withdraw, Function.update_self, AccountData.release,
            Nat.cast_sub hle]
          exact sub_sub_sub_cancel_right _ _ _
        · rw [if_neg fun h => hi h.2]
          simp only [ShareLedger.withdraw, Function.update_of_ne hi]
          rfl
      · rw [if_neg hp, if_neg fun h => hp h.1]
        rfl
    | claim origin pool reward =>
      obtain ⟨who, x, t, r, hreward, htransfer, rfl⟩ := run_claim hrun
      obtain ⟨-, -, hledger⟩ := LawfulRewardsApi.run_withdrawReward _ _ _ _ _ _ hs.valid hreward
      change (LawfulRewardsApi.ledger r c p).stake i - (balances t i p).reserved = _
      rw [hledger, htransfer.reserved, excess]
      split
      · rfl
      · rfl
    | transfer who dest currencyId amount =>
      obtain ⟨t, htransfer, rfl⟩ := run_withTokens.mp hrun
      exact congrArg (fun x : ℕ => (s.shares c p).stake i - x)
        ((run_transfer htransfer).reserved i p)
  · rw [step, hsame]

omit [LawfulRewardsApi Pools] [Fintype AccountId] in
/-- A withdrawal is refused for its stake exactly if it is more than what is reserved. -/
theorem withdraw_refused {who : {who : AccountId // ∀ p : CurrencyId, who ≠ poolAccountId p}}
    {amount lengthRewards : ℕ}
    (hlength : rewardCurrenciesLen s.rewardPools (FarmingConfig.sort AccountId pool) ≤
      lengthRewards) :
    (withdraw (.signed who) pool amount lengthRewards :
        FarmingCall CurrencyId Tokens Pools Unit).error? s = some .insufficientStake ↔
      (balances s.tokens who.1 (FarmingConfig.sort AccountId pool)).reserved < amount := by
  obtain ⟨hremaining, -, -⟩ := LawfulMultiCurrency.unreserve_eq
    (FarmingConfig.sort AccountId pool) who.1 amount s.tokens
  constructor
  · contrapose!
    intro hle
    refine RaisesOnly.error?_ne (.bind (.pure who) fun w s₁ hw => ?_)
    obtain ⟨rfl, rfl⟩ := Call.run_pure_eq_ok.mp hw
    refine .get_bind (.ensure_bind (fun h => absurd hlength h) fun _ => .bind ?_ ?_)
    · exact .of_neverFails (.bind .get fun _ => .bind (.modify _) fun _ => .pure _)
    · intro remaining s₂ hrun
      simp only [Farming.unreserve, Call.run_bind_eq_ok, Call.run_get_eq_ok, Call.run_set_eq_ok,
        Call.run_pure_eq_ok] at hrun
      obtain ⟨_, _, ⟨rfl, rfl⟩, _, _, rfl, rfl, -⟩ := hrun
      refine .ensure_bind (fun h => absurd ?_ h) fun _ => .mapError fun e => ?_
      · rw [hremaining]
        exact Nat.sub_eq_zero_of_le hle
      · rintro ⟨⟩
  · intro hlt
    have hne : ¬(MultiCurrency.unreserve (FarmingConfig.sort AccountId pool) who.1 amount
        s.tokens).1 = 0 := by
      rw [hremaining]
      omega
    have hrun : (withdraw (.signed who) pool amount lengthRewards :
        FarmingCall CurrencyId Tokens Pools Unit).run s = .error .insufficientStake
          { s with tokens := (MultiCurrency.unreserve (FarmingConfig.sort AccountId pool) who.1
            amount s.tokens).2 } := by
      refine Call.run_bind_eq_error.mpr (.inr ⟨who, s, rfl, ?_⟩)
      refine Call.run_bind_eq_error.mpr (.inr ⟨s, s, rfl, ?_⟩)
      refine Call.run_bind_eq_error.mpr (.inr ⟨(), s, Call.run_ensure_eq_ok.mpr ⟨hlength, rfl⟩, ?_⟩)
      refine Call.run_bind_eq_error.mpr (.inr ⟨(MultiCurrency.unreserve
        (FarmingConfig.sort AccountId pool) who.1 amount s.tokens).1, _, rfl, ?_⟩)
      refine Call.run_bind_eq_error.mpr (.inl ?_)
      rw [Call.ensure, if_neg hne]
      rfl
    rw [Call.error?, hrun]

/-- If every stake is what is reserved for it, it is so after every run, and a withdrawal is
refused for its stake exactly if it is more than the stake. -/
theorem stakes_are_reserved (hs : Sound s)
    (hstart : ∀ (c p : CurrencyId) (i : AccountId),
      (s.shares c p).stake i = (balances s.tokens i p).reserved)
    (ops : List (FarmingOp AccountId CurrencyId)) (c p : CurrencyId) :
    (∀ i : AccountId, ((run step s ops).shares c p).stake i =
        (balances (run step s ops).tokens i p).reserved) ∧
      ∀ (who : {who : AccountId // ∀ p : CurrencyId, who ≠ poolAccountId p}) (pool : CurrencyId)
        (amount lengthRewards : ℕ), FarmingConfig.sort AccountId pool = p →
        rewardCurrenciesLen (run step s ops).rewardPools p ≤ lengthRewards →
        ((dispatch (.withdraw (.signed who) pool amount lengthRewards) :
            FarmingCall CurrencyId Tokens Pools Unit).error? (run step s ops) =
              some .insufficientStake ↔
          ((run step s ops).shares c p).stake who.1 < amount) := by
  have hstake : ∀ i : AccountId, ((run step s ops).shares c p).stake i =
      (balances (run step s ops).tokens i p).reserved := by
    intro i
    have hinv : Sound (run step s ops) ∧ (run step s ops).excess c p i = 0 :=
      @run_preserves _ _ step (fun s => Sound s ∧ s.excess c p i = 0)
        (fun s op h => ⟨(step_loss (p := p) (c := c) h.1 op).1, (excess_step h.1 op i).trans h.2⟩)
        s ⟨hs, sub_eq_zero.mpr (hstart c p i)⟩ ops
    exact sub_eq_zero.mp hinv.2
  refine ⟨hstake, fun who pool amount lengthRewards hpool hlength => ?_⟩
  subst hpool
  rw [hstake, Nat.cast_lt]
  exact withdraw_refused hlength

end Calls

end Steps

/-! ## A farm

The liquidity token is `false`, and the reward is `true`. On the left are the treasury and a
farmer, on the right the accounts of the pools. -/

namespace Sample

/-- The pools and rewards of the example. -/
def keys : List (Bool × Bool) := [(false, false), (false, true), (true, false), (true, true)]

private theorem keys_nodup : keys.Nodup := by decide

private theorem mem_keys : ∀ key, key ∈ keys := by decide

private theorem ten_pos : 0 < 10 := by decide

instance : FarmingConfig (Bool ⊕ Bool) Bool where
  poolAccountId := .inr
  treasuryAccountId := .inl false
  rewardPeriod := 10
  sort p := p
  keyOrder := keys
  poolAccountId_injective := Sum.inr_injective
  treasury_ne_pool _ := Sum.inl_ne_inr
  rewardPeriod_pos := ten_pos
  keyOrder_nodup := keys_nodup
  mem_keyOrder := mem_keys

instance : RewardConfig Bool (Bool ⊕ Bool) Bool where
  maxRewardCurrencies := 10

/-- The storage of the example. -/
abbrev Store : Type :=
  Farming Bool (TokenLedger (Bool ⊕ Bool) Bool) (Rewards Bool (Bool ⊕ Bool) Bool FixedI128)

/-- The treasury has a hundred units of the reward, the farmer seven liquidity tokens. -/
def start : Store where
  tokens :=
    { accounts := fun a c =>
        if a = .inl false ∧ c = true then ⟨100, 0, 0⟩
        else if a = .inl true ∧ c = false then ⟨7, 0, 0⟩
        else ⟨0, 0, 0⟩
      issuance := fun c => if c then 100 else 7 }
  rewardPools := .default
  rewardSchedules _ _ := none

/-- The account that farms. -/
def farmer : {who : Bool ⊕ Bool // ∀ p : Bool, who ≠ poolAccountId p} :=
  ⟨.inl true, fun _ => Sum.inl_ne_inr⟩

/-- A schedule of three periods, of which one has passed. -/
def farmed : List (FarmingOp (Bool ⊕ Bool) Bool) :=
  [.updateRewardSchedule .root false true 3 100, .deposit (.signed farmer) false 0,
    .onInitialize 10]

private theorem sound_start : Sound start where
  valid := Rewards.Tracked.default
  shares c p := (Rewards.Sound.default (F := FixedI128)).shares c p
  frozen := by decide

/-- The farmer can claim. -/
theorem rewards_are_funded_claim :
    (dispatch (.claim (.signed farmer) false true) :
      FarmingCall Bool (TokenLedger (Bool ⊕ Bool) Bool)
        (Rewards Bool (Bool ⊕ Bool) Bool FixedI128) Unit).succeeds (run step start farmed) = true :=
  (rewards_are_funded false true sound_start farmed).2 (by decide +kernel) farmer false rfl
    (by decide +kernel)

/-- What the farmer staked is reserved. -/
theorem stakes_are_reserved_deposit :
    ((run step start farmed).shares true false).stake (.inl true) =
      (balances (run step start farmed).tokens (.inl true) false).reserved :=
  (stakes_are_reserved sound_start (by decide +kernel) farmed true false).1 (.inl true)

end Sample

end Interbtc.Farming
