import Interbtc.Reward.Solvency
import Interbtc.Staking.Exact

/-!
# The reward pallet implements a pro-rata ledger

The naive ledger credits every staker at each distribution with its share of the amount,
and keeps these credits until the staker withdraws. Over the rationals the pallet's one
number per pool and its tallies carry the same sums.
-/

namespace Interbtc.Rewards

open Core FixedPointNumber LawfulFixedPoint

/-- What each staker has been credited in each currency of each pool since it last withdrew
that currency, the last credit first. -/
@[ext] structure ProRata (PoolId StakeId CurrencyId : Type) where
  stake : PoolId → StakeId → ℚ
  currencies : PoolId → List CurrencyId
  credits : CurrencyId → PoolId → StakeId → List ℚ

namespace ProRata

variable {PoolId StakeId CurrencyId : Type} [DecidableEq PoolId] [DecidableEq StakeId]
  [DecidableEq CurrencyId]

/-- Nothing is staked. -/
def empty : ProRata PoolId StakeId CurrencyId := ⟨fun _ _ => 0, fun _ => [], fun _ _ _ => []⟩

/-- Replace the stake of an account. -/
def setStake (L : ProRata PoolId StakeId CurrencyId) (p : PoolId) (i : StakeId) (x : ℚ) :
    ProRata PoolId StakeId CurrencyId :=
  { L with stake := Function.update L.stake p (Function.update (L.stake p) i x) }

/-- Credit every staker of a pool with its share of a reward. -/
def distribute [Fintype StakeId] (L : ProRata PoolId StakeId CurrencyId) (p : PoolId)
    (c : CurrencyId) (x : ℚ) : ProRata PoolId StakeId CurrencyId :=
  { L with
    currencies := Function.update L.currencies p (withCurrency c (L.currencies p))
    credits := fun d q i =>
      if d = c ∧ q = p then x * (L.stake p i / ∑ j, L.stake p j) :: L.credits c p i
      else L.credits d q i }

/-- Clear the credits of one staker. -/
def settle (L : ProRata PoolId StakeId CurrencyId) (p : PoolId) (i : StakeId) (c : CurrencyId) :
    ProRata PoolId StakeId CurrencyId :=
  { L with
    credits := fun d q j => if d = c ∧ q = p ∧ j = i then [] else L.credits d q j }

/-- One operation on the naive ledger. A withdrawal of more than the stake is refused, and so is
the distribution to no stake, or in one currency too many. -/
def step [Fintype StakeId] [RewardConfig PoolId StakeId CurrencyId]
    (L : ProRata PoolId StakeId CurrencyId) :
    Op PoolId StakeId CurrencyId ℚ → ProRata PoolId StakeId CurrencyId
  | .depositStake p i a => L.setStake p i (L.stake p i + a.1)
  | .withdrawStake p i a =>
    if a.1 ≤ L.stake p i then L.setStake p i (L.stake p i - a.1) else L
  | .setStake p i amount => L.setStake p i (amount + Int.fract (L.stake p i))
  | .distributeReward p c x =>
    if x.1 ≠ 0 ∧ ∑ j, L.stake p j ≠ 0 ∧
        (c ∈ L.currencies p ∨ (L.currencies p).length <
          RewardConfig.maxRewardCurrencies PoolId StakeId CurrencyId) then
      L.distribute p c x.1
    else L
  | .withdrawReward p i c => L.settle p i c

end ProRata

variable {PoolId StakeId CurrencyId : Type} [DecidableEq PoolId] [DecidableEq StakeId]
  [DecidableEq CurrencyId] {s s' : Rewards PoolId StakeId CurrencyId ℚ} {p : PoolId}
  {i : StakeId} {c : CurrencyId} {a : ℚ}

/-! ## Calls that are not refused -/

private theorem depositStakeFixed_neverFails : (depositStakeFixed p i a :
    Call DispatchError (Rewards PoolId StakeId CurrencyId ℚ) Unit).NeverFails :=
  .bind (checkedAddMut_neverFails _ _) fun _ => .bind (checkedAddMut_neverFails _ _) fun _ =>
    .bind .get fun _ => .forM (fun _ => .bind .get fun _ => .bind (.pure _) fun _ =>
      .bind (checkedAddMut_neverFails _ _) fun _ => .pure _) _

private theorem withdrawStakeFixed_succeeds (ha : a ≤ s.stake p i) :
    (withdrawStakeFixed p i a).succeeds s = true := by
  have hrest : (do
      let _ ← checkedSubMut (Stake p i) a
      let _ ← checkedSubMut (TotalStake p) a
      (s.rewardCurrencies p).forM (subRewardTally p i a) :
      Call DispatchError (Rewards PoolId StakeId CurrencyId ℚ) Unit).NeverFails :=
    .bind (checkedSubMut_neverFails _ _) fun _ => .bind (checkedSubMut_neverFails _ _) fun _ =>
      .forM (fun _ => .bind .get fun _ => .bind (.pure _) fun _ =>
        .bind (checkedSubMut_neverFails _ _) fun _ => .pure _) _
  obtain ⟨u, t, h⟩ := hrest s
  refine Call.succeeds_iff.mpr ⟨u, t, ?_⟩
  rw [withdrawStakeFixed]
  refine Call.run_bind_eq_ok.mpr ⟨s, s, rfl, ?_⟩
  exact Call.run_bind_eq_ok.mpr ⟨(), s, Call.run_ensure_eq_ok.mpr ⟨ha, rfl⟩, h⟩

omit [DecidableEq StakeId] in
private theorem distributeRewardFixed_succeeds [RewardConfig PoolId StakeId CurrencyId]
    (htotal : s.totalStake p ≠ 0)
    (hroom : c ∈ s.rewardCurrencies p ∨ (s.rewardCurrencies p).length <
      RewardConfig.maxRewardCurrencies PoolId StakeId CurrencyId) :
    (distributeRewardFixed p c a).succeeds s = true := by
  by_cases ha : a = 0
  · rw [distributeRewardFixed, if_pos ha]
    rfl
  obtain ⟨t, htrack⟩ : ∃ t, (trackCurrency p c).run s = .ok () t := by
    simp only [trackCurrency, Call.run_bind_eq_ok, Call.run_get_eq_ok, Call.run_ite_eq_ok,
      Call.run_pure_eq_ok, Call.run_ensure_eq_ok, Call.run_set_eq_ok]
    by_cases hc : c ∈ s.rewardCurrencies p
    · exact ⟨s, s, s, ⟨rfl, rfl⟩, .inl ⟨hc, trivial, rfl⟩⟩
    · exact ⟨_, s, s, ⟨rfl, rfl⟩, .inr ⟨hc, (), s, ⟨hroom.resolve_left hc, rfl⟩, rfl⟩⟩
  obtain ⟨y, t₁, hy⟩ := checkedAddMut_neverFails
    (RewardPerToken c p : Lens (Rewards PoolId StakeId CurrencyId ℚ) ℚ) (a / s.totalStake p) t
  obtain ⟨z, t₂, hz⟩ := checkedAddMut_neverFails (TotalRewards c) a t₁
  refine Call.succeeds_iff.mpr ⟨(), t₂, ?_⟩
  simp only [distributeRewardFixed, if_neg ha, Call.run_bind_eq_ok, Call.run_get_eq_ok,
    Call.run_ensure_eq_ok, Call.run_ofOption_eq_ok, Call.run_pure_eq_ok]
  exact ⟨s, s, ⟨rfl, rfl⟩, (), s, ⟨htotal, rfl⟩, (), t, htrack, _, t, ⟨if_neg htotal, rfl⟩,
    y, t₁, hy, z, t₂, hz, trivial, rfl⟩

private theorem setStake_succeeds {amount : ℕ} (hstake : 0 ≤ s.stake p i) :
    (setStake p i amount).succeeds s = true := by
  have hget : s.getStake p i = .ok (truncate (s.stake p i)).toNat := by
    refine except_bind_eq_ok.mpr ⟨truncate (s.stake p i), okOr_eq_ok.mpr rfl, ?_⟩
    rw [toBalance, if_pos (truncate_nonneg hstake)]
    rfl
  have hle : ((truncate (s.stake p i)).toNat : ℚ) ≤ s.stake p i := by
    have hcast : ((truncate (s.stake p i)).toNat : ℤ) = truncate (s.stake p i) :=
      Int.toNat_of_nonneg (truncate_nonneg hstake)
    calc ((truncate (s.stake p i)).toNat : ℚ) = (truncate (s.stake p i) : ℚ) := by
          exact_mod_cast hcast
      _ ≤ s.stake p i := truncate_le hstake
  rw [setStake]
  refine Call.succeeds_bind_of_ok (Call.run_get_eq_ok.mpr ⟨rfl, rfl⟩) ?_
  refine Call.succeeds_bind_of_ok (Call.run_ofExcept_eq_ok.mpr ⟨hget, rfl⟩) ?_
  split
  · refine Call.succeeds_bind_of_ok (Call.run_ofOption_eq_ok.mpr ⟨rfl, rfl⟩) ?_
    exact Call.succeeds_iff.mpr (depositStakeFixed_neverFails s)
  · split
    · rename_i hlt
      refine Call.succeeds_bind_of_ok (Call.run_ofOption_eq_ok.mpr ⟨rfl, rfl⟩) ?_
      refine withdrawStakeFixed_succeeds ?_
      refine le_trans ?_ hle
      exact_mod_cast Nat.sub_le _ _
    · rfl

/-! ## The refinement -/

/-- The pallet's pending rewards are the sums of the credits. -/
structure Implements (s : Rewards PoolId StakeId CurrencyId ℚ)
    (L : ProRata PoolId StakeId CurrencyId) : Prop where
  stake : s.stake = L.stake
  currencies : s.rewardCurrencies = L.currencies
  pending : ∀ c p i, (s.shares c p).pending i = (L.credits c p i).sum

variable {L : ProRata PoolId StakeId CurrencyId}

omit [DecidableEq PoolId] [DecidableEq StakeId] [DecidableEq CurrencyId] in
private theorem Implements.default :
    Implements (default : Rewards PoolId StakeId CurrencyId ℚ) .empty where
  stake := rfl
  currencies := rfl
  pending c p i := by simp [shares, Rewards.default, ProRata.empty, ShareLedger.pending]

omit [DecidableEq StakeId] [DecidableEq CurrencyId] in
private theorem Changes.stake_eq [Nonempty CurrencyId] {cs : List CurrencyId}
    {g : CurrencyId → ShareLedger StakeId} {f : StakeId → ℚ} (h : Changes p cs g s s')
    (hg : ∀ c, (g c).stake = f) : s'.stake = Function.update s.stake p f := by
  obtain ⟨c⟩ := ‹Nonempty CurrencyId›
  funext q
  by_cases hq : q = p
  · subst hq
    rw [Function.update_self, ← hg c, ← h.pool c]
    rfl
  · rw [Function.update_of_ne hq]
    exact congrArg ShareLedger.stake (h.others c q hq)

omit [DecidableEq CurrencyId] in
/-- A change of one stake leaves the credits alone. -/
private theorem Implements.setStake [Nonempty CurrencyId] (h : Implements s L)
    {g : CurrencyId → ShareLedger StakeId} {x : ℚ}
    (hchanges : Changes p (s.rewardCurrencies p) g s s')
    (hstake : ∀ c, (g c).stake = Function.update (s.stake p) i x)
    (hpending : ∀ c j, (g c).pending j = (s.shares c p).pending j) :
    Implements s' (L.setStake p i x) where
  stake := by
    rw [hchanges.stake_eq hstake, h.stake]
    rfl
  currencies := by
    rw [hchanges.currencies, Function.update_eq_self]
    exact h.currencies
  pending c q j := by
    by_cases hq : q = p
    · subst hq
      rw [hchanges.pool, hpending]
      exact h.pending c q j
    · rw [hchanges.others c q hq]
      exact h.pending c q j

omit [DecidableEq StakeId] in
private theorem Implements.distribute [Nonempty CurrencyId] [Fintype StakeId] {x : ℚ}
    (h : Implements s L) (htotal : s.totalStake p = ∑ j, L.stake p j)
    (hchanges : Changes p (withCurrency c (s.rewardCurrencies p)) (fun d =>
      if d = c then (s.shares d p).spread .exact x else s.shares d p) s s') :
    Implements s' (L.distribute p c x) where
  stake := by
    have hstake := hchanges.stake_eq (f := s.stake p) fun d => by split <;> rfl
    rw [hstake, Function.update_eq_self]
    exact h.stake
  currencies := by
    rw [hchanges.currencies, h.currencies]
    rfl
  pending d q j := by
    simp only [ProRata.distribute]
    by_cases hq : q = p
    · subst hq
      rw [hchanges.pool]
      by_cases hd : d = c
      · subst hd
        have hshare : (s.shares d q).stake j / (s.shares d q).total =
            L.stake q j / ∑ k, L.stake q k := by
          rw [← htotal, ← h.stake]
          rfl
        rw [if_pos rfl, if_pos ⟨rfl, rfl⟩, List.sum_cons, ShareLedger.pending_spread, h.pending,
          hshare, add_comm]
      · rw [if_neg hd, if_neg fun h => hd h.1]
        exact h.pending d q j
    · rw [hchanges.others d q hq, if_neg fun h => hq h.2]
      exact h.pending d q j

private theorem Implements.settle [Nonempty CurrencyId] (h : Implements s L)
    (hchanges : Changes p (s.rewardCurrencies p) (fun d =>
      if d = c then (s.shares d p).claim .exact i else s.shares d p) s s') :
    Implements s' (L.settle p i c) where
  stake := by
    have hstake := hchanges.stake_eq (f := s.stake p) fun d => by split <;> rfl
    rw [hstake, Function.update_eq_self]
    exact h.stake
  currencies := by
    rw [hchanges.currencies, Function.update_eq_self]
    exact h.currencies
  pending d q j := by
    simp only [ProRata.settle]
    by_cases hq : q = p
    · subst hq
      rw [hchanges.pool]
      by_cases hd : d = c
      · subst hd
        rw [if_pos rfl, ShareLedger.pending_claim]
        by_cases hj : j = i
        · rw [if_pos hj, if_pos ⟨rfl, rfl, hj⟩, List.sum_nil]
        · rw [if_neg hj, if_neg fun h => hj h.2.2]
          exact h.pending d q j
      · rw [if_neg hd, if_neg fun h => hd h.1]
        exact h.pending d q j
    · rw [hchanges.others d q hq, if_neg fun h => hq h.2.1]
      exact h.pending d q j

omit [DecidableEq CurrencyId] in
private theorem setStake_self (L : ProRata PoolId StakeId CurrencyId) (p : PoolId) (i : StakeId) :
    L.setStake p i (L.stake p i) = L := by
  ext <;> simp [ProRata.setStake]

omit [DecidableEq PoolId] [DecidableEq StakeId] [DecidableEq CurrencyId] in
private theorem totalStake_eq [Nonempty CurrencyId] [Fintype StakeId] (hs : Sound s)
    (h : Implements s L) (p : PoolId) : s.totalStake p = ∑ j, L.stake p j := by
  obtain ⟨c⟩ := ‹Nonempty CurrencyId›
  have htotal := (hs.shares c p).total_eq
  rw [← h.stake]
  exact htotal

variable [RewardConfig PoolId StakeId CurrencyId]

/-- One operation of the pallet is the same operation on the naive ledger. -/
theorem Implements.step [Nonempty CurrencyId] [Fintype StakeId] (hs : Sound s)
    (h : Implements s L) (op : Op PoolId StakeId CurrencyId ℚ) :
    Implements (Rewards.step s op) (L.step op) := by
  cases op with
  | depositStake p i a =>
    obtain ⟨u, t, hrun⟩ := depositStakeFixed_neverFails (p := p) (i := i) (a := a.1) s
    have hchanges := run_depositStakeFixed hs.tracked hrun
    rw [Rewards.step, Op.call, Call.commit_of_ok hrun, ProRata.step, ← h.stake]
    exact h.setStake hchanges (fun c => rfl) fun c => ShareLedger.pending_deposit a.1
  | withdrawStake p i a =>
    by_cases ha : a.1 ≤ s.stake p i
    · obtain ⟨u, t, hrun⟩ := Call.succeeds_iff.mp (withdrawStakeFixed_succeeds ha)
      obtain ⟨-, hchanges⟩ := run_withdrawStakeFixed hs.tracked hrun
      rw [Rewards.step, Op.call, Call.commit_of_ok hrun, ProRata.step, ← h.stake, if_pos ha]
      exact h.setStake hchanges (fun c => rfl) fun c => ShareLedger.pending_withdraw a.1
    · rw [ProRata.step, ← h.stake, if_neg ha]
      rcases (Op.withdrawStake p i a).call.commit_cases s with ⟨u, hrun⟩ | ⟨-, hsame⟩
      · exact absurd (run_withdrawStakeFixed hs.tracked hrun).1 ha
      · rwa [Rewards.step, hsame]
  | setStake p i amount =>
    obtain ⟨c⟩ := ‹Nonempty CurrencyId›
    have hnonneg : 0 ≤ s.stake p i := (hs.shares c p).stake_nonneg i
    have hfract : Int.fract (s.stake p i) = s.stake p i - truncate (s.stake p i) := by
      rw [truncate_of_nonneg hnonneg]
      rfl
    have hsucceeds : (Rewards.setStake p i amount).succeeds s = true :=
      setStake_succeeds hnonneg
    obtain ⟨u, t, hrun⟩ := Call.succeeds_iff.mp hsucceeds
    rw [Rewards.step, Op.call, Call.commit_of_ok hrun, ProRata.step, ← h.stake, hfract]
    rcases run_setStake hs.tracked hrun with
      ⟨x, -, hx, hchanges⟩ | ⟨x, -, hx, -, hchanges⟩ | ⟨hx, rfl⟩
    · refine h.setStake hchanges (fun c => ?_) fun c => ShareLedger.pending_deposit x
      have hnew : amount + (s.stake p i - truncate (s.stake p i)) = s.stake p i + x := by
        rw [hx]
        change _ = s.stake p i + (amount - truncate (s.stake p i))
        ring
      rw [hnew]
      rfl
    · refine h.setStake hchanges (fun c => ?_) fun c => ShareLedger.pending_withdraw x
      have hnew : amount + (s.stake p i - truncate (s.stake p i)) = s.stake p i - x := by
        rw [hx]
        change _ = s.stake p i - (truncate (s.stake p i) - amount)
        ring
      rw [hnew]
      rfl
    · have hsame : amount + (t.stake p i - truncate (t.stake p i)) = L.stake p i := by
        have hx' : (amount : ℚ) = truncate (t.stake p i) := by exact_mod_cast hx
        rw [hx', ← h.stake]
        ring
      rw [hsame, setStake_self]
      exact h
  | distributeReward p c x =>
    have htotal := totalStake_eq hs h p
    rw [ProRata.step, ← htotal, ← h.currencies]
    by_cases hguard : x.1 ≠ 0 ∧ s.totalStake p ≠ 0 ∧
        (c ∈ s.rewardCurrencies p ∨ (s.rewardCurrencies p).length <
          RewardConfig.maxRewardCurrencies PoolId StakeId CurrencyId)
    · obtain ⟨u, t, hrun⟩ := Call.succeeds_iff.mp
        (distributeRewardFixed_succeeds (a := x.1) hguard.2.1 hguard.2.2)
      obtain ⟨-, -, hchanges⟩ := run_distributeRewardFixed hs.tracked hrun hguard.1
      rw [Rewards.step, Op.call, Call.commit_of_ok hrun, if_pos hguard]
      exact h.distribute htotal hchanges
    · rw [if_neg hguard]
      rcases (Op.distributeReward p c x).call.commit_cases s with ⟨u, hrun⟩ | ⟨-, hsame⟩
      · by_cases hzero : x.1 = 0
        · have hrun' : (Op.distributeReward p c x).call.run s = .ok () s := by
            rw [Op.call, distributeRewardFixed, if_pos hzero]
            rfl
          rwa [Rewards.step, Call.commit_of_ok hrun']
        · obtain ⟨hne, hroom, -⟩ := run_distributeRewardFixed hs.tracked hrun hzero
          exact absurd ⟨hzero, hne, hroom⟩ hguard
      · rwa [Rewards.step, hsame]
  | withdrawReward p i c =>
    rw [ProRata.step]
    rcases step_withdrawReward_cases s p i c with ⟨x, hrun⟩ | ⟨hnone, -⟩
    · exact h.settle (run_withdrawRewardFixed hs.tracked hrun).2
    · cases hnone

private theorem Implements.run [Nonempty CurrencyId] [Fintype StakeId] (hs : Sound s)
    (h : Implements s L) (ops : List (Op PoolId StakeId CurrencyId ℚ)) :
    Implements (run Rewards.step s ops) (run ProRata.step L ops) := by
  induction ops generalizing s L with
  | nil => rwa [run_nil, run_nil]
  | cons op ops ih =>
    rw [run_cons, run_cons]
    exact ih (hs.step op) (h.step hs op)

/-- Only a distribution and a withdrawal of the reward change the credits of a staker. -/
private theorem credits_step [Fintype StakeId] {op : Op PoolId StakeId CurrencyId ℚ}
    (hdistribute : ∀ x, op ≠ .distributeReward p c x) (hwithdraw : op ≠ .withdrawReward p i c) :
    (L.step op).credits c p i = L.credits c p i := by
  cases op with
  | depositStake | setStake => rfl
  | withdrawStake q j a =>
    rw [ProRata.step]
    split <;> rfl
  | distributeReward q d x =>
    rw [ProRata.step]
    split
    · refine if_neg ?_
      rintro ⟨rfl, rfl⟩
      exact hdistribute x rfl
    · rfl
  | withdrawReward q j d =>
    refine if_neg ?_
    rintro ⟨rfl, rfl, rfl⟩
    exact hwithdraw rfl

/-- Over the rationals, after any run: the pending reward of each staker in each currency of each
pool is the sum of its credits in the naive ledger, a withdrawal pays this sum without its
fraction, stakes and totals are those of the naive ledger, and no operation but a distribution of
that currency in that pool and that staker's withdrawal changes the pending reward. -/
theorem rewards_pro_rata [Fintype StakeId] (ops : List (Op PoolId StakeId CurrencyId ℚ))
    (p : PoolId) (i : StakeId) (c : CurrencyId) :
    let s := run step default ops
    let L := run ProRata.step ProRata.empty ops
    s.stake p i * s.rewardPerToken c p - s.rewardTally c p i = (L.credits c p i).sum ∧
      (withdrawRewardFixed p i c).value? s = some (truncate (L.credits c p i).sum) ∧
      s.stake p i = L.stake p i ∧ s.totalStake p = ∑ j, L.stake p j ∧
      ∀ op, (∀ x, op ≠ .distributeReward p c x) → op ≠ .withdrawReward p i c →
        ((step s op).shares c p).pending i = (s.shares c p).pending i := by
  intro s L
  have : Nonempty CurrencyId := ⟨c⟩
  have hs : Sound (run step (default : Rewards PoolId StakeId CurrencyId ℚ) ops) :=
    Sound.default.run ops
  have h := Implements.run Sound.default Implements.default ops
  have hpending := h.pending c p i
  refine ⟨hpending, ?_, congrFun (congrFun h.stake p) i, totalStake_eq hs h p, ?_⟩
  · rw [← hpending]
    rfl
  · intro op hdistribute hwithdraw
    rw [(h.step hs op).pending, credits_step hdistribute hwithdraw, hpending]

end Interbtc.Rewards
