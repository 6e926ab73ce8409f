import Interbtc.Core.RewardLedger
import Interbtc.Staking.Proportionality

/-!
# The rewards of a pool are covered

While every slash takes the same fraction of everybody's stake and leaves some of
it, a slash takes nobody's accrued reward, and what has been withdrawn and what
can be withdrawn never exceed what was distributed.
-/

namespace Interbtc.Staking

open Core FixedPointNumber LawfulFixedPoint

variable {AccountId CurrencyId : Type} [DecidableEq AccountId] [DecidableEq CurrencyId]
  {native c : CurrencyId} {v w : VaultId AccountId CurrencyId} {n : AccountId}
  {s s' : Staking AccountId CurrencyId ℚ} {q r : Pool AccountId CurrencyId ℚ} {i j : ℕ}

/-! ## Conditions and amounts of a step -/

/-- A slash of nothing, a slash that takes the same fraction of everybody's stake and leaves some
of it, or a slash before any reward has been distributed. -/
def Op.Fair (native : CurrencyId) (s : Staking AccountId CurrencyId ℚ) :
    Op AccountId CurrencyId ℚ → Prop
  | .slashStake v amount =>
    let pool := s.pool v (s.nonce v)
    amount.1 = 0 ∨
      (amount.1 < pool.totalCurrentStake ∧ ∀ n, pool.stake n * pool.totalCurrentStake =
        pool.ledger.settled .exact n * pool.totalStake) ∨
      ∀ c ∈ rewardCurrencies native v, pool.rewardPerToken c = 0
  | _ => True

instance [Fintype AccountId] (s : Staking AccountId CurrencyId ℚ) :
    DecidablePred (Op.Fair native s)
  | .slashStake v amount =>
    inferInstanceAs (Decidable (amount.1 = 0 ∨
      (amount.1 < (s.pool v (s.nonce v)).totalCurrentStake ∧ ∀ n,
        (s.pool v (s.nonce v)).stake n * (s.pool v (s.nonce v)).totalCurrentStake =
          (s.pool v (s.nonce v)).ledger.settled .exact n * (s.pool v (s.nonce v)).totalStake) ∨
      ∀ c ∈ rewardCurrencies native v, (s.pool v (s.nonce v)).rewardPerToken c = 0))
  | .depositStake .. | .withdrawStake .. | .distributeReward .. | .withdrawReward ..
  | .forceRefund .. => inferInstanceAs (Decidable True)

/-- The reward in currency `c` that an operation distributes in the pool of nonce `i`. -/
def Op.spread (c : CurrencyId) (v : VaultId AccountId CurrencyId) (i : ℕ)
    (s : Staking AccountId CurrencyId ℚ) : Op AccountId CurrencyId ℚ → ℚ
  | .distributeReward c' w reward =>
    if c' = c ∧ w = v ∧ s.nonce w = i then
      ((Staking.distributeReward c' w reward.1).value? s).getD 0
    else 0
  | _ => 0

/-- The reward in currency `c` that an operation pays out from the pool of nonce `i`. -/
def Op.paid (c : CurrencyId) (v : VaultId AccountId CurrencyId) (i : ℕ)
    (s : Staking AccountId CurrencyId ℚ) : Op AccountId CurrencyId ℚ → ℚ
  | .withdrawReward index c' w n =>
    if c' = c ∧ w = v ∧ index.getD (s.nonce w) = i then
      (((Staking.withdrawReward index c' w n).value? s).getD 0 : ℤ)
    else 0
  | _ => 0

/-! ## What a step does to the rewards of a pool -/

/-- A step of the stakes and the rewards in `c` of one pool. -/
def RewardStep (c : CurrencyId) (w : VaultId AccountId CurrencyId) (j : ℕ)
    (s s' : Staking AccountId CurrencyId ℚ) (spread paid : ℚ) : Prop :=
  RewardLedger.Step (s.pool w j).ledger ((s.pool w j).rewards c) (s'.pool w j).ledger
    ((s'.pool w j).rewards c) spread paid

private theorem rewardStep_setPool
    (h : w = v → j = i → RewardLedger.Step (s.pool v i).ledger ((s.pool v i).rewards c) q.ledger
      (q.rewards c) 0 0) :
    RewardStep c w j s (s.setPool v i q) 0 0 := by
  rw [RewardStep, setPool_pool]
  split
  · rename_i hwj
    obtain ⟨rfl, rfl⟩ := hwj
    exact h rfl rfl
  · exact .stay

private theorem rewardStep_applied (hq : s.Applied v n q) :
    RewardStep c w j s (s.setPool v (s.nonce v) q) 0 0 := by
  refine rewardStep_setPool fun _ _ => ?_
  rw [hq.1, hq.2]
  exact .apply n

section

variable (hnodup : (rewardCurrencies native w).Nodup) (hc : c ∈ rewardCurrencies native w)

include hnodup hc

private theorem rewardStep_deposit {a : ℚ} {u : Unit}
    (h : (depositStake native v n a).run s = .ok u s') : RewardStep c w j s s' 0 0 := by
  obtain ⟨q, rfl, hl, hr⟩ := run_depositStake h
  refine rewardStep_setPool fun hw _ => ?_
  subst hw
  rw [hl, hr hnodup c, if_pos hc]
  exact .deposit n a

private theorem rewardStep_withdraw {a : ℚ} {index : Option ℕ} {u : Unit}
    (h : (withdrawStake native v n a index).run s = .ok u s') : RewardStep c w j s s' 0 0 := by
  obtain ⟨q, hq, ⟨_, rfl⟩ | ⟨-, -, p, r, hp, rfl, hl, hr⟩⟩ := run_withdrawStake h
  · exact rewardStep_applied hq
  · rcases eq_or_ne (index.getD (s.nonce v)) (s.nonce v) with hi | hi
    · rw [hi, setPool_setPool]
      rw [hi, setPool_pool_self] at hp
      subst hp
      refine rewardStep_setPool fun hw _ => ?_
      subst hw
      rw [hl, hr hnodup c, if_pos hc, hq.1, hq.2]
      exact .withdraw n a
    · rw [setPool_pool, if_neg fun h => hi h.2] at hp
      subst hp
      rw [RewardStep, setPool_pool]
      split
      · rename_i hwj
        obtain ⟨rfl, rfl⟩ := hwj
        rw [hl, hr hnodup c, if_pos hc]
        exact .withdrawStale n a
      · exact rewardStep_applied hq

private theorem rewardStep_forceRefund {refunded : ℤ}
    (h : (forceRefund native v).run s = .ok refunded s') : RewardStep c w j s s' 0 0 := by
  obtain ⟨stake, s₁, s₂, -, hw, rfl, hd⟩ := run_forceRefund h
  have hwithdraw := rewardStep_withdraw (j := j) hnodup hc hw
  have hnonce : s₁.nonce = s.nonce := by
    obtain ⟨q, -, ⟨_, rfl⟩ | ⟨_, _, _, r, -, rfl, -⟩⟩ := run_withdrawStake hw <;> rfl
  have hsame : s₁.pool v (s.nonce v + 1) = s.pool v (s.nonce v + 1) := by
    obtain ⟨q, -, ⟨_, rfl⟩ | ⟨_, _, _, r, -, rfl, -⟩⟩ := run_withdrawStake hw <;>
      simp [setPool_pool]
  -- The deposit touches the pool of the next nonce only, the withdrawal the current one.
  by_cases hwj : w = v ∧ j = s.nonce v + 1
  · obtain ⟨rfl, rfl⟩ := hwj
    have hdeposit := rewardStep_deposit (j := s.nonce w + 1) hnodup hc hd
    rw [RewardStep] at hdeposit ⊢
    simpa only [hsame] using hdeposit
  · obtain ⟨q, rfl, -⟩ := run_depositStake hd
    rw [RewardStep] at hwithdraw ⊢
    rwa [setPool_pool, if_neg]
    simpa only [Function.update_self, hnonce] using hwj

/-- A fair slash takes nobody's accrued reward. -/
theorem fairSlash_slashStake {x : {a : ℚ // 0 ≤ a}} (hfair : Op.Fair native s (.slashStake v x))
    {u : Unit} (h : (slashStake native v x.1).run s = .ok u s') :
    RewardLedger.FairSlash (s.pool w j).ledger ((s.pool w j).rewards c) (s'.pool w j).ledger
      ((s'.pool w j).rewards c) := by
  rcases run_slashStake h with ⟨_, rfl⟩ | ⟨hne, htotal, q, rfl, hl, hr⟩
  · exact .stay
  rw [setPool_pool]
  split
  · rename_i hwj
    obtain ⟨rfl, rfl⟩ := hwj
    have hcur : q.ledger.current = (s.pool w (s.nonce w)).ledger.current - x.1 := by
      rw [hl]
      rfl
    rw [hl, hr hnodup c, if_pos hc, hcur]
    rcases hfair.resolve_left hne with ⟨hlt, hprop⟩ | hzero
    · exact .proportional x.1 x.2 hlt hprop
    · exact .unrewarded x.1 (hzero c hc)
  · exact .stay

end

private theorem rewardStep_distribute {c' : CurrencyId} {reward : {a : ℚ // 0 ≤ a}} {x : ℚ}
    (h : (distributeReward c' v reward.1).run s = .ok x s') :
    RewardStep c w j s s' (Op.spread c w j s (.distributeReward c' v reward)) 0 := by
  have hx := Call.value?_of_ok h
  obtain ⟨q, rfl, hl, hr, ho, hv⟩ := run_distributeReward h
  rw [RewardStep, setPool_pool, Op.spread, hx, Option.getD_some]
  by_cases hwj : v = w ∧ s.nonce v = j
  · obtain ⟨rfl, rfl⟩ := hwj
    rw [if_pos ⟨rfl, rfl⟩, hl]
    by_cases hcc : c' = c
    · subst hcc
      rw [if_pos ⟨rfl, rfl, rfl⟩, hr, hv]
      exact .distribute reward.1 reward.2
    · rw [if_neg fun h => hcc h.1, ho c (Ne.symm hcc)]
      exact .stay
  · have hpool : ¬(w = v ∧ j = s.nonce v) := fun h => hwj ⟨h.1.symm, h.2.symm⟩
    rw [if_neg hpool, if_neg fun h => hwj h.2]
    exact .stay

private theorem truncate_le_max (q : ℚ) : ((max 0 (truncate q) : ℤ) : ℚ) ≤ max 0 q := by
  rcases le_total 0 q with hq | hq
  · rw [max_eq_right (truncate_nonneg hq), max_eq_right hq]
    exact truncate_le hq
  · rw [max_eq_left (truncate_nonpos hq), max_eq_left hq, Int.cast_zero]

omit [DecidableEq AccountId] [DecidableEq CurrencyId] in
/-- A nominator can claim at most what has accrued. -/
private theorem computeReward_le_accrued [Fintype AccountId] {p : Pool AccountId CurrencyId ℚ}
    {reward : ℤ} (hbal : p.ledger.Balanced) (h : p.computeReward c n = .ok reward) :
    (reward : ℚ) ≤ max 0 (RewardLedger.accrued p.ledger (p.rewards c) n) := by
  have hreward := Pool.computeReward_eq_ok h
  have hsettled : max 0 (p.ledger.settled (rounding ℚ) n) = p.ledger.settled .exact n :=
    max_eq_right (hbal.covered.settled_nonneg n)
  rw [hsettled] at hreward
  rw [hreward]
  exact truncate_le_max _

private theorem rewardStep_withdrawReward [Fintype AccountId] (hbal : s.Balanced)
    {c' : CurrencyId} {index : Option ℕ} {reward : ℤ}
    (h : (withdrawReward index c' v n).run s = .ok reward s') :
    RewardStep c w j s s' 0 (Op.paid c w j s (.withdrawReward index c' v n)) := by
  have hx := Call.value?_of_ok h
  obtain ⟨q, hq, p, r, hp, rfl, hreward, hl, hr, ho⟩ := run_withdrawReward h
  rw [RewardStep, setPool_pool, Op.paid, hx, Option.getD_some]
  by_cases hwj : v = w ∧ index.getD (s.nonce v) = j
  · obtain ⟨rfl, rfl⟩ := hwj
    rw [if_pos ⟨rfl, rfl⟩, hl]
    rcases eq_or_ne (index.getD (s.nonce v)) (s.nonce v) with hi | hi
    · -- The pool that is brought up to date is the pool that is claimed from.
      rw [hi, setPool_pool_self] at hp
      subst hp
      rw [hi]
      have hbal' := (hbal v (s.nonce v)).step (.apply n)
      by_cases hcc : c' = c
      · subst hcc
        have hle := computeReward_le_accrued (by rwa [hq.1]) hreward
        rw [hq.1, hq.2, rounding_rat, RewardLedger.accrued_apply] at hle
        rw [if_pos ⟨rfl, rfl, rfl⟩, hr, hq.1, hq.2]
        exact .claim n reward hle
      · rw [if_neg fun h => hcc h.1, ho c (Ne.symm hcc), hq.1, hq.2]
        exact .apply n
    · rw [setPool_pool, if_neg fun h => hi h.2] at hp
      subst hp
      by_cases hcc : c' = c
      · subst hcc
        rw [if_pos ⟨rfl, rfl, rfl⟩, hr]
        exact .claimStale n reward (computeReward_le_accrued (hbal v _) hreward)
      · rw [if_neg fun h => hcc h.1, ho c (Ne.symm hcc)]
        exact .stay
  · have hpool : ¬(w = v ∧ j = index.getD (s.nonce v)) := fun h => hwj ⟨h.1.symm, h.2.symm⟩
    rw [if_neg hpool, if_neg fun h => hwj h.2]
    exact rewardStep_applied hq

/-- One operation takes at most one step in the stakes and the rewards of each pool. -/
theorem reward_step [Fintype AccountId] {op : Op AccountId CurrencyId ℚ} (hbal : s.Balanced)
    (hfair : op.Fair native s) (hnodup : (rewardCurrencies native w).Nodup)
    (hc : c ∈ rewardCurrencies native w) (j : ℕ) :
    RewardStep c w j s (step native s op) (op.spread c w j s) (op.paid c w j s) := by
  cases op with
  | distributeReward c' v reward =>
    obtain ⟨x, s', h⟩ := distributeReward_neverFails c' v reward.1 s
    have hstep : step native s (.distributeReward c' v reward) = s' :=
      Call.commit_of_ok (Call.run_bind_eq_ok.mpr ⟨x, s', h, rfl⟩)
    rw [hstep]
    exact rewardStep_distribute h
  | withdrawReward index c' v n =>
    obtain ⟨x, s', h⟩ := withdrawReward_neverFails index c' v n s
    have hstep : step native s (.withdrawReward index c' v n) = s' :=
      Call.commit_of_ok (Call.run_bind_eq_ok.mpr ⟨x, s', h, rfl⟩)
    rw [hstep]
    exact rewardStep_withdrawReward hbal h
  | depositStake v n amount =>
    rcases (Op.call native (.depositStake v n amount)).commit_cases s with ⟨_, h⟩ | ⟨_, h⟩
    · exact rewardStep_deposit hnodup hc h
    · rw [step, h]
      exact .stay
  | withdrawStake v n amount index =>
    rcases (Op.call native (.withdrawStake v n amount index)).commit_cases s with ⟨_, h⟩ | ⟨_, h⟩
    · exact rewardStep_withdraw hnodup hc h
    · rw [step, h]
      exact .stay
  | slashStake v amount =>
    rcases (Op.call native (.slashStake v amount)).commit_cases s with ⟨_, h⟩ | ⟨_, h⟩
    · exact .slash (fairSlash_slashStake hnodup hc hfair h)
    · rw [step, h]
      exact .stay
  | forceRefund v =>
    rcases (Op.call native (.forceRefund v)).commit_cases s with ⟨_, h⟩ | ⟨_, h⟩
    · obtain ⟨refunded, s', hcall, hret⟩ := Call.run_bind_eq_ok.mp h
      rw [(Call.run_pure_eq_ok.mp hret).2] at hcall
      exact rewardStep_forceRefund hnodup hc hcall
    · rw [step, h]
      exact .stay

/-! ## Runs -/

variable [Fintype AccountId]

omit [DecidableEq AccountId] [DecidableEq CurrencyId] in
private theorem computeReward_eq {p : Pool AccountId CurrencyId ℚ} (hbal : p.ledger.Balanced) :
    p.computeReward c n =
      .ok (max 0 (truncate (RewardLedger.accrued p.ledger (p.rewards c) n))) := by
  rw [RewardLedger.accrued, ← max_eq_right (hbal.covered.settled_nonneg n)]
  rfl

private theorem outstanding_run {ops : List (Op AccountId CurrencyId ℚ)}
    (h : Meets (step native) (fun s op => op.Sound s ∧ op.Fair native s) default ops)
    (hnodup : (rewardCurrencies native v).Nodup) (hc : c ∈ rewardCurrencies native v) (i : ℕ) :
    RewardLedger.outstanding ((run (step native) default ops).pool v i).ledger
        (((run (step native) default ops).pool v i).rewards c) +
      accrue (step native) (fun s op => op.paid c v i s) default ops ≤
      accrue (step native) (fun s op => op.spread c v i s) default ops := by
  have hrun := run_bounded (fun _ s => s.Balanced ∧ 0 ≤ ((s.pool v i).rewards c).perToken)
    (fun s => RewardLedger.outstanding (s.pool v i).ledger ((s.pool v i).rewards c))
    (fun s op => op.spread c v i s - op.paid c v i s) ?_ ?_ 0 (Nat.zero_add _).le
    ⟨?_, le_rfl⟩ h
  · have hstart : RewardLedger.outstanding
        ((default : Staking AccountId CurrencyId ℚ).pool v i).ledger
        (((default : Staking AccountId CurrencyId ℚ).pool v i).rewards c) = 0 := by
      refine Finset.sum_eq_zero fun n _ => ?_
      simp [RewardLedger.accrued, Staking.default, Pool.default, Pool.rewards, Pool.ledger,
        toRat_zero]
    rw [hstart, accrue_sub] at hrun
    linarith
  · intro _ s op _ hs hop
    have hstep := reward_step (j := i) hs.1 hop.2 hnodup hc
    exact ⟨hs.1.step hop.1, hstep.perToken_nonneg (hs.1 v i) hs.2⟩
  · intro _ s op _ hs hop
    have hstep := reward_step (j := i) hs.1 hop.2 hnodup hc
    have hle := hstep.outstanding_le (hs.1 v i) hs.2
    linarith
  · exact Balanced.default

/-- Over the rationals, in a run whose slashes each take the same fraction of everybody's stake
and leave some of it, and whose withdrawals stay within the pool they name: what has been
withdrawn and what can be computed as rewards never exceed what was distributed, and a further
such slash changes nobody's computed reward. -/
theorem rewards_covered {ops : List (Op AccountId CurrencyId ℚ)}
    (h : Meets (step native) (fun s op => op.Sound s ∧ op.Fair native s) default ops)
    (hwrapped : v.wrappedCurrency ≠ native) (hc : c ∈ rewardCurrencies native v) (i : ℕ) :
    let s := run (step native) default ops
    (∀ reward : AccountId → ℤ, (∀ n, s.computeRewardAtIndex i c v n = .ok (reward n)) →
      accrue (step native) (fun s op => op.paid c v i s) default ops + ∑ n, (reward n : ℚ) ≤
        accrue (step native) (fun s op => op.spread c v i s) default ops) ∧
      ∀ w amount, Op.Sound s (.slashStake w amount) → Op.Fair native s (.slashStake w amount) →
        ∀ n, (step native s (.slashStake w amount)).computeRewardAtIndex i c v n =
          s.computeRewardAtIndex i c v n := by
  intro s
  have hnodup : (rewardCurrencies native v).Nodup := by
    simpa [rewardCurrencies] using hwrapped
  have hbal : s.Balanced := balanced_run (h.mono fun _ _ h => h.1)
  constructor
  · intro reward hreward
    have hsum : ∑ n, (reward n : ℚ) ≤
        RewardLedger.outstanding (s.pool v i).ledger ((s.pool v i).rewards c) :=
      Finset.sum_le_sum fun n _ => computeReward_le_accrued (hbal v i) (hreward n)
    linarith [outstanding_run h hnodup hc i]
  · intro w amount hsound hfair n
    have hbal' : (step native s (.slashStake w amount)).Balanced := hbal.step hsound
    have hacc : RewardLedger.accrued ((step native s (.slashStake w amount)).pool v i).ledger
        (((step native s (.slashStake w amount)).pool v i).rewards c) n =
        RewardLedger.accrued (s.pool v i).ledger ((s.pool v i).rewards c) n := by
      rcases (Op.call native (.slashStake w amount)).commit_cases s with ⟨_, hrun⟩ | ⟨_, hrun⟩
      · exact (fairSlash_slashStake hnodup hc hfair hrun).accrued_eq (hbal v i) n
      · rw [step, hrun]
    rw [computeRewardAtIndex, computeRewardAtIndex, computeReward_eq (hbal' v i),
      computeReward_eq (hbal v i), hacc]

/-! ## Runs of one vault -/

/-- Two nominators earn rewards, one claims them, and both are slashed. -/
def rewardedOps : List (Op (Fin 2) (Fin 3) ℚ) :=
  [.depositStake soleVault 0 (stakeOf 100), .depositStake soleVault 1 (stakeOf 100),
    .distributeReward 1 soleVault (stakeOf 200), .withdrawReward none 1 soleVault 1,
    .slashStake soleVault (stakeOf 100)]

/-- A reward after which a vault is slashed. -/
theorem rewards_covered_rewarded :
    (accrue (step 2) (fun s op => op.paid 1 soleVault 0 s) default rewardedOps +
        ∑ n : Fin 2, ((if n = 0 then 100 else 0 : ℤ) : ℚ) ≤
      accrue (step 2) (fun s op => op.spread 1 soleVault 0 s) default rewardedOps) ∧
    ∀ n, (step 2 (run (step 2) default rewardedOps)
        (.slashStake soleVault (stakeOf 10))).computeRewardAtIndex 0 1 soleVault n =
      (run (step 2) default rewardedOps).computeRewardAtIndex 0 1 soleVault n := by
  have hmeets : Meets (step 2) (fun s op => op.Sound s ∧ op.Fair 2 s) default rewardedOps := by
    decide +kernel
  have h := rewards_covered (c := 1) (v := soleVault) hmeets (by decide) (by decide) 0
  exact ⟨h.1 (fun n => if n = 0 then 100 else 0) (by decide +kernel),
    h.2 soleVault (stakeOf 10) (by decide +kernel) (by decide +kernel)⟩

/-- After that one of the two is brought up to date, and both are slashed again. -/
def skewedOps : List (Op (Fin 2) (Fin 3) ℚ) :=
  rewardedOps ++ [.depositStake soleVault 0 (stakeOf 0), .slashStake soleVault (stakeOf 60)]

/-- The second slash raises a reward from `100` to `150`, so that with the `100` paid out more
is owed than the `200` that were distributed. -/
theorem skewed_slash_overpays :
    accrue (step 2) (fun s op => op.spread 1 soleVault 0 s) default skewedOps = 200 ∧
      accrue (step 2) (fun s op => op.paid 1 soleVault 0 s) default skewedOps = 100 ∧
      (run (step 2) default rewardedOps).computeRewardAtIndex 0 1 soleVault 0 = .ok 100 ∧
      (run (step 2) default skewedOps).computeRewardAtIndex 0 1 soleVault 0 = .ok 150 := by
  refine ⟨?_, ?_, ?_, ?_⟩
  · decide +kernel
  · decide +kernel
  · decide +kernel
  · decide +kernel

end Interbtc.Staking
