import Interbtc.Annuity.Pallet
import Interbtc.Currency.Flows
import Interbtc.Reward.Solvency

/-!
# What annuities owe

Rewards are owed from the block in which they are distributed until they are withdrawn. For the
escrow nothing is set aside: a block is covered by what the last update left for it. For the vaults
a block moves the tokens first.
-/

namespace Interbtc.Annuity

open Core MultiCurrency RewardsApi

variable {AccountId CurrencyId StakeId Tokens Pools α : Type}
  {cfg : AnnuityConfig AccountId CurrencyId}

/-! ## What is owed -/

section Owed

variable [DecidableEq AccountId] [DecidableEq CurrencyId] [DecidableEq StakeId] [Fintype StakeId]
  [RewardsApi Pools Unit StakeId CurrencyId] [LawfulRewardsApi Pools]
  {s s' : Annuity Tokens Pools}

/-- The stakes of the reward pool and its rewards. -/
def shares (cfg : AnnuityConfig AccountId CurrencyId) (s : Annuity Tokens Pools) :
    ShareLedger StakeId :=
  LawfulRewardsApi.ledger s.rewards cfg.nativeCurrencyId ()

/-- What the stakers have not withdrawn yet. -/
def liability (cfg : AnnuityConfig AccountId CurrencyId) (s : Annuity Tokens Pools) : ℚ :=
  ShareLedger.reserve (LawfulRewardsApi.rounding Pools Unit StakeId CurrencyId) (s.shares cfg)

variable (Pools StakeId CurrencyId) in
/-- One unit of the last digit. -/
def ulp : ℚ := (LawfulRewardsApi.rounding Pools Unit StakeId CurrencyId).ulp

/-- The reward pool is valid and its stakes add up. -/
structure Sound (cfg : AnnuityConfig AccountId CurrencyId) (s : Annuity Tokens Pools) : Prop where
  valid : LawfulRewardsApi.Valid Unit StakeId CurrencyId s.rewards
  shares : (s.shares cfg).Sound

omit [DecidableEq AccountId] in
/-- What is owed once the pool has taken a step. -/
theorem owed_step {r : Pools} {spread paid : ℚ} (hs : Sound cfg s)
    (hvalid : LawfulRewardsApi.Valid Unit StakeId CurrencyId r)
    (hstep : ShareLedger.Step (LawfulRewardsApi.rounding Pools Unit StakeId CurrencyId)
      (s.shares cfg) (LawfulRewardsApi.ledger r cfg.nativeCurrencyId ()) spread paid) (t : Tokens) :
    Sound cfg { s with tokens := t, rewards := r } ∧
      liability cfg { s with tokens := t, rewards := r } + paid ≤
        s.liability cfg + spread + ulp CurrencyId StakeId Pools :=
  ⟨⟨hvalid, hstep.sound hs.shares⟩, hstep.reserve_le hs.shares⟩

omit [DecidableEq AccountId] in
/-- A distribution owes at most its amount, even if it fails on the way. -/
theorem owed_distributeReward {x : ℕ} (hs : Sound cfg s)
    (h : (∃ u, (withRewards (distributeReward () cfg.nativeCurrencyId x) :
        AnnuityCall Tokens Pools Unit).run s = .ok u s') ∨
      ∃ e, (withRewards (distributeReward () cfg.nativeCurrencyId x) :
        AnnuityCall Tokens Pools Unit).run s = .error e s') :
    ∃ r, s' = { s with rewards := r } ∧ Sound cfg s' ∧
      s'.liability cfg ≤ s.liability cfg + x + ulp CurrencyId StakeId Pools := by
  have hx : (0 : ℚ) ≤ x := Nat.cast_nonneg x
  rcases h with ⟨_, h⟩ | ⟨e, h⟩
  · obtain ⟨r, hrun, rfl⟩ := run_withRewards.mp h
    have hvalid := (LawfulRewardsApi.run_distributeReward _ _ _ _ _ hs.valid hrun).1
    have hstep := LawfulRewardsApi.step_distributeReward hs.valid hrun cfg.nativeCurrencyId ()
    rw [if_pos ⟨rfl, rfl⟩] at hstep
    obtain ⟨hsound, hle⟩ := owed_step hs hvalid hstep s.tokens
    rw [add_zero] at hle
    exact ⟨r, rfl, hsound, hle⟩
  · obtain ⟨e', r, hrun, rfl⟩ := run_withRewards_error h
    obtain ⟨hvalid, hledger⟩ :=
      LawfulRewardsApi.run_distributeReward_error _ _ _ _ _ _ hs.valid hrun
    rcases hledger cfg.nativeCurrencyId () with hsame | ⟨-, -, htotal, hspread⟩
    · have hstep : ShareLedger.Step (LawfulRewardsApi.rounding Pools Unit StakeId CurrencyId)
          (s.shares cfg) (LawfulRewardsApi.ledger r cfg.nativeCurrencyId ()) 0 0 := by
        rw [hsame]
        exact .stay
      obtain ⟨hsound, hle⟩ := owed_step hs hvalid hstep s.tokens
      exact ⟨r, rfl, hsound, by linarith⟩
    · have hstep : ShareLedger.Step (LawfulRewardsApi.rounding Pools Unit StakeId CurrencyId)
          (s.shares cfg) (LawfulRewardsApi.ledger r cfg.nativeCurrencyId ()) x 0 := by
        rw [hspread]
        exact .spread _ hx htotal
      obtain ⟨hsound, hle⟩ := owed_step hs hvalid hstep s.tokens
      rw [add_zero] at hle
      exact ⟨r, rfl, hsound, hle⟩

end Owed

/-! ## The annuity of the escrow -/

section Escrow

variable [DecidableEq AccountId] [DecidableEq CurrencyId] [Fintype AccountId]
  [MultiCurrency Tokens AccountId CurrencyId] [LawfulMultiCurrency Tokens]
  [RewardsApi Pools Unit AccountId CurrencyId] [LawfulRewardsApi Pools]
  {s s' : Annuity Tokens Pools} {u : Unit}

/-- The free tokens of the account of the pallet. -/
def freeBalance (cfg : AnnuityConfig AccountId CurrencyId) (s : Annuity Tokens Pools) : ℕ :=
  (balances s.tokens cfg.accountId cfg.nativeCurrencyId).free

/-- Nothing on the account is locked or reserved. -/
structure Unlocked (cfg : AnnuityConfig AccountId CurrencyId) (s : Annuity Tokens Pools) :
    Prop where
  frozen : (balances s.tokens cfg.accountId cfg.nativeCurrencyId).frozen = 0
  reserved : (balances s.tokens cfg.accountId cfg.nativeCurrencyId).reserved = 0

/-- What one operation can take from the account beyond what it pays. -/
def cost (cfg : AnnuityConfig AccountId CurrencyId) (s : Annuity Tokens Pools) :
    Op AccountId cfg → ℚ
  | .onInitialize => s.minRewardPerBlock cfg + ulp CurrencyId AccountId Pools
  | .withdrawRewards _ | .depositStake _ _ | .withdrawStake _ _ => ulp CurrencyId AccountId Pools
  | _ => 0

/-- After an operation the account holds what is owed, but for what the operation costs. -/
structure Costs (cfg : AnnuityConfig AccountId CurrencyId) (loss : ℚ)
    (s s' : Annuity Tokens Pools) : Prop where
  sound : Sound cfg s'
  unlocked : Unlocked cfg s'
  owed : s'.liability cfg + s.freeBalance cfg ≤ s.liability cfg + s'.freeBalance cfg + loss

omit [LawfulMultiCurrency Tokens] in
private theorem costs_of_tokens {t : Tokens} (hs : Sound cfg s) (hunlocked : Unlocked cfg s)
    (hfrozen : (balances t cfg.accountId cfg.nativeCurrencyId).frozen =
      (balances s.tokens cfg.accountId cfg.nativeCurrencyId).frozen)
    (hreserved : (balances t cfg.accountId cfg.nativeCurrencyId).reserved =
      (balances s.tokens cfg.accountId cfg.nativeCurrencyId).reserved)
    (hfree : s.freeBalance cfg ≤ (balances t cfg.accountId cfg.nativeCurrencyId).free) :
    Costs cfg 0 s { s with tokens := t } where
  sound := ⟨hs.valid, hs.shares⟩
  unlocked := ⟨hfrozen.trans hunlocked.frozen, hreserved.trans hunlocked.reserved⟩
  owed := by
    rw [add_zero]
    exact add_le_add_right (Nat.cast_le.mpr hfree) _

omit [LawfulMultiCurrency Tokens] in
private theorem costs_of_stake {r : Pools} (hs : Sound cfg s) (hunlocked : Unlocked cfg s)
    (hvalid : LawfulRewardsApi.Valid Unit AccountId CurrencyId r)
    (hstep : ShareLedger.Step (LawfulRewardsApi.rounding Pools Unit AccountId CurrencyId)
      (s.shares cfg) (LawfulRewardsApi.ledger r cfg.nativeCurrencyId ()) 0 0) :
    Costs cfg (ulp CurrencyId AccountId Pools) s { s with rewards := r } := by
  obtain ⟨hsound, hle⟩ := owed_step hs hvalid hstep s.tokens
  refine ⟨hsound, ⟨hunlocked.frozen, hunlocked.reserved⟩, ?_⟩
  change _ + (s.freeBalance cfg : ℚ) ≤ _ + (s.freeBalance cfg : ℚ) + _
  linarith

omit [LawfulMultiCurrency Tokens] in
/-- A block changes nothing but the reward pool. -/
theorem run_onInitialize (hs : Sound cfg s)
    (h : (onInitialize cfg (escrowBlockRewardProvider cfg) : AnnuityCall Tokens Pools Unit).run s =
      .ok u s') :
    ∃ r, s' = { s with rewards := r } ∧ Sound cfg s' ∧ s'.liability cfg ≤
      s.liability cfg + s.minRewardPerBlock cfg + ulp CurrencyId AccountId Pools := by
  obtain ⟨_, t, hattempt, hpure⟩ := Call.run_bind_eq_ok.mp h
  obtain ⟨-, rfl⟩ := Call.run_pure_eq_ok.mp hpure
  rcases Call.run_attempt_eq_ok.mp hattempt with ⟨v, -, hrun⟩ | ⟨e, -, hrun⟩
  · exact owed_distributeReward hs (.inl ⟨v, hrun⟩)
  · exact owed_distributeReward hs (.inr ⟨e, hrun⟩)

private theorem costs_withdrawRewards {origin : AnnuityOrigin cfg} (hs : Sound cfg s)
    (hunlocked : Unlocked cfg s)
    (h : (withdrawRewards (escrowBlockRewardProvider cfg) origin :
      AnnuityCall Tokens Pools Unit).run s = .ok u s') :
    Costs cfg (ulp CurrencyId AccountId Pools) s s' := by
  simp only [withdrawRewards, escrowBlockRewardProvider, Call.run_bind_eq_ok, run_ensureSigned,
    run_withTokens, run_withRewards] at h
  obtain ⟨who, _, ⟨-, rfl⟩, x, _, ⟨r, hreward, rfl⟩, t, htransfer, rfl⟩ := h
  have hmoves : Transfers cfg.nativeCurrencyId cfg.accountId who.1 x s.tokens t :=
    run_transfer htransfer
  have hvalid := (LawfulRewardsApi.run_withdrawReward _ _ _ _ _ _ hs.valid hreward).1
  have hstep := LawfulRewardsApi.step_withdrawReward hs.valid hreward cfg.nativeCurrencyId ()
  rw [if_pos ⟨rfl, rfl⟩] at hstep
  obtain ⟨hsound, hle⟩ := owed_step hs hvalid hstep t
  refine ⟨hsound, ⟨(hmoves.frozen _ _).trans hunlocked.frozen,
    (hmoves.reserved _ _).trans hunlocked.reserved⟩, ?_⟩
  have hfree := hmoves.free cfg.accountId cfg.nativeCurrencyId
  have hin : 0 ≤ flow cfg.nativeCurrencyId who.1 x cfg.nativeCurrencyId cfg.accountId := flow_nonneg
  rw [flow_self] at hfree
  have hnat : s.freeBalance cfg ≤ (balances t cfg.accountId cfg.nativeCurrencyId).free + x := by
    change (balances s.tokens _ _).free ≤ _
    omega
  have hcast : (s.freeBalance cfg : ℚ) ≤
      (balances t cfg.accountId cfg.nativeCurrencyId).free + x := by
    exact_mod_cast hnat
  change _ + (s.freeBalance cfg : ℚ) ≤
    _ + ((balances t cfg.accountId cfg.nativeCurrencyId).free : ℚ) + _
  linarith

/-- What one operation costs. -/
theorem costs_step (hs : Sound cfg s) (hunlocked : Unlocked cfg s) (op : Op AccountId cfg) :
    Costs cfg (cost cfg s op) s (step (escrowBlockRewardProvider cfg) s op) := by
  rcases (dispatch (escrowBlockRewardProvider cfg) op : AnnuityCall Tokens Pools Unit).commit_cases
    s with ⟨_, hrun⟩ | ⟨-, hsame⟩
  · rw [step]
    revert hrun
    generalize (dispatch (escrowBlockRewardProvider cfg) op :
      AnnuityCall Tokens Pools Unit).commit s = s'
    intro hrun
    cases op with
    | onInitialize =>
      obtain ⟨r, rfl, hsound, hle⟩ := run_onInitialize hs hrun
      refine ⟨hsound, ⟨hunlocked.frozen, hunlocked.reserved⟩, ?_⟩
      change _ + (s.freeBalance cfg : ℚ) ≤ _ + (s.freeBalance cfg : ℚ) + (_ + _)
      linarith
    | withdrawRewards origin => exact costs_withdrawRewards hs hunlocked hrun
    | updateRewards origin =>
      obtain ⟨_, _, hroot, hrun⟩ := Call.run_bind_eq_ok.mp hrun
      obtain ⟨-, rfl⟩ := run_ensureRoot.mp hroot
      obtain rfl := Call.run_modify_eq_ok.mp hrun
      exact ⟨⟨hs.valid, hs.shares⟩, ⟨hunlocked.frozen, hunlocked.reserved⟩, (add_zero _).ge⟩
    | setRewardPerWrapped origin rewardPerWrapped =>
      obtain ⟨_, _, hroot, hrun⟩ := Call.run_bind_eq_ok.mp hrun
      obtain ⟨-, rfl⟩ := run_ensureRoot.mp hroot
      obtain rfl := Call.run_modify_eq_ok.mp hrun
      exact ⟨⟨hs.valid, hs.shares⟩, ⟨hunlocked.frozen, hunlocked.reserved⟩, (add_zero _).ge⟩
    | depositStake stakeId amount =>
      obtain ⟨r, hstake, rfl⟩ := run_withRewards.mp hrun
      exact costs_of_stake hs hunlocked
        (LawfulRewardsApi.run_depositStake _ _ _ _ _ hs.valid hstake).1
        (LawfulRewardsApi.step_depositStake hs.valid hstake _ _)
    | withdrawStake stakeId amount =>
      obtain ⟨r, hstake, rfl⟩ := run_withRewards.mp hrun
      exact costs_of_stake hs hunlocked
        (LawfulRewardsApi.run_withdrawStake _ _ _ _ _ hs.valid hstake).1
        (LawfulRewardsApi.step_withdrawStake hs.valid hstake _ _)
    | transfer who dest currencyId amount =>
      obtain ⟨t, htransfer, rfl⟩ := run_withTokens.mp hrun
      have hmoves := run_transfer htransfer
      exact costs_of_tokens hs hunlocked (hmoves.frozen _ _) (hmoves.reserved _ _)
        (hmoves.le_free _ fun h => who.2.1 h.2.symm)
    | mint dest currencyId amount =>
      obtain ⟨t, hdeposit, rfl⟩ := run_withTokens.mp hrun
      have hbalances := (LawfulMultiCurrency.run_deposit _ _ _ _ _ hdeposit).2
      refine costs_of_tokens hs hunlocked ?_ ?_ ?_
      · rw [hbalances, modify_keeps AccountData.frozen rfl]
      · rw [hbalances, modify_keeps AccountData.reserved rfl]
      · exact le_free_of_deposit hdeposit cfg.accountId cfg.nativeCurrencyId
  · rw [step, hsame]
    have hulp : 0 ≤ ulp CurrencyId AccountId Pools := Rounding.ulp_nonneg _
    refine ⟨hs, hunlocked, le_add_of_nonneg_right ?_⟩
    cases op with
    | onInitialize => exact add_nonneg (Nat.cast_nonneg _) hulp
    | withdrawRewards => exact hulp
    | depositStake => exact hulp
    | withdrawStake => exact hulp
    | _ => exact le_rfl

/-! ## Runs between two updates -/

/-- Whether a block begins. -/
def Op.isBlock : Op StakeId cfg → Bool
  | .onInitialize => true
  | _ => false

/-- Whether a period begins. -/
def Op.isUpdate : Op StakeId cfg → Bool
  | .updateRewards _ => true
  | _ => false

omit [LawfulMultiCurrency Tokens] in
/-- Only an update changes the rewards of a block. -/
theorem rewardPerBlock_step {op : Op AccountId cfg} (hs : Sound cfg s) (hop : op.isUpdate = false) :
    (step (escrowBlockRewardProvider cfg) s op).rewardPerBlock = s.rewardPerBlock := by
  rcases (dispatch (escrowBlockRewardProvider cfg) op : AnnuityCall Tokens Pools Unit).commit_cases
    s with ⟨_, hrun⟩ | ⟨-, hsame⟩
  · rw [step]
    revert hrun
    generalize (dispatch (escrowBlockRewardProvider cfg) op :
      AnnuityCall Tokens Pools Unit).commit s = s'
    intro hrun
    cases op with
    | onInitialize =>
      obtain ⟨r, rfl, -, -⟩ := run_onInitialize hs hrun
      rfl
    | withdrawRewards origin =>
      simp only [dispatch, withdrawRewards, escrowBlockRewardProvider, Call.run_bind_eq_ok,
        run_ensureSigned, run_withTokens, run_withRewards] at hrun
      obtain ⟨who, _, ⟨-, rfl⟩, x, _, ⟨r, -, rfl⟩, t, -, rfl⟩ := hrun
      rfl
    | updateRewards => cases hop
    | setRewardPerWrapped origin rewardPerWrapped =>
      obtain ⟨_, _, hroot, hrun⟩ := Call.run_bind_eq_ok.mp hrun
      obtain ⟨-, rfl⟩ := run_ensureRoot.mp hroot
      obtain rfl := Call.run_modify_eq_ok.mp hrun
      rfl
    | depositStake stakeId amount =>
      obtain ⟨r, -, rfl⟩ := run_withRewards.mp hrun
      rfl
    | withdrawStake stakeId amount =>
      obtain ⟨r, -, rfl⟩ := run_withRewards.mp hrun
      rfl
    | transfer who dest currencyId amount =>
      obtain ⟨t, -, rfl⟩ := run_withTokens.mp hrun
      rfl
    | mint dest currencyId amount =>
      obtain ⟨t, -, rfl⟩ := run_withTokens.mp hrun
      rfl
  · rw [step, hsame]

omit [Fintype AccountId] [LawfulMultiCurrency Tokens] in
private theorem cost_le (op : Op AccountId cfg) : cost cfg s op ≤
    (if op.isBlock then (s.rewardPerBlock : ℚ) else 0) + ulp CurrencyId AccountId Pools := by
  have hulp : 0 ≤ ulp CurrencyId AccountId Pools := Rounding.ulp_nonneg _
  have hmin : (s.minRewardPerBlock cfg : ℚ) ≤ s.rewardPerBlock :=
    Nat.cast_le.mpr minRewardPerBlock_le
  cases op with
  | onInitialize => exact add_le_add_left hmin _
  | withdrawRewards => exact (zero_add _).ge
  | depositStake => exact (zero_add _).ge
  | withdrawStake => exact (zero_add _).ge
  | _ => exact hulp.trans (zero_add _).ge

/-- Between two updates the account loses its rewards of each block, and units of the last digit. -/
theorem owed_run (hs : Sound cfg s) (hunlocked : Unlocked cfg s) {ops : List (Op AccountId cfg)}
    (hops : ∀ op ∈ ops, op.isUpdate = false) :
    Costs cfg
      (ops.countP Op.isBlock * s.rewardPerBlock + ops.length * ulp CurrencyId AccountId Pools) s
      (run (step (escrowBlockRewardProvider cfg)) s ops) := by
  induction ops generalizing s with
  | nil =>
    rw [run_nil, List.countP_nil, List.length_nil, Nat.cast_zero, zero_mul, zero_mul, add_zero]
    exact ⟨hs, hunlocked, (add_zero _).ge⟩
  | cons op ops ih =>
    have hone := costs_step hs hunlocked op
    have hrate := rewardPerBlock_step hs (hops op List.mem_cons_self)
    have hrest := ih hone.sound hone.unlocked fun o ho => hops o (List.mem_cons_of_mem _ ho)
    have hcost := cost_le (s := s) op
    rw [run_cons]
    refine ⟨hrest.sound, hrest.unlocked, ?_⟩
    have h₁ := hone.owed
    have h₂ := hrest.owed
    rw [hrate] at h₂
    rw [List.countP_cons, List.length_cons]
    cases hblock : op.isBlock with
    | false =>
      rw [hblock, if_neg Bool.false_ne_true] at hcost
      rw [if_neg Bool.false_ne_true, add_zero, Nat.cast_succ, add_mul]
      linarith
    | true =>
      rw [hblock, if_pos rfl] at hcost
      rw [if_pos rfl, Nat.cast_succ, Nat.cast_succ, add_mul, add_mul]
      linarith

/-- What the reward pool pays, the account can transfer while it holds what is owed. -/
theorem withdrawRewards_succeeds {who : cfg.Signer} (hs : Sound cfg s) (hunlocked : Unlocked cfg s)
    (howed : s.liability cfg < s.freeBalance cfg + 1)
    (h : (withdrawReward () who.1 cfg.nativeCurrencyId : Call DispatchError Pools ℕ).succeeds
      s.rewards = true) :
    (withdrawRewards (escrowBlockRewardProvider cfg) (.signed who) :
      AnnuityCall Tokens Pools Unit).succeeds s = true := by
  obtain ⟨x, r, hreward⟩ := Call.succeeds_iff.mp h
  obtain ⟨-, hpaid, -⟩ := LawfulRewardsApi.run_withdrawReward _ _ _ _ _ _ hs.valid hreward
  have hle : (x : ℚ) ≤ s.liability cfg := by
    have hreserve := hs.shares.payable_le_reserve
      (LawfulRewardsApi.rounding Pools Unit AccountId CurrencyId) who.1
    have hcast : (x : ℚ) = ((s.shares cfg).payable
        (LawfulRewardsApi.rounding Pools Unit AccountId CurrencyId) who.1 : ℚ) := by
      exact_mod_cast congrArg (Int.cast : ℤ → ℚ) hpaid
    rw [hcast]
    exact hreserve
  have hfree : x ≤ s.freeBalance cfg :=
    Nat.lt_succ_iff.mp (by exact_mod_cast hle.trans_lt howed)
  have htransfer : (transfer cfg.nativeCurrencyId cfg.accountId who.1 x :
      Call TokensError Tokens Unit).succeeds s.tokens = true := by
    refine (LawfulMultiCurrency.transfer_succeeds _ _ _ _ _).mpr (.inr (.inr ?_))
    rw [hunlocked.frozen]
    exact hfree
  obtain ⟨_, t, ht⟩ := Call.succeeds_iff.mp htransfer
  refine Call.succeeds_iff.mpr ⟨(), { s with tokens := t, rewards := r }, ?_⟩
  simp only [withdrawRewards, escrowBlockRewardProvider, Call.run_bind_eq_ok, run_ensureSigned,
    run_withTokens, run_withRewards]
  exact ⟨who, s, ⟨rfl, rfl⟩, x, { s with rewards := r }, ⟨r, hreward, rfl⟩, t, ht, rfl⟩

/-- After an update, and until the next one, every withdrawal that the reward pool grants is paid as
long as the balance covers the rewards of the blocks beside what was owed at the update. If next to
nothing was owed then, it does so for the whole period. -/
theorem emission_is_funded (hs : Sound cfg s) (hunlocked : Unlocked cfg s)
    (ops : List (Op AccountId cfg)) (hops : ∀ op ∈ ops, op.isUpdate = false) :
    let start := step (escrowBlockRewardProvider cfg) s (.updateRewards .root : Op AccountId cfg)
    let dust := ops.length * ulp CurrencyId AccountId Pools
    (s.liability cfg + ops.countP Op.isBlock * start.rewardPerBlock + dust < s.freeBalance cfg + 1 →
      ∀ who : cfg.Signer,
        (withdrawReward () who.1 cfg.nativeCurrencyId : Call DispatchError Pools ℕ).succeeds
          (run (step (escrowBlockRewardProvider cfg)) start ops).rewards = true →
        (dispatch (escrowBlockRewardProvider cfg) (.withdrawRewards (.signed who)) :
          AnnuityCall Tokens Pools Unit).succeeds
            (run (step (escrowBlockRewardProvider cfg)) start ops) = true) ∧
      (ops.countP Op.isBlock ≤ cfg.emissionPeriod → s.liability cfg + dust < 1 →
        s.liability cfg + ops.countP Op.isBlock * start.rewardPerBlock + dust <
          s.freeBalance cfg + 1) := by
  intro start dust
  have hstart : start = { s with rewardPerBlock := (s.freeBalance cfg +
      (balances s.tokens cfg.accountId cfg.nativeCurrencyId).reserved) / cfg.emissionPeriod } := by
    refine Call.commit_of_ok (a := ()) (Call.run_bind_eq_ok.mpr ⟨(), s, rfl, ?_⟩)
    exact Call.run_modify_eq_ok.mpr rfl
  have hone := costs_step hs hunlocked (.updateRewards .root : Op AccountId cfg)
  have hliability : start.liability cfg = s.liability cfg := by rw [hstart]; rfl
  have hfree : start.freeBalance cfg = s.freeBalance cfg := by rw [hstart]; rfl
  constructor
  · intro hfunds who h
    have hrun := owed_run hone.sound hone.unlocked hops
    refine withdrawRewards_succeeds hrun.sound hrun.unlocked ?_ h
    have howed := hrun.owed
    change _ + (start.freeBalance cfg : ℚ) ≤ start.liability cfg + _ + (_ * _ + dust) at howed
    rw [hliability, hfree] at howed
    linarith
  · intro hblocks hdust
    have hrate : start.rewardPerBlock = s.freeBalance cfg / cfg.emissionPeriod := by
      rw [hstart]
      change (_ + (balances s.tokens cfg.accountId cfg.nativeCurrencyId).reserved) / _ = _
      rw [hunlocked.reserved, add_zero]
    have hle : ops.countP Op.isBlock * start.rewardPerBlock ≤ s.freeBalance cfg := by
      rw [hrate]
      exact (Nat.mul_le_mul_right _ hblocks).trans (Nat.mul_div_le _ _)
    have hcast : (ops.countP Op.isBlock * start.rewardPerBlock : ℚ) ≤ s.freeBalance cfg := by
      exact_mod_cast hle
    linarith

end Escrow

/-! ## The annuity of the vaults -/

section Vaults

variable [DecidableEq AccountId] [DecidableEq CurrencyId] [Fintype CurrencyId]
  [MultiCurrency Tokens AccountId CurrencyId] [LawfulMultiCurrency Tokens]
  [RewardsApi Pools Unit CurrencyId CurrencyId] [LawfulRewardsApi Pools]
  {s s' : Annuity Tokens Pools} {u : Unit}

/-- The free tokens of the fee pool. -/
def feeBalance (cfg : AnnuityConfig AccountId CurrencyId) (s : Annuity Tokens Pools) : ℕ :=
  (balances s.tokens cfg.feeAccountId cfg.nativeCurrencyId).free

/-- A block moves its rewards to the account of the fees before it owes them. If the distribution
fails they are moved all the same. -/
theorem owed_vaultBlock (hs : Sound cfg s)
    (htransfer : ∀ (c : CurrencyId) (a a' : AccountId) (x : ℕ) (t t' : Tokens) (e : TokensError),
      (transfer c a a' x).run t = .error e t' → t' = t)
    (h : (onInitialize cfg (vaultBlockRewardProvider cfg) : AnnuityCall Tokens Pools Unit).run s =
      .ok u s') :
    Sound cfg s' ∧ s'.liability cfg + s.feeBalance cfg ≤
      s.liability cfg + s'.feeBalance cfg + ulp CurrencyId CurrencyId Pools := by
  have hulp : 0 ≤ ulp CurrencyId CurrencyId Pools := Rounding.ulp_nonneg _
  have hmoved : ∀ t s₁, (transfer cfg.nativeCurrencyId cfg.accountId cfg.feeAccountId
      (s.minRewardPerBlock cfg)).run s.tokens = .ok () t →
      ((∃ u, (withRewards (distributeReward () cfg.nativeCurrencyId (s.minRewardPerBlock cfg)) :
        AnnuityCall Tokens Pools Unit).run { s with tokens := t } = .ok u s₁) ∨
      ∃ e, (withRewards (distributeReward () cfg.nativeCurrencyId (s.minRewardPerBlock cfg)) :
        AnnuityCall Tokens Pools Unit).run { s with tokens := t } = .error e s₁) →
      Sound cfg s₁ ∧ s₁.liability cfg + s.feeBalance cfg ≤
        s.liability cfg + s₁.feeBalance cfg + ulp CurrencyId CurrencyId Pools := by
    intro t s₁ ht hdistribute
    obtain ⟨r, rfl, hsound, hle⟩ :=
      owed_distributeReward (s := { s with tokens := t }) ⟨hs.valid, hs.shares⟩ hdistribute
    have hfree := (run_transfer ht).free cfg.feeAccountId cfg.nativeCurrencyId
    rw [flow_self, flow_of_ne cfg.account_ne_fee.symm] at hfree
    have hcast : ((balances t cfg.feeAccountId cfg.nativeCurrencyId).free : ℚ) =
        s.feeBalance cfg + s.minRewardPerBlock cfg := by
      have hnat : (balances t cfg.feeAccountId cfg.nativeCurrencyId).free =
          s.feeBalance cfg + s.minRewardPerBlock cfg := by
        change _ = (balances s.tokens _ _).free + _
        omega
      exact_mod_cast hnat
    refine ⟨hsound, ?_⟩
    change _ + _ ≤ _ + ((balances t cfg.feeAccountId cfg.nativeCurrencyId).free : ℚ) + _
    change _ ≤ s.liability cfg + _ + _ at hle
    linarith
  obtain ⟨_, s₁, hattempt, hpure⟩ := Call.run_bind_eq_ok.mp h
  obtain ⟨-, rfl⟩ := Call.run_pure_eq_ok.mp hpure
  rcases Call.run_attempt_eq_ok.mp hattempt with ⟨v, -, hrun⟩ | ⟨e, -, hrun⟩
  · obtain ⟨_, _, hget, hrun⟩ := Call.run_bind_eq_ok.mp hrun
    obtain ⟨rfl, rfl⟩ := Call.run_get_eq_ok.mp hget
    obtain ⟨_, _, htokens, hrewards⟩ := Call.run_bind_eq_ok.mp hrun
    obtain ⟨t, ht, rfl⟩ := run_withTokens.mp htokens
    exact hmoved t s₁ ht (.inl ⟨v, hrewards⟩)
  · rcases Call.run_bind_eq_error.mp hrun with hget | ⟨_, _, hget, hrun⟩
    · cases hget
    obtain ⟨rfl, rfl⟩ := Call.run_get_eq_ok.mp hget
    rcases Call.run_bind_eq_error.mp hrun with htokens | ⟨_, _, htokens, hrewards⟩
    · obtain ⟨e', hzoom, -⟩ := Call.run_mapError_eq_error.mp htokens
      obtain ⟨t, ht, rfl⟩ := Lens.run_zoom_eq_error.mp hzoom
      obtain rfl := htransfer _ _ _ _ _ _ _ ht
      exact ⟨hs, le_add_of_nonneg_right hulp⟩
    · obtain ⟨t, ht, rfl⟩ := run_withTokens.mp htokens
      exact hmoved t s₁ ht (.inr ⟨e, hrewards⟩)

private theorem owed_vaultStep (hs : Sound cfg s)
    (htransfer : ∀ (c : CurrencyId) (a a' : AccountId) (x : ℕ) (t t' : Tokens) (e : TokensError),
      (transfer c a a' x).run t = .error e t' → t' = t) (op : Op CurrencyId cfg) :
    Sound cfg (step (vaultBlockRewardProvider cfg) s op) ∧
      (step (vaultBlockRewardProvider cfg) s op).liability cfg + s.feeBalance cfg ≤
        s.liability cfg + (step (vaultBlockRewardProvider cfg) s op).feeBalance cfg +
          ulp CurrencyId CurrencyId Pools := by
  have hulp : 0 ≤ ulp CurrencyId CurrencyId Pools := Rounding.ulp_nonneg _
  rcases (dispatch (vaultBlockRewardProvider cfg) op : AnnuityCall Tokens Pools Unit).commit_cases
    s with ⟨_, hrun⟩ | ⟨-, hsame⟩
  · rw [step]
    revert hrun
    generalize (dispatch (vaultBlockRewardProvider cfg) op :
      AnnuityCall Tokens Pools Unit).commit s = s'
    intro hrun
    cases op with
    | onInitialize => exact owed_vaultBlock hs htransfer hrun
    | withdrawRewards origin =>
      simp only [dispatch, withdrawRewards, vaultBlockRewardProvider, Call.run_bind_eq_ok,
        Call.run_throw_eq_ok, false_and, and_false, exists_false] at hrun
    | updateRewards origin =>
      obtain ⟨_, _, hroot, hrun⟩ := Call.run_bind_eq_ok.mp hrun
      obtain ⟨-, rfl⟩ := run_ensureRoot.mp hroot
      obtain rfl := Call.run_modify_eq_ok.mp hrun
      exact ⟨⟨hs.valid, hs.shares⟩, le_add_of_nonneg_right hulp⟩
    | setRewardPerWrapped origin rewardPerWrapped =>
      obtain ⟨_, _, hroot, hrun⟩ := Call.run_bind_eq_ok.mp hrun
      obtain ⟨-, rfl⟩ := run_ensureRoot.mp hroot
      obtain rfl := Call.run_modify_eq_ok.mp hrun
      exact ⟨⟨hs.valid, hs.shares⟩, le_add_of_nonneg_right hulp⟩
    | depositStake stakeId amount =>
      obtain ⟨r, hstake, rfl⟩ := run_withRewards.mp hrun
      obtain ⟨hsound, hle⟩ := owed_step hs
        (LawfulRewardsApi.run_depositStake _ _ _ _ _ hs.valid hstake).1
        (LawfulRewardsApi.step_depositStake hs.valid hstake _ _) s.tokens
      refine ⟨hsound, ?_⟩
      change _ + (s.feeBalance cfg : ℚ) ≤ _ + (s.feeBalance cfg : ℚ) + _
      linarith
    | withdrawStake stakeId amount =>
      obtain ⟨r, hstake, rfl⟩ := run_withRewards.mp hrun
      obtain ⟨hsound, hle⟩ := owed_step hs
        (LawfulRewardsApi.run_withdrawStake _ _ _ _ _ hs.valid hstake).1
        (LawfulRewardsApi.step_withdrawStake hs.valid hstake _ _) s.tokens
      refine ⟨hsound, ?_⟩
      change _ + (s.feeBalance cfg : ℚ) ≤ _ + (s.feeBalance cfg : ℚ) + _
      linarith
    | transfer who dest currencyId amount =>
      obtain ⟨t, ht, rfl⟩ := run_withTokens.mp hrun
      have hle := (run_transfer ht).le_free (d := cfg.nativeCurrencyId) cfg.feeAccountId
        fun h => who.2.2 h.2.symm
      exact ⟨⟨hs.valid, hs.shares⟩,
        (add_le_add_right (Nat.cast_le.mpr hle) _).trans (le_add_of_nonneg_right hulp)⟩
    | mint dest currencyId amount =>
      obtain ⟨t, hdeposit, rfl⟩ := run_withTokens.mp hrun
      have hle := le_free_of_deposit hdeposit cfg.feeAccountId cfg.nativeCurrencyId
      exact ⟨⟨hs.valid, hs.shares⟩,
        (add_le_add_right (Nat.cast_le.mpr hle) _).trans (le_add_of_nonneg_right hulp)⟩
  · rw [step, hsame]
    exact ⟨hs, le_add_of_nonneg_right hulp⟩

/-- In every run the account of the fees gets at least what the vaults are owed by it. -/
theorem vault_rewards_are_funded (hs : Sound cfg s)
    (htransfer : ∀ (c : CurrencyId) (a a' : AccountId) (x : ℕ) (t t' : Tokens) (e : TokensError),
      (transfer c a a' x).run t = .error e t' → t' = t)
    (ops : List (Op CurrencyId cfg)) :
    Sound cfg (run (step (vaultBlockRewardProvider cfg)) s ops) ∧
      (run (step (vaultBlockRewardProvider cfg)) s ops).liability cfg + s.feeBalance cfg ≤
        s.liability cfg + (run (step (vaultBlockRewardProvider cfg)) s ops).feeBalance cfg +
          ops.length * ulp CurrencyId CurrencyId Pools := by
  induction ops generalizing s with
  | nil =>
    rw [run_nil, List.length_nil, Nat.cast_zero, zero_mul, add_zero]
    exact ⟨hs, le_rfl⟩
  | cons op ops ih =>
    obtain ⟨hsound, hone⟩ := owed_vaultStep hs htransfer op
    obtain ⟨hrun, hrest⟩ := ih hsound
    rw [run_cons, List.length_cons, Nat.cast_succ, add_mul, one_mul]
    exact ⟨hrun, by linarith⟩

end Vaults

/-! ## A year of ten blocks

The accounts are the annuity's, the one of the fees, and a staker. -/

namespace Sample

/-- The accounts of the examples. -/
inductive Account
  | annuity
  | fees
  | staker
  deriving DecidableEq

instance : Fintype Account where
  elems := {.annuity, .fees, .staker}
  complete a := by cases a <;> decide

/-- Two currencies, one of them native. -/
def config : AnnuityConfig Account Bool where
  accountId := .annuity
  feeAccountId := .fees
  nativeCurrencyId := true
  wrappedCurrencyId := false
  emissionPeriod := 10
  account_ne_fee := by decide

instance : RewardConfig Unit Account Bool where
  maxRewardCurrencies := 1

/-- The storage of the first example. -/
abbrev Store : Type := Annuity (TokenLedger Account Bool) (Rewards Unit Account Bool FixedI128)

/-- The annuity has a hundred units of the native currency. -/
def genesis : Store where
  tokens :=
    { accounts := fun a c => if a = .annuity ∧ c = true then ⟨100, 0, 0⟩ else ⟨0, 0, 0⟩
      issuance := fun c => if c then 100 else 0 }
  rewards := .default
  rewardPerBlock := 0
  rewardPerWrapped := none

/-- An account that stakes. -/
def staker : config.Signer := ⟨.staker, by decide, by decide⟩

/-- Rewards are withdrawn between the blocks. -/
def blocks : List (Op Account config) :=
  [.depositStake .staker 5, .onInitialize, .onInitialize, .withdrawRewards (.signed staker),
    .onInitialize]

private theorem sound_genesis : Sound config genesis where
  valid := Rewards.Tracked.default
  shares := (Rewards.Sound.default (F := FixedI128)).shares _ _

/-- A staker withdraws after some blocks. -/
theorem emission_is_funded_blocks :
    (dispatch (escrowBlockRewardProvider config) (.withdrawRewards (.signed staker)) :
      AnnuityCall (TokenLedger Account Bool) (Rewards Unit Account Bool FixedI128) Unit).succeeds
        (run (step (escrowBlockRewardProvider config))
          (step (escrowBlockRewardProvider config) genesis
            (.updateRewards .root : Op Account config)) blocks) = true :=
  (emission_is_funded sound_genesis ⟨rfl, rfl⟩ blocks (by decide)).1
    ((emission_is_funded sound_genesis ⟨rfl, rfl⟩ blocks (by decide)).2 (by decide)
      (by decide +kernel)) staker (by decide +kernel)

/-! The same account pays the vaults. -/

instance : RewardConfig Unit Bool Bool where
  maxRewardCurrencies := 2

/-- The storage of the second example. -/
abbrev VaultStore : Type := Annuity (TokenLedger Account Bool) (Rewards Unit Bool Bool FixedI128)

/-- Nothing is staked at first. -/
def vaultGenesis : VaultStore where
  tokens := genesis.tokens
  rewards := .default
  rewardPerBlock := 10
  rewardPerWrapped := none

private theorem eq_of_transfer_error (c : Bool) (a a' : Account) (x : ℕ)
    (t t' : TokenLedger Account Bool)
    (e : TokensError) (h : (transfer c a a' x).run t = .error e t') : t' = t := by
  obtain h | ⟨_, _, hget, h⟩ := Call.run_bind_eq_error.mp h
  · cases h
  obtain ⟨rfl, rfl⟩ := Call.run_get_eq_ok.mp hget
  split at h
  · cases h
  · obtain h | ⟨_, _, -, h⟩ := Call.run_bind_eq_error.mp h
    · exact (Frames.bind (.ensure _ _) fun _ => .ensure _ _ : Frames id _).error _ _ _ h
    · cases h

private theorem sound_vaultGenesis : Sound config vaultGenesis where
  valid := Rewards.Tracked.default
  shares := (Rewards.Sound.default (F := FixedI128)).shares _ _

/-- A vault staking, and a block. -/
def vaultBlock : List (Op Bool config) := [.depositStake true 5, .onInitialize]

/-- A block of the vault annuity. -/
theorem vault_rewards_are_funded_block :
    Sound config (run (step (vaultBlockRewardProvider config)) vaultGenesis vaultBlock) ∧
      (run (step (vaultBlockRewardProvider config)) vaultGenesis vaultBlock).liability config +
        vaultGenesis.feeBalance config ≤ vaultGenesis.liability config +
          (run (step (vaultBlockRewardProvider config)) vaultGenesis vaultBlock).feeBalance config +
            vaultBlock.length * ulp Bool Bool (Rewards Unit Bool Bool FixedI128) :=
  vault_rewards_are_funded sound_vaultGenesis eq_of_transfer_error vaultBlock

end Sample

end Interbtc.Annuity
