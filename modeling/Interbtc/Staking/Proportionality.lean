import Interbtc.Staking.Exact

/-!
# Slashes are not proportional to the current stakes

A slash is spread over the *stored* total stake, from which only the slashes that
nominators have been brought up to date with are gone. So an operation that
changes no balance can change what the next slash takes from everybody.
-/

namespace Interbtc.Staking

open Core FixedPointNumber LawfulFixedPoint

variable {AccountId CurrencyId : Type} [DecidableEq AccountId] [DecidableEq CurrencyId]
  {native : CurrencyId} {v : VaultId AccountId CurrencyId} {n k : AccountId}
  {s : Staking AccountId CurrencyId ℚ} {op : Op AccountId CurrencyId ℚ}

/-- An operation that changes no balance but applies the pending slash of `k`. -/
def Op.SettlesOnly (v : VaultId AccountId CurrencyId) (k : AccountId) :
    Op AccountId CurrencyId ℚ → Prop
  | .depositStake w n amount => w = v ∧ n = k ∧ amount.1 = 0
  | .withdrawReward _ _ w n => w = v ∧ n = k
  | _ => False

private theorem deposit_zero (L : StakeLedger AccountId) : L.deposit .exact n 0 = L := by
  simp [StakeLedger.deposit]

/-- Such an operation brings `k` up to date in the current pool and does nothing else there. -/
theorem Op.SettlesOnly.currentLedger (native : CurrencyId) (h : op.SettlesOnly v k) :
    (step native s op).nonce = s.nonce ∧
      (step native s op).currentLedger v = (s.currentLedger v).apply .exact k := by
  cases op with
  | depositStake w n amount =>
    obtain ⟨rfl, rfl, hzero⟩ := h
    obtain ⟨_, s', hs'⟩ := depositStake_neverFails native w n amount.1 s
    have hstep : step native s (.depositStake w n amount) = s' := Call.commit_of_ok hs'
    obtain ⟨q, rfl, hl, -⟩ := run_depositStake hs'
    rw [hstep]
    refine ⟨rfl, ?_⟩
    simp only [Staking.currentLedger, setPool_nonce, setPool_pool_self]
    rw [hl, hzero]
    exact deposit_zero _
  | withdrawReward index c w n =>
    obtain ⟨rfl, rfl⟩ := h
    obtain ⟨reward, s', hs'⟩ := withdrawReward_neverFails index c w n s
    have hcall : (Op.call native (.withdrawReward index c w n)).run s = .ok () s' :=
      Call.run_bind_eq_ok.mpr ⟨reward, s', hs', rfl⟩
    have hstep : step native s (.withdrawReward index c w n) = s' := Call.commit_of_ok hcall
    obtain ⟨q, hq, p, r, rfl, rfl, -, hl, -⟩ := run_withdrawReward hs'
    rw [hstep]
    refine ⟨rfl, ?_⟩
    simp only [Staking.currentLedger, setPool_nonce]
    rw [setPool_pool]
    split
    · rename_i hi
      rw [hl, ← hi.2, setPool_pool_self, hq.1]
      rfl
    · rw [setPool_pool_self, hq.1]
      rfl
  | _ => exact h.elim

/-- What a slash leaves to each nominator, whether or not there is any stake to slash. -/
theorem settled_slashStake (native : CurrencyId) (s : Staking AccountId CurrencyId ℚ)
    (v : VaultId AccountId CurrencyId) (x : {a : ℚ // 0 ≤ a}) :
    (step native s (.slashStake v x)).nonce = s.nonce ∧
      ∀ n, ((step native s (.slashStake v x)).currentLedger v).settled .exact n =
        ((s.currentLedger v).slash .exact x.1).settled .exact n := by
  unfold step
  rcases (Op.call native (.slashStake v x)).commit_cases s with ⟨_, h⟩ | ⟨hfail, h⟩
  · generalize (Op.call native (.slashStake v x)).commit s = s' at h ⊢
    rcases run_slashStake h with ⟨hzero, rfl⟩ | ⟨-, -, q, rfl, hl, -⟩
    · refine ⟨rfl, fun n => ?_⟩
      rw [StakeLedger.settled_slash, hzero]
      simp
    · refine ⟨rfl, fun n => ?_⟩
      simp only [currentLedger, setPool_nonce, setPool_pool_self]
      rw [hl]
      rfl
  · rw [h]
    refine ⟨rfl, fun n => ?_⟩
    have htotal : (s.currentLedger v).total = 0 := by
      by_contra hne
      obtain ⟨u, p', hp⟩ := Pool.slashStake_succeeds (p := s.pool v (s.nonce v))
        (rewardCurrencies native v) x.1 hne
      have hrun : (Op.call native (.slashStake v x)).run s =
          .ok u ((poolAt v (s.nonce v)).set p' s) :=
        Call.run_bind_eq_ok.mpr ⟨s, s, rfl, Lens.run_zoom_eq_ok.mpr ⟨p', hp, rfl⟩⟩
      rw [Call.succeeds_iff.mpr ⟨_, _, hrun⟩] at hfail
      cases hfail
    rw [StakeLedger.settled_slash, htotal]
    simp

/-- The slash-adjusted stake in the current pool. -/
def preciseStake (s : Staking AccountId CurrencyId ℚ) (v : VaultId AccountId CurrencyId) :
    AccountId → Except DispatchError ℚ :=
  s.computePreciseStakeAtIndex (s.nonce v) v

variable [Fintype AccountId]

/-- Every pool is balanced. -/
def Balanced (s : Staking AccountId CurrencyId ℚ) : Prop := ∀ v i, (s.pool v i).ledger.Balanced

/-- Sound calls keep the pools balanced. -/
theorem Balanced.step (hs : Balanced s) (hop : op.Sound s) : Balanced (step native s op) :=
  fun v i => (hs v i).step (ledger_step native hop.1 hop.2 v i)

omit [DecidableEq AccountId] [DecidableEq CurrencyId] in
/-- At first the pools are balanced. -/
theorem Balanced.default : (default : Staking AccountId CurrencyId ℚ).Balanced := by
  intro v i
  have hdefault : ((Staking.default : Staking AccountId CurrencyId ℚ).pool v i).ledger = .empty :=
    rfl
  rw [hdefault]
  exact .empty

/-- After a run whose slashes can be borne every pool is balanced. -/
theorem balanced_run {ops : List (Op AccountId CurrencyId ℚ)}
    (h : Meets (step native) Op.Sound default ops) : Balanced (run (step native) default ops) :=
  run_invariant (fun _ _ hs hop => hs.step hop) .default h

/-- After a run whose slashes can be borne, consider a slash of at most the total current
stake. Bringing nominator `k` up to date first leaves everybody the same stake exactly when
nothing is slashed, nothing is pending for `k`, or `k` is the only staker. The slash takes the
same fraction of every stake exactly when everybody's stored stake is in the same proportion
to their current stake. -/
theorem slash_proportional_iff {ops : List (Op AccountId CurrencyId ℚ)}
    (h : Meets (step native) Op.Sound default ops) (hop : op.SettlesOnly v k)
    (x : {a : ℚ // 0 ≤ a}) :
    let s := run (step native) default ops
    let pool := s.pool v (s.nonce v)
    x.1 ≤ pool.totalCurrentStake →
    ((∀ n, (step native (step native s op) (.slashStake v x)).preciseStake v n =
          (step native s (.slashStake v x)).preciseStake v n) ↔
        x.1 = 0 ∨ pool.ledger.pending .exact k = 0 ∨ ∀ n, n ≠ k → pool.stake n = 0) ∧
      ∀ a : AccountId → ℚ, (∀ n, s.preciseStake v n = .ok (a n)) →
        ((∀ n, (step native s (.slashStake v x)).preciseStake v n =
            .ok (a n * (1 - x.1 / pool.totalCurrentStake))) ↔
          x.1 = 0 ∨ ∀ n, pool.stake n * pool.totalCurrentStake = a n * pool.totalStake) := by
  intro s pool hx
  have hbal : pool.ledger.Balanced := balanced_run h v (s.nonce v)
  have hsettle := hop.currentLedger (s := s) native
  have hprecise : ∀ (s : Staking AccountId CurrencyId ℚ) n,
      s.preciseStake v n = .ok (max 0 ((s.currentLedger v).settled .exact n)) := fun _ _ => rfl
  have hslash := fun s => settled_slashStake native s v x
  constructor
  · have hiff := hbal.apply_slash_iff k x.2 hx
    refine Iff.trans (forall_congr' fun n => ?_) hiff
    rw [hprecise, hprecise, (hslash _).2 n, (hslash _).2 n, hsettle.2, Except.ok.injEq]
  · intro a ha
    have ha' : ∀ n, pool.ledger.settled .exact n = a n := by
      intro n
      have hn : max 0 (pool.ledger.settled .exact n) = a n := Except.ok.inj (ha n)
      rwa [max_eq_right (hbal.covered.settled_nonneg n)] at hn
    have hiff := hbal.slash_fraction_iff x.2 hx
    simp only [ha'] at hiff
    refine Iff.trans (forall_congr' fun n => ?_) hiff
    rw [hprecise, (hslash _).2 n, Except.ok.injEq]
    rfl

/-! ## Runs of one vault -/

/-- A whole number as a stake. -/
def stakeOf (n : ℕ) : {a : ℚ // 0 ≤ a} := ⟨n, Nat.cast_nonneg n⟩

/-- The vault and one nominator deposit, and are slashed. -/
def halvedOps : List (Op (Fin 2) (Fin 3) ℚ) :=
  [.depositStake soleVault 0 (stakeOf 100), .depositStake soleVault 1 (stakeOf 100),
    .slashStake soleVault (stakeOf 100)]

/-- The state after the slash, with `50` pending for each of the two. -/
def halved : Staking (Fin 2) (Fin 3) ℚ := run (step 2) default halvedOps

/-- A vault that was slashed by half. -/
theorem slash_proportional_iff_halved :
    ((∀ n, (step 2 (step 2 halved (.depositStake soleVault 0 (stakeOf 0)))
          (.slashStake soleVault (stakeOf 50))).preciseStake soleVault n =
        (step 2 halved (.slashStake soleVault (stakeOf 50))).preciseStake soleVault n) ↔
      (stakeOf 50).1 = 0 ∨ (halved.currentLedger soleVault).pending .exact 0 = 0 ∨
        ∀ n, n ≠ 0 → (halved.currentLedger soleVault).stake n = 0) := by
  have hmeets : Meets (step 2) Op.Sound default halvedOps := by decide +kernel
  have hop : Op.SettlesOnly soleVault 0 (.depositStake soleVault 0 (stakeOf 0)) :=
    ⟨rfl, rfl, rfl⟩
  have h := slash_proportional_iff hmeets hop (stakeOf 50) (by decide +kernel)
  exact h.1

/-- Without the operation each nominator keeps `25`, with it they keep `100 / 3` and `50 / 3`. -/
theorem settling_shifts_the_slash :
    (∀ n, (step 2 halved (.slashStake soleVault (stakeOf 50))).preciseStake soleVault n =
        .ok 25) ∧
      (step 2 (step 2 halved (.depositStake soleVault 0 (stakeOf 0)))
        (.slashStake soleVault (stakeOf 50))).preciseStake soleVault 0 = .ok (100 / 3) ∧
      (step 2 (step 2 halved (.depositStake soleVault 0 (stakeOf 0)))
        (.slashStake soleVault (stakeOf 50))).preciseStake soleVault 1 = .ok (50 / 3) := by
  refine ⟨?_, ?_, ?_⟩
  · decide +kernel
  · decide +kernel
  · decide +kernel

end Interbtc.Staking
