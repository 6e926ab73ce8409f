import Interbtc.DexGeneral.Solvency

/-!
# Runs that are audited

The exchange is run together with an account of the rewards that were charged and not yet
distributed. In every run in which the rewards of a pair are only withdrawn while none of them
was distributed, the account of all bootstraps is solvent.
-/

namespace Interbtc.DexGeneral

open Core MultiCurrency

variable {AccountId AssetId Tokens : Type} [DecidableEq AccountId] [LinearOrder AssetId]
  [WithdrawableCurrency Tokens AccountId AssetId] [LawfulWithdrawableCurrency Tokens]
  [DexGeneralConfig AccountId AssetId]

/-- What was charged of each asset for a pair, and neither distributed nor withdrawn. -/
structure Audited (AccountId AssetId Tokens : Type) [LinearOrder AssetId] where
  exchange : DexGeneral AccountId AssetId Tokens
  undistributed : AssetId × AssetId → AssetId → ℤ

/-- What a call that succeeds changes. -/
def audit (a : Audited AccountId AssetId Tokens) :
    Op AccountId AssetId → AssetId × AssetId → AssetId → ℤ
  | .bootstrapChargeReward _ asset₀ asset₁ charges =>
    let pair := sortAssetId asset₀ asset₁
    Function.update a.undistributed pair fun asset =>
      a.undistributed pair asset + charged charges asset
  | .bootstrapClaim who _ asset₀ asset₁ _ =>
    let pair := sortAssetId asset₀ asset₁
    match a.exchange.bootstrapEndStatus pair with
    | .bootstrap params =>
      let share := claim (a.exchange.bootstrapPersonalSupply pair who.val) params
      Function.update a.undistributed pair fun asset =>
        a.undistributed pair asset - claimedReward a.exchange pair share params asset
    | _ => a.undistributed
  | .bootstrapWithdrawReward asset₀ asset₁ _ =>
    Function.update a.undistributed (sortAssetId asset₀ asset₁) fun _ => 0
  | _ => a.undistributed

/-- A call, and the rewards that are charged and not yet paid. -/
def auditedStep (a : Audited AccountId AssetId Tokens) (d : Dispatch AccountId AssetId) :
    Audited AccountId AssetId Tokens where
  exchange := step a.exchange d
  undistributed :=
    if (dispatch d.1 d.2).succeeds a.exchange then audit a d.2 else a.undistributed

section

omit [LawfulWithdrawableCurrency Tokens]

/-- The audit leaves the exchange alone. -/
theorem run_auditedStep (a : Audited AccountId AssetId Tokens)
    (ds : List (Dispatch AccountId AssetId)) :
    (run auditedStep a ds).exchange = run step a.exchange ds := by
  induction ds generalizing a with
  | nil => rw [run_nil, run_nil]
  | cons d ds ih =>
    rw [run_cons, run_cons, ih]
    rfl

end

/-- The rewards of a pair are withdrawn where all that is recorded is undistributed, or to the
account they are in. -/
def WithdrawsUndistributed (a : Audited AccountId AssetId Tokens)
    (d : Dispatch AccountId AssetId) : Prop :=
  match d.2 with
  | .bootstrapWithdrawReward asset₀ asset₁ recipient =>
    recipient = DexGeneralConfig.bootstrapAccountId AssetId ∨
      ∀ asset, (recordedReward a.exchange (sortAssetId asset₀ asset₁) asset : ℤ) ≤
        a.undistributed (sortAssetId asset₀ asset₁) asset
  | _ => True

section Runs

variable [Fintype AccountId] [Fintype AssetId] {a : Audited AccountId AssetId Tokens} {n : ℕ}

/-- The account of all bootstraps has what is owed to contributors, and what is undistributed. -/
def Audited.Solvent (a : Audited AccountId AssetId Tokens) : Prop :=
  ∀ asset, ∑ pair, ((inAsset pair (owed a.exchange pair) asset : ℤ) +
    a.undistributed pair asset) ≤ bootstrapBalance a.exchange asset

private theorem sound_audit {d : Dispatch AccountId AssetId}
    {s' : DexGeneral AccountId AssetId Tokens}
    {u : Unit} (h : Sound d.1 a.exchange a.undistributed) (hcond : WithdrawsUndistributed a d)
    (hrun : (dispatch d.1 d.2).run a.exchange = .ok u s') : Sound d.1 s' (audit a d.2) := by
  obtain ⟨now, op⟩ := d
  have hlinked := linked_dispatch h.linked hrun
  cases op with
  | setFeeReceiver | setFeePoint =>
    obtain rfl := Call.run_modify_eq_ok.mp hrun
    exact h.of_untouched hlinked (fun pair => .of_records rfl rfl rfl rfl rfl rfl) fun _ => le_rfl
  | setExchangeFee => exact sound_setExchangeFee h hrun
  | createPair => exact sound_createPair h hrun
  | bootstrapCreate => exact sound_bootstrapCreate h hrun
  | bootstrapUpdate => exact sound_bootstrapUpdate h hrun
  | bootstrapWithdrawReward => exact sound_bootstrapWithdrawReward h hlinked hcond hrun
  | addLiquidity who => exact sound_addLiquidity h who (run_addLiquidity hrun)
  | removeLiquidity who => exact sound_removeLiquidity h who (run_removeLiquidity hrun)
  | swapExactAssetsForAssets who => exact sound_swap h who (run_swapExactAssetsForAssets hrun)
  | swapAssetsForExactAssets who => exact sound_swap h who (run_swapAssetsForExactAssets hrun)
  | bootstrapContribute who =>
    exact sound_bootstrapContribute h hlinked who (run_bootstrapContribute hrun)
  | bootstrapClaim who =>
    obtain ⟨params, hended, hsound⟩ := sound_bootstrapClaim h hlinked who (run_bootstrapClaim hrun)
    simp only [audit, hended]
    exact hsound
  | bootstrapEnd => exact sound_bootstrapEnd h hlinked hrun
  | bootstrapRefund who => exact sound_bootstrapRefund h hlinked who hrun
  | bootstrapChargeReward who => exact sound_bootstrapChargeReward h hlinked who hrun
  | transfer who destination asset amount =>
    refine sound_of_pays h (run_transfer hrun).1 (fun pair lp _ => ?_) fun _ => ?_
    · exact moves_nonneg (who.property.2 pair).symm
    · exact moves_nonneg who.property.1.symm

private theorem sound_auditedStep {d : Dispatch AccountId AssetId}
    (h : Sound d.1 a.exchange a.undistributed) (hcond : WithdrawsUndistributed a d) :
    Sound d.1 (auditedStep a d).exchange (auditedStep a d).undistributed := by
  obtain ⟨u, hrun⟩ | ⟨hfails, hsame⟩ := Call.commit_cases (dispatch d.1 d.2) a.exchange
  · have hsucceeds : (dispatch d.1 d.2).succeeds a.exchange = true :=
      Call.succeeds_iff.mpr ⟨u, _, hrun⟩
    simp only [auditedStep, hsucceeds, if_true]
    exact sound_audit h hcond hrun
  · have hexchange : step a.exchange d = a.exchange := hsame
    simp only [auditedStep, hfails, Bool.false_eq_true, if_false, hexchange]
    exact h

/-- Blocks only go forward in a run. -/
theorem sound_run {ds : List (Dispatch AccountId AssetId)}
    (h : Sound n a.exchange a.undistributed) (hlater : ∀ d ∈ ds, n ≤ d.1)
    (hordered : ds.Pairwise fun d e => d.1 ≤ e.1)
    (hmeets : Meets auditedStep WithdrawsUndistributed a ds) :
    ∃ m, Sound m (run auditedStep a ds).exchange (run auditedStep a ds).undistributed ∧
      ∀ now, n ≤ now → (∀ d ∈ ds, d.1 ≤ now) → m ≤ now := by
  induction ds generalizing a n with
  | nil =>
    rw [run_nil]
    exact ⟨n, h, fun _ hnow _ => hnow⟩
  | cons d ds ih =>
    rw [run_cons]
    obtain ⟨hfirst, hrest⟩ := List.pairwise_cons.mp hordered
    have hnow := h.mono (hlater d List.mem_cons_self)
    obtain ⟨m, hsound, hm⟩ := ih (sound_auditedStep hnow hmeets.1) hfirst hrest hmeets.2
    exact ⟨m, hsound, fun now _ hle =>
      hm now (hle d List.mem_cons_self) fun e he => hle e (List.mem_cons_of_mem d he)⟩

omit [DecidableEq AccountId] [LawfulWithdrawableCurrency Tokens] in
/-- At first nothing is owed. -/
theorem sound_genesis {tokens : Tokens} {feeReceiver : Option AccountId} {feePoint : UInt8} :
    Sound 0 (genesis tokens feeReceiver feePoint : DexGeneral AccountId AssetId Tokens)
      fun _ _ => 0 where
  linked := .genesis
  pairs pair :=
    { recorded_le := fun _ => Nat.zero_le _
      reward_eq := fun _ _ => rfl
      closed := fun _ => ⟨fun _ => rfl, fun _ => rfl, fun _ => nofun⟩
      collecting := fun _ => nofun
      failed := fun _ => nofun
      succeeded := fun _ => nofun }
  solvent asset := by
    have hzero : ∀ pair, (inAsset pair (owed (genesis tokens feeReceiver feePoint :
        DexGeneral AccountId AssetId Tokens) pair) asset : ℤ) + 0 = 0 := by
      intro pair
      rw [add_zero]
      exact Nat.cast_eq_zero.mpr (inAsset_zero pair asset)
    rw [Finset.sum_congr rfl fun pair _ => hzero pair, Finset.sum_const_zero]
    exact Int.natCast_nonneg _

/-- In every run that only withdraws rewards of which none was distributed, the account of all
bootstraps has all contributions that were not paid back and all undistributed rewards. -/
theorem run_bootstrap_solvent {tokens : Tokens} {feeReceiver : Option AccountId}
    {feePoint : UInt8} {ds : List (Dispatch AccountId AssetId)}
    (hordered : ds.Pairwise fun d e => d.1 ≤ e.1)
    (hmeets : Meets auditedStep WithdrawsUndistributed
      ⟨genesis tokens feeReceiver feePoint, fun _ _ => 0⟩ ds) :
    (run auditedStep ⟨genesis tokens feeReceiver feePoint, fun _ _ => 0⟩ ds).Solvent := by
  obtain ⟨_, hsound, -⟩ := sound_run sound_genesis (fun _ _ => Nat.zero_le _) hordered hmeets
  exact hsound.solvent

end Runs

/-- Alice bootstraps a pair, bob charges a reward for it, and carol contributes the same asset to
the bootstrap of another pair. -/
def Sample.bootstraps : Sample.Run :=
  [(1, .bootstrapCreate 0 1 (100, 100) (500, 500) 5 [2] []),
    (1, .bootstrapContribute Sample.alice 0 1 100 100 2),
    (1, .bootstrapChargeReward Sample.bob 0 1 [(2, 60)]),
    (2, .bootstrapCreate 0 2 (500, 500) (900, 900) 9 [] []),
    (2, .bootstrapContribute Sample.carol 0 2 40 60 3),
    (5, .bootstrapEnd 0 1)]

/-- An exchange without pairs, and no rewards. -/
def Sample.audited : Audited Sample.Holder Sample.Asset (TokenLedger Sample.Holder Sample.Asset) :=
  ⟨Sample.start 1000 none 0, fun _ _ => 0⟩

/-- The reward is withdrawn after alice has claimed all of it. -/
def Sample.overdraw : Sample.Run :=
  Sample.bootstraps ++
    [(6, .bootstrapClaim Sample.alice Sample.alice.val 0 1 7),
      (6, .bootstrapWithdrawReward 0 1 Sample.bob.val)]

/-- The contribution of carol is withdrawn with it, and cannot be refunded. -/
theorem contribution_withdrawn :
    let a := run auditedStep Sample.audited Sample.overdraw
    ¬ a.Solvent ∧ bootstrapBalance a.exchange 2 = 0 ∧ owed a.exchange (0, 2) = (40, 60) ∧
      (doBootstrapRefund 10 Sample.carol.val 0 2).succeeds a.exchange = false := by
  refine ⟨fun h => ?_, by decide +kernel, by decide +kernel, by decide +kernel⟩
  exact absurd (h 2) (by decide +kernel)

/-- Rewards of nothing are withdrawn after two bootstraps. -/
theorem run_bootstrap_solvent_withdrawn :
    (run auditedStep Sample.audited
      (Sample.bootstraps ++ [(6, .bootstrapWithdrawReward 0 1 Sample.bob.val)])).Solvent := by
  refine run_bootstrap_solvent (by decide) ?_
  refine ⟨trivial, trivial, trivial, trivial, trivial, trivial, .inr ?_, trivial⟩
  decide +kernel

end Interbtc.DexGeneral
