import Interbtc.DexGeneral.Audit
import Interbtc.DexGeneral.Liveness

/-!
# Claims and refunds succeed

After a bootstrap every contributor can claim or be refunded, whatever the others do. A refund
pays what the contributor has paid in.
-/

namespace Interbtc.DexGeneral

open Core MultiCurrency

variable {AccountId AssetId Tokens : Type} [DecidableEq AccountId] [LinearOrder AssetId]
  [WithdrawableCurrency Tokens AccountId AssetId] [LawfulWithdrawableCurrency Tokens]
  [DexGeneralConfig AccountId AssetId]
  {s s' t : DexGeneral AccountId AssetId Tokens} {pair : AssetId × AssetId}
  {asset₀ asset₁ asset lp : AssetId} {who recipient : AccountId} {now n : ℕ} {u : Unit}
  {params : BootstrapParameter AccountId}

/-! ## Locks -/

/-- No call of the exchange locks tokens. -/
theorem frozen_dispatch {op : Op AccountId AssetId} (hrun : (dispatch now op).run s = .ok u s') :
    frozen s'.tokens = frozen s.tokens := by
  cases op with
  | setFeeReceiver | setFeePoint =>
    obtain rfl := Call.run_modify_eq_ok.mp hrun
    rfl
  | setExchangeFee =>
    obtain ⟨p, -, rfl⟩ := run_setExchangeFee hrun
    rfl
  | createPair =>
    obtain ⟨lp, _, -, -, -, rfl⟩ := run_createPair hrun
    rfl
  | bootstrapCreate =>
    obtain ⟨params, -, -, rfl⟩ := run_bootstrapCreate hrun
    rfl
  | bootstrapUpdate =>
    obtain ⟨_, params, -, -, -, -, rfl⟩ := run_bootstrapUpdate hrun
    rfl
  | bootstrapWithdrawReward =>
    obtain ⟨t, hpays, rfl⟩ := run_bootstrapWithdrawReward hrun
    exact hpays.frozen
  | addLiquidity =>
    obtain ⟨p, _, _, _, _, -, -, -, -, -, -, -, hs⟩ := run_innerAddLiquidity (run_addLiquidity hrun)
    exact hs.frozen
  | removeLiquidity =>
    obtain ⟨p, _, _, -, -, -, -, -, hs⟩ := run_innerRemoveLiquidity (run_removeLiquidity hrun)
    exact hs.frozen
  | swapExactAssetsForAssets =>
    obtain ⟨_, _, _, _, _, -, -, hpays⟩ := (run_swapExactAssetsForAssets hrun).exists_pays
    exact hpays.frozen
  | swapAssetsForExactAssets =>
    obtain ⟨_, _, _, _, _, -, -, hpays⟩ := (run_swapAssetsForExactAssets hrun).exists_pays
    exact hpays.frozen
  | bootstrapContribute =>
    obtain ⟨params, x, t, -, -, -, -, hpays, rfl⟩ :=
      run_doBootstrapContribute (run_bootstrapContribute hrun)
    exact hpays.frozen
  | bootstrapClaim =>
    obtain ⟨_, _, _, _, _, _, t, -, -, -, -, -, -, -, hpays, rfl⟩ :=
      run_doBootstrapClaim (run_bootstrapClaim hrun)
    exact hpays.frozen
  | bootstrapEnd =>
    obtain ⟨params, lp, t, -, -, -, -, -, -, hpays, rfl⟩ := run_bootstrapEnd hrun
    exact hpays.frozen
  | bootstrapRefund =>
    obtain ⟨_, params, t, -, hpays, ⟨-, -, rfl⟩ | ⟨-, rfl⟩⟩ := run_doBootstrapRefund hrun
    · exact hpays.frozen
    · exact hpays.frozen
  | bootstrapChargeReward =>
    obtain ⟨_, t, hpays, -, -, -, rfl⟩ := run_bootstrapChargeReward hrun
    exact hpays.frozen
  | transfer => exact (run_transfer hrun).1.frozen

private theorem run_frozen (s : DexGeneral AccountId AssetId Tokens)
    (ds : List (Dispatch AccountId AssetId)) :
    frozen (run step s ds).tokens = frozen s.tokens := by
  have hkeeps : ∀ (t : DexGeneral AccountId AssetId Tokens) d, frozen t.tokens = frozen s.tokens →
      frozen (step t d).tokens = frozen s.tokens := by
    intro t d h
    obtain ⟨_, hrun⟩ | ⟨-, hsame⟩ := Call.commit_cases (dispatch d.1 d.2) t
    · exact (frozen_dispatch hrun).trans h
    · rw [step, hsame, h]
  exact run_preserves hkeeps rfl ds

/-- The accounts of the exchange have no locked tokens. -/
structure Unlocked (s : DexGeneral AccountId AssetId Tokens) : Prop where
  bootstrap : ∀ asset, frozen s.tokens asset (DexGeneralConfig.bootstrapAccountId AssetId) = 0
  pairs : ∀ (pair : AssetId × AssetId) asset,
    frozen s.tokens asset (DexGeneralConfig.subAccount pair) = 0

private theorem run_unlocked (h : Unlocked s) (ds : List (Dispatch AccountId AssetId)) :
    Unlocked (run step s ds) where
  bootstrap asset := by
    rw [run_frozen]
    exact h.bootstrap asset
  pairs pair asset := by
    rw [run_frozen]
    exact h.pairs pair asset

section

omit [DexGeneralConfig AccountId AssetId]

private theorem exists_transfer_of_unlocked {source : AccountId} (destination : AccountId) {x : ℕ}
    (hfrozen : frozen s.tokens asset source = 0) (hle : x ≤ s.freeBalance asset source) :
    ∃ s', (transfer asset source destination x).run s = .ok () s' := by
  refine exists_transfer (.inr ?_)
  change x + frozen s.tokens asset source ≤ _
  rw [hfrozen]
  exact hle

end

/-! ## Claims -/

section

omit [DexGeneralConfig AccountId AssetId]

/-- Rewards of different assets are paid one after the other. -/
theorem exists_distribute {holder : AccountId} {f : ℕ → Option ℕ} {g : ℕ → ℕ}
    {es : List (AssetId × ℕ)} (hsorted : es.Pairwise fun d e => d.1 < e.1)
    (hfrozen : ∀ asset, frozen s.tokens asset holder = 0)
    (hf : ∀ e ∈ es, f e.2 = some (g e.2)) (hle : ∀ e ∈ es, g e.2 ≤ s.freeBalance e.1 holder) :
    ∃ s', (es.forM fun e => do
      let reward ← Call.ofOption overflow (f e.2)
      transfer e.1 holder who reward).run s = .ok () s' := by
  induction es generalizing s with
  | nil => exact ⟨s, rfl⟩
  | cons e es ih =>
    obtain ⟨hfirst, hrest⟩ := List.pairwise_cons.mp hsorted
    obtain ⟨t, hpay⟩ := exists_transfer_of_unlocked who (hfrozen e.1)
      (hle e List.mem_cons_self)
    have hpays := (run_transfer hpay).1
    have hfrozen' : ∀ asset, frozen t.tokens asset holder = 0 := by
      intro asset
      rw [hpays.frozen]
      exact hfrozen asset
    have hle' : ∀ e' ∈ es, g e'.2 ≤ t.freeBalance e'.1 holder := by
      intro e' he'
      have hfree := freeBalance_pays hpays e'.1 holder
      have hne : e'.1 ≠ e.1 := (hfirst e' he').ne'
      rw [Pi.sub_apply, Pi.sub_apply, flow_of_ne_currency hne, flow_of_ne_currency hne, sub_zero,
        add_zero, Nat.cast_inj] at hfree
      rw [hfree]
      exact hle e' (List.mem_cons_of_mem e he')
    obtain ⟨s', hrun⟩ := ih hrest hfrozen' (fun e' he' => hf e' (List.mem_cons_of_mem e he')) hle'
    refine ⟨s', Call.run_bind_eq_ok.mpr ⟨(), t, ?_, hrun⟩⟩
    simp only [hf e List.mem_cons_self]
    exact Call.run_bind_eq_ok.mpr ⟨_, s, Call.run_ofOption_eq_ok.mpr ⟨rfl, rfl⟩, hpay⟩

end

private theorem exists_ownerReward {share reward total : ℕ} (hpos : 0 < total) (hle : share ≤ total)
    (htotal : total ≤ maxBalance) (hreward : reward ≤ maxBalance) :
    ownerReward share reward total = some (share * reward / total) := by
  have hproduct : share * reward ≤ maxU256 :=
    (Nat.mul_le_mul (hle.trans htotal) hreward).trans (by decide)
  have hquotient : share * reward / total ≤ reward :=
    Nat.div_le_of_le_mul (Nat.mul_le_mul_right reward hle)
  simp only [ownerReward, Option.bind_eq_bind, Option.bind_eq_some_iff, checkedMul_eq_some,
    checkedDiv_eq_some, tryInto_eq_some]
  exact ⟨_, ⟨hproduct, rfl⟩, _, ⟨hpos.ne', rfl⟩, hquotient.trans hreward, rfl⟩

section

omit [DecidableEq AccountId]

private theorem liquidity_le (h : params.accumulatedSupply ≤ (maxBalance, maxBalance)) :
    params.accumulatedSupply.1 * params.accumulatedSupply.2 ≤ maxU256 ∧
      params.liquidity ≤ maxBalance := by
  have hproduct : params.accumulatedSupply.1 * params.accumulatedSupply.2 ≤
      maxBalance * maxBalance := Nat.mul_le_mul h.1 h.2
  exact ⟨hproduct.trans (by decide), (Nat.sqrt_le_sqrt hproduct).trans (Nat.sqrt_eq _).le⟩

private theorem bootstrapTotalLiquidity_of_le
    (h : params.accumulatedSupply ≤ (maxBalance, maxBalance)) :
    bootstrapTotalLiquidity params.accumulatedSupply = some params.liquidity := by
  obtain ⟨hfits, hmax⟩ := liquidity_le h
  simp only [bootstrapTotalLiquidity, Option.bind_eq_bind, Option.bind_eq_some_iff,
    checkedMul_eq_some, tryInto_eq_some]
  exact ⟨_, ⟨hfits, rfl⟩, hmax, rfl⟩

/-- What the end of a bootstrap mints. -/
theorem calculateLiquidity_of_le (h : params.accumulatedSupply ≤ (maxBalance, maxBalance)) :
    calculateLiquidity params.accumulatedSupply.1 params.accumulatedSupply.2 0 0 0 =
      params.liquidity := by
  obtain ⟨hfits, hmax⟩ := liquidity_le h
  have hroot : ((checkedMul maxU256 params.accumulatedSupply.1 params.accumulatedSupply.2).map
      Nat.sqrt).bind (tryInto maxBalance) = some params.liquidity := by
    rw [checkedMul_eq_some.mpr ⟨hfits, rfl⟩, Option.map_some, Option.bind_some]
    exact tryInto_eq_some.mpr ⟨hmax, rfl⟩
  rw [calculateLiquidity, if_pos rfl, hroot, Option.getD_some]

end

section Sums

variable [Fintype AccountId] [Fintype AssetId] {rewards : AssetId × AssetId → AssetId → ℤ}

section

omit [DecidableEq AccountId] [WithdrawableCurrency Tokens AccountId AssetId]
  [LawfulWithdrawableCurrency Tokens] [DexGeneralConfig AccountId AssetId] [Fintype AssetId]

private theorem contribution_le {c : ℕ × ℕ} (h : s.bootstrapPersonalSupply pair who = some c) :
    c ≤ contributions s pair := by
  have hle₀ : ((s.bootstrapPersonalSupply pair who).getD (0, 0)).1 ≤ (contributions s pair).1 := by
    rw [contributions, Prod.fst_sum]
    exact Finset.single_le_sum (f := fun w => ((s.bootstrapPersonalSupply pair w).getD (0, 0)).1)
      (fun w _ => Nat.zero_le _) (Finset.mem_univ who)
  have hle₁ : ((s.bootstrapPersonalSupply pair who).getD (0, 0)).2 ≤ (contributions s pair).2 := by
    rw [contributions, Prod.snd_sum]
    exact Finset.single_le_sum (f := fun w => ((s.bootstrapPersonalSupply pair w).getD (0, 0)).2)
      (fun w _ => Nat.zero_le _) (Finset.mem_univ who)
  rw [h] at hle₀ hle₁
  exact ⟨hle₀, hle₁⟩

private theorem claim_le_claimable {c : ℕ × ℕ} {l : ℕ}
    (h : s.bootstrapPersonalSupply pair who = some c)
    (hl : claimLiquidity c params.accumulatedSupply = some l) : l ≤ claimable s pair params := by
  have hclaim : claim (s.bootstrapPersonalSupply pair who) params = l := by
    rw [claim, h, Option.bind_some, hl, Option.getD_some]
  rw [← hclaim]
  exact Finset.single_le_sum (f := fun w => claim (s.bootstrapPersonalSupply pair w) params)
    (fun w _ => Nat.zero_le _) (Finset.mem_univ who)

end

section

omit [DecidableEq AccountId] [LawfulWithdrawableCurrency Tokens]

/-- The account of all bootstraps has what it owes for one pair, and its rewards. -/
theorem Sound.covers (h : Sound n s rewards) (pair : AssetId × AssetId) (asset : AssetId) :
    (inAsset pair (owed s pair) asset : ℤ) + rewards pair asset ≤ bootstrapBalance s asset := by
  refine le_trans ?_ (h.solvent asset)
  have hnonneg : ∀ q ∈ Finset.univ, 0 ≤ (inAsset q (owed s q) asset : ℤ) + rewards q asset :=
    fun q _ => add_nonneg (Int.natCast_nonneg _) ((h.pairs q).reward_nonneg asset)
  exact Finset.single_le_sum hnonneg (Finset.mem_univ pair)

/-- The share of a claim is in the account, as what is undistributed is. -/
theorem claimedReward_le (h : Sound n s rewards) (hphase : phase s pair = .succeeded params)
    {share : ℕ} (hle : share ≤ claimable s pair params) (asset : AssetId) :
    claimedReward s pair share params asset ≤ bootstrapBalance s asset := by
  have hsettled := (h.pairs pair).succeeded params hphase
  have hcovers := h.covers pair asset
  have hquotient : claimedReward s pair share params asset * params.liquidity ≤
      share * recordedReward s pair asset := Nat.div_mul_le_self _ _
  have hshare : share * recordedReward s pair asset ≤
      claimable s pair params * recordedReward s pair asset := Nat.mul_le_mul_right _ hle
  have hpos : (0 : ℤ) < params.liquidity := Nat.cast_pos.mpr hsettled.liquidity_pos
  have hreward : (claimedReward s pair share params asset : ℤ) ≤ rewards pair asset := by
    refine le_of_mul_le_mul_right ?_ hpos
    calc (claimedReward s pair share params asset : ℤ) * params.liquidity
        ≤ share * recordedReward s pair asset := by exact_mod_cast hquotient
      _ ≤ claimable s pair params * recordedReward s pair asset := by exact_mod_cast hshare
      _ ≤ rewards pair asset * params.liquidity := hsettled.share_le asset
  have := Int.natCast_nonneg (inAsset pair (owed s pair) asset)
  omega

end

/-- Every contributor can claim, as long as the contribution valued in both totals is in range. -/
theorem exists_bootstrapClaim {deadline : ℕ} {c : ℕ × ℕ} (h : Sound n s rewards)
    (hunlocked : Unlocked s) (hphase : phase s (sortAssetId asset₀ asset₁) = .succeeded params)
    (hc : s.bootstrapPersonalSupply (sortAssetId asset₀ asset₁) who = some c)
    (hweight : weight c params.accumulatedSupply ≤ maxU256) (hnow : now < deadline) :
    ∃ s', (bootstrapClaim now who recipient asset₀ asset₁ deadline).run s = .ok () s' := by
  set pair := sortAssetId asset₀ asset₁
  have hsettled := (h.pairs pair).succeeded params hphase
  obtain ⟨⟨p, hp⟩, hended, hmissed⟩ := phase_eq_succeeded.mp hphase
  obtain ⟨lp, hlp⟩ := h.linked.liquid pair p hp
  have hdisable : bootstrapDisable now params = false := by
    rw [← Bool.not_eq_true, bootstrapDisable_eq_true]
    exact fun hdisabled => hmissed hdisabled.2
  have hproduct : 0 < params.accumulatedSupply.1 * params.accumulatedSupply.2 :=
    Nat.sqrt_pos.mp hsettled.liquidity_pos
  obtain ⟨l, hl⟩ := exists_claimLiquidity ((contribution_le hc).trans hsettled.contributions_le)
    hsettled.supply_le (Nat.pos_of_mul_pos_right hproduct).ne'
    (Nat.pos_of_mul_pos_left hproduct).ne' hweight
  have hshare : l ≤ claimable s pair params := claim_le_claimable hc hl
  have hmax := (liquidity_le hsettled.supply_le).2
  have htotal := bootstrapTotalLiquidity_of_le hsettled.supply_le
  obtain ⟨t, hpay⟩ := exists_transfer_of_unlocked recipient
    (hunlocked.pairs pair lp) (hshare.trans (hsettled.claimable_le_held lp hlp))
  have hpays := (run_transfer hpay).1
  have hrewards : t.bootstrapRewards = s.bootstrapRewards := hpays.bootstrapRewards
  obtain ⟨s', hdistribute⟩ : ∃ s', (bootstrapDistributeReward who params.pairAccount pair.1 pair.2 l
      params.liquidity).run t = .ok () s' := by
    have hpaid : ∃ s', ((t.bootstrapRewards pair).entries.forM fun e => do
        let reward ← Call.ofOption overflow (ownerReward l e.2 params.liquidity)
        transfer e.1 params.pairAccount who reward).run t = .ok () s' := by
      rw [hsettled.account]
      refine exists_distribute (f := fun r => ownerReward l r params.liquidity)
        (g := fun r => l * r / params.liquidity) (t.bootstrapRewards pair).sorted
        (fun asset => ?_) (fun e he => ?_) fun e he => ?_
      · rw [hpays.frozen]
        exact hunlocked.bootstrap asset
      all_goals
        rw [hrewards] at he
        have hlookup := OrderedMap.lookup_of_mem_entries he
        have hrecorded : recordedReward s pair e.1 = e.2 := by
          rw [recordedReward, hlookup, Option.getD_some]
      · refine exists_ownerReward hsettled.liquidity_pos (hshare.trans hsettled.claimable_le) hmax ?_
        rw [← hrecorded]
        exact (h.pairs pair).recorded_le e.1
      · have hle := claimedReward_le h hphase hshare e.1
        rw [claimedReward, hrecorded] at hle
        have hfree := freeBalance_pays hpays e.1 (DexGeneralConfig.bootstrapAccountId AssetId)
        have hmoved : 0 ≤ moves lp (DexGeneralConfig.subAccount pair) recipient l e.1
            (DexGeneralConfig.bootstrapAccountId AssetId) :=
          moves_nonneg (DexGeneralConfig.subAccount_ne_bootstrap pair).symm
        unfold bootstrapBalance at hle
        rw [moves] at hmoved
        omega
    obtain ⟨s', hrun⟩ := hpaid
    refine ⟨s', Call.run_bind_eq_ok.mpr ⟨t, t, Call.run_get_eq_ok.mpr ⟨rfl, rfl⟩, ?_⟩⟩
    rw [sortAssetId_fst_snd]
    exact hrun
  simp only [bootstrapClaim, ensureDeadline, doBootstrapClaim, setPersonalSupply,
    Call.run_bind_eq_ok, Call.run_get_eq_ok, Call.run_ensure_eq_ok, Call.run_ofOption_eq_ok,
    Call.run_ofExcept_eq_ok, Call.run_modify_eq_ok, bootstrapEnded_eq_ok, isTrading_eq_true,
    pairAccountId_fst_snd]
  exact ⟨_, (), s, ⟨hnow, rfl⟩, s, s, ⟨rfl, rfl⟩, (), s, ⟨⟨p, hp⟩, rfl⟩, c, s, ⟨hc, rfl⟩, params, s,
    ⟨hended, rfl⟩, (), s, ⟨hdisable, rfl⟩, l, s, ⟨hl, rfl⟩, lp, s, ⟨hlp, rfl⟩, (), t, hpay,
    params.liquidity, t, ⟨htotal, rfl⟩, (), s', hdistribute, rfl⟩

/-! ## Refunds -/

section

omit [Fintype AssetId]

private theorem inAsset_le {x y : ℕ × ℕ} (h : x ≤ y) (asset : AssetId) :
    inAsset pair x asset ≤ inAsset pair y asset := by
  have h₀ := h.1
  have h₁ := h.2
  unfold inAsset
  split_ifs <;> omega

end

section

omit [DecidableEq AccountId] [LawfulWithdrawableCurrency Tokens]

/-- What a refund pays is owed. -/
theorem contribution_le_owed {c : ℕ × ℕ} (h : Sound n s rewards)
    (hc : s.bootstrapPersonalSupply pair who = some c)
    (hfailed : Failed s now pair params ∨ Replaced s now pair params) : c ≤ owed s pair := by
  refine (contribution_le hc).trans (le_of_eq ?_)
  rcases hfailed with hfailed | hreplaced
  · have hphase := phase_eq_collecting.mpr hfailed.1
    rw [owed, hphase]
    exact ((h.pairs pair).collecting params hphase).2.2
  · rw [owed, (h.pairs pair).phase_of_replaced hreplaced]

/-- A refund can be taken off what was accumulated. -/
theorem exists_decreaseAccumulated {c : ℕ × ℕ} (h : Sound n s rewards)
    (hc : s.bootstrapPersonalSupply pair who = some c)
    (hstatus : t.pairStatuses = s.pairStatuses) :
    ∃ s', (decreaseAccumulated pair c).run t = .ok () s' := by
  simp only [decreaseAccumulated, Call.run_bind_eq_ok, Call.run_get_eq_ok]
  cases hp : s.pairStatuses pair with
  | bootstrap q =>
    have hsum := ((h.pairs pair).collecting q (phase_eq_collecting.mpr hp)).2.2
    have hle := contribution_le hc
    rw [hsum] at hle
    refine ⟨{ t with
      pairStatuses := Function.update t.pairStatuses pair (.bootstrap { q with
        accumulatedSupply := q.accumulatedSupply - c }) }, t, t, ⟨rfl, rfl⟩, ?_⟩
    rw [congrFun hstatus pair, hp]
    simp only [setPairStatus, Call.run_bind_eq_ok, Call.run_ofOption_eq_ok,
      Call.run_modify_eq_ok, checkedSub_eq_some]
    exact ⟨_, t, ⟨⟨hle.1, rfl⟩, rfl⟩, _, t, ⟨⟨hle.2, rfl⟩, rfl⟩, rfl⟩
  | trading | disable =>
    refine ⟨t, t, t, ⟨rfl, rfl⟩, ?_⟩
    rw [hstatus, hp]
    rfl

end

section

omit [DecidableEq AccountId] [WithdrawableCurrency Tokens AccountId AssetId]
  [LawfulWithdrawableCurrency Tokens] [DexGeneralConfig AccountId AssetId] [Fintype AccountId]
  [Fintype AssetId]

private theorem ensureRefundable_eq_ok
    (h : Failed s now pair params ∨ Replaced s now pair params) :
    (ensureRefundable now pair).run s = .ok () s := by
  rw [ensureRefundable, Call.run_bind_eq_ok]
  refine ⟨s, s, Call.run_get_eq_ok.mpr ⟨rfl, rfl⟩, ?_⟩
  rcases h with ⟨hp, hdisable⟩ | ⟨hnot, hended, hdisable⟩
  · rw [hp]
    exact Call.run_ensure_eq_ok.mpr ⟨hdisable, rfl⟩
  · cases hp : s.pairStatuses pair with
    | bootstrap q => exact absurd hp (hnot q)
    | trading | disable =>
      rw [hended]
      exact Call.run_ensure_eq_ok.mpr ⟨hdisable, rfl⟩

end

private theorem exists_bootstrapRefund {c : ℕ × ℕ} (h : Sound n s rewards) (hunlocked : Unlocked s)
    (hne : who ≠ DexGeneralConfig.bootstrapAccountId AssetId)
    (hc : s.bootstrapPersonalSupply (sortAssetId asset₀ asset₁) who = some c)
    (hfailed : Failed s now (sortAssetId asset₀ asset₁) params ∨
      Replaced s now (sortAssetId asset₀ asset₁) params) :
    ∃ s', (doBootstrapRefund now who asset₀ asset₁).run s = .ok () s' := by
  set pair := sortAssetId asset₀ asset₁
  have howed := contribution_le_owed h hc hfailed
  have hcovered : ∀ asset, inAsset pair c asset ≤ bootstrapBalance s asset := by
    intro asset
    have hle : inAsset pair c asset ≤ inAsset pair (owed s pair) asset := inAsset_le howed asset
    have hcovers := h.covers pair asset
    have hnonneg := (h.pairs pair).reward_nonneg asset
    omega
  have hfst := hcovered pair.1
  have hsnd := hcovered pair.2
  unfold inAsset bootstrapBalance at hfst hsnd
  rw [if_pos rfl] at hfst hsnd
  obtain ⟨t₀, hpay₀⟩ := exists_transfer_of_unlocked who
    (hunlocked.bootstrap pair.1) (Nat.le_of_add_right_le hfst)
  have hpays₀ := (run_transfer hpay₀).1
  obtain ⟨t₁, hpay₁⟩ : ∃ t₁, (transfer pair.2 (DexGeneralConfig.bootstrapAccountId AssetId) who
      c.2).run t₀ = .ok () t₁ := by
    refine exists_transfer_of_unlocked who ?_ ?_
    · rw [hpays₀.frozen]
      exact hunlocked.bootstrap pair.2
    · have hfree := freeBalance_pays hpays₀ pair.2 (DexGeneralConfig.bootstrapAccountId AssetId)
      rw [Pi.sub_apply, Pi.sub_apply, flow_of_ne hne.symm, flow_at, zero_sub] at hfree
      split_ifs at hfree hsnd <;> omega
  have hstorage := (hpays₀.trans (run_transfer hpay₁).1).storage
  obtain ⟨t₂, hdecrease⟩ : ∃ t₂, (decreaseAccumulated pair c).run t₁ = .ok () t₂ :=
    exists_decreaseAccumulated h hc (by rw [hstorage])
  simp only [doBootstrapRefund, setPersonalSupply, Call.run_bind_eq_ok, Call.run_get_eq_ok,
    Call.run_ofOption_eq_ok, Call.run_modify_eq_ok]
  exact ⟨_, (), s, ensureRefundable_eq_ok hfailed, s, s, ⟨rfl, rfl⟩, c, s, ⟨hc, rfl⟩,
    (), t₀, hpay₀, (), t₁, hpay₁, (), t₂, hdecrease, rfl⟩

end Sums

/-- A refund pays the contribution. -/
theorem freeBalance_bootstrapRefund (hne : who ≠ DexGeneralConfig.bootstrapAccountId AssetId)
    (hrun : (doBootstrapRefund now who asset₀ asset₁).run s = .ok u s') (asset : AssetId) :
    (s'.freeBalance asset who : ℤ) = s.freeBalance asset who +
      inAsset (sortAssetId asset₀ asset₁)
        ((s.bootstrapPersonalSupply (sortAssetId asset₀ asset₁) who).getD (0, 0)) asset := by
  obtain ⟨c, params, t, hc, hpays, hcases⟩ := run_doBootstrapRefund hrun
  have htokens : s'.tokens = t.tokens := by
    rcases hcases with ⟨-, -, rfl⟩ | ⟨-, rfl⟩
    · rfl
    · rfl
  have hfree := freeBalance_pays hpays asset who
  rw [movesBoth_destination hne] at hfree
  rw [hc, Option.getD_some, ← hfree, freeBalance, freeBalance, htokens]

/-- A contribution is paid, and added to what the contributor has in the bootstrap. -/
theorem freeBalance_bootstrapContribute {amount₀ amount₁ : ℕ}
    (hne : who ≠ DexGeneralConfig.bootstrapAccountId AssetId)
    (hrun : (doBootstrapContribute now who asset₀ asset₁ amount₀ amount₁).run s = .ok u s')
    (asset : AssetId) :
    (s'.freeBalance asset who : ℤ) = s.freeBalance asset who +
        inAsset (sortAssetId asset₀ asset₁)
          ((s.bootstrapPersonalSupply (sortAssetId asset₀ asset₁) who).getD (0, 0)) asset -
      inAsset (sortAssetId asset₀ asset₁)
        ((s'.bootstrapPersonalSupply (sortAssetId asset₀ asset₁) who).getD (0, 0)) asset := by
  obtain ⟨params, x, t, -, -, -, -, hpays, hs⟩ := run_doBootstrapContribute hrun
  have hfree := freeBalance_pays hpays asset who
  rw [movesBoth_source hne] at hfree
  have hself : s'.bootstrapPersonalSupply (sortAssetId asset₀ asset₁) who =
      some ((s.bootstrapPersonalSupply (sortAssetId asset₀ asset₁) who).getD (0, 0) + x) := by
    rw [hs]
    change Function.update s.bootstrapPersonalSupply _ _ _ _ = _
    rw [Function.update_self, Function.update_self]
  have htokens : s'.freeBalance asset who = t.freeBalance asset who := by rw [hs]; rfl
  rw [hself, Option.getD_some, inAsset_add, htokens, hfree]
  push_cast
  ring

/-! ## Receipts -/

/-- The exchange and, for every pair and account, what the account has paid into the bootstrap of
the pair. -/
structure Receipted (AccountId AssetId Tokens : Type) [LinearOrder AssetId] where
  exchange : DexGeneral AccountId AssetId Tokens
  paidIn : AssetId × AssetId → AccountId → AssetId → ℤ

/-- Contributions and refunds count by what they take from the balances of the contributor, and a
claim settles all that was paid. -/
def receipt (r : Receipted AccountId AssetId Tokens) (d : Dispatch AccountId AssetId) :
    AssetId × AssetId → AccountId → AssetId → ℤ :=
  match d.2 with
  | .bootstrapContribute who asset₀ asset₁ _ _ _ | .bootstrapRefund who asset₀ asset₁ =>
    let pair := sortAssetId asset₀ asset₁
    Function.update r.paidIn pair (Function.update (r.paidIn pair) who.val fun asset =>
      r.paidIn pair who.val asset + r.exchange.freeBalance asset who.val -
        (step r.exchange d).freeBalance asset who.val)
  | .bootstrapClaim who _ asset₀ asset₁ _ =>
    let pair := sortAssetId asset₀ asset₁
    Function.update r.paidIn pair (Function.update (r.paidIn pair) who.val fun _ => 0)
  | _ => r.paidIn

/-- A call, and the contributions it takes in. -/
def receiptedStep (r : Receipted AccountId AssetId Tokens) (d : Dispatch AccountId AssetId) :
    Receipted AccountId AssetId Tokens where
  exchange := step r.exchange d
  paidIn := if (dispatch d.1 d.2).succeeds r.exchange then receipt r d else r.paidIn

section

omit [LawfulWithdrawableCurrency Tokens]

private theorem run_receiptedStep (r : Receipted AccountId AssetId Tokens)
    (ds : List (Dispatch AccountId AssetId)) :
    (run receiptedStep r ds).exchange = run step r.exchange ds := by
  induction ds generalizing r with
  | nil => rw [run_nil, run_nil]
  | cons d ds ih =>
    rw [run_cons, run_cons, ih]
    rfl

end

/-- What is recorded of every contributor is what was paid. -/
def Receipted.Recorded (r : Receipted AccountId AssetId Tokens) : Prop :=
  ∀ pair who asset, r.paidIn pair who asset =
    inAsset pair ((r.exchange.bootstrapPersonalSupply pair who).getD (0, 0)) asset

namespace Receipted

variable {r : Receipted AccountId AssetId Tokens}

section

omit [DecidableEq AccountId] [WithdrawableCurrency Tokens AccountId AssetId]
  [LawfulWithdrawableCurrency Tokens] [DexGeneralConfig AccountId AssetId]

private theorem Recorded.of_eq (h : r.Recorded)
    (hpersonal : s'.bootstrapPersonalSupply = r.exchange.bootstrapPersonalSupply) :
    (⟨s', r.paidIn⟩ : Receipted AccountId AssetId Tokens).Recorded := by
  intro pair who asset
  rw [h]
  simp only [hpersonal]

end

section

omit [WithdrawableCurrency Tokens AccountId AssetId] [LawfulWithdrawableCurrency Tokens]
  [DexGeneralConfig AccountId AssetId]

/-- What one contributor has paid is written as it is recorded. -/
theorem Recorded.of_update (h : r.Recorded) {supply : Option (ℕ × ℕ)} {paid : AssetId → ℤ}
    (hpersonal : s'.bootstrapPersonalSupply =
      Function.update r.exchange.bootstrapPersonalSupply pair
        (Function.update (r.exchange.bootstrapPersonalSupply pair) who supply))
    (hpaid : ∀ asset, paid asset = inAsset pair (supply.getD (0, 0)) asset) :
    (⟨s', Function.update r.paidIn pair (Function.update (r.paidIn pair) who paid)⟩ :
      Receipted AccountId AssetId Tokens).Recorded := by
  intro q w asset
  simp only [hpersonal]
  rcases eq_or_ne q pair with rfl | hq
  · rw [Function.update_self, Function.update_self]
    rcases eq_or_ne w who with rfl | hw
    · rw [Function.update_self, Function.update_self, hpaid]
    · rw [Function.update_of_ne hw, Function.update_of_ne hw, h]
  · rw [Function.update_of_ne hq, Function.update_of_ne hq, h]

end

private theorem recorded_receipt {d : Dispatch AccountId AssetId} (h : r.Recorded)
    (hrun : (dispatch d.1 d.2).run r.exchange = .ok u (step r.exchange d)) :
    (⟨step r.exchange d, receipt r d⟩ : Receipted AccountId AssetId Tokens).Recorded := by
  obtain ⟨now, op⟩ := d
  cases op with
  | setFeeReceiver | setFeePoint =>
    exact h.of_eq (by rw [← Call.run_modify_eq_ok.mp hrun])
  | setExchangeFee =>
    obtain ⟨p, -, hs⟩ := run_setExchangeFee hrun
    exact h.of_eq (by rw [hs])
  | createPair =>
    obtain ⟨lp, _, -, -, -, hs⟩ := run_createPair hrun
    exact h.of_eq (by rw [hs])
  | bootstrapCreate =>
    obtain ⟨params, -, -, hs⟩ := run_bootstrapCreate hrun
    exact h.of_eq (by rw [hs, starts])
  | bootstrapUpdate =>
    obtain ⟨_, params, -, -, -, -, hs⟩ := run_bootstrapUpdate hrun
    exact h.of_eq (by rw [hs, starts])
  | bootstrapWithdrawReward =>
    obtain ⟨t, hpays, hs⟩ := run_bootstrapWithdrawReward hrun
    exact h.of_eq (by rw [hs]; exact hpays.bootstrapPersonalSupply)
  | addLiquidity =>
    obtain ⟨p, _, _, _, _, -, -, -, -, -, -, -, hs⟩ := run_innerAddLiquidity (run_addLiquidity hrun)
    exact h.of_eq (by rw [hs.storage])
  | removeLiquidity =>
    obtain ⟨p, _, _, -, -, -, -, -, hs⟩ := run_innerRemoveLiquidity (run_removeLiquidity hrun)
    exact h.of_eq (by rw [hs.storage])
  | swapExactAssetsForAssets =>
    exact h.of_eq (by rw [(run_swapExactAssetsForAssets hrun).storage])
  | swapAssetsForExactAssets =>
    exact h.of_eq (by rw [(run_swapAssetsForExactAssets hrun).storage])
  | bootstrapContribute who asset₀ asset₁ =>
    have hcontribute := run_bootstrapContribute hrun
    obtain ⟨params, x, t, -, -, -, -, hpays, hs⟩ := run_doBootstrapContribute hcontribute
    have hpersonal : _ = Function.update r.exchange.bootstrapPersonalSupply _
        (Function.update (r.exchange.bootstrapPersonalSupply _) who.val (some _)) :=
      congrArg DexGeneral.bootstrapPersonalSupply hs
    have hfree := freeBalance_bootstrapContribute who.property.1 hcontribute
    rw [hpersonal] at hfree
    refine h.of_update hpersonal fun asset => ?_
    have hpaid := hfree asset
    rw [Function.update_self, Function.update_self] at hpaid
    rw [h]
    linarith
  | bootstrapClaim who =>
    obtain ⟨_, _, _, _, _, _, t, -, -, -, -, -, -, -, hpays, hs⟩ :=
      run_doBootstrapClaim (run_bootstrapClaim hrun)
    exact h.of_update (by rw [hs]) fun asset => (Nat.cast_eq_zero.mpr (inAsset_zero _ asset)).symm
  | bootstrapEnd =>
    obtain ⟨params, lp, t, -, -, -, -, -, -, hpays, hs⟩ := run_bootstrapEnd hrun
    exact h.of_eq (by rw [hs]; exact hpays.bootstrapPersonalSupply)
  | bootstrapRefund who asset₀ asset₁ =>
    obtain ⟨_, params, t, -, hpays, hcases⟩ := run_doBootstrapRefund hrun
    have hpersonal :
        (step r.exchange (now, .bootstrapRefund who asset₀ asset₁)).bootstrapPersonalSupply =
          Function.update r.exchange.bootstrapPersonalSupply (sortAssetId asset₀ asset₁)
            (Function.update (r.exchange.bootstrapPersonalSupply (sortAssetId asset₀ asset₁))
              who.val none) := by
      rcases hcases with ⟨-, -, hs⟩ | ⟨-, hs⟩ <;> rw [hs]
    refine h.of_update hpersonal fun asset => ?_
    have hpaid := freeBalance_bootstrapRefund who.property.1 hrun asset
    rw [h, Option.getD_none, inAsset_zero, Nat.cast_zero]
    linarith
  | bootstrapChargeReward =>
    obtain ⟨_, t, hpays, -, -, -, hs⟩ := run_bootstrapChargeReward hrun
    exact h.of_eq (by rw [hs]; exact hpays.bootstrapPersonalSupply)
  | transfer =>
    exact h.of_eq (by rw [(run_transfer hrun).1.bootstrapPersonalSupply])

private theorem recorded_receiptedStep (r : Receipted AccountId AssetId Tokens)
    (d : Dispatch AccountId AssetId) (h : r.Recorded) : (receiptedStep r d).Recorded := by
  obtain ⟨u, hrun⟩ | ⟨hfails, hsame⟩ := Call.commit_cases (dispatch d.1 d.2) r.exchange
  · have hsucceeds : (dispatch d.1 d.2).succeeds r.exchange = true :=
      Call.succeeds_iff.mpr ⟨u, _, hrun⟩
    simp only [receiptedStep, hsucceeds, if_true]
    exact recorded_receipt h hrun
  · have hexchange : step r.exchange d = r.exchange := hsame
    simp only [receiptedStep, hfails, Bool.false_eq_true, if_false, hexchange]
    exact h

end Receipted

/-! ## Runs -/

section Runs

variable [Fintype AccountId] [Fintype AssetId]

/-- The contributions of a pair add up in every phase, and each contributor gets what is due. -/
structure AddsUp (now : ℕ) (r : Receipted AccountId AssetId Tokens) (asset₀ asset₁ : AssetId) :
    Prop where
  collected : ∀ params,
    r.exchange.pairStatuses (sortAssetId asset₀ asset₁) = .bootstrap params →
      ∑ who, (r.exchange.bootstrapPersonalSupply (sortAssetId asset₀ asset₁) who).getD (0, 0) =
        params.accumulatedSupply
  claimable_le : ∀ params,
    phase r.exchange (sortAssetId asset₀ asset₁) = .succeeded params →
      claimable r.exchange (sortAssetId asset₀ asset₁) params ≤
        calculateLiquidity params.accumulatedSupply.1 params.accumulatedSupply.2 0 0 0
  claims : ∀ params who c recipient deadline,
    phase r.exchange (sortAssetId asset₀ asset₁) = .succeeded params →
    r.exchange.bootstrapPersonalSupply (sortAssetId asset₀ asset₁) who = some c →
    weight c params.accumulatedSupply ≤ maxU256 → now < deadline →
      ∃ s', (bootstrapClaim now who recipient asset₀ asset₁ deadline).run r.exchange = .ok () s'
  refunds : ∀ params (who : Trader AccountId AssetId),
    Failed r.exchange now (sortAssetId asset₀ asset₁) params ∨
      phase r.exchange (sortAssetId asset₀ asset₁) = .failed params →
    r.paidIn (sortAssetId asset₀ asset₁) who.val ≠ 0 →
      ∃ s', (doBootstrapRefund now who.val asset₀ asset₁).run r.exchange = .ok () s' ∧
        ∀ asset, (s'.freeBalance asset who.val : ℤ) = r.exchange.freeBalance asset who.val +
          r.paidIn (sortAssetId asset₀ asset₁) who.val asset

/-- After every run, the contributions of every pair add up, each contributor can claim as long as
the contribution valued in both totals is in range, and a refund pays what was paid in. -/
theorem run_contributions_add_up {tokens : Tokens} {feeReceiver : Option AccountId}
    {feePoint : UInt8} {ds : List (Dispatch AccountId AssetId)}
    (hunlocked : Unlocked (genesis tokens feeReceiver feePoint : DexGeneral AccountId AssetId Tokens))
    (hordered : ds.Pairwise fun d e => d.1 ≤ e.1)
    (hmeets : Meets auditedStep WithdrawsUndistributed
      ⟨genesis tokens feeReceiver feePoint, fun _ _ => 0⟩ ds)
    (hnow : ∀ d ∈ ds, d.1 ≤ now) (asset₀ asset₁ : AssetId) :
    AddsUp now (run receiptedStep ⟨genesis tokens feeReceiver feePoint, fun _ _ _ => 0⟩ ds)
      asset₀ asset₁ := by
  obtain ⟨m, hsound, hm⟩ := sound_run sound_genesis (fun _ _ => Nat.zero_le _) hordered hmeets
  have hsound := hsound.mono (hm now (Nat.zero_le _) hnow)
  have hrecorded : (run receiptedStep ⟨genesis tokens feeReceiver feePoint, fun _ _ _ => 0⟩ ds :
      Receipted AccountId AssetId Tokens).Recorded :=
    run_preserves Receipted.recorded_receiptedStep
      (fun pair who asset => (Nat.cast_eq_zero.mpr (inAsset_zero pair asset)).symm) ds
  have hunlocked := run_unlocked hunlocked ds
  rw [run_auditedStep] at hsound
  set r : Receipted AccountId AssetId Tokens :=
    run receiptedStep ⟨genesis tokens feeReceiver feePoint, fun _ _ _ => 0⟩ ds with hr
  have hexchange : r.exchange = run step (genesis tokens feeReceiver feePoint) ds :=
    run_receiptedStep _ ds
  rw [← hexchange] at hsound hunlocked
  set pair := sortAssetId asset₀ asset₁
  have hpair := hsound.pairs pair
  refine ⟨fun params hp => ?_, fun params hphase => ?_,
    fun params who c recipient deadline hphase hc hweight hdeadline => ?_,
    fun params who hfailed hpaid => ?_⟩
  · exact (hpair.collecting params (phase_eq_collecting.mpr hp)).2.2
  · have hsettled := hpair.succeeded params hphase
    rw [calculateLiquidity_of_le hsettled.supply_le]
    exact hsettled.claimable_le
  · exact exists_bootstrapClaim hsound hunlocked hphase hc hweight hdeadline
  · have hrefundable : Failed r.exchange now pair params ∨ Replaced r.exchange now pair params := by
      rcases hfailed with hfailed | hphase
      · exact .inl hfailed
      · obtain ⟨⟨p, hp⟩, hended, hmissed⟩ := phase_eq_failed.mp hphase
        refine .inr ⟨fun q hq => (nomatch hp.symm.trans hq), hended, ?_⟩
        exact bootstrapDisable_eq_true.mpr ⟨hpair.failed params hphase, hmissed⟩
    cases hc : r.exchange.bootstrapPersonalSupply pair who.val with
    | none =>
      refine absurd (funext fun asset => ?_) hpaid
      rw [hrecorded, hc]
      exact Nat.cast_eq_zero.mpr (inAsset_zero pair asset)
    | some c =>
      obtain ⟨s', hrun⟩ := exists_bootstrapRefund hsound hunlocked who.property.1 hc hrefundable
      refine ⟨s', hrun, fun asset => ?_⟩
      rw [freeBalance_bootstrapRefund who.property.1 hrun, hrecorded]

end Runs

/-- Alice has all there can be of two assets. -/
def Sample.whale : Sample.Exchange :=
  genesis
    { accounts
        | .inl 0, asset => ⟨if asset.val < 2 then maxBalance else 0, 0, 0⟩
        | _, _ => ⟨0, 0, 0⟩
      issuance asset := if asset.val < 2 then maxBalance else 0 }
    none 0

/-- One account contributes as much as there can be of both assets. -/
def Sample.whaleBootstrap : Sample.Run :=
  [(1, .bootstrapCreate 0 1 (1, 1) (maxBalance, maxBalance) 5 [] []),
    (1, .bootstrapContribute Sample.alice 0 1 maxBalance maxBalance 2),
    (5, .bootstrapEnd 0 1)]

/-- A contribution valued in both totals is out of range, and cannot be claimed. -/
theorem claim_out_of_range :
    let s := run step Sample.whale Sample.whaleBootstrap
    phase s (0, 1) = .succeeded
        ⟨(1, 1), (maxBalance, maxBalance), (maxBalance, maxBalance), 5, .inr none⟩ ∧
      s.bootstrapPersonalSupply (0, 1) Sample.alice.val = some (maxBalance, maxBalance) ∧
      s.freeBalance 4 (Sample.pool 0 1) = maxBalance ∧
      (bootstrapClaim 6 Sample.alice.val Sample.alice.val 0 1 7).succeeds s = false := by
  decide +kernel

/-- Two bootstraps of the examples add up. -/
theorem run_contributions_add_up_bootstraps :
    AddsUp 6 (run receiptedStep ⟨Sample.start 1000 none 0, fun _ _ _ => 0⟩ Sample.bootstraps) 0 1 := by
  have hmeets : Meets auditedStep WithdrawsUndistributed Sample.audited Sample.bootstraps :=
    ⟨trivial, trivial, trivial, trivial, trivial, trivial, trivial⟩
  exact run_contributions_add_up ⟨fun _ => rfl, fun _ _ => rfl⟩ (by decide) hmeets (by decide) 0 1

end Interbtc.DexGeneral
