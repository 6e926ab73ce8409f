import Mathlib.Data.Nat.Cast.Order.Field
import Interbtc.Core.Premiums
import Interbtc.Guarantees.Collateralization
import Interbtc.Accounting.Refinement
import Interbtc.Staking.Steps

/-!
# Premiums over a run

A redeem request promises a premium, and its execution pays it from the collateral of the vault.
In between, the tokens of the request are not to be backed any more, and the collateral is still
there. Whatever the order of requests and executions, the promised premiums stay within the
maximum before the first request.
-/

namespace Interbtc

open Core FixedPointNumber LawfulFixedPoint

/-! ## Exact values -/

/-- What the stored integer stands for. -/
def FixedU128.toRat (a : FixedU128) : ℚ := a.inner / FixedU128.DIV

private theorem FixedU128.DIV_cast_pos : (0 : ℚ) < FixedU128.DIV := by exact_mod_cast
    FixedU128.DIV_pos

private theorem FixedU128.toRat_nonneg (a : FixedU128) : 0 ≤ a.toRat :=
  div_nonneg (Nat.cast_nonneg _) FixedU128.DIV_cast_pos.le

private theorem FixedU128.toRat_checkedSub {a b c : FixedU128} (h : a.checkedSub b = some c) :
    c.toRat = a.toRat - b.toRat := by
  obtain ⟨hle, hc⟩ := FixedU128.checkedSub_eq_some.mp h
  rw [toRat, toRat, toRat, hc, Nat.cast_sub hle, sub_div]

private theorem FixedU128.toRat_checkedDiv_le {a b c : FixedU128} (h : a.checkedDiv b = some c) :
    c.toRat ≤ a.toRat / b.toRat := by
  obtain ⟨-, hc⟩ := FixedU128.checkedDiv_eq_some.mp h
  have hdiv := FixedU128.DIV_cast_pos
  rw [toRat, toRat, toRat, hc, div_le_iff₀ hdiv, div_div_div_cancel_right₀ hdiv.ne']
  refine Nat.cast_div_le.trans (le_of_eq ?_)
  push_cast
  ring

private theorem FixedU128.le_toRat_checkedDiv {a b c : FixedU128} (h : a.checkedDiv b = some c) :
    a.toRat / b.toRat ≤ c.toRat + 1 / FixedU128.DIV := by
  obtain ⟨hb, hc⟩ := FixedU128.checkedDiv_eq_some.mp h
  have hdiv := FixedU128.DIV_cast_pos
  have hpos : (0 : ℚ) < b.inner := Nat.cast_pos.mpr (Nat.pos_of_ne_zero hb)
  have hlt : a.inner * FixedU128.DIV < b.inner * (c.inner + 1) := by
    rw [hc]
    exact Nat.lt_mul_div_succ _ (Nat.pos_of_ne_zero hb)
  have hlt' : (a.inner : ℚ) * FixedU128.DIV < b.inner * (c.inner + 1) := by exact_mod_cast hlt
  rw [toRat, toRat, toRat, div_div_div_cancel_right₀ hdiv.ne', ← add_div,
    div_le_div_iff₀ hpos hdiv]
  linarith

/-- A product that is rounded down. -/
theorem Amount.checkedMul_le {CurrencyId : Type} [DecidableEq CurrencyId]
    {x z : Amount CurrencyId} {rate : FixedU128}
    (h : x.checkedMul rate = .ok z) : (z.amount : ℚ) ≤ x.amount * rate.toRat := by
  obtain ⟨-, rfl⟩ := Amount.checkedMul_eq_ok.mp h
  rw [FixedU128.toRat, ← mul_div_assoc]
  refine Nat.cast_div_le.trans (le_of_eq ?_)
  push_cast
  rfl

private theorem truncate_sub_natCast (q : ℚ) (n : ℕ) : truncate q - n ≤ truncate (q - n) ∧
    ((n : ℤ) ≤ truncate q → truncate (q - n) = truncate q - n) := by
  have hfloor : ⌊q - n⌋ = ⌊q⌋ - n := Int.floor_sub_natCast q n
  rcases le_or_gt 0 (q - n) with h | h
  · have hq : 0 ≤ q := by
      have : (0 : ℚ) ≤ n := Nat.cast_nonneg n
      linarith
    rw [truncate_of_nonneg hq, truncate_of_nonneg h, hfloor]
    exact ⟨le_rfl, fun _ => rfl⟩
  · have hceil : truncate (q - n) = ⌈q⌉ - n := by
      rw [truncate, if_neg (not_le.mpr h), Int.ceil_sub_natCast]
    have hle : truncate q ≤ ⌈q⌉ := by
      unfold truncate
      split
      · exact Int.floor_le_ceil q
      · exact le_rfl
    refine ⟨by omega, fun hn => ?_⟩
    rcases lt_or_ge q 0 with hq | hq
    · have hnonpos := truncate_nonpos hq.le
      obtain rfl : n = 0 := by omega
      simp
    · have hn' : ((n : ℤ) : ℚ) ≤ q := (Int.cast_le.mpr hn).trans (truncate_le hq)
      rw [Int.cast_natCast] at hn'
      linarith

/-! ## Collateral -/

namespace VaultStaking

variable {AccountId CurrencyId F : Type} [DecidableEq AccountId] [DecidableEq CurrencyId]
  [FixedPointNumber F] [LawfulFixedPoint F] {native c : CurrencyId} {n : ℕ} {u : Unit}
  {v w : VaultId AccountId CurrencyId} {s s' : Staking AccountId CurrencyId F}

/-- The collateral in the current pool of a vault. -/
def backing (s : Staking AccountId CurrencyId F) (v : VaultId AccountId CurrencyId) : ℤ :=
  truncate (s.pool v (s.nonce v)).ledger.current

section

omit [DecidableEq CurrencyId] [DecidableEq AccountId]

private theorem getTotalStake_backing (h : getTotalStake s v = .ok n) : backing s v = n := by
  simp only [getTotalStake, except_bind_eq_ok, okOr_eq_ok, toBalance,
    Option.ite_none_right_eq_some, Option.some.injEq] at h
  obtain ⟨i, hi, hnonneg, rfl⟩ := h
  rw [Int.toNat_of_nonneg hnonneg, truncateToInner_eq hi]
  rfl

end

private theorem backing_setPool_of_ledger {q : Pool AccountId CurrencyId F}
    (hq : q.ledger = (s.pool w (s.nonce w)).ledger) :
    backing (s.setPool w (s.nonce w) q) v = backing s v := by
  rw [backing, backing, Staking.setPool_nonce, Staking.setPool_pool]
  split
  · rename_i h
    rw [hq, h.1]
  · rfl

private theorem distributeReward_backing :
    Keeps (fun s => backing s v)
      (distributeReward w c n : Call DispatchError (Staking AccountId CurrencyId F) Unit) := by
  refine .bind (.ofOption _ _) fun a => .bind ?_ fun _ => .bind (.ofOption _ _) fun _ =>
    .bind (.ofOption _ _) fun _ => .pure _
  intro s _ s' h
  obtain ⟨q, rfl, hq, -⟩ := Staking.run_distributeReward h
  exact backing_setPool_of_ledger hq

/-- A slash takes its amount from the pool, as far as the pool has it. -/
theorem run_slashStake_backing (h : (slashStake native v n).run s = .ok u s') :
    backing s v - n ≤ backing s' v ∧ ((n : ℤ) ≤ backing s v → backing s' v = backing s v - n) := by
  simp only [slashStake, Call.run_bind_eq_ok, Call.run_ofOption_eq_ok] at h
  obtain ⟨a, _, ⟨ha, rfl⟩, h⟩ := h
  have ha' : toRat a = n := by rw [toRat_fromInteger ha, Int.cast_natCast]
  rcases Staking.run_slashStake h with ⟨rfl, rfl⟩ | ⟨-, -, q, rfl, hq, -⟩
  · have hn : n = 0 := by exact_mod_cast ha'.symm.trans toRat_zero
    rw [hn, Nat.cast_zero, sub_zero]
    exact ⟨le_rfl, fun _ => rfl⟩
  · have hcurrent : backing (s.setPool v (s.nonce v) q) v =
        truncate ((s.pool v (s.nonce v)).ledger.current - n) := by
      rw [backing, Staking.setPool_nonce, Staking.setPool_pool_self, hq, ← ha']
      rfl
    rw [hcurrent]
    exact truncate_sub_natCast _ _

end VaultStaking

namespace Chain

variable {AccountId CurrencyId H256 F Tokens : Type} [DecidableEq AccountId]
  [DecidableEq CurrencyId] [DecidableEq H256] [FixedPointNumber F] [LawfulFixedPoint F]
  [MultiCurrency Tokens AccountId CurrencyId] [LawfulMultiCurrency Tokens]
  [CurrencyConfig CurrencyId] [AccountConfig AccountId] [Fintype AccountId] [Fintype CurrencyId]
  {s s' : Chain AccountId CurrencyId H256 F Tokens} {env : Env AccountId CurrencyId H256}
  {v w : VaultId AccountId CurrencyId} {x y z : Amount CurrencyId} {a redeemer : AccountId} {n : ℕ}
  {btcAddress : BtcAddress} {u : Unit}

/-- The collateral of a vault, as the pools have it. -/
def backing (v : VaultId AccountId CurrencyId) (s : Chain AccountId CurrencyId H256 F Tokens) : ℤ :=
  VaultStaking.backing s.pools.vaultStaking v

section

omit [DecidableEq CurrencyId] [DecidableEq AccountId] [DecidableEq H256]
  [MultiCurrency Tokens AccountId CurrencyId] [LawfulMultiCurrency Tokens]
  [CurrencyConfig CurrencyId] [AccountConfig AccountId] [Fintype AccountId] [Fintype CurrencyId]

private theorem getBackingCollateral_backing (h : s.getBackingCollateral v = .ok x) :
    backing v s = x.amount := by
  simp only [getBackingCollateral, except_bind_eq_ok, except_pure_eq_ok] at h
  obtain ⟨n, hn, rfl⟩ := h
  exact VaultStaking.getTotalStake_backing hn

private theorem backing_of_pools (h : s'.pools = s.pools) : backing v s' = backing v s := by
  rw [backing, backing, h]

end

section

omit [DecidableEq H256] [LawfulMultiCurrency Tokens] [Fintype AccountId] [Fintype CurrencyId]

private theorem distributeAllVaultRewards_backing :
    Keeps (backing v) (distributeAllVaultRewards w :
      ChainCall AccountId CurrencyId H256 F Tokens Unit) := by
  have hdistribute (c : CurrencyId) : Keeps (backing v) (distributeVaultRewards w c :
      ChainCall AccountId CurrencyId H256 F Tokens Unit) :=
    .bind (.zoom fun _ _ => rfl) fun _ => .bind (.zoom fun _ _ => rfl) fun _ =>
      .bind (.zoom fun _ _ => rfl) fun _ => .bind .get fun _ => .bind (.ofExcept _) fun _ =>
        .bind (.zoom fun _ _ => rfl) fun _ => .bind (.ofExcept _) fun _ =>
          .zoom_of VaultStaking.distributeReward_backing fun _ _ h => h
  exact .bind (hdistribute _) fun _ => hdistribute _

end

section

omit [DecidableEq H256] [MultiCurrency Tokens AccountId CurrencyId] [LawfulMultiCurrency Tokens]
  [AccountConfig AccountId] [Fintype AccountId] [Fintype CurrencyId]

private theorem updateRewardStake_backing :
    Keeps (backing v) (updateRewardStake env w :
      ChainCall AccountId CurrencyId H256 F Tokens Unit) :=
  .bind .get fun _ => .bind (.ofExcept _) fun _ =>
    .bind (.ite (.bind (.ofExcept _) fun _ => .bind (.ofExcept _) fun _ => .ofExcept _)
      (.pure _)) fun _ => .bind (.zoom fun _ _ => rfl) fun _ =>
        .bind .get fun _ => .bind (.ofExcept _) fun _ => .bind (.ofExcept _) fun _ =>
          .zoom fun _ _ => rfl

end

section

omit [DecidableEq H256] [LawfulMultiCurrency Tokens] [Fintype AccountId] [Fintype CurrencyId]

/-- Funds that are taken from the collateral of a vault are taken from its pool. -/
theorem run_transferFunds_backing
    (h : (transferFunds env (.collateral v) (.freeBalance a) x).run s = .ok u s') :
    backing v s - x.amount ≤ backing v s' ∧
      ((x.amount : ℤ) ≤ backing v s → backing v s' = backing v s - x.amount) := by
  simp only [transferFunds, takeFunds, putFunds, slashBackingCollateral, slashPoolCollateral,
    Call.run_bind_eq_ok, Call.run_ensure_eq_ok, Call.run_pure_eq_ok] at h
  obtain ⟨_, t₄, ⟨_, _, ⟨-, rfl⟩, _, t₁, hunlock, _, t₂, htotal, _, t₃, hrewards, _, t, hslash,
    hstake⟩, _, t₅, htransfer, -, rfl⟩ := h
  obtain ⟨_, -, rfl⟩ := Lens.run_zoom_eq_ok.mp hunlock
  obtain ⟨_, -, rfl⟩ := Lens.run_zoom_eq_ok.mp htotal
  obtain ⟨_, -, rfl⟩ := Lens.run_zoom_eq_ok.mp htransfer
  have hbefore : backing v t₃ = _ := distributeAllVaultRewards_backing _ _ _ hrewards
  change backing v t₃ = backing v s at hbefore
  have hafter : backing v t₄ = backing v t := updateRewardStake_backing _ _ _ hstake
  obtain ⟨p, hrun, rfl⟩ := Lens.run_zoom_eq_ok.mp hslash
  have hpool := VaultStaking.run_slashStake_backing hrun
  rw [← hbefore]
  change _ ≤ backing v t₄ ∧ (_ → backing v t₄ = _)
  rw [hafter]
  exact hpool

end

/-! ## Requests and executions -/

section

omit [LawfulFixedPoint F] [DecidableEq H256] [LawfulMultiCurrency Tokens] [Fintype AccountId]
  [Fintype CurrencyId]

private theorem releaseReplaceCollateral_pools :
    Keeps pools (releaseReplaceCollateral env v x :
      ChainCall AccountId CurrencyId H256 F Tokens Unit) :=
  .bind (.zoom fun _ _ => rfl) fun _ => .ite (.pure _) <|
    .bind (.bind (.zoom fun _ _ => rfl) fun _ => .zoom fun _ _ => rfl) fun _ =>
      .bind (.zoom fun _ _ => rfl) fun _ => .pure _

end

section

omit [LawfulFixedPoint F] [Fintype AccountId] [Fintype CurrencyId]

/-- A request moves tokens to be redeemed, and records the premium. -/
theorem run_requestRedeem (h : (requestRedeem env redeemer n btcAddress v).run s = .ok u s') :
    ∃ r premium, s'.redeemRequests = Function.update s.redeemRequests env.secureId (some r) ∧
      r.vault = v ∧ r.status = .pending ∧ r.premium = premium.amount ∧
      premiumCollateral env s v ⟨r.amountBtc, v.wrappedCurrency⟩ = .ok premium ∧
      s.registry.counters.isLiquidated v = false ∧
      s'.registry.counters = (s.registry.counters.addToBeRedeemed (.inl v) r.burned).setToBeReplaced
        v (s.registry.counters.toBeReplaced v - r.burned) ∧
      s'.pools = s.pools ∧
      getCurrentInclusionFee env v.wrappedCurrency =
        .ok ⟨r.transferFeeBtc, v.wrappedCurrency⟩ := by
  simp only [requestRedeem, Call.run_bind_eq_ok, Call.run_get_eq_ok, Call.run_ofExcept_eq_ok,
    Call.run_ensure_eq_ok, Call.run_modify_eq_ok, Call.run_mapError_eq_ok, Call.run_ite_eq_ok,
    Call.run_pure_eq_ok, Amount.checkedSub_eq_ok, and_assoc, exists_and_left, exists_eq_left',
    exists_const] at h
  obtain ⟨_, -, _, -, -, -, fee, s₀, hfee, inclusion, hinclusion, -, hle, -, hle', _, -, _, -, -,
    premium, hpremium, _, s₁, hinc, _, s₂, hlock, _, s₃, hrelease, hs'⟩ := h
  have hs₀ : s = s₀ := by
    obtain ⟨-, -, hs⟩ | ⟨-, -, hs⟩ := hfee
    · exact hs
    · exact hs
  subst hs₀
  obtain ⟨hrun, hrec₁⟩ := run_onRegistry hinc
  obtain ⟨-, hl, -, -, hct₁⟩ := VaultRegistry.run_tryIncreaseToBeRedeemedTokens hrun
  have hrec₂ := lockOn_recordsNothing _ _ _ _ _ hlock
  have hct₂ : s₂.registry.counters = s₁.registry.counters := congrArg Records.counters hrec₂
  have hrec₃ := run_releaseReplaceCollateral hrelease
  rw [hct₂, hrec₂, hrec₁, hct₁] at hrec₃
  have hpools₃ : s₃.pools = s₂.pools := releaseReplaceCollateral_pools _ _ _ hrelease
  obtain ⟨_, -, rfl⟩ := Lens.run_zoom_eq_ok.mp hinc
  obtain ⟨_, -, rfl⟩ := Lens.run_zoom_eq_ok.mp hlock
  have hburned : n - fee.amount - inclusion.amount + inclusion.amount = n - fee.amount :=
    Nat.sub_add_cancel hle'
  have hrequests : s₃.redeemRequests = s.redeemRequests :=
    congrArg Records.redeemRequests hrec₃
  have hcounters := congrArg Records.counters hrec₃
  rw [← hburned] at hcounters
  rw [← hs', hrequests]
  refine ⟨_, premium, rfl, rfl, rfl, rfl, hpremium, hl, hcounters, hpools₃, ?_⟩
  exact hinclusion.trans (congrArg (fun c => Except.ok (Amount.mk inclusion.amount c))
    (getCurrentInclusionFee_currencyId hinclusion))

end

section

omit [DecidableEq H256] [LawfulMultiCurrency Tokens] [Fintype AccountId] [Fintype CurrencyId]

/-- A vault that is not liquidated pays the premium from its collateral. -/
theorem run_redeemTokens_backing (h : (redeemTokens env v x y a).run s = .ok u s')
    (hactive : s.registry.counters.isLiquidated v = false) :
    backing v s - y.amount ≤ backing v s' ∧
      ((y.amount : ℤ) ≤ backing v s → backing v s' = backing v s - y.amount) := by
  simp only [redeemTokens, Call.run_bind_eq_ok, Call.run_get_eq_ok, Call.run_ofExcept_eq_ok,
    VaultRegistry.getRichVaultFromId_eq_ok] at h
  obtain ⟨_, _, ⟨rfl, rfl⟩, c, _, ⟨⟨rfl, hc⟩, rfl⟩, c', t, h, hrest⟩ := h
  obtain ⟨r, hrun, rfl⟩ := Lens.run_zoom_eq_ok.mp h
  obtain ⟨hevolves, -⟩ := RichVault.run_executeRedeemTokens hc hrun
  have hlive : c'.data.isLiquidated = false := by
    rw [hevolves.isLiquidated, ← hc.isLiquidated]
    exact hactive
  simp only [hlive, Bool.false_eq_true, if_false, Call.run_ite_eq_ok, Call.run_pure_eq_ok] at hrest
  obtain ⟨hzero, -, rfl⟩ | ⟨-, htransfer⟩ := hrest
  · rw [show y.amount = 0 from hzero, Nat.cast_zero, sub_zero]
    exact ⟨le_rfl, fun _ => rfl⟩
  · have hpaid := run_transferFunds_backing htransfer
    exact hpaid

end

section

omit [DecidableEq AccountId] [DecidableEq H256] [LawfulMultiCurrency Tokens] [Fintype AccountId]
  [Fintype CurrencyId]

private theorem takeRedeemFee_backing {redeem : RedeemRequest AccountId CurrencyId} :
    Keeps (backing v) (takeRedeemFee redeem : ChainCall AccountId CurrencyId H256 F Tokens Unit) := by
  have hdistribute (x : Amount CurrencyId) : Keeps (backing v) (distribute x :
      ChainCall AccountId CurrencyId H256 F Tokens _) := by
    refine .bind (Frames.attempt (.zoom fun _ _ => rfl)).ok fun r => ?_
    cases r <;> exact .pure _
  exact .bind (.zoom fun _ _ => rfl) fun _ => .bind (.zoom fun _ _ => rfl) fun _ =>
    .bind (hdistribute _) fun _ => .ite (.pure _) (.zoom fun _ _ => rfl)

end

section

omit [Fintype AccountId] [Fintype CurrencyId]

/-- An execution settles a pending request, and pays its premium unless the vault is liquidated. -/
theorem run_executeRedeem {redeemId : H256}
    {payment : BtcAddress → ℕ → H256 → Except DispatchError Unit}
    (h : (executeRedeem env redeemId payment).run s = .ok u s') :
    ∃ r, s.redeemRequests redeemId = some r ∧ r.status = .pending ∧
      s'.redeemRequests =
        Function.update s.redeemRequests redeemId (some { r with status := .completed }) ∧
      r.burned ≤ s.registry.counters.toBeRedeemed (.inl r.vault) ∧
      r.burned ≤ s.registry.counters.issued (s.registry.counters.home pairOf r.vault) ∧
      s'.registry.counters = (s.registry.counters.subToBeRedeemed pairOf r.vault r.burned).subIssued
        (s.registry.counters.home pairOf r.vault) r.burned ∧
      (s.registry.counters.isLiquidated r.vault = false →
        backing r.vault s - r.premium ≤ backing r.vault s' ∧
          ((r.premium : ℤ) ≤ backing r.vault s →
            backing r.vault s' = backing r.vault s - r.premium)) := by
  simp only [executeRedeem, Call.run_bind_eq_ok, Call.run_ofExcept_eq_ok, Call.run_reads_eq_ok,
    getOpenRedeemRequestFromId_eq_ok, Amount.checkedAdd_eq_ok, and_assoc, exists_and_left,
    exists_eq_left'] at h
  obtain ⟨r, hr, hpending, _, -, -, -, _, s₁, hburn, _, s₂, hfee, _, s₃, htokens, hset⟩ := h
  have hrec₂ : s₂.records = s.records.subSupply r.vault.wrappedCurrency r.burned := by
    rw [takeRedeemFee_recordsNothing _ _ _ hfee, run_burnFrom hburn]
    rfl
  have hct₂ : s₂.registry.counters = s.registry.counters := congrArg Records.counters hrec₂
  obtain ⟨-, hle, hissued, hrec₃⟩ := run_redeemTokens htokens
  rw [hct₂] at hle hissued hrec₃
  have hrequests : s₃.redeemRequests = s.redeemRequests :=
    (congrArg Records.redeemRequests hrec₃).trans (congrArg Records.redeemRequests hrec₂)
  have hrec := run_setRedeemStatus hset
  rw [hrequests, hr] at hrec
  have hbefore : backing r.vault s₂ = backing r.vault s := by
    obtain ⟨_, -, rfl⟩ := Lens.run_zoom_eq_ok.mp hburn
    have hkeep : backing r.vault s₂ = _ := takeRedeemFee_backing _ _ _ hfee
    exact hkeep
  have hafter : backing r.vault s' = backing r.vault s₃ := by
    simp only [setRedeemStatus, Call.run_modify_eq_ok] at hset
    rw [← hset]
    rfl
  refine ⟨r, hr, hpending, ?_, hle, hissued, ?_, fun hactive => ?_⟩
  · refine (congrArg Records.redeemRequests hrec).trans ?_
    change Function.update s₃.redeemRequests _ _ = _
    rw [hrequests]
    rfl
  · exact (congrArg Records.counters hrec).trans (congrArg Records.counters hrec₃)
  · have hpaid := run_redeemTokens_backing htokens (by rw [hct₂]; exact hactive)
    rw [hbefore, ← hafter] at hpaid
    exact hpaid

end

/-! ## Requests and executions as moves -/

/-- The premium, share and threshold of a vault do not change, and its tokens are worth `t.rate`. -/
structure FixedTerms (t : Premium.Terms) (loss : ℚ) (v : VaultId AccountId CurrencyId)
    (env : Env AccountId CurrencyId H256) : Prop where
  fee : env.premiumRedeemFee.1.toRat = t.fee
  cover : ∀ threshold, env.secureCollateralThreshold v.currencies = some threshold →
    threshold.toRat = t.cover
  rate : ∀ n z, env.convert ⟨n, v.wrappedCurrency⟩ v.collateralCurrency = .ok z →
    (z.amount : ℚ) ≤ n * t.rate ∧ n * t.rate ≤ z.amount + loss

section

omit [DecidableEq AccountId] [DecidableEq H256] [AccountConfig AccountId] [Fintype AccountId]
  [Fintype CurrencyId]

/-- The terms at a price of the oracle. -/
theorem fixedTerms_of_price {t : Premium.Terms} {price threshold : FixedU128}
    (hprice : env.exchangeRate v.collateralCurrency = some price)
    (hwrapped : CurrencyConfig.wrapped = v.wrappedCurrency)
    (hne : v.collateralCurrency ≠ v.wrappedCurrency)
    (hc : CurrencyConfig.isLendToken v.collateralCurrency = false)
    (hw : CurrencyConfig.isLendToken v.wrappedCurrency = false)
    (hthreshold : env.secureCollateralThreshold v.currencies = some threshold)
    (hrate : price.toRat = t.rate) (hfee : env.premiumRedeemFee.1.toRat = t.fee)
    (hcover : threshold.toRat = t.cover) : FixedTerms t 1 v env where
  fee := hfee
  cover threshold' h := by
    obtain rfl := Option.some.inj (hthreshold.symm.trans h)
    exact hcover
  rate n z h := by
    simp only [Env.convert, Env.oracleConvert, hc, hw, hwrapped, hne.symm, Bool.false_eq_true,
      and_self, if_false, if_true, except_bind_eq_ok, except_pure_eq_ok,
      Env.wrappedToCollateral_eq_ok, hprice, Option.some.injEq, exists_eq_left'] at h
    obtain ⟨m, ⟨-, rfl⟩, rfl⟩ := h
    have hpos := FixedU128.DIV_cast_pos
    rw [← hrate, FixedU128.toRat, ← mul_div_assoc]
    constructor
    · exact Nat.cast_div_le.trans (le_of_eq (by push_cast; rfl))
    · rw [div_le_iff₀ hpos, mul_comm _ (FixedU128.DIV : ℚ)]
      exact_mod_cast (Nat.lt_mul_div_succ (n * price.inner) FixedU128.DIV_pos).le

end

/-- Rounding the required tokens of a vault up adds at most `ε`. -/
def RoundsWithin (ε : ℚ) (v : VaultId AccountId CurrencyId) (env : Env AccountId CurrencyId H256)
    (s : Chain AccountId CurrencyId H256 F Tokens) : Prop :=
  ∀ vault tokens threshold, s.registry.getActiveRichVaultFromId v = .ok vault →
    vault.toBeBackedTokens = .ok tokens → env.secureCollateralThreshold v.currencies =
      some threshold → (requiredTokens tokens.amount threshold : ℚ) ≤
        tokens.amount * threshold.toRat + ε

private theorem le_requiredTokens (w : ℕ) (threshold : FixedU128) :
    (w : ℚ) * threshold.toRat ≤ requiredTokens w threshold := by
  have hle : w * threshold.inner ≤ FixedU128.DIV * requiredTokens w threshold :=
    (ceilDiv_le_iff_le_mul FixedU128.DIV_pos).mp le_rfl
  rw [FixedU128.toRat, ← mul_div_assoc, div_le_iff₀ FixedU128.DIV_cast_pos,
    mul_comm _ (FixedU128.DIV : ℚ)]
  exact_mod_cast hle

section

omit [DecidableEq AccountId] [FixedPointNumber F] [LawfulFixedPoint F] [DecidableEq H256]
  [MultiCurrency Tokens AccountId CurrencyId] [LawfulMultiCurrency Tokens]
  [CurrencyConfig CurrencyId] [AccountConfig AccountId] [Fintype AccountId] [Fintype CurrencyId]

private theorem roundsWithin_one : RoundsWithin 1 v env s := by
  intro vault tokens threshold _ _ _
  have hlt := Nat.div_mul_le_self (tokens.amount * threshold.inner + FixedU128.DIV - 1)
    FixedU128.DIV
  have hpos := FixedU128.DIV_cast_pos
  rw [requiredTokens, Nat.ceilDiv_eq_add_pred_div, FixedU128.toRat, ← mul_div_assoc,
    ← sub_le_iff_le_add, le_div_iff₀ hpos, sub_mul, one_mul, sub_le_iff_le_add]
  have hle : (tokens.amount * threshold.inner + FixedU128.DIV - 1) / FixedU128.DIV *
      FixedU128.DIV ≤ tokens.amount * threshold.inner + FixedU128.DIV := by omega
  exact_mod_cast hle

end

/-- The tokens a vault has to back once its requests are executed. -/
def toBeBacked (v : VaultId AccountId CurrencyId)
    (s : Chain AccountId CurrencyId H256 F Tokens) : ℚ :=
  s.registry.counters.issued (.inl v) + s.registry.counters.toBeIssued (.inl v) -
    s.registry.counters.toBeRedeemed (.inl v)

/-- What a request still promises a redeemer of the vault. -/
def pendingPremium (v : VaultId AccountId CurrencyId)
    (q : Option (RedeemRequest AccountId CurrencyId)) : ℚ :=
  q.elim 0 fun r => if r.vault = v ∧ r.status = .pending then r.premium else 0

section

omit [CurrencyConfig CurrencyId] [AccountConfig AccountId] [Fintype AccountId] [Fintype CurrencyId]

private theorem pendingPremium_nonneg (q : Option (RedeemRequest AccountId CurrencyId)) :
    0 ≤ pendingPremium v q := by
  cases q with
  | none => exact le_rfl
  | some r =>
    rw [pendingPremium, Option.elim_some]
    split
    · exact Nat.cast_nonneg _
    · exact le_rfl

end

variable [Fintype H256]

/-- A vault as a debtor, its collateral less what rounding is worth. -/
def position (v : VaultId AccountId CurrencyId) (rounding : ℚ)
    (s : Chain AccountId CurrencyId H256 F Tokens) : Premium.Position where
  debt := toBeBacked v s
  holding := backing v s - rounding
  promised := ∑ id, pendingPremium v (s.redeemRequests id)
  promised_nonneg := Finset.sum_nonneg fun _ _ => pendingPremium_nonneg _

variable {t : Premium.Terms} {loss ε : ℚ}

section

omit [DecidableEq AccountId] [FixedPointNumber F] [LawfulFixedPoint F] [DecidableEq H256]
  [MultiCurrency Tokens AccountId CurrencyId] [LawfulMultiCurrency Tokens]
  [CurrencyConfig CurrencyId] [AccountConfig AccountId] [Fintype AccountId] [Fintype CurrencyId]
  [Fintype H256]

private theorem toBeBackedTokens_eq_ok {vault : RichVault AccountId CurrencyId}
    (hvault : s.registry.getActiveRichVaultFromId v = .ok vault)
    (h : vault.toBeBackedTokens = .ok x) :
    (x.amount : ℚ) = toBeBacked v s ∧ x.currencyId = v.wrappedCurrency := by
  obtain ⟨rfl, hc, -⟩ := VaultRegistry.getActiveRichVaultFromId_eq_ok.mp hvault
  simp only [RichVault.toBeBackedTokens, RichVault.backedTokens, except_bind_eq_ok,
    Amount.checkedAdd_eq_ok, Amount.checkedSub_eq_ok] at h
  obtain ⟨_, ⟨-, -, rfl⟩, -, hle, rfl⟩ := h
  rw [toBeBacked, hc.issued, hc.toBeIssued, hc.toBeRedeemed, Nat.cast_sub hle, ← Nat.cast_add]
  exact ⟨rfl, rfl⟩

end

section

omit [DecidableEq AccountId] [DecidableEq H256] [MultiCurrency Tokens AccountId CurrencyId]
  [LawfulMultiCurrency Tokens] [AccountConfig AccountId] [Fintype AccountId] [Fintype CurrencyId]
  [Fintype H256]

/-- What the code computes as the maximum, with what it rounds. -/
theorem getVaultMaxPremiumRedeem_eq (ht : FixedTerms t loss v env)
    (h : getVaultMaxPremiumRedeem env s v = .ok z) :
    ∃ vault tokens threshold required, ∃ missing : ℕ, ∃ factor : FixedU128,
      s.registry.getActiveRichVaultFromId v = .ok vault ∧ vault.toBeBackedTokens = .ok tokens ∧
      env.secureCollateralThreshold v.currencies = some threshold ∧
      (tokens.amount : ℚ) = toBeBacked v s ∧
      env.convert ⟨requiredTokens tokens.amount threshold, v.wrappedCurrency⟩
        v.collateralCurrency = .ok required ∧
      (missing : ℚ) = max 0 ((required.amount : ℚ) - (backing v s : ℚ)) ∧
      factor.toRat ≤ t.factor ∧ t.factor ≤ factor.toRat + 1 / FixedU128.DIV ∧
      missing * factor.inner / FixedU128.DIV = z.amount := by
  simp only [getVaultMaxPremiumRedeem, except_bind_eq_ok, okOr_eq_ok,
    Amount.saturatingSub_eq_ok, and_assoc, exists_and_left, exists_eq_left'] at h
  obtain ⟨vault, hvault, tokens, htokens, threshold, hthreshold, required, hrequired, collateral,
    hcollateral, -, divisor, hdivisor, factor, hfactor, hz⟩ := h
  obtain ⟨-, rfl⟩ := Amount.checkedMul_eq_ok.mp hz
  obtain ⟨hamount, hcur⟩ := toBeBackedTokens_eq_ok hvault htokens
  simp only [getRequiredCollateralForWrapped, except_bind_eq_ok, okOr_eq_ok, hcur,
    checkedRoundedMul_up_eq_ok] at hrequired
  obtain ⟨threshold', hthreshold', _, ⟨-, rfl⟩, hrequired⟩ := hrequired
  obtain rfl := Option.some.inj (hthreshold.symm.trans hthreshold')
  have hdivisor' : divisor.toRat = t.cover - t.fee := by
    rw [FixedU128.toRat_checkedSub hdivisor, ht.cover _ hthreshold, ht.fee]
  have hfactor_le := FixedU128.toRat_checkedDiv_le hfactor
  have hle_factor := FixedU128.le_toRat_checkedDiv hfactor
  rw [ht.fee, hdivisor'] at hfactor_le hle_factor
  refine ⟨vault, tokens, threshold, required, required.amount - collateral.amount, factor, hvault,
    htokens, hthreshold, hamount, hrequired, ?_, hfactor_le, hle_factor, rfl⟩
  rw [getBackingCollateral_backing hcollateral, Int.cast_natCast]
  rcases Nat.le_total required.amount collateral.amount with hle | hle
  · rw [Nat.sub_eq_zero_of_le hle, Nat.cast_zero,
      max_eq_left (sub_nonpos.mpr (Nat.cast_le.mpr hle))]
  · rw [Nat.cast_sub hle, max_eq_right (sub_nonneg.mpr (Nat.cast_le.mpr hle))]

end

section

omit [DecidableEq H256] [MultiCurrency Tokens AccountId CurrencyId] [LawfulMultiCurrency Tokens]
  [CurrencyConfig CurrencyId] [AccountConfig AccountId] [Fintype AccountId] [Fintype CurrencyId]

private theorem gap_position (rounding : ℚ) : t.gap (position v rounding s) =
    t.cover * t.rate * toBeBacked v s - backing v s + rounding := by
  rw [Premium.Terms.gap, position]
  ring

end

section

omit [DecidableEq H256] [MultiCurrency Tokens AccountId CurrencyId] [LawfulMultiCurrency Tokens]
  [AccountConfig AccountId] [Fintype AccountId] [Fintype CurrencyId]

private theorem missing_le {n : ℕ} (ht : FixedTerms t loss v env)
    (h : env.convert ⟨n, v.wrappedCurrency⟩ v.collateralCurrency = .ok x)
    (hn : (n : ℚ) ≤ toBeBacked v s * t.cover + ε) :
    max 0 ((x.amount : ℚ) - (backing v s : ℚ)) ≤
      max 0 (t.gap (position v (t.rate * ε) s)) := by
  rw [gap_position]
  refine max_le_max le_rfl ?_
  have hrate := (ht.rate _ _ h).1
  have hworth := mul_le_mul_of_nonneg_right hn t.rate_nonneg
  linarith

/-- The computed maximum is at most the exact one. -/
theorem getVaultMaxPremiumRedeem_le (ht : FixedTerms t loss v env) (hε : RoundsWithin ε v env s)
    (h : getVaultMaxPremiumRedeem env s v = .ok z) :
    (z.amount : ℚ) ≤ t.maxPremium (position v (t.rate * ε) s) := by
  obtain ⟨vault, tokens, threshold, required, missing, factor, hvault, htokens, hthreshold, hamount,
    hrequired, hmissing, hfactor, -, hz⟩ := getVaultMaxPremiumRedeem_eq ht h
  have hrounded := hε _ _ _ hvault htokens hthreshold
  rw [hamount, ht.cover _ hthreshold] at hrounded
  have hle := missing_le ht hrequired hrounded
  rw [← hmissing] at hle
  calc (z.amount : ℚ)
      ≤ missing * factor.toRat := by
        rw [← hz, FixedU128.toRat, ← mul_div_assoc]
        exact Nat.cast_div_le.trans (le_of_eq (by push_cast; rfl))
    _ ≤ max 0 (t.gap (position v (t.rate * ε) s)) * t.factor :=
        mul_le_mul hle hfactor factor.toRat_nonneg (le_max_left _ _)

/-- The computed maximum falls short of the exact one by what its roundings are worth. -/
theorem le_getVaultMaxPremiumRedeem (ht : FixedTerms t loss v env) (hloss : 0 ≤ loss)
    (h : getVaultMaxPremiumRedeem env s v = .ok z) :
    t.maxPremium (position v 0 s) ≤ z.amount + 1 +
      (max 0 (t.gap (position v t.rate s)) / FixedU128.DIV + loss * t.factor) := by
  obtain ⟨vault, tokens, threshold, required, missing, factor, hvault, htokens, hthreshold, hamount,
    hrequired, hmissing, -, hfactor, hz⟩ := getVaultMaxPremiumRedeem_eq ht h
  have hDIV := FixedU128.DIV_cast_pos
  have hrounded := le_requiredTokens tokens.amount threshold
  rw [hamount, ht.cover _ hthreshold] at hrounded
  have hgap : max 0 (t.gap (position v 0 s)) ≤ missing + loss := by
    rw [hmissing, gap_position, add_zero]
    refine max_le (add_nonneg (le_max_left _ _) hloss) ?_
    have hrate := (ht.rate _ _ hrequired).2
    have hworth := mul_le_mul_of_nonneg_right hrounded t.rate_nonneg
    have hmax := le_max_right 0 ((required.amount : ℚ) - (backing v s : ℚ))
    linarith
  have hmissing_le : (missing : ℚ) ≤ max 0 (t.gap (position v t.rate s)) := by
    have hone := roundsWithin_one _ _ _ hvault htokens hthreshold
    rw [hamount, ht.cover _ hthreshold] at hone
    have hle := missing_le ht hrequired hone
    rwa [← hmissing, mul_one] at hle
  have hz' : (missing : ℚ) * factor.toRat ≤ z.amount + 1 := by
    have hlt : missing * factor.inner < FixedU128.DIV * (z.amount + 1) := by
      rw [← hz]
      exact Nat.lt_mul_div_succ _ FixedU128.DIV_pos
    rw [FixedU128.toRat, ← mul_div_assoc, div_le_iff₀ hDIV, mul_comm _ (FixedU128.DIV : ℚ)]
    exact_mod_cast hlt.le
  calc t.maxPremium (position v 0 s)
      ≤ (missing + loss) * t.factor :=
        mul_le_mul_of_nonneg_right hgap Premium.Terms.factor_nonneg
    _ = missing * t.factor + loss * t.factor := add_mul _ _ _
    _ ≤ missing * (factor.toRat + 1 / FixedU128.DIV) + loss * t.factor :=
        add_le_add_left (mul_le_mul_of_nonneg_left hfactor (Nat.cast_nonneg _)) _
    _ ≤ _ := by
        have hscaled := div_le_div_of_nonneg_right hmissing_le hDIV.le
        rw [mul_add, mul_one_div]
        linarith

end

section

omit [FixedPointNumber F] [LawfulFixedPoint F] [DecidableEq H256]
  [MultiCurrency Tokens AccountId CurrencyId] [LawfulMultiCurrency Tokens]
  [CurrencyConfig CurrencyId] [AccountConfig AccountId] [Fintype AccountId] [Fintype CurrencyId]
  [Fintype H256]

private theorem toBeBacked_of_request {m : ℕ}
    (h : s'.registry.counters = (s.registry.counters.addToBeRedeemed (.inl v) n).setToBeReplaced v m) :
    toBeBacked v s' = toBeBacked v s - n := by
  rw [toBeBacked, toBeBacked, h]
  simp only [Counters.setToBeReplaced, Counters.addToBeRedeemed, bump, if_true, Nat.cast_add]
  ring

/-- An executed redeem was not to be backed before, and is not issued any more. -/
theorem toBeBacked_of_execution (hactive : s.registry.counters.isLiquidated v = false)
    (hredeemed : n ≤ s.registry.counters.toBeRedeemed (.inl v))
    (hissued : n ≤ s.registry.counters.issued (s.registry.counters.home pairOf v))
    (h : s'.registry.counters = (s.registry.counters.subToBeRedeemed pairOf v n).subIssued
      (s.registry.counters.home pairOf v) n) : toBeBacked v s' = toBeBacked v s := by
  rw [Counters.home_of_active pairOf hactive] at hissued h
  rw [toBeBacked, toBeBacked, h]
  simp only [Counters.subIssued, Counters.subToBeRedeemed, hactive, Bool.false_eq_true, if_false,
    drop, if_true, Nat.cast_sub hissued, Nat.cast_sub hredeemed]
  ring

end

section

omit [CurrencyConfig CurrencyId] [AccountConfig AccountId] [Fintype AccountId] [Fintype CurrencyId]

private theorem sum_pendingPremium_update (f : H256 → Option (RedeemRequest AccountId CurrencyId))
    (id : H256) (q : Option (RedeemRequest AccountId CurrencyId)) :
    ∑ i, pendingPremium v (Function.update f id q i) =
      ∑ i, pendingPremium v (f i) - pendingPremium v (f id) + pendingPremium v q :=
  sum_update (fun _ => pendingPremium v) f id q

end

section

omit [Fintype AccountId] [Fintype CurrencyId]

/-- A request is a move that promises the recorded premium. -/
theorem requestRedeem_move (ht : FixedTerms t loss v env) (hε : RoundsWithin ε v env s)
    (h : (requestRedeem env redeemer n btcAddress v).run s = .ok u s') :
    t.Move (pendingPremium v (s'.redeemRequests env.secureId)) (position v (t.rate * ε) s)
      (position v (t.rate * ε) s') := by
  obtain ⟨r, premium, hrequests, rfl, hpending, hpremium, hpremium', -, hcounters, hpools,
    -⟩ := run_requestRedeem h
  have hnew : pendingPremium r.vault (some r) = premium.amount := by
    rw [pendingPremium, Option.elim_some, if_pos ⟨rfl, hpending⟩, hpremium]
  simp only [premiumCollateral, except_bind_eq_ok, Amount.min_eq_ok] at hpremium'
  obtain ⟨value, hvalue, share, hshare, max, hmax, -, rfl⟩ := hpremium'
  rw [hrequests, Function.update_self, hnew]
  have hle : (r.amountBtc : ℚ) ≤ r.burned := Nat.cast_le.mpr (Nat.le_add_right _ _)
  have hmin : ((Nat.min max.amount share.amount : ℕ) : ℚ) ≤ r.amountBtc * t.rate * t.fee := by
    have hvalue' := (ht.rate _ _ hvalue).1
    have hshare' := Amount.checkedMul_le hshare
    rw [ht.fee] at hshare'
    refine (Nat.cast_le.mpr (Nat.min_le_right _ _)).trans (hshare'.trans ?_)
    exact mul_le_mul_of_nonneg_right hvalue' t.fee_nonneg
  refine .take hle hmin ?_ (toBeBacked_of_request hcounters) ?_ ?_
  · exact (Nat.cast_le.mpr (Nat.min_le_left _ _)).trans (getVaultMaxPremiumRedeem_le ht hε hmax)
  · rw [position, position, backing_of_pools hpools]
  · have hsum := sum_pendingPremium_update (v := r.vault) s.redeemRequests env.secureId (some r)
    have hold := pendingPremium_nonneg (v := r.vault) (s.redeemRequests env.secureId)
    change ∑ i, pendingPremium r.vault (s'.redeemRequests i) ≤
      ∑ i, pendingPremium r.vault (s.redeemRequests i) + _
    rw [hrequests, hsum, hnew]
    linarith

/-- An execution is a move that pays what was promised. -/
theorem executeRedeem_move {redeemId : H256}
    {payment : BtcAddress → ℕ → H256 → Except DispatchError Unit} {rounding : ℚ}
    (hactive : s.registry.counters.isLiquidated v = false)
    (hv : ∀ r, s.redeemRequests redeemId = some r → r.vault = v)
    (h : (executeRedeem env redeemId payment).run s = .ok u s') :
    t.Move 0 (position v rounding s) (position v rounding s') := by
  obtain ⟨r, hr, hpending, hrequests, hredeemed, hissued, hcounters, hpaid⟩ := run_executeRedeem h
  obtain rfl := hv r hr
  refine .pay (toBeBacked_of_execution hactive hredeemed hissued hcounters) ?_
  have hpaid' : (backing r.vault s : ℚ) - r.premium ≤ backing r.vault s' := by
    exact_mod_cast (hpaid hactive).1
  have hsum := sum_pendingPremium_update (v := r.vault) s.redeemRequests redeemId
    (some { r with status := .completed })
  have hold : pendingPremium r.vault (s.redeemRequests redeemId) = r.premium := by
    rw [hr, pendingPremium, Option.elim_some, if_pos ⟨rfl, hpending⟩]
  have hnew : pendingPremium r.vault (some { r with status := .completed }) = 0 := by
    rw [pendingPremium, Option.elim_some, if_neg fun h => nomatch h.2]
  change ∑ i, pendingPremium r.vault (s'.redeemRequests i) - ((backing r.vault s' : ℚ) - rounding) ≤
    ∑ i, pendingPremium r.vault (s.redeemRequests i) - ((backing r.vault s : ℚ) - rounding)
  rw [hrequests, hsum, hold, hnew]
  linarith

end

/-! ## Runs -/

/-- A call on the redeem requests of one vault. -/
inductive RedeemOp (AccountId H256 : Type)
  | request (redeemer : AccountId) (amountWrapped : ℕ) (btcAddress : BtcAddress)
  | execute (redeemId : H256) (payment : BtcAddress → ℕ → H256 → Except DispatchError Unit)

/-- The call behind each operation. -/
def RedeemOp.call (v : VaultId AccountId CurrencyId) (env : Env AccountId CurrencyId H256) :
    RedeemOp AccountId H256 → ChainCall AccountId CurrencyId H256 F Tokens Unit
  | request redeemer amountWrapped btcAddress =>
    requestRedeem env redeemer amountWrapped btcAddress v
  | execute redeemId payment => executeRedeem env redeemId payment

/-- A call on the redeems of a vault is committed. -/
def redeemStep (v : VaultId AccountId CurrencyId) (s : Chain AccountId CurrencyId H256 F Tokens)
    (o : Env AccountId CurrencyId H256 × RedeemOp AccountId H256) :
    Chain AccountId CurrencyId H256 F Tokens :=
  (o.2.call v o.1).commit s

/-- The premium that is promised by a request that succeeds. -/
def promisedPremium (v : VaultId AccountId CurrencyId)
    (s : Chain AccountId CurrencyId H256 F Tokens)
    (o : Env AccountId CurrencyId H256 × RedeemOp AccountId H256) : ℚ :=
  match o.2 with
  | .request .. =>
    if (o.2.call v o.1).succeeds s then
      pendingPremium v ((redeemStep v s o).redeemRequests o.1.secureId)
    else 0
  | .execute .. => 0

/-- The terms stay fixed, and what is executed are requests to the vault. -/
def OnTerms (t : Premium.Terms) (loss ε : ℚ) (v : VaultId AccountId CurrencyId)
    (s : Chain AccountId CurrencyId H256 F Tokens)
    (o : Env AccountId CurrencyId H256 × RedeemOp AccountId H256) : Prop :=
  FixedTerms t loss v o.1 ∧ match o.2 with
    | .request .. => RoundsWithin ε v o.1 s
    | .execute redeemId _ => ∀ r, s.redeemRequests redeemId = some r → r.vault = v

variable {o : Env AccountId CurrencyId H256 × RedeemOp AccountId H256}
  {ops : List (Env AccountId CurrencyId H256 × RedeemOp AccountId H256)}

section

omit [Fintype AccountId] [Fintype CurrencyId] [Fintype H256]

private theorem redeemStep_isLiquidated : (redeemStep v s o).registry.counters.isLiquidated =
    s.registry.counters.isLiquidated := by
  obtain ⟨env, op⟩ := o
  rcases (op.call v env).commit_cases s with ⟨u, h⟩ | ⟨-, h⟩
  · cases op with
    | request redeemer n btcAddress =>
      obtain ⟨r, -, -, -, -, -, -, -, hcounters, -⟩ := run_requestRedeem h
      exact (congrArg Counters.isLiquidated hcounters).trans rfl
    | execute redeemId payment =>
      obtain ⟨r, -, -, -, -, -, hcounters, -⟩ := run_executeRedeem h
      exact (congrArg Counters.isLiquidated hcounters).trans rfl
  · exact congrArg (·.registry.counters.isLiquidated) h

end

section

omit [LawfulFixedPoint F] [Fintype AccountId] [Fintype CurrencyId] [Fintype H256]

/-- A step that promises nothing to a vault that is not asked. -/
theorem promisedPremium_of_liquidated (hl : s.registry.counters.isLiquidated v = true) :
    promisedPremium v s o = 0 := by
  obtain ⟨env, op⟩ := o
  cases op with
  | execute redeemId payment => rfl
  | request redeemer n btcAddress =>
    refine if_neg fun hok => ?_
    obtain ⟨u, s', h⟩ := Call.succeeds_iff.mp hok
    obtain ⟨-, -, -, -, -, -, -, hactive, -⟩ := run_requestRedeem h
    cases hl.symm.trans hactive

/-- The vault holds the secure threshold of its tokens exactly if none are burned for the Bitcoin
fee. -/
theorem exact_iff_no_inclusionFee {s₁ : Chain AccountId CurrencyId H256 F Tokens}
    {r : RedeemRequest AccountId CurrencyId} {held due : ℚ} (hrate : 0 < t.rate)
    (hrequest : (requestRedeem env redeemer n btcAddress v).run s = .ok () s₁)
    (hr : s₁.redeemRequests env.secureId = some r)
    (h : held = t.cover * t.rate * (due + r.transferFeeBtc)) :
    held = t.cover * t.rate * due ↔
      getCurrentInclusionFee env v.wrappedCurrency = .ok (.zero v.wrappedCurrency) := by
  obtain ⟨r', -, hrequests, -, -, -, -, -, -, -, hfee⟩ := run_requestRedeem hrequest
  obtain rfl : r' = r := by
    rw [hrequests, Function.update_self] at hr
    exact Option.some.inj hr
  have hcover : t.cover * t.rate ≠ 0 :=
    mul_ne_zero (t.fee_nonneg.trans_lt t.fee_lt_cover).ne' hrate.ne'
  rw [h, mul_right_inj' hcover, add_eq_left, Nat.cast_eq_zero, hfee, Amount.zero, Except.ok.injEq,
    Amount.mk.injEq, and_iff_left rfl]

end

section

omit [Fintype AccountId] [Fintype CurrencyId]

/-- A step of a vault that is not liquidated is a move. -/
theorem redeemStep_move (hactive : s.registry.counters.isLiquidated v = false)
    (ht : OnTerms t loss ε v s o) :
    t.Move (promisedPremium v s o) (position v (t.rate * ε) s)
      (position v (t.rate * ε) (redeemStep v s o)) := by
  obtain ⟨env, op⟩ := o
  obtain ⟨hterms, hop⟩ := ht
  rcases (op.call v env).commit_cases s with ⟨u, h⟩ | ⟨hfails, h⟩
  · cases op with
    | request redeemer n btcAddress =>
      have hok := Call.succeeds_iff.mpr ⟨u, _, h⟩
      have hmove := requestRedeem_move hterms hop h
      rw [promisedPremium]
      dsimp only
      rw [if_pos hok]
      exact hmove
    | execute redeemId payment => exact executeRedeem_move hactive hop h
  · have hstep : redeemStep v s (env, op) = s := h
    have hnone : promisedPremium v s (env, op) = 0 := by
      cases op with
      | request redeemer n btcAddress => exact if_neg (by rw [hfails]; exact Bool.false_ne_true)
      | execute redeemId payment => rfl
    rw [hstep, hnone]
    exact .pay rfl le_rfl

/-- The premiums that are promised over a run stay within the maximum at its start. -/
theorem accrue_promisedPremium_le (hnone : ∀ id r, s.redeemRequests id = some r → r.vault = v →
      r.status = .pending → r.premium = 0)
    (h : Meets (redeemStep v) (OnTerms t loss ε v) s ops) :
    accrue (redeemStep v) (promisedPremium v) s ops ≤ t.maxPremium (position v (t.rate * ε) s) := by
  have hpromised : (position v (t.rate * ε) s).promised = 0 := by
    refine Finset.sum_eq_zero fun id _ => ?_
    cases hq : s.redeemRequests id with
    | none => rfl
    | some r =>
      rw [pendingPremium, Option.elim_some]
      split
      · rename_i hr
        rw [hnone id r hq hr.1 hr.2, Nat.cast_zero]
      · rfl
  rw [← Premium.Terms.potential_of_promised_eq_zero hpromised]
  cases hl : s.registry.counters.isLiquidated v with
  | false =>
    have hbound := Premium.accrue_le_potential (fun s => s.registry.counters.isLiquidated v = false)
      (promisedPremium v) (position v (t.rate * ε))
      (fun s o hs _ => (congrFun redeemStep_isLiquidated v).trans hs)
      (fun s o hs ho => redeemStep_move hs ho) hl h
    have := Premium.Terms.potential_nonneg (t := t)
      (p := position v (t.rate * ε) (run (redeemStep v) s ops))
    linarith
  | true =>
    have hnothing (s' : Chain AccountId CurrencyId H256 F Tokens)
        (o : Env AccountId CurrencyId H256 × RedeemOp AccountId H256)
        (hs : s'.registry.counters.isLiquidated v = true)
        (_ : OnTerms t loss ε v s' o) :
        t.Move (promisedPremium v s' o) (position v (t.rate * ε) s) (position v (t.rate * ε) s) := by
      rw [promisedPremium_of_liquidated hs]
      exact .pay rfl le_rfl
    have hbound := Premium.accrue_le_potential (fun s => s.registry.counters.isLiquidated v = true)
      (promisedPremium v) (fun _ => position v (t.rate * ε) s)
      (fun s o hs _ => (congrFun redeemStep_isLiquidated v).trans hs) hnothing hl h
    have := Premium.Terms.potential_nonneg (t := t) (p := position v (t.rate * ε) s)
    linarith

/-- A redeem that is worth its premium exactly, and is paid the maximum exactly, leaves the vault
with what its tokens require and what those burned for the Bitcoin fee required. -/
theorem backing_of_maximum {env' : Env AccountId CurrencyId H256} {s₁ s₂}
    {r : RedeemRequest AccountId CurrencyId}
    {payment : BtcAddress → ℕ → H256 → Except DispatchError Unit} (hfee : 0 < t.fee)
    (hrequest : (requestRedeem env redeemer n btcAddress v).run s = .ok () s₁)
    (hr : s₁.redeemRequests env.secureId = some r)
    (hexecute : (executeRedeem env' env.secureId payment).run s₁ = .ok () s₂)
    (hshare : (r.premium : ℚ) = r.amountBtc * t.rate * t.fee)
    (hmax : (r.premium : ℚ) = t.gap (position v 0 s) * t.factor)
    (hcovered : (r.premium : ℤ) ≤ backing v s) :
    (backing v s₂ : ℚ) = t.cover * t.rate * (toBeBacked v s₂ + r.transferFeeBtc) := by
  obtain ⟨r', premium, hrequests, hv, -, -, -, hactive, hcounters, hpools, -⟩ :=
    run_requestRedeem hrequest
  obtain rfl : r' = r := by
    rw [hrequests, Function.update_self] at hr
    exact Option.some.inj hr
  obtain ⟨r'', hr'', -, -, hredeemed, hissued, hcounters₂, hpaid⟩ := run_executeRedeem hexecute
  obtain rfl := Option.some.inj (hr.symm.trans hr'')
  subst hv
  have hactive₁ : s₁.registry.counters.isLiquidated r'.vault = false := by
    rw [hcounters]
    exact hactive
  have hdebt : toBeBacked r'.vault s₂ = toBeBacked r'.vault s - r'.burned :=
    (toBeBacked_of_execution hactive₁ hredeemed hissued hcounters₂).trans
      (toBeBacked_of_request hcounters)
  have hbacking : backing r'.vault s₂ = backing r'.vault s - r'.premium := by
    rw [← backing_of_pools hpools] at hcovered ⊢
    exact (hpaid hactive₁).2 hcovered
  have hholding : (position r'.vault 0 s₂).holding =
      (position r'.vault 0 s).holding - r'.premium := by
    rw [position, position, hbacking, Int.cast_sub, Int.cast_natCast]
    ring
  have hgap := Premium.Terms.gap_of_maxPremium hfee hshare hmax hdebt hholding
  rw [gap_position, add_zero, RedeemRequest.burned, Nat.cast_add] at hgap
  linarith

end

/-- With the premium rate, the secure threshold and the price of its tokens fixed, from every state
in which a vault has promised no premium: what redeem requests to it promise, in any order with
their executions, adds up to no more than the maximum at the start, if rounding the required tokens
up adds at most `ε`; in exact arithmetic `ε` is 0, and it is never more than 1. What the code
computes as the maximum is this up to its own roundings. A redeem that is paid exactly the maximum
leaves the vault at its secure threshold, but for the tokens burned for the Bitcoin fee: exactly
there if that fee is zero, and only then. -/
theorem premium_redeem_total (t : Premium.Terms) (loss : ℚ) (hloss : 0 ≤ loss)
    (v : VaultId AccountId CurrencyId) (s : Chain AccountId CurrencyId H256 F Tokens) :
    ((∀ id r, s.redeemRequests id = some r → r.vault = v → r.status = .pending → r.premium = 0) →
      ∀ ε ops, Meets (redeemStep v) (OnTerms t loss ε v) s ops →
        accrue (redeemStep v) (promisedPremium v) s ops ≤
          t.maxPremium (position v (t.rate * ε) s)) ∧
      (∀ env z, FixedTerms t loss v env → getVaultMaxPremiumRedeem env s v = .ok z →
        (z.amount : ℚ) ≤ t.maxPremium (position v t.rate s) ∧
          t.maxPremium (position v 0 s) ≤ z.amount + 1 +
            (max 0 (t.gap (position v t.rate s)) / FixedU128.DIV + loss * t.factor)) ∧
      ∀ env env' redeemer n btcAddress payment s₁ s₂ r, 0 < t.fee →
        (requestRedeem env redeemer n btcAddress v).run s = .ok () s₁ →
        s₁.redeemRequests env.secureId = some r →
        (executeRedeem env' env.secureId payment).run s₁ = .ok () s₂ →
        (r.premium : ℚ) = r.amountBtc * t.rate * t.fee →
        (r.premium : ℚ) = t.gap (position v 0 s) * t.factor → (r.premium : ℤ) ≤ backing v s →
          (backing v s₂ : ℚ) = t.cover * t.rate * (toBeBacked v s₂ + r.transferFeeBtc) ∧
            (0 < t.rate → ((backing v s₂ : ℚ) = t.cover * t.rate * toBeBacked v s₂ ↔
              getCurrentInclusionFee env v.wrappedCurrency = .ok (.zero v.wrappedCurrency))) := by
  refine ⟨fun hnone ε ops h => accrue_promisedPremium_le hnone h, fun env z ht h => ⟨?_, ?_⟩, ?_⟩
  · have hle := getVaultMaxPremiumRedeem_le ht roundsWithin_one h
    rwa [mul_one] at hle
  · exact le_getVaultMaxPremiumRedeem ht hloss h
  · intro env env' redeemer n btcAddress payment s₁ s₂ r hfee hrequest hr hexecute hshare hmax
      hcovered
    have hbacking := backing_of_maximum hfee hrequest hr hexecute hshare hmax hcovered
    exact ⟨hbacking, fun hrate => exact_iff_no_inclusionFee hrate hrequest hr hbacking⟩

end Chain

end Interbtc

/-! ## A vault that pays its maximum -/

namespace Interbtc.Sample

open Core

/-- At a price of 8, a premium of one half below 150%, and a Bitcoin fee of `fee` tokens. -/
def scarceEnv (fee : FixedU128) : Env Account Currency Id :=
  { env with
    exchangeRate := fun _ => some (rate 8)
    feeEstimation := some fee
    redeemTransactionSize := 1
    premiumRedeemFee := ⟨⟨FixedU128.DIV / 2, by decide⟩, by decide⟩
    secureCollateralThreshold := fun _ => some ⟨FixedU128.DIV * 3 / 2, threeHalves_le⟩
    secureId := 1 }

/-- The terms of the example. -/
def scarceTerms : Premium.Terms where
  rate := 8
  fee := 1 / 2
  cover := 3 / 2
  rate_nonneg := by norm_num
  fee_nonneg := by norm_num
  fee_lt_cover := by norm_num

/-- A payment that is taken for verified. -/
def paid : BtcAddress → ℕ → Id → Except DispatchError Unit := fun _ _ _ => .ok ()

/-- After carol has asked to redeem `n` tokens, and after these are redeemed. -/
def scarceRequested (fee : FixedU128) (n : ℕ) : State :=
  (Chain.requestRedeem (scarceEnv fee) .carol n (.p2pkh 1) vaultA).commit issuedState

/-- A premium redeem is requested and executed. -/
def scarceExecuted (fee : FixedU128) (n : ℕ) : State :=
  (Chain.executeRedeem (scarceEnv fee) 1 paid).commit (scarceRequested fee n)

private theorem scarceEnv_fixedTerms (fee : FixedU128) :
    Chain.FixedTerms scarceTerms 1 vaultA (scarceEnv fee) :=
  Chain.fixedTerms_of_price rfl rfl (by decide) rfl rfl rfl
    (by norm_num [FixedU128.toRat, FixedU128.DIV, rate, scarceTerms])
    (by norm_num [FixedU128.toRat, FixedU128.DIV, scarceEnv, scarceTerms])
    (by norm_num [FixedU128.toRat, FixedU128.DIV, scarceTerms])

private theorem scarceEnv_roundsWithin (fee : FixedU128) :
    Chain.RoundsWithin 0 vaultA (scarceEnv fee) issuedState := by
  intro vault tokens threshold hvault htokens hthreshold
  obtain rfl := Option.some.inj hthreshold
  have hbacked : (issuedState.registry.getActiveRichVaultFromId vaultA >>=
      RichVault.toBeBackedTokens) = .ok ⟨100, .ibtc⟩ := by decide +kernel
  rw [hvault] at hbacked
  obtain rfl := Except.ok.inj (htokens.symm.trans hbacked)
  norm_num [Chain.requiredTokens, FixedU128.toRat, FixedU128.DIV, Nat.ceilDiv_eq_add_pred_div]

private theorem scarce_backing : Chain.backing vaultA issuedState = 1000 := by
  have h : issuedState.getBackingCollateral vaultA = .ok ⟨1000, .dot⟩ := by decide +kernel
  exact Chain.getBackingCollateral_backing h

private theorem scarce_toBeBacked : Chain.toBeBacked vaultA issuedState = 100 := by
  have hcounters : issuedState.registry.counters.issued (.inl vaultA) = 100 ∧
      issuedState.registry.counters.toBeIssued (.inl vaultA) = 0 ∧
      issuedState.registry.counters.toBeRedeemed (.inl vaultA) = 0 := by decide +kernel
  rw [Chain.toBeBacked, hcounters.1, hcounters.2.1, hcounters.2.2]
  norm_num

/-- Thirty tokens are redeemed for the maximum, five of them for the Bitcoin fee. -/
theorem scarce_premium :
    accrue (Chain.redeemStep vaultA) (Chain.promisedPremium vaultA) issuedState
        [(scarceEnv (rate 5), .request .carol 30 (.p2pkh 1)),
          (scarceEnv (rate 5), .execute 1 paid)] ≤
        scarceTerms.maxPremium (Chain.position vaultA (scarceTerms.rate * 0) issuedState) ∧
      (Chain.backing vaultA (scarceExecuted (rate 5) 30) : ℚ) =
          scarceTerms.cover * scarceTerms.rate *
            (Chain.toBeBacked vaultA (scarceExecuted (rate 5) 30) + (5 : ℕ)) ∧
        (Chain.backing vaultA (scarceExecuted (rate 5) 30) : ℚ) ≠
          scarceTerms.cover * scarceTerms.rate *
            Chain.toBeBacked vaultA (scarceExecuted (rate 5) 30) := by
  have htotal := Chain.premium_redeem_total scarceTerms 1 zero_le_one vaultA issuedState
  refine ⟨htotal.1 ?_ 0 _ ⟨⟨scarceEnv_fixedTerms _, scarceEnv_roundsWithin _⟩,
    ⟨scarceEnv_fixedTerms _, ?_⟩, trivial⟩, ?_⟩
  · intro id r hr
    have hnone : ∀ id, (issuedState.redeemRequests id).isNone = true := by decide +kernel
    have := hnone id
    rw [hr] at this
    cases this
  · intro r hr
    have hvault : ((scarceRequested (rate 5) 30).redeemRequests 1).map (·.vault) = some vaultA := by
      decide +kernel
    change (scarceRequested (rate 5) 30).redeemRequests 1 = some r at hr
    rw [hr] at hvault
    exact Option.some.inj hvault
  · have hrecorded : ((scarceRequested (rate 5) 30).redeemRequests 1).map
        (fun r => (r.premium, r.amountBtc, r.transferFeeBtc)) = some (100, 25, 5) := by
      decide +kernel
    obtain ⟨r, hr, hr'⟩ := Option.map_eq_some_iff.mp hrecorded
    simp only [Prod.mk.injEq] at hr'
    obtain ⟨hpremium, hbtc, hfee⟩ := hr'
    have hrequest := Call.run_eq_ok_commit
      (show (Chain.requestRedeem (scarceEnv (rate 5)) .carol 30 (.p2pkh 1) vaultA).succeeds
        issuedState = true by decide +kernel)
    have hexecute := Call.run_eq_ok_commit
      (show (Chain.executeRedeem (scarceEnv (rate 5)) 1 paid).succeeds
        (scarceRequested (rate 5) 30) = true by decide +kernel)
    have hshare : (r.premium : ℚ) = r.amountBtc * scarceTerms.rate * scarceTerms.fee := by
      rw [hpremium, hbtc]
      norm_num [scarceTerms]
    have hmax : (r.premium : ℚ) =
        scarceTerms.gap (Chain.position vaultA 0 issuedState) * scarceTerms.factor := by
      rw [hpremium, Chain.gap_position, scarce_backing, scarce_toBeBacked]
      norm_num [scarceTerms, Premium.Terms.factor]
    have hcovered : (r.premium : ℤ) ≤ Chain.backing vaultA issuedState := by
      rw [hpremium, scarce_backing]
      norm_num
    obtain ⟨hexact, hiff⟩ := htotal.2.2 _ _ _ _ _ _ _ _ r (by norm_num [scarceTerms]) hrequest hr
      hexecute hshare hmax hcovered
    rw [hfee] at hexact
    refine ⟨hexact, fun heq => ?_⟩
    have hzero := (hiff (by norm_num [scarceTerms])).mp heq
    revert hzero
    decide +kernel

/-- The maximum is 100, for 25 tokens. Five more are burned for the Bitcoin fee, and the vault ends
with 900 of collateral, where 840 are required. -/
theorem maximum_leaves_excess :
    Chain.getVaultMaxPremiumRedeem (scarceEnv (rate 5)) issuedState vaultA = .ok ⟨100, .dot⟩ ∧
      ((scarceRequested (rate 5) 30).redeemRequests 1).map (·.premium) = some 100 ∧
      (scarceExecuted (rate 5) 30).getBackingCollateral vaultA = .ok ⟨900, .dot⟩ ∧
      ((scarceExecuted (rate 5) 30).registry.getActiveRichVaultFromId vaultA >>=
        RichVault.toBeBackedTokens) = .ok ⟨70, .ibtc⟩ ∧
      Chain.getRequiredCollateralForWrapped (scarceEnv (rate 5)) ⟨70, .ibtc⟩ Currency.dot =
        .ok ⟨840, .dot⟩ := by
  decide +kernel

end Interbtc.Sample
