import Interbtc.Core.Exchange
import Interbtc.Guarantees.Collateralization
import Interbtc.Loans.Steps

/-!
# Conversion creates no value

A lend token is exchanged for what it stands for, that is exchanged at the prices of the oracle,
and the result for lend tokens again. Each of these exchanges is rounded down, so no cycle of
conversions gives more than it takes.
-/

namespace Interbtc

open Core

/-! ## The oracle -/

namespace Env

variable {AccountId CurrencyId H256 : Type} [DecidableEq CurrencyId] [CurrencyConfig CurrencyId]
  {env : Env AccountId CurrencyId H256} {c u v : CurrencyId} {n m : ℕ}

/-- The price of wrapped tokens in a currency, and zero without a price. -/
def priceOf (env : Env AccountId CurrencyId H256) (c : CurrencyId) : ℕ :=
  (env.oraclePrice c).elim 0 FixedU128.inner

/-- What the oracle converts an amount to, in numbers without an upper bound. -/
def exchanged (env : Env AccountId CurrencyId H256) (u v : CurrencyId) (n : ℕ) : ℕ :=
  if u = v then n else n * FixedU128.DIV / env.priceOf u * env.priceOf v / FixedU128.DIV

private theorem exchanged_mono (h : n ≤ m) : env.exchanged u v n ≤ env.exchanged u v m := by
  unfold exchanged
  split
  · exact h
  · gcongr

private theorem priceOf_wrapped : env.priceOf CurrencyConfig.wrapped = FixedU128.DIV := by
  rw [priceOf, oraclePrice, if_pos rfl]
  rfl

private theorem priceOf_eq {rate : FixedU128} (hc : c ≠ CurrencyConfig.wrapped)
    (hrate : env.exchangeRate c = some rate) : env.priceOf c = rate.inner := by
  rw [priceOf, oraclePrice, if_neg hc, hrate]
  rfl

private theorem wrappedToCollateral_exact (hc : c ≠ CurrencyConfig.wrapped)
    (h : env.wrappedToCollateral n c = .ok m) :
    m = n * env.priceOf c / FixedU128.DIV ∧ m ≤ maxBalance := by
  obtain ⟨rate, hrate, hle, rfl⟩ := wrappedToCollateral_eq_ok.mp h
  rw [priceOf_eq hc hrate]
  exact ⟨rfl, hle⟩

/-- Without a price there is nothing to convert. -/
theorem collateralToWrapped_exact (hc : c ≠ CurrencyConfig.wrapped)
    (h : env.collateralToWrapped n c = .ok m) :
    m = n * FixedU128.DIV / env.priceOf c ∧ m ≤ maxBalance ∧ (m ≠ 0 → env.priceOf c ≠ 0) := by
  simp only [collateralToWrapped, getPrice, except_bind_eq_ok, okOr_eq_ok, except_ite_eq_ok,
    Amount.checkedDiv_eq_ok, except_pure_eq_ok] at h
  obtain ⟨rate, hrate, ⟨rfl, rfl⟩ | ⟨-, _, ⟨hpos, hle, rfl⟩, rfl⟩⟩ := h
  · rw [Nat.zero_mul, Nat.zero_div]
    exact ⟨rfl, Nat.zero_le _, fun h => absurd rfl h⟩
  · rw [priceOf_eq hc hrate]
    exact ⟨rfl, hle, fun _ => hpos⟩

/-- The oracle converts exactly, rounded down, and in range. -/
theorem oracleConvert_exact {x y : Amount CurrencyId} (h : env.oracleConvert x v = .ok y) :
    y = ⟨env.exchanged x.currencyId v x.amount, v⟩ ∧
      (x.amount ≤ maxBalance → y.amount ≤ maxBalance) := by
  simp only [oracleConvert, except_ite_eq_ok, except_bind_eq_ok, except_pure_eq_ok] at h
  obtain ⟨hsame, rfl⟩ | ⟨hne, ⟨hw, m, hm, rfl⟩ | ⟨hw, ⟨rfl, m, hm, rfl⟩ |
    ⟨hv, k, hk, m, hm, rfl⟩⟩⟩ := h
  · rw [exchanged, if_pos hsame]
    exact ⟨rfl, id⟩
  · obtain ⟨rfl, hle⟩ := wrappedToCollateral_exact (hw ▸ Ne.symm hne) hm
    rw [exchanged, if_neg hne, hw, priceOf_wrapped, Nat.mul_div_cancel _ FixedU128.DIV_pos]
    exact ⟨rfl, fun _ => hle⟩
  · obtain ⟨rfl, hle, -⟩ := collateralToWrapped_exact hw hm
    rw [exchanged, if_neg hne, priceOf_wrapped, Nat.mul_div_cancel _ FixedU128.DIV_pos]
    exact ⟨rfl, fun _ => hle⟩
  · obtain ⟨rfl, -⟩ := collateralToWrapped_exact hw hk
    obtain ⟨rfl, hle⟩ := wrappedToCollateral_exact hv hm
    rw [exchanged, if_neg hne]
    exact ⟨rfl, fun _ => hle⟩

/-- What a currency is worth in wrapped tokens. One without a price is of a kind of its own. -/
def good (env : Env AccountId CurrencyId H256) (c : CurrencyId) : Good (Option CurrencyId) ℚ :=
  if env.priceOf c = 0 then ⟨some c, 1⟩ else ⟨none, FixedU128.DIV / env.priceOf c⟩

private theorem good_worth_pos : 0 < (env.good c).worth := by
  unfold good
  split
  · exact one_pos
  case isFalse h =>
    exact div_pos (Nat.cast_pos.mpr FixedU128.DIV_pos) (Nat.cast_pos.mpr (Nat.pos_of_ne_zero h))

/-- Wrapped tokens are worth the price. -/
theorem good_wrapped (hc : env.priceOf c ≠ 0) : env.good CurrencyConfig.wrapped =
    (env.good c).scale ((env.priceOf c : ℚ) / FixedU128.DIV) := by
  have hprice : (env.priceOf c : ℚ) ≠ 0 := Nat.cast_ne_zero.mpr hc
  have hDIV : (FixedU128.DIV : ℚ) ≠ 0 := Nat.cast_ne_zero.mpr FixedU128.DIV_pos.ne'
  have hwrapped : env.priceOf CurrencyConfig.wrapped ≠ 0 := by
    rw [priceOf_wrapped]
    exact FixedU128.DIV_pos.ne'
  rw [good, good, if_neg hc, if_neg hwrapped, priceOf_wrapped]
  ext
  · rfl
  · change (FixedU128.DIV : ℚ) / FixedU128.DIV =
      env.priceOf c / FixedU128.DIV * (FixedU128.DIV / env.priceOf c)
    field_simp

private theorem wrappedToCollateral_noMore (hc : c ≠ CurrencyConfig.wrapped)
    (h : env.wrappedToCollateral n c = .ok m) :
    (env.good CurrencyConfig.wrapped).NoMore n (env.good c) m := by
  obtain ⟨rfl, -⟩ := wrappedToCollateral_exact hc h
  by_cases hprice : env.priceOf c = 0
  · rw [hprice, Nat.mul_zero, Nat.zero_div]
    exact .zero
  · rw [good_wrapped hprice]
    exact Good.noMore_mul_div good_worth_pos n _ _

private theorem collateralToWrapped_noMore (hc : c ≠ CurrencyConfig.wrapped)
    (h : env.collateralToWrapped n c = .ok m) :
    (env.good c).NoMore n (env.good CurrencyConfig.wrapped) m := by
  obtain ⟨hm, -, hprice⟩ := collateralToWrapped_exact hc h
  rcases Nat.eq_zero_or_pos m with rfl | hpos
  · exact .zero
  · rw [good_wrapped (hprice hpos.ne'), hm]
    exact Good.noMore_div_mul good_worth_pos (hprice hpos.ne') FixedU128.DIV_pos.ne' n

private theorem oracleConvert_noMore {x y : Amount CurrencyId} (h : env.oracleConvert x v = .ok y) :
    (env.good x.currencyId).NoMore x.amount (env.good v) y.amount := by
  simp only [oracleConvert, except_ite_eq_ok, except_bind_eq_ok, except_pure_eq_ok] at h
  obtain ⟨rfl, rfl⟩ | ⟨hne, ⟨hw, m, hm, rfl⟩ | ⟨hw, ⟨rfl, m, hm, rfl⟩ |
    ⟨hv, k, hk, m, hm, rfl⟩⟩⟩ := h
  · exact .refl good_worth_pos
  · rw [hw]
    exact wrappedToCollateral_noMore (hw ▸ Ne.symm hne) hm
  · exact collateralToWrapped_noMore hw hm
  · exact (collateralToWrapped_noMore hw hk).trans (wrappedToCollateral_noMore hv hm)

end Env

/-! ## Lend tokens -/

namespace Loans

variable {AccountId CurrencyId H256 Tokens : Type} [DecidableEq AccountId]
  [DecidableEq CurrencyId] [MultiCurrency Tokens AccountId CurrencyId]
  [CurrencyConfig CurrencyId] [LoansConfig AccountId CurrencyId]

/-- A lend token stands for the asset of its market, and any other currency for itself. -/
def assetOf (s : Loans AccountId CurrencyId Tokens) (c : CurrencyId) :
    Except DispatchError CurrencyId :=
  if CurrencyConfig.isLendToken c then s.underlyingId c else .ok c

/-- The rate at which a currency stands for an asset. -/
def rateOf (s : Loans AccountId CurrencyId Tokens) (c assetId : CurrencyId) :
    Except DispatchError Rate :=
  if CurrencyConfig.isLendToken c then s.exchangeRateStored assetId else .ok .one

/-- The interest of the market of a lend token is accrued. -/
def settle (env : LoansEnv AccountId CurrencyId H256) (c : CurrencyId) :
    LoansCall AccountId CurrencyId Tokens Unit := do
  if CurrencyConfig.isLendToken c then
    let assetId ← Call.reads fun s => s.underlyingId c
    accrueInterest env assetId
  else
    return

/-- A lend token is exchanged for what it stands for. -/
def unwrap (env : LoansEnv AccountId CurrencyId H256) (x : Amount CurrencyId) :
    LoansCall AccountId CurrencyId Tokens (Amount CurrencyId) :=
  if CurrencyConfig.isLendToken x.currencyId then recomputeUnderlyingAmount env x else return x

/-- What a currency stands for is exchanged for it. -/
def wrap (env : LoansEnv AccountId CurrencyId H256) (c : CurrencyId) (z : Amount CurrencyId) :
    LoansCall AccountId CurrencyId Tokens (Amount CurrencyId) :=
  if CurrencyConfig.isLendToken c then recomputeCollateralAmount env z else return z

variable {env : LoansEnv AccountId CurrencyId H256} {s s' s₁ : Loans AccountId CurrencyId Tokens}
  {c d u v : CurrencyId} {rate rate' : Rate} {x y z : Amount CurrencyId}

section

omit [DecidableEq AccountId]

/-- A conversion is in three parts. -/
theorem run_convertTo_eq_ok : (convertTo env x d).run s = .ok y s' ↔
    ∃ v k s₁ z, s.assetOf d = .ok v ∧ (unwrap env x).run s = .ok k s₁ ∧
      env.oracleConvert k v = .ok z ∧ (wrap env d z).run s₁ = .ok y s' := by
  unfold convertTo assetOf unwrap wrap
  cases CurrencyConfig.isLendToken x.currencyId <;> cases CurrencyConfig.isLendToken d <;>
    simp only [Bool.false_eq_true, and_self, and_true, and_false, if_true, if_false,
      Call.run_bind_eq_ok, Call.run_reads_eq_ok, Call.run_ofExcept_eq_ok, Call.run_pure_eq_ok,
      Except.ok.injEq]
  · simp
  · simp
  · simp
  · constructor
    · rintro ⟨v, _, ⟨hv, rfl⟩, k, s₁, hk, z, _, ⟨hz, rfl⟩, hy⟩
      exact ⟨v, k, s₁, z, hv, hk, hz, hy⟩
    · rintro ⟨v, k, s₁, z, hv, hk, hz, hy⟩
      exact ⟨v, s, ⟨hv, rfl⟩, k, s₁, hk, z, s₁, ⟨hz, rfl⟩, hy⟩

end

/-! ## Rates that are settled -/

/-- A currency stands for another one, at a rate that no more interest changes. -/
structure StandsFor (env : LoansEnv AccountId CurrencyId H256)
    (s : Loans AccountId CurrencyId Tokens) (c u : CurrencyId) (rate : Rate) : Prop where
  asset : s.assetOf c = .ok u
  rate : s.rateOf c u = .ok rate
  fresh : CurrencyConfig.isLendToken c = true → Fresh env u s

section

omit [CurrencyConfig CurrencyId] [DecidableEq AccountId]

/-- Interest on another market leaves the exchange rate alone. -/
theorem exchangeRateStored_accrueInterest {a : CurrencyId} (hne : a ≠ c)
    (h : (accrueInterest env c).run s = .ok () s') :
    s'.exchangeRateStored a = s.exchangeRateStored a := by
  refine run_accrueInterest_of_ne (f := fun s => s.exchangeRateStored a) rfl (fun status => ?_) h
  have hborrows : (storeStatus c env.now status s).totalBorrows a = s.totalBorrows a :=
    Function.update_of_ne hne _ _
  have hreserves : (storeStatus c env.now status s).totalReserves a = s.totalReserves a :=
    Function.update_of_ne hne _ _
  simp only [exchangeRateStored, borrows, reserves, hborrows, hreserves]
  rfl

end

section

omit [DecidableEq AccountId]

private theorem Accrual.assetOf (h : Accrual env s s') : s'.assetOf c = s.assetOf c := by
  unfold Loans.assetOf underlyingId
  rw [h.setup.2]

end

namespace StandsFor

section

omit [DecidableEq AccountId]

private theorem of_accrueInterest {a : CurrencyId} (hc : StandsFor env s c u rate)
    (h : (accrueInterest env a).run s = .ok () s') : StandsFor env s' c u rate where
  asset := (Accrual.of_run h).assetOf.trans hc.asset
  rate := by
    have hrate := hc.rate
    unfold rateOf at hrate ⊢
    by_cases hlend : CurrencyConfig.isLendToken c = true
    · rw [if_pos hlend] at hrate ⊢
      rcases eq_or_ne u a with rfl | hne
      · rw [(hc.fresh hlend).eq_of_run h]
        exact hrate
      · exact (exchangeRateStored_accrueInterest hne h).trans hrate
    · rw [if_neg hlend] at hrate ⊢
      exact hrate
  fresh hlend := (hc.fresh hlend).accrueInterest h

private theorem of_accrual (hc : StandsFor env s c u rate) (h : Accrual env s s') :
    StandsFor env s' c u rate :=
  h.preserves (P := fun s => StandsFor env s c u rate)
    (fun _ _ _ hrun hc => hc.of_accrueInterest hrun) hc

private theorem unique (hc : StandsFor env s c u rate) (hc' : StandsFor env s c v rate') :
    v = u ∧ rate' = rate := by
  obtain rfl := Except.ok.inj (hc'.asset.symm.trans hc.asset)
  exact ⟨rfl, Except.ok.inj (hc'.rate.symm.trans hc.rate)⟩

end

/-- What a currency is worth, if it stands for another at a rate. -/
def good (env : LoansEnv AccountId CurrencyId H256) (u : CurrencyId) (rate : Rate) :
    Good (Option CurrencyId) ℚ :=
  (env.good u).scale ((rate.inner : ℚ) / FixedU128.DIV)

end StandsFor

/-! ## The parts of a conversion -/

section

omit [DecidableEq AccountId]

private theorem run_settle_eq_ok {u : Unit} : (settle env c).run s = .ok u s' ↔
    if CurrencyConfig.isLendToken c then
      ∃ a, s.underlyingId c = .ok a ∧ (accrueInterest env a).run s = .ok () s'
    else s = s' := by
  unfold settle
  cases CurrencyConfig.isLendToken c
  · simp
  · simp only [if_true, Call.run_bind_eq_ok, Call.run_reads_eq_ok]
    constructor
    · rintro ⟨a, _, ⟨ha, rfl⟩, haccrue⟩
      exact ⟨a, ha, haccrue⟩
    · rintro ⟨a, ha, haccrue⟩
      exact ⟨a, s, ⟨ha, rfl⟩, haccrue⟩

private theorem run_unwrap (h : (unwrap env x).run s = .ok z s') :
    (settle env x.currencyId).run s = .ok () s' ∧
    ∃ rate, StandsFor env s' x.currencyId z.currencyId rate ∧
      z.amount = x.amount * rate.inner / FixedU128.DIV ∧
      (x.amount ≤ maxBalance → z.amount ≤ maxBalance) := by
  unfold unwrap at h
  rw [run_settle_eq_ok]
  by_cases hlend : CurrencyConfig.isLendToken x.currencyId = true
  · rw [if_pos hlend] at h ⊢
    obtain ⟨a, rate, ha, haccrue, hrate, hle, rfl⟩ := run_recomputeUnderlyingAmount h
    refine ⟨⟨a, ha, haccrue⟩, rate, ⟨?_, ?_, fun _ => fresh_accrueInterest haccrue⟩, rfl,
      fun _ => hle⟩
    · rw [(Accrual.of_run haccrue).assetOf, assetOf, if_pos hlend]
      exact ha
    · rw [rateOf, if_pos hlend]
      exact hrate
  · rw [if_neg hlend] at h ⊢
    obtain ⟨rfl, rfl⟩ := Call.run_pure_eq_ok.mp h
    refine ⟨rfl, .one, ⟨if_neg hlend, if_neg hlend, fun h => absurd h hlend⟩, ?_, id⟩
    exact (Nat.mul_div_cancel _ FixedU128.DIV_pos).symm

private theorem run_wrap (hd : s.assetOf d = .ok z.currencyId)
    (h : (wrap env d z).run s = .ok y s') :
    (settle env d).run s = .ok () s' ∧
    ∃ rate, StandsFor env s' d z.currencyId rate ∧ rate.inner ≠ 0 ∧
      y.amount = z.amount * FixedU128.DIV / rate.inner ∧
      (z.amount ≤ maxBalance → y.amount ≤ maxBalance) := by
  unfold wrap at h
  rw [run_settle_eq_ok]
  by_cases hlend : CurrencyConfig.isLendToken d = true
  · rw [if_pos hlend] at h ⊢
    obtain ⟨rate, c, haccrue, hrate, hpos, -, hle, rfl⟩ := run_recomputeCollateralAmount h
    have ha := hd
    rw [assetOf, if_pos hlend] at ha
    refine ⟨⟨_, ha, haccrue⟩, rate, ⟨?_, ?_, fun _ => fresh_accrueInterest haccrue⟩, hpos, rfl,
      fun _ => hle⟩
    · exact (Accrual.of_run haccrue).assetOf.trans hd
    · rw [rateOf, if_pos hlend]
      exact hrate
  · rw [if_neg hlend] at h ⊢
    obtain ⟨rfl, rfl⟩ := Call.run_pure_eq_ok.mp h
    refine ⟨rfl, .one, ⟨hd, if_neg hlend, fun h => absurd h hlend⟩, FixedU128.DIV_pos.ne', ?_, id⟩
    exact (Nat.mul_div_cancel _ FixedU128.DIV_pos).symm

/-- Settling only accrues interest. -/
theorem Accrual.of_settle (h : (settle env c).run s = .ok () s') : Accrual env s s' := by
  rw [run_settle_eq_ok] at h
  split at h
  · obtain ⟨a, -, haccrue⟩ := h
    exact .of_run haccrue
  · rw [h]
    exact .refl _

end

/-! ## Conversions -/

/-- What an amount is converted to, in numbers without an upper bound. -/
def converted (env : LoansEnv AccountId CurrencyId H256) (u : CurrencyId) (rate : Rate)
    (v : CurrencyId) (rate' : Rate) (n : ℕ) : ℕ :=
  env.exchanged u v (n * rate.inner / FixedU128.DIV) * FixedU128.DIV / rate'.inner

section

omit [DecidableEq AccountId] [LoansConfig AccountId CurrencyId]

private theorem converted_mono {n m : ℕ} (h : n ≤ m) :
    converted env u rate v rate' n ≤ converted env u rate v rate' m := by
  unfold converted
  have hworth : n * rate.inner / FixedU128.DIV ≤ m * rate.inner / FixedU128.DIV := by gcongr
  have hexchanged : env.exchanged u v _ ≤ env.exchanged u v _ := Env.exchanged_mono hworth
  gcongr

end

section

omit [DecidableEq AccountId]

/-- A conversion settles both currencies, and is exact and in range at their rates. -/
theorem run_convertTo (h : (convertTo env x d).run s = .ok y s') :
    (∃ s₁, (settle env x.currencyId).run s = .ok () s₁ ∧ (settle env d).run s₁ = .ok () s') ∧
    ∃ u rate v rate', StandsFor env s' x.currencyId u rate ∧ StandsFor env s' d v rate' ∧
      y.amount = converted env u rate v rate' x.amount ∧
      (x.amount ≤ maxBalance → y.amount ≤ maxBalance) ∧
      (StandsFor.good env u rate).NoMore x.amount (StandsFor.good env v rate') y.amount := by
  obtain ⟨v, k, s₁, z, hv, hk, hz, hy⟩ := run_convertTo_eq_ok.mp h
  obtain ⟨hsource, rate, hc, hkn, hkle⟩ := run_unwrap hk
  obtain ⟨hexact, hzle⟩ := Env.oracleConvert_exact hz
  have hzv : z.currencyId = v := congrArg Amount.currencyId hexact
  have hzn : z.amount = env.exchanged k.currencyId v k.amount := congrArg Amount.amount hexact
  have hnoMore := Env.oracleConvert_noMore hz
  subst hzv
  obtain ⟨htarget, rate', hd, hpos, hyn, hyle⟩ :=
    run_wrap ((Accrual.of_settle hsource).assetOf.trans hv) hy
  refine ⟨⟨s₁, hsource, htarget⟩, k.currencyId, rate, z.currencyId, rate',
    hc.of_accrual (.of_settle htarget), hd, ?_, fun hle => hyle (hzle (hkle hle)), ?_⟩
  · rw [hyn, hzn, hkn]
    rfl
  · rw [hkn] at hnoMore
    rw [hyn]
    exact ((Good.noMore_mul_div Env.good_worth_pos _ _ _).trans hnoMore).trans
      (Good.noMore_div_mul Env.good_worth_pos hpos FixedU128.DIV_pos.ne' _)

end

/-- Lend tokens and markets are paired: the market of a lend token names it. -/
def Paired (s : Loans AccountId CurrencyId Tokens) : Prop :=
  ∀ c, CurrencyConfig.isLendToken c = true → ∀ a, s.underlyingId c = .ok a →
    s.lendTokenId a = .ok c

section

omit [DecidableEq AccountId]

private theorem Paired.of_accrual (hs : Paired s) (h : Accrual env s s') : Paired s' := by
  intro c hlend a ha
  unfold underlyingId at ha
  unfold lendTokenId market
  rw [h.setup.2] at ha
  rw [h.setup.1]
  exact hs c hlend a ha

/-- A conversion gives what is asked for. -/
theorem Paired.convertTo_currencyId (hs : Paired s) (h : (convertTo env x d).run s = .ok y s') :
    y.currencyId = d := by
  obtain ⟨v, k, s₁, z, hv, hk, hz, hy⟩ := run_convertTo_eq_ok.mp h
  have hzv := Env.oracleConvert_currencyId hz
  unfold assetOf at hv
  unfold wrap at hy
  by_cases hlend : CurrencyConfig.isLendToken d = true
  · rw [if_pos hlend] at hv hy
    obtain ⟨_, c, haccrue, -, -, hc, -, rfl⟩ := run_recomputeCollateralAmount hy
    have hlater : Accrual env s s' :=
      (Accrual.of_settle (run_unwrap hk).1).trans_zero (Accrual.of_run haccrue)
    have hv' : s'.underlyingId d = .ok v := by
      unfold underlyingId at hv ⊢
      rw [hlater.setup.2]
      exact hv
    rw [hzv, hs.of_accrual hlater d hlend v hv'] at hc
    exact (Except.ok.inj hc).symm
  · rw [if_neg hlend] at hv hy
    obtain ⟨rfl, -⟩ := Call.run_pure_eq_ok.mp hy
    exact hzv.trans (Except.ok.inj hv).symm

end

/-- Conversions one after the other, each to the currency of what it gives, and of what the last
one gave. -/
inductive Conversions (env : LoansEnv AccountId CurrencyId H256) :
    Loans AccountId CurrencyId Tokens → Amount CurrencyId → Amount CurrencyId →
      Loans AccountId CurrencyId Tokens → Prop
  | refl (s : Loans AccountId CurrencyId Tokens) (x : Amount CurrencyId) : Conversions env s x x s
  | step {s s₁ s' : Loans AccountId CurrencyId Tokens} {x y z : Amount CurrencyId}
      (hz : (convertTo env x z.currencyId).run s = .ok z s₁) (h : Conversions env s₁ z y s') :
      Conversions env s x y s'

section

omit [DecidableEq AccountId]

/-- Where lend tokens and markets are paired, amounts are converted to any list of currencies. -/
theorem Conversions.of_foldlM {cs : List CurrencyId} (hs : Paired s)
    (h : (cs.foldlM (convertTo env) x).run s = .ok y s') : Conversions env s x y s' := by
  induction cs generalizing x s with
  | nil =>
    obtain ⟨rfl, rfl⟩ := Call.run_pure_eq_ok.mp h
    exact .refl s x
  | cons c cs ih =>
    rw [List.foldlM_cons, Call.run_bind_eq_ok] at h
    obtain ⟨z, s₁, hz, hy⟩ := h
    obtain rfl := hs.convertTo_currencyId hz
    exact .step hz (ih (hs.of_accrual (convertTo_accrues _ _ _ _ _ hz)) hy)

private theorem Conversions.accrual (h : Conversions env s x y s') : Accrual env s s' := by
  induction h with
  | refl => exact .refl _
  | step hz _ ih => exact (convertTo_accrues _ _ _ _ _ hz).trans_zero ih

/-- The worth of what is converted at the rates that are settled never rises. -/
theorem Conversions.noMore (h : Conversions env s x y s') : (y = x ∧ s' = s) ∨
    ∃ u rate v rate', StandsFor env s' x.currencyId u rate ∧
      StandsFor env s' y.currencyId v rate' ∧
      (StandsFor.good env u rate).NoMore x.amount (StandsFor.good env v rate') y.amount := by
  induction h with
  | refl => exact .inl ⟨rfl, rfl⟩
  | step hz h ih =>
    obtain ⟨-, u, rate, v, rate', hx, hz', -, -, hnoMore⟩ := run_convertTo hz
    have hx' := hx.of_accrual h.accrual
    rcases ih with ⟨rfl, rfl⟩ | ⟨w, r, w', r', hz'', hy, hlater⟩
    · exact .inr ⟨u, rate, v, rate', hx, hz', hnoMore⟩
    · obtain ⟨rfl, rfl⟩ := (hz'.of_accrual h.accrual).unique hz''
      exact .inr ⟨u, rate, w', r', hx', hy, hnoMore.trans hlater⟩

end

/-- No cycle of conversions gives more than it takes, and one conversion is monotone, exact at
the rates that are settled, and in range. -/
theorem conversions_create_no_value (env : LoansEnv AccountId CurrencyId H256)
    (s : Loans AccountId CurrencyId Tokens) (x : Amount CurrencyId) :
    (∀ y s', Conversions env s x y s' → y.currencyId = x.currencyId → y.amount ≤ x.amount) ∧
    ∀ d y s', (convertTo env x d).run s = .ok y s' →
      (∀ n y' s'', n ≤ x.amount → (convertTo env ⟨n, x.currencyId⟩ d).run s = .ok y' s'' →
        y'.amount ≤ y.amount) ∧
      (x.amount ≤ maxBalance → y.amount ≤ maxBalance) ∧
      ∃ u rate v rate', StandsFor env s' x.currencyId u rate ∧ StandsFor env s' d v rate' ∧
        y.amount = converted env u rate v rate' x.amount := by
  constructor
  · intro y s' h hcycle
    rcases h.noMore with ⟨rfl, -⟩ | ⟨u, rate, v, rate', hx, hy, hnoMore⟩
    · exact le_rfl
    · rw [hcycle] at hy
      obtain ⟨rfl, rfl⟩ := hx.unique hy
      exact hnoMore.le
  · intro d y s' h
    obtain ⟨⟨s₁, hsource, htarget⟩, u, rate, v, rate', hc, hd, hn, hle, -⟩ := run_convertTo h
    refine ⟨?_, hle, u, rate, v, rate', hc, hd, hn⟩
    intro n y' s'' hnm h'
    -- both conversions settle the same markets, so they are at the same rates
    obtain ⟨⟨s₂, hsource', htarget'⟩, u', r, v', r', hc', hd', hn', -⟩ := run_convertTo h'
    cases hsource.symm.trans hsource'
    cases htarget.symm.trans htarget'
    obtain ⟨rfl, rfl⟩ := hc.unique hc'
    obtain ⟨rfl, rfl⟩ := hd.unique hd'
    rw [hn, hn']
    exact converted_mono hnm

namespace Sample

/-- A price at which what is converted is rounded down. -/
def pricedAt (price : Rate) : LoansEnv Holder Asset Unit :=
  { envAt 1001 with exchangeRate := fun _ => some price }

/-- A supplier of the listed markets. -/
def lent : Accounts :=
  run step (start 1000) (listing ++ [(envAt 1000, .mint alice .dot 100)])

private theorem lent_paired : Paired lent := by
  intro c hlend a ha
  cases c with
  | lendDot =>
    have hdot : lent.underlyingId .lendDot = .ok .dot := by decide +kernel
    obtain rfl := Except.ok.inj (hdot.symm.trans ha)
    decide +kernel
  | lendIbtc =>
    have hibtc : lent.underlyingId .lendIbtc = .ok .ibtc := by decide +kernel
    obtain rfl := Except.ok.inj (hibtc.symm.trans ha)
    decide +kernel
  | dot | ibtc | intr => cases hlend

/-- Through lend tokens and wrapped tokens and back, a unit is lost. -/
theorem conversions_create_no_value_cycle : ∃ s', Conversions (pricedAt (Sample.rate 150)) lent
    ⟨100, .dot⟩ ⟨99, .dot⟩ s' ∧ (⟨99, .dot⟩ : Amount Asset).amount ≤ 100 := by
  have hvalue : ([.lendDot, .ibtc, .lendIbtc, .dot].foldlM (convertTo (pricedAt (Sample.rate 150)))
      ⟨100, .dot⟩).value? lent = some ⟨99, .dot⟩ := by decide +kernel
  obtain ⟨s', hrun⟩ := Call.exists_of_value? hvalue
  have hcycle := Conversions.of_foldlM lent_paired hrun
  exact ⟨s', hcycle, (conversions_create_no_value _ _ ⟨100, .dot⟩).1 _ s' hcycle rfl⟩

end Sample

end Loans

end Interbtc
