import Interbtc.Core.Moves
import Interbtc.Loans.Dispatch
import Mathlib.Algebra.Group.PUnit
import Mathlib.Algebra.Ring.BooleanRing

/-!
# The books of the lending markets

The properties of the markets depend on the balances and on the storage without the incentive
rewards. What a call does to these books is a function of the books: rewards leave them
alone, values and conversions only accrue interest, and tokens move with what their hooks do.
-/

namespace Interbtc.Loans

open Core MultiCurrency

variable {AccountId CurrencyId H256 Tokens : Type} [DecidableEq AccountId]
  [DecidableEq CurrencyId] [MultiCurrency Tokens AccountId CurrencyId]
  [CurrencyConfig CurrencyId] [LoansConfig AccountId CurrencyId]

/-- The balances as a plain ledger, and the storage without the incentive rewards. -/
abbrev Books (AccountId CurrencyId : Type) : Type :=
  Loans AccountId CurrencyId (TokenLedger AccountId CurrencyId)

/-- The accounting of the pallet, without rates and rewards. -/
def books (s : Loans AccountId CurrencyId Tokens) : Books AccountId CurrencyId :=
  { s with
    tokens := ⟨balances s.tokens, totalIssuance s.tokens⟩
    rewardSupplySpeed := fun _ => 0
    rewardBorrowSpeed := fun _ => 0
    rewardSupplyState := fun _ => ⟨0, 0⟩
    rewardBorrowState := fun _ => ⟨0, 0⟩
    rewardSupplierIndex := fun _ _ => 0
    rewardBorrowerIndex := fun _ _ => 0
    rewardAccrued := fun _ => 0 }

/-! ## Reads of the books -/

section Reads

variable (s : Loans AccountId CurrencyId Tokens)

end Reads

/-! ## Rewards -/

variable {env : LoansEnv AccountId CurrencyId H256}

section

omit [DecidableEq AccountId] [CurrencyConfig CurrencyId] [LoansConfig AccountId CurrencyId]

/-- The reward index of the suppliers is none of the accounting. -/
theorem updateRewardSupplyIndex_books (a : CurrencyId) :
    Frames books (updateRewardSupplyIndex env a : LoansCall AccountId CurrencyId Tokens _) :=
  .bind (.reads _) fun _ => .modify fun _ => rfl

/-- The reward index of the borrowers is none of the accounting. -/
theorem updateRewardBorrowIndex_books (a : CurrencyId) :
    Frames books (updateRewardBorrowIndex env a : LoansCall AccountId CurrencyId Tokens _) :=
  .bind (.reads _) fun _ => .modify fun _ => rfl

end

section

omit [CurrencyConfig CurrencyId] [LoansConfig AccountId CurrencyId]

/-- The reward of a supplier is none of the accounting. -/
theorem distributeSupplierReward_books (a : CurrencyId) (who : AccountId) :
    Frames books (distributeSupplierReward a who : LoansCall AccountId CurrencyId Tokens _) :=
  .bind (.reads _) fun _ => .bind (.reads _) fun _ => .modify fun _ => rfl

/-- The reward of a borrower is none of the accounting. -/
theorem distributeBorrowerReward_books (a : CurrencyId) (who : AccountId) :
    Frames books (distributeBorrowerReward a who : LoansCall AccountId CurrencyId Tokens _) :=
  .bind (.reads _) fun _ => .bind (.reads _) fun _ => .modify fun _ => rfl

/-- Collecting the rewards of a market changes no accounting. -/
theorem collectMarketReward_books (a : CurrencyId) (who : AccountId) :
    Frames books (collectMarketReward env a who : LoansCall AccountId CurrencyId Tokens _) :=
  .bind (updateRewardSupplyIndex_books a) fun _ => .bind (distributeSupplierReward_books a who)
    fun _ => .bind (updateRewardBorrowIndex_books a) fun _ => distributeBorrowerReward_books a who

end

section

omit [LoansConfig AccountId CurrencyId]

/-- Settling the rewards of suppliers changes no accounting. -/
theorem settleSuppliers_books (c : CurrencyId) (accounts : List AccountId) :
    Frames books (settleSuppliers env c accounts : LoansCall AccountId CurrencyId Tokens _) :=
  .ite (.bind (.reads _) fun _ => .bind (updateRewardSupplyIndex_books _) fun _ =>
    .forM (distributeSupplierReward_books _) accounts) (.pure _)

/-- The hook before a slash changes no accounting. -/
theorem onSlash_books (c : CurrencyId) (who : AccountId) :
    Frames books (onSlash env c who : LoansCall AccountId CurrencyId Tokens _) :=
  .bind (.attempt (settleSuppliers_books c [who])) fun _ => .pure _

end

/-! ## Interest -/

/-- Start the clock of the interest of a market. -/
def startClock (a : CurrencyId) (now : ℕ) (s : Loans AccountId CurrencyId Tokens) :
    Loans AccountId CurrencyId Tokens :=
  { s with lastAccruedInterestTime := Function.update s.lastAccruedInterestTime a now }

omit [DecidableEq AccountId] [CurrencyConfig CurrencyId] in
/-- What an accrual does: it starts the clock, or does nothing, or stores the interest. -/
theorem run_accrueInterest {a : CurrencyId} {s s' : Loans AccountId CurrencyId Tokens} {u : Unit} :
    (accrueInterest env a).run s = .ok u s' ↔
      (s.lastAccruedInterestTime a = 0 ∧ s' = startClock a env.now s) ∨
      (s.lastAccruedInterestTime a ≠ 0 ∧ env.now ≤ s.lastAccruedInterestTime a ∧ s' = s) ∨
      (s.lastAccruedInterestTime a ≠ 0 ∧ s.lastAccruedInterestTime a < env.now ∧
        ∃ status, s.getMarketStatus env.now a = .ok status ∧
          s' = storeStatus a env.now status s) := by
  simp only [accrueInterest, Call.run_bind_eq_ok, Call.run_get_eq_ok, Call.run_ite_eq_ok,
    Call.run_modify_eq_ok, Call.run_pure_eq_ok, Call.run_ofExcept_eq_ok]
  constructor
  · rintro ⟨_, _, ⟨rfl, rfl⟩, ⟨h, rfl⟩ | ⟨h, ⟨hle, -, rfl⟩ | ⟨hlt, status, _, ⟨hst, rfl⟩, rfl⟩⟩⟩
    · exact .inl ⟨h, rfl⟩
    · exact .inr (.inl ⟨h, hle, rfl⟩)
    · exact .inr (.inr ⟨h, not_le.mp hlt, status, hst, rfl⟩)
  · rintro (⟨h, rfl⟩ | ⟨h, hle, rfl⟩ | ⟨h, hlt, status, hst, rfl⟩)
    · exact ⟨s, s, ⟨rfl, rfl⟩, .inl ⟨h, rfl⟩⟩
    · exact ⟨s', s', ⟨rfl, rfl⟩, .inr ⟨h, .inl ⟨hle, trivial, rfl⟩⟩⟩
    · exact ⟨s, s, ⟨rfl, rfl⟩, .inr ⟨h, .inr ⟨not_le.mpr hlt, status, s, ⟨hst, rfl⟩, rfl⟩⟩⟩

omit [CurrencyConfig CurrencyId] in
/-- Interest is accrued on the books as it is on the state. -/
theorem accrueInterest_books {a : CurrencyId} {s s' : Loans AccountId CurrencyId Tokens} {u : Unit}
    (h : (accrueInterest env a).run s = .ok u s') :
    (accrueInterest env a).run s.books = .ok () s'.books := by
  refine run_accrueInterest.mpr ?_
  obtain ⟨h₀, rfl⟩ | ⟨h₀, hle, rfl⟩ | ⟨h₀, hlt, status, hst, rfl⟩ := run_accrueInterest.mp h
  · exact .inl ⟨h₀, rfl⟩
  · exact .inr (.inl ⟨h₀, hle, rfl⟩)
  · exact .inr (.inr ⟨h₀, hlt, status, hst, rfl⟩)

/-- Interest accrues on some of the markets. -/
abbrev Accrual (env : LoansEnv AccountId CurrencyId H256)
    (s s' : Loans AccountId CurrencyId Tokens) : Prop :=
  Trail (fun (_ : Unit) s s' => ∃ a, (accrueInterest env a).run s = .ok () s') 0 s s'

namespace Accrual

variable {s s' : Loans AccountId CurrencyId Tokens}

section

omit [DecidableEq AccountId] [CurrencyConfig CurrencyId]

/-- Accruing interest of one market is an accrual. -/
theorem of_run {a : CurrencyId} (h : (accrueInterest env a).run s = .ok () s') : Accrual env s s' :=
  .single ⟨a, h⟩

/-- What accruing interest of a market keeps, an accrual keeps. -/
theorem preserves {P : Loans AccountId CurrencyId Tokens → Prop} (h : Accrual env s s')
    (hP : ∀ a s s', (accrueInterest env a).run s = .ok () s' → P s → P s') (hs : P s) : P s' := by
  refine Trail.preserves ?_ h hs
  rintro _ s s' ⟨a, ha⟩ hs
  exact hP a s s' ha hs

/-- Interest leaves alone what it is not about. -/
theorem eq_of {α : Type} {f : Loans AccountId CurrencyId Tokens → α} (h : Accrual env s s')
    (hclock : ∀ a s, f (startClock a env.now s) = f s)
    (hstore : ∀ a status s, f (storeStatus a env.now status s) = f s) : f s' = f s := by
  refine h.preserves (P := fun s' => f s' = f s) ?_ rfl
  intro a s₁ s₂ hrun hs
  obtain ⟨-, rfl⟩ | ⟨-, -, rfl⟩ | ⟨-, -, status, -, rfl⟩ := run_accrueInterest.mp hrun
  · rw [hclock, hs]
  · exact hs
  · rw [hstore, hs]

end

omit [CurrencyConfig CurrencyId] in
/-- Interest is accrued on the books as it is on the state. -/
theorem books (h : Accrual env s s') : Accrual env s.books s'.books := by
  refine Trail.map Loans.books ?_ h
  rintro _ s s' ⟨a, ha⟩
  exact ⟨a, accrueInterest_books ha⟩

end Accrual

/-- The interest of a market is accrued up to now. -/
def Fresh (env : LoansEnv AccountId CurrencyId H256) (a : CurrencyId)
    (s : Loans AccountId CurrencyId Tokens) : Prop := env.now ≤ s.lastAccruedInterestTime a

section Fresh

variable {a c : CurrencyId} {s s' : Loans AccountId CurrencyId Tokens} {u : Unit}

omit [DecidableEq AccountId] [CurrencyConfig CurrencyId]

/-- A market is fresh once its interest is accrued. -/
theorem fresh_accrueInterest (h : (accrueInterest env a).run s = .ok u s') : Fresh env a s' := by
  unfold Fresh
  obtain ⟨-, rfl⟩ | ⟨-, hle, rfl⟩ | ⟨-, -, status, -, rfl⟩ := run_accrueInterest.mp h
  · exact (Function.update_self a env.now s.lastAccruedInterestTime).ge
  · exact hle
  · exact (Function.update_self a env.now s.lastAccruedInterestTime).ge

/-- A market that is fresh has no more interest to accrue. -/
theorem Fresh.eq_of_run (hs : Fresh env a s) (h : (accrueInterest env a).run s = .ok u s') :
    s' = s := by
  unfold Fresh at hs
  obtain ⟨h₀, rfl⟩ | ⟨-, -, rfl⟩ | ⟨-, hlt, -⟩ := run_accrueInterest.mp h
  · have hnow : env.now = s.lastAccruedInterestTime a := by omega
    unfold startClock
    rw [hnow, Function.update_eq_self]
  · rfl
  · omega

/-- Interest on another market leaves what is read of a market alone. -/
theorem run_accrueInterest_of_ne {α : Type} {f : Loans AccountId CurrencyId Tokens → α}
    (hclock : f (startClock c env.now s) = f s)
    (hstore : ∀ status, f (storeStatus c env.now status s) = f s)
    (h : (accrueInterest env c).run s = .ok u s') : f s' = f s := by
  obtain ⟨-, rfl⟩ | ⟨-, -, rfl⟩ | ⟨-, -, status, -, rfl⟩ := run_accrueInterest.mp h
  · exact hclock
  · rfl
  · exact hstore status

/-- A market stays fresh when another accrues. -/
theorem Fresh.accrueInterest (hs : Fresh env a s) (h : (accrueInterest env c).run s = .ok u s') :
    Fresh env a s' := by
  rcases eq_or_ne a c with rfl | hne
  · exact fresh_accrueInterest h
  · unfold Fresh at hs ⊢
    rw [run_accrueInterest_of_ne (f := fun s => s.lastAccruedInterestTime a)
      (Function.update_of_ne hne _ _) (fun _ => Function.update_of_ne hne _ _) h]
    exact hs

/-- A market stays fresh in an accrual. -/
theorem Fresh.accrual (hs : Fresh env a s) (h : Accrual env s s') : Fresh env a s' :=
  h.preserves (fun _ _ _ hrun hs => hs.accrueInterest hrun) hs

end Fresh

/-- A call that accrues interest on some of the markets, and does nothing else. -/
abbrev Accrues {α : Type} (env : LoansEnv AccountId CurrencyId H256)
    (x : LoansCall AccountId CurrencyId Tokens α) : Prop :=
  Follows (fun (_ : Unit) s s' => ∃ a, (accrueInterest env a).run s = .ok () s') x fun _ => 0

section

omit [DecidableEq AccountId] [CurrencyConfig CurrencyId]

/-- Accruing interest does nothing but accrue. -/
theorem accrueInterest_accrues (a : CurrencyId) :
    Accrues env (accrueInterest env a : LoansCall AccountId CurrencyId Tokens _) :=
  .of_move fun _ _ _ h => ⟨a, h⟩

/-- Converting lend tokens does nothing but accrue. -/
theorem recomputeUnderlyingAmount_accrues (x : Amount CurrencyId) :
    Accrues env (recomputeUnderlyingAmount env x : LoansCall AccountId CurrencyId Tokens _) :=
  .bind_zero (.reads _) fun _ => .bind_zero (.reads _) fun _ =>
    .bind_zero (accrueInterest_accrues _) fun _ => .bind_zero (.reads _) fun _ =>
    .bind_zero (.ofExcept _) fun _ => .pure _

/-- Converting to lend tokens does nothing but accrue. -/
theorem recomputeCollateralAmount_accrues (x : Amount CurrencyId) :
    Accrues env (recomputeCollateralAmount env x : LoansCall AccountId CurrencyId Tokens _) :=
  .bind_zero (.reads _) fun _ => .bind_zero (accrueInterest_accrues _) fun _ =>
    .bind_zero (.reads _) fun _ => .bind_zero (.reads _) fun _ =>
    .bind_zero (.ofExcept _) fun _ => .pure _

private theorem sumOverMarkets_accrues
    {valueOf : CurrencyId → LoansCall AccountId CurrencyId Tokens (Amount CurrencyId)}
    (h : ∀ a, Accrues env (valueOf a)) : Accrues env (sumOverMarkets valueOf) :=
  .bind_zero .get fun _ => .foldlM (fun _ _ => .bind_zero (h _) fun _ => .ofExcept _) _ _

private theorem ensureEnoughCash_accrues (x : Amount CurrencyId) :
    Accrues env (ensureEnoughCash x : LoansCall AccountId CurrencyId Tokens _) :=
  .bind_zero (.reads _) fun _ => .bind_zero (.ofExcept _) fun _ => .ensure _ _

end

section

omit [DecidableEq AccountId]

/-- A conversion does nothing but accrue. -/
theorem convertTo_accrues (x : Amount CurrencyId) (c : CurrencyId) :
    Accrues env (convertTo env x c : LoansCall AccountId CurrencyId Tokens _) :=
  .ite (.bind_zero (.reads _) fun _ => .bind_zero (recomputeUnderlyingAmount_accrues _) fun _ =>
      .bind_zero (.ofExcept _) fun _ => recomputeCollateralAmount_accrues _)
    (.ite (.bind_zero (recomputeUnderlyingAmount_accrues _) fun _ => .ofExcept _)
      (.ite (.bind_zero (.reads _) fun _ => .bind_zero (.ofExcept _) fun _ =>
          recomputeCollateralAmount_accrues _)
        (.ofExcept _)))

/-- Converting to the lend token of a market does nothing but accrue. -/
theorem toLendToken_accrues (x : Amount CurrencyId) :
    Accrues env (toLendToken env x : LoansCall AccountId CurrencyId Tokens _) :=
  .bind_zero (.reads _) fun _ => convertTo_accrues _ _

/-- Converting from a lend token does nothing but accrue. -/
theorem toUnderlying_accrues (x : Amount CurrencyId) :
    Accrues env (toUnderlying env x : LoansCall AccountId CurrencyId Tokens _) :=
  .bind_zero (.reads _) fun _ => convertTo_accrues _ _

/-- Valuing an amount does nothing but accrue. -/
theorem getAssetValue_accrues (x : Amount CurrencyId) :
    Accrues env (getAssetValue env x : LoansCall AccountId CurrencyId Tokens _) :=
  convertTo_accrues _ _

/-- Valuing the debts of an account does nothing but accrue. -/
theorem totalBorrowedValue_accrues (who : AccountId) :
    Accrues env (totalBorrowedValue env who : LoansCall AccountId CurrencyId Tokens _) :=
  sumOverMarkets_accrues fun _ => .bind_zero (.reads _) fun _ =>
    .ite (.pure _) (getAssetValue_accrues _)

/-- Valuing collateral does nothing but accrue. -/
theorem collateralAmountValue_accrues (x : Amount CurrencyId) :
    Accrues env (collateralAmountValue env x : LoansCall AccountId CurrencyId Tokens _) :=
  .bind_zero (toUnderlying_accrues x) fun _ => .bind_zero (.reads _) fun _ =>
    getAssetValue_accrues _

/-- Valuing the collateral of an account does nothing but accrue. -/
theorem totalCollateralValue_accrues (who : AccountId) :
    Accrues env (totalCollateralValue env who : LoansCall AccountId CurrencyId Tokens _) :=
  sumOverMarkets_accrues fun _ => .bind_zero (.reads _) fun _ => .bind_zero .get fun _ =>
    .ite (.pure _) (collateralAmountValue_accrues _)

private theorem totalLiquidationThresholdValue_accrues (who : AccountId) :
    Accrues env (totalLiquidationThresholdValue env who :
      LoansCall AccountId CurrencyId Tokens _) :=
  sumOverMarkets_accrues fun _ => .bind_zero (.reads _) fun _ => .bind_zero .get fun _ =>
    .ite (.pure _) (.bind_zero (toUnderlying_accrues _) fun _ => .bind_zero (.reads _) fun _ =>
      getAssetValue_accrues _)

private theorem getAccountLiquidity_accrues (who : AccountId) :
    Accrues env (getAccountLiquidity env who : LoansCall AccountId CurrencyId Tokens _) :=
  .bind_zero (totalCollateralValue_accrues who) fun _ =>
    .bind_zero (totalBorrowedValue_accrues who) fun _ => .ofExcept _

private theorem getAccountLiquidationThresholdLiquidity_accrues (who : AccountId) :
    Accrues env (getAccountLiquidationThresholdLiquidity env who :
      LoansCall AccountId CurrencyId Tokens _) :=
  .bind_zero (totalLiquidationThresholdValue_accrues who) fun _ =>
    .bind_zero (totalBorrowedValue_accrues who) fun _ => .ofExcept _

private theorem ensureLiquidity_accrues (who : AccountId) (x : Amount CurrencyId) :
    Accrues env (ensureLiquidity env who x : LoansCall AccountId CurrencyId Tokens _) :=
  .bind_zero (getAccountLiquidity_accrues who) fun _ => .bind_zero (.ofExcept _) fun _ =>
    .ensure _ _

/-- The check of a redemption does nothing but accrue. -/
theorem redeemAllowed_accrues (who : AccountId) (x : Amount CurrencyId) :
    Accrues env (redeemAllowed env who x : LoansCall AccountId CurrencyId Tokens _) :=
  .bind_zero (.reads _) fun _ => .bind_zero (.ensure _ _) fun _ => .bind_zero (.reads _) fun _ =>
    .bind_zero (.ensure _ _) fun _ => .bind_zero (toUnderlying_accrues x) fun _ =>
    .bind_zero (ensureEnoughCash_accrues _) fun _ => .bind_zero (.reads _) fun _ =>
    .bind_zero (.ofExcept _) fun _ => .ensure _ _

/-- The check of a loan does nothing but accrue. -/
theorem borrowAllowed_accrues (who : AccountId) (x : Amount CurrencyId) :
    Accrues env (borrowAllowed env who x : LoansCall AccountId CurrencyId Tokens _) :=
  .bind_zero (.bind_zero (.reads _) fun _ => .bind_zero (.reads _) fun _ => .ensure _ _) fun _ =>
    .bind_zero (ensureEnoughCash_accrues x) fun _ => .bind_zero (getAssetValue_accrues x) fun _ =>
    ensureLiquidity_accrues who _

/-- The check of a liquidation does nothing but accrue. -/
theorem liquidateBorrowAllowed_accrues (who : AccountId) (x : Amount CurrencyId)
    (market : Market CurrencyId) :
    Accrues env (liquidateBorrowAllowed env who x market :
      LoansCall AccountId CurrencyId Tokens _) :=
  .bind_zero (getAccountLiquidationThresholdLiquidity_accrues who) fun _ =>
    .bind_zero (.ensure _ _) fun _ => .bind_zero (.reads _) fun _ =>
    .bind_zero (getAssetValue_accrues _) fun _ => .bind_zero (getAssetValue_accrues x) fun _ =>
    .bind_zero (.ofExcept _) fun _ => .ensure _ _

end

/-! ## Currencies -/

section

omit [DecidableEq AccountId] [CurrencyConfig CurrencyId]

/-- Lend tokens stand for the asset of their market. -/
theorem run_recomputeUnderlyingAmount {x y : Amount CurrencyId}
    {s s' : Loans AccountId CurrencyId Tokens}
    (h : (recomputeUnderlyingAmount env x).run s = .ok y s') :
    ∃ a rate, s.underlyingId x.currencyId = .ok a ∧ (accrueInterest env a).run s = .ok () s' ∧
      s'.exchangeRateStored a = .ok rate ∧ x.amount * rate.inner / FixedU128.DIV ≤ maxBalance ∧
      y = ⟨x.amount * rate.inner / FixedU128.DIV, a⟩ := by
  simp only [recomputeUnderlyingAmount, Call.run_bind_eq_ok, Call.run_reads_eq_ok,
    Call.run_ofExcept_eq_ok, Call.run_pure_eq_ok, Amount.checkedMul_eq_ok] at h
  obtain ⟨a, _, ⟨ha, rfl⟩, _, _, ⟨-, rfl⟩, _, s₁, haccrue, rate, _, ⟨hrate, rfl⟩, _, _,
    ⟨⟨hle, rfl⟩, rfl⟩, rfl, rfl⟩ := h
  exact ⟨a, rate, ha, haccrue, hrate, hle, rfl⟩

/-- Lend tokens are worth their exchange rate after interest is accrued. -/
theorem run_recomputeCollateralAmount {x y : Amount CurrencyId}
    {s s' : Loans AccountId CurrencyId Tokens}
    (h : (recomputeCollateralAmount env x).run s = .ok y s') :
    ∃ rate c, (accrueInterest env x.currencyId).run s = .ok () s' ∧
      s'.exchangeRateStored x.currencyId = .ok rate ∧ rate.inner ≠ 0 ∧
      s'.lendTokenId x.currencyId = .ok c ∧
      x.amount * FixedU128.DIV / rate.inner ≤ maxBalance ∧
      y = ⟨x.amount * FixedU128.DIV / rate.inner, c⟩ := by
  simp only [recomputeCollateralAmount, Call.run_bind_eq_ok, Call.run_reads_eq_ok,
    Call.run_ofExcept_eq_ok, Call.run_pure_eq_ok, Amount.checkedDiv_eq_ok] at h
  obtain ⟨_, _, ⟨-, rfl⟩, _, s₁, haccrue, rate, _, ⟨hrate, rfl⟩, c, _, ⟨hc, rfl⟩, _, _,
    ⟨⟨hpos, hle, rfl⟩, rfl⟩, rfl, rfl⟩ := h
  exact ⟨rate, c, haccrue, hrate, hpos, hc, hle, rfl⟩

/-- An accrual changes neither markets nor lend tokens. -/
theorem Accrual.setup {s s' : Loans AccountId CurrencyId Tokens} (h : Accrual env s s') :
    s'.markets = s.markets ∧ s'.underlyingAssetId = s.underlyingAssetId :=
  Prod.mk.inj (h.eq_of (f := fun s => (s.markets, s.underlyingAssetId)) (fun _ _ => rfl)
    fun _ _ _ => rfl)

end

section

omit [DecidableEq AccountId] [DecidableEq CurrencyId] [MultiCurrency Tokens AccountId CurrencyId]
  [CurrencyConfig CurrencyId] [LoansConfig AccountId CurrencyId]

private theorem lendTokenId_eq_ok {s : Loans AccountId CurrencyId Tokens} {a c : CurrencyId} :
    s.lendTokenId a = .ok c ↔ ∃ m, s.markets a = some m ∧ m.lendTokenId = c := by
  simp only [lendTokenId, market, except_bind_eq_ok, okOr_eq_ok, except_pure_eq_ok]

private theorem underlyingId_eq_ok {s : Loans AccountId CurrencyId Tokens} {a c : CurrencyId} :
    s.underlyingId c = .ok a ↔ s.underlyingAssetId c = some a := okOr_eq_ok

end

omit [DecidableEq AccountId] [DecidableEq CurrencyId] [MultiCurrency Tokens AccountId CurrencyId]
  [CurrencyConfig CurrencyId] in
/-- The markets that are iterated over are those that are active. -/
theorem mem_activeMarkets {s : Loans AccountId CurrencyId Tokens} {a : CurrencyId}
    {m : Market CurrencyId} :
    (a, m) ∈ s.activeMarkets ↔ s.markets a = some m ∧ m.state = .active := by
  simp only [activeMarkets, List.mem_filterMap]
  constructor
  · rintro ⟨k, -, hk⟩
    cases hm : s.markets k with
    | none =>
      rw [hm] at hk
      cases hk
    | some m' =>
      simp only [hm, Option.ite_none_right_eq_some, Option.some.injEq, Prod.mk.injEq] at hk
      obtain ⟨hactive, rfl, rfl⟩ := hk
      exact ⟨hm, hactive⟩
  · rintro ⟨hm, hactive⟩
    refine ⟨a, LoansConfig.mem_keyOrder a, ?_⟩
    simp only [hm, hactive, if_true]

omit [DecidableEq AccountId] [MultiCurrency Tokens AccountId CurrencyId] [CurrencyConfig CurrencyId]
  in
/-- A market passes if it is active. -/
theorem ensureActiveMarket_eq_ok {s : Loans AccountId CurrencyId Tokens} {a : CurrencyId}
    {m : Market CurrencyId} :
    s.ensureActiveMarket a = .ok m ↔ s.markets a = some m ∧ m.state = .active := by
  rw [ensureActiveMarket, okOr_eq_ok, Option.map_eq_some_iff, ← mem_activeMarkets]
  constructor
  · rintro ⟨⟨a', m'⟩, hfind, rfl⟩
    have ha := List.find?_some hfind
    obtain rfl := of_decide_eq_true ha
    exact List.mem_of_find?_eq_some hfind
  · intro hmem
    have hsome : (s.activeMarkets.find? fun m => decide (m.1 = a)).isSome :=
      List.find?_isSome.mpr ⟨(a, m), hmem, decide_eq_true rfl⟩
    obtain ⟨⟨a', m'⟩, hfind⟩ := Option.isSome_iff_exists.mp hsome
    have ha := List.find?_some hfind
    obtain rfl := of_decide_eq_true ha
    have hm := (mem_activeMarkets.mp (List.mem_of_find?_eq_some hfind)).1
    rw [(mem_activeMarkets.mp hmem).1] at hm
    exact ⟨(a', m'), hfind, (Option.some.inj hm).symm⟩

/-- The markets are linked: a lend token stands for the asset of its market. -/
def Linked (s : Loans AccountId CurrencyId Tokens) : Prop :=
  ∀ a m, s.markets a = some m → s.underlyingAssetId m.lendTokenId = some a

omit [DecidableEq AccountId] in
/-- What an asset is converted to is the lend token of its market. -/
theorem toLendToken_currency {x v : Amount CurrencyId} {s s' : Loans AccountId CurrencyId Tokens}
    (hlinked : Linked s) (h : (toLendToken env x).run s = .ok v s') :
    s.lendTokenId x.currencyId = .ok v.currencyId := by
  simp only [toLendToken, convertTo, Call.run_bind_eq_ok, Call.run_reads_eq_ok,
    Call.run_ite_eq_ok, Call.run_ofExcept_eq_ok] at h
  obtain ⟨c, _, ⟨hc, rfl⟩, h⟩ := h
  obtain ⟨m, hm, rfl⟩ := lendTokenId_eq_ok.mp hc
  have hunderlying := hlinked x.currencyId m hm
  -- what the lend token stands for is converted to it
  have hrecompute {y : Amount CurrencyId} {t t' : Loans AccountId CurrencyId Tokens}
      (haccrual : Accrual env s t) (hy : y.currencyId = x.currencyId)
      (h : (recomputeCollateralAmount env y).run t = .ok v t') : v.currencyId = m.lendTokenId := by
    obtain ⟨_, c, haccrue, -, -, hc, -, rfl⟩ := run_recomputeCollateralAmount h
    obtain ⟨m', hm', rfl⟩ := lendTokenId_eq_ok.mp hc
    have hlater : Accrual env s t' := haccrual.trans_zero (Accrual.of_run haccrue)
    rw [hlater.setup.1, hy, hm] at hm'
    exact congrArg Market.lendTokenId (Option.some.inj hm').symm
  obtain ⟨-, a, _, ⟨ha, rfl⟩, y, s₁, hy, z, _, ⟨hz, rfl⟩, hv⟩ | ⟨-, ⟨-, _, _, -, hv, -⟩ |
    ⟨-, ⟨-, a, _, ⟨ha, rfl⟩, z, _, ⟨hz, rfl⟩, hv⟩ | ⟨-, hv, -⟩⟩⟩ := h
  · have ha' : a = x.currencyId :=
      Option.some.inj ((underlyingId_eq_ok.mp ha).symm.trans hunderlying)
    rw [hrecompute (recomputeUnderlyingAmount_accrues _ _ _ _ hy)
      ((Env.oracleConvert_currencyId hz).trans ha') hv]
    exact hc
  · rw [Env.oracleConvert_currencyId hv]
    exact hc
  · have ha' : a = x.currencyId :=
      Option.some.inj ((underlyingId_eq_ok.mp ha).symm.trans hunderlying)
    rw [hrecompute (.refl _) ((Env.oracleConvert_currencyId hz).trans ha') hv]
    exact hc
  · rw [Env.oracleConvert_currencyId hv]
    exact hc

end Interbtc.Loans
