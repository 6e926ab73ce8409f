import Interbtc.Loans.Books

/-!
# The terms of a market

What the exchange rate, a debt and the interest of a market are computed from, in plain
numbers.
-/

namespace Interbtc.Loans

open Core MultiCurrency

variable {AccountId CurrencyId H256 Tokens : Type} [DecidableEq AccountId]
  [DecidableEq CurrencyId] [MultiCurrency Tokens AccountId CurrencyId]
  [CurrencyConfig CurrencyId] [LoansConfig AccountId CurrencyId]
  {env : LoansEnv AccountId CurrencyId H256} {s s' : Loans AccountId CurrencyId Tokens}
  {a : CurrencyId} {who : AccountId}

/-! ## Debts -/

section

omit [DecidableEq AccountId] [DecidableEq CurrencyId] [MultiCurrency Tokens AccountId CurrencyId]
  [CurrencyConfig CurrencyId] [LoansConfig AccountId CurrencyId]

/-- A debt that is not zero, with its growth rounded down and the product rounded up. -/
theorem currentBorrowBalance_amount {n : ℕ} (h : s.currentBorrowBalance who a = .ok ⟨n, a⟩) :
    let d := s.accountBorrows a who
    ((d.principal = 0 ∨ d.borrowIndex.inner = 0) ∧ n = 0) ∨
      (d.principal ≠ 0 ∧ d.borrowIndex.inner ≠ 0 ∧
        let owed := d.principal * ((s.borrowIndex a).inner * FixedU128.DIV / d.borrowIndex.inner)
        n * FixedU128.DIV = owed + (FixedU128.DIV - owed % FixedU128.DIV) % FixedU128.DIV) := by
  unfold currentBorrowBalance at h
  dsimp only at h
  split at h
  · rename_i hzero
    exact .inl ⟨hzero, congrArg Amount.amount (Except.ok.inj h).symm⟩
  · rename_i hpos
    rw [not_or] at hpos
    simp only [borrowBalanceFromOldAndNewIndex, Amount.checkedRoundedMul, except_bind_eq_ok,
      okOr_eq_ok, except_pure_eq_ok, FixedU128.checkedDiv_eq_some] at h
    obtain ⟨growth, ⟨-, hgrowth⟩, n', hn', hx⟩ := h
    obtain rfl : n' = n := congrArg Amount.amount hx
    have hround := multiplyByRationalWithRounding_up_eq_some hn'
    rw [hgrowth] at hround
    exact .inr ⟨hpos.1, hpos.2, hround⟩

end

/-! ## Interest -/

/-- What interest does to a market: the index grows by a factor of at least one, and the
borrows by what is left of the factor after rounding. -/
structure Grows (s : Loans AccountId CurrencyId Tokens) (a : CurrencyId) (m : Market CurrencyId)
    (status : MarketStatus) : Prop where
  market : s.markets a = some m
  index_ne_zero : (s.borrowIndex a).inner ≠ 0
  index_le : (s.borrowIndex a).inner ≤ status.borrowIndex.inner
  totalBorrows : status.totalBorrows = s.totalBorrows a *
    (status.borrowIndex.inner * FixedU128.DIV / (s.borrowIndex a).inner) / FixedU128.DIV
  borrows_le : s.totalBorrows a ≤ status.totalBorrows
  totalReserves : status.totalReserves =
    m.reserveFactor.mulFloor (status.totalBorrows - s.totalBorrows a) + s.totalReserves a
  exchangeRate : s.calculateExchangeRate ⟨totalIssuance s.tokens m.lendTokenId, m.lendTokenId⟩
    (s.getTotalCash a) ⟨status.totalBorrows, a⟩ ⟨status.totalReserves, a⟩ = .ok status.exchangeRate

/-- The interest of every second is at least nothing. -/
theorem accrueIndex_le {borrowRate index index' : Rate} {deltaTime : ℕ}
    (h : accrueIndex borrowRate index deltaTime = .ok index') : index.inner ≤ index'.inner := by
  simp only [accrueIndex, except_bind_eq_ok, okOr_eq_ok, FixedU128.checkedAdd_eq_some,
    FixedU128.checkedMul_eq_some] at h
  obtain ⟨fraction, -, base, hbase, hindex⟩ := h
  have hone : FixedU128.DIV ≤ (base.saturatingPow (min deltaTime (2 ^ 32 - 1))).inner :=
    FixedU128.one_le_saturatingPow (hbase ▸ Nat.le_add_right _ _) _
  rw [hindex, Nat.le_div_iff_mul_le FixedU128.DIV_pos]
  exact Nat.mul_le_mul_left _ hone

section

omit [DecidableEq AccountId] [CurrencyConfig CurrencyId]

/-- A market grows by the interest since it last accrued. -/
theorem getMarketStatus_eq_ok {now : ℕ} {status : MarketStatus}
    (hlt : s.lastAccruedInterestTime a < now) (h : s.getMarketStatus now a = .ok status) :
    ∃ m, Grows s a m status := by
  simp only [getMarketStatus, accruedTotals, if_pos hlt, totalSupply, lendTokenId, market,
    borrowBalanceFromOldAndNewIndex, except_bind_eq_ok, okOr_eq_ok, except_pure_eq_ok,
    FixedU128.checkedDiv_eq_some, Amount.checkedSub_eq_ok, Amount.checkedAdd_eq_ok] at h
  obtain ⟨m, hm, _, ⟨c, ⟨m', hm', rfl⟩, rfl⟩, util, -, borrowRate, -, totals,
    ⟨index, hindex, borrows, ⟨growth, ⟨hpos, hgrowth⟩, hborrows⟩, _, ⟨-, hle, rfl⟩, _,
      ⟨-, -, rfl⟩, rfl⟩, rate, hrate, rfl⟩ := h
  obtain ⟨-, rfl⟩ := Amount.checkedMul_eq_ok.mp hborrows
  obtain rfl : m = m' := Option.some.inj (hm.symm.trans hm')
  exact ⟨m, {
    market := hm
    index_ne_zero := hpos
    index_le := accrueIndex_le hindex
    totalBorrows := by rw [← hgrowth]; rfl
    borrows_le := hle
    totalReserves := rfl
    exchangeRate := hrate }⟩

end

end Interbtc.Loans
