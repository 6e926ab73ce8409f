import Interbtc.Loans.Farming

/-!
# Interest, conversion and values

Interest is accrued per market, when the market is touched. The conversion between an asset
and its lend token accrues it first, so every value that is computed from lend tokens does.
-/

namespace Interbtc.Loans

open Core MultiCurrency

variable {AccountId CurrencyId H256 Tokens : Type} [DecidableEq AccountId]
  [DecidableEq CurrencyId] [MultiCurrency Tokens AccountId CurrencyId]
  [CurrencyConfig CurrencyId] [LoansConfig AccountId CurrencyId]

/-- Store the interest of a market. -/
def storeStatus (assetId : CurrencyId) (now : ℕ) (status : MarketStatus)
    (s : Loans AccountId CurrencyId Tokens) : Loans AccountId CurrencyId Tokens :=
  { s with
    lastAccruedInterestTime := Function.update s.lastAccruedInterestTime assetId now
    totalBorrows := Function.update s.totalBorrows assetId status.totalBorrows
    totalReserves := Function.update s.totalReserves assetId status.totalReserves
    borrowIndex := Function.update s.borrowIndex assetId status.borrowIndex
    utilizationRatio := Function.update s.utilizationRatio assetId status.utilization
    borrowRate := Function.update s.borrowRate assetId status.borrowRate
    supplyRate := Function.update s.supplyRate assetId status.supplyRate
    exchangeRate := Function.update s.exchangeRate assetId status.exchangeRate }

/-- The first accrual only starts the clock. -/
def accrueInterest (env : LoansEnv AccountId CurrencyId H256) (assetId : CurrencyId) :
    LoansCall AccountId CurrencyId Tokens Unit := do
  let s ← get
  let lastAccruedInterestTime := s.lastAccruedInterestTime assetId
  if lastAccruedInterestTime = 0 then
    modify fun s => { s with
      lastAccruedInterestTime := Function.update s.lastAccruedInterestTime assetId env.now }
  else if env.now ≤ lastAccruedInterestTime then
    return
  else
    let status ← Call.ofExcept (s.getMarketStatus env.now assetId)
    modify (storeStatus assetId env.now status)

/-! ## Conversion -/

/-- What lend tokens are worth, after interest is accrued. -/
def recomputeUnderlyingAmount (env : LoansEnv AccountId CurrencyId H256)
    (lendTokens : Amount CurrencyId) :
    LoansCall AccountId CurrencyId Tokens (Amount CurrencyId) := do
  let underlyingId ← Call.reads fun s => s.underlyingId lendTokens.currencyId
  let _ ← Call.reads fun s => s.ensureActiveMarket underlyingId
  accrueInterest env underlyingId
  let exchangeRate ← Call.reads fun s => s.exchangeRateStored underlyingId
  let product ← Call.ofExcept (lendTokens.checkedMul exchangeRate)
  return ⟨product.amount, underlyingId⟩

/-- The lend tokens an amount is worth, after interest is accrued. -/
def recomputeCollateralAmount (env : LoansEnv AccountId CurrencyId H256)
    (underlying : Amount CurrencyId) :
    LoansCall AccountId CurrencyId Tokens (Amount CurrencyId) := do
  let _ ← Call.reads fun s => s.ensureActiveMarket underlying.currencyId
  accrueInterest env underlying.currencyId
  let exchangeRate ← Call.reads fun s => s.exchangeRateStored underlying.currencyId
  let lendTokenId ← Call.reads fun s => s.lendTokenId underlying.currencyId
  let quotient ← Call.ofExcept (underlying.checkedDiv exchangeRate)
  return ⟨quotient.amount, lendTokenId⟩

/-- Convert an amount; a lend token is first exchanged for what it stands for. -/
def convertTo (env : LoansEnv AccountId CurrencyId H256) (amount : Amount CurrencyId)
    (toId : CurrencyId) : LoansCall AccountId CurrencyId Tokens (Amount CurrencyId) := do
  if CurrencyConfig.isLendToken amount.currencyId ∧ CurrencyConfig.isLendToken toId then
    let toUnderlyingId ← Call.reads fun s => s.underlyingId toId
    let fromUnderlyingAmount ← recomputeUnderlyingAmount env amount
    let toUnderlyingAmount ← Call.ofExcept (env.oracleConvert fromUnderlyingAmount toUnderlyingId)
    recomputeCollateralAmount env toUnderlyingAmount
  else if CurrencyConfig.isLendToken amount.currencyId then
    let underlyingAmount ← recomputeUnderlyingAmount env amount
    Call.ofExcept (env.oracleConvert underlyingAmount toId)
  else if CurrencyConfig.isLendToken toId then
    let underlyingId ← Call.reads fun s => s.underlyingId toId
    let underlyingAmount ← Call.ofExcept (env.oracleConvert amount underlyingId)
    recomputeCollateralAmount env underlyingAmount
  else
    Call.ofExcept (env.oracleConvert amount toId)

/-- An amount as lend tokens of its market. -/
def toLendToken (env : LoansEnv AccountId CurrencyId H256) (underlying : Amount CurrencyId) :
    LoansCall AccountId CurrencyId Tokens (Amount CurrencyId) := do
  let lendTokenId ← Call.reads fun s => s.lendTokenId underlying.currencyId
  convertTo env underlying lendTokenId

/-- Lend tokens as an amount of their market. -/
def toUnderlying (env : LoansEnv AccountId CurrencyId H256) (voucher : Amount CurrencyId) :
    LoansCall AccountId CurrencyId Tokens (Amount CurrencyId) := do
  let underlyingId ← Call.reads fun s => s.underlyingId voucher.currencyId
  convertTo env voucher underlyingId

/-! ## Values -/

/-- The value of an amount in the reference currency. -/
def getAssetValue (env : LoansEnv AccountId CurrencyId H256) (asset : Amount CurrencyId) :
    LoansCall AccountId CurrencyId Tokens (Amount CurrencyId) :=
  convertTo env asset (LoansConfig.referenceAsset AccountId)

/-- Add up what a call returns for each active market. -/
def sumOverMarkets (valueOf : CurrencyId → LoansCall AccountId CurrencyId Tokens (Amount CurrencyId)) :
    LoansCall AccountId CurrencyId Tokens (Amount CurrencyId) := do
  let s ← get
  s.activeMarkets.foldlM (fun total market => do
    let value ← valueOf market.1
    Call.ofExcept (total.checkedAdd value)) (.zero (LoansConfig.referenceAsset AccountId))

/-- The value of a debt, where there is one. -/
def borrowedValue (env : LoansEnv AccountId CurrencyId H256) (borrower : AccountId)
    (assetId : CurrencyId) : LoansCall AccountId CurrencyId Tokens (Amount CurrencyId) := do
  let borrow ← Call.reads fun s => s.currentBorrowBalance borrower assetId
  if borrow.isZero then
    return .zero (LoansConfig.referenceAsset AccountId)
  else
    getAssetValue env borrow

/-- The debts of an account, in the reference currency. -/
def totalBorrowedValue (env : LoansEnv AccountId CurrencyId H256) (borrower : AccountId) :
    LoansCall AccountId CurrencyId Tokens (Amount CurrencyId) :=
  sumOverMarkets (borrowedValue env borrower)

/-- The part of lend tokens that counts as collateral. -/
def collateralAmountValue (env : LoansEnv AccountId CurrencyId H256)
    (voucher : Amount CurrencyId) :
    LoansCall AccountId CurrencyId Tokens (Amount CurrencyId) := do
  let underlying ← toUnderlying env voucher
  let market ← Call.reads fun s => s.market underlying.currencyId
  getAssetValue env ⟨market.collateralFactor.mulCeil underlying.amount, underlying.currencyId⟩

/-- The collateral of an account in one market. -/
def collateralAssetValue (env : LoansEnv AccountId CurrencyId H256) (supplier : AccountId)
    (assetId : CurrencyId) : LoansCall AccountId CurrencyId Tokens (Amount CurrencyId) := do
  let lendTokenId ← Call.reads fun s => s.lendTokenId assetId
  let s ← get
  if (s.deposits lendTokenId supplier).isZero then
    return .zero (LoansConfig.referenceAsset AccountId)
  else
    collateralAmountValue env (s.deposits lendTokenId supplier)

/-- The collateral of an account in one market, up to liquidation. -/
def liquidationThresholdAssetValue (env : LoansEnv AccountId CurrencyId H256)
    (borrower : AccountId) (assetId : CurrencyId) :
    LoansCall AccountId CurrencyId Tokens (Amount CurrencyId) := do
  let lendTokenId ← Call.reads fun s => s.lendTokenId assetId
  let s ← get
  if (s.deposits lendTokenId borrower).isZero then
    return .zero (LoansConfig.referenceAsset AccountId)
  else
    let underlyingAmount ← toUnderlying env (s.deposits lendTokenId borrower)
    let market ← Call.reads fun s => s.market assetId
    getAssetValue env
      ⟨market.liquidationThreshold.mulCeil underlyingAmount.amount, underlyingAmount.currencyId⟩

/-- The collateral of an account. -/
def totalCollateralValue (env : LoansEnv AccountId CurrencyId H256) (supplier : AccountId) :
    LoansCall AccountId CurrencyId Tokens (Amount CurrencyId) :=
  sumOverMarkets (collateralAssetValue env supplier)

/-- The collateral of an account, up to liquidation. -/
def totalLiquidationThresholdValue (env : LoansEnv AccountId CurrencyId H256)
    (borrower : AccountId) : LoansCall AccountId CurrencyId Tokens (Amount CurrencyId) :=
  sumOverMarkets (liquidationThresholdAssetValue env borrower)

/-- How much the collateral exceeds the debts, or lacks. -/
def getAccountLiquidity (env : LoansEnv AccountId CurrencyId H256) (account : AccountId) :
    LoansCall AccountId CurrencyId Tokens (AccountLiquidity CurrencyId) := do
  let totalCollateralValue ← totalCollateralValue env account
  let totalBorrowValue ← totalBorrowedValue env account
  Call.ofExcept (AccountLiquidity.fromCollateralAndDebt totalCollateralValue totalBorrowValue)

/-- How far an account is from liquidation. -/
def getAccountLiquidationThresholdLiquidity (env : LoansEnv AccountId CurrencyId H256)
    (account : AccountId) : LoansCall AccountId CurrencyId Tokens (AccountLiquidity CurrencyId) := do
  let totalCollateralValue ← totalLiquidationThresholdValue env account
  let totalBorrowValue ← totalBorrowedValue env account
  Call.ofExcept (AccountLiquidity.fromCollateralAndDebt totalCollateralValue totalBorrowValue)

/-- The account has liquidity left of at least the given value. -/
def ensureLiquidity (env : LoansEnv AccountId CurrencyId H256) (account : AccountId)
    (reduceAmount : Amount CurrencyId) : LoansCall AccountId CurrencyId Tokens Unit := do
  let accountLiquidity ← getAccountLiquidity env account
  let enough ← Call.ofExcept (accountLiquidity.liquidityOf.ge reduceAmount)
  Call.ensure (enough = true) (.loans .insufficientLiquidity)

end Interbtc.Loans
