import Interbtc.Loans.Hooks

/-!
# Lending, borrowing and liquidation

The operations of the pallet on an account's behalf.
-/

namespace Interbtc.Loans

open Core MultiCurrency

variable {AccountId CurrencyId H256 Tokens : Type} [DecidableEq AccountId]
  [DecidableEq CurrencyId] [MultiCurrency Tokens AccountId CurrencyId]
  [CurrencyConfig CurrencyId] [LoansConfig AccountId CurrencyId]

/-! ## Checks -/

/-- A market takes only so much. -/
def ensureUnderSupplyCap (asset : Amount CurrencyId) :
    LoansCall AccountId CurrencyId Tokens Unit := do
  let market ← Call.reads fun s => s.market asset.currencyId
  let totalCash ← Call.reads fun s =>
    (s.balance asset.currencyId (LoansConfig.palletAccount CurrencyId)).checkedAdd asset
  Call.ensure (totalCash.amount ≤ market.supplyCap) (.loans .supplyCapacityExceeded)

/-- A market lends only so much. -/
def ensureUnderBorrowCap (asset : Amount CurrencyId) :
    LoansCall AccountId CurrencyId Tokens Unit := do
  let market ← Call.reads fun s => s.market asset.currencyId
  let newTotalBorrows ← Call.reads fun s => (s.borrows asset.currencyId).checkedAdd asset
  Call.ensure (newTotalBorrows.amount ≤ market.borrowCap) (.loans .borrowCapacityExceeded)

/-- The cash that is not set aside covers the amount. -/
def ensureEnoughCash (amount : Amount CurrencyId) :
    LoansCall AccountId CurrencyId Tokens Unit := do
  let reducibleCash ← Call.reads fun s =>
    (s.getTotalCash amount.currencyId).checkedSub (s.reserves amount.currencyId)
  let short ← Call.ofExcept (reducibleCash.lt amount)
  Call.ensure (short = false) (.loans .insufficientCash)

/-- Only lend tokens that are not locked are redeemed, and only for cash that is there. -/
def redeemAllowed (env : LoansEnv AccountId CurrencyId H256) (redeemer : AccountId)
    (voucher : Amount CurrencyId) : LoansCall AccountId CurrencyId Tokens Unit := do
  let assetId ← Call.reads fun s => s.underlyingId voucher.currencyId
  Call.ensure (¬ voucher.isZero) (.loans .invalidAmount)
  let missing ← Call.reads fun s => (s.balance voucher.currencyId redeemer).lt voucher
  Call.ensure (missing = false) (.loans .insufficientDeposit)
  let redeemAmount ← toUnderlying env voucher
  ensureEnoughCash redeemAmount
  let freeTokens ← Call.reads fun s => s.freeLendTokens assetId redeemer
  let locked ← Call.ofExcept (voucher.gt freeTokens)
  Call.ensure (locked = false) (.loans .lockedTokensCannotBeRedeemed)

/-- A loan is within the cap, the cash and the collateral. -/
def borrowAllowed (env : LoansEnv AccountId CurrencyId H256) (borrower : AccountId)
    (borrow : Amount CurrencyId) : LoansCall AccountId CurrencyId Tokens Unit := do
  ensureUnderBorrowCap borrow
  ensureEnoughCash borrow
  let borrowValue ← getAssetValue env borrow
  ensureLiquidity env borrower borrowValue

/-! ## Lending -/

/-- Supply an amount, for lend tokens at the exchange rate. -/
def doMint (env : LoansEnv AccountId CurrencyId H256) (supplier : AccountId)
    (amount : Amount CurrencyId) : LoansCall AccountId CurrencyId Tokens Unit := do
  let _ ← Call.reads fun s => s.ensureActiveMarket amount.currencyId
  ensureUnderSupplyCap amount
  accrueInterest env amount.currencyId
  updateRewardSupplyIndex env amount.currencyId
  distributeSupplierReward amount.currencyId supplier
  let voucher ← toLendToken env amount
  Call.ensure (¬ voucher.isZero) (.loans .invalidExchangeRate)
  transfer env amount supplier (LoansConfig.palletAccount CurrencyId)
  mintTo env voucher supplier

/-- Pay an amount for lend tokens that are burned. -/
def doRedeem (env : LoansEnv AccountId CurrencyId H256) (supplier : AccountId)
    (underlying voucher : Amount CurrencyId) : LoansCall AccountId CurrencyId Tokens Unit := do
  let assetId := underlying.currencyId
  let s ← get
  (if (s.deposits voucher.currencyId supplier).isZero then
    return
  else
    doWithdrawCollateral env supplier voucher)
  let _ ← Call.reads fun s => s.ensureActiveMarket assetId
  accrueInterest env assetId
  redeemAllowed env supplier voucher
  updateRewardSupplyIndex env assetId
  distributeSupplierReward assetId supplier
  -- only free lend tokens are redeemed, and only reserved tokens can be burned
  onTokens (voucher.lockOn supplier)
  burnFrom env voucher supplier
  Call.mapError (fun _ => .loans .insufficientCash)
    (transfer env underlying (LoansConfig.palletAccount CurrencyId) supplier)

/-! ## Borrowing -/

/-- Write a debt with interest up to now, and the total of the market. -/
def storeDebt (assetId : CurrencyId) (borrower : AccountId) (accountBorrows totalBorrows : ℕ) :
    LoansCall AccountId CurrencyId Tokens Unit :=
  modify fun s => { s with
    accountBorrows := update₂ s.accountBorrows assetId borrower
      ⟨accountBorrows, s.borrowIndex assetId⟩
    totalBorrows := Function.update s.totalBorrows assetId totalBorrows }

/-- Lend an amount. -/
def doBorrow (env : LoansEnv AccountId CurrencyId H256) (borrower : AccountId)
    (borrow : Amount CurrencyId) : LoansCall AccountId CurrencyId Tokens Unit := do
  let assetId := borrow.currencyId
  let _ ← Call.reads fun s => s.ensureActiveMarket assetId
  accrueInterest env assetId
  borrowAllowed env borrower borrow
  updateRewardBorrowIndex env assetId
  distributeBorrowerReward assetId borrower
  let accountBorrows ← Call.reads fun s => s.currentBorrowBalance borrower assetId
  let accountBorrowsNew ← Call.ofExcept (accountBorrows.checkedAdd borrow)
  let totalBorrowsNew ← Call.reads fun s => (s.borrows assetId).checkedAdd borrow
  storeDebt assetId borrower accountBorrowsNew.amount totalBorrowsNew.amount
  transfer env borrow (LoansConfig.palletAccount CurrencyId) borrower

/-- Take a repayment of at most the debt. -/
def doRepayBorrowWithAmount (env : LoansEnv AccountId CurrencyId H256) (borrower : AccountId)
    (assetId : CurrencyId) (accountBorrows repayAmount : Amount CurrencyId) :
    LoansCall AccountId CurrencyId Tokens Unit := do
  let tooMuch ← Call.ofExcept (accountBorrows.lt repayAmount)
  Call.ensure (tooMuch = false) (.loans .tooMuchRepay)
  updateRewardBorrowIndex env assetId
  distributeBorrowerReward assetId borrower
  transfer env repayAmount borrower (LoansConfig.palletAccount CurrencyId)
  let accountBorrowsNew ← Call.ofExcept (accountBorrows.checkedSub repayAmount)
  -- the total is rounded down, so it may be less than what is repaid
  let totalBorrowsNew ← Call.reads fun s => (s.borrows assetId).saturatingSub repayAmount
  storeDebt assetId borrower accountBorrowsNew.amount totalBorrowsNew.amount

/-- Take a repayment. -/
def doRepayBorrow (env : LoansEnv AccountId CurrencyId H256) (borrower : AccountId)
    (borrow : Amount CurrencyId) : LoansCall AccountId CurrencyId Tokens Unit := do
  let assetId := borrow.currencyId
  let _ ← Call.reads fun s => s.ensureActiveMarket assetId
  accrueInterest env assetId
  let accountBorrows ← Call.reads fun s => s.currentBorrowBalance borrower assetId
  doRepayBorrowWithAmount env borrower assetId accountBorrows borrow

/-! ## Liquidation -/

/-- The borrower is short of collateral, and the repayment is within the close factor. -/
def liquidateBorrowAllowed (env : LoansEnv AccountId CurrencyId H256) (borrower : AccountId)
    (underlying : Amount CurrencyId) (market : Market CurrencyId) :
    LoansCall AccountId CurrencyId Tokens Unit := do
  let accountLiquidity ← getAccountLiquidationThresholdLiquidity env borrower
  Call.ensure (¬ accountLiquidity.shortfallOf.isZero) (.loans .insufficientShortfall)
  let accountBorrows ← Call.reads fun s => s.currentBorrowBalance borrower underlying.currencyId
  let accountBorrowsValue ← getAssetValue env accountBorrows
  let repayValue ← getAssetValue env underlying
  let closable : Amount CurrencyId :=
    ⟨market.closeFactor.mulCeil accountBorrowsValue.amount, accountBorrowsValue.currencyId⟩
  let tooMuch ← Call.ofExcept (closable.lt repayValue)
  Call.ensure (tooMuch = false) (.loans .tooMuchRepay)

/-- The share of the seized lend tokens that is set aside. -/
def incentiveReserved (market : Market CurrencyId) (amountToLiquidate : Amount CurrencyId) :
    Except DispatchError (Amount CurrencyId) := do
  let base ← amountToLiquidate.checkedDiv market.liquidateIncentive
  return ⟨market.liquidateIncentiveReservedFactor.mulFloor base.amount, base.currencyId⟩

/-- The liquidator pays a part of the debt. -/
def repayForBorrower (env : LoansEnv AccountId CurrencyId H256) (liquidator borrower : AccountId)
    (repayment : Amount CurrencyId) : LoansCall AccountId CurrencyId Tokens Unit := do
  let liquidationAssetId := repayment.currencyId
  updateRewardBorrowIndex env liquidationAssetId
  distributeBorrowerReward liquidationAssetId liquidator
  transfer env repayment liquidator (LoansConfig.palletAccount CurrencyId)
  let accountBorrows ← Call.reads fun s => s.currentBorrowBalance borrower liquidationAssetId
  let accountBorrowsNew ← Call.ofExcept (accountBorrows.checkedSub repayment)
  let totalBorrowsNew ← Call.reads fun s => (s.borrows liquidationAssetId).checkedSub repayment
  storeDebt liquidationAssetId borrower accountBorrowsNew.amount totalBorrowsNew.amount

/-- The liquidator and the reserve get lend tokens that the borrower had locked. -/
def seizeCollateral (env : LoansEnv AccountId CurrencyId H256) (liquidator borrower : AccountId)
    (collateralUnderlying : Amount CurrencyId) (market : Market CurrencyId) :
    LoansCall AccountId CurrencyId Tokens Unit := do
  let collateralAssetId := collateralUnderlying.currencyId
  updateRewardSupplyIndex env collateralAssetId
  distributeSupplierReward collateralAssetId liquidator
  distributeSupplierReward collateralAssetId borrower
  distributeSupplierReward collateralAssetId (LoansConfig.incentiveAccount CurrencyId)
  let lendTokenId ← Call.reads fun s => s.lendTokenId collateralAssetId
  let amountToLiquidate ← toLendToken env collateralUnderlying
  decreaseDeposits ⟨amountToLiquidate.amount, lendTokenId⟩ borrower
  onTokens (amountToLiquidate.unlockOn borrower)
  let reserved ← Call.ofExcept (incentiveReserved market amountToLiquidate)
  let liquidatorAmount ← Call.ofExcept (amountToLiquidate.checkedSub reserved)
  transfer env liquidatorAmount borrower liquidator
  transfer env reserved borrower (LoansConfig.incentiveAccount CurrencyId)

/-- The liquidator repays and gets collateral, less what the pallet keeps. -/
def liquidatedTransfer (env : LoansEnv AccountId CurrencyId H256)
    (liquidator borrower : AccountId) (repayment collateralUnderlying : Amount CurrencyId)
    (market : Market CurrencyId) : LoansCall AccountId CurrencyId Tokens Unit := do
  repayForBorrower env liquidator borrower repayment
  seizeCollateral env liquidator borrower collateralUnderlying market

/-- Liquidate a part of a debt. -/
def doLiquidateBorrow (env : LoansEnv AccountId CurrencyId H256) (liquidator borrower : AccountId)
    (repaymentUnderlying : Amount CurrencyId) (collateralAssetId : CurrencyId) :
    LoansCall AccountId CurrencyId Tokens Unit := do
  let _ ← Call.reads fun s => s.ensureActiveMarket repaymentUnderlying.currencyId
  let _ ← Call.reads fun s => s.ensureActiveMarket collateralAssetId
  let market ← Call.reads fun s => s.market repaymentUnderlying.currencyId
  Call.ensure (borrower ≠ liquidator) (.loans .liquidatorIsBorrower)
  liquidateBorrowAllowed env borrower repaymentUnderlying market
  let lendTokenId ← Call.reads fun s => s.lendTokenId collateralAssetId
  let s ← get
  let deposits := s.deposits lendTokenId borrower
  Call.ensure (¬ deposits.isZero) (.loans .depositsAreNotCollateral)
  let borrowerDeposits ← toUnderlying env deposits
  let collateralValue ← getAssetValue env borrowerDeposits
  let repaymentValue ← getAssetValue env repaymentUnderlying
  -- the premium of the liquidator is part of it
  let liquidateValue ← Call.ofExcept (repaymentValue.checkedMul market.liquidateIncentive)
  let short ← Call.ofExcept (collateralValue.lt liquidateValue)
  Call.ensure (short = false) (.loans .insufficientCollateral)
  let realCollateralUnderlyingAmount ← convertTo env liquidateValue collateralAssetId
  liquidatedTransfer env liquidator borrower repaymentUnderlying realCollateralUnderlyingAmount
    market

end Interbtc.Loans
