import Interbtc.Loans.Interest

/-!
# Lend tokens as collateral

An account either locks all its lend tokens of a market as collateral or none of them. Hooks
on the token balances settle the rewards before lend tokens move, and lock what an account
with locked lend tokens receives.
-/

namespace Interbtc.Loans

open Core MultiCurrency

variable {AccountId CurrencyId H256 Tokens : Type} [DecidableEq AccountId]
  [DecidableEq CurrencyId] [MultiCurrency Tokens AccountId CurrencyId]
  [CurrencyConfig CurrencyId] [LoansConfig AccountId CurrencyId]

/-- Run a call on the token balances. -/
def onTokens {α : Type} (x : Call DispatchError Tokens α) :
    LoansCall AccountId CurrencyId Tokens α := TokensPart.zoom x

/-- Lock lend tokens as collateral. -/
def doDepositCollateral (supplier : AccountId) (lendTokenAmount : Amount CurrencyId) :
    LoansCall AccountId CurrencyId Tokens Unit := do
  let underlyingId ← Call.reads fun s => s.underlyingId lendTokenAmount.currencyId
  let _ ← Call.reads fun s => s.ensureActiveMarket underlyingId
  onTokens (lendTokenAmount.lockOn supplier)
  let newDeposit ← Call.reads fun s =>
    (s.deposits lendTokenAmount.currencyId supplier).checkedAdd lendTokenAmount
  modify fun s => { s with
    accountDeposits :=
      update₂ s.accountDeposits lendTokenAmount.currencyId supplier newDeposit.amount }

/-- An account that locks its lend tokens locks what it receives. -/
def lockIfAccountDeposited (accountId : AccountId) (lendTokens : Amount CurrencyId) :
    LoansCall AccountId CurrencyId Tokens Unit := do
  let s ← get
  if (s.deposits lendTokens.currencyId accountId).isZero then
    return
  else
    doDepositCollateral accountId lendTokens

/-! ## Hooks -/

/-- Settle the rewards of the suppliers whose lend tokens are about to move. -/
def settleSuppliers (env : LoansEnv AccountId CurrencyId H256) (currencyId : CurrencyId)
    (accounts : List AccountId) : LoansCall AccountId CurrencyId Tokens Unit := do
  if CurrencyConfig.isLendToken currencyId then
    let underlyingId ← Call.reads fun s => s.underlyingId currencyId
    updateRewardSupplyIndex env underlyingId
    accounts.forM (distributeSupplierReward underlyingId)
  else
    return

/-- A slash cannot fail, so an error of the settlement is dropped. -/
def onSlash (env : LoansEnv AccountId CurrencyId H256) (currencyId : CurrencyId)
    (accountId : AccountId) : LoansCall AccountId CurrencyId Tokens Unit := do
  let _ ← Call.attempt (settleSuppliers env currencyId [accountId])

/-- The hook before lend tokens are received. -/
def preDeposit (env : LoansEnv AccountId CurrencyId H256) (currencyId : CurrencyId)
    (accountId : AccountId) : LoansCall AccountId CurrencyId Tokens Unit :=
  settleSuppliers env currencyId [accountId]

/-- The hook before lend tokens are transferred. -/
def preTransfer (env : LoansEnv AccountId CurrencyId H256) (currencyId : CurrencyId)
    (source destination : AccountId) : LoansCall AccountId CurrencyId Tokens Unit :=
  settleSuppliers env currencyId [source, destination]

/-- What an account receives by a deposit or by a transfer is locked where its lend tokens are. -/
def postReceive (amount : Amount CurrencyId) (accountId : AccountId) :
    LoansCall AccountId CurrencyId Tokens Unit := do
  if CurrencyConfig.isLendToken amount.currencyId then
    lockIfAccountDeposited accountId amount
  else
    return

/-! ## Moving amounts -/

/-- A transfer with its hooks. Nothing is done for an amount of zero or within one account. -/
def transfer (env : LoansEnv AccountId CurrencyId H256) (x : Amount CurrencyId)
    (source destination : AccountId) : LoansCall AccountId CurrencyId Tokens Unit := do
  if x.isZero ∨ source = destination then
    return
  else
    preTransfer env x.currencyId source destination
    onTokens (x.transfer source destination)
    postReceive x destination

/-- A deposit with its hooks. -/
def mintTo (env : LoansEnv AccountId CurrencyId H256) (x : Amount CurrencyId)
    (accountId : AccountId) : LoansCall AccountId CurrencyId Tokens Unit := do
  if x.isZero then
    return
  else
    preDeposit env x.currencyId accountId
    onTokens (x.mintTo accountId)
    postReceive x accountId

/-- A slash with its hook. -/
def burnFrom (env : LoansEnv AccountId CurrencyId H256) (x : Amount CurrencyId)
    (accountId : AccountId) : LoansCall AccountId CurrencyId Tokens Unit := do
  if x.isZero then
    return
  else
    onSlash env x.currencyId accountId
    onTokens (x.burnFrom accountId)

/-! ## Collateral -/

/-- Take locked lend tokens off the books. -/
def decreaseDeposits (voucher : Amount CurrencyId) (supplier : AccountId) :
    LoansCall AccountId CurrencyId Tokens Unit := do
  let s ← get
  Call.ensure (voucher.amount ≤ s.accountDeposits voucher.currencyId supplier)
    (.arithmetic .underflow)
  modify fun s => { s with
    accountDeposits := update₂ s.accountDeposits voucher.currencyId supplier
      (s.accountDeposits voucher.currencyId supplier - voucher.amount) }

/-- Release collateral that is not needed. -/
def doWithdrawCollateral (env : LoansEnv AccountId CurrencyId H256) (supplier : AccountId)
    (voucher : Amount CurrencyId) : LoansCall AccountId CurrencyId Tokens Unit := do
  let underlyingId ← Call.reads fun s => s.underlyingId voucher.currencyId
  let _ ← Call.reads fun s => s.ensureActiveMarket underlyingId
  let totalCollateralValue ← totalCollateralValue env supplier
  let collateralAmountValue ← collateralAmountValue env voucher
  let totalBorrowedValue ← totalBorrowedValue env supplier
  let required ← Call.ofExcept (totalBorrowedValue.checkedAdd collateralAmountValue)
  let short ← Call.ofExcept (totalCollateralValue.lt required)
  Call.ensure (short = false) (.loans .insufficientLiquidity)
  onTokens (voucher.unlockOn supplier)
  decreaseDeposits voucher supplier

end Interbtc.Loans
