import Interbtc.Core.Run
import Interbtc.Currency.Actions
import Interbtc.Environment
import Interbtc.Loans.Rates

/-!
# The storage of the loans pallet

Accounts lend an asset to its market for lend tokens and borrow against the lend tokens they
lock. This file has the storage of the pallet and what is read from it without a write.
-/

namespace Interbtc

open Core MultiCurrency

/-! ## Markets -/

/-- Whether a market trades. -/
inductive MarketState
  | active
  | pending
  | supervision
  deriving DecidableEq

/-- A pool of one asset where accounts lend and borrow. -/
structure Market (CurrencyId : Type) where
  collateralFactor : Ratio
  liquidationThreshold : Ratio
  /-- Fraction of the interest set aside for the reserves. -/
  reserveFactor : Ratio
  /-- The part of a debt that one liquidation may repay. -/
  closeFactor : Ratio
  liquidateIncentive : Rate
  /-- Share of a liquidation set aside for the reserves. -/
  liquidateIncentiveReservedFactor : Ratio
  rateModel : InterestRateModel
  state : MarketState
  supplyCap : ℕ
  borrowCap : ℕ
  lendTokenId : CurrencyId
  deriving DecidableEq

/-- A debt, and the borrow index up to which it has interest. -/
structure BorrowSnapshot where
  principal : ℕ
  borrowIndex : Rate
  deriving DecidableEq

/-- The reward per share that was distributed up to a block. -/
structure RewardMarketState where
  index : ℕ
  block : ℕ
  deriving DecidableEq

/-- What the interest of a market comes to. -/
structure MarketStatus where
  borrowRate : Rate
  supplyRate : Rate
  exchangeRate : Rate
  utilization : Ratio
  totalBorrows : ℕ
  totalReserves : ℕ
  borrowIndex : Rate

/-- Collateral beyond the debts, or debts beyond the collateral. -/
inductive AccountLiquidity (CurrencyId : Type)
  | liquidity (x : Amount CurrencyId)
  | shortfall (x : Amount CurrencyId)

namespace AccountLiquidity

variable {CurrencyId : Type}

/-- The difference of collateral and debts. -/
def fromCollateralAndDebt [DecidableEq CurrencyId] (collateralValue borrowValue : Amount CurrencyId) :
    Except DispatchError (AccountLiquidity CurrencyId) := do
  if ← collateralValue.gt borrowValue then
    let rest ← collateralValue.checkedSub borrowValue
    return .liquidity rest
  else
    let rest ← borrowValue.checkedSub collateralValue
    return .shortfall rest

/-- The currency of the difference. -/
def currency : AccountLiquidity CurrencyId → CurrencyId
  | .liquidity x | .shortfall x => x.currencyId

/-- Collateral beyond the debts, zero where it lacks. -/
def liquidityOf : AccountLiquidity CurrencyId → Amount CurrencyId
  | .liquidity x => x
  | .shortfall x => .zero x.currencyId

/-- Debts beyond the collateral, zero where it suffices. -/
def shortfallOf : AccountLiquidity CurrencyId → Amount CurrencyId
  | .liquidity x => .zero x.currencyId
  | .shortfall x => x

end AccountLiquidity

/-! ## Configuration -/

/-- The accounts the pallet derives for itself, the currencies it is configured with, and the
order in which the storage iterates over the markets, which the hashes of the keys fix. -/
class LoansConfig (AccountId CurrencyId : Type) where
  /-- Holds the liquidity of all markets. -/
  palletAccount : AccountId
  /-- Pays the incentive rewards. -/
  rewardAccount : AccountId
  /-- Gets the reserved share of the liquidations. -/
  incentiveAccount : AccountId
  pallet_ne_reward : palletAccount ≠ rewardAccount
  pallet_ne_incentive : palletAccount ≠ incentiveAccount
  reward_ne_incentive : rewardAccount ≠ incentiveAccount
  /-- The currency that values are compared in. -/
  referenceAsset : CurrencyId
  rewardAsset : CurrencyId
  keyOrder : List CurrencyId
  keyOrder_nodup : keyOrder.Nodup
  mem_keyOrder : ∀ c : CurrencyId, c ∈ keyOrder

/-- An account that signs calls. Nobody has a key of the accounts that the pallet derives. -/
abbrev Signer (AccountId CurrencyId : Type) [LoansConfig AccountId CurrencyId] : Type :=
  {who : AccountId // who ≠ LoansConfig.palletAccount CurrencyId ∧
    who ≠ LoansConfig.rewardAccount CurrencyId ∧ who ≠ LoansConfig.incentiveAccount CurrencyId}

/-- What a call reads of the chain: the environment with the prices, the time and the block. -/
structure LoansEnv (AccountId CurrencyId H256 : Type) extends Env AccountId CurrencyId H256 where
  now : ℕ
  blockNumber : ℕ

/-! ## Storage -/

/-- The token balances, the storage of the pallet, and what other pallets keep reserved of the
accounts' tokens. -/
structure Loans (AccountId CurrencyId Tokens : Type) where
  tokens : Tokens
  lastAccruedInterestTime : CurrencyId → ℕ
  totalBorrows : CurrencyId → ℕ
  totalReserves : CurrencyId → ℕ
  accountBorrows : CurrencyId → AccountId → BorrowSnapshot
  /-- The lend tokens that are locked as collateral. -/
  accountDeposits : CurrencyId → AccountId → ℕ
  borrowIndex : CurrencyId → Rate
  exchangeRate : CurrencyId → Rate
  borrowRate : CurrencyId → Rate
  supplyRate : CurrencyId → Rate
  utilizationRatio : CurrencyId → Ratio
  markets : CurrencyId → Option (Market CurrencyId)
  underlyingAssetId : CurrencyId → Option CurrencyId
  rewardSupplySpeed : CurrencyId → ℕ
  rewardBorrowSpeed : CurrencyId → ℕ
  rewardSupplyState : CurrencyId → RewardMarketState
  rewardBorrowState : CurrencyId → RewardMarketState
  rewardSupplierIndex : CurrencyId → AccountId → ℕ
  rewardBorrowerIndex : CurrencyId → AccountId → ℕ
  rewardAccrued : AccountId → ℕ
  maxExchangeRate : Rate
  minExchangeRate : Rate
  heldElsewhere : CurrencyId → AccountId → ℕ

/-- A call of the pallet. -/
abbrev LoansCall (AccountId CurrencyId Tokens α : Type) : Type :=
  Call DispatchError (Loans AccountId CurrencyId Tokens) α

/-- Write the entry of a storage double map. -/
def update₂ {κ κ' τ : Type} [DecidableEq κ] [DecidableEq κ'] (f : κ → κ' → τ) (k : κ) (k' : κ')
    (v : τ) : κ → κ' → τ :=
  Function.update f k (Function.update (f k) k' v)

section Update

variable {κ κ' τ : Type} [DecidableEq κ] [DecidableEq κ'] {f : κ → κ' → τ} {k j : κ} {k' j' : κ'}
  {v : τ}

/-- What is stored is found. -/
@[simp] theorem update₂_self : update₂ f k k' v k k' = v := by
  rw [update₂, Function.update_self, Function.update_self]

/-- Nothing else changes, for other first keys. -/
theorem update₂_of_ne_left (h : j ≠ k) : update₂ f k k' v j = f j := by
  rw [update₂, Function.update_of_ne h]

/-- Nothing else changes, for other second keys. -/
theorem update₂_of_ne (h : j' ≠ k') : update₂ f k k' v j j' = f j j' := by
  unfold update₂
  rcases eq_or_ne j k with rfl | hj
  · rw [Function.update_self, Function.update_of_ne h]
  · rw [Function.update_of_ne hj]

end Update

namespace Loans

variable {AccountId CurrencyId H256 Tokens : Type} [DecidableEq AccountId]
  [DecidableEq CurrencyId] [MultiCurrency Tokens AccountId CurrencyId]
  [CurrencyConfig CurrencyId] [LoansConfig AccountId CurrencyId]

/-- The storage before the first market is added. -/
def genesis (tokens : Tokens) (maxExchangeRate minExchangeRate : Rate) :
    Loans AccountId CurrencyId Tokens where
  tokens := tokens
  lastAccruedInterestTime _ := 0
  totalBorrows _ := 0
  totalReserves _ := 0
  accountBorrows _ _ := ⟨0, .zero⟩
  accountDeposits _ _ := 0
  borrowIndex _ := .zero
  exchangeRate _ := .zero
  borrowRate _ := .zero
  supplyRate _ := .zero
  utilizationRatio _ := .zero
  markets _ := none
  underlyingAssetId _ := none
  rewardSupplySpeed _ := 0
  rewardBorrowSpeed _ := 0
  rewardSupplyState _ := ⟨0, 0⟩
  rewardBorrowState _ := ⟨0, 0⟩
  rewardSupplierIndex _ _ := 0
  rewardBorrowerIndex _ _ := 0
  rewardAccrued _ := 0
  maxExchangeRate := maxExchangeRate
  minExchangeRate := minExchangeRate
  heldElsewhere c a := (balances tokens a c).reserved

/-- The token balances. -/
def TokensPart : Lens (Loans AccountId CurrencyId Tokens) Tokens where
  get s := s.tokens
  set t s := { s with tokens := t }

/-! ## Reads -/

section Reads

variable (s : Loans AccountId CurrencyId Tokens)

/-- The parameters of a market. -/
def market (assetId : CurrencyId) : Except DispatchError (Market CurrencyId) :=
  okOr (.loans .marketDoesNotExist) (s.markets assetId)

/-- The markets that are open. -/
def activeMarkets : List (CurrencyId × Market CurrencyId) :=
  (LoansConfig.keyOrder AccountId).filterMap fun assetId =>
    match s.markets assetId with
    | some market => if market.state = .active then some (assetId, market) else none
    | none => none

/-- The parameters of an open market. -/
def ensureActiveMarket (assetId : CurrencyId) : Except DispatchError (Market CurrencyId) :=
  okOr (.loans .marketNotActivated)
    ((s.activeMarkets.find? (fun m => decide (m.1 = assetId))).map Prod.snd)

/-- The lend token of a market. -/
def lendTokenId (assetId : CurrencyId) : Except DispatchError CurrencyId := do
  let market ← s.market assetId
  return market.lendTokenId

/-- The market of a lend token. -/
def underlyingId (lendTokenId : CurrencyId) : Except DispatchError CurrencyId :=
  okOr (.loans .invalidLendTokenId) (s.underlyingAssetId lendTokenId)

/-- The total balance of an account. -/
def balance (currencyId : CurrencyId) (who : AccountId) : Amount CurrencyId :=
  let account := balances s.tokens who currencyId
  ⟨account.free + account.reserved, currencyId⟩

/-- What can be transferred from the account of the pallet. -/
def getTotalCash (assetId : CurrencyId) : Amount CurrencyId :=
  let account := balances s.tokens (LoansConfig.palletAccount CurrencyId : AccountId) assetId
  ⟨account.free - account.frozen, assetId⟩

/-- The lend tokens of a market. -/
def totalSupply (assetId : CurrencyId) : Except DispatchError (Amount CurrencyId) := do
  let lendTokenId ← s.lendTokenId assetId
  return ⟨totalIssuance s.tokens lendTokenId, lendTokenId⟩

/-- The free lend tokens of an account. -/
def freeLendTokens (assetId : CurrencyId) (who : AccountId) :
    Except DispatchError (Amount CurrencyId) := do
  let lendTokenId ← s.lendTokenId assetId
  return ⟨(balances s.tokens who lendTokenId).free, lendTokenId⟩

/-- The reserved lend tokens of an account. -/
def reservedLendTokens (assetId : CurrencyId) (who : AccountId) :
    Except DispatchError (Amount CurrencyId) := do
  let lendTokenId ← s.lendTokenId assetId
  return ⟨(balances s.tokens who lendTokenId).reserved, lendTokenId⟩

/-- The lend tokens an account has locked as collateral. -/
def deposits (lendTokenId : CurrencyId) (who : AccountId) : Amount CurrencyId :=
  ⟨s.accountDeposits lendTokenId who, lendTokenId⟩

/-- What is lent in a market, with interest. -/
def borrows (assetId : CurrencyId) : Amount CurrencyId := ⟨s.totalBorrows assetId, assetId⟩

/-- What a market keeps of the interest. -/
def reserves (assetId : CurrencyId) : Amount CurrencyId := ⟨s.totalReserves assetId, assetId⟩

/-- The balance that a debt has grown to, at the increase of the borrow index. -/
def borrowBalanceFromOldAndNewIndex (oldIndex newIndex : Rate) (amount : Amount CurrencyId)
    (rounding : RoundingMode) : Except DispatchError (Amount CurrencyId) := do
  let borrowIndexIncrease ← okOr (.arithmetic .underflow) (newIndex.checkedDiv oldIndex)
  amount.checkedRoundedMul borrowIndexIncrease rounding

/-- The debt of an account with interest, rounded up. -/
def currentBorrowBalance (who : AccountId) (assetId : CurrencyId) :
    Except DispatchError (Amount CurrencyId) :=
  let snapshot := s.accountBorrows assetId who
  if snapshot.principal = 0 ∨ snapshot.borrowIndex.inner = 0 then
    .ok (.zero assetId)
  else
    borrowBalanceFromOldAndNewIndex snapshot.borrowIndex (s.borrowIndex assetId)
      ⟨snapshot.principal, assetId⟩ .up

/-! ## Exchange rate and interest -/

/-- The exchange rate is within its bounds. -/
def ensureValidExchangeRate (exchangeRate : Rate) : Except DispatchError Unit :=
  if s.minExchangeRate.inner ≤ exchangeRate.inner ∧ exchangeRate.inner < s.maxExchangeRate.inner then
    .ok ()
  else
    .error (.loans .invalidExchangeRate)

/-- The part of a market that is lent. -/
def calcUtilizationRatio (cash borrows reserves : Amount CurrencyId) :
    Except DispatchError Ratio := do
  if borrows.isZero then
    return .zero
  else
    let cashAndBorrows ← cash.checkedAdd borrows
    let total ← cashAndBorrows.checkedSub reserves
    return .fromRational borrows.amount total.amount

/-- What a lend token is worth. -/
def calculateExchangeRate (totalSupply totalCash totalBorrows totalReserves : Amount CurrencyId) :
    Except DispatchError Rate := do
  if totalSupply.isZero then
    return s.minExchangeRate
  else
    let cashPlusBorrows ← totalCash.checkedAdd totalBorrows
    let cashPlusBorrowsMinusReserves ← cashPlusBorrows.checkedSub totalReserves
    let exchangeRate ← okOr (.arithmetic .underflow)
      (FixedU128.checkedFromRational cashPlusBorrowsMinusReserves.amount totalSupply.amount)
    s.ensureValidExchangeRate exchangeRate
    return exchangeRate

/-- The exchange rate of the balances as they are, without interest since they were stored. -/
def exchangeRateStored (assetId : CurrencyId) : Except DispatchError Rate := do
  let totalSupply ← s.totalSupply assetId
  s.calculateExchangeRate totalSupply (s.getTotalCash assetId) (s.borrows assetId)
    (s.reserves assetId)

/-- 365 days. -/
def secondsPerYear : ℕ := 365 * 24 * 60 * 60

/-- Compound the interest of each second. -/
def accrueIndex (borrowRate index : Rate) (deltaTime : ℕ) : Except DispatchError Rate := do
  let rateFraction ← okOr (.arithmetic .underflow)
    (borrowRate.checkedDiv (.saturatingFromInteger secondsPerYear))
  let baseRate ← okOr (.arithmetic .overflow) (FixedU128.one.checkedAdd rateFraction)
  let compoundedRate := baseRate.saturatingPow (min deltaTime (2 ^ 32 - 1))
  okOr (.arithmetic .overflow) (index.checkedMul compoundedRate)

/-- The totals with interest up to now: the borrows are rounded down, and a share of the
interest is added to the reserves. -/
def accruedTotals (now : ℕ) (assetId : CurrencyId) (market : Market CurrencyId)
    (borrowRate : Rate) :
    Except DispatchError (Amount CurrencyId × Amount CurrencyId × Rate) := do
  if s.lastAccruedInterestTime assetId < now then
    let deltaTime := now - s.lastAccruedInterestTime assetId
    let borrowIndexNew ← accrueIndex borrowRate (s.borrowIndex assetId) deltaTime
    let totalBorrows ← borrowBalanceFromOldAndNewIndex (s.borrowIndex assetId) borrowIndexNew
      (s.borrows assetId) .down
    let interestAccumulated ← totalBorrows.checkedSub (s.borrows assetId)
    let reserved : Amount CurrencyId :=
      ⟨market.reserveFactor.mulFloor interestAccumulated.amount, assetId⟩
    let totalReserves ← reserved.checkedAdd (s.reserves assetId)
    return (totalBorrows, totalReserves, borrowIndexNew)
  else
    return (s.borrows assetId, s.reserves assetId, s.borrowIndex assetId)

/-- A market as it would be after interest is accrued. -/
def getMarketStatus (now : ℕ) (assetId : CurrencyId) : Except DispatchError MarketStatus := do
  let market ← s.market assetId
  let totalSupply ← s.totalSupply assetId
  let totalCash := s.getTotalCash assetId
  let util ← calcUtilizationRatio totalCash (s.borrows assetId) (s.reserves assetId)
  let borrowRate ← okOr (.arithmetic .overflow) (market.rateModel.getBorrowRate util)
  let supplyRate := InterestRateModel.getSupplyRate borrowRate util market.reserveFactor
  let totals ← s.accruedTotals now assetId market borrowRate
  let exchangeRate ← s.calculateExchangeRate totalSupply totalCash totals.1 totals.2.1
  return {
    borrowRate := borrowRate
    supplyRate := supplyRate
    exchangeRate := exchangeRate
    utilization := util
    totalBorrows := totals.1.amount
    totalReserves := totals.2.1.amount
    borrowIndex := totals.2.2 }

end Reads

end Loans

end Interbtc
