import Interbtc.Loans.Lending

/-!
# Calls of the loans pallet

Every call that can be dispatched, the transfers of any token, and what other pallets do with
the tokens of an account: they reserve some of them, release what they reserved, and convert
lend tokens. A dispatched call is transactional.
-/

namespace Interbtc.Loans

open Core MultiCurrency

variable {AccountId CurrencyId H256 Tokens : Type} [DecidableEq AccountId]
  [DecidableEq CurrencyId] [MultiCurrency Tokens AccountId CurrencyId]
  [CurrencyConfig CurrencyId] [LoansConfig AccountId CurrencyId]

/-! ## Markets -/

/-- The checks of the parameters of a market. -/
def ensureFactors (collateralFactor liquidationThreshold reserveFactor reservedFactor : Ratio)
    (supplyCap : ℕ) : LoansCall AccountId CurrencyId Tokens Unit := do
  Call.ensure (collateralFactor.parts < Permill.ACCURACY) (.loans .invalidFactor)
  Call.ensure (liquidationThreshold.parts < Permill.ACCURACY ∧
    collateralFactor.parts ≤ liquidationThreshold.parts) (.loans .invalidFactor)
  Call.ensure (0 < reserveFactor.parts ∧ reserveFactor.parts < Permill.ACCURACY)
    (.loans .invalidFactor)
  Call.ensure (reservedFactor.parts < Permill.ACCURACY) (.loans .invalidFactor)
  Call.ensure (0 < supplyCap) (.loans .invalidSupplyCap)

/-- The lend token is not yet in use, neither as a lend token nor as an asset. -/
def ensureLendToken (lendTokenId : CurrencyId) : LoansCall AccountId CurrencyId Tokens Unit := do
  let s ← get
  Call.ensure (s.underlyingAssetId lendTokenId = none) (.loans .invalidLendTokenId)
  Call.ensure (s.markets lendTokenId = none) (.loans .invalidLendTokenId)

/-- List a market that is pending. -/
def addMarket (assetId : CurrencyId) (market : Market CurrencyId) :
    LoansCall AccountId CurrencyId Tokens Unit := do
  let s ← get
  Call.ensure (s.markets assetId = none) (.loans .marketAlreadyExists)
  Call.ensure (market.state = .pending) (.loans .newMarketMustHavePendingState)
  Call.ensure (market.rateModel.checkModel = true) (.loans .invalidRateModelParam)
  ensureFactors market.collateralFactor market.liquidationThreshold market.reserveFactor
    market.liquidateIncentiveReservedFactor market.supplyCap
  ensureLendToken market.lendTokenId
  modify fun s => { s with
    markets := Function.update s.markets assetId (some market)
    underlyingAssetId := Function.update s.underlyingAssetId market.lendTokenId (some assetId)
    exchangeRate := Function.update s.exchangeRate assetId s.minExchangeRate
    borrowIndex := Function.update s.borrowIndex assetId .one }

/-- Change a market that exists. -/
def mutateMarket (assetId : CurrencyId)
    (cb : Market CurrencyId → Except DispatchError (Market CurrencyId)) :
    LoansCall AccountId CurrencyId Tokens Unit := do
  let market ← Call.reads fun s => s.market assetId
  let market ← Call.ofExcept (cb market)
  modify fun s => { s with markets := Function.update s.markets assetId (some market) }

/-- Open a market. -/
def activateMarket (assetId : CurrencyId) : LoansCall AccountId CurrencyId Tokens Unit :=
  mutateMarket assetId fun market =>
    if market.state = .active then .error (.loans .marketAlreadyActivated)
    else .ok { market with state := .active }

/-- Replace the interest rates of a market. -/
def updateRateModel (assetId : CurrencyId) (rateModel : InterestRateModel) :
    LoansCall AccountId CurrencyId Tokens Unit := do
  Call.ensure (rateModel.checkModel = true) (.loans .invalidRateModelParam)
  mutateMarket assetId fun market => .ok { market with rateModel := rateModel }

/-- What an update of a market changes. -/
structure MarketUpdate where
  collateralFactor : Option Ratio
  liquidationThreshold : Option Ratio
  reserveFactor : Option Ratio
  closeFactor : Option Ratio
  liquidateIncentiveReservedFactor : Option Ratio
  liquidateIncentive : Option Rate
  supplyCap : Option ℕ
  borrowCap : Option ℕ

/-- The parameters that are given replace the stored ones. -/
def MarketUpdate.apply (u : MarketUpdate) (market : Market CurrencyId) : Market CurrencyId :=
  { market with
    collateralFactor := u.collateralFactor.getD market.collateralFactor
    liquidationThreshold := u.liquidationThreshold.getD market.liquidationThreshold
    reserveFactor := u.reserveFactor.getD market.reserveFactor
    closeFactor := u.closeFactor.getD market.closeFactor
    liquidateIncentiveReservedFactor :=
      u.liquidateIncentiveReservedFactor.getD market.liquidateIncentiveReservedFactor
    liquidateIncentive := u.liquidateIncentive.getD market.liquidateIncentive
    supplyCap := u.supplyCap.getD market.supplyCap
    borrowCap := u.borrowCap.getD market.borrowCap }

/-- The check of the reserved factor reads the stored one, not the new one. -/
def updateMarket (assetId : CurrencyId) (u : MarketUpdate) :
    LoansCall AccountId CurrencyId Tokens Unit := do
  let market ← Call.reads fun s => s.market assetId
  let updated := u.apply market
  ensureFactors updated.collateralFactor updated.liquidationThreshold updated.reserveFactor
    market.liquidateIncentiveReservedFactor updated.supplyCap
  mutateMarket assetId fun market => .ok (u.apply market)

/-- Replace all parameters of a market, with few checks. -/
def forceUpdateMarket (assetId : CurrencyId) (market : Market CurrencyId) :
    LoansCall AccountId CurrencyId Tokens Unit := do
  Call.ensure (market.rateModel.checkModel = true) (.loans .invalidRateModelParam)
  let s ← get
  Call.ensure (s.underlyingAssetId market.lendTokenId = none ∨
    s.underlyingAssetId market.lendTokenId = some assetId) (.loans .invalidLendTokenId)
  modify fun s => { s with
    underlyingAssetId := Function.update s.underlyingAssetId market.lendTokenId (some assetId) }
  mutateMarket assetId fun _ => .ok market

/-! ## Rewards -/

/-- Pay into the rewards. -/
def addReward (env : LoansEnv AccountId CurrencyId H256) (who : AccountId) (amount : ℕ) :
    LoansCall AccountId CurrencyId Tokens Unit := do
  Call.ensure (amount ≠ 0) (.loans .invalidAmount)
  transfer env ⟨amount, LoansConfig.rewardAsset AccountId⟩ who
    (LoansConfig.rewardAccount CurrencyId)

/-- A speed that changes is applied to the blocks that passed before. -/
def updateMarketRewardSpeed (env : LoansEnv AccountId CurrencyId H256) (assetId : CurrencyId)
    (supplyRewardPerBlock borrowRewardPerBlock : Option ℕ) :
    LoansCall AccountId CurrencyId Tokens Unit := do
  let _ ← Call.reads fun s => s.ensureActiveMarket assetId
  let s ← get
  let supplySpeed := supplyRewardPerBlock.getD (s.rewardSupplySpeed assetId)
  let borrowSpeed := borrowRewardPerBlock.getD (s.rewardBorrowSpeed assetId)
  (if supplySpeed ≠ s.rewardSupplySpeed assetId then do
    updateRewardSupplyIndex env assetId
    modify fun s =>
      { s with rewardSupplySpeed := Function.update s.rewardSupplySpeed assetId supplySpeed }
  else
    return)
  (if borrowSpeed ≠ s.rewardBorrowSpeed assetId then do
    updateRewardBorrowIndex env assetId
    modify fun s =>
      { s with rewardBorrowSpeed := Function.update s.rewardBorrowSpeed assetId borrowSpeed }
  else
    return)

/-- Pay an account the rewards it has accrued. -/
def payReward (env : LoansEnv AccountId CurrencyId H256) (user : AccountId) :
    LoansCall AccountId CurrencyId Tokens Unit := do
  let s ← get
  let totalReward := s.rewardAccrued user
  if 0 < totalReward then
    transfer env ⟨totalReward, LoansConfig.rewardAsset AccountId⟩
      (LoansConfig.rewardAccount CurrencyId) user
    modify fun s => { s with rewardAccrued := Function.update s.rewardAccrued user 0 }
  else
    return

/-- Claim the rewards of all markets. -/
def claimReward (env : LoansEnv AccountId CurrencyId H256) (who : AccountId) :
    LoansCall AccountId CurrencyId Tokens Unit := do
  let s ← get
  ((LoansConfig.keyOrder AccountId).filter fun assetId => (s.markets assetId).isSome).forM
    fun assetId => collectMarketReward env assetId who
  payReward env who

/-- Claim the rewards of one market. -/
def claimRewardForMarket (env : LoansEnv AccountId CurrencyId H256) (who : AccountId)
    (assetId : CurrencyId) : LoansCall AccountId CurrencyId Tokens Unit := do
  collectMarketReward env assetId who
  payReward env who

/-! ## Lending and borrowing -/

/-- Supply an amount, for lend tokens. -/
def mint (env : LoansEnv AccountId CurrencyId H256) (who : AccountId) (assetId : CurrencyId)
    (mintAmount : ℕ) : LoansCall AccountId CurrencyId Tokens Unit := do
  Call.ensure (mintAmount ≠ 0) (.loans .invalidAmount)
  doMint env who ⟨mintAmount, assetId⟩

/-- Take back an amount, for lend tokens. -/
def redeem (env : LoansEnv AccountId CurrencyId H256) (who : AccountId) (assetId : CurrencyId)
    (redeemAmount : ℕ) : LoansCall AccountId CurrencyId Tokens Unit := do
  Call.ensure (redeemAmount ≠ 0) (.loans .invalidAmount)
  let voucher ← toLendToken env ⟨redeemAmount, assetId⟩
  doRedeem env who ⟨redeemAmount, assetId⟩ voucher

/-- Take back all that is supplied freely. -/
def redeemAll (env : LoansEnv AccountId CurrencyId H256) (who : AccountId)
    (assetId : CurrencyId) : LoansCall AccountId CurrencyId Tokens Unit := do
  let lendTokenId ← Call.reads fun s => s.lendTokenId assetId
  let s ← get
  let voucher := s.balance lendTokenId who
  let underlying ← toUnderlying env voucher
  doRedeem env who underlying voucher

/-- Borrow against the collateral. -/
def borrow (env : LoansEnv AccountId CurrencyId H256) (who : AccountId) (assetId : CurrencyId)
    (borrowAmount : ℕ) : LoansCall AccountId CurrencyId Tokens Unit := do
  Call.ensure (borrowAmount ≠ 0) (.loans .invalidAmount)
  doBorrow env who ⟨borrowAmount, assetId⟩

/-- Repay a part of a debt. -/
def repayBorrow (env : LoansEnv AccountId CurrencyId H256) (who : AccountId)
    (assetId : CurrencyId) (repayAmount : ℕ) : LoansCall AccountId CurrencyId Tokens Unit := do
  Call.ensure (repayAmount ≠ 0) (.loans .invalidAmount)
  doRepayBorrow env who ⟨repayAmount, assetId⟩

/-- Repay a debt. -/
def repayBorrowAll (env : LoansEnv AccountId CurrencyId H256) (who : AccountId)
    (assetId : CurrencyId) : LoansCall AccountId CurrencyId Tokens Unit := do
  let _ ← Call.reads fun s => s.ensureActiveMarket assetId
  accrueInterest env assetId
  let accountBorrows ← Call.reads fun s => s.currentBorrowBalance who assetId
  Call.ensure (¬ accountBorrows.isZero) (.loans .invalidAmount)
  doRepayBorrow env who accountBorrows

/-- Lock all free lend tokens of a market. -/
def depositAllCollateral (who : AccountId) (assetId : CurrencyId) :
    LoansCall AccountId CurrencyId Tokens Unit := do
  let freeLendTokens ← Call.reads fun s => s.freeLendTokens assetId who
  Call.ensure (¬ freeLendTokens.isZero) (.loans .depositAllCollateralFailed)
  let reservedLendTokens ← Call.reads fun s => s.reservedLendTokens assetId who
  Call.ensure reservedLendTokens.isZero (.loans .tokensAlreadyLocked)
  doDepositCollateral who freeLendTokens

/-- Release all locked lend tokens of a market. -/
def withdrawAllCollateral (env : LoansEnv AccountId CurrencyId H256) (who : AccountId)
    (assetId : CurrencyId) : LoansCall AccountId CurrencyId Tokens Unit := do
  let lendTokenId ← Call.reads fun s => s.lendTokenId assetId
  let s ← get
  let collateral := s.deposits lendTokenId who
  Call.ensure (¬ collateral.isZero) (.loans .withdrawAllCollateralFailed)
  doWithdrawCollateral env who collateral

/-- Repay a part of the debt of another, for collateral of theirs. -/
def liquidateBorrow (env : LoansEnv AccountId CurrencyId H256) (who borrower : AccountId)
    (liquidationAssetId : CurrencyId) (repayAmount : ℕ) (collateralAssetId : CurrencyId) :
    LoansCall AccountId CurrencyId Tokens Unit := do
  accrueInterest env liquidationAssetId
  accrueInterest env collateralAssetId
  Call.ensure (repayAmount ≠ 0) (.loans .invalidAmount)
  doLiquidateBorrow env who borrower ⟨repayAmount, liquidationAssetId⟩ collateralAssetId

/-! ## Reserves -/

/-- Pay into the reserves of a market. -/
def addReserves (env : LoansEnv AccountId CurrencyId H256) (payer : AccountId)
    (assetId : CurrencyId) (addAmount : ℕ) : LoansCall AccountId CurrencyId Tokens Unit := do
  let _ ← Call.reads fun s => s.ensureActiveMarket assetId
  accrueInterest env assetId
  Call.ensure (addAmount ≠ 0) (.loans .invalidAmount)
  transfer env ⟨addAmount, assetId⟩ payer (LoansConfig.palletAccount CurrencyId)
  let totalReservesNew ← Call.reads fun s => (s.reserves assetId).checkedAdd ⟨addAmount, assetId⟩
  modify fun s =>
    { s with totalReserves := Function.update s.totalReserves assetId totalReservesNew.amount }

/-- Pay out of the reserves of a market. -/
def reduceReserves (env : LoansEnv AccountId CurrencyId H256) (receiver : AccountId)
    (assetId : CurrencyId) (reduceAmount : ℕ) : LoansCall AccountId CurrencyId Tokens Unit := do
  let _ ← Call.reads fun s => s.ensureActiveMarket assetId
  accrueInterest env assetId
  Call.ensure (reduceAmount ≠ 0) (.loans .invalidAmount)
  let s ← get
  Call.ensure (reduceAmount ≤ s.totalReserves assetId) (.loans .insufficientReserves)
  let totalReservesNew ← Call.ofExcept ((s.reserves assetId).checkedSub ⟨reduceAmount, assetId⟩)
  modify fun s =>
    { s with totalReserves := Function.update s.totalReserves assetId totalReservesNew.amount }
  transfer env ⟨reduceAmount, assetId⟩ (LoansConfig.palletAccount CurrencyId) receiver

/-- Pay out of what liquidations left for a market. -/
def reduceIncentiveReserves (env : LoansEnv AccountId CurrencyId H256) (receiver : AccountId)
    (assetId : CurrencyId) (redeemAmount : ℕ) : LoansCall AccountId CurrencyId Tokens Unit := do
  Call.ensure (redeemAmount ≠ 0) (.loans .invalidAmount)
  let _ ← Call.reads fun s => s.ensureActiveMarket assetId
  accrueInterest env assetId
  let voucher ← toLendToken env ⟨redeemAmount, assetId⟩
  doRedeem env (LoansConfig.incentiveAccount CurrencyId) ⟨redeemAmount, assetId⟩ voucher
  transfer env ⟨redeemAmount, assetId⟩ (LoansConfig.incentiveAccount CurrencyId) receiver

/-! ## Other pallets -/

/-- Another pallet reserves tokens of an account. -/
def lockElsewhere (who : AccountId) (x : Amount CurrencyId) :
    LoansCall AccountId CurrencyId Tokens Unit := do
  onTokens (x.lockOn who)
  modify fun s => { s with
    heldElsewhere := update₂ s.heldElsewhere x.currencyId who
      (s.heldElsewhere x.currencyId who + x.amount) }

/-- Another pallet releases tokens that it reserved. -/
def unlockElsewhere (who : AccountId) (x : Amount CurrencyId) :
    LoansCall AccountId CurrencyId Tokens Unit := do
  let s ← get
  Call.ensure (x.amount ≤ s.heldElsewhere x.currencyId who) (.tokens .balanceTooLow)
  onTokens (x.unlockOn who)
  modify fun s => { s with
    heldElsewhere := update₂ s.heldElsewhere x.currencyId who
      (s.heldElsewhere x.currencyId who - x.amount) }

/-! ## Dispatch -/

/-- A call of the pallet, or of the pallets that hold its tokens. -/
inductive Op (AccountId CurrencyId : Type) [LoansConfig AccountId CurrencyId]
  -- governance
  | addMarket (assetId : CurrencyId) (market : Market CurrencyId)
  | activateMarket (assetId : CurrencyId)
  | updateRateModel (assetId : CurrencyId) (rateModel : InterestRateModel)
  | updateMarket (assetId : CurrencyId) (update : MarketUpdate)
  | forceUpdateMarket (assetId : CurrencyId) (market : Market CurrencyId)
  | updateMarketRewardSpeed (assetId : CurrencyId)
      (supplyRewardPerBlock borrowRewardPerBlock : Option ℕ)
  | addReserves (payer : AccountId) (assetId : CurrencyId) (addAmount : ℕ)
  | reduceReserves (receiver : AccountId) (assetId : CurrencyId) (reduceAmount : ℕ)
  | reduceIncentiveReserves (receiver : AccountId) (assetId : CurrencyId) (redeemAmount : ℕ)
  -- accounts
  | addReward (who : Signer AccountId CurrencyId) (amount : ℕ)
  | claimReward (who : Signer AccountId CurrencyId)
  | claimRewardForMarket (who : Signer AccountId CurrencyId) (assetId : CurrencyId)
  | mint (who : Signer AccountId CurrencyId) (assetId : CurrencyId) (mintAmount : ℕ)
  | redeem (who : Signer AccountId CurrencyId) (assetId : CurrencyId) (redeemAmount : ℕ)
  | redeemAll (who : Signer AccountId CurrencyId) (assetId : CurrencyId)
  | borrow (who : Signer AccountId CurrencyId) (assetId : CurrencyId) (borrowAmount : ℕ)
  | repayBorrow (who : Signer AccountId CurrencyId) (assetId : CurrencyId) (repayAmount : ℕ)
  | repayBorrowAll (who : Signer AccountId CurrencyId) (assetId : CurrencyId)
  | depositAllCollateral (who : Signer AccountId CurrencyId) (assetId : CurrencyId)
  | withdrawAllCollateral (who : Signer AccountId CurrencyId) (assetId : CurrencyId)
  | liquidateBorrow (who : Signer AccountId CurrencyId) (borrower : AccountId)
      (liquidationAssetId : CurrencyId) (repayAmount : ℕ) (collateralAssetId : CurrencyId)
  -- other pallets
  | transfer (who : Signer AccountId CurrencyId) (destination : AccountId)
      (currencyId : CurrencyId) (amount : ℕ)
  | lockElsewhere (who : Signer AccountId CurrencyId) (currencyId : CurrencyId) (amount : ℕ)
  | unlockElsewhere (who : Signer AccountId CurrencyId) (currencyId : CurrencyId) (amount : ℕ)
  | recomputeUnderlyingAmount (lendTokens : Amount CurrencyId)
  | recomputeCollateralAmount (underlying : Amount CurrencyId)

/-- What a dispatched call does, in the environment of its block. -/
def dispatch (env : LoansEnv AccountId CurrencyId H256) :
    Op AccountId CurrencyId → LoansCall AccountId CurrencyId Tokens Unit
  | .addMarket assetId market => addMarket assetId market
  | .activateMarket assetId => activateMarket assetId
  | .updateRateModel assetId rateModel => updateRateModel assetId rateModel
  | .updateMarket assetId update => updateMarket assetId update
  | .forceUpdateMarket assetId market => forceUpdateMarket assetId market
  | .updateMarketRewardSpeed assetId supply borrow =>
    updateMarketRewardSpeed env assetId supply borrow
  | .addReserves payer assetId amount => addReserves env payer assetId amount
  | .reduceReserves receiver assetId amount => reduceReserves env receiver assetId amount
  | .reduceIncentiveReserves receiver assetId amount =>
    reduceIncentiveReserves env receiver assetId amount
  | .addReward who amount => addReward env who.val amount
  | .claimReward who => claimReward env who.val
  | .claimRewardForMarket who assetId => claimRewardForMarket env who.val assetId
  | .mint who assetId amount => mint env who.val assetId amount
  | .redeem who assetId amount => redeem env who.val assetId amount
  | .redeemAll who assetId => redeemAll env who.val assetId
  | .borrow who assetId amount => borrow env who.val assetId amount
  | .repayBorrow who assetId amount => repayBorrow env who.val assetId amount
  | .repayBorrowAll who assetId => repayBorrowAll env who.val assetId
  | .depositAllCollateral who assetId => depositAllCollateral who.val assetId
  | .withdrawAllCollateral who assetId => withdrawAllCollateral env who.val assetId
  | .liquidateBorrow who borrower liquidationAssetId amount collateralAssetId =>
    liquidateBorrow env who.val borrower liquidationAssetId amount collateralAssetId
  | .transfer who destination currencyId amount =>
    transfer env ⟨amount, currencyId⟩ who.val destination
  | .lockElsewhere who currencyId amount => lockElsewhere who.val ⟨amount, currencyId⟩
  | .unlockElsewhere who currencyId amount => unlockElsewhere who.val ⟨amount, currencyId⟩
  | .recomputeUnderlyingAmount lendTokens => do
    let _ ← recomputeUnderlyingAmount env lendTokens
  | .recomputeCollateralAmount underlying => do
    let _ ← recomputeCollateralAmount env underlying

/-- A dispatched call together with its environment. -/
abbrev Dispatch (AccountId CurrencyId H256 : Type) [LoansConfig AccountId CurrencyId] : Type :=
  LoansEnv AccountId CurrencyId H256 × Op AccountId CurrencyId

/-- Dispatch one call as a transaction. -/
def step (s : Loans AccountId CurrencyId Tokens) (d : Dispatch AccountId CurrencyId H256) :
    Loans AccountId CurrencyId Tokens :=
  (dispatch d.1 d.2).commit s

/-! ## A small instance -/

namespace Sample

/-- The accounts of the examples. -/
inductive Holder
  | alice
  | bob
  | carol
  | pallet
  | rewards
  | incentives
  deriving DecidableEq

instance : Fintype Holder where
  elems := {.alice, .bob, .carol, .pallet, .rewards, .incentives}
  complete x := by cases x <;> decide

/-- Two assets, and their lend tokens. -/
inductive Asset
  | dot
  | ibtc
  | intr
  | lendDot
  | lendIbtc
  deriving DecidableEq

instance : CurrencyConfig Asset where
  native := .intr
  wrapped := .ibtc
  griefingCollateral := .intr
  isLendToken
    | .lendDot | .lendIbtc => true
    | _ => false
  maxCapacityRewardCurrencies := 2
  maxVaultRewardCurrencies := 2

instance : LoansConfig Holder Asset where
  palletAccount := .pallet
  rewardAccount := .rewards
  incentiveAccount := .incentives
  pallet_ne_reward := by decide
  pallet_ne_incentive := by decide
  reward_ne_incentive := by decide
  referenceAsset := .ibtc
  rewardAsset := .intr
  keyOrder := [.dot, .ibtc, .intr, .lendDot, .lendIbtc]
  keyOrder_nodup := by decide
  mem_keyOrder c := by cases c <;> decide

/-- The storage of the examples. -/
abbrev Accounts : Type := Loans Holder Asset (TokenLedger Holder Asset)

/-- The runs of the examples. -/
abbrev Run : Type := List (Dispatch Holder Asset Unit)

/-- An account. -/
def alice : Signer Holder Asset := ⟨.alice, by decide⟩

/-- Another account. -/
def bob : Signer Holder Asset := ⟨.bob, by decide⟩

/-- A rate of zero. -/
def noFee : FeeRate := ⟨.zero, Nat.zero_le _⟩

/-- The environment at a time, where all assets have one price. -/
def envAt (now : ℕ) : LoansEnv Holder Asset Unit where
  exchangeRate _ := some .one
  feeEstimation := some .zero
  underlyingId c := .ok c
  recomputeUnderlyingAmount x := .ok x
  recomputeCollateralAmount x := .ok x
  issueFee := noFee
  issueGriefingCollateral := noFee
  redeemFee := noFee
  premiumRedeemFee := noFee
  punishmentFee := noFee
  replaceGriefingCollateral := noFee
  minimumCollateralVault _ := some 0
  punishmentDelay := 0
  systemCollateralCeiling _ := some maxBalance
  secureCollateralThreshold _ := none
  premiumRedeemThreshold _ := none
  liquidationCollateralThreshold _ := none
  vaultBitcoinPublicKey _ := none
  newDepositAddress _ _ := none
  isNominationEnabled := false
  issuePeriod := 10
  issueBtcDustValue := 0
  redeemPeriod := 10
  redeemBtcDustValue := 0
  redeemTransactionSize := 0
  replacePeriod := 10
  replaceBtcDustValue := 0
  activeBlockNumber := 0
  secureId := ()
  isFullyInitialized := .ok true
  bestBlockHeight := 0
  parachainBlocksPerBitcoinBlock := 1
  now := now
  blockNumber := 0

/-- A share in percent. -/
def percent (n : ℕ) : Ratio := ⟨min (n * 10 ^ 4) (10 ^ 6), Nat.min_le_right _ _⟩

/-- A rate in percent. -/
def rate (n : ℕ) : Rate := ⟨min (n * 10 ^ 16) maxBalance, Nat.min_le_right _ _⟩

/-- The parameters of the markets of the examples. -/
def market (lendTokenId : Asset) : Market Asset where
  collateralFactor := percent 50
  liquidationThreshold := percent 55
  reserveFactor := percent 15
  closeFactor := percent 50
  liquidateIncentive := rate 110
  liquidateIncentiveReservedFactor := percent 3
  rateModel := .jump ⟨rate 2, rate 10, rate 32, percent 80⟩
  state := .pending
  supplyCap := maxBalance
  borrowCap := maxBalance
  lendTokenId := lendTokenId

/-- Two markets, where an exchange rate is between 2% and 100%. -/
def start (balance : ℕ) : Accounts :=
  genesis
    { accounts
        | .alice, .dot | .alice, .ibtc | .bob, .dot | .bob, .ibtc | .carol, .dot | .carol, .ibtc =>
          ⟨balance, 0, 0⟩
        | _, _ => ⟨0, 0, 0⟩
      issuance
        | .dot | .ibtc => 3 * balance
        | _ => 0 }
    .one (rate 2)

/-- Two markets are listed and opened. -/
def listing : Run :=
  [(envAt 1000, .addMarket .dot (market .lendDot)), (envAt 1000, .addMarket .ibtc (market .lendIbtc)),
    (envAt 1000, .activateMarket .dot), (envAt 1000, .activateMarket .ibtc)]

end Sample

end Interbtc.Loans
