import Interbtc.Loans.Pallet

/-!
# Incentive rewards

Each market pays a reward per block to its suppliers, by their lend tokens, and to its
borrowers, by their debts. The reward of an account is settled when it is next touched.
-/

namespace Interbtc

open Core MultiCurrency

/-- Rewards per share are scaled by this factor. -/
def rewardScale : ℕ := 10 ^ 12

/-- The reward of each share since the last update. -/
def calculateRewardDeltaIndex (deltaBlock rewardSpeed totalShare : ℕ) : Except DispatchError ℕ :=
  if totalShare = 0 then
    .ok 0
  else
    okOr (.arithmetic .overflow)
      (multiplyByRationalWithRounding (deltaBlock * rewardSpeed) rewardScale totalShare .down)

/-- The reward of some shares. -/
def calculateRewardDelta (share rewardDeltaIndex : ℕ) : Except DispatchError ℕ :=
  okOr (.arithmetic .overflow)
    (multiplyByRationalWithRounding share rewardDeltaIndex rewardScale .down)

/-- A sum that must fit a balance. -/
def checkedAddBalance (a b : ℕ) : Except DispatchError ℕ :=
  if a + b ≤ maxBalance then .ok (a + b) else .error (.arithmetic .overflow)

namespace RewardMarketState

/-- Distribute the reward of the blocks since the last update over all shares. -/
def advance (state : RewardMarketState) (blockNumber rewardSpeed : ℕ)
    (totalShare : Except DispatchError ℕ) : Except DispatchError RewardMarketState := do
  let deltaBlock := blockNumber - state.block
  if deltaBlock = 0 then
    return state
  else if rewardSpeed = 0 then
    return { state with block := blockNumber }
  else
    let totalShare ← totalShare
    let deltaIndex ← calculateRewardDeltaIndex deltaBlock rewardSpeed totalShare
    let index ← checkedAddBalance state.index deltaIndex
    return ⟨index, blockNumber⟩

/-- The reward of a share since it was last settled. -/
def rewardSince (state : RewardMarketState) (settledIndex : ℕ)
    (share : Except DispatchError ℕ) : Except DispatchError ℕ := do
  if settledIndex ≤ state.index then
    let share ← share
    calculateRewardDelta share (state.index - settledIndex)
  else
    throw (.arithmetic .underflow)

end RewardMarketState

namespace Loans

variable {AccountId CurrencyId H256 Tokens : Type} [DecidableEq AccountId]
  [DecidableEq CurrencyId] [MultiCurrency Tokens AccountId CurrencyId]
  [CurrencyConfig CurrencyId] [LoansConfig AccountId CurrencyId]

/-- What is borrowed in all, without the interest since the market opened. -/
def baseTotalBorrows (s : Loans AccountId CurrencyId Tokens) (assetId : CurrencyId) :
    Except DispatchError ℕ := do
  let base ← (s.borrows assetId).checkedDiv (s.borrowIndex assetId)
  return base.amount

/-- What an account borrowed, without the interest since the market opened. -/
def baseBorrowBalance (s : Loans AccountId CurrencyId Tokens) (assetId : CurrencyId)
    (borrower : AccountId) : Except DispatchError ℕ := do
  let currentBorrowAmount ← s.currentBorrowBalance borrower assetId
  let base ← currentBorrowAmount.checkedDiv (s.borrowIndex assetId)
  return base.amount

/-- The lend tokens of an account. -/
def lendTokenBalance (s : Loans AccountId CurrencyId Tokens) (assetId : CurrencyId)
    (supplier : AccountId) : Except DispatchError ℕ := do
  let lendTokenId ← s.lendTokenId assetId
  return (s.balance lendTokenId supplier).amount

/-- Bring the reward index of the suppliers up to date. -/
def updateRewardSupplyIndex (env : LoansEnv AccountId CurrencyId H256) (assetId : CurrencyId) :
    LoansCall AccountId CurrencyId Tokens Unit := do
  let state ← Call.reads fun s => (s.rewardSupplyState assetId).advance env.blockNumber
    (s.rewardSupplySpeed assetId) ((s.totalSupply assetId).map (·.amount))
  modify fun s =>
    { s with rewardSupplyState := Function.update s.rewardSupplyState assetId state }

/-- Bring the reward index of the borrowers up to date. -/
def updateRewardBorrowIndex (env : LoansEnv AccountId CurrencyId H256) (assetId : CurrencyId) :
    LoansCall AccountId CurrencyId Tokens Unit := do
  let state ← Call.reads fun s => (s.rewardBorrowState assetId).advance env.blockNumber
    (s.rewardBorrowSpeed assetId) (s.baseTotalBorrows assetId)
  modify fun s =>
    { s with rewardBorrowState := Function.update s.rewardBorrowState assetId state }

/-- Accrue the reward of a supplier. -/
def distributeSupplierReward (assetId : CurrencyId) (supplier : AccountId) :
    LoansCall AccountId CurrencyId Tokens Unit := do
  let rewardDelta ← Call.reads fun s => (s.rewardSupplyState assetId).rewardSince
    (s.rewardSupplierIndex assetId supplier) (s.lendTokenBalance assetId supplier)
  let totalReward ← Call.reads fun s => checkedAddBalance (s.rewardAccrued supplier) rewardDelta
  modify fun s => { s with
    rewardSupplierIndex :=
      update₂ s.rewardSupplierIndex assetId supplier (s.rewardSupplyState assetId).index
    rewardAccrued := Function.update s.rewardAccrued supplier totalReward }

/-- Accrue the reward of a borrower. -/
def distributeBorrowerReward (assetId : CurrencyId) (borrower : AccountId) :
    LoansCall AccountId CurrencyId Tokens Unit := do
  let rewardDelta ← Call.reads fun s => (s.rewardBorrowState assetId).rewardSince
    (s.rewardBorrowerIndex assetId borrower) (s.baseBorrowBalance assetId borrower)
  let totalReward ← Call.reads fun s => checkedAddBalance (s.rewardAccrued borrower) rewardDelta
  modify fun s => { s with
    rewardBorrowerIndex :=
      update₂ s.rewardBorrowerIndex assetId borrower (s.rewardBorrowState assetId).index
    rewardAccrued := Function.update s.rewardAccrued borrower totalReward }

/-- Accrue both rewards of an account in a market. -/
def collectMarketReward (env : LoansEnv AccountId CurrencyId H256) (assetId : CurrencyId)
    (user : AccountId) : LoansCall AccountId CurrencyId Tokens Unit := do
  updateRewardSupplyIndex env assetId
  distributeSupplierReward assetId user
  updateRewardBorrowIndex env assetId
  distributeBorrowerReward assetId user

end Loans

end Interbtc
