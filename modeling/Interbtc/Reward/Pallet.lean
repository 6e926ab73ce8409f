import Interbtc.Core.FixedPoint
import Interbtc.Staking.Pool

/-!
# The reward pallet

Pools of stake with scalable reward distribution: a distribution raises one number
per pool and currency, and tallies account for changes of stake. One instance
spreads rewards over the collateral currencies, another over the vaults of each.
-/

namespace Interbtc

open Core FixedPointNumber

/-- A balance as a fixed-point number. -/
def toFixed {F : Type} [FixedPointNumber F] (amount : ℕ) : Option F := checkedFromInteger amount

/-- A signed integer as a balance. -/
def toBalance (i : ℤ) : Option ℕ := if 0 ≤ i then some i.toNat else none

/-- The configuration of one instance of the reward pallet. -/
class RewardConfig (PoolId StakeId CurrencyId : Type) where
  /-- At most this many currencies are distributed in one pool. -/
  maxRewardCurrencies : ℕ

/-- The storage of one instance of the reward pallet. -/
structure Rewards (PoolId StakeId CurrencyId F : Type) where
  totalStake : PoolId → F
  totalRewards : CurrencyId → F
  rewardPerToken : CurrencyId → PoolId → F
  stake : PoolId → StakeId → F
  rewardTally : CurrencyId → PoolId → StakeId → F
  rewardCurrencies : PoolId → List CurrencyId

namespace Rewards

variable {PoolId StakeId CurrencyId F : Type} [DecidableEq PoolId] [DecidableEq StakeId]
  [DecidableEq CurrencyId]

/-- Storage in which nothing is staked. -/
def default [Zero F] : Rewards PoolId StakeId CurrencyId F where
  totalStake _ := 0
  totalRewards _ := 0
  rewardPerToken _ _ := 0
  stake _ _ := 0
  rewardTally _ _ _ := 0
  rewardCurrencies _ := []

/-! ## Storage entries -/

/-- The stake of a pool. -/
def TotalStake (poolId : PoolId) : Lens (Rewards PoolId StakeId CurrencyId F) F where
  get s := s.totalStake poolId
  set x s := { s with totalStake := Function.update s.totalStake poolId x }

/-- What was distributed of a currency and not yet paid. -/
def TotalRewards (currencyId : CurrencyId) : Lens (Rewards PoolId StakeId CurrencyId F) F where
  get s := s.totalRewards currencyId
  set x s := { s with totalRewards := Function.update s.totalRewards currencyId x }

/-- The reward of each staked token since the start. -/
def RewardPerToken (currencyId : CurrencyId) (poolId : PoolId) :
    Lens (Rewards PoolId StakeId CurrencyId F) F where
  get s := s.rewardPerToken currencyId poolId
  set x s :=
    { s with
      rewardPerToken := Function.update s.rewardPerToken currencyId
        (Function.update (s.rewardPerToken currencyId) poolId x) }

/-- The stake of an account. -/
def Stake (poolId : PoolId) (stakeId : StakeId) :
    Lens (Rewards PoolId StakeId CurrencyId F) F where
  get s := s.stake poolId stakeId
  set x s :=
    { s with
      stake := Function.update s.stake poolId (Function.update (s.stake poolId) stakeId x) }

/-- What an account is not owed of the rewards per token. -/
def RewardTally (currencyId : CurrencyId) (poolId : PoolId) (stakeId : StakeId) :
    Lens (Rewards PoolId StakeId CurrencyId F) F where
  get s := s.rewardTally currencyId poolId stakeId
  set x s :=
    { s with
      rewardTally := Function.update s.rewardTally currencyId
        (Function.update (s.rewardTally currencyId) poolId
          (Function.update (s.rewardTally currencyId poolId) stakeId x)) }

variable [FixedPointNumber F]

/-! ## The pallet's own calls -/

/-- Keep the pending reward in one currency of a stake that grows by `amount`. -/
def addRewardTally (poolId : PoolId) (stakeId : StakeId) (amount : F) (currencyId : CurrencyId) :
    Call DispatchError (Rewards PoolId StakeId CurrencyId F) Unit := do
  let s ← get
  let rewardPerTokenMulAmount ← Call.ofOption (.arithmetic .overflow)
    (checkedMul (s.rewardPerToken currencyId poolId) amount)
  let _ ← checkedAddMut (RewardTally currencyId poolId stakeId) rewardPerTokenMulAmount

/-- Keep the pending reward in one currency of a stake that shrinks by `amount`. -/
def subRewardTally (poolId : PoolId) (stakeId : StakeId) (amount : F) (currencyId : CurrencyId) :
    Call DispatchError (Rewards PoolId StakeId CurrencyId F) Unit := do
  let s ← get
  let rewardPerTokenMulAmount ← Call.ofOption (.arithmetic .overflow)
    (checkedMul (s.rewardPerToken currencyId poolId) amount)
  let _ ← checkedSubMut (RewardTally currencyId poolId stakeId) rewardPerTokenMulAmount

/-- Add stake, and what it is not owed to the tallies. -/
def depositStakeFixed (poolId : PoolId) (stakeId : StakeId) (amount : F) :
    Call DispatchError (Rewards PoolId StakeId CurrencyId F) Unit := do
  let _ ← checkedAddMut (Stake poolId stakeId) amount
  let _ ← checkedAddMut (TotalStake poolId) amount
  let s ← get
  (s.rewardCurrencies poolId).forM (addRewardTally poolId stakeId amount)

/-- Remove stake, and what it is not owed from the tallies. -/
def withdrawStakeFixed (poolId : PoolId) (stakeId : StakeId) (amount : F) :
    Call DispatchError (Rewards PoolId StakeId CurrencyId F) Unit := do
  let s ← get
  Call.ensure (amount ≤ s.stake poolId stakeId) (.reward .insufficientFunds)
  let _ ← checkedSubMut (Stake poolId stakeId) amount
  let _ ← checkedSubMut (TotalStake poolId) amount
  (s.rewardCurrencies poolId).forM (subRewardTally poolId stakeId amount)

/-- Track a currency for later changes of stake. -/
def trackCurrency [RewardConfig PoolId StakeId CurrencyId] (poolId : PoolId)
    (currencyId : CurrencyId) :
    Call DispatchError (Rewards PoolId StakeId CurrencyId F) Unit := do
  let s ← get
  if currencyId ∈ s.rewardCurrencies poolId then
    return
  else
    Call.ensure ((s.rewardCurrencies poolId).length <
        RewardConfig.maxRewardCurrencies PoolId StakeId CurrencyId)
      (.reward .maxRewardCurrencies)
    set { s with
      rewardCurrencies := Function.update s.rewardCurrencies poolId
        (s.rewardCurrencies poolId ++ [currencyId]) }

/-- Spread a reward over the stakes of a pool. -/
def distributeRewardFixed [RewardConfig PoolId StakeId CurrencyId] (poolId : PoolId)
    (currencyId : CurrencyId) (reward : F) :
    Call DispatchError (Rewards PoolId StakeId CurrencyId F) Unit := do
  if reward = 0 then
    return
  else
    let s ← get
    Call.ensure (s.totalStake poolId ≠ 0) (.reward .zeroTotalStake)
    trackCurrency poolId currencyId
    let rewardDivTotalStake ←
      Call.ofOption (.arithmetic .underflow) (checkedDiv reward (s.totalStake poolId))
    let _ ← checkedAddMut (RewardPerToken currencyId poolId) rewardDivTotalStake
    let _ ← checkedAddMut (TotalRewards currencyId) reward

/-- The reward an account is owed, truncated. -/
def computeReward (s : Rewards PoolId StakeId CurrencyId F) (poolId : PoolId) (stakeId : StakeId)
    (currencyId : CurrencyId) : Except DispatchError ℤ := do
  let stakeMulRewardPerToken ← okOr (.arithmetic .overflow)
    (checkedMul (s.stake poolId stakeId) (s.rewardPerToken currencyId poolId))
  let difference ← okOr (.arithmetic .underflow)
    (checkedSub stakeMulRewardPerToken (s.rewardTally currencyId poolId stakeId))
  okOr (.reward .tryIntoIntError) (truncateToInner difference)

/-- Settle the tally of an account, and return what it is owed. -/
def withdrawRewardFixed (poolId : PoolId) (stakeId : StakeId) (currencyId : CurrencyId) :
    Call DispatchError (Rewards PoolId StakeId CurrencyId F) ℤ := do
  let s ← get
  let reward ← Call.ofExcept (s.computeReward poolId stakeId currencyId)
  let rewardAsFixed ← Call.ofOption (.reward .tryIntoIntError) (checkedFromInteger reward)
  let _ ← checkedSubMut (TotalRewards currencyId) rewardAsFixed
  let rewardTally ← Call.ofOption (.arithmetic .overflow)
    (checkedMul (s.stake poolId stakeId) (s.rewardPerToken currencyId poolId))
  modify ((RewardTally currencyId poolId stakeId).set rewardTally)
  return reward

/-! ## The interface in whole balances -/

/-- Distribute the `amount` to all participants, or raise an error if nothing is staked. -/
def distributeReward [RewardConfig PoolId StakeId CurrencyId] (poolId : PoolId)
    (currencyId : CurrencyId) (amount : ℕ) :
    Call DispatchError (Rewards PoolId StakeId CurrencyId F) Unit := do
  let reward ← Call.ofOption (.reward .tryIntoIntError) (toFixed amount)
  distributeRewardFixed poolId currencyId reward

/-- Withdraw all rewards of one stake. -/
def withdrawReward (poolId : PoolId) (stakeId : StakeId) (currencyId : CurrencyId) :
    Call DispatchError (Rewards PoolId StakeId CurrencyId F) ℕ := do
  let reward ← withdrawRewardFixed poolId stakeId currencyId
  Call.ofOption (.reward .tryIntoIntError) (toBalance reward)

/-- The stake of a pool, truncated. -/
def getTotalStake (s : Rewards PoolId StakeId CurrencyId F) (poolId : PoolId) :
    Except DispatchError ℕ := do
  let inner ← okOr (.reward .tryIntoIntError) (truncateToInner (s.totalStake poolId))
  okOr (.reward .tryIntoIntError) (toBalance inner)

/-- The stake of an account, truncated. -/
def getStake (s : Rewards PoolId StakeId CurrencyId F) (poolId : PoolId) (stakeId : StakeId) :
    Except DispatchError ℕ := do
  let inner ← okOr (.reward .tryIntoIntError) (truncateToInner (s.stake poolId stakeId))
  okOr (.reward .tryIntoIntError) (toBalance inner)

/-- Add whole stake. -/
def depositStake (poolId : PoolId) (stakeId : StakeId) (amount : ℕ) :
    Call DispatchError (Rewards PoolId StakeId CurrencyId F) Unit := do
  let amount ← Call.ofOption (.reward .tryIntoIntError) (toFixed amount)
  depositStakeFixed poolId stakeId amount

/-- Remove whole stake. -/
def withdrawStake (poolId : PoolId) (stakeId : StakeId) (amount : ℕ) :
    Call DispatchError (Rewards PoolId StakeId CurrencyId F) Unit := do
  let amount ← Call.ofOption (.reward .tryIntoIntError) (toFixed amount)
  withdrawStakeFixed poolId stakeId amount

/-- Withdraw all of one stake. -/
def withdrawAllStake (poolId : PoolId) (stakeId : StakeId) :
    Call DispatchError (Rewards PoolId StakeId CurrencyId F) ℕ := do
  let s ← get
  let amount ← Call.ofExcept (s.getStake poolId stakeId)
  withdrawStake poolId stakeId amount
  return amount

/-- Set the stake to `amount` whatever it is now. -/
def setStake (poolId : PoolId) (stakeId : StakeId) (amount : ℕ) :
    Call DispatchError (Rewards PoolId StakeId CurrencyId F) Unit := do
  let s ← get
  let currentStake ← Call.ofExcept (s.getStake poolId stakeId)
  if currentStake < amount then
    depositStake poolId stakeId (amount - currentStake)
  else if amount < currentStake then
    withdrawStake poolId stakeId (currentStake - amount)
  else
    return

end Rewards

end Interbtc
