import Interbtc.Core.Call
import Interbtc.Core.FixedPoint
import Interbtc.Primitives

/-!
# Staking pools

The storage of the staking pallet under one nonce and vault, and the parts of
its functions that stay within one such pool.
-/

namespace Interbtc

open Core FixedPointNumber

/-- The storage entries of the staking pallet that share a nonce and a vault. -/
structure Pool (AccountId CurrencyId F : Type) where
  totalStake : F
  totalCurrentStake : F
  totalRewards : CurrencyId → F
  rewardPerToken : CurrencyId → F
  slashPerToken : F
  stake : AccountId → F
  rewardTally : CurrencyId → AccountId → F
  slashTally : AccountId → F

/-- Add to one storage entry and return its new value. -/
def checkedAddMut {σ F : Type} [FixedPointNumber F] (entry : Lens σ F) (amount : F) :
    Call DispatchError σ F := do
  let s ← get
  let value ← Call.ofOption (.arithmetic .overflow) (checkedAdd (entry.get s) amount)
  modify (entry.set value)
  return value

/-- Subtract from one storage entry and return its new value. -/
def checkedSubMut {σ F : Type} [FixedPointNumber F] (entry : Lens σ F) (amount : F) :
    Call DispatchError σ F := do
  let s ← get
  let value ← Call.ofOption (.arithmetic .underflow) (checkedSub (entry.get s) amount)
  modify (entry.set value)
  return value

namespace Pool

variable {AccountId CurrencyId F : Type} [DecidableEq AccountId] [DecidableEq CurrencyId]

/-- The pool of a vault and nonce nothing has been stored under. -/
def default [Zero F] : Pool AccountId CurrencyId F where
  totalStake := 0
  totalCurrentStake := 0
  totalRewards _ := 0
  rewardPerToken _ := 0
  slashPerToken := 0
  stake _ := 0
  rewardTally _ _ := 0
  slashTally _ := 0

/-! ## Storage entries -/

/-- The stakes, without slashes. -/
def TotalStake : Lens (Pool AccountId CurrencyId F) F where
  get p := p.totalStake
  set x p := { p with totalStake := x }

/-- The stakes after slashes. -/
def TotalCurrentStake : Lens (Pool AccountId CurrencyId F) F where
  get p := p.totalCurrentStake
  set x p := { p with totalCurrentStake := x }

/-- What was distributed of a currency and not yet paid. -/
def TotalRewards (currencyId : CurrencyId) : Lens (Pool AccountId CurrencyId F) F where
  get p := p.totalRewards currencyId
  set x p := { p with totalRewards := Function.update p.totalRewards currencyId x }

/-- The reward of each token since the start. -/
def RewardPerToken (currencyId : CurrencyId) : Lens (Pool AccountId CurrencyId F) F where
  get p := p.rewardPerToken currencyId
  set x p := { p with rewardPerToken := Function.update p.rewardPerToken currencyId x }

/-- The slash of each token since the start. -/
def SlashPerToken : Lens (Pool AccountId CurrencyId F) F where
  get p := p.slashPerToken
  set x p := { p with slashPerToken := x }

/-- The stake of a nominator, as last stored. -/
def Stake (nominatorId : AccountId) : Lens (Pool AccountId CurrencyId F) F where
  get p := p.stake nominatorId
  set x p := { p with stake := Function.update p.stake nominatorId x }

/-- What a nominator is not owed of the rewards per token. -/
def RewardTally (currencyId : CurrencyId) (nominatorId : AccountId) :
    Lens (Pool AccountId CurrencyId F) F where
  get p := p.rewardTally currencyId nominatorId
  set x p :=
    { p with
      rewardTally := Function.update p.rewardTally currencyId
        (Function.update (p.rewardTally currencyId) nominatorId x) }

/-- What a nominator does not bear of the slash per token. -/
def SlashTally (nominatorId : AccountId) : Lens (Pool AccountId CurrencyId F) F where
  get p := p.slashTally nominatorId
  set x p := { p with slashTally := Function.update p.slashTally nominatorId x }

variable [FixedPointNumber F]

/-! ## Views -/

/-- The slashes since a stake was last stored. -/
def computeAmountToSlash (stake slashPerToken slashTally : F) : Except DispatchError F := do
  let stakeMulSlashPerToken ← okOr (.arithmetic .overflow) (checkedMul stake slashPerToken)
  okOr (.arithmetic .underflow) (checkedSub stakeMulSlashPerToken slashTally)

/-- The stake of a nominator after slashes, never negative. -/
def computePreciseStake (p : Pool AccountId CurrencyId F) (nominatorId : AccountId) :
    Except DispatchError F := do
  let stake := p.stake nominatorId
  let toSlash ← computeAmountToSlash stake p.slashPerToken (p.slashTally nominatorId)
  let stakeSubToSlash ← okOr (.arithmetic .underflow) (checkedSub stake toSlash)
  return max 0 stakeSubToSlash

/-- Compute the stake owned by `nominatorId`. -/
def computeStake (p : Pool AccountId CurrencyId F) (nominatorId : AccountId) :
    Except DispatchError ℤ := do
  let stake ← p.computePreciseStake nominatorId
  okOr (.staking .tryIntoIntError) (truncateToInner stake)

/-- Compute the expected reward for `nominatorId`. -/
def computeReward (p : Pool AccountId CurrencyId F) (currencyId : CurrencyId)
    (nominatorId : AccountId) : Except DispatchError ℤ := do
  let stake ← p.computePreciseStake nominatorId
  let stakeMulRewardPerToken ←
    okOr (.arithmetic .overflow) (checkedMul stake (p.rewardPerToken currencyId))
  let difference ← okOr (.arithmetic .underflow)
    (checkedSub stakeMulRewardPerToken (p.rewardTally currencyId nominatorId))
  let reward ← okOr (.staking .tryIntoIntError) (truncateToInner difference)
  return max 0 reward

/-! ## Calls -/

/-- Take the pending slash off the stored stake of `nominatorId`. -/
def applySlash (nominatorId : AccountId) : Call DispatchError (Pool AccountId CurrencyId F) F := do
  let p ← get
  let toSlash ← Call.ofExcept
    (computeAmountToSlash (p.stake nominatorId) p.slashPerToken (p.slashTally nominatorId))
  let _ ← checkedSubMut TotalStake toSlash
  let stake ← checkedSubMut (Stake nominatorId) toSlash
  let slashTally ← Call.ofOption (.arithmetic .overflow) (checkedMul stake p.slashPerToken)
  modify ((SlashTally nominatorId).set slashTally)
  return stake

/-- Keep the reward in one currency of a nominator whose stake grows by `amount`. -/
def addRewardTally (nominatorId : AccountId) (amount : F) (currencyId : CurrencyId) :
    Call DispatchError (Pool AccountId CurrencyId F) Unit := do
  let p ← get
  let rewardPerTokenMulAmount ←
    Call.ofOption (.arithmetic .overflow) (checkedMul (p.rewardPerToken currencyId) amount)
  let _ ← checkedAddMut (RewardTally currencyId nominatorId) rewardPerTokenMulAmount

/-- Keep the reward in one currency of a nominator whose stake shrinks by `amount`. -/
def subRewardTally (nominatorId : AccountId) (amount : F) (currencyId : CurrencyId) :
    Call DispatchError (Pool AccountId CurrencyId F) Unit := do
  let p ← get
  let rewardPerTokenMulAmount ←
    Call.ofOption (.arithmetic .overflow) (checkedMul (p.rewardPerToken currencyId) amount)
  let _ ← checkedSubMut (RewardTally currencyId nominatorId) rewardPerTokenMulAmount

/-- The part of `depositStake` after the slash is applied. -/
def addStake (rewardCurrencies : List CurrencyId) (nominatorId : AccountId) (amount : F) :
    Call DispatchError (Pool AccountId CurrencyId F) Unit := do
  let _ ← checkedAddMut (Stake nominatorId) amount
  let _ ← checkedAddMut TotalStake amount
  let _ ← checkedAddMut TotalCurrentStake amount
  let p ← get
  let slashPerTokenMulAmount ←
    Call.ofOption (.arithmetic .overflow) (checkedMul p.slashPerToken amount)
  let _ ← checkedAddMut (SlashTally nominatorId) slashPerTokenMulAmount
  rewardCurrencies.forM (addRewardTally nominatorId amount)

/-- The part of `withdrawStake` after the amount is checked. -/
def removeStake (rewardCurrencies : List CurrencyId) (nominatorId : AccountId) (amount : F) :
    Call DispatchError (Pool AccountId CurrencyId F) Unit := do
  let _ ← checkedSubMut (Stake nominatorId) amount
  let totalStake ← checkedSubMut TotalStake amount
  let _ ← checkedSubMut TotalCurrentStake amount
  -- what rounding left of an emptied pool is dropped
  (if totalStake = 0 then modify (TotalCurrentStake.set 0) else pure ())
  let p ← get
  let slashPerTokenMulAmount ←
    Call.ofOption (.arithmetic .overflow) (checkedMul p.slashPerToken amount)
  let _ ← checkedSubMut (SlashTally nominatorId) slashPerTokenMulAmount
  rewardCurrencies.forM (subRewardTally nominatorId amount)

/-- Spread a reward over the current stakes, if there are any. -/
def increaseRewards (currencyId : CurrencyId) (reward : F) :
    Call DispatchError (Pool AccountId CurrencyId F) F := do
  let p ← get
  if p.totalCurrentStake = 0 then
    return 0
  else
    let rewardDivTotalCurrentStake ←
      Call.ofOption (.arithmetic .underflow) (checkedDiv reward p.totalCurrentStake)
    let _ ← checkedAddMut (RewardPerToken currencyId) rewardDivTotalCurrentStake
    return reward

/-- Distribute again, in one currency, what a slash of `amount` takes from the rewards. -/
def replenishRewards (amount : F) (currencyId : CurrencyId) :
    Call DispatchError (Pool AccountId CurrencyId F) Unit := do
  let p ← get
  let reward ←
    Call.ofOption (.arithmetic .overflow) (checkedMul (p.rewardPerToken currencyId) amount)
  let _ ← increaseRewards currencyId reward

/-- Slash an `amount` of stake from the pool. -/
def slashStake (rewardCurrencies : List CurrencyId) (amount : F) :
    Call DispatchError (Pool AccountId CurrencyId F) Unit := do
  let p ← get
  if amount = 0 then
    return
  else if p.totalStake = 0 then
    throw (.staking .slashZeroTotalStake)
  else
    let amountDivTotalStake ←
      Call.ofOption (.arithmetic .underflow) (checkedDiv amount p.totalStake)
    let _ ← checkedAddMut SlashPerToken amountDivTotalStake
    let _ ← checkedSubMut TotalCurrentStake amount
    -- `amount * rewardPerToken` is lost with the stake, so it is distributed again
    rewardCurrencies.forM (replenishRewards amount)

/-- Distribute the `reward` to all participants. -/
def distributeReward (currencyId : CurrencyId) (reward : F) :
    Call DispatchError (Pool AccountId CurrencyId F) F := do
  let reward ← increaseRewards currencyId reward
  if reward = 0 then
    return 0
  else
    let _ ← checkedAddMut (TotalRewards currencyId) reward
    return reward

/-- The part of `withdrawRewardAtIndex` after the slash is applied. -/
def claimReward (currencyId : CurrencyId) (nominatorId : AccountId) :
    Call DispatchError (Pool AccountId CurrencyId F) ℤ := do
  let p ← get
  let reward ← Call.ofExcept (p.computeReward currencyId nominatorId)
  let rewardAsFixed ← Call.ofOption (.staking .tryIntoIntError) (checkedFromInteger reward)
  let _ ← checkedSubMut (TotalRewards currencyId) rewardAsFixed
  let p ← get
  let rewardTally ← Call.ofOption (.arithmetic .overflow)
    (checkedMul (p.stake nominatorId) (p.rewardPerToken currencyId))
  modify ((RewardTally currencyId nominatorId).set rewardTally)
  return reward

end Pool

end Interbtc
