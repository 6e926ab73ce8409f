import Interbtc.Currency.Tokens
import Interbtc.Reward.Api

/-!
# Farming

Root sets up reward schedules: a pool of liquidity tokens gets an amount of a reward currency in
each period, for a number of periods. The tokens are paid in from the treasury in advance. Users
reserve their liquidity tokens to stake them, and claim their share of what was distributed.
-/

namespace Interbtc

open Core MultiCurrency RewardsApi

/-- Errors of the farming pallet, and of the pallets that it calls. -/
inductive FarmingError
  | insufficientStake
  | badRewardLength
  | badOrigin
  | dispatch (e : DispatchError)
  deriving DecidableEq, Repr

/-! ## Schedules -/

/-- What is still released of a reward. -/
structure RewardSchedule where
  /-- Number of periods remaining. -/
  periodCount : ℕ
  /-- Amount of tokens to release. -/
  perPeriod : ℕ
  deriving DecidableEq

namespace RewardSchedule

/-- Nothing is released. -/
def default : RewardSchedule := ⟨0, 0⟩

/-- Returns total amount to distribute, `none` if the calculation overflows. -/
def total (schedule : RewardSchedule) : Option ℕ :=
  if schedule.perPeriod * schedule.periodCount ≤ maxBalance then
    some (schedule.perPeriod * schedule.periodCount)
  else none

/-- Take the next reward and decrement the period count. -/
def take (schedule : RewardSchedule) : Option (ℕ × RewardSchedule) :=
  if 0 < schedule.periodCount then
    some (schedule.perPeriod, { schedule with periodCount := schedule.periodCount - 1 })
  else none

end RewardSchedule

/-! ## Configuration -/

/-- The accounts and the period that the pallet is configured with. The order in which the storage
iterates over the schedules is fixed by the hashes of their keys. -/
class FarmingConfig (AccountId CurrencyId : Type) where
  /-- The account that is derived from a pool's currency. -/
  poolAccountId : CurrencyId → AccountId
  treasuryAccountId : AccountId
  rewardPeriod : ℕ
  /-- The two currencies of a liquidity token in their order. -/
  sort : CurrencyId → CurrencyId
  keyOrder : List (CurrencyId × CurrencyId)
  poolAccountId_injective : Function.Injective poolAccountId
  treasury_ne_pool : ∀ p, treasuryAccountId ≠ poolAccountId p
  rewardPeriod_pos : 0 < rewardPeriod
  keyOrder_nodup : keyOrder.Nodup
  mem_keyOrder : ∀ key, key ∈ keyOrder

open FarmingConfig

/-- Root or an account that signs. Nobody has a key of the pools' accounts. -/
inductive FarmingOrigin (AccountId CurrencyId : Type) [FarmingConfig AccountId CurrencyId]
  | root
  | signed (who : {who : AccountId // ∀ p : CurrencyId, who ≠ poolAccountId p})

/-- The token balances, the reward pools and the schedules. -/
structure Farming (CurrencyId Tokens Pools : Type) where
  tokens : Tokens
  rewardPools : Pools
  rewardSchedules : CurrencyId → CurrencyId → Option RewardSchedule

/-- A call of the pallet. -/
abbrev FarmingCall (CurrencyId Tokens Pools α : Type) : Type :=
  Call FarmingError (Farming CurrencyId Tokens Pools) α

namespace Farming

variable {AccountId CurrencyId Tokens Pools : Type} [DecidableEq AccountId]
  [DecidableEq CurrencyId] [MultiCurrency Tokens AccountId CurrencyId]
  [RewardsApi Pools CurrencyId AccountId CurrencyId] [FarmingConfig AccountId CurrencyId]

/-! ## Storage -/

/-- The token balances. -/
def tokensLens : Lens (Farming CurrencyId Tokens Pools) Tokens where
  get s := s.tokens
  set x s := { s with tokens := x }

/-- The reward pools. -/
def poolsLens : Lens (Farming CurrencyId Tokens Pools) Pools where
  get s := s.rewardPools
  set x s := { s with rewardPools := x }

/-- A call on the token balances. -/
def withTokens {α : Type} (x : Call TokensError Tokens α) : FarmingCall CurrencyId Tokens Pools α :=
  Call.mapError (fun e => .dispatch (.tokens e)) (tokensLens.zoom x)

/-- A call on the reward pools. -/
def withPools {α : Type} (x : Call DispatchError Pools α) : FarmingCall CurrencyId Tokens Pools α :=
  Call.mapError .dispatch (poolsLens.zoom x)

/-- Unreserve an amount; what could not be unreserved is returned. -/
def unreserve (currencyId : CurrencyId) (who : AccountId) (amount : ℕ) :
    FarmingCall CurrencyId Tokens Pools ℕ := do
  let s ← get
  let (remaining, tokens) := MultiCurrency.unreserve currencyId who amount s.tokens
  set { s with tokens := tokens }
  pure remaining

/-- A schedule, which is empty where there is none. -/
def schedule (s : Farming CurrencyId Tokens Pools) (poolCurrencyId rewardCurrencyId : CurrencyId) :
    RewardSchedule :=
  (s.rewardSchedules poolCurrencyId rewardCurrencyId).getD .default

/-- Store or forget the schedule of a pool and a reward. -/
def setSchedule (poolCurrencyId rewardCurrencyId : CurrencyId) (schedule : Option RewardSchedule)
    (s : Farming CurrencyId Tokens Pools) : Farming CurrencyId Tokens Pools :=
  { s with
    rewardSchedules := Function.update s.rewardSchedules poolCurrencyId
      (Function.update (s.rewardSchedules poolCurrencyId) rewardCurrencyId schedule) }

/-- The free tokens of an account. -/
def freeBalance (s : Farming CurrencyId Tokens Pools) (currencyId : CurrencyId)
    (who : AccountId) : ℕ := (balances s.tokens who currencyId).free

/-- The schedules with their keys, in the order of the storage. -/
def schedules (AccountId : Type) [FarmingConfig AccountId CurrencyId]
    (s : Farming CurrencyId Tokens Pools) : List ((CurrencyId × CurrencyId) × RewardSchedule) :=
  (keyOrder AccountId).filterMap fun key =>
    (s.rewardSchedules key.1 key.2).map fun schedule => (key, schedule)

/-- What is still released of a reward, zero where it does not fit. -/
def totalRewards (AccountId : Type) [FarmingConfig AccountId CurrencyId]
    (s : Farming CurrencyId Tokens Pools) (poolCurrencyId rewardCurrencyId : CurrencyId) : ℕ :=
  ((s.schedule (FarmingConfig.sort AccountId poolCurrencyId) rewardCurrencyId).total).getD 0

/-! ## Blocks -/

/-- Distribute a reward, or change nothing. -/
def tryDistributeReward (poolCurrencyId rewardCurrencyId : CurrencyId) (amount : ℕ) :
    FarmingCall CurrencyId Tokens Pools Unit :=
  (withPools (distributeReward poolCurrencyId rewardCurrencyId amount)).transactional

/-- Distribute the next reward of one schedule. The schedule stays as it is if that fails, and it
is removed after its last period. -/
def distributeSchedule (entry : (CurrencyId × CurrencyId) × RewardSchedule) :
    FarmingCall CurrencyId Tokens Pools Unit := do
  match entry.2.take with
  | some (amount, schedule) => do
    let result ← (tryDistributeReward entry.1.1 entry.1.2 amount).attempt
    match result with
    | .ok _ => modify (setSchedule entry.1.1 entry.1.2 (some schedule))
    | .error _ => pure ()
  | none => modify (setSchedule entry.1.1 entry.1.2 none)

/-- The schedules are read first, as they are changed on the way. -/
def onInitialize (AccountId : Type) [FarmingConfig AccountId CurrencyId]
    [RewardsApi Pools CurrencyId AccountId CurrencyId] (now : ℕ) :
    FarmingCall CurrencyId Tokens Pools Unit := do
  if now % rewardPeriod AccountId CurrencyId = 0 then do
    let s ← get
    (s.schedules AccountId).forM distributeSchedule
  else pure ()

/-! ## Calls -/

/-- Only the root may call. -/
def ensureRoot (origin : FarmingOrigin AccountId CurrencyId) :
    FarmingCall CurrencyId Tokens Pools Unit :=
  match origin with
  | .root => pure ()
  | .signed _ => throw .badOrigin

/-- Only an account may call, which is none of the pools. -/
def ensureSigned (origin : FarmingOrigin AccountId CurrencyId) :
    FarmingCall CurrencyId Tokens Pools
      {who : AccountId // ∀ p : CurrencyId, who ≠ poolAccountId p} :=
  match origin with
  | .root => throw .badOrigin
  | .signed who => pure who

/-- Create a schedule, or add the periods to it. What is free in the account of the pool is spread
over all periods. -/
def updateRewardSchedule (origin : FarmingOrigin AccountId CurrencyId)
    (poolCurrencyId rewardCurrencyId : CurrencyId) (periodCount amount : ℕ) :
    FarmingCall CurrencyId Tokens Pools Unit := do
  ensureRoot origin
  let poolCurrencyId := FarmingConfig.sort AccountId poolCurrencyId
  let poolAccount : AccountId := poolAccountId poolCurrencyId
  withTokens (transfer rewardCurrencyId (treasuryAccountId CurrencyId) poolAccount amount)
  let s ← get
  let rewardSchedule := s.schedule poolCurrencyId rewardCurrencyId
  Call.ensure (rewardSchedule.periodCount + periodCount < 2 ^ 32)
    (.dispatch (.arithmetic .overflow))
  let totalPeriodCount := rewardSchedule.periodCount + periodCount
  let totalFree := s.freeBalance rewardCurrencyId poolAccount
  -- no periods give no reward
  let totalPerPeriod := totalFree / totalPeriodCount
  modify (setSchedule poolCurrencyId rewardCurrencyId (some ⟨totalPeriodCount, totalPerPeriod⟩))

/-- Explicitly remove a reward schedule and transfer any remaining balance to the treasury. -/
def removeRewardSchedule (origin : FarmingOrigin AccountId CurrencyId)
    (poolCurrencyId rewardCurrencyId : CurrencyId) : FarmingCall CurrencyId Tokens Pools Unit := do
  ensureRoot origin
  let poolCurrencyId := FarmingConfig.sort AccountId poolCurrencyId
  let poolAccount : AccountId := poolAccountId poolCurrencyId
  let s ← get
  withTokens (transfer rewardCurrencyId poolAccount (treasuryAccountId CurrencyId)
    (s.freeBalance rewardCurrencyId poolAccount))
  modify (setSchedule poolCurrencyId rewardCurrencyId none)

/-- Stake all pool tokens in the reward pool. -/
def deposit (origin : FarmingOrigin AccountId CurrencyId) (poolCurrencyId : CurrencyId)
    (lengthRewards : ℕ) : FarmingCall CurrencyId Tokens Pools Unit := do
  let who ← ensureSigned origin
  let poolCurrencyId := FarmingConfig.sort AccountId poolCurrencyId
  let s ← get
  Call.ensure (rewardCurrenciesLen s.rewardPools poolCurrencyId ≤ lengthRewards) .badRewardLength
  let amount := s.freeBalance poolCurrencyId who.1
  withTokens (reserve poolCurrencyId who.1 amount)
  withPools (depositStake poolCurrencyId who.1 amount)

/-- Unstake the pool tokens from the reward pool. -/
def withdraw (origin : FarmingOrigin AccountId CurrencyId) (poolCurrencyId : CurrencyId)
    (amount lengthRewards : ℕ) : FarmingCall CurrencyId Tokens Pools Unit := do
  let who ← ensureSigned origin
  let poolCurrencyId := FarmingConfig.sort AccountId poolCurrencyId
  let s ← get
  Call.ensure (rewardCurrenciesLen s.rewardPools poolCurrencyId ≤ lengthRewards) .badRewardLength
  let remaining ← unreserve poolCurrencyId who.1 amount
  Call.ensure (remaining = 0) .insufficientStake
  withPools (withdrawStake poolCurrencyId who.1 amount)

/-- Withdraw any accrued rewards from the reward pool. -/
def claim (origin : FarmingOrigin AccountId CurrencyId)
    (poolCurrencyId rewardCurrencyId : CurrencyId) : FarmingCall CurrencyId Tokens Pools Unit := do
  let who ← ensureSigned origin
  let poolCurrencyId := FarmingConfig.sort AccountId poolCurrencyId
  let poolAccount : AccountId := poolAccountId poolCurrencyId
  let reward ← withPools (withdrawReward poolCurrencyId who.1 rewardCurrencyId)
  withTokens (transfer rewardCurrencyId poolAccount who.1 reward)

end Farming

/-- The calls of the pallet, its hook, and a transfer by somebody who has the key to do it. -/
inductive FarmingOp (AccountId CurrencyId : Type) [FarmingConfig AccountId CurrencyId]
  | onInitialize (now : ℕ)
  | updateRewardSchedule (origin : FarmingOrigin AccountId CurrencyId)
      (poolCurrencyId rewardCurrencyId : CurrencyId) (periodCount amount : ℕ)
  | removeRewardSchedule (origin : FarmingOrigin AccountId CurrencyId)
      (poolCurrencyId rewardCurrencyId : CurrencyId)
  | deposit (origin : FarmingOrigin AccountId CurrencyId) (poolCurrencyId : CurrencyId)
      (lengthRewards : ℕ)
  | withdraw (origin : FarmingOrigin AccountId CurrencyId) (poolCurrencyId : CurrencyId)
      (amount lengthRewards : ℕ)
  | claim (origin : FarmingOrigin AccountId CurrencyId)
      (poolCurrencyId rewardCurrencyId : CurrencyId)
  | transfer (who : {who : AccountId // ∀ p : CurrencyId, who ≠ poolAccountId p})
      (dest : AccountId) (currencyId : CurrencyId) (amount : ℕ)

namespace Farming

variable {AccountId CurrencyId Tokens Pools : Type} [DecidableEq AccountId]
  [DecidableEq CurrencyId] [MultiCurrency Tokens AccountId CurrencyId]
  [RewardsApi Pools CurrencyId AccountId CurrencyId] [FarmingConfig AccountId CurrencyId]

/-- What each call does. -/
def dispatch : FarmingOp AccountId CurrencyId → FarmingCall CurrencyId Tokens Pools Unit
  | .onInitialize now => onInitialize AccountId now
  | .updateRewardSchedule origin poolCurrencyId rewardCurrencyId periodCount amount =>
    updateRewardSchedule origin poolCurrencyId rewardCurrencyId periodCount amount
  | .removeRewardSchedule origin poolCurrencyId rewardCurrencyId =>
    removeRewardSchedule origin poolCurrencyId rewardCurrencyId
  | .deposit origin poolCurrencyId lengthRewards => deposit origin poolCurrencyId lengthRewards
  | .withdraw origin poolCurrencyId amount lengthRewards =>
    withdraw origin poolCurrencyId amount lengthRewards
  | .claim origin poolCurrencyId rewardCurrencyId => claim origin poolCurrencyId rewardCurrencyId
  | .transfer who dest currencyId amount =>
    withTokens (MultiCurrency.transfer currencyId who.1 dest amount)

/-- One operation as a transaction: a failed one changes nothing. -/
def step (s : Farming CurrencyId Tokens Pools) (op : FarmingOp AccountId CurrencyId) :
    Farming CurrencyId Tokens Pools :=
  (dispatch op).commit s

end Farming

end Interbtc
