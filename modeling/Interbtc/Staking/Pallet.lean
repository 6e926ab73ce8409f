import Interbtc.Core.Run
import Interbtc.Staking.Pool

/-!
# The staking pallet

Every vault has a pool for each nonce it has used. Deposits, slashes and
distributions go to the pool of the current nonce; a withdrawal names a nonce.
-/

namespace Interbtc

open Core FixedPointNumber

/-- The storage of the staking pallet. -/
structure Staking (AccountId CurrencyId F : Type) where
  nonce : VaultId AccountId CurrencyId → ℕ
  pool : VaultId AccountId CurrencyId → ℕ → Pool AccountId CurrencyId F

namespace Staking

variable {AccountId CurrencyId F : Type} [DecidableEq AccountId] [DecidableEq CurrencyId]

/-- The pools of one vault. -/
def poolAt (vaultId : VaultId AccountId CurrencyId) (nonce : ℕ) :
    Lens (Staking AccountId CurrencyId F) (Pool AccountId CurrencyId F) where
  get s := s.pool vaultId nonce
  set p s :=
    { s with pool := Function.update s.pool vaultId (Function.update (s.pool vaultId) nonce p) }

/-- Storage in which no vault has been staked for. -/
def default [Zero F] : Staking AccountId CurrencyId F where
  nonce _ := 0
  pool _ _ := .default

/-- The reward currencies whose tallies follow the stake of a vault. -/
def rewardCurrencies (native : CurrencyId) (vaultId : VaultId AccountId CurrencyId) :
    List CurrencyId :=
  [vaultId.wrappedCurrency, native]

/-- Nonces are 32 bits wide. -/
def maxNonce : ℕ := 2 ^ 32 - 1

variable [FixedPointNumber F]

/-! ## Views -/

/-- The stake of a nominator after slashes. -/
def computePreciseStakeAtIndex (s : Staking AccountId CurrencyId F) (nonce : ℕ)
    (vaultId : VaultId AccountId CurrencyId) (nominatorId : AccountId) : Except DispatchError F :=
  (s.pool vaultId nonce).computePreciseStake nominatorId

/-- The stake of a nominator after slashes, truncated. -/
def computeStakeAtIndex (s : Staking AccountId CurrencyId F) (nonce : ℕ)
    (vaultId : VaultId AccountId CurrencyId) (nominatorId : AccountId) : Except DispatchError ℤ :=
  (s.pool vaultId nonce).computeStake nominatorId

/-- The reward a nominator is owed. -/
def computeRewardAtIndex (s : Staking AccountId CurrencyId F) (nonce : ℕ)
    (currencyId : CurrencyId) (vaultId : VaultId AccountId CurrencyId) (nominatorId : AccountId) :
    Except DispatchError ℤ :=
  (s.pool vaultId nonce).computeReward currencyId nominatorId

/-! ## Calls -/

/-- Apply the slash of the current pool, whichever pool the caller goes on with. -/
def applySlash (vaultId : VaultId AccountId CurrencyId) (nominatorId : AccountId) :
    Call DispatchError (Staking AccountId CurrencyId F) F := do
  let s ← get
  (poolAt vaultId (s.nonce vaultId)).zoom (Pool.applySlash nominatorId)

/-- Deposit an `amount` of stake to the `vaultId` for the `nominatorId`. -/
def depositStake (native : CurrencyId) (vaultId : VaultId AccountId CurrencyId)
    (nominatorId : AccountId) (amount : F) :
    Call DispatchError (Staking AccountId CurrencyId F) Unit := do
  let s ← get
  let _ ← applySlash vaultId nominatorId
  (poolAt vaultId (s.nonce vaultId)).zoom
    (Pool.addStake (rewardCurrencies native vaultId) nominatorId amount)

/-- Slash an `amount` of stake from the `vaultId`. -/
def slashStake (native : CurrencyId) (vaultId : VaultId AccountId CurrencyId) (amount : F) :
    Call DispatchError (Staking AccountId CurrencyId F) Unit := do
  let s ← get
  (poolAt vaultId (s.nonce vaultId)).zoom
    (Pool.slashStake (rewardCurrencies native vaultId) amount)

/-- Distribute the `reward` to all participants. -/
def distributeReward (currencyId : CurrencyId) (vaultId : VaultId AccountId CurrencyId)
    (reward : F) : Call DispatchError (Staking AccountId CurrencyId F) F := do
  let s ← get
  (poolAt vaultId (s.nonce vaultId)).zoom (Pool.distributeReward currencyId reward)

/-- Withdraw an `amount` of stake from the pool of `index`, or from the current pool. -/
def withdrawStake (native : CurrencyId) (vaultId : VaultId AccountId CurrencyId)
    (nominatorId : AccountId) (amount : F) (index : Option ℕ) :
    Call DispatchError (Staking AccountId CurrencyId F) Unit := do
  let s ← get
  let nonce := index.getD (s.nonce vaultId)
  let stake ← applySlash vaultId nominatorId
  if amount = 0 then
    return
  else if stake < amount then
    throw (.staking .insufficientFunds)
  else
    (poolAt vaultId nonce).zoom
      (Pool.removeStake (rewardCurrencies native vaultId) nominatorId amount)

/-- Withdraw all rewards earned in the pool of `nonce`. -/
def withdrawRewardAtIndex (nonce : ℕ) (currencyId : CurrencyId)
    (vaultId : VaultId AccountId CurrencyId) (nominatorId : AccountId) :
    Call DispatchError (Staking AccountId CurrencyId F) ℤ := do
  let _ ← applySlash vaultId nominatorId
  (poolAt vaultId nonce).zoom (Pool.claimReward currencyId nominatorId)

/-- Withdraw all rewards earned in the pool of `index`, or in the current pool. -/
def withdrawReward (index : Option ℕ) (currencyId : CurrencyId)
    (vaultId : VaultId AccountId CurrencyId) (nominatorId : AccountId) :
    Call DispatchError (Staking AccountId CurrencyId F) ℤ := do
  let s ← get
  withdrawRewardAtIndex (index.getD (s.nonce vaultId)) currencyId vaultId nominatorId

/-- Start a new pool. -/
def incrementNonce (vaultId : VaultId AccountId CurrencyId) :
    Call DispatchError (Staking AccountId CurrencyId F) Unit := do
  let s ← get
  Call.ensure (s.nonce vaultId < maxNonce) (.arithmetic .overflow)
  set { s with nonce := Function.update s.nonce vaultId (s.nonce vaultId + 1) }

/-- Force refund the entire nomination: the vault's own stake moves to a new pool, the
nominators withdraw from the old one. Returns the collateral that is refunded. -/
def forceRefund (native : CurrencyId) (vaultId : VaultId AccountId CurrencyId) :
    Call DispatchError (Staking AccountId CurrencyId F) ℤ := do
  let s ← get
  let nonce := s.nonce vaultId
  let totalCurrentStake := (s.pool vaultId nonce).totalCurrentStake
  let computed ← Call.ofExcept (s.computeStakeAtIndex nonce vaultId vaultId.accountId)
  let stake ← Call.ofOption (.staking .tryIntoIntError) (checkedFromInteger computed)
  withdrawStake native vaultId vaultId.accountId stake (some nonce)
  incrementNonce vaultId
  -- only deposit the vault's stake after increasing the nonce
  depositStake native vaultId vaultId.accountId stake
  let refunded ← Call.ofOption (.arithmetic .underflow) (checkedSub totalCurrentStake stake)
  Call.ofOption (.staking .tryIntoIntError) (truncateToInner refunded)

/-! ## Operations -/

/-- The operations other pallets call. Amounts come from unsigned balances or from a stake. -/
inductive Op (AccountId CurrencyId F : Type) [FixedPointNumber F]
  | depositStake (vaultId : VaultId AccountId CurrencyId) (nominatorId : AccountId)
      (amount : {a : F // 0 ≤ a})
  | withdrawStake (vaultId : VaultId AccountId CurrencyId) (nominatorId : AccountId)
      (amount : {a : F // 0 ≤ a}) (index : Option ℕ)
  | slashStake (vaultId : VaultId AccountId CurrencyId) (amount : {a : F // 0 ≤ a})
  | distributeReward (currencyId : CurrencyId) (vaultId : VaultId AccountId CurrencyId)
      (reward : {a : F // 0 ≤ a})
  | withdrawReward (index : Option ℕ) (currencyId : CurrencyId)
      (vaultId : VaultId AccountId CurrencyId) (nominatorId : AccountId)
  | forceRefund (vaultId : VaultId AccountId CurrencyId)

/-- The call of an operation, its result dropped. -/
def Op.call (native : CurrencyId) : Op AccountId CurrencyId F →
    Call DispatchError (Staking AccountId CurrencyId F) Unit
  | .depositStake v n amount => Staking.depositStake native v n amount.1
  | .withdrawStake v n amount index => Staking.withdrawStake native v n amount.1 index
  | .slashStake v amount => Staking.slashStake native v amount.1
  | .distributeReward c v reward => do let _ ← Staking.distributeReward c v reward.1
  | .withdrawReward index c v n => do let _ ← Staking.withdrawReward index c v n
  | .forceRefund v => do let _ ← Staking.forceRefund native v

/-- One operation as a transaction: a failed one changes nothing. -/
def step (native : CurrencyId) (s : Staking AccountId CurrencyId F)
    (op : Op AccountId CurrencyId F) : Staking AccountId CurrencyId F :=
  (op.call native).commit s

end Staking

end Interbtc
