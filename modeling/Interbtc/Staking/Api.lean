import Interbtc.Reward.Pallet
import Interbtc.Staking.Pallet

/-!
# The staking pallet in whole balances

The interface the other pallets use: amounts are unsigned balances, converted to
and from the fixed-point numbers of the pools.
-/

namespace Interbtc.VaultStaking

open Core FixedPointNumber

variable {AccountId CurrencyId F : Type} [DecidableEq AccountId] [DecidableEq CurrencyId]
  [FixedPointNumber F]

/-- Add stake of a nominator. -/
def depositStake (native : CurrencyId) (vaultId : VaultId AccountId CurrencyId)
    (nominatorId : AccountId) (amount : ℕ) :
    Call DispatchError (Staking AccountId CurrencyId F) Unit := do
  let amount ← Call.ofOption (.staking .tryIntoIntError) (toFixed amount)
  Staking.depositStake native vaultId nominatorId amount

/-- Remove stake of a nominator. -/
def withdrawStake (native : CurrencyId) (nonce : Option ℕ)
    (vaultId : VaultId AccountId CurrencyId) (nominatorId : AccountId) (amount : ℕ) :
    Call DispatchError (Staking AccountId CurrencyId F) Unit := do
  let amount ← Call.ofOption (.staking .tryIntoIntError) (toFixed amount)
  Staking.withdrawStake native vaultId nominatorId amount nonce

/-- Withdraw the precise stake, which leaves no rounding remainder behind. -/
def withdrawAllStake (native : CurrencyId) (nonce : Option ℕ)
    (vaultId : VaultId AccountId CurrencyId) (nominatorId : AccountId) :
    Call DispatchError (Staking AccountId CurrencyId F) ℕ := do
  let s ← get
  let nonce := nonce.getD (s.nonce vaultId)
  let amount ← Call.ofExcept (s.computePreciseStakeAtIndex nonce vaultId nominatorId)
  Staking.withdrawStake native vaultId nominatorId amount (some nonce)
  let inner ← Call.ofOption (.staking .tryIntoIntError) (truncateToInner amount)
  Call.ofOption (.staking .tryIntoIntError) (toBalance inner)

/-- Slash the stake of a vault. -/
def slashStake (native : CurrencyId) (vaultId : VaultId AccountId CurrencyId) (amount : ℕ) :
    Call DispatchError (Staking AccountId CurrencyId F) Unit := do
  let amount ← Call.ofOption (.staking .tryIntoIntError) (toFixed amount)
  Staking.slashStake native vaultId amount

/-- Start a new pool of a vault, with its own stake only. -/
def forceRefund (native : CurrencyId) (vaultId : VaultId AccountId CurrencyId) :
    Call DispatchError (Staking AccountId CurrencyId F) ℕ := do
  let refunded ← Staking.forceRefund native vaultId
  Call.ofOption (.staking .tryIntoIntError) (toBalance refunded)

/-- Distribute a reward among the nominators of a vault. -/
def distributeReward (vaultId : VaultId AccountId CurrencyId) (currencyId : CurrencyId)
    (amount : ℕ) : Call DispatchError (Staking AccountId CurrencyId F) Unit := do
  let amount ← Call.ofOption (.staking .tryIntoIntError) (toFixed amount)
  let reward ← Staking.distributeReward currencyId vaultId amount
  let inner ← Call.ofOption (.staking .tryIntoIntError) (truncateToInner reward)
  let _ ← Call.ofOption (.staking .tryIntoIntError) (toBalance inner)

/-- Pay the reward of a nominator. -/
def withdrawReward (nonce : Option ℕ) (vaultId : VaultId AccountId CurrencyId)
    (nominatorId : AccountId) (currencyId : CurrencyId) :
    Call DispatchError (Staking AccountId CurrencyId F) ℕ := do
  let reward ← Staking.withdrawReward nonce currencyId vaultId nominatorId
  Call.ofOption (.staking .tryIntoIntError) (toBalance reward)

/-- The stake of the current pool of a vault, truncated. -/
def getTotalStake (s : Staking AccountId CurrencyId F) (vaultId : VaultId AccountId CurrencyId) :
    Except DispatchError ℕ := do
  let inner ← okOr (.staking .tryIntoIntError)
    (truncateToInner (s.pool vaultId (s.nonce vaultId)).totalCurrentStake)
  okOr (.staking .tryIntoIntError) (toBalance inner)

/-- The stake of a nominator after slashes, truncated. -/
def getStake (s : Staking AccountId CurrencyId F) (nonce : Option ℕ)
    (vaultId : VaultId AccountId CurrencyId) (nominatorId : AccountId) :
    Except DispatchError ℕ := do
  let inner ← s.computeStakeAtIndex (nonce.getD (s.nonce vaultId)) vaultId nominatorId
  okOr (.staking .tryIntoIntError) (toBalance inner)

end Interbtc.VaultStaking
