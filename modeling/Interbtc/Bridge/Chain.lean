import Interbtc.Currency.Actions
import Interbtc.Staking.Api
import Interbtc.Vault.Calls

/-!
# The state of the bridge

The storage of the pallets that issue, redeem and replace wrapped tokens, the calls
that stay within one of them, and the distribution of rewards to the vaults.
-/

namespace Interbtc

open Core

/-! ## Requests -/

/-- How an issue request stands. -/
inductive IssueRequestStatus
  | pending
  | completed
  | cancelled
  deriving DecidableEq

/-- A request to issue tokens for a payment in Bitcoin. -/
structure IssueRequest (AccountId CurrencyId : Type) where
  vault : VaultId AccountId CurrencyId
  opentime : ℕ
  period : ℕ
  griefingCollateral : ℕ
  griefingCurrency : CurrencyId
  /-- What the requester gets. -/
  amount : ℕ
  /-- What the fee pool gets. -/
  fee : ℕ
  requester : AccountId
  btcAddress : BtcAddress
  btcHeight : ℕ
  status : IssueRequestStatus
  deriving DecidableEq

namespace IssueRequest

variable {AccountId CurrencyId : Type}

/-- What the requester gets. -/
def amountIssued (r : IssueRequest AccountId CurrencyId) : Amount CurrencyId :=
  ⟨r.amount, r.vault.wrappedCurrency⟩

/-- What the fee pool gets. -/
def feeIssued (r : IssueRequest AccountId CurrencyId) : Amount CurrencyId :=
  ⟨r.fee, r.vault.wrappedCurrency⟩

/-- What the requester loses if the payment is not made. -/
def griefing (r : IssueRequest AccountId CurrencyId) : Amount CurrencyId :=
  ⟨r.griefingCollateral, r.griefingCurrency⟩

end IssueRequest

/-- How a redeem request stands. -/
inductive RedeemRequestStatus
  | pending
  | completed
  /-- The flag tells that the vault got the tokens that the redeemer lost. -/
  | reimbursed (minted : Bool)
  | retried
  deriving DecidableEq

/-- A request to redeem tokens for a payment in Bitcoin. -/
structure RedeemRequest (AccountId CurrencyId : Type) where
  vault : VaultId AccountId CurrencyId
  opentime : ℕ
  period : ℕ
  fee : ℕ
  transferFeeBtc : ℕ
  amountBtc : ℕ
  /-- Collateral the redeemer gets for redeeming with a vault that is short of it. -/
  premium : ℕ
  redeemer : AccountId
  btcAddress : BtcAddress
  btcHeight : ℕ
  status : RedeemRequestStatus
  deriving DecidableEq

namespace RedeemRequest

variable {AccountId CurrencyId : Type}

/-- What the vault has to pay. -/
def btcToSend (r : RedeemRequest AccountId CurrencyId) : Amount CurrencyId :=
  ⟨r.amountBtc, r.vault.wrappedCurrency⟩

/-- What the fee pool gets. -/
def feeTaken (r : RedeemRequest AccountId CurrencyId) : Amount CurrencyId :=
  ⟨r.fee, r.vault.wrappedCurrency⟩

/-- What the payment in Bitcoin costs. -/
def transferFee (r : RedeemRequest AccountId CurrencyId) : Amount CurrencyId :=
  ⟨r.transferFeeBtc, r.vault.wrappedCurrency⟩

/-- What the redeemer gets of the collateral of the vault. -/
def premiumPaid (r : RedeemRequest AccountId CurrencyId) : Amount CurrencyId :=
  ⟨r.premium, r.vault.collateralCurrency⟩

end RedeemRequest

/-- How a replace request stands. -/
inductive ReplaceRequestStatus
  | pending
  | completed
  | cancelled
  deriving DecidableEq

/-- An accepted request that one vault takes tokens over from another. -/
structure ReplaceRequest (AccountId CurrencyId : Type) where
  oldVault : VaultId AccountId CurrencyId
  newVault : VaultId AccountId CurrencyId
  amount : ℕ
  griefingCollateral : ℕ
  /-- Additional collateral of the new vault. -/
  collateral : ℕ
  acceptTime : ℕ
  period : ℕ
  btcAddress : BtcAddress
  btcHeight : ℕ
  status : ReplaceRequestStatus
  deriving DecidableEq

namespace ReplaceRequest

variable {AccountId CurrencyId : Type}

/-- What is taken over. -/
def amountReplaced (r : ReplaceRequest AccountId CurrencyId) : Amount CurrencyId :=
  ⟨r.amount, r.oldVault.wrappedCurrency⟩

/-- What the old vault loses if it does not pay. -/
def griefing [CurrencyConfig CurrencyId] (r : ReplaceRequest AccountId CurrencyId) :
    Amount CurrencyId :=
  ⟨r.griefingCollateral, CurrencyConfig.griefingCollateral⟩

/-- What the new vault adds as collateral. -/
def collateralAdded (r : ReplaceRequest AccountId CurrencyId) : Amount CurrencyId :=
  ⟨r.collateral, r.newVault.collateralCurrency⟩

end ReplaceRequest

/-! ## State -/

/-- Rewards are spread over the collateral currencies, then over the vaults of a currency,
then over the nominators of a vault. -/
structure Pools (AccountId CurrencyId F : Type) where
  capacityRewards : Rewards Unit CurrencyId CurrencyId F
  vaultRewards : Rewards CurrencyId (VaultId AccountId CurrencyId) CurrencyId F
  vaultStaking : Staking AccountId CurrencyId F

section Config

variable {AccountId CurrencyId : Type} [CurrencyConfig CurrencyId]

instance : RewardConfig Unit CurrencyId CurrencyId where
  maxRewardCurrencies := CurrencyConfig.maxCapacityRewardCurrencies CurrencyId

instance : RewardConfig CurrencyId (VaultId AccountId CurrencyId) CurrencyId where
  maxRewardCurrencies := CurrencyConfig.maxVaultRewardCurrencies CurrencyId

end Config

/-- The storage of the nomination pallet. -/
structure Nomination (AccountId CurrencyId : Type) where
  isOptedIn : VaultId AccountId CurrencyId → Bool
  nominationLimit : VaultId AccountId CurrencyId → ℕ

/-- The storage of the pallets of the bridge. -/
structure Chain (AccountId CurrencyId H256 F Tokens : Type) where
  tokens : Tokens
  pools : Pools AccountId CurrencyId F
  registry : VaultRegistry AccountId CurrencyId
  nomination : Nomination AccountId CurrencyId
  commission : VaultId AccountId CurrencyId → Option FixedU128
  issueRequests : H256 → Option (IssueRequest AccountId CurrencyId)
  redeemRequests : H256 → Option (RedeemRequest AccountId CurrencyId)
  replaceRequests : H256 → Option (ReplaceRequest AccountId CurrencyId)

namespace Chain

variable {AccountId CurrencyId H256 F Tokens α : Type} [DecidableEq AccountId]
  [DecidableEq CurrencyId] [DecidableEq H256] [FixedPointNumber F]
  [MultiCurrency Tokens AccountId CurrencyId] [CurrencyConfig CurrencyId]
  [AccountConfig AccountId]

/-- The chain before its first block: no vault, no request, and whatever balances there are. -/
def genesis (tokens : Tokens) : Chain AccountId CurrencyId H256 F Tokens where
  tokens := tokens
  pools := ⟨.default, .default, .default⟩
  registry := .default
  nomination := ⟨fun _ => false, fun _ => 0⟩
  commission _ := none
  issueRequests _ := none
  redeemRequests _ := none
  replaceRequests _ := none

/-! ### Parts of the state -/

/-- The token balances. -/
def TokensPart : Lens (Chain AccountId CurrencyId H256 F Tokens) Tokens where
  get s := s.tokens
  set x s := { s with tokens := x }

/-- The vault registry. -/
def RegistryPart : Lens (Chain AccountId CurrencyId H256 F Tokens)
    (VaultRegistry AccountId CurrencyId) where
  get s := s.registry
  set x s := { s with registry := x }

/-- The rewards of the collateral currencies. -/
def CapacityRewards : Lens (Chain AccountId CurrencyId H256 F Tokens)
    (Rewards Unit CurrencyId CurrencyId F) where
  get s := s.pools.capacityRewards
  set x s := { s with pools := { s.pools with capacityRewards := x } }

/-- The rewards of the vaults of a collateral currency. -/
def VaultRewards : Lens (Chain AccountId CurrencyId H256 F Tokens)
    (Rewards CurrencyId (VaultId AccountId CurrencyId) CurrencyId F) where
  get s := s.pools.vaultRewards
  set x s := { s with pools := { s.pools with vaultRewards := x } }

/-- The stakes of the nominators of a vault. -/
def VaultStaking : Lens (Chain AccountId CurrencyId H256 F Tokens)
    (Staking AccountId CurrencyId F) where
  get s := s.pools.vaultStaking
  set x s := { s with pools := { s.pools with vaultStaking := x } }

/-- A call on the whole state. -/
abbrev ChainCall (AccountId CurrencyId H256 F Tokens α : Type) : Type :=
  Call DispatchError (Chain AccountId CurrencyId H256 F Tokens) α

/-- A call on the token balances. -/
def onTokens (x : Call DispatchError Tokens α) : ChainCall AccountId CurrencyId H256 F Tokens α :=
  TokensPart.zoom x

/-- A call on the vault registry. -/
def onRegistry (x : RegistryCall AccountId CurrencyId α) :
    ChainCall AccountId CurrencyId H256 F Tokens α :=
  RegistryPart.zoom x

/-! ### Fees -/

/-- Distribute a reward over the collateral currencies; what cannot be distributed is left. -/
def distribute (reward : Amount CurrencyId) :
    ChainCall AccountId CurrencyId H256 F Tokens (Amount CurrencyId) := do
  let result ← Call.attempt
    (CapacityRewards.zoom (Rewards.distributeReward () reward.currencyId reward.amount))
  match result with
  | .error _ => return reward
  | .ok _ => return .zero reward.currencyId

/-- Distribute rewards to the participants, and sweep the rest. -/
def distributeRewards (amount : Amount CurrencyId) :
    ChainCall AccountId CurrencyId H256 F Tokens Unit := do
  let remaining ← distribute amount
  if remaining.isZero then
    return
  else
    onTokens (remaining.transfer AccountConfig.feePool AccountConfig.feePool)

/-- The part of the rewards a vault keeps, none unless set. -/
def getCommissionRate (s : Chain AccountId CurrencyId H256 F Tokens)
    (vaultId : VaultId AccountId CurrencyId) : FixedU128 :=
  (s.commission vaultId).getD .zero

/-- Pass the rewards in one currency down to the nominators of a vault. -/
def distributeVaultRewards (vaultId : VaultId AccountId CurrencyId) (currencyId : CurrencyId) :
    ChainCall AccountId CurrencyId H256 F Tokens Unit := do
  let collateralId := vaultId.collateralCurrency
  -- based on the capacity of the collateral currency
  let reward ← CapacityRewards.zoom (Rewards.withdrawReward () collateralId currencyId)
  VaultRewards.zoom (Rewards.distributeReward collateralId currencyId reward)
  -- based on the share of the vault in that capacity
  let reward ← VaultRewards.zoom (Rewards.withdrawReward collateralId vaultId currencyId)
  let fullAmount : Amount CurrencyId := ⟨reward, currencyId⟩
  let s ← get
  let commission ← Call.ofExcept (fullAmount.checkedMul (s.getCommissionRate vaultId))
  onTokens (commission.transfer AccountConfig.feePool vaultId.accountId)
  let remainder ← Call.ofExcept (fullAmount.checkedSub commission)
  VaultStaking.zoom (VaultStaking.distributeReward vaultId currencyId remainder.amount)

/-- Pass the rewards of a vault on, in the wrapped and in the native currency. -/
def distributeAllVaultRewards (vaultId : VaultId AccountId CurrencyId) :
    ChainCall AccountId CurrencyId H256 F Tokens Unit := do
  distributeVaultRewards vaultId vaultId.wrappedCurrency
  distributeVaultRewards vaultId CurrencyConfig.native

/-- Withdraw the rewards in one currency from the pool of `index`. -/
def withdrawVaultRewards (vaultId : VaultId AccountId CurrencyId) (nominatorId : AccountId)
    (index : Option ℕ) (currencyId : CurrencyId) :
    ChainCall AccountId CurrencyId H256 F Tokens Unit := do
  distributeVaultRewards vaultId currencyId
  let rewards ← VaultStaking.zoom
    (VaultStaking.withdrawReward index vaultId nominatorId currencyId)
  let amount : Amount CurrencyId := ⟨rewards, currencyId⟩
  onTokens (amount.transfer AccountConfig.feePool nominatorId)

end Chain

end Interbtc
