import Interbtc.Vault.Registry

/-!
# Calls on the vault registry

The functions of the vault registry that change nothing but its own storage.
-/

namespace Interbtc

open Core

variable {AccountId CurrencyId H256 : Type} [DecidableEq AccountId] [DecidableEq CurrencyId]

/-- `collateral * numerator / denominator`, used when dealing with liquidated vaults. -/
def calculateCollateral (collateral numerator denominator : Amount CurrencyId) :
    Except DispatchError (Amount CurrencyId) :=
  if numerator.isZero ∧ denominator.isZero then
    .ok collateral
  else if 2 ^ 256 ≤ collateral.amount * numerator.amount then
    .error (.arithmetic .overflow)
  else if denominator.isZero then
    .error (.arithmetic .underflow)
  else if maxBalance < collateral.amount * numerator.amount / denominator.amount then
    .error (.vaultRegistry .tryIntoIntError)
  else
    .ok ⟨collateral.amount * numerator.amount / denominator.amount, collateral.currencyId⟩

namespace VaultRegistry

/-! ## Status -/

/-- Banned vaults are refused. -/
def ensureNotBanned (env : Env AccountId CurrencyId H256) (s : VaultRegistry AccountId CurrencyId)
    (vaultId : VaultId AccountId CurrencyId) : Except DispatchError Unit := do
  let vault ← s.getActiveRichVaultFromId vaultId
  vault.ensureNotBanned env

/-- Vaults that do not accept issue requests are refused. -/
def ensureAcceptingNewIssues (s : VaultRegistry AccountId CurrencyId)
    (vaultId : VaultId AccountId CurrencyId) : Except DispatchError Unit := do
  let vault ← s.getActiveRichVaultFromId vaultId
  if vault.data.acceptsNewIssues then
    return
  else
    throw (.vaultRegistry .vaultNotAcceptingIssueRequests)

/-- Ban a vault for the punishment delay. -/
def banVault (env : Env AccountId CurrencyId H256) (vaultId : VaultId AccountId CurrencyId) :
    RegistryCall AccountId CurrencyId Unit := do
  let vault ← Call.reads (·.getActiveRichVaultFromId vaultId)
  let _ ← vault.banUntil (env.activeBlockNumber + env.punishmentDelay)

/-! ## Tokens to be replaced -/

/-- The tokens a vault can ask to be replaced on top of what it asked for already. -/
def requestableToBeReplacedTokens (s : VaultRegistry AccountId CurrencyId)
    (vaultId : VaultId AccountId CurrencyId) : Except DispatchError (Amount CurrencyId) := do
  let vault ← s.getActiveRichVaultFromId vaultId
  let notReplaced ← vault.issuedTokens.checkedSub vault.toBeReplacedTokens
  notReplaced.checkedSub vault.toBeRedeemedTokens

/-- Returns the new total of tokens to be replaced. -/
def tryIncreaseToBeReplacedTokens (vaultId : VaultId AccountId CurrencyId)
    (tokens : Amount CurrencyId) : RegistryCall AccountId CurrencyId (Amount CurrencyId) := do
  let vault ← Call.reads (·.getActiveRichVaultFromId vaultId)
  let newToBeReplaced ← Call.ofExcept (vault.toBeReplacedTokens.checkedAdd tokens)
  let totalDecreasingTokens ←
    Call.ofExcept (newToBeReplaced.checkedAdd vault.toBeRedeemedTokens)
  let covered ← Call.ofExcept (totalDecreasingTokens.le vault.issuedTokens)
  Call.ensure covered (.vaultRegistry .insufficientTokensCommitted)
  let _ ← vault.setToBeReplacedAmount newToBeReplaced
  return newToBeReplaced

/-- Returns the tokens that are no longer to be replaced and their griefing collateral. -/
def decreaseToBeReplacedTokens [CurrencyConfig CurrencyId]
    (vaultId : VaultId AccountId CurrencyId) (tokens : Amount CurrencyId) :
    RegistryCall AccountId CurrencyId (Amount CurrencyId × Amount CurrencyId) := do
  let vault ← Call.reads (·.getRichVaultFromId vaultId)
  let initialToBeReplaced : Amount CurrencyId :=
    ⟨vault.data.toBeReplacedTokens, vaultId.wrappedCurrency⟩
  let initialGriefingCollateral : Amount CurrencyId :=
    ⟨vault.data.replaceCollateral, CurrencyConfig.griefingCollateral⟩
  let usedTokens ← Call.ofExcept (tokens.min initialToBeReplaced)
  let usedCollateral ← Call.ofExcept
    (calculateCollateral initialGriefingCollateral usedTokens initialToBeReplaced)
  -- not too much is used if a rounding error occurs
  let usedCollateral ← Call.ofExcept (usedCollateral.min initialGriefingCollateral)
  let newToBeReplaced ← Call.ofExcept (initialToBeReplaced.checkedSub usedTokens)
  let _ ← vault.setToBeReplacedAmount newToBeReplaced
  return (usedTokens, usedCollateral)

/-! ## Tokens to be issued and redeemed -/

/-- Tokens are no longer to be issued. -/
def decreaseToBeIssuedTokens (vaultId : VaultId AccountId CurrencyId)
    (tokens : Amount CurrencyId) : RegistryCall AccountId CurrencyId Unit := do
  let vault ← Call.reads (·.getRichVaultFromId vaultId)
  let _ ← vault.cancelIssueTokens tokens

/-- The to-be-issued tokens become issued tokens. -/
def issueTokens (vaultId : VaultId AccountId CurrencyId) (tokens : Amount CurrencyId) :
    RegistryCall AccountId CurrencyId Unit := do
  let vault ← Call.reads (·.getRichVaultFromId vaultId)
  let _ ← vault.executeIssueTokens tokens

/-- Tokens are to be redeemed, if the vault has that many left. -/
def tryIncreaseToBeRedeemedTokens (vaultId : VaultId AccountId CurrencyId)
    (tokens : Amount CurrencyId) : RegistryCall AccountId CurrencyId Unit := do
  let vault ← Call.reads (·.getActiveRichVaultFromId vaultId)
  let redeemable ← Call.ofExcept (vault.issuedTokens.checkedSub vault.toBeRedeemedTokens)
  let covered ← Call.ofExcept (redeemable.ge tokens)
  Call.ensure covered (.vaultRegistry .insufficientTokensCommitted)
  let _ ← vault.requestRedeemTokens tokens

/-- Tokens are no longer to be redeemed. -/
def decreaseToBeRedeemedTokens (vaultId : VaultId AccountId CurrencyId)
    (tokens : Amount CurrencyId) : RegistryCall AccountId CurrencyId Unit := do
  let vault ← Call.reads (·.getRichVaultFromId vaultId)
  let _ ← vault.cancelRedeemTokens tokens

/-- The to-be-redeemed tokens are lost together with the issued tokens. -/
def decreaseTokens (vaultId : VaultId AccountId CurrencyId) (tokens : Amount CurrencyId) :
    RegistryCall AccountId CurrencyId Unit := do
  let vault ← Call.reads (·.getRichVaultFromId vaultId)
  let _ ← vault.executeRedeemTokens tokens

/-! ## Collateral -/

/-- Keep less collateral for open redeem requests. -/
def decreaseLiquidatedCollateral (vaultId : VaultId AccountId CurrencyId)
    (amount : Amount CurrencyId) : RegistryCall AccountId CurrencyId Unit := do
  let vault ← Call.reads (·.getRichVaultFromId vaultId)
  let _ ← vault.decreaseLiquidatedCollateral amount

/-- The collateral of all vaults of a pair of currencies. -/
def getTotalUserVaultCollateral (s : VaultRegistry AccountId CurrencyId)
    (currencyPair : VaultCurrencyPair CurrencyId) : Amount CurrencyId :=
  ⟨s.totalUserVaultCollateral currencyPair, currencyPair.collateral⟩

/-- The largest total of collateral for a pair of currencies, which has to be set. -/
def getCollateralCeiling (env : Env AccountId CurrencyId H256)
    (currencyPair : VaultCurrencyPair CurrencyId) : Except DispatchError (Amount CurrencyId) := do
  let ceilingAmount ← okOr (.vaultRegistry .ceilingNotSet)
    (env.systemCollateralCeiling currencyPair)
  return ⟨ceilingAmount, currencyPair.collateral⟩

/-- Store the collateral of all vaults of a pair of currencies. -/
def setTotalUserVaultCollateral (currencyPair : VaultCurrencyPair CurrencyId) (amount : ℕ) :
    RegistryCall AccountId CurrencyId Unit :=
  modify fun s =>
    { s with
      totalUserVaultCollateral :=
        Function.update s.totalUserVaultCollateral currencyPair amount }

/-- More collateral in total, up to the ceiling. -/
def tryIncreaseTotalBackingCollateral (env : Env AccountId CurrencyId H256)
    (currencyPair : VaultCurrencyPair CurrencyId) (amount : Amount CurrencyId) :
    RegistryCall AccountId CurrencyId Unit := do
  let s ← get
  let new ← Call.ofExcept ((s.getTotalUserVaultCollateral currencyPair).checkedAdd amount)
  let limit ← Call.ofExcept (getCollateralCeiling env currencyPair)
  let below ← Call.ofExcept (new.le limit)
  Call.ensure below (.vaultRegistry .currencyCeilingExceeded)
  setTotalUserVaultCollateral currencyPair new.amount

/-- Less collateral in total. -/
def decreaseTotalBackingCollateral (currencyPair : VaultCurrencyPair CurrencyId)
    (amount : Amount CurrencyId) : RegistryCall AccountId CurrencyId Unit := do
  let s ← get
  let new ← Call.ofExcept ((s.getTotalUserVaultCollateral currencyPair).checkedSub amount)
  setTotalUserVaultCollateral currencyPair new.amount

end VaultRegistry

end Interbtc
