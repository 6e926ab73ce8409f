import Interbtc.Bridge.Vaults

/-!
# Replacing a vault

A vault asks for its issued tokens to be taken over. Another vault accepts them, is
paid in Bitcoin by the old vault, and from then on backs the tokens.
-/

namespace Interbtc.Chain

open Core

variable {AccountId CurrencyId H256 F Tokens : Type} [DecidableEq AccountId]
  [DecidableEq CurrencyId] [DecidableEq H256] [FixedPointNumber F]
  [MultiCurrency Tokens AccountId CurrencyId] [CurrencyConfig CurrencyId]
  [AccountConfig AccountId]

/-! ## Requests -/

/-- Completed and cancelled requests are refused. -/
def getOpenReplaceRequest (s : Chain AccountId CurrencyId H256 F Tokens) (replaceId : H256) :
    Except DispatchError (ReplaceRequest AccountId CurrencyId) := do
  let request ← okOr (.replace .replaceIdNotFound) (s.replaceRequests replaceId)
  match request.status with
  | .pending => return request
  | .completed => throw (.replace .replaceCompleted)
  | .cancelled => throw (.replace .replaceCancelled)

/-- Completed requests are refused. -/
def getOpenOrCancelledReplaceRequest (s : Chain AccountId CurrencyId H256 F Tokens)
    (replaceId : H256) : Except DispatchError (ReplaceRequest AccountId CurrencyId) := do
  let request ← okOr (.replace .replaceIdNotFound) (s.replaceRequests replaceId)
  match request.status with
  | .completed => throw (.replace .replaceCompleted)
  | _ => return request

/-- Change the status of a request, if it exists. -/
def setReplaceStatus (replaceId : H256) (status : ReplaceRequestStatus) :
    ChainCall AccountId CurrencyId H256 F Tokens Unit :=
  modify fun s =>
    { s with
      replaceRequests := Function.update s.replaceRequests replaceId
        ((s.replaceRequests replaceId).map fun request => { request with status := status }) }

/-- The griefing collateral of a replacement, rounded to the nearest. -/
def getReplaceGriefingCollateral (env : Env AccountId CurrencyId H256)
    (amount : Amount CurrencyId) : Except DispatchError (Amount CurrencyId) :=
  amount.checkedRoundedMul env.replaceGriefingCollateral.1 .nearestPrefUp

/-- A vault asks for tokens to be replaced, and locks griefing collateral. -/
def requestReplace (env : Env AccountId CurrencyId H256) (vaultId : VaultId AccountId CurrencyId)
    (amountBtc : ℕ) : ChainCall AccountId CurrencyId H256 F Tokens Unit := do
  let s ← get
  Call.ofExcept (s.registry.ensureNotBanned env vaultId)
  let amountBtc : Amount CurrencyId := ⟨amountBtc, vaultId.wrappedCurrency⟩
  Call.ensure (s.nomination.isOptedIn vaultId = false) (.replace .vaultHasEnabledNomination)
  let requestableTokens ← Call.ofExcept (s.registry.requestableToBeReplacedTokens vaultId)
  let toBeReplacedIncrease ← Call.ofExcept (amountBtc.min requestableTokens)
  Call.ensure (¬ toBeReplacedIncrease.isZero) (.replace .replaceAmountZero)
  let totalToBeReplaced ←
    onRegistry (VaultRegistry.tryIncreaseToBeReplacedTokens vaultId toBeReplacedIncrease)
  let aboveDust ← Call.ofExcept
    (totalToBeReplaced.ge ⟨env.replaceBtcDustValue, vaultId.wrappedCurrency⟩)
  Call.ensure aboveDust (.replace .amountBelowDustAmount)
  let inGriefingCurrency ← Call.ofExcept
    (env.convert toBeReplacedIncrease CurrencyConfig.griefingCollateral)
  let griefingCollateral ← Call.ofExcept (getReplaceGriefingCollateral env inGriefingCurrency)
  transferFunds env (.freeBalance vaultId.accountId) (.availableReplaceCollateral vaultId)
    griefingCollateral

/-- Make the tokens free to be used again. -/
def withdrawReplace (env : Env AccountId CurrencyId H256)
    (vaultId : VaultId AccountId CurrencyId) (amount : ℕ) :
    ChainCall AccountId CurrencyId H256 F Tokens Unit := do
  let withdrawnTokens ← withdrawReplaceRequest env vaultId ⟨amount, vaultId.wrappedCurrency⟩
  Call.ensure (¬ withdrawnTokens.isZero) (.replace .noPendingRequest)

/-! ## Acceptance -/

/-- Reserve tokens with both vaults. The first call should never fail; the second one fails
when the new vault has not enough collateral. -/
def acceptReplaceTokens (env : Env AccountId CurrencyId H256)
    (oldVaultId newVaultId : VaultId AccountId CurrencyId)
    (redeemableTokens : Amount CurrencyId) : ChainCall AccountId CurrencyId H256 F Tokens Unit := do
  onRegistry (VaultRegistry.tryIncreaseToBeRedeemedTokens oldVaultId redeemableTokens)
  tryIncreaseToBeIssuedTokens env newVaultId redeemableTokens

/-- A vault takes tokens over from one that asked for it, and adds collateral. -/
def acceptReplace (env : Env AccountId CurrencyId H256)
    (oldVaultId newVaultId : VaultId AccountId CurrencyId) (amountBtc collateral : ℕ)
    (btcAddress : BtcAddress) : ChainCall AccountId CurrencyId H256 F Tokens Unit := do
  let amountBtc : Amount CurrencyId := ⟨amountBtc, oldVaultId.wrappedCurrency⟩
  let collateral : Amount CurrencyId := ⟨collateral, newVaultId.collateralCurrency⟩
  Call.ensure (oldVaultId ≠ newVaultId) (.replace .replaceSelfNotAllowed)
  Call.ensure (oldVaultId.wrappedCurrency = newVaultId.wrappedCurrency)
    (.replace .invalidWrappedCurrency)
  Call.reads fun s => s.registry.ensureNotBanned env newVaultId
  let (redeemableTokens, griefingCollateral) ←
    onRegistry (VaultRegistry.decreaseToBeReplacedTokens oldVaultId amountBtc)
  let aboveDust ← Call.ofExcept
    (redeemableTokens.ge ⟨env.replaceBtcDustValue, oldVaultId.wrappedCurrency⟩)
  Call.ensure aboveDust (.replace .amountBelowDustAmount)
  -- the additional collateral of the new vault
  let actualNewVaultCollateral ←
    Call.ofExcept (calculateCollateral collateral redeemableTokens amountBtc)
  tryDepositCollateral env newVaultId actualNewVaultCollateral
  acceptReplaceTokens env oldVaultId newVaultId redeemableTokens
  transferFunds env (.availableReplaceCollateral oldVaultId)
    (.activeReplaceCollateral oldVaultId) griefingCollateral
  let replaceId := env.secureId
  modify fun s =>
    { s with
      replaceRequests := Function.update s.replaceRequests replaceId
        (some
          { oldVault := oldVaultId
            newVault := newVaultId
            acceptTime := env.activeBlockNumber
            collateral := actualNewVaultCollateral.amount
            btcAddress := btcAddress
            griefingCollateral := griefingCollateral.amount
            amount := redeemableTokens.amount
            period := env.replacePeriod
            btcHeight := env.bestBlockHeight
            status := .pending }) }

/-! ## Execution and cancellation -/

/-- Complete a replace. A cancelled one is accepted again first, which checks that the new
vault is above the secure threshold. -/
def executeReplace (env : Env AccountId CurrencyId H256) (replaceId : H256)
    (payment : BtcAddress → ℕ → H256 → Except DispatchError Unit) :
    ChainCall AccountId CurrencyId H256 F Tokens Unit := do
  let replace ← Call.reads (·.getOpenOrCancelledReplaceRequest replaceId)
  Call.ofExcept (payment replace.btcAddress replace.amount replaceId)
  (match replace.status with
    | .pending =>
      transferFunds env (.activeReplaceCollateral replace.oldVault)
        (.freeBalance replace.oldVault.accountId) replace.griefing
    | .cancelled =>
      acceptReplaceTokens env replace.oldVault replace.newVault replace.amountReplaced
    | .completed => throw (.replace .replaceCompleted))
  replaceTokens env replace.oldVault replace.newVault replace.amountReplaced
  setReplaceStatus replaceId .completed

/-- Release the collateral a vault has added for a replace, unless it is needed. -/
def releaseAddedCollateral (env : Env AccountId CurrencyId H256)
    (newVaultId : VaultId AccountId CurrencyId) (collateral : Amount CurrencyId) :
    ChainCall AccountId CurrencyId H256 F Tokens Unit := do
  let liquidated ← Call.reads fun s => s.registry.isVaultLiquidated newVaultId
  if liquidated then
    return
  else
    let allowed ← Call.reads fun s =>
      isAllowedToWithdrawCollateral env s newVaultId (some collateral)
    if allowed then
      forceWithdrawCollateral env newVaultId collateral
    else
      return

/-- The new vault cancels an expired replace request, and gets the griefing collateral. -/
def cancelReplace (env : Env AccountId CurrencyId H256) (replaceId : H256) :
    ChainCall AccountId CurrencyId H256 F Tokens Unit := do
  let replace ← Call.reads (·.getOpenReplaceRequest replaceId)
  let expired ← Call.ofExcept (env.hasRequestExpired replace.acceptTime replace.btcHeight
    (max env.replacePeriod replace.period))
  Call.ensure expired (.replace .replacePeriodNotExpired)
  cancelReplaceTokens env replace.oldVault replace.newVault replace.amountReplaced
  -- the new vault gets the griefing collateral of the old one
  transferFunds env (.activeReplaceCollateral replace.oldVault)
    (.freeBalance replace.newVault.accountId) replace.griefing
  releaseAddedCollateral env replace.newVault replace.collateralAdded
  setReplaceStatus replaceId .cancelled

end Interbtc.Chain
