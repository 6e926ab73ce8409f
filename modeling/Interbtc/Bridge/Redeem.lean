import Interbtc.Bridge.Vaults

/-!
# Redeeming wrapped tokens

A user locks wrapped tokens and the vault pays Bitcoin for them. A vault that does not
pay in time is punished, and the user keeps the tokens or is paid in collateral.
-/

namespace Interbtc.Chain

open Core

variable {AccountId CurrencyId H256 F Tokens : Type} [DecidableEq AccountId]
  [DecidableEq CurrencyId] [DecidableEq H256] [FixedPointNumber F]
  [MultiCurrency Tokens AccountId CurrencyId] [CurrencyConfig CurrencyId]
  [AccountConfig AccountId]

/-! ## Requests -/

/-- Completed and cancelled requests are refused. -/
def getOpenRedeemRequestFromId (s : Chain AccountId CurrencyId H256 F Tokens) (redeemId : H256) :
    Except DispatchError (RedeemRequest AccountId CurrencyId) := do
  let request ← okOr (.redeem .redeemIdNotFound) (s.redeemRequests redeemId)
  match request.status with
  | .pending => return request
  | .completed => throw (.redeem .redeemCompleted)
  | .reimbursed _ | .retried => throw (.redeem .redeemCancelled)

/-- Change the status of a request, if it exists. -/
def setRedeemStatus (redeemId : H256) (status : RedeemRequestStatus) :
    ChainCall AccountId CurrencyId H256 F Tokens Unit :=
  modify fun s =>
    { s with
      redeemRequests := Function.update s.redeemRequests redeemId
        ((s.redeemRequests redeemId).map fun request => { request with status := status }) }

/-- The fee of a redeem request, rounded to the nearest. -/
def getRedeemFee (env : Env AccountId CurrencyId H256) (amount : Amount CurrencyId) :
    Except DispatchError (Amount CurrencyId) :=
  amount.checkedRoundedMul env.redeemFee.1 .nearestPrefUp

/-- What a vault loses for a redeem request it does not serve, rounded to the nearest. -/
def getPunishmentFee (env : Env AccountId CurrencyId H256) (amount : Amount CurrencyId) :
    Except DispatchError (Amount CurrencyId) :=
  amount.checkedRoundedMul env.punishmentFee.1 .nearestPrefUp

/-- What the payment in Bitcoin costs at present. -/
def getCurrentInclusionFee (env : Env AccountId CurrencyId H256) (wrappedCurrency : CurrencyId) :
    Except DispatchError (Amount CurrencyId) :=
  calculateInclusionFee env wrappedCurrency env.redeemTransactionSize

/-- Burned tokens need not be replaced any more: release their griefing collateral. -/
def releaseReplaceCollateral (env : Env AccountId CurrencyId H256)
    (vaultId : VaultId AccountId CurrencyId) (burnedTokens : Amount CurrencyId) :
    ChainCall AccountId CurrencyId H256 F Tokens Unit := do
  let (_, griefingCollateral) ←
    onRegistry (VaultRegistry.decreaseToBeReplacedTokens vaultId burnedTokens)
  if griefingCollateral.isZero then
    return
  else
    transferFunds env (.availableReplaceCollateral vaultId) (.freeBalance vaultId.accountId)
      griefingCollateral

/-- The premium for a redeem of `btc`, at most what restores the vault. -/
def premiumCollateral (env : Env AccountId CurrencyId H256)
    (s : Chain AccountId CurrencyId H256 F Tokens) (vaultId : VaultId AccountId CurrencyId)
    (btc : Amount CurrencyId) : Except DispatchError (Amount CurrencyId) := do
  let redeemAmountWrappedInCollateral ← env.convert btc vaultId.collateralCurrency
  let premiumForRedeemAmount ←
    redeemAmountWrappedInCollateral.checkedRoundedMul env.premiumRedeemFee.1 .down
  let maxPremium ← getVaultMaxPremiumRedeem env s vaultId
  maxPremium.min premiumForRedeemAmount

/-- Ask a vault for Bitcoin, and lock the tokens. -/
def requestRedeem (env : Env AccountId CurrencyId H256) (redeemer : AccountId)
    (amountWrapped : ℕ) (btcAddress : BtcAddress) (vaultId : VaultId AccountId CurrencyId) :
    ChainCall AccountId CurrencyId H256 F Tokens Unit := do
  let amountWrapped : Amount CurrencyId := ⟨amountWrapped, vaultId.wrappedCurrency⟩
  let s ← get
  let redeemerBalance ← Call.ofExcept
    (s.currentBalance (.freeBalance redeemer) vaultId.wrappedCurrency)
  let covered ← Call.ofExcept (amountWrapped.le redeemerBalance)
  Call.ensure covered (.redeem .amountExceedsUserBalance)
  Call.ensure (btcAddress.isZero = false) (.btcRelay .invalidBtcHash)
  let feeWrapped ← (if redeemer = vaultId.accountId then
      pure (.zero vaultId.wrappedCurrency)
    else
      Call.ofExcept (getRedeemFee env amountWrapped))
  let inclusionFee ← Call.ofExcept (getCurrentInclusionFee env vaultId.wrappedCurrency)
  let vaultToBeBurnedTokens ← Call.ofExcept (amountWrapped.checkedSub feeWrapped)
  let userToBeReceivedBtc ← Call.mapError (fun _ => .redeem .amountBelowDustAmount)
    (Call.ofExcept (vaultToBeBurnedTokens.checkedSub inclusionFee))
  Call.ofExcept (s.registry.ensureNotBanned env vaultId)
  let aboveDust ← Call.ofExcept
    (userToBeReceivedBtc.ge ⟨env.redeemBtcDustValue, vaultId.wrappedCurrency⟩)
  Call.ensure aboveDust (.redeem .amountBelowDustAmount)
  -- before the to-be-redeemed tokens are increased and the amount is locked
  let premium ← Call.ofExcept (premiumCollateral env s vaultId userToBeReceivedBtc)
  onRegistry (VaultRegistry.tryIncreaseToBeRedeemedTokens vaultId vaultToBeBurnedTokens)
  onTokens (amountWrapped.lockOn redeemer)
  let redeemId := env.secureId
  releaseReplaceCollateral env vaultId vaultToBeBurnedTokens
  modify fun s =>
    { s with
      redeemRequests := Function.update s.redeemRequests redeemId
        (some
          { vault := vaultId
            opentime := env.activeBlockNumber
            fee := feeWrapped.amount
            transferFeeBtc := inclusionFee.amount
            amountBtc := userToBeReceivedBtc.amount
            premium := premium.amount
            period := env.redeemPeriod
            redeemer := redeemer
            btcAddress := btcAddress
            btcHeight := env.bestBlockHeight
            status := .pending }) }

/-! ## Redeeming without a request -/

/-- A vault burns its own tokens, and pays a fee unless these are all it can redeem. -/
def selfRedeem (env : Env AccountId CurrencyId H256) (vaultId : VaultId AccountId CurrencyId)
    (amountWrapped : ℕ) : ChainCall AccountId CurrencyId H256 F Tokens Unit := do
  let amountWrapped : Amount CurrencyId := ⟨amountWrapped, vaultId.wrappedCurrency⟩
  let s ← get
  Call.ofExcept (s.registry.ensureNotBanned env vaultId)
  Call.ensure (¬ amountWrapped.isZero) (.redeem .amountBelowDustAmount)
  -- token amounts
  let vault ← Call.ofExcept (s.registry.getRichVaultFromId vaultId)
  let redeemableTokens ← Call.ofExcept vault.freelyRedeemableTokens
  let all ← Call.ofExcept (redeemableTokens.eq amountWrapped)
  let fees ← (if all then
      pure (.zero vaultId.wrappedCurrency)
    else
      Call.ofExcept (getRedeemFee env amountWrapped))
  let consumedIssuedTokens ← Call.ofExcept (amountWrapped.checkedSub fees)
  -- tokens of the user
  Call.mapError (fun _ => .redeem .amountExceedsUserBalance)
    (onTokens (consumedIssuedTokens.lockOn vaultId.accountId))
  onTokens (consumedIssuedTokens.burnFrom vaultId.accountId)
  Call.mapError (fun _ => .redeem .amountExceedsUserBalance)
    (onTokens (fees.transfer vaultId.accountId AccountConfig.feePool))
  distributeRewards fees
  -- tokens of the vault
  onRegistry (VaultRegistry.tryIncreaseToBeRedeemedTokens vaultId consumedIssuedTokens)
  redeemTokens env vaultId consumedIssuedTokens (.zero vaultId.collateralCurrency)
    vaultId.accountId
  releaseReplaceCollateral env vaultId consumedIssuedTokens

/-- Burn tokens in return for collateral of the liquidation vault. -/
def liquidationRedeem (env : Env AccountId CurrencyId H256) (redeemer : AccountId)
    (currencies : VaultCurrencyPair CurrencyId) (amountWrapped : ℕ) :
    ChainCall AccountId CurrencyId H256 F Tokens Unit := do
  let amountWrapped : Amount CurrencyId := ⟨amountWrapped, currencies.wrapped⟩
  let redeemerBalance ← Call.reads (·.currentBalance (.freeBalance redeemer) currencies.wrapped)
  let covered ← Call.ofExcept (amountWrapped.le redeemerBalance)
  Call.ensure covered (.redeem .amountExceedsUserBalance)
  onTokens (amountWrapped.lockOn redeemer)
  onTokens (amountWrapped.burnFrom redeemer)
  redeemTokensLiquidation env currencies.collateral redeemer amountWrapped

/-! ## Execution -/

/-- Take the fee of a request that leaves the redeemer, and distribute it. -/
def takeRedeemFee (redeem : RedeemRequest AccountId CurrencyId) :
    ChainCall AccountId CurrencyId H256 F Tokens Unit := do
  onTokens (redeem.feeTaken.unlockOn redeem.redeemer)
  onTokens (redeem.feeTaken.transfer redeem.redeemer AccountConfig.feePool)
  distributeRewards redeem.feeTaken

/-- Complete a redeem. `payment` tells whether the given transaction is verified to pay an
amount to an address for a request. -/
def executeRedeem (env : Env AccountId CurrencyId H256) (redeemId : H256)
    (payment : BtcAddress → ℕ → H256 → Except DispatchError Unit) :
    ChainCall AccountId CurrencyId H256 F Tokens Unit := do
  let redeem ← Call.reads (·.getOpenRedeemRequestFromId redeemId)
  Call.ofExcept (payment redeem.btcAddress redeem.amountBtc redeemId)
  let burnAmount ← Call.ofExcept (redeem.btcToSend.checkedAdd redeem.transferFee)
  onTokens (burnAmount.burnFrom redeem.redeemer)
  takeRedeemFee redeem
  redeemTokens env redeem.vault burnAmount redeem.premiumPaid redeem.redeemer
  setRedeemStatus redeemId .completed

/-! ## Cancellation -/

/-- Take collateral of the vault for a redeem it has not served. -/
def slashForCancelledRedeem (env : Env AccountId CurrencyId H256) (vault : Vault)
    (redeem : RedeemRequest AccountId CurrencyId)
    (vaultToBeBurnedTokens amountWrappedInCollateral : Amount CurrencyId) (reimburse : Bool) :
    ChainCall AccountId CurrencyId H256 F Tokens Unit := do
  if vault.isLiquidated then
    let s ← get
    let liquidatedVault ← Call.ofExcept (s.registry.getRichVaultFromId redeem.vault)
    let confiscatedCollateral ← Call.ofExcept
      (calculateCollateral liquidatedVault.liquidatedCollateral vaultToBeBurnedTokens
        ⟨vault.toBeRedeemedTokens, redeem.vault.wrappedCurrency⟩)
    let slashingDestination : CurrencySource AccountId CurrencyId := if reimburse then
      .freeBalance redeem.redeemer else .liquidationVault redeem.vault.currencies
    onRegistry (VaultRegistry.decreaseLiquidatedCollateral redeem.vault confiscatedCollateral)
    transferFunds env (.liquidatedCollateral redeem.vault) slashingDestination
      confiscatedCollateral
  else
    let punishmentFeeInCollateral ← Call.ofExcept
      (getPunishmentFee env amountWrappedInCollateral)
    let amountToSlash ← (if reimburse then
        Call.ofExcept (amountWrappedInCollateral.checkedAdd punishmentFeeInCollateral)
      else
        pure punishmentFeeInCollateral)
    let _ ← transferFundsSaturated env (.collateral redeem.vault) (.freeBalance redeem.redeemer)
      amountToSlash
    let _ ← Call.attempt (onRegistry (VaultRegistry.banVault env redeem.vault))

/-- The redeemer was paid in collateral: the tokens are burned, or go to the vault if it can
back them. -/
def reimburseRedeem (env : Env AccountId CurrencyId H256) (vault : Vault) (redeemId : H256)
    (redeem : RedeemRequest AccountId CurrencyId) (vaultToBeBurnedTokens : Amount CurrencyId) :
    ChainCall AccountId CurrencyId H256 F Tokens Unit := do
  takeRedeemFee redeem
  if vault.isLiquidated then
    onTokens (vaultToBeBurnedTokens.burnFrom redeem.redeemer)
    onRegistry (VaultRegistry.decreaseTokens redeem.vault vaultToBeBurnedTokens)
    setRedeemStatus redeemId (.reimbursed true)
  else
    let below ← Call.reads fun s => isVaultBelowSecureThreshold env s redeem.vault
    if below then
      -- the vault cannot afford to back the tokens that it would receive
      onTokens (vaultToBeBurnedTokens.burnFrom redeem.redeemer)
      onRegistry (VaultRegistry.decreaseTokens redeem.vault vaultToBeBurnedTokens)
      setRedeemStatus redeemId (.reimbursed false)
    else
      onTokens (vaultToBeBurnedTokens.unlockOn redeem.redeemer)
      onTokens (vaultToBeBurnedTokens.transfer redeem.redeemer redeem.vault.accountId)
      onRegistry (VaultRegistry.decreaseToBeRedeemedTokens redeem.vault vaultToBeBurnedTokens)
      setRedeemStatus redeemId (.reimbursed true)

/-- The redeemer keeps the tokens and may try again with another vault. -/
def retryRedeem (redeemId : H256) (redeem : RedeemRequest AccountId CurrencyId)
    (vaultToBeBurnedTokens : Amount CurrencyId) :
    ChainCall AccountId CurrencyId H256 F Tokens Unit := do
  let withFee ← Call.ofExcept (redeem.btcToSend.checkedAdd redeem.feeTaken)
  let totalWrapped ← Call.ofExcept (withFee.checkedAdd redeem.transferFee)
  onTokens (totalWrapped.unlockOn redeem.redeemer)
  onRegistry (VaultRegistry.decreaseToBeRedeemedTokens redeem.vault vaultToBeBurnedTokens)
  setRedeemStatus redeemId .retried

/-- Cancel an expired redeem request, to be reimbursed or to retry. -/
def cancelRedeem (env : Env AccountId CurrencyId H256) (redeemer : AccountId) (redeemId : H256)
    (reimburse : Bool) : ChainCall AccountId CurrencyId H256 F Tokens Unit := do
  let redeem ← Call.reads (·.getOpenRedeemRequestFromId redeemId)
  Call.ensure (redeemer = redeem.redeemer) (.redeem .unauthorizedRedeemer)
  let expired ← Call.ofExcept
    (env.hasRequestExpired redeem.opentime redeem.btcHeight (max env.redeemPeriod redeem.period))
  Call.ensure expired (.redeem .timeNotExpired)
  let vault ← Call.reads (·.registry.getVaultFromId redeem.vault)
  let vaultToBeBurnedTokens ← Call.ofExcept (redeem.btcToSend.checkedAdd redeem.transferFee)
  let amountWrappedInCollateral ← Call.ofExcept
    (env.convert vaultToBeBurnedTokens redeem.vault.collateralCurrency)
  slashForCancelledRedeem env vault redeem vaultToBeBurnedTokens amountWrappedInCollateral
    reimburse
  if reimburse then
    reimburseRedeem env vault redeemId redeem vaultToBeBurnedTokens
  else
    retryRedeem redeemId redeem vaultToBeBurnedTokens

/-- Mint the tokens of a reimbursed redeem, once the vault has enough collateral. -/
def mintTokensForReimbursedRedeem (env : Env AccountId CurrencyId H256)
    (vaultId : VaultId AccountId CurrencyId) (redeemId : H256) :
    ChainCall AccountId CurrencyId H256 F Tokens Unit := do
  let s ← get
  let redeem ← Call.ofOption (.redeem .redeemIdNotFound) (s.redeemRequests redeemId)
  Call.ensure (redeem.status = .reimbursed false) (.redeem .redeemCancelled)
  Call.ensure (redeem.vault = vaultId) (.redeem .unauthorizedVault)
  let reimbursedAmount ← Call.ofExcept (redeem.btcToSend.checkedAdd redeem.transferFee)
  tryIncreaseToBeIssuedTokens env vaultId reimbursedAmount
  onRegistry (VaultRegistry.issueTokens vaultId reimbursedAmount)
  onTokens (reimbursedAmount.mintTo vaultId.accountId)
  setRedeemStatus redeemId (.reimbursed true)

end Interbtc.Chain
