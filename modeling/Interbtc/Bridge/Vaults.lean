import Interbtc.Bridge.Collateral

/-!
# The vault registry

The functions of the vault registry that depend on collateral and prices, or that
move funds: thresholds, issuing and redeeming, replacing, liquidation and recovery.
-/

namespace Interbtc.Chain

open Core

variable {AccountId CurrencyId H256 F Tokens : Type} [DecidableEq AccountId]
  [DecidableEq CurrencyId] [DecidableEq H256] [FixedPointNumber F]
  [MultiCurrency Tokens AccountId CurrencyId] [CurrencyConfig CurrencyId]
  [AccountConfig AccountId]

/-! ## Collateralization -/

/-- The tokens some collateral backs at a threshold, rounded down. -/
def calculateMaxWrappedFromCollateralForThreshold (env : Env AccountId CurrencyId H256)
    (collateral : Amount CurrencyId) (wrappedCurrency : CurrencyId) (threshold : FixedU128) :
    Except DispatchError (Amount CurrencyId) := do
  let converted ← env.convert collateral wrappedCurrency
  converted.checkedDiv threshold

/-- Whether some collateral backs fewer tokens than there are. -/
def isCollateralBelowThreshold (env : Env AccountId CurrencyId H256)
    (collateral btcAmount : Amount CurrencyId) (threshold : FixedU128) :
    Except DispatchError Bool := do
  let maxTokens ← calculateMaxWrappedFromCollateralForThreshold env collateral
    btcAmount.currencyId threshold
  maxTokens.lt btcAmount

/-- Only issued tokens count for the liquidation threshold. -/
def isVaultBelowLiquidationThreshold (env : Env AccountId CurrencyId H256)
    (s : Chain AccountId CurrencyId H256 F Tokens) (vaultId : VaultId AccountId CurrencyId)
    (vault : Vault) (liquidationThreshold : FixedU128) : Except DispatchError Bool := do
  let collateral ← s.getBackingCollateral vaultId
  isCollateralBelowThreshold env collateral ⟨vault.issuedTokens, vaultId.wrappedCurrency⟩
    liquidationThreshold

/-- Issued tokens count for the secure threshold, and tokens to be issued. -/
def isVaultBelowSecureThreshold (env : Env AccountId CurrencyId H256)
    (s : Chain AccountId CurrencyId H256 F Tokens) (vaultId : VaultId AccountId CurrencyId) :
    Except DispatchError Bool := do
  let vault ← s.registry.getRichVaultFromId vaultId
  let threshold ← vault.getSecureThreshold env
  let collateral ← s.getBackingCollateral vaultId
  isCollateralBelowThreshold env collateral vault.issuedTokens threshold

/-- Unlike the checks above, this one looks at the tokens to be backed. -/
def willBeBelowPremiumThreshold (env : Env AccountId CurrencyId H256)
    (s : Chain AccountId CurrencyId H256 F Tokens) (vaultId : VaultId AccountId CurrencyId) :
    Except DispatchError Bool := do
  let vault ← s.registry.getRichVaultFromId vaultId
  let threshold ← okOr (.vaultRegistry .thresholdNotSet)
    (env.premiumRedeemThreshold vaultId.currencies)
  let collateral ← s.getBackingCollateral vaultId
  let toBeBackedTokens ← vault.toBeBackedTokens
  isCollateralBelowThreshold env collateral toBeBackedTokens threshold

/-- The collateral that is needed at a threshold, at most what there is. -/
def getUsedCollateral (env : Env AccountId CurrencyId H256)
    (s : Chain AccountId CurrencyId H256 F Tokens) (vault : RichVault AccountId CurrencyId)
    (threshold : FixedU128) : Except DispatchError (Amount CurrencyId) := do
  let issuedTokens ← vault.backedTokens
  let issuedTokensInCollateral ← env.convert issuedTokens vault.id.collateralCurrency
  let usedCollateral ← issuedTokensInCollateral.checkedMul threshold
  let totalCollateral ← s.getBackingCollateral vault.id
  totalCollateral.min usedCollateral

/-- The collateral that is not needed at the secure threshold. -/
def getFreeCollateral (env : Env AccountId CurrencyId H256)
    (s : Chain AccountId CurrencyId H256 F Tokens) (vault : RichVault AccountId CurrencyId) :
    Except DispatchError (Amount CurrencyId) := do
  let threshold ← vault.getSecureThreshold env
  let usedCollateral ← getUsedCollateral env s vault threshold
  let totalCollateral ← s.getBackingCollateral vault.id
  totalCollateral.checkedSub usedCollateral

/-- The tokens a vault can issue on top of those it backs. -/
def issuableTokens (env : Env AccountId CurrencyId H256)
    (s : Chain AccountId CurrencyId H256 F Tokens) (vault : RichVault AccountId CurrencyId) :
    Except DispatchError (Amount CurrencyId) := do
  if vault.isBanned env then
    return .zero vault.wrappedCurrency
  else
    let freeCollateral ← getFreeCollateral env s vault
    let secureThreshold ← vault.getSecureThreshold env
    calculateMaxWrappedFromCollateralForThreshold env freeCollateral vault.wrappedCurrency
      secureThreshold

/-- The amount of tokens a vault can issue. -/
def getIssuableTokensFromVault (env : Env AccountId CurrencyId H256)
    (s : Chain AccountId CurrencyId H256 F Tokens) (vaultId : VaultId AccountId CurrencyId) :
    Except DispatchError (Amount CurrencyId) := do
  let vault ← s.registry.getActiveRichVaultFromId vaultId
  if vault.data.acceptsNewIssues then
    issuableTokens env s vault
  else
    return .zero vaultId.collateralCurrency

/-- The collateral some tokens need at the secure threshold. -/
def getRequiredCollateralForWrapped (env : Env AccountId CurrencyId H256)
    (amountWrapped : Amount CurrencyId) (currencyId : CurrencyId) :
    Except DispatchError (Amount CurrencyId) := do
  let threshold ← okOr (.vaultRegistry .thresholdNotSet)
    (env.secureCollateralThreshold ⟨currencyId, amountWrapped.currencyId⟩)
  let required ← amountWrapped.checkedRoundedMul threshold .up
  env.convert required currencyId

/-- The premium that gets a vault back to the secure threshold:
`missingCollateral * (fee / (secure - fee))`. -/
def getVaultMaxPremiumRedeem (env : Env AccountId CurrencyId H256)
    (s : Chain AccountId CurrencyId H256 F Tokens) (vaultId : VaultId AccountId CurrencyId) :
    Except DispatchError (Amount CurrencyId) := do
  let vault ← s.registry.getActiveRichVaultFromId vaultId
  let toBeBackedTokens ← vault.toBeBackedTokens
  let globalSecureThreshold ← okOr (.vaultRegistry .thresholdNotSet)
    (env.secureCollateralThreshold vaultId.currencies)
  let premiumRedeemRate := env.premiumRedeemFee.1
  let requiredCollateral ←
    getRequiredCollateralForWrapped env toBeBackedTokens vaultId.collateralCurrency
  let currentCollateral ← s.getBackingCollateral vaultId
  let missingCollateral ← requiredCollateral.saturatingSub currentCollateral
  let divisor ← okOr (.arithmetic .underflow)
    (globalSecureThreshold.checkedSub premiumRedeemRate)
  let factor ← okOr (.arithmetic .divisionByZero) (premiumRedeemRate.checkedDiv divisor)
  missingCollateral.checkedMul factor

/-- The fee of a Bitcoin transaction of the given size, at the current rate. It is computed in
the 32 bits of the size. -/
def calculateInclusionFee (env : Env AccountId CurrencyId H256) (wrappedCurrency : CurrencyId)
    (redeemTxSize : ℕ) : Except DispatchError (Amount CurrencyId) := do
  let satoshiPerBytes ← okOr (.oracle .missingExchangeRate) env.feeEstimation
  let fee := satoshiPerBytes.inner * redeemTxSize / FixedU128.DIV
  if fee < 2 ^ 32 then
    return ⟨fee, wrappedCurrency⟩
  else
    throw (.arithmetic .overflow)

/-- The tokens to redeem with a vault to get the most it pays as a premium. -/
def redeemTokensForMaxPremium (env : Env AccountId CurrencyId H256)
    (s : Chain AccountId CurrencyId H256 F Tokens) (redeemTransactionSize : ℕ)
    (vaultId : VaultId AccountId CurrencyId) : Except DispatchError (Amount CurrencyId) := do
  let maxPremiumInCollateral ← getVaultMaxPremiumRedeem env s vaultId
  let redeemAmountWrappedInCollateral ←
    maxPremiumInCollateral.checkedDiv env.premiumRedeemFee.1
  let burnWrap ← env.convert redeemAmountWrappedInCollateral vaultId.wrappedCurrency
  let inclusionFee ← calculateInclusionFee env vaultId.wrappedCurrency redeemTransactionSize
  let vaultToBurnTokens ← burnWrap.checkedAdd inclusionFee
  vaultToBurnTokens.checkedDiv (FixedU128.one.saturatingSub env.redeemFee.1)

/-- The vaults that pay a premium, each with the tokens to redeem for the most of it, largest
first. The vaults are given in the order of the storage map. -/
def getPremiumRedeemVaults (env : Env AccountId CurrencyId H256)
    (s : Chain AccountId CurrencyId H256 F Tokens)
    (vaultIds : List (VaultId AccountId CurrencyId)) (redeemTransactionSize : ℕ) :
    Except DispatchError (List (VaultId AccountId CurrencyId × Amount CurrencyId)) :=
  let suitableVaults := vaultIds.filterMap fun vaultId =>
    match redeemTokensForMaxPremium env s redeemTransactionSize vaultId with
    | .error _ => none
    | .ok requestRedeemTokens =>
      -- the inclusion fee alone makes the tokens non-zero for a vault above the threshold
      if (s.registry.ensureNotBanned env vaultId).toBool ∧ ¬ requestRedeemTokens.isZero ∧
          (willBeBelowPremiumThreshold env s vaultId).toOption.getD false then
        some (vaultId, requestRedeemTokens)
      else
        none
  if suitableVaults.isEmpty then
    .error (.vaultRegistry .noVaultUnderThePremiumRedeemThreshold)
  else
    .ok (suitableVaults.mergeSort fun a b => b.2.amount ≤ a.2.amount)

/-- The least collateral a vault can have, nothing unless set. -/
def getMinimumCollateralVault (env : Env AccountId CurrencyId H256) (currencyId : CurrencyId) :
    Amount CurrencyId :=
  ⟨(env.minimumCollateralVault currencyId).getD 0, currencyId⟩

/-- The vault would be above the secure threshold after a withdrawal. -/
def isAllowedToWithdrawCollateral (env : Env AccountId CurrencyId H256)
    (s : Chain AccountId CurrencyId H256 F Tokens) (vaultId : VaultId AccountId CurrencyId)
    (amount : Option (Amount CurrencyId)) : Except DispatchError Bool := do
  let vault ← s.registry.getRichVaultFromId vaultId
  let newCollateral ← (match amount with
    | some amount => do
      let collateral ← s.getBackingCollateral vaultId
      match collateral.checkedSub amount with
      | .ok x => return some x
      | .error (.arithmetic .underflow) => return none
      | .error e => throw e
    | none => return some (.zero vaultId.collateralCurrency))
  match newCollateral with
  | none => return false
  | some newCollateral =>
    let aboveMinimum ← newCollateral.ge (getMinimumCollateralVault env vaultId.collateralCurrency)
    if newCollateral.isZero ∨ aboveMinimum then
      let backedTokens ← vault.backedTokens
      let threshold ← vault.getSecureThreshold env
      let isBelowThreshold ← isCollateralBelowThreshold env newCollateral backedTokens threshold
      return !isBelowThreshold
    else
      throw (.vaultRegistry .insufficientVaultCollateralAmount)

/-! ## Issuing -/

/-- Reserve tokens that the collateral of the vault suffices to back. -/
def tryIncreaseToBeIssuedTokens (env : Env AccountId CurrencyId H256)
    (vaultId : VaultId AccountId CurrencyId) (tokens : Amount CurrencyId) :
    ChainCall AccountId CurrencyId H256 F Tokens Unit := do
  let s ← get
  let vault ← Call.ofExcept (s.registry.getActiveRichVaultFromId vaultId)
  let issuable ← Call.ofExcept (issuableTokens env s vault)
  let enough ← Call.ofExcept (issuable.ge tokens)
  Call.ensure enough (.vaultRegistry .exceedingVaultLimit)
  onRegistry do
    let _ ← vault.requestIssueTokens tokens

/-- A vault has to have registered a key. -/
def getBitcoinPublicKey (env : Env AccountId CurrencyId H256) (accountId : AccountId) :
    Except DispatchError BtcPublicKey :=
  okOr (.vaultRegistry .noBitcoinPublicKey) (env.vaultBitcoinPublicKey accountId)

/-- The address to pay for an issue request to. -/
def registerDepositAddress (env : Env AccountId CurrencyId H256)
    (s : Chain AccountId CurrencyId H256 F Tokens) (vaultId : VaultId AccountId CurrencyId)
    (issueId : H256) : Except DispatchError BtcAddress := do
  let vault ← s.registry.getActiveRichVaultFromId vaultId
  let vaultPublicKey ← getBitcoinPublicKey env vault.id.accountId
  okOr (.vaultRegistry .invalidPublicKey) (env.newDepositAddress vaultPublicKey issueId)

/-! ## Redeeming -/

/-- Reduce the to-be-redeemed tokens when a redeem request completes. The premium is paid
unless the vault is liquidated, in which case its collateral for the request is released. -/
def redeemTokens (env : Env AccountId CurrencyId H256) (vaultId : VaultId AccountId CurrencyId)
    (tokens premium : Amount CurrencyId) (redeemerId : AccountId) :
    ChainCall AccountId CurrencyId H256 F Tokens Unit := do
  let s ← get
  let vault ← Call.ofExcept (s.registry.getRichVaultFromId vaultId)
  -- read before it is decreased
  let toBeRedeemedTokens := vault.toBeRedeemedTokens
  let vault ← onRegistry (vault.executeRedeemTokens tokens)
  if vault.data.isLiquidated then
    let toBeReleased ← Call.ofExcept
      (calculateCollateral vault.liquidatedCollateral tokens toBeRedeemedTokens)
    onRegistry do
      VaultRegistry.decreaseTotalBackingCollateral vaultId.currencies toBeReleased
      let _ ← vault.decreaseLiquidatedCollateral toBeReleased
    onTokens (toBeReleased.unlockOn vaultId.accountId)
  else if premium.isZero then
    return
  else
    transferFunds env (.collateral vaultId) (.freeBalance redeemerId) premium

/-- Redeem against the liquidation vault, for a share of its collateral. -/
def redeemTokensLiquidation (env : Env AccountId CurrencyId H256) (currencyId : CurrencyId)
    (redeemerId : AccountId) (amountWrapped : Amount CurrencyId) :
    ChainCall AccountId CurrencyId H256 F Tokens Unit := do
  let currencyPair : VaultCurrencyPair CurrencyId := ⟨currencyId, amountWrapped.currencyId⟩
  let s ← get
  let liquidationVault := s.registry.getRichLiquidationVault currencyPair
  let redeemable ← Call.ofExcept liquidationVault.redeemableTokens
  let enough ← Call.ofExcept (redeemable.ge amountWrapped)
  Call.ensure enough (.vaultRegistry .insufficientTokensCommitted)
  let collateral ← Call.ofExcept (s.currentBalance (.liquidationVault currencyPair) currencyId)
  let toBeBackedTokens ← Call.ofExcept liquidationVault.toBeBackedTokens
  let toTransfer ← Call.ofExcept (calculateCollateral collateral amountWrapped toBeBackedTokens)
  transferFunds env (.liquidationVault currencyPair) (.freeBalance redeemerId) toTransfer
  onRegistry do
    let s ← get
    let _ ← (s.getRichLiquidationVault currencyPair).burnIssued amountWrapped

/-! ## Replacing -/

/-- Transfer tokens from the old vault to the new one. -/
def replaceTokens (env : Env AccountId CurrencyId H256)
    (oldVaultId newVaultId : VaultId AccountId CurrencyId) (tokens : Amount CurrencyId) :
    ChainCall AccountId CurrencyId H256 F Tokens Unit := do
  let s ← get
  let oldVault ← Call.ofExcept (s.registry.getRichVaultFromId oldVaultId)
  let newVault ← Call.ofExcept (s.registry.getRichVaultFromId newVaultId)
  let oldVault ← (if oldVault.data.isLiquidated then do
      let toBeReleased ← Call.ofExcept
        (calculateCollateral oldVault.liquidatedCollateral tokens oldVault.toBeRedeemedTokens)
      let oldVault ← onRegistry (oldVault.decreaseLiquidatedCollateral toBeReleased)
      -- this was withdrawn on liquidation
      depositPoolCollateral env oldVaultId oldVaultId.accountId toBeReleased
      pure oldVault
    else pure oldVault)
  onRegistry do
    let _ ← oldVault.executeRedeemTokens tokens
    let _ ← newVault.executeIssueTokens tokens

/-- Undo what accepting a replace request has reserved with both vaults. -/
def cancelReplaceTokens (env : Env AccountId CurrencyId H256)
    (oldVaultId newVaultId : VaultId AccountId CurrencyId) (tokens : Amount CurrencyId) :
    ChainCall AccountId CurrencyId H256 F Tokens Unit := do
  let s ← get
  let oldVault ← Call.ofExcept (s.registry.getRichVaultFromId oldVaultId)
  let newVault ← Call.ofExcept (s.registry.getRichVaultFromId newVaultId)
  let oldVault ← (if oldVault.data.isLiquidated then do
      let toBeTransferred ← Call.ofExcept
        (calculateCollateral oldVault.liquidatedCollateral tokens oldVault.toBeRedeemedTokens)
      let oldVault ← onRegistry (oldVault.decreaseLiquidatedCollateral toBeTransferred)
      transferFunds env (.liquidatedCollateral oldVaultId)
        (.liquidationVault oldVaultId.currencies) toBeTransferred
      pure oldVault
    else pure oldVault)
  onRegistry do
    let _ ← oldVault.cancelRedeemTokens tokens
    let _ ← newVault.cancelIssueTokens tokens

/-- Withdraw tokens from the replace request of a vault, and release their collateral. -/
def withdrawReplaceRequest (env : Env AccountId CurrencyId H256)
    (vaultId : VaultId AccountId CurrencyId) (amount : Amount CurrencyId) :
    ChainCall AccountId CurrencyId H256 F Tokens (Amount CurrencyId) := do
  let (withdrawnTokens, toWithdrawCollateral) ←
    onRegistry (VaultRegistry.decreaseToBeReplacedTokens vaultId amount)
  transferFunds env (.availableReplaceCollateral vaultId) (.freeBalance vaultId.accountId)
    toWithdrawCollateral
  return withdrawnTokens

/-- Withdraw collateral without checking collateralization. -/
def forceWithdrawCollateral (env : Env AccountId CurrencyId H256)
    (vaultId : VaultId AccountId CurrencyId) (amount : Amount CurrencyId) :
    ChainCall AccountId CurrencyId H256 F Tokens Unit := do
  onTokens (amount.unlockOn vaultId.accountId)
  onRegistry (VaultRegistry.decreaseTotalBackingCollateral vaultId.currencies amount)
  let _ ← withdrawPoolCollateral env vaultId vaultId.accountId (some amount) none

/-! ## Liquidation -/

/-- Set collateral aside for the to-be-redeemed tokens of a vault. -/
def slashForToBeRedeemed (env : Env AccountId CurrencyId H256)
    (vault : RichVault AccountId CurrencyId) (amount : Amount CurrencyId) :
    ChainCall AccountId CurrencyId H256 F Tokens (RichVault AccountId CurrencyId) := do
  let s ← get
  let vaultCollateral ← Call.ofExcept (s.computeCollateral vault.id)
  let collateral ← Call.ofExcept (vaultCollateral.min amount)
  let vault ← onRegistry (vault.increaseLiquidatedCollateral collateral)
  let _ ← withdrawPoolCollateral env vault.id vault.id.accountId (some collateral) none
  return vault

/-- Move collateral to the liquidation vault, first that of the vault itself. -/
def slashToLiquidationVault (env : Env AccountId CurrencyId H256)
    (vaultId : VaultId AccountId CurrencyId) (amount : Amount CurrencyId) :
    ChainCall AccountId CurrencyId H256 F Tokens Unit := do
  let s ← get
  let collateral ← Call.ofExcept (s.computeCollateral vaultId)
  (match amount.checkedSub collateral with
    | .ok leftover => do
      let _ ← withdrawPoolCollateral env vaultId vaultId.accountId (some collateral) none
      -- take the remainder from the nominators
      slashPoolCollateral env vaultId leftover
    | .error _ => do
      let _ ← withdrawPoolCollateral env vaultId vaultId.accountId (some amount) none)
  transferFunds env (.liquidatedCollateral vaultId) (.liquidationVault vaultId.currencies) amount

/-- Move the tokens of a vault and the collateral they use to the liquidation vault. -/
def liquidate (env : Env AccountId CurrencyId H256) (vault : RichVault AccountId CurrencyId) :
    ChainCall AccountId CurrencyId H256 F Tokens Unit := do
  let vaultId := vault.id
  let threshold ← Call.ofOption (.vaultRegistry .thresholdNotSet)
    (env.liquidationCollateralThreshold vaultId.currencies)
  -- collateral is liquidated up to the liquidation threshold
  let s ← get
  let liquidatedCollateral ← Call.ofExcept (getUsedCollateral env s vault threshold)
  -- the vault has no more tokens that could be replaced
  let _ ← withdrawReplaceRequest env vaultId vault.toBeReplacedTokens
  -- fetched again, for the call above has modified the vault
  let s ← get
  let vault ← Call.ofExcept (s.registry.getRichVaultFromId vaultId)
  let collateralTokens ← Call.ofExcept vault.backedTokens
  let notToBeRedeemed ← Call.ofExcept (collateralTokens.checkedSub vault.toBeRedeemedTokens)
  let liquidatedCollateralExcludingToBeRedeemed ← Call.ofExcept
    (calculateCollateral liquidatedCollateral notToBeRedeemed collateralTokens)
  let collateralForToBeRedeemed ← Call.ofExcept
    (liquidatedCollateral.saturatingSub liquidatedCollateralExcludingToBeRedeemed)
  let vault ← slashForToBeRedeemed env vault collateralForToBeRedeemed
  slashToLiquidationVault env vaultId liquidatedCollateralExcludingToBeRedeemed
  onRegistry do
    let s ← get
    let liquidationVault := s.getRichLiquidationVault vaultId.currencies
    let liquidationVault ← liquidationVault.increaseIssued vault.issuedTokens
    let liquidationVault ← liquidationVault.increaseToBeIssued vault.toBeIssuedTokens
    let _ ← liquidationVault.increaseToBeRedeemed vault.toBeRedeemedTokens
  VaultRewards.zoom (Rewards.setStake vaultId.collateralCurrency vaultId 0)
  -- the to-be-redeemed tokens stay with the vault
  onRegistry do
    let _ ← vault.update fun d =>
      { d with toBeIssuedTokens := 0, issuedTokens := 0, status := .liquidated }

/-- The liquidation vault takes over a vault and its collateral. -/
def liquidateVault (env : Env AccountId CurrencyId H256)
    (vaultId : VaultId AccountId CurrencyId) :
    ChainCall AccountId CurrencyId H256 F Tokens Unit := do
  let s ← get
  let vault ← Call.ofExcept (s.registry.getActiveRichVaultFromId vaultId)
  let _ ← Call.ofExcept (s.getBackingCollateral vaultId)
  liquidate env vault

/-! ## Dispatched calls -/

/-- Register a vault with its first collateral. -/
def registerVault (env : Env AccountId CurrencyId H256) (vaultId : VaultId AccountId CurrencyId)
    (collateral : ℕ) : ChainCall AccountId CurrencyId H256 F Tokens Unit := do
  Call.ensure (env.secureCollateralThreshold vaultId.currencies).isSome
    (.vaultRegistry .thresholdNotSet)
  Call.ensure (env.premiumRedeemThreshold vaultId.currencies).isSome
    (.vaultRegistry .thresholdNotSet)
  Call.ensure (env.liquidationCollateralThreshold vaultId.currencies).isSome
    (.vaultRegistry .thresholdNotSet)
  Call.ensure (env.minimumCollateralVault vaultId.collateralCurrency).isSome
    (.vaultRegistry .minimumCollateralNotSet)
  Call.ensure (env.systemCollateralCeiling vaultId.currencies).isSome
    (.vaultRegistry .ceilingNotSet)
  let _ ← Call.ofExcept (getBitcoinPublicKey env vaultId.accountId)
  let amount : Amount CurrencyId := ⟨collateral, vaultId.collateralCurrency⟩
  let aboveMinimum ← Call.ofExcept
    (amount.ge (getMinimumCollateralVault env vaultId.collateralCurrency))
  Call.ensure aboveMinimum (.vaultRegistry .insufficientVaultCollateralAmount)
  onRegistry do
    let s ← get
    Call.ensure (s.vaults vaultId).isNone (.vaultRegistry .vaultAlreadyRegistered)
    set { s with vaults := Function.update s.vaults vaultId (some Vault.new) }
  tryDepositCollateral env vaultId amount

/-- A vault accepts issue requests, or does not. -/
def acceptNewIssues (env : Env AccountId CurrencyId H256)
    (vaultId : VaultId AccountId CurrencyId) (acceptNewIssues : Bool) :
    ChainCall AccountId CurrencyId H256 F Tokens Unit := do
  onRegistry do
    let vault ← Call.reads (·.getActiveRichVaultFromId vaultId)
    let _ ← vault.setAcceptNewIssues acceptNewIssues
  onVaultSettingsChange env vaultId

/-- A vault sets a threshold of its own, above the global one. -/
def setCustomSecureThreshold (env : Env AccountId CurrencyId H256)
    (vaultId : VaultId AccountId CurrencyId) (customThreshold : Option FixedU128) :
    ChainCall AccountId CurrencyId H256 F Tokens Unit := do
  (match customThreshold with
    | none => pure ()
    | some threshold => do
      let globalThreshold ← Call.ofOption (.vaultRegistry .thresholdNotSet)
        (env.secureCollateralThreshold vaultId.currencies)
      Call.ensure (globalThreshold.inner < threshold.inner)
        (.vaultRegistry .thresholdNotAboveGlobalThreshold))
  onRegistry do
    let vault ← Call.reads (·.getRichVaultFromId vaultId)
    let _ ← vault.setCustomSecureThreshold customThreshold
  onVaultSettingsChange env vaultId

/-- Liquidate a vault below the liquidation threshold. -/
def reportUndercollateralizedVault (env : Env AccountId CurrencyId H256)
    (vaultId : VaultId AccountId CurrencyId) :
    ChainCall AccountId CurrencyId H256 F Tokens Unit := do
  let s ← get
  let vault ← Call.ofExcept (s.registry.getVaultFromId vaultId)
  let liquidationThreshold ← Call.ofOption (.vaultRegistry .thresholdNotSet)
    (env.liquidationCollateralThreshold vaultId.currencies)
  let below ← Call.ofExcept
    (isVaultBelowLiquidationThreshold env s vaultId vault liquidationThreshold)
  if below then
    liquidateVault env vaultId
  else
    throw (.vaultRegistry .vaultNotBelowLiquidationThreshold)

/-- Recover a vault from a liquidated status. -/
def recoverVaultId (vaultId : VaultId AccountId CurrencyId) :
    ChainCall AccountId CurrencyId H256 F Tokens Unit :=
  onRegistry do
    let liquidated ← Call.reads (·.isVaultLiquidated vaultId)
    Call.ensure liquidated (.vaultRegistry .vaultNotRecoverable)
    let vault ← Call.reads (·.getRichVaultFromId vaultId)
    Call.ensure vault.toBeRedeemedTokens.isZero (.vaultRegistry .vaultNotRecoverable)
    let _ ← vault.setAcceptNewIssues true

end Interbtc.Chain
