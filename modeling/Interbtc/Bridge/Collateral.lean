import Interbtc.Bridge.Chain

/-!
# Collateral

Collateral backs issued tokens from the staking pool of a vault. What a vault has
deposited determines its share of the rewards, so every change of the pool is
propagated to the reward pools. Funds move between the places they can be kept in.
-/

namespace Interbtc

open Core

/-- The places funds are kept in. -/
inductive CurrencySource (AccountId CurrencyId : Type)
  /-- Used by a vault to back issued tokens. -/
  | collateral (vaultId : VaultId AccountId CurrencyId)
  /-- Put down by a replace request that has not been accepted yet. -/
  | availableReplaceCollateral (vaultId : VaultId AccountId CurrencyId)
  /-- Put down by a replace request that has been accepted. -/
  | activeReplaceCollateral (vaultId : VaultId AccountId CurrencyId)
  /-- The griefing collateral of an issue request. -/
  | userGriefing (accountId : AccountId)
  | freeBalance (accountId : AccountId)
  /-- Kept of a liquidated vault for its open redeem requests. -/
  | liquidatedCollateral (vaultId : VaultId AccountId CurrencyId)
  | liquidationVault (currencyPair : VaultCurrencyPair CurrencyId)

/-- The account that holds the funds. -/
def CurrencySource.accountId {AccountId CurrencyId : Type} [AccountConfig AccountId] :
    CurrencySource AccountId CurrencyId → AccountId
  | .collateral v | .availableReplaceCollateral v | .activeReplaceCollateral v
  | .liquidatedCollateral v => v.accountId
  | .userGriefing a | .freeBalance a => a
  | .liquidationVault _ => AccountConfig.liquidationVault

namespace Chain

variable {AccountId CurrencyId H256 F Tokens : Type} [DecidableEq AccountId]
  [DecidableEq CurrencyId] [DecidableEq H256] [FixedPointNumber F]
  [MultiCurrency Tokens AccountId CurrencyId] [CurrencyConfig CurrencyId]
  [AccountConfig AccountId]

/-! ## Views -/

/-- The collateral in the current staking pool of a vault. -/
def getBackingCollateral (s : Chain AccountId CurrencyId H256 F Tokens)
    (vaultId : VaultId AccountId CurrencyId) : Except DispatchError (Amount CurrencyId) := do
  let amount ← VaultStaking.getTotalStake s.pools.vaultStaking vaultId
  return ⟨amount, vaultId.collateralCurrency⟩

/-- The collateral a vault has deposited itself. -/
def computeCollateral (s : Chain AccountId CurrencyId H256 F Tokens)
    (vaultId : VaultId AccountId CurrencyId) : Except DispatchError (Amount CurrencyId) := do
  let amount ← VaultStaking.getStake s.pools.vaultStaking none vaultId vaultId.accountId
  return ⟨amount, vaultId.collateralCurrency⟩

/-- The secure threshold of a registered vault. -/
def getVaultSecureThreshold (env : Env AccountId CurrencyId H256)
    (s : Chain AccountId CurrencyId H256 F Tokens) (vaultId : VaultId AccountId CurrencyId) :
    Except DispatchError FixedU128 := do
  let vault ← s.registry.getRichVaultFromId vaultId
  vault.getSecureThreshold env

/-! ## The reward pools of a vault -/

/-- The stake of a currency follows the collateral it is staked with. -/
def updateCapacityStake (env : Env AccountId CurrencyId H256) (currencyId : CurrencyId) :
    ChainCall AccountId CurrencyId H256 F Tokens Unit := do
  let s ← get
  let totalRewardStake ← Call.ofExcept (s.pools.vaultRewards.getTotalStake currencyId)
  let newCapacityStake ←
    Call.ofExcept (env.convert ⟨totalRewardStake, currencyId⟩ CurrencyConfig.wrapped)
  CapacityRewards.zoom (Rewards.setStake () currencyId newCapacityStake.amount)

/-- Propagate the stake of a vault to the reward pools. -/
def updateRewardStake (env : Env AccountId CurrencyId H256)
    (vaultId : VaultId AccountId CurrencyId) :
    ChainCall AccountId CurrencyId H256 F Tokens Unit := do
  let s ← get
  let vault ← Call.ofExcept (s.registry.getVaultFromId vaultId)
  let newRewardStake ← (if vault.acceptsNewIssues then do
      let totalCollateral ← Call.ofExcept (s.getBackingCollateral vaultId)
      let secureThreshold ← Call.ofExcept (getVaultSecureThreshold env s vaultId)
      Call.ofExcept (totalCollateral.checkedDiv secureThreshold)
    else
      -- a vault that is not accepting new issues gets no rewards
      pure (Amount.zero vaultId.collateralCurrency))
  VaultRewards.zoom
    (Rewards.setStake vaultId.collateralCurrency vaultId newRewardStake.amount)
  updateCapacityStake env vaultId.collateralCurrency

/-- Add collateral to the staking pool of a vault. -/
def depositPoolCollateral (env : Env AccountId CurrencyId H256)
    (vaultId : VaultId AccountId CurrencyId) (nominatorId : AccountId)
    (amount : Amount CurrencyId) : ChainCall AccountId CurrencyId H256 F Tokens Unit := do
  distributeAllVaultRewards vaultId
  VaultStaking.zoom
    (VaultStaking.depositStake CurrencyConfig.native vaultId nominatorId amount.amount)
  updateRewardStake env vaultId

/-- Withdraw stake of a given amount, or all of it. -/
def withdrawStake (vaultId : VaultId AccountId CurrencyId) (nominatorId : AccountId)
    (maybeAmount : Option (Amount CurrencyId)) (nonce : Option ℕ) :
    ChainCall AccountId CurrencyId H256 F Tokens (Amount CurrencyId) :=
  match maybeAmount with
  | some amount => do
    VaultStaking.zoom
      (VaultStaking.withdrawStake CurrencyConfig.native nonce vaultId nominatorId amount.amount)
    return amount
  | none => do
    let balance ← VaultStaking.zoom
      (VaultStaking.withdrawAllStake CurrencyConfig.native nonce vaultId nominatorId)
    return ⟨balance, vaultId.collateralCurrency⟩

/-- Take collateral from a staking pool of a vault. -/
def withdrawPoolCollateral (env : Env AccountId CurrencyId H256)
    (vaultId : VaultId AccountId CurrencyId) (nominatorId : AccountId)
    (maybeAmount : Option (Amount CurrencyId)) (nonce : Option ℕ) :
    ChainCall AccountId CurrencyId H256 F Tokens (Amount CurrencyId) := do
  distributeAllVaultRewards vaultId
  let amount ← withdrawStake vaultId nominatorId maybeAmount nonce
  updateRewardStake env vaultId
  return amount

/-- Slash all who have collateral in the staking pool of a vault. -/
def slashPoolCollateral (env : Env AccountId CurrencyId H256)
    (vaultId : VaultId AccountId CurrencyId) (amount : Amount CurrencyId) :
    ChainCall AccountId CurrencyId H256 F Tokens Unit := do
  distributeAllVaultRewards vaultId
  VaultStaking.zoom (VaultStaking.slashStake CurrencyConfig.native vaultId amount.amount)
  updateRewardStake env vaultId

/-- Refund all nominators of a vault, and return what they got back. -/
def kickNominators (env : Env AccountId CurrencyId H256)
    (vaultId : VaultId AccountId CurrencyId) :
    ChainCall AccountId CurrencyId H256 F Tokens (Amount CurrencyId) := do
  distributeAllVaultRewards vaultId
  let refunded ← VaultStaking.zoom (VaultStaking.forceRefund CurrencyConfig.native vaultId)
  updateRewardStake env vaultId
  return ⟨refunded, vaultId.collateralCurrency⟩

/-- Called after a setting of a vault that influences its capacity has been written. -/
def onVaultSettingsChange (env : Env AccountId CurrencyId H256)
    (vaultId : VaultId AccountId CurrencyId) :
    ChainCall AccountId CurrencyId H256 F Tokens Unit := do
  distributeAllVaultRewards vaultId
  updateRewardStake env vaultId

/-! ## Deposits -/

/-- The collateral of a vault that is not its own. -/
def getTotalNominatedCollateral (s : Chain AccountId CurrencyId H256 F Tokens)
    (vaultId : VaultId AccountId CurrencyId) : Except DispatchError (Amount CurrencyId) := do
  let vaultBackingCollateral ← s.getBackingCollateral vaultId
  let vaultActualCollateral ← s.computeCollateral vaultId
  vaultBackingCollateral.checkedSub vaultActualCollateral

/-- A nominator may deposit up to the limit of a vault that is opted in. -/
def ensureNominationAllowed (env : Env AccountId CurrencyId H256)
    (vaultId : VaultId AccountId CurrencyId) (amount : Amount CurrencyId) :
    ChainCall AccountId CurrencyId H256 F Tokens Unit := do
  let s ← get
  let totalNominatedCollateral ← Call.ofExcept (s.getTotalNominatedCollateral vaultId)
  let newNominatedCollateral ← Call.ofExcept (totalNominatedCollateral.checkedAdd amount)
  let maxNominatableCollateral : Amount CurrencyId :=
    ⟨s.nomination.nominationLimit vaultId, vaultId.collateralCurrency⟩
  Call.ensure env.isNominationEnabled (.nomination .vaultNominationDisabled)
  Call.ensure (s.nomination.isOptedIn vaultId) (.nomination .vaultNotOptedInToNomination)
  let below ← Call.ofExcept (newNominatedCollateral.le maxNominatableCollateral)
  Call.ensure below (.nomination .nominationExceedsLimit)

/-- Lock an amount and add it to the collateral of a vault. -/
def depositCollateral (env : Env AccountId CurrencyId H256)
    (vaultId : VaultId AccountId CurrencyId) (nominatorId : AccountId) (amount : ℕ) :
    ChainCall AccountId CurrencyId H256 F Tokens Unit := do
  let amount : Amount CurrencyId := ⟨amount, vaultId.collateralCurrency⟩
  (if vaultId.accountId = nominatorId then pure () else do
    ensureNominationAllowed env vaultId amount
    onTokens (amount.transfer nominatorId vaultId.accountId))
  depositPoolCollateral env vaultId nominatorId amount
  onTokens (amount.lockOn vaultId.accountId)
  onRegistry (VaultRegistry.tryIncreaseTotalBackingCollateral env vaultId.currencies amount)

/-- A vault deposits collateral of its own. -/
def tryDepositCollateral (env : Env AccountId CurrencyId H256)
    (vaultId : VaultId AccountId CurrencyId) (amount : Amount CurrencyId) :
    ChainCall AccountId CurrencyId H256 F Tokens Unit :=
  depositCollateral env vaultId vaultId.accountId amount.amount

/-! ## Moving funds -/

/-- What there is at a source of funds. -/
def currentBalance (s : Chain AccountId CurrencyId H256 F Tokens)
    (source : CurrencySource AccountId CurrencyId) (currencyId : CurrencyId) :
    Except DispatchError (Amount CurrencyId) :=
  match source with
  | .collateral vaultId => s.getBackingCollateral vaultId
  | .availableReplaceCollateral vaultId => do
    let vault ← s.registry.getVaultFromId vaultId
    return ⟨vault.replaceCollateral, CurrencyConfig.griefingCollateral⟩
  | .activeReplaceCollateral vaultId => do
    let vault ← s.registry.getVaultFromId vaultId
    return ⟨vault.activeReplaceCollateral, CurrencyConfig.griefingCollateral⟩
  | .userGriefing accountId =>
    .ok ⟨(MultiCurrency.balances s.tokens accountId currencyId).reserved, currencyId⟩
  | .freeBalance accountId =>
    .ok ⟨(MultiCurrency.balances s.tokens accountId currencyId).free, currencyId⟩
  | .liquidatedCollateral vaultId => do
    let vault ← s.registry.getVaultFromId vaultId
    return ⟨vault.liquidatedCollateral, vaultId.collateralCurrency⟩
  | .liquidationVault currencyPair =>
    .ok ⟨(s.registry.liquidationVault currencyPair).collateral, currencyPair.collateral⟩

/-- Take backing collateral from a vault, and leave it free at its account. -/
def slashBackingCollateral (env : Env AccountId CurrencyId H256)
    (vaultId : VaultId AccountId CurrencyId) (amount : Amount CurrencyId) :
    ChainCall AccountId CurrencyId H256 F Tokens Unit := do
  onTokens (amount.unlockOn vaultId.accountId)
  onRegistry (VaultRegistry.decreaseTotalBackingCollateral vaultId.currencies amount)
  slashPoolCollateral env vaultId amount

/-- Move funds to the free balance of the account that holds them. -/
def takeFunds (env : Env AccountId CurrencyId H256) (source : CurrencySource AccountId CurrencyId)
    (amount : Amount CurrencyId) : ChainCall AccountId CurrencyId H256 F Tokens Unit :=
  match source with
  | .collateral vaultId => do
    Call.ensure (vaultId.collateralCurrency = amount.currencyId)
      (.vaultRegistry .invalidCurrency)
    slashBackingCollateral env vaultId amount
  | .availableReplaceCollateral vaultId => do
    onRegistry do
      let vault ← Call.reads (·.getActiveRichVaultFromId vaultId)
      let _ ← vault.decreaseAvailableReplaceCollateral amount
    onTokens (amount.unlockOn source.accountId)
  | .activeReplaceCollateral vaultId => do
    onRegistry do
      let vault ← Call.reads (·.getRichVaultFromId vaultId)
      let _ ← vault.decreaseActiveReplaceCollateral amount
    onTokens (amount.unlockOn source.accountId)
  | .userGriefing _ => onTokens (amount.unlockOn source.accountId)
  | .liquidatedCollateral vaultId => do
    onRegistry (VaultRegistry.decreaseTotalBackingCollateral vaultId.currencies amount)
    onTokens (amount.unlockOn source.accountId)
  | .liquidationVault currencyPair => do
    onRegistry do
      let s ← get
      let _ ← (s.getRichLiquidationVault currencyPair).decreaseCollateral amount
      VaultRegistry.decreaseTotalBackingCollateral currencyPair amount
    onTokens (amount.unlockOn source.accountId)
  | .freeBalance _ => pure ()

/-- Move funds from the free balance of the account that is to hold them. -/
def putFunds (env : Env AccountId CurrencyId H256) (target : CurrencySource AccountId CurrencyId)
    (amount : Amount CurrencyId) : ChainCall AccountId CurrencyId H256 F Tokens Unit :=
  match target with
  | .collateral vaultId => do
    Call.ensure (vaultId.collateralCurrency = amount.currencyId)
      (.vaultRegistry .invalidCurrency)
    tryDepositCollateral env vaultId amount
  | .availableReplaceCollateral vaultId => do
    onRegistry do
      let vault ← Call.reads (·.getActiveRichVaultFromId vaultId)
      let _ ← vault.increaseAvailableReplaceCollateral amount
    onTokens (amount.lockOn target.accountId)
  | .activeReplaceCollateral vaultId => do
    onRegistry do
      let vault ← Call.reads (·.getRichVaultFromId vaultId)
      let _ ← vault.increaseActiveReplaceCollateral amount
    onTokens (amount.lockOn target.accountId)
  | .userGriefing _ => onTokens (amount.lockOn target.accountId)
  | .liquidatedCollateral vaultId => do
    onRegistry (VaultRegistry.tryIncreaseTotalBackingCollateral env vaultId.currencies amount)
    onTokens (amount.lockOn target.accountId)
  | .liquidationVault currencyPair => do
    onRegistry do
      VaultRegistry.tryIncreaseTotalBackingCollateral env currencyPair amount
      let s ← get
      let _ ← (s.getRichLiquidationVault currencyPair).increaseCollateral amount
    onTokens (amount.lockOn target.accountId)
  | .freeBalance _ => pure ()

/-- Take funds from a source and bring them to a target. -/
def transferFunds (env : Env AccountId CurrencyId H256)
    (source target : CurrencySource AccountId CurrencyId) (amount : Amount CurrencyId) :
    ChainCall AccountId CurrencyId H256 F Tokens Unit := do
  takeFunds env source amount
  onTokens (amount.transfer source.accountId target.accountId)
  putFunds env target amount

/-- Transfer the amount, or what there is of it. -/
def transferFundsSaturated (env : Env AccountId CurrencyId H256)
    (source target : CurrencySource AccountId CurrencyId) (amount : Amount CurrencyId) :
    ChainCall AccountId CurrencyId H256 F Tokens (Amount CurrencyId) := do
  let s ← get
  let availableAmount ← Call.ofExcept (s.currentBalance source amount.currencyId)
  let less ← Call.ofExcept (availableAmount.lt amount)
  let amount := if less then availableAmount else amount
  transferFunds env source target amount
  return amount

end Chain

end Interbtc
