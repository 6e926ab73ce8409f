import Interbtc.Bridge.Vaults

/-!
# Nomination

Users add collateral to the staking pool of a vault that has opted in, and share its
rewards and its slashes.
-/

namespace Interbtc.Chain

open Core

variable {AccountId CurrencyId H256 F Tokens : Type} [DecidableEq AccountId]
  [DecidableEq CurrencyId] [DecidableEq H256] [FixedPointNumber F]
  [MultiCurrency Tokens AccountId CurrencyId] [CurrencyConfig CurrencyId]
  [AccountConfig AccountId]

/-- Collateral in the current staking pool has to stay when the vault would fall below the
secure threshold. -/
def ensureWithdrawalAllowed (env : Env AccountId CurrencyId H256)
    (vaultId : VaultId AccountId CurrencyId) (nominatorId : AccountId)
    (maybeAmount : Option (Amount CurrencyId)) :
    ChainCall AccountId CurrencyId H256 F Tokens Unit := do
  let s ← get
  let allowed ← Call.ofExcept (isAllowedToWithdrawCollateral env s vaultId maybeAmount)
  Call.ensure allowed (.nomination .cannotWithdrawCollateral)
  if vaultId.accountId = nominatorId then
    return
  else
    Call.ensure env.isNominationEnabled (.nomination .vaultNominationDisabled)
    Call.ensure (s.nomination.isOptedIn vaultId) (.nomination .vaultNotOptedInToNomination)

/-- Withdraw collateral of a vault, as its operator or as a nominator. -/
def withdrawCollateral (env : Env AccountId CurrencyId H256)
    (vaultId : VaultId AccountId CurrencyId) (nominatorId : AccountId)
    (maybeAmount : Option ℕ) (index : Option ℕ) :
    ChainCall AccountId CurrencyId H256 F Tokens Unit := do
  let s ← get
  let nonce := s.pools.vaultStaking.nonce vaultId
  let index := min (index.getD 0) nonce
  let maybeAmount : Option (Amount CurrencyId) :=
    maybeAmount.map fun x => ⟨x, vaultId.collateralCurrency⟩
  -- withdrawing from a stale staking pool is always allowed
  (if index = nonce then
      ensureWithdrawalAllowed env vaultId nominatorId maybeAmount
    else pure ())
  let amount ← withdrawPoolCollateral env vaultId nominatorId maybeAmount (some index)
  onTokens (amount.unlockOn vaultId.accountId)
  onTokens (amount.transfer vaultId.accountId nominatorId)
  onRegistry (VaultRegistry.decreaseTotalBackingCollateral vaultId.currencies amount)

/-- Store whether a vault accepts nominators. -/
def setOptedIn (vaultId : VaultId AccountId CurrencyId) (optedIn : Bool) :
    ChainCall AccountId CurrencyId H256 F Tokens Unit :=
  modify fun s =>
    { s with
      nomination :=
        { s.nomination with isOptedIn := Function.update s.nomination.isOptedIn vaultId optedIn } }

/-- A vault accepts nominators, once. -/
def optInToNomination (env : Env AccountId CurrencyId H256)
    (vaultId : VaultId AccountId CurrencyId) :
    ChainCall AccountId CurrencyId H256 F Tokens Unit := do
  let s ← get
  Call.ensure env.isNominationEnabled (.nomination .vaultNominationDisabled)
  Call.ensure (s.registry.vaults vaultId).isSome (.nomination .vaultNotFound)
  Call.ensure (s.nomination.isOptedIn vaultId = false)
    (.nomination .vaultAlreadyOptedInToNomination)
  setOptedIn vaultId true

/-- A vault refunds its nominators and accepts no more. -/
def optOutOfNomination (env : Env AccountId CurrencyId H256)
    (vaultId : VaultId AccountId CurrencyId) :
    ChainCall AccountId CurrencyId H256 F Tokens Unit := do
  let s ← get
  Call.ensure (s.nomination.isOptedIn vaultId) (.nomination .vaultNotOptedInToNomination)
  let totalNominatedCollateral ← Call.ofExcept (s.getTotalNominatedCollateral vaultId)
  let allowed ← Call.ofExcept
    (isAllowedToWithdrawCollateral env s vaultId (some totalNominatedCollateral))
  Call.ensure allowed (.nomination .collateralizationTooLow)
  let refundedCollateral ← kickNominators env vaultId
  onRegistry
    (VaultRegistry.decreaseTotalBackingCollateral vaultId.currencies refundedCollateral)
  setOptedIn vaultId false

/-- Store the most collateral nominators may add. -/
def setNominationLimit (vaultId : VaultId AccountId CurrencyId) (limit : ℕ) :
    ChainCall AccountId CurrencyId H256 F Tokens Unit :=
  modify fun s =>
    { s with
      nomination :=
        { s.nomination with
          nominationLimit := Function.update s.nomination.nominationLimit vaultId limit } }

/-! ## Rewards -/

/-- Store the part of the rewards a vault with nominators keeps, at most all of it. -/
def setCommission (vaultId : VaultId AccountId CurrencyId) (commission : FixedU128) :
    ChainCall AccountId CurrencyId H256 F Tokens Unit := do
  let s ← get
  Call.ensure (s.nomination.isOptedIn vaultId) (.nomination .vaultNotOptedInToNomination)
  Call.ensure (commission.inner ≤ FixedU128.DIV) (.fee .aboveMaxExpectedValue)
  modify fun s => { s with commission := Function.update s.commission vaultId (some commission) }

/-- Withdraw the rewards of a nominator in the wrapped and in the native currency. -/
def withdrawRewards (vaultId : VaultId AccountId CurrencyId) (nominatorId : AccountId)
    (index : Option ℕ) : ChainCall AccountId CurrencyId H256 F Tokens Unit := do
  withdrawVaultRewards vaultId nominatorId index vaultId.wrappedCurrency
  withdrawVaultRewards vaultId nominatorId index CurrencyConfig.native

end Interbtc.Chain
