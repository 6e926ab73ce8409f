import Interbtc.Environment

/-!
# Vaults

The storage of the vault registry and the token counters of a vault. A liquidated
vault redirects its counters to the liquidation vault of its currency pair; only its
to-be-redeemed tokens are also kept under the vault itself.
-/

namespace Interbtc

open Core

/-- Whether a vault is liquidated. -/
inductive VaultStatus
  /-- The flag tells whether the vault accepts new issue requests. -/
  | active (acceptsNewIssues : Bool)
  | liquidated
  deriving DecidableEq

/-- What is stored of a vault under its identifier. -/
structure Vault where
  status : VaultStatus
  bannedUntil : Option ℕ
  secureCollateralThreshold : Option FixedU128
  toBeIssuedTokens : ℕ
  issuedTokens : ℕ
  toBeRedeemedTokens : ℕ
  /-- Tokens of a replace request that no other vault has accepted yet. -/
  toBeReplacedTokens : ℕ
  /-- Griefing collateral for the tokens above. -/
  replaceCollateral : ℕ
  /-- Griefing collateral for accepted replace requests. -/
  activeReplaceCollateral : ℕ
  /-- Collateral kept upon liquidation for the remaining to-be-redeemed tokens. -/
  liquidatedCollateral : ℕ
  deriving DecidableEq

namespace Vault

/-- An active vault that accepts issue requests, with nothing counted. -/
def new : Vault where
  status := .active true
  bannedUntil := none
  secureCollateralThreshold := none
  toBeIssuedTokens := 0
  issuedTokens := 0
  toBeRedeemedTokens := 0
  toBeReplacedTokens := 0
  replaceCollateral := 0
  activeReplaceCollateral := 0
  liquidatedCollateral := 0

/-- Liquidation is a status, and ends with recovery only. -/
def isLiquidated (v : Vault) : Bool := v.status == .liquidated

/-- Whether issue requests are accepted. -/
def acceptsNewIssues (v : Vault) : Bool := v.status == .active true

/-- The counter of what is to be issued. -/
def ToBeIssuedTokens : Lens Vault ℕ where
  get v := v.toBeIssuedTokens
  set x v := { v with toBeIssuedTokens := x }

/-- The counter of what is issued. -/
def IssuedTokens : Lens Vault ℕ where
  get v := v.issuedTokens
  set x v := { v with issuedTokens := x }

/-- The counter of what is to be redeemed. -/
def ToBeRedeemedTokens : Lens Vault ℕ where
  get v := v.toBeRedeemedTokens
  set x v := { v with toBeRedeemedTokens := x }

/-- Griefing collateral of replace requests that can be accepted. -/
def ReplaceCollateral : Lens Vault ℕ where
  get v := v.replaceCollateral
  set x v := { v with replaceCollateral := x }

/-- Griefing collateral of accepted replace requests. -/
def ActiveReplaceCollateral : Lens Vault ℕ where
  get v := v.activeReplaceCollateral
  set x v := { v with activeReplaceCollateral := x }

/-- Collateral kept for open redeem requests after a liquidation. -/
def LiquidatedCollateral : Lens Vault ℕ where
  get v := v.liquidatedCollateral
  set x v := { v with liquidatedCollateral := x }

end Vault

/-- What is stored of the liquidation vault of a currency pair. -/
structure SystemVault where
  toBeIssuedTokens : ℕ
  issuedTokens : ℕ
  toBeRedeemedTokens : ℕ
  collateral : ℕ
  deriving DecidableEq

namespace SystemVault

/-- The liquidation vault of a pair in which no vault has been liquidated. -/
def default : SystemVault := ⟨0, 0, 0, 0⟩

/-- The counter of what is to be issued. -/
def ToBeIssuedTokens : Lens SystemVault ℕ where
  get v := v.toBeIssuedTokens
  set x v := { v with toBeIssuedTokens := x }

/-- The counter of what is issued. -/
def IssuedTokens : Lens SystemVault ℕ where
  get v := v.issuedTokens
  set x v := { v with issuedTokens := x }

/-- The counter of what is to be redeemed. -/
def ToBeRedeemedTokens : Lens SystemVault ℕ where
  get v := v.toBeRedeemedTokens
  set x v := { v with toBeRedeemedTokens := x }

/-- The counter of the collateral. -/
def Collateral : Lens SystemVault ℕ where
  get v := v.collateral
  set x v := { v with collateral := x }

end SystemVault

/-- The storage of the vault registry. -/
structure VaultRegistry (AccountId CurrencyId : Type) where
  vaults : VaultId AccountId CurrencyId → Option Vault
  liquidationVault : VaultCurrencyPair CurrencyId → SystemVault
  /-- The collateral of all vaults of a pair, the liquidation vault included. -/
  totalUserVaultCollateral : VaultCurrencyPair CurrencyId → ℕ

/-- Storage in which no vault is registered. -/
def VaultRegistry.default {AccountId CurrencyId : Type} : VaultRegistry AccountId CurrencyId where
  vaults _ := none
  liquidationVault _ := .default
  totalUserVaultCollateral _ := 0

/-- A call on the vault registry alone. -/
abbrev RegistryCall (AccountId CurrencyId α : Type) : Type :=
  Call DispatchError (VaultRegistry AccountId CurrencyId) α

/-- The copy of a vault that a call works on. -/
structure RichVault (AccountId CurrencyId : Type) where
  id : VaultId AccountId CurrencyId
  data : Vault

/-- The copy of a liquidation vault that a call works on. -/
structure RichSystemVault (CurrencyId : Type) where
  currencyPair : VaultCurrencyPair CurrencyId
  data : SystemVault

variable {AccountId CurrencyId H256 : Type} [DecidableEq AccountId] [DecidableEq CurrencyId]

/-! ## Reading vaults -/

namespace VaultRegistry

/-- A vault has to be registered. -/
def getVaultFromId (s : VaultRegistry AccountId CurrencyId)
    (vaultId : VaultId AccountId CurrencyId) : Except DispatchError Vault :=
  okOr (.vaultRegistry .vaultNotFound) (s.vaults vaultId)

/-- Liquidated vaults are refused. -/
def getActiveVaultFromId (s : VaultRegistry AccountId CurrencyId)
    (vaultId : VaultId AccountId CurrencyId) : Except DispatchError Vault := do
  let vault ← s.getVaultFromId vaultId
  if vault.isLiquidated then
    throw (.vaultRegistry .vaultLiquidated)
  else
    return vault

/-- A copy of a vault, with its id. -/
def getRichVaultFromId (s : VaultRegistry AccountId CurrencyId)
    (vaultId : VaultId AccountId CurrencyId) :
    Except DispatchError (RichVault AccountId CurrencyId) := do
  let data ← s.getVaultFromId vaultId
  return ⟨vaultId, data⟩

/-- A copy of an active vault, with its id. -/
def getActiveRichVaultFromId (s : VaultRegistry AccountId CurrencyId)
    (vaultId : VaultId AccountId CurrencyId) :
    Except DispatchError (RichVault AccountId CurrencyId) := do
  let data ← s.getActiveVaultFromId vaultId
  return ⟨vaultId, data⟩

/-- A copy of a liquidation vault, which is there for every pair of currencies. -/
def getRichLiquidationVault (s : VaultRegistry AccountId CurrencyId)
    (currencyPair : VaultCurrencyPair CurrencyId) : RichSystemVault CurrencyId :=
  ⟨currencyPair, s.liquidationVault currencyPair⟩

/-- Whether a registered vault is liquidated. -/
def isVaultLiquidated (s : VaultRegistry AccountId CurrencyId)
    (vaultId : VaultId AccountId CurrencyId) : Except DispatchError Bool := do
  let vault ← s.getVaultFromId vaultId
  return vault.isLiquidated

end VaultRegistry

/-! ## The liquidation vault -/

namespace RichSystemVault

/-- The currency the vault issues. -/
def wrappedCurrency (v : RichSystemVault CurrencyId) : CurrencyId := v.currencyPair.wrapped

/-- What is issued, as an amount. -/
def issuedTokens (v : RichSystemVault CurrencyId) : Amount CurrencyId :=
  ⟨v.data.issuedTokens, v.wrappedCurrency⟩

/-- What is to be issued, as an amount. -/
def toBeIssuedTokens (v : RichSystemVault CurrencyId) : Amount CurrencyId :=
  ⟨v.data.toBeIssuedTokens, v.wrappedCurrency⟩

/-- What is to be redeemed, as an amount. -/
def toBeRedeemedTokens (v : RichSystemVault CurrencyId) : Amount CurrencyId :=
  ⟨v.data.toBeRedeemedTokens, v.wrappedCurrency⟩

/-- What is issued and not yet to be redeemed. -/
def redeemableTokens (v : RichSystemVault CurrencyId) :
    Except DispatchError (Amount CurrencyId) :=
  v.issuedTokens.checkedSub v.toBeRedeemedTokens

/-- What is issued or to be issued, and not to be redeemed. -/
def toBeBackedTokens (v : RichSystemVault CurrencyId) :
    Except DispatchError (Amount CurrencyId) := do
  let backed ← v.issuedTokens.checkedAdd v.toBeIssuedTokens
  backed.checkedSub v.toBeRedeemedTokens

/-- Change the copy and store it. -/
def update (v : RichSystemVault CurrencyId) (f : SystemVault → SystemVault) :
    RegistryCall AccountId CurrencyId (RichSystemVault CurrencyId) := do
  let v := { v with data := f v.data }
  modify fun s =>
    { s with liquidationVault := Function.update s.liquidationVault v.currencyPair v.data }
  return v

/-- Add to one field, which is an amount of `currencyId`. -/
def increase (v : RichSystemVault CurrencyId) (field : Lens SystemVault ℕ)
    (currencyId : CurrencyId) (x : Amount CurrencyId) :
    RegistryCall AccountId CurrencyId (RichSystemVault CurrencyId) := do
  let newValue ← Call.ofExcept (Amount.checkedAdd ⟨field.get v.data, currencyId⟩ x)
  v.update (field.set newValue.amount)

/-- Subtract from one field, which is an amount of `currencyId`. -/
def decrease (v : RichSystemVault CurrencyId) (field : Lens SystemVault ℕ)
    (currencyId : CurrencyId) (x : Amount CurrencyId) :
    RegistryCall AccountId CurrencyId (RichSystemVault CurrencyId) := do
  let newValue ← Call.ofExcept (Amount.checkedSub ⟨field.get v.data, currencyId⟩ x)
  v.update (field.set newValue.amount)

/-- Count more as issued. -/
def increaseIssued (v : RichSystemVault CurrencyId) (tokens : Amount CurrencyId) :
    RegistryCall AccountId CurrencyId (RichSystemVault CurrencyId) :=
  v.increase SystemVault.IssuedTokens v.wrappedCurrency tokens

/-- Count more as to be issued. -/
def increaseToBeIssued (v : RichSystemVault CurrencyId) (tokens : Amount CurrencyId) :
    RegistryCall AccountId CurrencyId (RichSystemVault CurrencyId) :=
  v.increase SystemVault.ToBeIssuedTokens v.wrappedCurrency tokens

/-- Count more as to be redeemed. -/
def increaseToBeRedeemed (v : RichSystemVault CurrencyId) (tokens : Amount CurrencyId) :
    RegistryCall AccountId CurrencyId (RichSystemVault CurrencyId) :=
  v.increase SystemVault.ToBeRedeemedTokens v.wrappedCurrency tokens

/-- Count less as issued. -/
def decreaseIssued (v : RichSystemVault CurrencyId) (tokens : Amount CurrencyId) :
    RegistryCall AccountId CurrencyId (RichSystemVault CurrencyId) :=
  v.decrease SystemVault.IssuedTokens v.wrappedCurrency tokens

/-- Count less as to be issued. -/
def decreaseToBeIssued (v : RichSystemVault CurrencyId) (tokens : Amount CurrencyId) :
    RegistryCall AccountId CurrencyId (RichSystemVault CurrencyId) :=
  v.decrease SystemVault.ToBeIssuedTokens v.wrappedCurrency tokens

/-- Count less as to be redeemed. -/
def decreaseToBeRedeemed (v : RichSystemVault CurrencyId) (tokens : Amount CurrencyId) :
    RegistryCall AccountId CurrencyId (RichSystemVault CurrencyId) :=
  v.decrease SystemVault.ToBeRedeemedTokens v.wrappedCurrency tokens

/-- Count more as collateral. -/
def increaseCollateral (v : RichSystemVault CurrencyId) (amount : Amount CurrencyId) :
    RegistryCall AccountId CurrencyId (RichSystemVault CurrencyId) :=
  v.increase SystemVault.Collateral v.currencyPair.collateral amount

/-- Count less as collateral. -/
def decreaseCollateral (v : RichSystemVault CurrencyId) (amount : Amount CurrencyId) :
    RegistryCall AccountId CurrencyId (RichSystemVault CurrencyId) :=
  v.decrease SystemVault.Collateral v.currencyPair.collateral amount

/-- Burnt tokens are no longer issued. -/
def burnIssued (v : RichSystemVault CurrencyId) (tokens : Amount CurrencyId) :
    RegistryCall AccountId CurrencyId (RichSystemVault CurrencyId) :=
  v.decreaseIssued tokens

end RichSystemVault

/-! ## A single vault -/

namespace RichVault

/-- The currency the vault issues. -/
def wrappedCurrency (v : RichVault AccountId CurrencyId) : CurrencyId := v.id.wrappedCurrency

/-- What is issued, as an amount. -/
def issuedTokens (v : RichVault AccountId CurrencyId) : Amount CurrencyId :=
  ⟨v.data.issuedTokens, v.wrappedCurrency⟩

/-- What is to be issued, as an amount. -/
def toBeIssuedTokens (v : RichVault AccountId CurrencyId) : Amount CurrencyId :=
  ⟨v.data.toBeIssuedTokens, v.wrappedCurrency⟩

/-- What is to be redeemed, as an amount. -/
def toBeRedeemedTokens (v : RichVault AccountId CurrencyId) : Amount CurrencyId :=
  ⟨v.data.toBeRedeemedTokens, v.wrappedCurrency⟩

/-- What is to be replaced, as an amount. -/
def toBeReplacedTokens (v : RichVault AccountId CurrencyId) : Amount CurrencyId :=
  ⟨v.data.toBeReplacedTokens, v.wrappedCurrency⟩

/-- What is kept for open redeem requests after a liquidation, as an amount. -/
def liquidatedCollateral (v : RichVault AccountId CurrencyId) : Amount CurrencyId :=
  ⟨v.data.liquidatedCollateral, v.id.collateralCurrency⟩

/-- What is issued and not yet to be redeemed. -/
def freelyRedeemableTokens (v : RichVault AccountId CurrencyId) :
    Except DispatchError (Amount CurrencyId) :=
  v.issuedTokens.checkedSub v.toBeRedeemedTokens

/-- What is issued or to be issued. -/
def backedTokens (v : RichVault AccountId CurrencyId) :
    Except DispatchError (Amount CurrencyId) :=
  v.issuedTokens.checkedAdd v.toBeIssuedTokens

/-- The issued tokens if all issues and redeems execute successfully. -/
def toBeBackedTokens (v : RichVault AccountId CurrencyId) :
    Except DispatchError (Amount CurrencyId) := do
  let backed ← v.backedTokens
  backed.checkedSub v.toBeRedeemedTokens

/-- The vault's own threshold, where it is above the global one. -/
def getSecureThreshold (env : Env AccountId CurrencyId H256)
    (v : RichVault AccountId CurrencyId) : Except DispatchError FixedU128 := do
  let globalThreshold ← okOr (.vaultRegistry .thresholdNotSet)
    (env.secureCollateralThreshold v.id.currencies)
  return (v.data.secureCollateralThreshold.getD .zero).max globalThreshold

/-- Whether the ban of the vault has not ended. -/
def isBanned (env : Env AccountId CurrencyId H256) (v : RichVault AccountId CurrencyId) : Bool :=
  match v.data.bannedUntil with
  | none => false
  | some height => decide (env.activeBlockNumber ≤ height)

/-- Banned vaults are refused. -/
def ensureNotBanned (env : Env AccountId CurrencyId H256) (v : RichVault AccountId CurrencyId) :
    Except DispatchError Unit :=
  if v.isBanned env then .error (.vaultRegistry .vaultBanned) else .ok ()

/-- Change the copy and store it. -/
def update (v : RichVault AccountId CurrencyId) (f : Vault → Vault) :
    RegistryCall AccountId CurrencyId (RichVault AccountId CurrencyId) := do
  let v := { v with data := f v.data }
  modify fun s => { s with vaults := Function.update s.vaults v.id (some v.data) }
  return v

/-- Add to one field, which is an amount of `currencyId`. -/
def increase (v : RichVault AccountId CurrencyId) (field : Lens Vault ℕ) (currencyId : CurrencyId)
    (x : Amount CurrencyId) :
    RegistryCall AccountId CurrencyId (RichVault AccountId CurrencyId) := do
  let newValue ← Call.ofExcept (Amount.checkedAdd ⟨field.get v.data, currencyId⟩ x)
  v.update (field.set newValue.amount)

/-- Subtract from one field, which is an amount of `currencyId`. -/
def decrease (v : RichVault AccountId CurrencyId) (field : Lens Vault ℕ) (currencyId : CurrencyId)
    (x : Amount CurrencyId) :
    RegistryCall AccountId CurrencyId (RichVault AccountId CurrencyId) := do
  let newValue ← Call.ofExcept (Amount.checkedSub ⟨field.get v.data, currencyId⟩ x)
  v.update (field.set newValue.amount)

/-! ### Counters -/

/-- Count more as issued, at the liquidation vault if the vault is liquidated. -/
def increaseIssued (v : RichVault AccountId CurrencyId) (tokens : Amount CurrencyId) :
    RegistryCall AccountId CurrencyId (RichVault AccountId CurrencyId) := do
  if v.data.isLiquidated then
    let s ← get
    let _ ← (s.getRichLiquidationVault v.id.currencies).increaseIssued tokens
    return v
  else
    v.increase Vault.IssuedTokens v.wrappedCurrency tokens

/-- Count more as to be issued, of an active vault only. -/
def increaseToBeIssued (v : RichVault AccountId CurrencyId) (tokens : Amount CurrencyId) :
    RegistryCall AccountId CurrencyId (RichVault AccountId CurrencyId) := do
  Call.ensure (v.data.isLiquidated = false) (.vaultRegistry .vaultNotFound)
  v.increase Vault.ToBeIssuedTokens v.wrappedCurrency tokens

/-- Count more as to be redeemed, of an active vault only. -/
def increaseToBeRedeemed (v : RichVault AccountId CurrencyId) (tokens : Amount CurrencyId) :
    RegistryCall AccountId CurrencyId (RichVault AccountId CurrencyId) := do
  Call.ensure (v.data.isLiquidated = false) (.vaultRegistry .vaultNotFound)
  v.increase Vault.ToBeRedeemedTokens v.wrappedCurrency tokens

/-- Count less as issued, at the liquidation vault if the vault is liquidated. -/
def decreaseIssued (v : RichVault AccountId CurrencyId) (tokens : Amount CurrencyId) :
    RegistryCall AccountId CurrencyId (RichVault AccountId CurrencyId) := do
  if v.data.isLiquidated then
    let s ← get
    let _ ← (s.getRichLiquidationVault v.id.currencies).decreaseIssued tokens
    return v
  else
    v.decrease Vault.IssuedTokens v.wrappedCurrency tokens

/-- Count less as to be issued, at the liquidation vault if the vault is liquidated. -/
def decreaseToBeIssued (v : RichVault AccountId CurrencyId) (tokens : Amount CurrencyId) :
    RegistryCall AccountId CurrencyId (RichVault AccountId CurrencyId) := do
  if v.data.isLiquidated then
    let s ← get
    let _ ← (s.getRichLiquidationVault v.id.currencies).decreaseToBeIssued tokens
    return v
  else
    v.decrease Vault.ToBeIssuedTokens v.wrappedCurrency tokens

/-- Also changes the liquidation vault when the vault is liquidated. -/
def decreaseToBeRedeemed (v : RichVault AccountId CurrencyId) (tokens : Amount CurrencyId) :
    RegistryCall AccountId CurrencyId (RichVault AccountId CurrencyId) := do
  let s ← get
  (if v.data.isLiquidated then do
    let _ ← (s.getRichLiquidationVault v.id.currencies).decreaseToBeRedeemed tokens
  else pure ())
  v.decrease Vault.ToBeRedeemedTokens v.wrappedCurrency tokens

/-- Tokens are to be issued. -/
def requestIssueTokens (v : RichVault AccountId CurrencyId) (tokens : Amount CurrencyId) :
    RegistryCall AccountId CurrencyId (RichVault AccountId CurrencyId) :=
  v.increaseToBeIssued tokens

/-- Tokens are no longer to be issued. -/
def cancelIssueTokens (v : RichVault AccountId CurrencyId) (tokens : Amount CurrencyId) :
    RegistryCall AccountId CurrencyId (RichVault AccountId CurrencyId) :=
  v.decreaseToBeIssued tokens

/-- Tokens that were to be issued are issued. -/
def executeIssueTokens (v : RichVault AccountId CurrencyId) (tokens : Amount CurrencyId) :
    RegistryCall AccountId CurrencyId (RichVault AccountId CurrencyId) := do
  let v ← v.decreaseToBeIssued tokens
  v.increaseIssued tokens

/-- Tokens are to be redeemed. -/
def requestRedeemTokens (v : RichVault AccountId CurrencyId) (tokens : Amount CurrencyId) :
    RegistryCall AccountId CurrencyId (RichVault AccountId CurrencyId) :=
  v.increaseToBeRedeemed tokens

/-- Tokens are no longer to be redeemed. -/
def cancelRedeemTokens (v : RichVault AccountId CurrencyId) (tokens : Amount CurrencyId) :
    RegistryCall AccountId CurrencyId (RichVault AccountId CurrencyId) :=
  v.decreaseToBeRedeemed tokens

/-- Tokens that were to be redeemed are no longer issued. -/
def executeRedeemTokens (v : RichVault AccountId CurrencyId) (tokens : Amount CurrencyId) :
    RegistryCall AccountId CurrencyId (RichVault AccountId CurrencyId) := do
  let v ← v.decreaseToBeRedeemed tokens
  v.decreaseIssued tokens

/-! ### Other fields -/

/-- Tokens the vault asks to be replaced, in place of those before. -/
def setToBeReplacedAmount (v : RichVault AccountId CurrencyId) (tokens : Amount CurrencyId) :
    RegistryCall AccountId CurrencyId (RichVault AccountId CurrencyId) :=
  v.update fun d => { d with toBeReplacedTokens := tokens.amount }

/-- The vault's own threshold, or none. -/
def setCustomSecureThreshold (v : RichVault AccountId CurrencyId) (threshold : Option FixedU128) :
    RegistryCall AccountId CurrencyId (RichVault AccountId CurrencyId) :=
  v.update fun d => { d with secureCollateralThreshold := threshold }

/-- An active vault accepts issue requests, or does not. -/
def setAcceptNewIssues (v : RichVault AccountId CurrencyId) (acceptNewIssues : Bool) :
    RegistryCall AccountId CurrencyId (RichVault AccountId CurrencyId) :=
  v.update fun d => { d with status := .active acceptNewIssues }

/-- Ban the vault up to a block. -/
def banUntil (v : RichVault AccountId CurrencyId) (height : ℕ) :
    RegistryCall AccountId CurrencyId (RichVault AccountId CurrencyId) :=
  v.update fun d => { d with bannedUntil := some height }

/-- Add to a field that is kept without its currency. -/
def increaseUntagged (v : RichVault AccountId CurrencyId) (field : Lens Vault ℕ)
    (x : Amount CurrencyId) :
    RegistryCall AccountId CurrencyId (RichVault AccountId CurrencyId) := do
  Call.ensure (field.get v.data + x.amount ≤ maxBalance) (.arithmetic .overflow)
  v.update (field.set (field.get v.data + x.amount))

/-- Subtract from a field that is kept without its currency. -/
def decreaseUntagged (v : RichVault AccountId CurrencyId) (field : Lens Vault ℕ)
    (x : Amount CurrencyId) :
    RegistryCall AccountId CurrencyId (RichVault AccountId CurrencyId) := do
  Call.ensure (x.amount ≤ field.get v.data) (.arithmetic .underflow)
  v.update (field.set (field.get v.data - x.amount))

/-- More griefing collateral for replace requests that can be accepted. -/
def increaseAvailableReplaceCollateral (v : RichVault AccountId CurrencyId)
    (amount : Amount CurrencyId) :
    RegistryCall AccountId CurrencyId (RichVault AccountId CurrencyId) :=
  v.increaseUntagged Vault.ReplaceCollateral amount

/-- Less griefing collateral for replace requests that can be accepted. -/
def decreaseAvailableReplaceCollateral (v : RichVault AccountId CurrencyId)
    (amount : Amount CurrencyId) :
    RegistryCall AccountId CurrencyId (RichVault AccountId CurrencyId) :=
  v.decreaseUntagged Vault.ReplaceCollateral amount

/-- More griefing collateral for accepted replace requests. -/
def increaseActiveReplaceCollateral (v : RichVault AccountId CurrencyId)
    (amount : Amount CurrencyId) :
    RegistryCall AccountId CurrencyId (RichVault AccountId CurrencyId) :=
  v.increaseUntagged Vault.ActiveReplaceCollateral amount

/-- Less griefing collateral for accepted replace requests. -/
def decreaseActiveReplaceCollateral (v : RichVault AccountId CurrencyId)
    (amount : Amount CurrencyId) :
    RegistryCall AccountId CurrencyId (RichVault AccountId CurrencyId) :=
  v.decreaseUntagged Vault.ActiveReplaceCollateral amount

/-- Keep more collateral for open redeem requests. -/
def increaseLiquidatedCollateral (v : RichVault AccountId CurrencyId)
    (amount : Amount CurrencyId) :
    RegistryCall AccountId CurrencyId (RichVault AccountId CurrencyId) :=
  v.increaseUntagged Vault.LiquidatedCollateral amount

/-- Keep less collateral for open redeem requests. -/
def decreaseLiquidatedCollateral (v : RichVault AccountId CurrencyId)
    (amount : Amount CurrencyId) :
    RegistryCall AccountId CurrencyId (RichVault AccountId CurrencyId) :=
  v.decreaseUntagged Vault.LiquidatedCollateral amount

end RichVault

end Interbtc
