import Interbtc.DexGeneral.Bootstrap

/-!
# Calls of the constant-product exchange

Every call that can be dispatched, and the transfers of any token. A dispatched call is
transactional.
-/

namespace Interbtc.DexGeneral

open Core MultiCurrency

variable {AccountId AssetId Tokens : Type} [DecidableEq AccountId] [LinearOrder AssetId]
  [WithdrawableCurrency Tokens AccountId AssetId] [DexGeneralConfig AccountId AssetId]

/-! ## Governance -/

/-- The account of the protocol fee, or none. -/
def setFeeReceiver (sendTo : Option AccountId) : DexGeneralCall AccountId AssetId Tokens Unit :=
  modify fun s => { s with feeMeta := (sendTo, s.feeMeta.2) }

/-- The part of the fees the protocol takes. -/
def setFeePoint (feePoint : UInt8) : DexGeneralCall AccountId AssetId Tokens Unit :=
  modify fun s => { s with feeMeta := (s.feeMeta.1, feePoint) }

/-- The fee of a pair that trades. -/
def setExchangeFee (asset₀ asset₁ : AssetId) (feeRate : ℕ) :
    DexGeneralCall AccountId AssetId Tokens Unit := do
  Call.ensure (feeRate < FEE_ADJUSTMENT) (.dexGeneral .invalidFeeRate)
  let pair := sortAssetId asset₀ asset₁
  let s ← get
  match s.pairStatuses pair with
  | .trading parameter => setPairStatus pair (.trading { parameter with feeRate := feeRate })
  | .bootstrap _ => throw (.dexGeneral .pairAlreadyExists)
  | .disable => throw (.dexGeneral .pairNotExists)

/-- A pair whose bootstrap failed can be created. -/
def createPair (now : ℕ) (asset₀ asset₁ : AssetId) (feeRate : ℕ) :
    DexGeneralCall AccountId AssetId Tokens Unit := do
  Call.ensure (DexGeneralConfig.validateAsset AccountId asset₀ = true ∧
    DexGeneralConfig.validateAsset AccountId asset₁ = true) (.dexGeneral .unsupportedAssetType)
  Call.ensure (asset₀ ≠ asset₁) (.dexGeneral .deniedCreatePair)
  Call.ensure (feeRate < FEE_ADJUSTMENT) (.dexGeneral .invalidFeeRate)
  let pair := sortAssetId asset₀ asset₁
  let created : PairStatus AccountId := .trading
    { pairAccount := pairAccountId pair.1 pair.2
      totalSupply := 0
      feeRate := feeRate }
  let s ← get
  (match s.pairStatuses pair with
  | .trading _ => throw (.dexGeneral .pairAlreadyExists)
  | .bootstrap params => do
    Call.ensure (bootstrapDisable now params = true) (.dexGeneral .pairAlreadyExists)
    modify fun s => { s with
      bootstrapEndStatus := Function.update s.bootstrapEndStatus pair (.bootstrap params) }
    setPairStatus pair created
  | .disable => setPairStatus pair created)
  mutateLpPairs asset₀ asset₁

/-! ## Accounts -/

/-- Calls are refused from their deadline on. -/
def ensureDeadline (now deadline : ℕ) : DexGeneralCall AccountId AssetId Tokens Unit :=
  Call.ensure (now < deadline) (.dexGeneral .deadline)

/-- Only known assets are traded. -/
def ensureValidAssets (assets : List AssetId) : DexGeneralCall AccountId AssetId Tokens Unit :=
  Call.ensure (∀ asset ∈ assets, DexGeneralConfig.validateAsset AccountId asset = true)
    (.dexGeneral .unsupportedAssetType)

/-- Bring two assets and get liquidity. -/
def addLiquidity (now : ℕ) (who : AccountId) (asset₀ asset₁ : AssetId)
    (amount₀Desired amount₁Desired amount₀Min amount₁Min deadline : ℕ) :
    DexGeneralCall AccountId AssetId Tokens Unit := do
  ensureValidAssets [asset₀, asset₁]
  ensureDeadline now deadline
  innerAddLiquidity who asset₀ asset₁ amount₀Desired amount₁Desired amount₀Min amount₁Min

/-- Burn liquidity and get its share of both assets. -/
def removeLiquidity (now : ℕ) (who : AccountId) (asset₀ asset₁ : AssetId)
    (liquidity amount₀Min amount₁Min : ℕ) (recipient : AccountId) (deadline : ℕ) :
    DexGeneralCall AccountId AssetId Tokens Unit := do
  ensureValidAssets [asset₀, asset₁]
  ensureDeadline now deadline
  innerRemoveLiquidity who asset₀ asset₁ liquidity amount₀Min amount₁Min recipient

/-- Swap a given amount along a path. -/
def swapExactAssetsForAssets (now : ℕ) (who : AccountId) (amountIn amountOutMin : ℕ)
    (path : List AssetId) (recipient : AccountId) (deadline : ℕ) :
    DexGeneralCall AccountId AssetId Tokens Unit := do
  ensureDeadline now deadline
  ensureValidAssets path
  innerSwapExactAssetsForAssets who amountIn amountOutMin path recipient

/-- Swap along a path for a given amount. -/
def swapAssetsForExactAssets (now : ℕ) (who : AccountId) (amountOut amountInMax : ℕ)
    (path : List AssetId) (recipient : AccountId) (deadline : ℕ) :
    DexGeneralCall AccountId AssetId Tokens Unit := do
  ensureDeadline now deadline
  innerSwapAssetsForExactAssets who amountOut amountInMax path recipient

/-- Contribute before a deadline. -/
def bootstrapContribute (now : ℕ) (who : AccountId) (asset₀ asset₁ : AssetId)
    (amount₀Contribute amount₁Contribute deadline : ℕ) :
    DexGeneralCall AccountId AssetId Tokens Unit := do
  let s ← get
  Call.ensure (bootstrapCheckLimits s asset₀ asset₁ who = true) (.dexGeneral .notQualifiedAccount)
  ensureDeadline now deadline
  doBootstrapContribute now who asset₀ asset₁ amount₀Contribute amount₁Contribute

/-- Claim before a deadline. -/
def bootstrapClaim (now : ℕ) (who recipient : AccountId) (asset₀ asset₁ : AssetId)
    (deadline : ℕ) : DexGeneralCall AccountId AssetId Tokens Unit := do
  ensureDeadline now deadline
  doBootstrapClaim now who recipient asset₀ asset₁

/-- End a bootstrap, and register its liquidity token. -/
def bootstrapEnd (now : ℕ) (asset₀ asset₁ : AssetId) :
    DexGeneralCall AccountId AssetId Tokens Unit := do
  mutateLpPairs asset₀ asset₁
  doEndBootstrap now asset₀ asset₁

/-! ## Dispatch -/

/-- The calls of the pallet, and transfers between traders. -/
inductive Op (AccountId AssetId : Type) [DexGeneralConfig AccountId AssetId]
  -- governance
  | setFeeReceiver (sendTo : Option AccountId)
  | setFeePoint (feePoint : UInt8)
  | setExchangeFee (asset₀ asset₁ : AssetId) (feeRate : ℕ)
  | createPair (asset₀ asset₁ : AssetId) (feeRate : ℕ)
  | bootstrapCreate (asset₀ asset₁ : AssetId) (targetSupply capacitySupply : ℕ × ℕ)
      (endBlock : ℕ) (rewards : List AssetId) (limits : List (AssetId × ℕ))
  | bootstrapUpdate (asset₀ asset₁ : AssetId) (targetSupply capacitySupply : ℕ × ℕ)
      (endBlock : ℕ) (rewards : List AssetId) (limits : List (AssetId × ℕ))
  | bootstrapWithdrawReward (asset₀ asset₁ : AssetId) (recipient : AccountId)
  -- accounts
  | addLiquidity (who : Trader AccountId AssetId) (asset₀ asset₁ : AssetId)
      (amount₀Desired amount₁Desired amount₀Min amount₁Min deadline : ℕ)
  | removeLiquidity (who : Trader AccountId AssetId) (asset₀ asset₁ : AssetId)
      (liquidity amount₀Min amount₁Min : ℕ) (recipient : AccountId) (deadline : ℕ)
  | swapExactAssetsForAssets (who : Trader AccountId AssetId) (amountIn amountOutMin : ℕ)
      (path : List AssetId) (recipient : AccountId) (deadline : ℕ)
  | swapAssetsForExactAssets (who : Trader AccountId AssetId) (amountOut amountInMax : ℕ)
      (path : List AssetId) (recipient : AccountId) (deadline : ℕ)
  | bootstrapContribute (who : Trader AccountId AssetId) (asset₀ asset₁ : AssetId)
      (amount₀Contribute amount₁Contribute deadline : ℕ)
  | bootstrapClaim (who : Trader AccountId AssetId) (recipient : AccountId)
      (asset₀ asset₁ : AssetId) (deadline : ℕ)
  | bootstrapEnd (asset₀ asset₁ : AssetId)
  | bootstrapRefund (who : Trader AccountId AssetId) (asset₀ asset₁ : AssetId)
  | bootstrapChargeReward (who : Trader AccountId AssetId) (asset₀ asset₁ : AssetId)
      (charges : List (AssetId × ℕ))
  -- tokens
  | transfer (who : Trader AccountId AssetId) (destination : AccountId) (asset : AssetId)
      (amount : ℕ)

/-- What a dispatched call does in a block. -/
def dispatch (now : ℕ) :
    Op AccountId AssetId → DexGeneralCall AccountId AssetId Tokens Unit
  | .setFeeReceiver sendTo => setFeeReceiver sendTo
  | .setFeePoint feePoint => setFeePoint feePoint
  | .setExchangeFee asset₀ asset₁ feeRate => setExchangeFee asset₀ asset₁ feeRate
  | .createPair asset₀ asset₁ feeRate => createPair now asset₀ asset₁ feeRate
  | .bootstrapCreate asset₀ asset₁ targetSupply capacitySupply endBlock rewards limits =>
    bootstrapCreate now asset₀ asset₁ targetSupply capacitySupply endBlock rewards limits
  | .bootstrapUpdate asset₀ asset₁ targetSupply capacitySupply endBlock rewards limits =>
    bootstrapUpdate asset₀ asset₁ targetSupply capacitySupply endBlock rewards limits
  | .bootstrapWithdrawReward asset₀ asset₁ recipient =>
    bootstrapWithdrawReward asset₀ asset₁ recipient
  | .addLiquidity who asset₀ asset₁ amount₀Desired amount₁Desired amount₀Min amount₁Min deadline =>
    addLiquidity now who.val asset₀ asset₁ amount₀Desired amount₁Desired amount₀Min amount₁Min
      deadline
  | .removeLiquidity who asset₀ asset₁ liquidity amount₀Min amount₁Min recipient deadline =>
    removeLiquidity now who.val asset₀ asset₁ liquidity amount₀Min amount₁Min recipient deadline
  | .swapExactAssetsForAssets who amountIn amountOutMin path recipient deadline =>
    swapExactAssetsForAssets now who.val amountIn amountOutMin path recipient deadline
  | .swapAssetsForExactAssets who amountOut amountInMax path recipient deadline =>
    swapAssetsForExactAssets now who.val amountOut amountInMax path recipient deadline
  | .bootstrapContribute who asset₀ asset₁ amount₀ amount₁ deadline =>
    bootstrapContribute now who.val asset₀ asset₁ amount₀ amount₁ deadline
  | .bootstrapClaim who recipient asset₀ asset₁ deadline =>
    bootstrapClaim now who.val recipient asset₀ asset₁ deadline
  | .bootstrapEnd asset₀ asset₁ => bootstrapEnd now asset₀ asset₁
  | .bootstrapRefund who asset₀ asset₁ => doBootstrapRefund now who.val asset₀ asset₁
  | .bootstrapChargeReward who asset₀ asset₁ charges =>
    bootstrapChargeReward who.val asset₀ asset₁ charges
  | .transfer who destination asset amount => transfer asset who.val destination amount

/-- A dispatched call together with the number of its block. -/
abbrev Dispatch (AccountId AssetId : Type) [DexGeneralConfig AccountId AssetId] : Type :=
  ℕ × Op AccountId AssetId

/-- Dispatch one call as a transaction. -/
def step (s : DexGeneral AccountId AssetId Tokens) (d : Dispatch AccountId AssetId) :
    DexGeneral AccountId AssetId Tokens :=
  (dispatch d.1 d.2).commit s

/-! ## A sample

Three traders, three assets, and the liquidity tokens of their pairs. -/

namespace Sample

/-- Three assets, and the liquidity tokens of their pairs. -/
abbrev Asset : Type := Fin 12

instance neZero_twelve : NeZero 12 := ⟨by decide⟩

/-- The traders, the account of all bootstraps, and the accounts of the pairs. -/
abbrev Holder : Type := Fin 3 ⊕ Option (Asset × Asset)

/-- The liquidity token of a pair of the three. -/
def liquidityToken (a b : Asset) : Option Asset :=
  if h : a.val < 3 ∧ b.val < 3 then some ⟨3 + 3 * a.val + b.val, by omega⟩ else none

private theorem liquidityToken_eq_some {a b lp : Asset} (h : liquidityToken a b = some lp) :
    a.val < 3 ∧ b.val < 3 ∧ lp.val = 3 + 3 * a.val + b.val := by
  unfold liquidityToken at h
  split_ifs at h with hab
  exact ⟨hab.1, hab.2, congrArg Fin.val (Option.some.inj h).symm⟩

instance : DexGeneralConfig Holder Asset where
  bootstrapAccountId := .inr none
  subAccount pair := .inr (some pair)
  subAccount_injective _ _ h := Option.some.inj (Sum.inr.inj h)
  subAccount_ne_bootstrap _ := nofun
  validateAsset a := decide (a.val < 3)
  generateLpAssetId := liquidityToken
  validateAsset_of_generate a b lp h := by
    obtain ⟨ha, hb, hlp⟩ := liquidityToken_eq_some h
    exact ⟨decide_eq_true ha, decide_eq_true hb, decide_eq_false (by omega)⟩
  generateLpAssetId_injective a b c d lp h h' := by
    obtain ⟨ha, hb, hlp⟩ := liquidityToken_eq_some h
    obtain ⟨hc, hd, hlp'⟩ := liquidityToken_eq_some h'
    exact ⟨Fin.ext (by omega), Fin.ext (by omega)⟩
  maxBootstrapRewards := 10
  maxBootstrapLimits := 10

/-- The storage of the examples. -/
abbrev Exchange : Type := DexGeneral Holder Asset (TokenLedger Holder Asset)

/-- The calls of an example. -/
abbrev Run : Type := List (Dispatch Holder Asset)

/-- A trader. -/
def alice : Trader Holder Asset := ⟨.inl 0, nofun, fun _ => nofun⟩

/-- Another trader. -/
def bob : Trader Holder Asset := ⟨.inl 1, nofun, fun _ => nofun⟩

/-- A third trader, who may get the protocol fee. -/
def carol : Trader Holder Asset := ⟨.inl 2, nofun, fun _ => nofun⟩

/-- The account of a pair. -/
def pool (a b : Asset) : Holder := pairAccountId a b

/-- Each trader has a balance of each asset. -/
def start (balance : ℕ) (feeReceiver : Option Holder) (feePoint : UInt8) : Exchange :=
  genesis
    { accounts
        | .inl _, asset => ⟨if asset.val < 3 then balance else 0, 0, 0⟩
        | _, _ => ⟨0, 0, 0⟩
      issuance asset := if asset.val < 3 then 3 * balance else 0 }
    feeReceiver feePoint

end Sample

end Interbtc.DexGeneral
