import Interbtc.DexGeneral.Pallet

/-!
# Liquidity and swaps

Accounts add assets to a trading pair for liquidity tokens and take them out again, and swap
along paths of pairs.
-/

namespace Interbtc.DexGeneral

open Core MultiCurrency

variable {AccountId AssetId Tokens : Type} [DecidableEq AccountId] [LinearOrder AssetId]
  [WithdrawableCurrency Tokens AccountId AssetId] [DexGeneralConfig AccountId AssetId]

/-! ## Liquidity -/

/-- While the protocol fee is off, the product of the reserves is forgotten. -/
def mintProtocolFee (reserve₀ reserve₁ : ℕ) (asset₀ asset₁ : AssetId) (totalLiquidity : ℕ) :
    DexGeneralCall AccountId AssetId Tokens ℕ := do
  let mintFee ← Call.reads fun s =>
    s.protocolFee (sortAssetId asset₀ asset₁) reserve₀ reserve₁ totalLiquidity
  let s ← get
  (if s.feeMeta.1 = none ∧ s.kLast (sortAssetId asset₀ asset₁) ≠ 0 then
    mutateKLast asset₀ asset₁ 0
  else
    return)
  return mintFee

/-- Mint the protocol fee to its receiver. Returns the liquidity after it. -/
def depositFee (lpAssetId : AssetId) (mintFee totalSupply : ℕ) :
    DexGeneralCall AccountId AssetId Tokens ℕ := do
  let s ← get
  match s.feeMeta.1 with
  | some feeTo =>
    if 0 < mintFee then
      deposit lpAssetId feeTo mintFee
      Call.ofOption overflow (checkedAdd maxBalance totalSupply mintFee)
    else
      return totalSupply
  | none => return totalSupply

/-- Remember the product of the reserves, where the protocol fee is on. -/
def updateKLast (asset₀ asset₁ : AssetId) (pairAccount : AccountId) :
    DexGeneralCall AccountId AssetId Tokens Unit := do
  let s ← get
  if s.feeMeta.1.isSome then
    let lastKValue ← Call.ofOption overflow
      (checkedMul maxU256 (s.freeBalance asset₀ pairAccount) (s.freeBalance asset₁ pairAccount))
    mutateKLast asset₀ asset₁ lastKValue
  else
    return

/-- Bring as much of both assets as their reserves allow, for liquidity. -/
def innerAddLiquidity (who : AccountId) (asset₀ asset₁ : AssetId)
    (amount₀Desired amount₁Desired amount₀Min amount₁Min : ℕ) :
    DexGeneralCall AccountId AssetId Tokens Unit := do
  let pair := sortAssetId asset₀ asset₁
  let parameter ← Call.reads fun s => s.tradingPair pair
  let s ← get
  let reserve₀ := s.freeBalance asset₀ parameter.pairAccount
  let reserve₁ := s.freeBalance asset₁ parameter.pairAccount
  let amounts ← Call.ofExcept (calculateAddedAmount amount₀Desired amount₁Desired amount₀Min
    amount₁Min reserve₀ reserve₁)
  Call.ensure (amounts.1 ≤ s.freeBalance asset₀ who ∧ amounts.2 ≤ s.freeBalance asset₁ who)
    (.dexGeneral .insufficientAssetBalance)
  let lpAssetId ← Call.ofOption (.dexGeneral .insufficientAssetBalance) (s.liquidityPairs pair)
  let mintFee ← mintProtocolFee reserve₀ reserve₁ asset₀ asset₁ parameter.totalSupply
  let supply ← depositFee lpAssetId mintFee parameter.totalSupply
  let mintLiquidity := calculateLiquidity amounts.1 amounts.2 reserve₀ reserve₁ supply
  Call.ensure (0 < mintLiquidity) overflow
  let totalSupply ← Call.ofOption overflow (checkedAdd maxBalance supply mintLiquidity)
  deposit lpAssetId who mintLiquidity
  transfer asset₀ who parameter.pairAccount amounts.1
  transfer asset₁ who parameter.pairAccount amounts.2
  updateKLast asset₀ asset₁ parameter.pairAccount
  setPairStatus pair (.trading { parameter with totalSupply := totalSupply })

/-- The payouts are computed before the protocol fee is minted. -/
def innerRemoveLiquidity (who : AccountId) (asset₀ asset₁ : AssetId)
    (removeLiquidity amount₀Min amount₁Min : ℕ) (recipient : AccountId) :
    DexGeneralCall AccountId AssetId Tokens Unit := do
  let pair := sortAssetId asset₀ asset₁
  let parameter ← Call.reads fun s => s.tradingPair pair
  let s ← get
  let reserve₀ := s.freeBalance asset₀ parameter.pairAccount
  let reserve₁ := s.freeBalance asset₁ parameter.pairAccount
  let amount₀ := calculateShareAmount removeLiquidity parameter.totalSupply reserve₀
  let amount₁ := calculateShareAmount removeLiquidity parameter.totalSupply reserve₁
  Call.ensure (amount₀Min ≤ amount₀ ∧ amount₁Min ≤ amount₁)
    (.dexGeneral .insufficientTargetAmount)
  let lpAssetId ← Call.ofOption (.dexGeneral .insufficientAssetBalance) (s.liquidityPairs pair)
  let mintFee ← mintProtocolFee reserve₀ reserve₁ asset₀ asset₁ parameter.totalSupply
  let supply ← depositFee lpAssetId mintFee parameter.totalSupply
  let totalSupply ← Call.ofOption (.dexGeneral .insufficientLiquidity)
    (checkedSub supply removeLiquidity)
  withdraw lpAssetId who removeLiquidity
  transfer asset₀ parameter.pairAccount recipient amount₀
  transfer asset₁ parameter.pairAccount recipient amount₁
  updateKLast asset₀ asset₁ parameter.pairAccount
  setPairStatus pair (.trading { parameter with totalSupply := totalSupply })

/-! ## Swaps -/

/-- Pay out one of the assets of a pair, whose product must not fall. -/
def pairSwap (asset₀ asset₁ : AssetId) (pairAccount : AccountId) (amount₀ amount₁ : ℕ)
    (recipient : AccountId) : DexGeneralCall AccountId AssetId Tokens Unit := do
  let _ ← Call.reads fun s => s.tradingPair (sortAssetId asset₀ asset₁)
  let s ← get
  Call.ensure (amount₀ ≤ s.freeBalance asset₀ pairAccount ∧
    amount₁ ≤ s.freeBalance asset₁ pairAccount) (.dexGeneral .insufficientPairReserve)
  (if 0 < amount₀ then transfer asset₀ pairAccount recipient amount₀ else return)
  (if 0 < amount₁ then transfer asset₁ pairAccount recipient amount₁ else return)

/-- Pay the amounts from each pair of a path to the next, and the last one to the recipient. -/
def swap (recipient : AccountId) :
    List ℕ → List AssetId → DexGeneralCall AccountId AssetId Tokens Unit
  | _ :: amount :: amounts, input :: output :: path => do
    let pair := sortAssetId input output
    let amountsOut := if input = pair.1 then (0, amount) else (amount, 0)
    let destination := match path with
      | next :: _ => pairAccountId output next
      | [] => recipient
    pairSwap pair.1 pair.2 (pairAccountId input output) amountsOut.1 amountsOut.2 destination
    swap recipient (amount :: amounts) (output :: path)
  | _, _ => return

/-- Take in the first amount, and swap along the path. -/
def payAndSwap (who : AccountId) (amounts : List ℕ) (path : List AssetId) (recipient : AccountId) :
    DexGeneralCall AccountId AssetId Tokens Unit :=
  match amounts, path with
  | amount :: _, input :: output :: _ => do
    transfer input who (pairAccountId input output) amount
    swap recipient amounts path
  | _, _ => throw (.dexGeneral .invalidPath)

/-- Quote a given amount along a path, and swap. -/
def innerSwapExactAssetsForAssets (who : AccountId) (amountIn amountOutMin : ℕ)
    (path : List AssetId) (recipient : AccountId) :
    DexGeneralCall AccountId AssetId Tokens Unit := do
  let amounts ← Call.reads fun s => s.getAmountOutByPath amountIn path
  Call.ensure (amountOutMin ≤ amounts.getLastD 0) (.dexGeneral .insufficientTargetAmount)
  payAndSwap who amounts path recipient

/-- Quote for a given amount along a path, and swap. -/
def innerSwapAssetsForExactAssets (who : AccountId) (amountOut amountInMax : ℕ)
    (path : List AssetId) (recipient : AccountId) :
    DexGeneralCall AccountId AssetId Tokens Unit := do
  Call.ensure (∀ asset ∈ path, DexGeneralConfig.validateAsset AccountId asset = true)
    (.dexGeneral .unsupportedAssetType)
  let amounts ← Call.reads fun s => s.getAmountInByPath amountOut path
  Call.ensure (amounts.headD 0 ≤ amountInMax) (.dexGeneral .excessiveSoldAmount)
  payAndSwap who amounts path recipient

end Interbtc.DexGeneral
