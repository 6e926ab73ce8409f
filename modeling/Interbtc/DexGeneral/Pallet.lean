import Interbtc.Core.Checked
import Interbtc.Core.OrderedMap
import Interbtc.Core.Run
import Interbtc.Currency.Withdrawal
import Mathlib.Algebra.Group.PUnit

/-!
# The storage of the constant-product exchange

A pair of assets trades from the balances of an account of its own, or collects contributions
before it opens. This file has the storage of the pallet and the quotes that are computed from
the reserves.
-/

namespace Interbtc

open Core MultiCurrency WithdrawableCurrency

/-! ## Pairs -/

/-- Fee rates are parts of this. -/
def FEE_ADJUSTMENT : ℕ := 10000

/-- The fee of pairs that do not set one. -/
def DEFAULT_FEE_RATE : ℕ := 30

/-- A pair that trades. -/
structure PairMetadata (AccountId : Type) where
  pairAccount : AccountId
  totalSupply : ℕ
  feeRate : ℕ
  deriving DecidableEq

/-- A pair that collects contributions of both assets before it trades. -/
structure BootstrapParameter (AccountId : Type) where
  targetSupply : ℕ × ℕ
  capacitySupply : ℕ × ℕ
  accumulatedSupply : ℕ × ℕ
  endBlockNumber : ℕ
  pairAccount : AccountId
  deriving DecidableEq

/-- What can be done with a pair. -/
inductive PairStatus (AccountId : Type)
  | trading (pair : PairMetadata AccountId)
  | bootstrap (params : BootstrapParameter AccountId)
  | disable
  deriving DecidableEq

/-- The fee of a pair. -/
def PairStatus.feeRate {AccountId : Type} : PairStatus AccountId → ℕ
  | .trading pair => pair.feeRate
  | _ => DEFAULT_FEE_RATE

/-- After its end block a bootstrap that has not reached its targets is disabled. -/
def bootstrapDisable {AccountId : Type} (now : ℕ) (params : BootstrapParameter AccountId) : Bool :=
  decide (params.endBlockNumber < now ∧
    (params.accumulatedSupply.1 < params.targetSupply.1 ∨
      params.accumulatedSupply.2 < params.targetSupply.2))

/-! ## Configuration -/

/-- The accounts the pallet derives for itself, where hashes do not collide, and the tokens of
the liquidity. -/
class DexGeneralConfig (AccountId AssetId : Type) where
  /-- Holds the contributions and the rewards of all bootstraps. -/
  bootstrapAccountId : AccountId
  /-- Derived from the hash of a pair. -/
  subAccount : AssetId × AssetId → AccountId
  subAccount_injective : Function.Injective subAccount
  subAccount_ne_bootstrap : ∀ pair, subAccount pair ≠ bootstrapAccountId
  /-- Whether an asset can be part of a pair. -/
  validateAsset : AssetId → Bool
  generateLpAssetId : AssetId → AssetId → Option AssetId
  validateAsset_of_generate : ∀ a b lp, generateLpAssetId a b = some lp →
    validateAsset a = true ∧ validateAsset b = true ∧ validateAsset lp = false
  generateLpAssetId_injective : ∀ a b c d lp, generateLpAssetId a b = some lp →
    generateLpAssetId c d = some lp → a = c ∧ b = d
  maxBootstrapRewards : ℕ
  maxBootstrapLimits : ℕ

/-- Nobody has a key of the accounts that the pallet derives. -/
def IsTrader {AccountId : Type} (AssetId : Type) [DexGeneralConfig AccountId AssetId]
    (who : AccountId) : Prop :=
  who ≠ DexGeneralConfig.bootstrapAccountId AssetId ∧
    ∀ pair : AssetId × AssetId, who ≠ DexGeneralConfig.subAccount pair

/-- An account that signs calls. -/
abbrev Trader (AccountId AssetId : Type) [DexGeneralConfig AccountId AssetId] : Type :=
  {who : AccountId // IsTrader AssetId who}

/-! ## Storage -/

/-- The token balances and the storage of the pallet. -/
structure DexGeneral (AccountId AssetId Tokens : Type) [LinearOrder AssetId] where
  tokens : Tokens
  /-- The product of the reserves at the last change of the liquidity. -/
  kLast : AssetId × AssetId → ℕ
  /-- Who receives the protocol fee, and the fee point. -/
  feeMeta : Option AccountId × UInt8
  liquidityPairs : AssetId × AssetId → Option AssetId
  pairStatuses : AssetId × AssetId → PairStatus AccountId
  bootstrapPersonalSupply : AssetId × AssetId → AccountId → Option (ℕ × ℕ)
  bootstrapEndStatus : AssetId × AssetId → PairStatus AccountId
  bootstrapRewards : AssetId × AssetId → OrderedMap AssetId ℕ
  bootstrapLimits : AssetId × AssetId → OrderedMap AssetId ℕ

/-- A call of the pallet. -/
abbrev DexGeneralCall (AccountId AssetId Tokens α : Type) [LinearOrder AssetId] : Type :=
  Call DispatchError (DexGeneral AccountId AssetId Tokens) α

namespace DexGeneral

variable {AccountId AssetId Tokens : Type} [DecidableEq AccountId] [LinearOrder AssetId]
  [WithdrawableCurrency Tokens AccountId AssetId] [DexGeneralConfig AccountId AssetId]

/-- The storage before the first call. -/
def genesis (tokens : Tokens) (feeReceiver : Option AccountId) (feePoint : UInt8) :
    DexGeneral AccountId AssetId Tokens where
  tokens := tokens
  kLast _ := 0
  feeMeta := (feeReceiver, feePoint)
  liquidityPairs _ := none
  pairStatuses _ := .disable
  bootstrapPersonalSupply _ _ := none
  bootstrapEndStatus _ := .disable
  bootstrapRewards _ := .empty
  bootstrapLimits _ := .empty

/-- The token balances. -/
def TokensPart : Lens (DexGeneral AccountId AssetId Tokens) Tokens where
  get s := s.tokens
  set t s := { s with tokens := t }

/-- The error of arithmetic out of range. -/
def overflow : DispatchError := .dexGeneral .overflow

/-! ## Pairs of assets -/

section Assets

variable (AccountId)

/-- Pairs are stored with the smaller asset first. -/
def sortAssetId (asset₀ asset₁ : AssetId) : AssetId × AssetId :=
  if asset₀ < asset₁ then (asset₀, asset₁) else (asset₁, asset₀)

/-- The liquidity token of a pair, if there is one. -/
def lpAssetId (asset₀ asset₁ : AssetId) : Option AssetId :=
  let pair := sortAssetId asset₀ asset₁
  DexGeneralConfig.generateLpAssetId AccountId pair.1 pair.2

variable {AccountId}

/-- The account of a pair. -/
def pairAccountId (asset₀ asset₁ : AssetId) : AccountId :=
  DexGeneralConfig.subAccount (sortAssetId asset₀ asset₁)

end Assets

section Reads

variable (s : DexGeneral AccountId AssetId Tokens)

/-- The free tokens of an account. -/
def freeBalance (asset : AssetId) (who : AccountId) : ℕ := (balances s.tokens who asset).free

/-- The parameters of a pair that trades. -/
def tradingPair (pair : AssetId × AssetId) : Except DispatchError (PairMetadata AccountId) :=
  match s.pairStatuses pair with
  | .trading parameter => .ok parameter
  | _ => .error (.dexGeneral .pairNotExists)

/-! ## Shares -/

/-- The amount in proportion, or zero where it cannot be computed. -/
def calculateShareAmount (amount₀ reserve₀ reserve₁ : ℕ) : ℕ :=
  (((checkedMul maxU256 amount₀ reserve₁).bind fun n => checkedDiv n reserve₀).bind
    (tryInto maxBalance)).getD 0

/-- The liquidity for two amounts: the geometric mean at first, the smaller share later. -/
def calculateLiquidity (amount₀ amount₁ reserve₀ reserve₁ totalLiquidity : ℕ) : ℕ :=
  if totalLiquidity = 0 then
    (((checkedMul maxU256 amount₀ amount₁).map Nat.sqrt).bind (tryInto maxBalance)).getD 0
  else
    min (calculateShareAmount amount₀ reserve₀ totalLiquidity)
      (calculateShareAmount amount₁ reserve₁ totalLiquidity)

/-- What is added of each asset: all of one, and the other in proportion to the reserves. -/
def calculateAddedAmount (amount₀Desired amount₁Desired amount₀Min amount₁Min reserve₀ reserve₁ : ℕ) :
    Except DispatchError (ℕ × ℕ) :=
  if reserve₀ = 0 ∨ reserve₁ = 0 then
    .ok (amount₀Desired, amount₁Desired)
  else
    let amount₁Optimal := calculateShareAmount amount₀Desired reserve₀ reserve₁
    if amount₁Optimal ≤ amount₁Desired then
      if amount₁Min ≤ amount₁Optimal then .ok (amount₀Desired, amount₁Optimal)
      else .error (.dexGeneral .incorrectAssetAmountRange)
    else
      let amount₀Optimal := calculateShareAmount amount₁Desired reserve₁ reserve₀
      if amount₀Min ≤ amount₀Optimal ∧ amount₀Optimal ≤ amount₀Desired then
        .ok (amount₀Optimal, amount₁Desired)
      else .error (.dexGeneral .incorrectAssetAmountRange)

/-- The liquidity that the receiver of the protocol fee gets, where the fee is on: a part of the
growth of the reserves since the liquidity was last changed. -/
def protocolFee (pair : AssetId × AssetId) (reserve₀ reserve₁ totalLiquidity : ℕ) :
    Except DispatchError ℕ := do
  if s.feeMeta.1.isSome ∧ s.kLast pair ≠ 0 then
    let k ← okOr overflow (checkedMul maxU256 reserve₀ reserve₁)
    let rootK := Nat.sqrt k
    let rootKLast := Nat.sqrt (s.kLast pair)
    if rootKLast < rootK then
      let growth ← okOr overflow (checkedSub rootK rootKLast)
      let numerator ← okOr overflow (checkedMul maxU256 totalLiquidity growth)
      let share ← okOr overflow (checkedMul maxU256 rootK s.feeMeta.2.toNat)
      let denominator ← okOr overflow (checkedAdd maxU256 share rootKLast)
      return ((checkedDiv numerator denominator).bind (tryInto maxBalance)).getD 0
    else
      return 0
  else
    return 0

/-! ## Quotes -/

/-- What has to be paid for an amount, rounded up. -/
def getAmountIn (outputAmount inputReserve outputReserve feeRate : ℕ) : Except DispatchError ℕ := do
  if inputReserve = 0 ∨ outputReserve = 0 ∨ outputAmount = 0 then
    throw overflow
  else
    let product ← okOr overflow (checkedMul maxU256 inputReserve outputAmount)
    let numerator ← okOr overflow (checkedMul maxU256 product FEE_ADJUSTMENT)
    let rest ← okOr overflow (checkedSub outputReserve outputAmount)
    let denominator ← okOr overflow (checkedMul maxU256 rest (FEE_ADJUSTMENT - feeRate))
    let quotient ← okOr overflow (checkedDiv numerator denominator)
    let amount ← okOr overflow (checkedAdd maxU256 quotient 1)
    okOr overflow (tryInto maxBalance amount)

/-- What is paid for an amount, rounded down. -/
def getAmountOut (inputAmount inputReserve outputReserve feeRate : ℕ) : Except DispatchError ℕ := do
  if inputReserve = 0 ∨ outputReserve = 0 ∨ inputAmount = 0 then
    throw overflow
  else
    let inputAmountWithFee ← okOr overflow
      (checkedMul maxU256 inputAmount (FEE_ADJUSTMENT - feeRate))
    let numerator ← okOr overflow (checkedMul maxU256 inputAmountWithFee outputReserve)
    let reserve ← okOr overflow (checkedMul maxU256 inputReserve FEE_ADJUSTMENT)
    let denominator ← okOr overflow (checkedAdd maxU256 reserve inputAmountWithFee)
    let amount ← okOr overflow (checkedDiv numerator denominator)
    okOr overflow (tryInto maxBalance amount)

/-- The product of the reserves does not shrink by the exchange of two amounts. -/
def checkInvariant (inputReserve outputReserve amountIn amountOut : ℕ) :
    Except DispatchError Unit := do
  let invariantBeforeSwap ← okOr overflow (checkedMul maxU256 inputReserve outputReserve)
  let inputReserveAfterSwap ← okOr overflow (checkedAdd maxBalance inputReserve amountIn)
  let outputReserveAfterSwap ← okOr overflow (checkedSub outputReserve amountOut)
  let invariantAfterSwap ← okOr overflow
    (checkedMul maxU256 inputReserveAfterSwap outputReserveAfterSwap)
  if invariantBeforeSwap ≤ invariantAfterSwap then
    return ()
  else
    throw (.dexGeneral .invariantCheckFailed)

/-- What one exchange of an amount pays out. -/
def quoteOut (input output : AssetId) (amountIn : ℕ) : Except DispatchError ℕ := do
  let inputReserve := s.freeBalance input (pairAccountId input output)
  let outputReserve := s.freeBalance output (pairAccountId input output)
  if 0 < inputReserve ∧ 0 < outputReserve then
    let feeRate := (s.pairStatuses (sortAssetId input output)).feeRate
    let amount ← getAmountOut amountIn inputReserve outputReserve feeRate
    if 0 < amount then
      checkInvariant inputReserve outputReserve amountIn amount
      return amount
    else
      throw (.dexGeneral .invalidPath)
  else
    throw (.dexGeneral .invalidPath)

/-- What one exchange for an amount takes in. -/
def quoteIn (input output : AssetId) (amountOut : ℕ) : Except DispatchError ℕ := do
  let inputReserve := s.freeBalance input (pairAccountId input output)
  let outputReserve := s.freeBalance output (pairAccountId input output)
  if 0 < inputReserve ∧ 0 < outputReserve then
    let feeRate := (s.pairStatuses (sortAssetId input output)).feeRate
    let amount ← getAmountIn amountOut inputReserve outputReserve feeRate
    if 1 ≤ amount then
      checkInvariant inputReserve outputReserve amount amountOut
      return amount
    else
      throw (.dexGeneral .invalidPath)
  else
    throw (.dexGeneral .invalidPath)

/-- The amounts from one asset of a path to the next. -/
def amountsOut (amountIn : ℕ) : List AssetId → Except DispatchError (List ℕ)
  | input :: output :: path => do
    let amount ← s.quoteOut input output amountIn
    let amounts ← amountsOut amount (output :: path)
    return amountIn :: amounts
  | _ => return [amountIn]

/-- What is paid at each hop of a path. -/
def getAmountOutByPath (amountIn : ℕ) (path : List AssetId) : Except DispatchError (List ℕ) :=
  if 1 < path.length then s.amountsOut amountIn path else .error (.dexGeneral .invalidPath)

/-- The amounts are found from the end of the path to its start. -/
def amountsIn (amountOut : ℕ) : List AssetId → Except DispatchError (List ℕ)
  | input :: output :: path => do
    let amounts ← amountsIn amountOut (output :: path)
    let amount ← s.quoteIn input output (amounts.headD 0)
    return amount :: amounts
  | _ => return [amountOut]

/-- What has to be paid at each hop of a path. -/
def getAmountInByPath (amountOut : ℕ) (path : List AssetId) : Except DispatchError (List ℕ) :=
  if 1 < path.length then s.amountsIn amountOut path else .error (.dexGeneral .invalidPath)

end Reads

/-! ## Tokens -/

/-- Run a call on the token balances. -/
def onTokens {α : Type} (x : Call TokensError Tokens α) :
    DexGeneralCall AccountId AssetId Tokens α := TokensPart.zoom (x.mapError .tokens)

/-- Move tokens. -/
def transfer (asset : AssetId) (source destination : AccountId) (amount : ℕ) :
    DexGeneralCall AccountId AssetId Tokens Unit :=
  onTokens (MultiCurrency.transfer asset source destination amount)

/-- Create tokens. -/
def deposit (asset : AssetId) (who : AccountId) (amount : ℕ) :
    DexGeneralCall AccountId AssetId Tokens Unit := onTokens (MultiCurrency.deposit asset who amount)

/-- Burn tokens. -/
def withdraw (asset : AssetId) (who : AccountId) (amount : ℕ) :
    DexGeneralCall AccountId AssetId Tokens Unit :=
  onTokens (WithdrawableCurrency.withdraw asset who amount)

/-- Store the status of a pair. -/
def setPairStatus (pair : AssetId × AssetId) (status : PairStatus AccountId) :
    DexGeneralCall AccountId AssetId Tokens Unit :=
  modify fun s => { s with pairStatuses := Function.update s.pairStatuses pair status }

/-- Store the product of the reserves after the last change of liquidity. -/
def mutateKLast (asset₀ asset₁ : AssetId) (last : ℕ) :
    DexGeneralCall AccountId AssetId Tokens Unit :=
  modify fun s => { s with kLast := Function.update s.kLast (sortAssetId asset₀ asset₁) last }

/-- Store the liquidity token of a pair, which has to be known. -/
def mutateLpPairs (asset₀ asset₁ : AssetId) : DexGeneralCall AccountId AssetId Tokens Unit := do
  let lp ← Call.ofOption (.dexGeneral .assetNotExists) (lpAssetId AccountId asset₀ asset₁)
  modify fun s => { s with
    liquidityPairs := Function.update s.liquidityPairs (sortAssetId asset₀ asset₁) (some lp) }

end DexGeneral

end Interbtc
