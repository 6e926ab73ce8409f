import Interbtc.DexGeneral.Liquidity

/-!
# Bootstraps

Before a pair trades, contributors deposit both of its assets in one account that all pairs
share. A bootstrap that reaches its targets opens the pair, and each contributor claims a share
of the first liquidity and of the rewards. A bootstrap that fails is refunded.
-/

namespace Interbtc.DexGeneral

open Core MultiCurrency

variable {AccountId AssetId Tokens : Type} [DecidableEq AccountId] [LinearOrder AssetId]
  [WithdrawableCurrency Tokens AccountId AssetId] [DexGeneralConfig AccountId AssetId]

/-- Amounts in the order of the sorted pair. -/
def inOrder {α : Type} (pair : AssetId × AssetId) (asset₀ : AssetId) (amounts : α × α) : α × α :=
  if pair.1 = asset₀ then amounts else (amounts.2, amounts.1)

/-- The parameters of a pair that collects contributions. -/
def bootstrapPair (s : DexGeneral AccountId AssetId Tokens) (pair : AssetId × AssetId) :
    Except DispatchError (BootstrapParameter AccountId) :=
  match s.pairStatuses pair with
  | .bootstrap params => .ok params
  | _ => .error (.dexGeneral .notInBootstrap)

/-! ## Contributions -/

/-- What is left of a contribution within the capacity. -/
def cappedContribution (amount accumulated capacity : ℕ) : Option ℕ := do
  let total ← checkedAdd maxBalance amount accumulated
  if capacity < total then checkedSub capacity accumulated else some amount

/-- Store what an account has contributed. -/
def setPersonalSupply (pair : AssetId × AssetId) (who : AccountId) (supply : Option (ℕ × ℕ)) :
    DexGeneralCall AccountId AssetId Tokens Unit :=
  modify fun s => { s with
    bootstrapPersonalSupply := Function.update s.bootstrapPersonalSupply pair
      (Function.update (s.bootstrapPersonalSupply pair) who supply) }

/-- Whether an account holds the assets a bootstrap asks for. -/
def bootstrapCheckLimits (s : DexGeneral AccountId AssetId Tokens) (asset₀ asset₁ : AssetId)
    (account : AccountId) : Bool :=
  (s.bootstrapLimits (sortAssetId asset₀ asset₁)).entries.all fun e =>
    decide (e.2 ≤ s.freeBalance e.1 account)

/-- Contribute to a pair, up to its capacity. -/
def doBootstrapContribute (now : ℕ) (who : AccountId) (asset₀ asset₁ : AssetId)
    (amount₀Contribute amount₁Contribute : ℕ) : DexGeneralCall AccountId AssetId Tokens Unit := do
  let pair := sortAssetId asset₀ asset₁
  let params ← Call.reads fun s => bootstrapPair s pair
  Call.ensure (now < params.endBlockNumber) (.dexGeneral .notInBootstrap)
  let offered := inOrder pair asset₀ (amount₀Contribute, amount₁Contribute)
  let amount₀ ← Call.ofOption overflow
    (cappedContribution offered.1 params.accumulatedSupply.1 params.capacitySupply.1)
  let amount₁ ← Call.ofOption overflow
    (cappedContribution offered.2 params.accumulatedSupply.2 params.capacitySupply.2)
  Call.ensure (1 ≤ amount₀ ∨ 1 ≤ amount₁) (.dexGeneral .invalidContributionAmount)
  let s ← get
  let contribution := (s.bootstrapPersonalSupply pair who).getD (0, 0)
  let personal₀ ← Call.ofOption overflow (checkedAdd maxBalance contribution.1 amount₀)
  let personal₁ ← Call.ofOption overflow (checkedAdd maxBalance contribution.2 amount₁)
  transfer pair.1 who (DexGeneralConfig.bootstrapAccountId AssetId) amount₀
  transfer pair.2 who (DexGeneralConfig.bootstrapAccountId AssetId) amount₁
  let accumulated₀ ← Call.ofOption overflow
    (checkedAdd maxBalance params.accumulatedSupply.1 amount₀)
  let accumulated₁ ← Call.ofOption overflow
    (checkedAdd maxBalance params.accumulatedSupply.2 amount₁)
  setPairStatus pair
    (.bootstrap { params with accumulatedSupply := (accumulated₀, accumulated₁) })
  setPersonalSupply pair who (some (personal₀, personal₁))

/-! ## End -/

/-- A pair that reached its target trades from now on. -/
def doEndBootstrap (now : ℕ) (asset₀ asset₁ : AssetId) :
    DexGeneralCall AccountId AssetId Tokens Unit := do
  let pair := sortAssetId asset₀ asset₁
  let params ← Call.reads fun s => bootstrapPair s pair
  Call.ensure (params.endBlockNumber ≤ now ∧
    params.targetSupply.1 ≤ params.accumulatedSupply.1 ∧
    params.targetSupply.2 ≤ params.accumulatedSupply.2) (.dexGeneral .unqualifiedBootstrap)
  let totalLpSupply :=
    calculateLiquidity params.accumulatedSupply.1 params.accumulatedSupply.2 0 0 0
  Call.ensure (0 < totalLpSupply) overflow
  let pairAccount : AccountId := pairAccountId pair.1 pair.2
  let s ← get
  let lpAssetId ← Call.ofOption (.dexGeneral .insufficientAssetBalance) (s.liquidityPairs pair)
  transfer pair.1 params.pairAccount pairAccount params.accumulatedSupply.1
  transfer pair.2 params.pairAccount pairAccount params.accumulatedSupply.2
  deposit lpAssetId pairAccount totalLpSupply
  setPairStatus pair (.trading
    { pairAccount := pairAccount
      totalSupply := totalLpSupply
      feeRate := DEFAULT_FEE_RATE })
  modify fun s => { s with
    bootstrapEndStatus := Function.update s.bootstrapEndStatus pair (.bootstrap params) }

/-! ## Claims -/

/-- The amount of one asset that a contribution of both is worth, at the ratio of the totals. -/
def exactAmount (amount other total otherTotal : ℕ) : Option ℕ := do
  let own ← checkedMul maxU256 amount otherTotal
  let counter ← checkedMul maxU256 other total
  let both ← checkedAdd maxU256 own counter
  let twice ← checkedMul maxU256 otherTotal 2
  checkedDiv both twice

/-- The liquidity that a contribution is worth. -/
def claimLiquidity (contribution accumulated : ℕ × ℕ) : Option ℕ := do
  let exactAmount₀ ← exactAmount contribution.1 contribution.2 accumulated.1 accumulated.2
  let exactAmount₁ ← exactAmount contribution.2 contribution.1 accumulated.2 accumulated.1
  let product ← checkedMul maxU256 exactAmount₀ exactAmount₁
  tryInto maxBalance (Nat.sqrt product)

/-- The liquidity of a bootstrap is the geometric mean of what was contributed. -/
def bootstrapTotalLiquidity (accumulated : ℕ × ℕ) : Option ℕ := do
  let product ← checkedMul maxU256 accumulated.1 accumulated.2
  tryInto maxBalance (Nat.sqrt product)

/-- A share of a reward. -/
def ownerReward (shareLp rewardAmount totalLp : ℕ) : Option ℕ := do
  let product ← checkedMul maxU256 shareLp rewardAmount
  let quotient ← checkedDiv product totalLp
  tryInto maxBalance quotient

/-- Pay each reward in proportion to the liquidity claimed. -/
def bootstrapDistributeReward (owner rewardHolder : AccountId) (asset₀ asset₁ : AssetId)
    (shareLp totalLp : ℕ) : DexGeneralCall AccountId AssetId Tokens Unit := do
  let s ← get
  (s.bootstrapRewards (sortAssetId asset₀ asset₁)).entries.forM fun e => do
    let reward ← Call.ofOption overflow (ownerReward shareLp e.2 totalLp)
    transfer e.1 rewardHolder owner reward

/-- The parameters of a pair whose bootstrap ended. -/
def bootstrapEnded (s : DexGeneral AccountId AssetId Tokens) (pair : AssetId × AssetId) :
    Except DispatchError (BootstrapParameter AccountId) :=
  match s.bootstrapEndStatus pair with
  | .bootstrap params => .ok params
  | _ => .error (.dexGeneral .notInBootstrap)

/-- The pair trades. -/
def IsTrading (s : DexGeneral AccountId AssetId Tokens) (pair : AssetId × AssetId) : Bool :=
  match s.pairStatuses pair with
  | .trading _ => true
  | _ => false

/-- Claim liquidity and rewards after a bootstrap. -/
def doBootstrapClaim (now : ℕ) (who recipient : AccountId) (asset₀ asset₁ : AssetId) :
    DexGeneralCall AccountId AssetId Tokens Unit := do
  let pair := sortAssetId asset₀ asset₁
  let s ← get
  Call.ensure (IsTrading s pair = true) (.dexGeneral .notInBootstrap)
  let contribution ← Call.ofOption (.dexGeneral .zeroContribute) (s.bootstrapPersonalSupply pair who)
  let params ← Call.ofExcept (bootstrapEnded s pair)
  Call.ensure (bootstrapDisable now params = false) (.dexGeneral .disableBootstrap)
  let liquidity ← Call.ofOption overflow (claimLiquidity contribution params.accumulatedSupply)
  let lpAssetId ← Call.ofOption (.dexGeneral .insufficientAssetBalance) (s.liquidityPairs pair)
  transfer lpAssetId (pairAccountId pair.1 pair.2) recipient liquidity
  let totalLiquidity ← Call.ofOption overflow (bootstrapTotalLiquidity params.accumulatedSupply)
  bootstrapDistributeReward who params.pairAccount pair.1 pair.2 liquidity totalLiquidity
  setPersonalSupply pair who none

/-! ## Refunds -/

/-- A bootstrap is refunded after it failed, also where the pair was then created to trade. -/
def ensureRefundable (now : ℕ) (pair : AssetId × AssetId) :
    DexGeneralCall AccountId AssetId Tokens Unit := do
  let s ← get
  match s.pairStatuses pair with
  | .bootstrap params => Call.ensure (bootstrapDisable now params = true) (.dexGeneral .denyRefund)
  | _ =>
    match s.bootstrapEndStatus pair with
    | .bootstrap params =>
      Call.ensure (bootstrapDisable now params = true) (.dexGeneral .denyRefund)
    | _ => throw (.dexGeneral .denyRefund)

/-- Take a refund off what was accumulated. -/
def decreaseAccumulated (pair : AssetId × AssetId) (contribution : ℕ × ℕ) :
    DexGeneralCall AccountId AssetId Tokens Unit := do
  let s ← get
  match s.pairStatuses pair with
  | .bootstrap params => do
    let accumulated₀ ← Call.ofOption overflow
      (checkedSub params.accumulatedSupply.1 contribution.1)
    let accumulated₁ ← Call.ofOption overflow
      (checkedSub params.accumulatedSupply.2 contribution.2)
    setPairStatus pair
      (.bootstrap { params with accumulatedSupply := (accumulated₀, accumulated₁) })
  | _ => return

/-- Take a contribution back from a bootstrap that failed. -/
def doBootstrapRefund (now : ℕ) (who : AccountId) (asset₀ asset₁ : AssetId) :
    DexGeneralCall AccountId AssetId Tokens Unit := do
  let pair := sortAssetId asset₀ asset₁
  ensureRefundable now pair
  let s ← get
  let contribution ← Call.ofOption (.dexGeneral .zeroContribute) (s.bootstrapPersonalSupply pair who)
  transfer pair.1 (DexGeneralConfig.bootstrapAccountId AssetId) who contribution.1
  transfer pair.2 (DexGeneralConfig.bootstrapAccountId AssetId) who contribution.2
  decreaseAccumulated pair contribution
  setPersonalSupply pair who none

/-! ## Creation -/

/-- Start with rewards of zero, and with the limits of the contributors. -/
def setRewardsAndLimits (pair : AssetId × AssetId) (rewards : List AssetId)
    (limits : List (AssetId × ℕ)) : DexGeneralCall AccountId AssetId Tokens Unit := do
  let newRewards := OrderedMap.ofList (rewards.map fun asset => (asset, 0))
  Call.ensure (newRewards.size ≤ DexGeneralConfig.maxBootstrapRewards AccountId AssetId)
    (.dexGeneral .tooManyRewards)
  modify fun s => { s with
    bootstrapRewards := Function.update s.bootstrapRewards pair newRewards }
  let newLimits := OrderedMap.ofList limits
  Call.ensure (newLimits.size ≤ DexGeneralConfig.maxBootstrapLimits AccountId AssetId)
    (.dexGeneral .tooManyLimits)
  modify fun s => { s with
    bootstrapLimits := Function.update s.bootstrapLimits pair newLimits }

/-- No rewards are recorded. -/
def ensureNoRewards (pair : AssetId × AssetId) :
    DexGeneralCall AccountId AssetId Tokens Unit := do
  let s ← get
  Call.ensure ((s.bootstrapRewards pair).entries.all fun e => e.2 = 0)
    (.dexGeneral .existRewardsInBootstrap)

/-- A bootstrap that failed can be created again, and keeps what it has accumulated. -/
def bootstrapCreate (now : ℕ) (asset₀ asset₁ : AssetId) (targetSupply capacitySupply : ℕ × ℕ)
    (endBlock : ℕ) (rewards : List AssetId) (limits : List (AssetId × ℕ)) :
    DexGeneralCall AccountId AssetId Tokens Unit := do
  let pair := sortAssetId asset₀ asset₁
  let started (accumulated : ℕ × ℕ) : PairStatus AccountId := .bootstrap
    { targetSupply := inOrder pair asset₀ targetSupply
      capacitySupply := inOrder pair asset₀ capacitySupply
      accumulatedSupply := accumulated
      endBlockNumber := endBlock
      pairAccount := DexGeneralConfig.bootstrapAccountId AssetId }
  let s ← get
  match s.pairStatuses pair with
  | .trading _ => throw (.dexGeneral .pairAlreadyExists)
  | .bootstrap params => do
    Call.ensure (bootstrapDisable now params = true) (.dexGeneral .pairAlreadyExists)
    ensureNoRewards pair
    setRewardsAndLimits pair rewards limits
    setPairStatus pair (started params.accumulatedSupply)
  | .disable => do
    setRewardsAndLimits pair rewards limits
    setPairStatus pair (started (0, 0))

/-- Change the parameters of a pair that collects contributions. -/
def bootstrapUpdate (asset₀ asset₁ : AssetId) (targetSupply capacitySupply : ℕ × ℕ)
    (endBlock : ℕ) (rewards : List AssetId) (limits : List (AssetId × ℕ)) :
    DexGeneralCall AccountId AssetId Tokens Unit := do
  let pair := sortAssetId asset₀ asset₁
  let s ← get
  match s.pairStatuses pair with
  | .trading _ => throw (.dexGeneral .pairAlreadyExists)
  | .bootstrap params => do
    ensureNoRewards pair
    setRewardsAndLimits pair rewards limits
    setPairStatus pair (.bootstrap
      { targetSupply := inOrder pair asset₀ targetSupply
        capacitySupply := inOrder pair asset₀ capacitySupply
        accumulatedSupply := params.accumulatedSupply
        endBlockNumber := endBlock
        pairAccount := DexGeneralConfig.bootstrapAccountId AssetId })
  | .disable => throw (.dexGeneral .notInBootstrap)

/-! ## Rewards -/

/-- Store the rewards of a pair. -/
def setRewards (pair : AssetId × AssetId) (rewards : OrderedMap AssetId ℕ) :
    DexGeneralCall AccountId AssetId Tokens Unit :=
  modify fun s => { s with bootstrapRewards := Function.update s.bootstrapRewards pair rewards }

/-- Pay the charges, and add them to the rewards. -/
def chargeRewards (who : AccountId) :
    List (AssetId × ℕ) → OrderedMap AssetId ℕ →
      DexGeneralCall AccountId AssetId Tokens (OrderedMap AssetId ℕ)
  | [], rewards => return rewards
  | charge :: charges, rewards => do
    let alreadyCharged ← Call.ofOption (.dexGeneral .noRewardTokens) (rewards.lookup charge.1)
    transfer charge.1 who (DexGeneralConfig.bootstrapAccountId AssetId) charge.2
    let newCharge ← Call.ofOption overflow (checkedAdd maxBalance alreadyCharged charge.2)
    chargeRewards who charges (rewards.insert charge.1 newCharge)

/-- Pay rewards in for a pair. -/
def bootstrapChargeReward (who : AccountId) (asset₀ asset₁ : AssetId)
    (charges : List (AssetId × ℕ)) : DexGeneralCall AccountId AssetId Tokens Unit := do
  let pair := sortAssetId asset₀ asset₁
  let s ← get
  Call.ensure ((s.bootstrapRewards pair).size = charges.length)
    (.dexGeneral .chargeRewardParamsError)
  let rewards ← chargeRewards who charges (s.bootstrapRewards pair)
  setRewards pair rewards

/-- All that is recorded is paid, also where a part of it has been distributed. -/
def bootstrapWithdrawReward (asset₀ asset₁ : AssetId) (recipient : AccountId) :
    DexGeneralCall AccountId AssetId Tokens Unit := do
  let pair := sortAssetId asset₀ asset₁
  let s ← get
  (s.bootstrapRewards pair).entries.forM fun e =>
    transfer e.1 (DexGeneralConfig.bootstrapAccountId AssetId) recipient e.2
  setRewards pair ((s.bootstrapRewards pair).mapValues fun _ => 0)

end Interbtc.DexGeneral
