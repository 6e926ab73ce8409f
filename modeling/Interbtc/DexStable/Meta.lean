import Interbtc.DexStable.Base

/-!
# Meta pools

The balance of the last currency of a meta pool counts at the price of the liquidity of its base
pool. The price is remembered for a time, and computed again after that.
-/

namespace Interbtc.DexStable

open Core DexStable MultiCurrency WithdrawableCurrency

variable {AccountId CurrencyId Tokens : Type} [WithdrawableCurrency Tokens AccountId CurrencyId]

/-! ## Prices -/

/-- The balances with common decimals, the last one at a price. -/
def metaPoolXp (balances rates : List ℕ) (baseVirtualPrice : ℕ) : Computed (List ℕ) := do
  let normalized ← xp balances rates
  let baseLpTokenIndex ← orNone (checkedSub balances.length 1)
  let balance ← nth normalized baseLpTokenIndex
  let valued ← orNone (mulDivBalance balance baseVirtualPrice BASE_VIRTUAL_PRICE_PRECISION)
  setNth normalized baseLpTokenIndex valued

/-- The invariant of some balances of a meta pool. -/
def metaBalancesD (pool : BasePool AccountId CurrencyId) (balances : List ℕ)
    (baseVirtualPrice amp : ℕ) : Computed ℕ := do
  let normalized ← metaPoolXp balances pool.tokenMultipliers baseVirtualPrice
  orNone (getD normalized amp)

section Reads

variable (s : DexStable AccountId CurrencyId Tokens)

/-- Whether the price that a meta pool remembers is too old. -/
def cacheExpired (pool : MetaPool AccountId CurrencyId) : Computed Bool :=
  if pool.baseCacheLastUpdated + BASE_CACHE_EXPIRE_TIME ≤ maxU64 then
    .ok (decide (pool.baseCacheLastUpdated + BASE_CACHE_EXPIRE_TIME < s.now))
  else .error .panic

/-- The price of the liquidity of a meta pool, given the price of that of its base pool. -/
def metaVirtualPriceAt (pool : MetaPool AccountId CurrencyId) (baseVirtualPrice : ℕ) :
    Computed ℕ := do
  let normalized ← metaPoolXp pool.info.balances pool.info.tokenMultipliers baseVirtualPrice
  let amp ← orNone (getAPrecise s.now pool.info)
  let d ← orNone (getD normalized amp)
  if lpSupply s pool.info ≠ 0 then
    orNone (mulDivBalance d BASE_VIRTUAL_PRICE_PRECISION (lpSupply s pool.info))
  else .error .none

/-- The price of the liquidity of the base pool, which can be a meta pool itself. The number
bounds the depth of the calls. -/
def baseVirtualPriceFrom : ℕ → MetaPool AccountId CurrencyId → Computed ℕ
  | 0, _ => .error .panic
  | depth + 1, pool => do
    let expired ← cacheExpired s pool
    if expired then
      match s.pools pool.basePoolId with
      | none => .error .none
      | some (.base base) => calculateBaseVirtualPrice s base
      | some (.metaPool base) => do
        let price ← baseVirtualPriceFrom depth base
        metaVirtualPriceAt s base price
    else .ok pool.baseVirtualPrice

/-- A base pool is older than its meta pool, so there are not more calls than pools. -/
def metaPoolBaseVirtualPrice (pool : MetaPool AccountId CurrencyId) : Computed ℕ :=
  baseVirtualPriceFrom s (s.nextPoolId + 1) pool

/-- What one of the liquidity tokens is worth. -/
def calculateMetaVirtualPrice (pool : MetaPool AccountId CurrencyId) : Computed ℕ := do
  let baseVirtualPrice ← metaPoolBaseVirtualPrice s pool
  metaVirtualPriceAt s pool baseVirtualPrice

/-- What one of the liquidity tokens of a pool is worth. -/
def getPoolVirtualPrice : StablePool AccountId CurrencyId → Computed ℕ
  | .base pool => calculateBaseVirtualPrice s pool
  | .metaPool pool => calculateMetaVirtualPrice s pool

/-- Compute the price of the base pool again if it is too old, and remember it. -/
def metaPoolUpdateVirtualPrice (pool : MetaPool AccountId CurrencyId) :
    Computed (ℕ × MetaPool AccountId CurrencyId) := do
  let expired ← cacheExpired s pool
  if expired then
    match s.pools pool.basePoolId with
    | none => .error .none
    | some base => do
      let baseVirtualPrice ← getPoolVirtualPrice s base
      .ok (baseVirtualPrice,
        { pool with baseVirtualPrice := baseVirtualPrice, baseCacheLastUpdated := s.now })
  else .ok (pool.baseVirtualPrice, pool)

/-! ## Quotes -/

/-- What a number of liquidity tokens of the base pool is, given its value. -/
def unpriced (baseVirtualPrice value : ℕ) : Option ℕ :=
  mulDivBalance value BASE_VIRTUAL_PRICE_PRECISION baseVirtualPrice

/-- What burning liquidity of a meta pool pays in one token, and the fee. -/
def calculateMetaRemoveLiquidityOneCurrency (pool : MetaPool AccountId CurrencyId)
    (tokenAmount index totalSupply : ℕ) : Computed (ℕ × ℕ) :=
  if pool.info.currencyIds.length ≤ index then .error .none
  else do
    let baseVirtualPrice ← metaPoolBaseVirtualPrice s pool
    let normalized ← metaPoolXp pool.info.balances pool.info.tokenMultipliers baseVirtualPrice
    let amp ← orNone (getAPrecise s.now pool.info)
    let d₀ ← orNone (getD normalized amp)
    let feePerToken ← orNone (calculateFeePerToken pool.info)
    let part ← orNone (mulDiv tokenAmount d₀ totalSupply)
    let d₁ ← orNone ((checkedSub d₀ part).bind (tryInto maxBalance))
    let newY ← orNone (getYd pool.info amp index normalized d₁)
    let reduced ← orNone (normalized.zipIdx.mapM fun x =>
      reduceBalance feePerToken d₀ d₁ newY x.1 (x.2 = index))
    let reducedOut ← nth reduced index
    let reducedY ← orNone (getYd pool.info amp index reduced d₁)
    let gross ← orNone (checkedSub reducedOut reducedY)
    let last ← minus normalized.length 1
    let balance ← nth normalized index
    let (gross, newY, balance) ←
      if index = last then do
        let gross ← orNone (unpriced baseVirtualPrice gross)
        let newY ← orNone (unpriced baseVirtualPrice newY)
        let balance ← orNone (unpriced baseVirtualPrice balance)
        .ok (gross, newY, balance)
      else .ok (gross, newY, balance)
    let less ← orNone (checkedSub gross 1)
    let multiplier ← nth pool.info.tokenMultipliers index
    let dy ← orNone (checkedDiv less multiplier)
    let change ← orNone (checkedSub balance newY)
    let exact ← orNone (checkedDiv change multiplier)
    let swapFee ← orNone (checkedSub exact dy)
    .ok (dy, swapFee)

/-- The liquidity for some amounts, without fees. Their number is not checked. -/
def calculateMetaCurrencyAmount (pool : MetaPool AccountId CurrencyId) (amounts : List ℕ)
    (deposit : Bool) : Computed ℕ := do
  let baseVirtualPrice ← metaPoolBaseVirtualPrice s pool
  let normalized ← metaPoolXp pool.info.balances pool.info.tokenMultipliers baseVirtualPrice
  let amp ← orNone (getAPrecise s.now pool.info)
  let d₀ ← orNone (getD normalized amp)
  let newBalances ←
    if deposit then addAmounts pool.info.balances amounts
    else subtractAmounts pool.info.balances amounts
  let d₁ ← metaBalancesD pool.info newBalances baseVirtualPrice amp
  if lpSupply s pool.info = 0 then .ok d₁
  else do
    let diff ← orNone (if deposit then checkedSub d₁ d₀ else checkedSub d₀ d₁)
    orNone (mulDivBalance diff (lpSupply s pool.info) d₀)

/-- The liquidity given amounts of a meta pool cost, and the fees. -/
def calculateMetaRemoveLiquidityImbalance (pool : MetaPool AccountId CurrencyId)
    (amounts : List ℕ) (totalSupply baseVirtualPrice : ℕ) :
    Computed (ℕ × List ℕ × MetaPool AccountId CurrencyId) := do
  let feePerToken ← orNone (calculateFeePerToken pool.info)
  let amp ← orNone (getAPrecise s.now pool.info)
  let d₀ ← metaBalancesD pool.info pool.info.balances baseVirtualPrice amp
  let newBalances ← subtractAmounts pool.info.balances amounts
  let d₁ ← metaBalancesD pool.info newBalances baseVirtualPrice amp
  let (balances, newBalances, fees) ← chargeImbalances feePerToken pool.info.adminFee d₀ d₁
    pool.info.balances.length pool.info.currencyIds.length pool.info.balances newBalances
  let d₁ ← metaBalancesD pool.info newBalances baseVirtualPrice amp
  let growth ← orNone (checkedSub d₀ d₁)
  let burnAmount ← orNone (mulDivBalance growth totalSupply d₀)
  .ok (burnAmount, fees, { pool with info := { pool.info with balances := balances } })

/-- The amount of one currency for another, and the fee. -/
def calculateMetaSwapAmount (pool : MetaPool AccountId CurrencyId)
    (i j inAmount baseVirtualPrice : ℕ) : Computed (ℕ × ℕ) :=
  if i = j ∨ pool.info.currencyIds.length ≤ i ∨ pool.info.currencyIds.length ≤ j then
    .error .none
  else do
    let normalized ← metaPoolXp pool.info.balances pool.info.tokenMultipliers baseVirtualPrice
    let baseLpCurrencyIndex ← orNone (checkedSub normalized.length 1)
    let multiplierIn ← nth pool.info.tokenMultipliers i
    let scaled ← orNone (checkedMul maxBalance inAmount multiplierIn)
    let valued ← orNone (if i = baseLpCurrencyIndex then
      mulDivBalance scaled baseVirtualPrice BASE_VIRTUAL_PRICE_PRECISION else some scaled)
    let balanceIn ← nth normalized i
    let x ← orNone (checkedAdd maxBalance valued balanceIn)
    let y ← orNone (getY s.now pool.info i j x normalized)
    let balanceOut ← nth normalized j
    let change ← orNone (checkedSub balanceOut y)
    let less ← orNone (checkedSub change 1)
    let dy ← orNone (if j = baseLpCurrencyIndex then unpriced baseVirtualPrice less else some less)
    let fee ← orNone (mulDivBalance dy pool.info.fee FEE_DENOMINATOR)
    let net ← orNone (checkedSub dy fee)
    let multiplierOut ← nth pool.info.tokenMultipliers j
    let out ← orNone (checkedDiv net multiplierOut)
    .ok (out, fee)

end Reads

/-! ## Calls -/

/-- Take the amounts that are not zero. The first supply has to have some of each currency. -/
def supplyMetaCurrencies (who : AccountId) (pool : BasePool AccountId CurrencyId)
    (amounts : List ℕ) (lpTotalSupply : ℕ) : StableCall AccountId CurrencyId Tokens (List ℕ) :=
  pool.currencyIds.zipIdx.foldlM (fun newBalances c => do
    let amount ← arithmetic (nth amounts c.2)
    check (lpTotalSupply ≠ 0 ∨ 0 < amount) .requireAllCurrencies
    if amount ≠ 0 then do
      let balance ← arithmetic (nth newBalances c.2)
      let received ← doTransferIn c.1 who pool.account amount
      let sum ← arithmetic (orNone (checkedAdd maxBalance balance received))
      arithmetic (setNth newBalances c.2 sum)
    else pure newBalances) pool.balances

/-- Bring tokens to a meta pool, for liquidity. -/
def metaPoolAddLiquidity (who : AccountId) (pool : MetaPool AccountId CurrencyId)
    (amounts : List ℕ) (minMintAmount : ℕ) (to' : AccountId) :
    StableCall AccountId CurrencyId Tokens (ℕ × MetaPool AccountId CurrencyId) := do
  check (pool.info.currencyIds.length = amounts.length) .mismatchParameter
  let s ← get
  let lpTotalSupply := lpSupply s pool.info
  let amp ← arithmetic (orNone (getAPrecise s.now pool.info))
  let (baseVirtualPrice, pool) ← arithmetic (metaPoolUpdateVirtualPrice s pool)
  let d₀ ←
    if lpTotalSupply ≠ 0 then
      arithmetic (metaBalancesD pool.info pool.info.balances baseVirtualPrice amp)
    else pure 0
  let newBalances ← supplyMetaCurrencies who pool.info amounts lpTotalSupply
  let d₁ ← arithmetic (metaBalancesD pool.info newBalances baseVirtualPrice amp)
  check (d₀ < d₁) .checkDFailed
  let (mintAmount, balances) ←
    if lpTotalSupply ≠ 0 then
      arithmetic do
        let feePerToken ← orNone (calculateFeePerToken pool.info)
        let (balances, newBalances, _) ← chargeImbalances feePerToken pool.info.adminFee d₀ d₁
          pool.info.currencyIds.length pool.info.currencyIds.length pool.info.balances newBalances
        let d₂ ← metaBalancesD pool.info newBalances baseVirtualPrice amp
        let growth ← orNone (checkedSub d₂ d₀)
        let mintAmount ← orNone (mulDivBalance growth lpTotalSupply d₀)
        .ok (mintAmount, balances)
    else pure (d₁, newBalances)
  check (minMintAmount ≤ mintAmount) .amountSlippage
  liftTokens (MultiCurrency.deposit pool.info.lpCurrencyId to' mintAmount)
  pure (mintAmount, { pool with info := { pool.info with balances := balances } })

/-- Swap two tokens of a meta pool. -/
def metaPoolSwap (who : AccountId) (pool : MetaPool AccountId CurrencyId)
    (i j inAmount outMinAmount : ℕ) (to' : AccountId) :
    StableCall AccountId CurrencyId Tokens (ℕ × MetaPool AccountId CurrencyId) := do
  check (i < pool.info.currencyIds.length ∧ j < pool.info.currencyIds.length)
    .currencyIndexOutRange
  let currencyIn ← arithmetic (nth pool.info.currencyIds i)
  let inAmount ← doTransferIn currencyIn who pool.info.account inAmount
  let s ← get
  let (virtualPrice, pool) ← arithmetic (metaPoolUpdateVirtualPrice s pool)
  let (dy, dyFee) ← arithmetic (calculateMetaSwapAmount s pool i j inAmount virtualPrice)
  check (outMinAmount ≤ dy) .amountSlippage
  let balances ← arithmetic do
    let charged ← orNone (mulDiv dyFee pool.info.adminFee FEE_DENOMINATOR)
    let multiplierOut ← nth pool.info.tokenMultipliers j
    let adminFee ← orNone ((checkedDiv charged multiplierOut).bind (tryInto maxBalance))
    let balanceIn ← nth pool.info.balances i
    let newIn ← orNone (checkedAdd maxBalance balanceIn inAmount)
    let balances ← setNth pool.info.balances i newIn
    let balanceOut ← nth balances j
    let rest ← orNone (checkedSub balanceOut dy)
    let newOut ← orNone (checkedSub rest adminFee)
    setNth balances j newOut
  let currencyOut ← arithmetic (nth pool.info.currencyIds j)
  (TokensPart.zoom (MultiCurrency.transfer currencyOut pool.info.account to' dy)).mapError fun _ =>
    .stable .insufficientReserve
  pure (dy, { pool with info := { pool.info with balances := balances } })

/-- Burn liquidity of a meta pool for one of its tokens. -/
def metaPoolRemoveLiquidityOneCurrency (pool : MetaPool AccountId CurrencyId) (who : AccountId)
    (lpAmount index minAmount : ℕ) (to' : AccountId) :
    StableCall AccountId CurrencyId Tokens (ℕ × MetaPool AccountId CurrencyId) := do
  let s ← get
  let totalSupply := lpSupply s pool.info
  check (lpAmount ≤ freeBalance s pool.info.lpCurrencyId who ∧ lpAmount ≤ totalSupply)
    .insufficientSupply
  check (index < pool.info.currencyIds.length) .currencyIndexOutRange
  let (_, pool) ← arithmetic (metaPoolUpdateVirtualPrice s pool)
  let (dy, dyFee) ←
    arithmetic (calculateMetaRemoveLiquidityOneCurrency s pool lpAmount index totalSupply)
  let (dy, info) ← payOneCurrency pool.info who lpAmount index minAmount to' dy dyFee
  pure (dy, { pool with info := info })

/-- Take given amounts from a meta pool for as much liquidity as they cost. -/
def metaPoolRemoveLiquidityImbalance (who : AccountId) (pool : MetaPool AccountId CurrencyId)
    (amounts : List ℕ) (maxBurnAmount : ℕ) (to' : AccountId) :
    StableCall AccountId CurrencyId Tokens (MetaPool AccountId CurrencyId) := do
  let s ← get
  let totalSupply := lpSupply s pool.info
  check (0 < totalSupply) .insufficientLpReserve
  check (amounts.length = pool.info.currencyIds.length) .mismatchParameter
  let (baseVirtualPrice, pool) ← arithmetic (metaPoolUpdateVirtualPrice s pool)
  let (burnAmount, _, changed) ← arithmetic
    (calculateMetaRemoveLiquidityImbalance s pool amounts totalSupply baseVirtualPrice)
  payImbalance who changed.info amounts totalSupply burnAmount maxBurnAmount to'
  pure changed

end Interbtc.DexStable
