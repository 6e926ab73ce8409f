import Interbtc.DexStable.Meta

/-!
# Calls of pools

A call finds its pool in the storage, which keeps the pool that the call returns. Some calls go
through a meta pool and its base pool.
-/

namespace Interbtc.DexStable

open Core DexStable MultiCurrency WithdrawableCurrency

variable {AccountId CurrencyId Tokens α : Type} [WithdrawableCurrency Tokens AccountId CurrencyId]

section Reads

variable (s : DexStable AccountId CurrencyId Tokens)

/-- The liquidity token of a pool. -/
def getLpCurrency (poolId : ℕ) : Option CurrencyId := (s.pools poolId).map StablePool.getLpCurrency

/-- The first index of a currency in a pool. -/
def getCurrencyIndex [DecidableEq CurrencyId] (poolId : ℕ) (currencyId : CurrencyId) : Option ℕ :=
  (s.pools poolId).bind fun pool => pool.getCurrencyIds.findIdx? (· = currencyId)

/-- The currency at an index. The check of the index is the wrong way round. -/
def getCurrency (poolId index : ℕ) : Computed (Option CurrencyId) :=
  match s.pools poolId with
  | none => .ok none
  | some pool =>
    if pool.getCurrencyIds.length < index then do
      let currency ← nth pool.getCurrencyIds index
      .ok (some currency)
    else .ok none

/-- The last index of a currency. -/
def lastIndexOf [DecidableEq CurrencyId] (currencyIds : List CurrencyId)
    (currencyId : CurrencyId) : Option ℕ :=
  currencyIds.zipIdx.foldl (fun found c => if c.1 = currencyId then some c.2 else found) none

/-! ## Quotes -/

/-- The liquidity that given amounts bring or cost. -/
def calculateCurrencyAmount (poolId : ℕ) (amounts : List ℕ) (deposit : Bool) :
    Except StableFault ℕ :=
  match s.pools poolId with
  | none => .error (.stable .invalidPoolId)
  | some (.base pool) => calculateBaseCurrencyAmount s pool amounts deposit
  | some (.metaPool pool) =>
    (calculateMetaCurrencyAmount s pool amounts deposit).mapError (Stop.fault .arithmetic)

/-- What burning liquidity pays in all tokens. -/
def stableAmmCalculateRemoveLiquidity (poolId amount : ℕ) : Computed (List ℕ) :=
  match s.pools poolId with
  | none => .error .none
  | some pool => calculateBaseRemoveLiquidity s pool.info amount

/-- In a meta pool the price of its own liquidity is taken for that of its base pool. -/
def stableAmmCalculateSwapAmount (poolId i j inBalance : ℕ) : Computed ℕ :=
  match s.pools poolId with
  | none => .error .none
  | some (.base pool) => calculateBaseSwapAmount s pool i j inBalance
  | some (.metaPool pool) => do
    let virtualPrice ← calculateMetaVirtualPrice s pool
    let (dy, _) ← calculateMetaSwapAmount s pool i j inBalance virtualPrice
    .ok dy

/-- What burning liquidity pays in one token. -/
def stableAmmCalculateRemoveLiquidityOneCurrency (poolId amount index : ℕ) : Computed ℕ :=
  match s.pools poolId with
  | none => .error .none
  | some (.base pool) => do
    let (dy, _) ← calculateBaseRemoveLiquidityOneToken s pool amount index
    .ok dy
  | some (.metaPool pool) => do
    let (dy, _) ← calculateMetaRemoveLiquidityOneCurrency s pool amount index (lpSupply s pool.info)
    .ok dy

/-- What a pool holds of a token beyond its balance. -/
def getAdminBalance (poolId currencyIndex : ℕ) : Computed ℕ :=
  match s.pools poolId with
  | none => .error .none
  | some pool =>
    if pool.info.currencyIds.length ≤ currencyIndex then .error .none
    else do
      let currency ← nth pool.info.currencyIds currencyIndex
      let balance ← nth pool.info.balances currencyIndex
      orNone (checkedSub (freeBalance s currency pool.info.account) balance)

end Reads

/-! ## Calls of a pool -/

/-- Change a pool in the storage, if there is one. -/
def mutatePool (poolId : ℕ)
    (f : StablePool AccountId CurrencyId →
      StableCall AccountId CurrencyId Tokens (α × StablePool AccountId CurrencyId)) :
    StableCall AccountId CurrencyId Tokens α := do
  let s ← get
  match s.pools poolId with
  | none => throw (.stable .invalidPoolId)
  | some pool => do
    let (a, pool) ← f pool
    modify fun s => { s with pools := Function.update s.pools poolId (some pool) }
    pure a

/-- Bring tokens to a pool, for liquidity. -/
def innerAddLiquidity (who : AccountId) (poolId : ℕ) (amounts : List ℕ) (minMintAmount : ℕ)
    (to' : AccountId) : StableCall AccountId CurrencyId Tokens ℕ :=
  mutatePool poolId fun
    | .base pool => do
      let (mintAmount, pool) ← basePoolAddLiquidity who pool amounts minMintAmount to'
      pure (mintAmount, .base pool)
    | .metaPool pool => do
      let (mintAmount, pool) ← metaPoolAddLiquidity who pool amounts minMintAmount to'
      pure (mintAmount, .metaPool pool)

/-- Swap two tokens of a pool. -/
def innerSwap (who : AccountId) (poolId i j inAmount outMinAmount : ℕ) (to' : AccountId) :
    StableCall AccountId CurrencyId Tokens ℕ := do
  check (i ≠ j) .swapSameCurrency
  mutatePool poolId fun
    | .base pool => do
      let (dy, pool) ← basePoolSwap who pool i j inAmount outMinAmount to'
      pure (dy, .base pool)
    | .metaPool pool => do
      let (dy, pool) ← metaPoolSwap who pool i j inAmount outMinAmount to'
      pure (dy, .metaPool pool)

/-- Pay the amounts of all currencies, in their order. -/
def payAmounts (pool : BasePool AccountId CurrencyId) (amounts minAmounts : List ℕ)
    (to' : AccountId) : StableCall AccountId CurrencyId Tokens (List ℕ) :=
  amounts.zipIdx.foldlM (fun balances x => do
    let minAmount ← arithmetic (nth minAmounts x.2)
    check (minAmount ≤ x.1) .amountSlippage
    let balance ← arithmetic (nth balances x.2)
    let rest ← arithmetic (orNone (checkedSub balance x.1))
    let balances ← arithmetic (setNth balances x.2 rest)
    let currency ← arithmetic (nth pool.currencyIds x.2)
    liftTokens (MultiCurrency.transfer currency pool.account to' x.1)
    pure balances) pool.balances

/-- Burn liquidity for its share of all tokens. -/
def innerRemoveLiquidity (poolId : ℕ) (who : AccountId) (lpAmount : ℕ) (minAmounts : List ℕ)
    (to' : AccountId) : StableCall AccountId CurrencyId Tokens Unit := do
  check (lpAmount ≠ 0) .invalidTransaction
  mutatePool poolId fun pool => do
    let s ← get
    let lpTotalSupply := lpSupply s pool.info
    check (lpAmount ≤ lpTotalSupply) .insufficientReserve
    check (pool.info.currencyIds.length = minAmounts.length) .mismatchParameter
    let amounts ← arithmetic (calculateBaseRemoveLiquidity s pool.info lpAmount)
    let balances ← payAmounts pool.info amounts minAmounts to'
    liftTokens (WithdrawableCurrency.withdraw pool.info.lpCurrencyId who lpAmount)
    pure ((), pool.mapInfo fun info => { info with balances := balances })

/-- Burn liquidity for one token. -/
def innerRemoveLiquidityOneCurrency (poolId : ℕ) (who : AccountId)
    (lpAmount index minAmount : ℕ) (to' : AccountId) :
    StableCall AccountId CurrencyId Tokens ℕ := do
  check (lpAmount ≠ 0) .invalidTransaction
  mutatePool poolId fun
    | .base pool => do
      let (dy, pool) ← basePoolRemoveLiquidityOneCurrency pool who lpAmount index minAmount to'
      pure (dy, .base pool)
    | .metaPool pool => do
      let (dy, pool) ← metaPoolRemoveLiquidityOneCurrency pool who lpAmount index minAmount to'
      pure (dy, .metaPool pool)

/-- Take given amounts for as much liquidity as they cost. -/
def innerRemoveLiquidityImbalance (who : AccountId) (poolId : ℕ) (amounts : List ℕ)
    (maxBurnAmount : ℕ) (to' : AccountId) : StableCall AccountId CurrencyId Tokens Unit :=
  mutatePool poolId fun
    | .base pool => do
      let pool ← basePoolRemoveLiquidityImbalance who pool amounts maxBurnAmount to'
      pure ((), .base pool)
    | .metaPool pool => do
      let pool ← metaPoolRemoveLiquidityImbalance who pool amounts maxBurnAmount to'
      pure ((), .metaPool pool)

/-! ## Calls of a meta pool and its base pool -/

/-- A pool has to be a meta pool on another pool. -/
def checkMetaPool (pool : StablePool AccountId CurrencyId) (basePoolId : ℕ) :
    StableCall AccountId CurrencyId Tokens Unit :=
  match pool with
  | .base _ => throw (.stable .invalidPoolId)
  | .metaPool pool => check (pool.basePoolId = basePoolId) .mismatchParameter

/-- The pool of an id. -/
def findPool (poolId : ℕ) (e : StableError) :
    StableCall AccountId CurrencyId Tokens (StablePool AccountId CurrencyId) := do
  let s ← get
  Call.ofOption (.stable e) (s.pools poolId)

variable [DecidableEq CurrencyId]

/-- Put an amount where the currency is the liquidity of the base pool. -/
def setLpAmounts (currencyIds : List CurrencyId) (lpCurrency : CurrencyId) (lpAmount : ℕ)
    (amounts : List ℕ) : Computed (List ℕ) :=
  currencyIds.zipIdx.foldlM (fun amounts c =>
    if c.1 = lpCurrency then setNth amounts c.2 lpAmount else .ok amounts) amounts

/-- Bring tokens to a base pool, and its liquidity to a meta pool. -/
def innerAddPoolAndBasePoolLiquidity (who : AccountId) (poolId basePoolId : ℕ)
    (metaAmounts baseAmounts : List ℕ) (minToMint : ℕ) (to' : AccountId) :
    StableCall AccountId CurrencyId Tokens Unit := do
  let basePool ← findPool basePoolId .invalidPoolId
  let metaPool ← findPool poolId .invalidPoolId
  checkMetaPool metaPool basePoolId
  let basePoolLpCurrency := basePool.getLpCurrency
  check (metaAmounts.length = metaPool.getCurrencyIds.length) .mismatchParameter
  let depositBase := baseAmounts.any fun amount => decide (0 < amount)
  let baseLpReceived ←
    if depositBase then innerAddLiquidity who basePoolId baseAmounts 0 who else pure 0
  let before ← get
  let metaAmounts ← arithmetic
    (setLpAmounts metaPool.getCurrencyIds basePoolLpCurrency baseLpReceived metaAmounts)
  let _ ← innerAddLiquidity who poolId metaAmounts minToMint to'
  if depositBase then do
    let after ← get
    let difference ← arithmetic (orNone do
      let sum ← checkedAdd maxBalance (freeBalance after basePoolLpCurrency who) baseLpReceived
      checkedSub sum (freeBalance before basePoolLpCurrency who))
    check (difference = 0) .amountSlippage
  else pure ()

/-- Burn liquidity of a meta pool, and what it pays of the base pool. -/
def innerRemovePoolAndBasePoolLiquidity (who : AccountId) (poolId basePoolId amount : ℕ)
    (minAmountsMeta minAmountsBase : List ℕ) (to' : AccountId) :
    StableCall AccountId CurrencyId Tokens Unit := do
  let basePool ← findPool basePoolId .invalidPoolId
  let before ← get
  innerRemoveLiquidity poolId who amount minAmountsMeta who
  let after ← get
  let baseLpAmount ← arithmetic (orNone (checkedSub
    (freeBalance after basePool.getLpCurrency who) (freeBalance before basePool.getLpCurrency who)))
  innerRemoveLiquidity basePoolId who baseLpAmount minAmountsBase to'

/-- Burn liquidity of a meta pool for one token of its base pool. -/
def innerRemovePoolAndBasePoolLiquidityOneCurrency (who : AccountId)
    (poolId basePoolId amount i minAmount : ℕ) (to' : AccountId) :
    StableCall AccountId CurrencyId Tokens Unit := do
  let basePool ← findPool basePoolId .invalidPoolId
  let metaPool ← findPool poolId .invalidPoolId
  checkMetaPool metaPool basePoolId
  let basePoolLpCurrency := basePool.getLpCurrency
  let basePoolCurrencyIndex ← Call.ofOption (.stable .invalidBasePool)
    (lastIndexOf metaPool.getCurrencyIds basePoolLpCurrency)
  let before ← get
  let _ ← innerRemoveLiquidityOneCurrency poolId who amount basePoolCurrencyIndex 0 who
  let after ← get
  let basePoolCurrencyAmount ← arithmetic (orNone (checkedSub
    (freeBalance after basePoolLpCurrency who) (freeBalance before basePoolLpCurrency who)))
  let _ ← innerRemoveLiquidityOneCurrency basePoolId who basePoolCurrencyAmount i minAmount to'

/-- Swap a token of the base pool for one of the meta pool. -/
def innerSwapPoolFromBase (who : AccountId) (metaPoolId basePoolId inIndex outIndex dx minDy : ℕ)
    (to' : AccountId) : StableCall AccountId CurrencyId Tokens ℕ := do
  let basePool ← findPool basePoolId .invalidBasePool
  let metaPool ← findPool metaPoolId .invalidPoolId
  checkMetaPool metaPool basePoolId
  let lpIndex ← Call.ofOption (.stable .mismatchParameter)
    (lastIndexOf metaPool.info.currencyIds basePool.info.lpCurrencyId)
  -- the index is not checked against the number of currencies
  let baseAmounts ← arithmetic
    (setNth (List.replicate basePool.info.currencyIds.length 0) inIndex dx)
  let baseLpAmount ← innerAddLiquidity who basePoolId baseAmounts 0 who
  if lpIndex ≠ outIndex then innerSwap who metaPoolId lpIndex outIndex baseLpAmount minDy to'
  else pure 0

/-- Swap a token of the meta pool for one of the base pool. -/
def innerSwapPoolToBase (who : AccountId) (poolId basePoolId inIndex outIndex dx minDy : ℕ)
    (to' : AccountId) : StableCall AccountId CurrencyId Tokens ℕ := do
  let s ← get
  let basePoolCurrency ← Call.ofOption (.stable .invalidPoolId) (getLpCurrency s basePoolId)
  let basePoolCurrencyIndex ← Call.ofOption (.stable .invalidBasePool)
    (getCurrencyIndex s poolId basePoolCurrency)
  let baseLpAmount ←
    if basePoolCurrencyIndex ≠ inIndex then
      innerSwap who poolId inIndex basePoolCurrencyIndex dx 0 who
    else pure 0
  innerRemoveLiquidityOneCurrency basePoolId who baseLpAmount outIndex minDy to'

end Interbtc.DexStable
