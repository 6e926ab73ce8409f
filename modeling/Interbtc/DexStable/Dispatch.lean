import Interbtc.Core.Run
import Interbtc.DexStable.Underlying

/-!
# Dispatch of the stable exchange

The calls that can be dispatched, each a transaction. Pools are created and their parameters are
changed by the root origin only.
-/

namespace Interbtc

open Core MultiCurrency WithdrawableCurrency

/-- Who dispatches a call. -/
inductive StableOrigin (AccountId : Type)
  | root
  | signed (who : AccountId)
  deriving DecidableEq

namespace DexStable

open DexStable

variable {AccountId CurrencyId Tokens : Type} [DecidableEq CurrencyId]
  [WithdrawableCurrency Tokens AccountId CurrencyId] [DexStableConfig AccountId CurrencyId]

/-- Only the root may call. -/
def ensureRoot (origin : StableOrigin AccountId) : StableCall AccountId CurrencyId Tokens Unit :=
  match origin with
  | .root => pure ()
  | .signed _ => throw (.stable .badOrigin)

/-- Only an account may call. -/
def ensureSigned (origin : StableOrigin AccountId) :
    StableCall AccountId CurrencyId Tokens AccountId :=
  match origin with
  | .root => throw (.stable .badOrigin)
  | .signed who => pure who

/-! ## New pools -/

/-- What balances of a number of decimals are multiplied with. -/
def tokenMultiplier (decimals : ℕ) : Except StableFault ℕ :=
  if POOL_TOKEN_COMMON_DECIMALS < decimals then .error (.stable .invalidCurrencyDecimal)
  else okOr (.stable .arithmetic) (tryInto maxBalance (10 ^ (POOL_TOKEN_COMMON_DECIMALS - decimals)))

/-- What brings each token to the common decimals. -/
def tokenMultipliers (currencyIds : List CurrencyId) (currencyDecimals : List ℕ) :
    Except StableFault (List ℕ) :=
  (List.range currencyIds.length).mapM fun i => do
    let decimals ← okOr .panic currencyDecimals[i]?
    tokenMultiplier decimals

/-- Check the parameters of a base pool and store it. -/
def innerCreateBasePool (currencyIds : List CurrencyId) (currencyDecimals : List ℕ)
    (a fee adminFee : ℕ) (adminFeeReceiver : AccountId) (lpCurrencySymbol : List UInt8) :
    StableCall AccountId CurrencyId Tokens (BasePool AccountId CurrencyId × ℕ) := do
  check (DexStableConfig.validatePooledCurrency AccountId currencyIds = true) .invalidPooledCurrency
  check (currencyIds.length = currencyDecimals.length) .mismatchParameter
  check (a ≠ 0) .zeroA
  check (a < MAX_A) .exceedMaxA
  check (fee ≤ MAX_SWAP_FEE) .exceedMaxFee
  check (adminFee ≤ MAX_ADMIN_FEE) .exceedMaxAdminFee
  let rate ← Call.ofExcept (tokenMultipliers currencyIds currencyDecimals)
  let s ← get
  let poolId := s.nextPoolId
  let lpCurrencyId := DexStableConfig.generateByPoolId AccountId poolId
  check (s.lpCurrencies lpCurrencyId = none) .lpCurrencyAlreadyUsed
  let aWithPrecision ← arithmetic (orNone (checkedMul maxBalance a A_PRECISION))
  check (lpCurrencySymbol.length ≤ DexStableConfig.poolCurrencySymbolLimit AccountId CurrencyId)
    .badPoolCurrencySymbol
  check (currencyIds.length ≤ DexStableConfig.poolCurrencyLimit AccountId CurrencyId)
    .tooManyCurrencies
  let pool : BasePool AccountId CurrencyId :=
    { currencyIds := currencyIds
      lpCurrencyId := lpCurrencyId
      tokenMultipliers := rate
      balances := List.replicate currencyIds.length 0
      fee := fee
      adminFee := adminFee
      initialA := aWithPrecision
      futureA := aWithPrecision
      initialATime := 0
      futureATime := 0
      account := DexStableConfig.poolAccountId CurrencyId poolId
      adminFeeReceiver := adminFeeReceiver
      lpCurrencySymbol := lpCurrencySymbol
      lpCurrencyDecimal := POOL_LP_CURRENCY_ID_DECIMAL }
  pure (pool, poolId)

/-- Store a new pool under the next id. -/
def insertPool (pool : StablePool AccountId CurrencyId) (poolId : ℕ) :
    StableCall AccountId CurrencyId Tokens Unit := do
  modify fun s =>
    { s with lpCurrencies := Function.update s.lpCurrencies pool.getLpCurrency (some poolId) }
  let s ← get
  let nextPoolId ← arithmetic (orNone (checkedAdd maxPoolId s.nextPoolId 1))
  modify fun s => { s with nextPoolId := nextPoolId }
  let s ← get
  check (s.pools poolId = none) .invalidPoolId
  modify fun s => { s with pools := Function.update s.pools poolId (some pool) }

/-- The root creates a base pool. -/
def createBasePool (origin : StableOrigin AccountId) (currencyIds : List CurrencyId)
    (currencyDecimals : List ℕ) (a fee adminFee : ℕ) (adminFeeReceiver : AccountId)
    (lpCurrencySymbol : List UInt8) : StableCall AccountId CurrencyId Tokens Unit := do
  ensureRoot origin
  let (pool, poolId) ← innerCreateBasePool currencyIds currencyDecimals a fee adminFee
    adminFeeReceiver lpCurrencySymbol
  insertPool (.base pool) poolId

/-- The root creates a meta pool on a base pool. -/
def createMetaPool (origin : StableOrigin AccountId) (currencyIds : List CurrencyId)
    (currencyDecimals : List ℕ) (a fee adminFee : ℕ) (adminFeeReceiver : AccountId)
    (lpCurrencySymbol : List UInt8) : StableCall AccountId CurrencyId Tokens Unit := do
  ensureRoot origin
  let basePoolLpCurrency ← Call.ofOption (.stable .mismatchParameter) currencyIds.getLast?
  let s ← get
  let basePoolId ← Call.ofOption (.stable .invalidBasePoolLpCurrency)
    (s.lpCurrencies basePoolLpCurrency)
  let (info, poolId) ← innerCreateBasePool currencyIds currencyDecimals a fee adminFee
    adminFeeReceiver lpCurrencySymbol
  let basePool ← findPool basePoolId .invalidBasePoolLpCurrency
  let basePoolVirtualPrice ← arithmetic (getPoolVirtualPrice s basePool)
  let pool : MetaPool AccountId CurrencyId :=
    { basePoolId := basePoolId
      baseVirtualPrice := basePoolVirtualPrice
      baseCacheLastUpdated := s.now
      baseCurrencies := basePool.getCurrencyIds
      info := info }
  insertPool (.metaPool pool) poolId

/-! ## Parameters -/

/-- Change what a pool has in common with a base pool. -/
def mutateInfo (poolId : ℕ)
    (f : BasePool AccountId CurrencyId →
      StableCall AccountId CurrencyId Tokens (BasePool AccountId CurrencyId)) :
    StableCall AccountId CurrencyId Tokens Unit :=
  mutatePool poolId fun pool => do
    let info ← f pool.info
    pure ((), pool.mapInfo fun _ => info)

/-- The root sets who gets the admin fee. -/
def updateFeeReceiver (origin : StableOrigin AccountId) (poolId : ℕ) (feeReceiver : AccountId) :
    StableCall AccountId CurrencyId Tokens Unit := do
  ensureRoot origin
  mutateInfo poolId fun pool => pure { pool with adminFeeReceiver := feeReceiver }

/-- The root sets the fee of swaps. -/
def setSwapFee (origin : StableOrigin AccountId) (poolId newSwapFee : ℕ) :
    StableCall AccountId CurrencyId Tokens Unit := do
  ensureRoot origin
  mutateInfo poolId fun pool => do
    check (newSwapFee ≤ MAX_SWAP_FEE) .exceedThreshold
    pure { pool with fee := newSwapFee }

/-- The root sets the part of the fee that is kept. -/
def setAdminFee (origin : StableOrigin AccountId) (poolId newAdminFee : ℕ) :
    StableCall AccountId CurrencyId Tokens Unit := do
  ensureRoot origin
  mutateInfo poolId fun pool => do
    check (newAdminFee ≤ MAX_ADMIN_FEE) .exceedThreshold
    pure { pool with adminFee := newAdminFee }

/-- The root ramps the amplification to a value, which is neither soon nor far. -/
def rampA (origin : StableOrigin AccountId) (poolId futureA futureATime : ℕ) :
    StableCall AccountId CurrencyId Tokens Unit := do
  ensureRoot origin
  let s ← get
  mutateInfo poolId fun pool => do
    let earliest ← arithmetic (orNone (checkedAdd maxBalance pool.initialATime DAY))
    check (earliest ≤ s.now) .rampADelay
    let soonest ← arithmetic (orNone (checkedAdd maxBalance s.now MIN_RAMP_TIME))
    check (soonest ≤ futureATime) .minRampTime
    check (0 < futureA ∧ futureA < MAX_A) .exceedThreshold
    let initialAPrecise ← arithmetic (orNone (getAPrecise s.now pool))
    let futureAPrecise ← arithmetic (orNone (checkedMul maxBalance futureA A_PRECISION))
    if futureAPrecise < initialAPrecise then do
      let most ← arithmetic (orNone (checkedMul maxBalance futureAPrecise MAX_A_CHANGE))
      check (initialAPrecise ≤ most) .exceedMaxAChange
    else do
      let most ← arithmetic (orNone (checkedMul maxBalance initialAPrecise MAX_A_CHANGE))
      check (futureAPrecise ≤ most) .exceedMaxAChange
    pure { pool with
      initialA := initialAPrecise
      futureA := futureAPrecise
      initialATime := s.now
      futureATime := futureATime }

/-- The root stops a ramp where it is. -/
def stopRampA (origin : StableOrigin AccountId) (poolId : ℕ) :
    StableCall AccountId CurrencyId Tokens Unit := do
  ensureRoot origin
  let s ← get
  mutateInfo poolId fun pool => do
    check (s.now < pool.futureATime) .alreadyStoppedRampA
    let currentA ← arithmetic (orNone (getAPrecise s.now pool))
    pure { pool with
      initialA := currentA
      futureA := currentA
      initialATime := s.now
      futureATime := s.now }

/-- Pay what the account of a pool holds beyond the balances of the pool. -/
def withdrawAdminFee (origin : StableOrigin AccountId) (poolId : ℕ) :
    StableCall AccountId CurrencyId Tokens Unit := do
  let _ ← ensureSigned origin
  mutateInfo poolId fun pool => do
    pool.balances.zipIdx.forM fun reserve => do
      let currency ← arithmetic (nth pool.currencyIds reserve.2)
      let s ← get
      let balance ← arithmetic (orNone (checkedSub (freeBalance s currency pool.account) reserve.1))
      if balance ≠ 0 then
        liftTokens (MultiCurrency.transfer currency pool.account pool.adminFeeReceiver balance)
      else pure ()
    pure pool

/-! ## Dispatch -/

/-- Swap two tokens of a meta pool or its base pool. -/
def swapMetaPoolUnderlying (who : AccountId) (poolId inIndex outIndex dx minDy : ℕ)
    (to' : AccountId) : StableCall AccountId CurrencyId Tokens ℕ :=
  mutatePool poolId fun
    | .base _ => throw (.stable .invalidPoolId)
    | .metaPool pool => do
      let (dy, pool) ← metaPoolSwapUnderlying pool who to' dx minDy inIndex outIndex
      pure (dy, .metaPool pool)

end DexStable

/-- The arguments of a dispatched call. Calls of traders have a deadline. -/
inductive StableOp (AccountId CurrencyId : Type)
  | createBasePool (currencyIds : List CurrencyId) (currencyDecimals : List ℕ)
      (a fee adminFee : ℕ) (adminFeeReceiver : AccountId) (lpCurrencySymbol : List UInt8)
  | createMetaPool (currencyIds : List CurrencyId) (currencyDecimals : List ℕ)
      (a fee adminFee : ℕ) (adminFeeReceiver : AccountId) (lpCurrencySymbol : List UInt8)
  | addLiquidity (poolId : ℕ) (amounts : List ℕ) (minMintAmount : ℕ) (receiver : AccountId)
      (deadline : ℕ)
  | swap (poolId fromIndex toIndex inAmount minOutAmount : ℕ) (receiver : AccountId)
      (deadline : ℕ)
  | removeLiquidity (poolId lpAmount : ℕ) (minAmounts : List ℕ) (receiver : AccountId)
      (deadline : ℕ)
  | removeLiquidityOneCurrency (poolId lpAmount index minAmount : ℕ) (receiver : AccountId)
      (deadline : ℕ)
  | removeLiquidityImbalance (poolId : ℕ) (amounts : List ℕ) (maxBurnAmount : ℕ)
      (receiver : AccountId) (deadline : ℕ)
  | addPoolAndBasePoolLiquidity (poolId basePoolId : ℕ) (metaAmounts baseAmounts : List ℕ)
      (minToMint : ℕ) (receiver : AccountId) (deadline : ℕ)
  | removePoolAndBasePoolLiquidity (poolId basePoolId amount : ℕ)
      (minAmountsMeta minAmountsBase : List ℕ) (receiver : AccountId) (deadline : ℕ)
  | removePoolAndBasePoolLiquidityOneCurrency (poolId basePoolId amount i minAmount : ℕ)
      (receiver : AccountId) (deadline : ℕ)
  | swapPoolFromBase (poolId basePoolId inIndex outIndex dx minDy : ℕ) (receiver : AccountId)
      (deadline : ℕ)
  | swapPoolToBase (poolId basePoolId inIndex outIndex dx minDy : ℕ) (receiver : AccountId)
      (deadline : ℕ)
  | swapMetaPoolUnderlying (poolId inIndex outIndex dx minDy : ℕ) (receiver : AccountId)
      (deadline : ℕ)
  | updateFeeReceiver (poolId : ℕ) (feeReceiver : AccountId)
  | setSwapFee (poolId newSwapFee : ℕ)
  | setAdminFee (poolId newAdminFee : ℕ)
  | rampA (poolId futureA futureATime : ℕ)
  | stopRampA (poolId : ℕ)
  | withdrawAdminFee (poolId : ℕ)
  deriving DecidableEq

namespace DexStable

variable {AccountId CurrencyId Tokens α : Type} [DecidableEq CurrencyId]
  [WithdrawableCurrency Tokens AccountId CurrencyId] [DexStableConfig AccountId CurrencyId]

/-- A call of a trader before its deadline. -/
def inTime (origin : StableOrigin AccountId) (blockNumber deadline : ℕ)
    (f : AccountId → StableCall AccountId CurrencyId Tokens α) :
    StableCall AccountId CurrencyId Tokens Unit := do
  let who ← ensureSigned origin
  check (blockNumber < deadline) .deadline
  let _ ← f who

/-- What each call does. -/
def dispatch (origin : StableOrigin AccountId) (blockNumber : ℕ) :
    StableOp AccountId CurrencyId → StableCall AccountId CurrencyId Tokens Unit
  | .createBasePool currencyIds decimals a fee adminFee receiver symbol =>
    createBasePool origin currencyIds decimals a fee adminFee receiver symbol
  | .createMetaPool currencyIds decimals a fee adminFee receiver symbol =>
    createMetaPool origin currencyIds decimals a fee adminFee receiver symbol
  | .addLiquidity poolId amounts minMintAmount receiver deadline =>
    inTime origin blockNumber deadline fun who =>
      innerAddLiquidity who poolId amounts minMintAmount receiver
  | .swap poolId fromIndex toIndex inAmount minOutAmount receiver deadline =>
    inTime origin blockNumber deadline fun who =>
      innerSwap who poolId fromIndex toIndex inAmount minOutAmount receiver
  | .removeLiquidity poolId lpAmount minAmounts receiver deadline =>
    inTime origin blockNumber deadline fun who =>
      innerRemoveLiquidity poolId who lpAmount minAmounts receiver
  | .removeLiquidityOneCurrency poolId lpAmount index minAmount receiver deadline =>
    inTime origin blockNumber deadline fun who =>
      innerRemoveLiquidityOneCurrency poolId who lpAmount index minAmount receiver
  | .removeLiquidityImbalance poolId amounts maxBurnAmount receiver deadline =>
    inTime origin blockNumber deadline fun who =>
      innerRemoveLiquidityImbalance who poolId amounts maxBurnAmount receiver
  | .addPoolAndBasePoolLiquidity poolId basePoolId metaAmounts baseAmounts minToMint receiver
      deadline =>
    inTime origin blockNumber deadline fun who =>
      innerAddPoolAndBasePoolLiquidity who poolId basePoolId metaAmounts baseAmounts minToMint
        receiver
  | .removePoolAndBasePoolLiquidity poolId basePoolId amount minAmountsMeta minAmountsBase receiver
      deadline =>
    inTime origin blockNumber deadline fun who =>
      innerRemovePoolAndBasePoolLiquidity who poolId basePoolId amount minAmountsMeta
        minAmountsBase receiver
  | .removePoolAndBasePoolLiquidityOneCurrency poolId basePoolId amount i minAmount receiver
      deadline =>
    inTime origin blockNumber deadline fun who =>
      innerRemovePoolAndBasePoolLiquidityOneCurrency who poolId basePoolId amount i minAmount
        receiver
  | .swapPoolFromBase poolId basePoolId inIndex outIndex dx minDy receiver deadline =>
    inTime origin blockNumber deadline fun who =>
      innerSwapPoolFromBase who poolId basePoolId inIndex outIndex dx minDy receiver
  | .swapPoolToBase poolId basePoolId inIndex outIndex dx minDy receiver deadline =>
    inTime origin blockNumber deadline fun who =>
      innerSwapPoolToBase who poolId basePoolId inIndex outIndex dx minDy receiver
  | .swapMetaPoolUnderlying poolId inIndex outIndex dx minDy receiver deadline =>
    inTime origin blockNumber deadline fun who =>
      swapMetaPoolUnderlying who poolId inIndex outIndex dx minDy receiver
  | .updateFeeReceiver poolId feeReceiver => updateFeeReceiver origin poolId feeReceiver
  | .setSwapFee poolId newSwapFee => setSwapFee origin poolId newSwapFee
  | .setAdminFee poolId newAdminFee => setAdminFee origin poolId newAdminFee
  | .rampA poolId futureA futureATime => rampA origin poolId futureA futureATime
  | .stopRampA poolId => stopRampA origin poolId
  | .withdrawAdminFee poolId => withdrawAdminFee origin poolId

end DexStable

end Interbtc
