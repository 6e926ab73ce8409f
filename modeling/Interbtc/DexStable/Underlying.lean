import Interbtc.DexStable.Pallet

/-!
# Swaps with the currencies of a base pool

A meta pool also swaps the currencies of its base pool, which are numbered after its own
currencies but the last. Such a currency goes into the base pool for liquidity, or comes out of
it for liquidity.
-/

namespace Interbtc.DexStable

open Core DexStable MultiCurrency WithdrawableCurrency

variable {AccountId CurrencyId Tokens : Type} [WithdrawableCurrency Tokens AccountId CurrencyId]

/-- The currency of an index among the underlying ones, and the index of what stands for it in
the meta pool. -/
def underlyingCurrency (pool : MetaPool AccountId CurrencyId) (baseLpCurrencyIndex index : ℕ) :
    Computed (CurrencyId × ℕ) :=
  if index < baseLpCurrencyIndex then do
    let currency ← nth pool.info.currencyIds index
    .ok (currency, index)
  else do
    let currency ← nth pool.baseCurrencies (index - baseLpCurrencyIndex)
    .ok (currency, baseLpCurrencyIndex)

/-- The normalized balance of the pool after an amount came in, and the amount that came in: of
a currency of the meta pool, or as liquidity of the base pool. -/
def underlyingIn (pool : MetaPool AccountId CurrencyId) (normalized : List ℕ)
    (baseVirtualPrice baseLpCurrencyIndex indexFrom dx : ℕ) :
    StableCall AccountId CurrencyId Tokens (ℕ × ℕ) :=
  if indexFrom < baseLpCurrencyIndex then
    arithmetic do
      let multiplier ← nth pool.info.tokenMultipliers indexFrom
      let scaled ← orNone (checkedMul maxBalance dx multiplier)
      let balance ← nth normalized indexFrom
      let x ← orNone (checkedAdd maxBalance scaled balance)
      .ok (x, dx)
  else do
    let baseAmounts ← arithmetic (setNth (List.replicate pool.baseCurrencies.length 0)
      (indexFrom - baseLpCurrencyIndex) dx)
    let dx ← innerAddLiquidity pool.info.account pool.basePoolId baseAmounts 0 pool.info.account
    arithmetic do
      let valued ← orNone (mulDiv dx baseVirtualPrice BASE_VIRTUAL_PRICE_PRECISION)
      let balance ← nth normalized baseLpCurrencyIndex
      let x ← orNone ((checkedAdd maxU256 valued balance).bind (tryInto maxBalance))
      .ok (x, dx)

/-- What is paid for a normalized balance, and the balances of the pool after that. -/
def underlyingOut (now : ℕ) (pool : MetaPool AccountId CurrencyId) (normalized : List ℕ)
    (baseVirtualPrice baseLpCurrencyIndex indexTo metaFrom metaTo x dx : ℕ) :
    Computed (ℕ × List ℕ) := do
  let y ← orNone (getY now pool.info metaFrom metaTo x normalized)
  let balance ← nth normalized metaTo
  let change ← orNone (checkedSub balance y)
  let less ← orNone (checkedSub change 1)
  let dy ← orNone
    (if baseLpCurrencyIndex ≤ indexTo then unpriced baseVirtualPrice less else some less)
  let dyFee ← orNone (mulDivBalance dy pool.info.fee FEE_DENOMINATOR)
  let net ← orNone (checkedSub dy dyFee)
  let multiplier ← nth pool.info.tokenMultipliers metaTo
  let dy ← orNone (checkedDiv net multiplier)
  let charged ← orNone (mulDivBalance dyFee pool.info.adminFee FEE_DENOMINATOR)
  let dyAdminFee ← orNone (checkedDiv charged multiplier)
  let balanceIn ← nth pool.info.balances metaFrom
  let newIn ← orNone (checkedAdd maxBalance balanceIn dx)
  let balances ← setNth pool.info.balances metaFrom newIn
  let balanceOut ← nth pool.info.balances metaTo
  let rest ← orNone (checkedSub balanceOut dy)
  let newOut ← orNone (checkedSub rest dyAdminFee)
  let balances ← setNth balances metaTo newOut
  .ok (dy, balances)

/-- A swap of the tokens of a meta pool and its base pool, by where they are. -/
def metaPoolSwapUnderlying (pool : MetaPool AccountId CurrencyId) (who to' : AccountId)
    (inAmount minOutAmount indexFrom indexTo : ℕ) :
    StableCall AccountId CurrencyId Tokens (ℕ × MetaPool AccountId CurrencyId) := do
  let baseLpCurrencyIndex ← arithmetic (orNone (checkedSub pool.info.currencyIds.length 1))
  let s ← get
  let (baseVirtualPrice, pool) ← arithmetic (metaPoolUpdateVirtualPrice s pool)
  let maxRange := baseLpCurrencyIndex + pool.baseCurrencies.length
  check (indexFrom ≠ indexTo ∧ indexFrom < maxRange ∧ indexTo < maxRange) .mismatchParameter
  let (currencyFrom, metaFrom) ← arithmetic (underlyingCurrency pool baseLpCurrencyIndex indexFrom)
  let (currencyTo, metaTo) ← arithmetic (underlyingCurrency pool baseLpCurrencyIndex indexTo)
  let dx ← doTransferIn currencyFrom who pool.info.account inAmount
  let (dy, pool) ←
    if indexFrom < baseLpCurrencyIndex ∨ indexTo < baseLpCurrencyIndex then do
      let normalized ← arithmetic
        (metaPoolXp pool.info.balances pool.info.tokenMultipliers baseVirtualPrice)
      let (x, dx) ←
        underlyingIn pool normalized baseVirtualPrice baseLpCurrencyIndex indexFrom dx
      let (dy, balances) ← arithmetic (underlyingOut s.now pool normalized baseVirtualPrice
        baseLpCurrencyIndex indexTo metaFrom metaTo x dx)
      let dy ←
        if baseLpCurrencyIndex ≤ indexTo then do
          let before ← get
          let _ ← innerRemoveLiquidityOneCurrency pool.basePoolId pool.info.account dy
            (indexTo - baseLpCurrencyIndex) 0 pool.info.account
          let after ← get
          arithmetic (orNone (checkedSub (freeBalance after currencyTo pool.info.account)
            (freeBalance before currencyTo pool.info.account)))
        else pure dy
      check (minOutAmount ≤ dy) .amountSlippage
      pure (dy, { pool with info := { pool.info with balances := balances } })
    else do
      let before ← get
      let _ ← innerSwap pool.info.account pool.basePoolId (indexFrom - baseLpCurrencyIndex)
        (indexTo - baseLpCurrencyIndex) dx minOutAmount to'
      let after ← get
      let dy ← arithmetic (orNone (checkedSub (freeBalance after currencyTo pool.info.account)
        (freeBalance before currencyTo pool.info.account)))
      pure (dy, pool)
  liftTokens (MultiCurrency.transfer currencyTo pool.info.account to' dy)
  pure (dy, pool)

/-! ## The quote -/

section Reads

variable (s : DexStable AccountId CurrencyId Tokens)

/-- The normalized balance with the value of an amount that goes into the base pool first, less
about half of the swap fee. -/
def quoteBaseIn (pool : MetaPool AccountId CurrencyId) (normalized : List ℕ)
    (virtualPrice baseLpCurrencyIndex index inAmount : ℕ) : Except StableFault ℕ := do
  let baseInputs ← (setNth (List.replicate pool.baseCurrencies.length 0) index inAmount).mapError
    (Stop.fault .arithmetic)
  let amount ← calculateCurrencyAmount s pool.basePoolId baseInputs true
  let value ← okOr (.stable .arithmetic)
    (mulDivBalance amount virtualPrice BASE_VIRTUAL_PRICE_PRECISION)
  let basePool ← okOr (.stable .invalidBasePool) (s.pools pool.basePoolId)
  Except.mapError (Stop.fault .arithmetic) do
    let halfFee ← orNone (mulDiv value basePool.getFee (FEE_DENOMINATOR * 2))
    let net ← orNone (checkedSub value halfFee)
    let balance ← nth normalized baseLpCurrencyIndex
    orNone ((checkedAdd maxU256 net balance).bind (tryInto maxBalance))

/-- What a normalized balance pays in the meta pool, less the fee. -/
def quoteOut (pool : MetaPool AccountId CurrencyId) (normalized : List ℕ)
    (metaFrom metaTo x : ℕ) : Computed ℕ := do
  let y ← orNone (getY s.now pool.info metaFrom metaTo x normalized)
  let balance ← nth normalized metaTo
  let change ← orNone (checkedSub balance y)
  let dy ← orNone (checkedSub change 1)
  let dyFee ← orNone (mulDivBalance dy pool.info.fee FEE_DENOMINATOR)
  orNone (checkedSub dy dyFee)

/-- In place of the price of the base pool stands that of the meta pool's own liquidity. -/
def calculateMetaSwapUnderlying (poolId inAmount indexFrom indexTo : ℕ) : Except StableFault ℕ :=
  match s.pools poolId with
  | none => .error (.stable .invalidPoolId)
  | some (.base _) => .error (.stable .invalidPoolId)
  | some (.metaPool pool) => do
    let baseLpCurrencyIndex ←
      okOr (.stable .arithmetic) (checkedSub pool.info.currencyIds.length 1)
    let virtualPrice ← (calculateMetaVirtualPrice s pool).mapError (Stop.fault .arithmetic)
    let maxRange := baseLpCurrencyIndex + pool.baseCurrencies.length
    if ¬ (indexFrom ≠ indexTo ∧ indexFrom < maxRange ∧ indexTo < maxRange) then
      .error (.stable .mismatchParameter)
    else do
      let normalized ← (metaPoolXp pool.info.balances pool.info.tokenMultipliers
        virtualPrice).mapError (Stop.fault .arithmetic)
      if baseLpCurrencyIndex ≤ indexFrom ∧ baseLpCurrencyIndex ≤ indexTo then
        (stableAmmCalculateSwapAmount s pool.basePoolId (indexFrom - baseLpCurrencyIndex)
          (indexTo - baseLpCurrencyIndex) inAmount).mapError (Stop.fault .arithmetic)
      else do
        let (x, metaFrom) ←
          if indexFrom < baseLpCurrencyIndex then
            Except.mapError (Stop.fault .arithmetic) do
              let multiplier ← nth pool.info.tokenMultipliers indexFrom
              let scaled ← orNone (checkedMul maxBalance inAmount multiplier)
              let balance ← nth normalized indexFrom
              let x ← orNone (checkedAdd maxBalance scaled balance)
              .ok (x, indexFrom)
          else do
            let x ← quoteBaseIn s pool normalized virtualPrice baseLpCurrencyIndex
              (indexFrom - baseLpCurrencyIndex) inAmount
            .ok (x, baseLpCurrencyIndex)
        let metaTo := if indexTo < baseLpCurrencyIndex then indexTo else baseLpCurrencyIndex
        let dy ← (quoteOut s pool normalized metaFrom metaTo x).mapError (Stop.fault .arithmetic)
        if indexTo < baseLpCurrencyIndex then
          Except.mapError (Stop.fault .arithmetic) do
            let multiplier ← nth pool.info.tokenMultipliers metaTo
            orNone (checkedDiv dy multiplier)
        else
          Except.mapError (Stop.fault .arithmetic) do
            let amount ← orNone (unpriced virtualPrice dy)
            stableAmmCalculateRemoveLiquidityOneCurrency s pool.basePoolId amount
              (indexTo - baseLpCurrencyIndex)

end Reads

end Interbtc.DexStable
