import Interbtc.DexStable.Curve

/-!
# Base pools

What is computed from the state of a base pool, and the calls that change it. A call returns the
pool that it leaves, and the storage keeps it if the call succeeds.
-/

namespace Interbtc.DexStable

open Core DexStable MultiCurrency WithdrawableCurrency

variable {AccountId CurrencyId Tokens : Type} [WithdrawableCurrency Tokens AccountId CurrencyId]

section Reads

variable (s : DexStable AccountId CurrencyId Tokens)

/-- The free tokens of an account. -/
def freeBalance (c : CurrencyId) (who : AccountId) : ℕ := (balances s.tokens who c).free

/-- The liquidity tokens of a pool that were issued. -/
def lpSupply (pool : BasePool AccountId CurrencyId) : ℕ := totalIssuance s.tokens pool.lpCurrencyId

/-! ## Fees for liquidity -/

/-- What a pool keeps of a new balance, what is left of it for the liquidity, and the fee for its
distance from the balance that is ideal at another value of the invariant. -/
def chargeImbalance (feePerToken adminFee d₀ d₁ old new : ℕ) : Option (ℕ × ℕ × ℕ) := do
  let idealBalance ← mulDiv d₁ old d₀
  let fee ← mulDivBalance feePerToken (distance idealBalance new) FEE_DENOMINATOR
  let adminPart ← mulDiv fee adminFee FEE_DENOMINATOR
  let kept ← checkedSub new adminPart
  let left ← checkedSub new fee
  some (kept, left, fee)

/-- The loop over the balances, in the order of the currencies. -/
def chargeImbalances (feePerToken adminFee d₀ d₁ rounds nCurrencies : ℕ)
    (balances newBalances : List ℕ) : Computed (List ℕ × List ℕ × List ℕ) :=
  (List.range rounds).foldlM (fun (balances, newBalances, fees) i => do
    let old ← nth balances i
    let new ← nth newBalances i
    let (kept, left, fee) ← orNone (chargeImbalance feePerToken adminFee d₀ d₁ old new)
    let fees ← setNth fees i fee
    let balances ← setNth balances i kept
    let newBalances ← setNth newBalances i left
    .ok (balances, newBalances, fees)) (balances, newBalances, List.replicate nCurrencies 0)

/-- The invariant of some balances of a pool. -/
def balancesD (pool : BasePool AccountId CurrencyId) (balances : List ℕ) (amp : ℕ) :
    Computed ℕ := do
  let normalized ← xp balances pool.tokenMultipliers
  orNone (getD normalized amp)

/-! ## Quotes -/

/-- What one of the liquidity tokens is worth. -/
def calculateBaseVirtualPrice (pool : BasePool AccountId CurrencyId) : Computed ℕ := do
  let normalized ← xp pool.balances pool.tokenMultipliers
  let amp ← orNone (getAPrecise s.now pool)
  let d ← orNone (getD normalized amp)
  if 0 < lpSupply s pool then
    orNone (mulDivBalance (10 ^ POOL_TOKEN_COMMON_DECIMALS) d (lpSupply s pool))
  else .error .none

/-- Subtract some amounts from balances, in the order of the currencies. -/
def subtractAmounts (balances amounts : List ℕ) : Computed (List ℕ) :=
  amounts.zipIdx.foldlM (fun balances x => do
    let balance ← nth balances x.2
    let rest ← orNone (checkedSub balance x.1)
    setNth balances x.2 rest) balances

/-- Balances with amounts added. -/
def addAmounts (balances amounts : List ℕ) : Computed (List ℕ) :=
  amounts.zipIdx.foldlM (fun balances x => do
    let balance ← nth balances x.2
    let sum ← orNone (checkedAdd maxBalance balance x.1)
    setNth balances x.2 sum) balances

/-- The liquidity that is burned for some amounts, the fees, and the pool without the amounts. -/
def calculateBaseRemoveLiquidityImbalance (pool : BasePool AccountId CurrencyId)
    (amounts : List ℕ) (totalSupply : ℕ) :
    Computed (ℕ × List ℕ × BasePool AccountId CurrencyId) := do
  let feePerToken ← orNone (calculateFeePerToken pool)
  let amp ← orNone (getAPrecise s.now pool)
  let d₀ ← balancesD pool pool.balances amp
  let newBalances ← subtractAmounts pool.balances amounts
  let d₁ ← balancesD pool newBalances amp
  let (balances, newBalances, fees) ← chargeImbalances feePerToken pool.adminFee d₀ d₁
    pool.balances.length pool.currencyIds.length pool.balances newBalances
  let d₁ ← balancesD pool newBalances amp
  let growth ← orNone (checkedSub d₀ d₁)
  let burnAmount ← orNone (mulDivBalance growth totalSupply d₀)
  .ok (burnAmount, fees, { pool with balances := balances })

/-- A balance less the fee for a distance from what is expected of it. -/
def reduceBalance (feePerToken d₀ d₁ newY x : ℕ) (isOut : Bool) : Option ℕ := do
  let ideal ← mulDiv x d₁ d₀
  let expected ← if isOut then checkedSub ideal newY else checkedSub x ideal
  let fee ← mulDivBalance feePerToken expected FEE_DENOMINATOR
  checkedSub x fee

/-- The amount of one currency that liquidity is worth, and the fee. -/
def calculateBaseRemoveLiquidityOneToken (pool : BasePool AccountId CurrencyId)
    (tokenAmount index : ℕ) : Computed (ℕ × ℕ) :=
  if pool.currencyIds.length ≤ index then .error .none
  else do
    let amp ← orNone (getAPrecise s.now pool)
    let normalized ← xp pool.balances pool.tokenMultipliers
    let d₀ ← orNone (getD normalized amp)
    let part ← orNone (mulDiv tokenAmount d₀ (lpSupply s pool))
    let d₁ ← orNone ((checkedSub d₀ part).bind (tryInto maxBalance))
    let newY ← orNone (getYd pool amp index normalized d₁)
    let feePerToken ← orNone (calculateFeePerToken pool)
    let reduced ← orNone (normalized.zipIdx.mapM fun x =>
      reduceBalance feePerToken d₀ d₁ newY x.1 (x.2 = index))
    let reducedOut ← nth reduced index
    let reducedY ← orNone (getYd pool amp index reduced d₁)
    let gross ← orNone (checkedSub reducedOut reducedY)
    let less ← orNone (checkedSub gross 1)
    let multiplier ← nth pool.tokenMultipliers index
    let dy ← orNone (checkedDiv less multiplier)
    let balance ← nth normalized index
    let change ← orNone (checkedSub balance newY)
    let exact ← orNone (checkedDiv change multiplier)
    let fee ← orNone (checkedSub exact dy)
    .ok (dy, fee)

/-- What a swap within a base pool pays, before it is scaled back. -/
def calculateBaseSwapAmount (pool : BasePool AccountId CurrencyId) (i j inBalance : ℕ) :
    Computed ℕ :=
  if i = j ∨ pool.currencyIds.length ≤ i ∨ pool.currencyIds.length ≤ j then .error .none
  else do
    let normalized ← xp pool.balances pool.tokenMultipliers
    let balanceIn ← nth normalized i
    let multiplierIn ← nth pool.tokenMultipliers i
    let scaled ← orNone (checkedMul maxBalance inBalance multiplierIn)
    let newInBalance ← orNone (checkedAdd maxBalance balanceIn scaled)
    let outBalance ← orNone (getY s.now pool i j newInBalance normalized)
    let balanceOut ← nth normalized j
    let change ← orNone (checkedSub balanceOut outBalance)
    let less ← orNone (checkedSub change 1)
    let multiplierOut ← nth pool.tokenMultipliers j
    let outAmount ← orNone (checkedDiv less multiplierOut)
    let fee ← orNone (mulDivBalance outAmount pool.fee FEE_DENOMINATOR)
    let net ← orNone (checkedSub outAmount fee)
    orNone (checkedSub net 1)

/-- The liquidity that is minted for new balances, the fees, and the pool with the balances. -/
def calculateBaseMintAmount (pool : BasePool AccountId CurrencyId) (newBalances : List ℕ)
    (d₀ d₁ fee amp totalSupply : ℕ) :
    Computed (ℕ × List ℕ × BasePool AccountId CurrencyId) := do
  let nCurrencies := pool.currencyIds.length
  let (balances, newBalances, fees) ← chargeImbalances fee pool.adminFee d₀ d₁ nCurrencies
    nCurrencies pool.balances newBalances
  let d₁ ← balancesD pool newBalances amp
  let growth ← orNone (checkedSub d₁ d₀)
  let mintAmount ← orNone (mulDivBalance totalSupply growth d₀)
  .ok (mintAmount, fees, { pool with balances := balances })

/-- The amounts of all currencies that liquidity is worth. -/
def calculateBaseRemoveLiquidity (pool : BasePool AccountId CurrencyId) (amount : ℕ) :
    Computed (List ℕ) :=
  if lpSupply s pool < amount then .error .none
  else orNone (pool.balances.mapM fun b => mulDivBalance b amount (lpSupply s pool))

/-- The liquidity for some amounts, without fees. -/
def calculateBaseCurrencyAmount (pool : BasePool AccountId CurrencyId) (amounts : List ℕ)
    (deposit : Bool) : Except StableFault ℕ :=
  if pool.currencyIds.length ≠ amounts.length then .error (.stable .mismatchParameter)
  else Except.mapError (Stop.fault .arithmetic) do
    let amp ← orNone (getAPrecise s.now pool)
    let d₀ ← balancesD pool pool.balances amp
    let newBalances ←
      if deposit then addAmounts pool.balances amounts else subtractAmounts pool.balances amounts
    let d₁ ← balancesD pool newBalances amp
    if lpSupply s pool = 0 then .ok d₁
    else do
      let diff ← orNone (if deposit then checkedSub d₁ d₀ else checkedSub d₀ d₁)
      orNone (mulDivBalance diff (lpSupply s pool) d₀)

end Reads

/-! ## Calls -/

/-- Transfer an amount, and return what it adds to the balance of the receiver. -/
def doTransferIn (c : CurrencyId) (source dest : AccountId) (amount : ℕ) :
    StableCall AccountId CurrencyId Tokens ℕ := do
  let before ← get
  (TokensPart.zoom (MultiCurrency.transfer c source dest amount)).mapError fun _ =>
    .stable .insufficientReserve
  let after ← get
  arithmetic (orNone (checkedSub (freeBalance after c dest) (freeBalance before c dest)))

/-- The difference of two amounts, of which the second must not be larger. -/
def minus (a b : ℕ) : Computed ℕ := if b ≤ a then .ok (a - b) else .error .panic

/-- Take the amounts of all currencies. The first supply has to have some of each. -/
def supplyCurrencies (who : AccountId) (pool : BasePool AccountId CurrencyId) (amounts : List ℕ)
    (lpTotalSupply : ℕ) : StableCall AccountId CurrencyId Tokens (List ℕ) :=
  (List.range pool.currencyIds.length).foldlM (fun newBalances i => do
    let amount ← arithmetic (nth amounts i)
    check (lpTotalSupply = 0 → amount ≠ 0) .requireAllCurrencies
    let balance ← arithmetic (nth newBalances i)
    let currency ← arithmetic (nth pool.currencyIds i)
    let received ← doTransferIn currency who pool.account amount
    let sum ← arithmetic (orNone (checkedAdd maxBalance balance received))
    arithmetic (setNth newBalances i sum)) pool.balances

/-- Bring tokens to a base pool, for liquidity. -/
def basePoolAddLiquidity (who : AccountId) (pool : BasePool AccountId CurrencyId)
    (amounts : List ℕ) (minMintAmount : ℕ) (to' : AccountId) :
    StableCall AccountId CurrencyId Tokens (ℕ × BasePool AccountId CurrencyId) := do
  check (pool.currencyIds.length = amounts.length) .mismatchParameter
  let feePerToken ← arithmetic (orNone (calculateFeePerToken pool))
  let s ← get
  let lpTotalSupply := lpSupply s pool
  let amp ← arithmetic (orNone (getAPrecise s.now pool))
  let d₀ ← if 0 < lpTotalSupply then arithmetic (balancesD pool pool.balances amp) else pure 0
  let newBalances ← supplyCurrencies who pool amounts lpTotalSupply
  let d₁ ← arithmetic (balancesD pool newBalances amp)
  check (d₀ < d₁) .checkDFailed
  let (mintAmount, pool) ←
    if lpTotalSupply = 0 then
      pure (d₁, { pool with balances := newBalances })
    else do
      let (mintAmount, _, pool) ← arithmetic (calculateBaseMintAmount pool newBalances d₀ d₁
        feePerToken amp lpTotalSupply)
      pure (mintAmount, pool)
  check (minMintAmount ≤ mintAmount) .amountSlippage
  liftTokens (MultiCurrency.deposit pool.lpCurrencyId to' mintAmount)
  pure (mintAmount, pool)

/-- Swap two tokens of a base pool. -/
def basePoolSwap (who : AccountId) (pool : BasePool AccountId CurrencyId)
    (i j inAmount outMinAmount : ℕ) (to' : AccountId) :
    StableCall AccountId CurrencyId Tokens (ℕ × BasePool AccountId CurrencyId) := do
  check (i < pool.currencyIds.length ∧ j < pool.currencyIds.length) .currencyIndexOutRange
  let currencyIn ← arithmetic (nth pool.currencyIds i)
  let inAmount ← doTransferIn currencyIn who pool.account inAmount
  let s ← get
  let (dy, adminFee) ← arithmetic do
    let normalized ← xp pool.balances pool.tokenMultipliers
    let multiplierIn ← nth pool.tokenMultipliers i
    let scaled ← orNone (checkedMul maxBalance inAmount multiplierIn)
    let balanceIn ← nth normalized i
    let x ← orNone (checkedAdd maxBalance scaled balanceIn)
    let y ← orNone (getY s.now pool i j x normalized)
    let balanceOut ← nth normalized j
    let change ← orNone (checkedSub balanceOut y)
    let dy ← orNone (checkedSub change 1)
    let dyFee ← orNone (mulDivBalance dy pool.fee FEE_DENOMINATOR)
    let net ← orNone (checkedSub dy dyFee)
    let multiplierOut ← nth pool.tokenMultipliers j
    let out ← orNone (checkedDiv net multiplierOut)
    let adminFee := ((mulDiv dyFee pool.adminFee FEE_DENOMINATOR).bind fun n =>
      checkedDiv n multiplierOut).bind (tryInto maxBalance)
    .ok (out, adminFee)
  check (outMinAmount ≤ dy) .amountSlippage
  let balances ← arithmetic do
    let adminFee ← orNone adminFee
    let balanceIn ← nth pool.balances i
    let newIn ← orNone (checkedAdd maxBalance balanceIn inAmount)
    let balances ← setNth pool.balances i newIn
    let balanceOut ← nth balances j
    let rest ← orNone (checkedSub balanceOut dy)
    let newOut ← orNone (checkedSub rest adminFee)
    setNth balances j newOut
  let currencyOut ← arithmetic (nth pool.currencyIds j)
  (TokensPart.zoom (MultiCurrency.transfer currencyOut pool.account to' dy)).mapError fun _ =>
    .stable .insufficientReserve
  pure (dy, { pool with balances := balances })

/-- Burn liquidity for one currency, whose amount and fee were computed. -/
def payOneCurrency (pool : BasePool AccountId CurrencyId) (who : AccountId)
    (lpAmount index minAmount : ℕ) (to' : AccountId) (dy dyFee : ℕ) :
    StableCall AccountId CurrencyId Tokens (ℕ × BasePool AccountId CurrencyId) := do
  check (minAmount ≤ dy) .amountSlippage
  let balances ← arithmetic do
    let adminPart ← orNone (mulDiv dyFee pool.adminFee FEE_DENOMINATOR)
    let total ← orNone ((checkedAdd maxU256 adminPart dy).bind (tryInto maxBalance))
    let balance ← nth pool.balances index
    let rest ← orNone (checkedSub balance total)
    setNth pool.balances index rest
  liftTokens (WithdrawableCurrency.withdraw pool.lpCurrencyId who lpAmount)
  let currency ← arithmetic (nth pool.currencyIds index)
  liftTokens (MultiCurrency.transfer currency pool.account to' dy)
  pure (dy, { pool with balances := balances })

/-- Burn liquidity of a base pool for one of its tokens. -/
def basePoolRemoveLiquidityOneCurrency (pool : BasePool AccountId CurrencyId) (who : AccountId)
    (lpAmount index minAmount : ℕ) (to' : AccountId) :
    StableCall AccountId CurrencyId Tokens (ℕ × BasePool AccountId CurrencyId) := do
  let s ← get
  let totalSupply := lpSupply s pool
  check (0 < totalSupply) .insufficientLpReserve
  check (lpAmount ≤ freeBalance s pool.lpCurrencyId who ∧ lpAmount ≤ totalSupply)
    .insufficientSupply
  check (index < pool.currencyIds.length) .currencyIndexOutRange
  let (dy, dyFee) ← arithmetic (calculateBaseRemoveLiquidityOneToken s pool lpAmount index)
  payOneCurrency pool who lpAmount index minAmount to' dy dyFee

/-- Burn liquidity for amounts of several currencies. -/
def payImbalance (who : AccountId) (pool : BasePool AccountId CurrencyId) (amounts : List ℕ)
    (totalSupply burnAmount maxBurnAmount : ℕ) (to' : AccountId) :
    StableCall AccountId CurrencyId Tokens Unit := do
  check (0 < burnAmount) .amountSlippage
  let burnAmount ← arithmetic (orNone (checkedAdd maxBalance burnAmount 1))
  check (burnAmount ≤ maxBurnAmount) .amountSlippage
  liftTokens (WithdrawableCurrency.withdraw pool.lpCurrencyId who burnAmount)
  amounts.zipIdx.forM fun x =>
    if 0 < x.1 then do
      let currency ← arithmetic (nth pool.currencyIds x.2)
      liftTokens (MultiCurrency.transfer currency pool.account to' x.1)
    else pure ()
  -- the supply that is left is part of the event
  let _ ← arithmetic (minus totalSupply burnAmount)

/-- Take given amounts from a base pool for as much liquidity as they cost. -/
def basePoolRemoveLiquidityImbalance (who : AccountId) (pool : BasePool AccountId CurrencyId)
    (amounts : List ℕ) (maxBurnAmount : ℕ) (to' : AccountId) :
    StableCall AccountId CurrencyId Tokens (BasePool AccountId CurrencyId) := do
  let s ← get
  let totalSupply := lpSupply s pool
  check (0 < totalSupply) .insufficientLpReserve
  check (amounts.length = pool.currencyIds.length) .mismatchParameter
  let (burnAmount, _, changed) ←
    arithmetic (calculateBaseRemoveLiquidityImbalance s pool amounts totalSupply)
  payImbalance who changed amounts totalSupply burnAmount maxBurnAmount to'
  pure changed

end Interbtc.DexStable
