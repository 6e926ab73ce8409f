import Interbtc.DexStable.Pool

/-!
# The curve of the stable exchange

The balances of a pool and a coefficient determine an invariant, and the invariant with all
balances but one determines that one. Both are found by an approximation that stops when two
rounds differ by at most one.
-/

namespace Interbtc.DexStable

open Core DexStable

variable {AccountId CurrencyId : Type}

/-- The product of two numbers divided by a third, with 256 bits. -/
def mulDiv (a b c : ℕ) : Option ℕ := (checkedMul maxU256 a b).bind fun n => checkedDiv n c

/-- The same where the result is a balance. -/
def mulDivBalance (a b c : ℕ) : Option ℕ := (mulDiv a b c).bind (tryInto maxBalance)

/-- How far two numbers are apart. -/
def distance (x y : ℕ) : ℕ := if x > y then x - y else y - x

/-! ## Balances -/

/-- The balances with common decimals. -/
def xp : List ℕ → List ℕ → Computed (List ℕ)
  | [], _ => .ok []
  | _ :: _, [] => .error .panic
  | balance :: balances, rate :: rates => do
    let normalized ← orNone (checkedMul maxBalance balance rate)
    let rest ← xp balances rates
    .ok (normalized :: rest)

/-- The sum of the balances. -/
def sumOf (balances : List ℕ) : Option ℕ := balances.foldlM (checkedAdd maxBalance) 0

/-! ## Approximations -/

/-- Repeat a step until it changes a number by at most one. -/
def approximate (step : ℕ → Option ℕ) : ℕ → ℕ → Option ℕ
  | 0, _ => none
  | rounds + 1, last => do
    let next ← step last
    if distance next last ≤ 1 then tryInto maxBalance next else approximate step rounds next

/-- One round of the approximation of the invariant. -/
def nextD (balances : List ℕ) (sum ann nCurrencies d : ℕ) : Option ℕ := do
  let dP ← balances.foldlM (fun dP b => do
    let product ← checkedMul maxU256 dP d
    let divisor ← checkedMul maxU256 b nCurrencies
    checkedDiv product divisor) d
  let weighted ← mulDiv ann sum A_PRECISION
  let total ← checkedMul maxU256 dP nCurrencies
  let both ← checkedAdd maxU256 weighted total
  let numerator ← checkedMul maxU256 both d
  let rest ← checkedSub ann A_PRECISION
  let weightedRest ← mulDiv rest d A_PRECISION
  let next ← checkedAdd maxU256 nCurrencies 1
  let nextTotal ← checkedMul maxU256 next dP
  let denominator ← checkedAdd maxU256 weightedRest nextTotal
  checkedDiv numerator denominator

/-- The invariant of the balances, by rounds of approximation. -/
def getD (balances : List ℕ) (amp : ℕ) : Option ℕ := do
  let nCurrencies := balances.length
  let sum ← sumOf balances
  if sum = 0 then some 0
  else
    let ann ← checkedMul maxBalance amp nCurrencies
    approximate (nextD balances sum ann nCurrencies) MAX_ITERATION sum

/-- The sum of some balances, and a number that is multiplied with the invariant and divided by
each of them. -/
def sumAndProduct (d nCurrencies : ℕ) (balances : List ℕ) (product : ℕ) : Option (ℕ × ℕ) :=
  balances.foldlM (fun (sum, c) x => do
    let sum ← checkedAdd maxU256 sum x
    let scaled ← checkedMul maxU256 c d
    let divisor ← checkedMul maxU256 x nCurrencies
    let c ← checkedDiv scaled divisor
    some (sum, c)) (0, product)

/-- One round of the approximation of a balance. -/
def nextY (b c d y : ℕ) : Option ℕ := do
  let square ← checkedMul maxU256 y y
  let numerator ← checkedAdd maxU256 square c
  let double ← checkedMul maxU256 2 y
  let more ← checkedAdd maxU256 double b
  let denominator ← checkedSub more d
  checkedDiv numerator denominator

/-- The balance that is missing next to others, given the invariant. -/
def missingBalance (ann nCurrencies d : ℕ) (others : List ℕ) : Option ℕ := do
  let (sum, c) ← sumAndProduct d nCurrencies others d
  let scaled ← checkedMul maxU256 c d
  let precise ← checkedMul maxU256 scaled A_PRECISION
  let divisor ← checkedMul maxU256 ann nCurrencies
  let c ← checkedDiv precise divisor
  let preciseD ← checkedMul maxU256 d A_PRECISION
  let part ← checkedDiv preciseD ann
  let b ← checkedAdd maxU256 sum part
  approximate (nextY b c d) MAX_ITERATION d

/-! ## The coefficient -/

/-- The coefficient while it moves from one value to another. -/
def getAPrecise (now : ℕ) (pool : BasePool AccountId CurrencyId) : Option ℕ :=
  if pool.futureATime ≤ now then some pool.futureA
  else if pool.initialA < pool.futureA then do
    let change ← checkedSub pool.futureA pool.initialA
    let past ← checkedSub now pool.initialATime
    let product ← checkedMul maxU256 change past
    let span ← checkedSub pool.futureATime pool.initialATime
    let part ← checkedDiv product span
    let a ← checkedAdd maxU256 pool.initialA part
    tryInto maxBalance a
  else do
    let change ← checkedSub pool.initialA pool.futureA
    let past ← checkedSub now pool.initialATime
    let product ← checkedMul maxU256 change past
    let span ← checkedSub pool.futureATime pool.initialATime
    let part ← checkedDiv product span
    let a ← checkedSub pool.initialA part
    tryInto maxBalance a

/-- The other balances when an amount of one currency is added, by position. -/
def otherBalances (pool : BasePool AccountId CurrencyId) (inIndex outIndex inBalance : ℕ)
    (normalizedBalances : List ℕ) : List ℕ :=
  ((normalizedBalances.take pool.currencyIds.length).zipIdx.filter fun b => b.2 ≠ outIndex).map
    fun b => if b.2 = inIndex then inBalance else b.1

/-- The balance of one currency after that of another has changed. -/
def getY (now : ℕ) (pool : BasePool AccountId CurrencyId) (inIndex outIndex inBalance : ℕ)
    (normalizedBalances : List ℕ) : Option ℕ := do
  let nCurrencies := pool.currencyIds.length
  let amp ← getAPrecise now pool
  let ann ← checkedMul maxU256 nCurrencies amp
  let d ← getD normalizedBalances amp
  missingBalance ann nCurrencies d
    (otherBalances pool inIndex outIndex inBalance normalizedBalances)

/-- The balance of one currency for another value of the invariant. -/
def getYd (pool : BasePool AccountId CurrencyId) (a index : ℕ) (xp : List ℕ) (d : ℕ) : Option ℕ :=
  let nCurrencies := pool.currencyIds.length
  if nCurrencies ≤ index then none
  else
    -- below 256 bits: both factors are results of at most 128 and 64 bits
    let ann := a * nCurrencies
    missingBalance ann nCurrencies d
      ((xp.zipIdx.filter fun b => b.2 ≠ index).map fun b => b.1)

/-- The part of the fee each token bears. -/
def calculateFeePerToken (pool : BasePool AccountId CurrencyId) : Option ℕ := do
  let nPooledCurrency := pool.currencyIds.length
  let product ← checkedMul maxBalance pool.fee nPooledCurrency
  let others ← checkedSub nPooledCurrency 1
  let divisor ← checkedMul maxBalance 4 others
  checkedDiv product divisor

end Interbtc.DexStable
