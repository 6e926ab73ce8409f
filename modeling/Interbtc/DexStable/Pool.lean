import Interbtc.Core.Checked
import Interbtc.Currency.Withdrawal

/-!
# The storage of the stable exchange

A base pool holds some currencies that are worth about the same. The last currency of a meta
pool is the liquidity token of another pool, of which the meta pool remembers the price.
-/

namespace Interbtc

open Core MultiCurrency

namespace DexStable

/-! ## Constants -/

/-- Fees are parts of this. -/
def FEE_DENOMINATOR : ℕ := 10000000000

/-- The decimals of liquidity tokens. -/
def POOL_LP_CURRENCY_ID_DECIMAL : ℕ := 18

/-- Virtual prices are parts of this. -/
def BASE_VIRTUAL_PRICE_PRECISION : ℕ := 1000000000000000000

/-- Protects from division loss in the approximations. -/
def A_PRECISION : ℕ := 100

/-- The number of rounds of an approximation. -/
def MAX_ITERATION : ℕ := 255

/-- Balances are brought to these decimals. -/
def POOL_TOKEN_COMMON_DECIMALS : ℕ := 18

/-- A day, in seconds. -/
def DAY : ℕ := 86400

/-- A ramp takes at least a day. -/
def MIN_RAMP_TIME : ℕ := DAY

/-- The constant of the source for a minute, in seconds. -/
def MINUTE : ℕ := 3600

/-- The price of the base pool is cached for ten of the minutes of the source. -/
def BASE_CACHE_EXPIRE_TIME : ℕ := 10 * MINUTE

/-- The amplification stays below this. -/
def MAX_A : ℕ := 1000000

/-- A ramp changes the amplification by this factor at most. -/
def MAX_A_CHANGE : ℕ := 10

/-- The admin fee is all of the fee at most. -/
def MAX_ADMIN_FEE : ℕ := 10000000000

/-- The fee of swaps is a hundredth at most. -/
def MAX_SWAP_FEE : ℕ := 100000000

/-- The bound of 64-bit numbers. -/
def maxU64 : ℕ := 2 ^ 64 - 1

/-- Pools are numbered with 32 bits. -/
def maxPoolId : ℕ := 2 ^ 32 - 1

end DexStable

/-! ## Pools -/

/-- A pool of tokens of about one price. -/
structure BasePool (AccountId CurrencyId : Type) where
  currencyIds : List CurrencyId
  lpCurrencyId : CurrencyId
  /-- What the balance of a token is multiplied with to have the common decimals. -/
  tokenMultipliers : List ℕ
  /-- The balances without the admin fees that the account also holds. -/
  balances : List ℕ
  fee : ℕ
  adminFee : ℕ
  initialA : ℕ
  futureA : ℕ
  initialATime : ℕ
  futureATime : ℕ
  account : AccountId
  adminFeeReceiver : AccountId
  lpCurrencySymbol : List UInt8
  lpCurrencyDecimal : ℕ
  deriving DecidableEq

/-- A pool whose last token is the liquidity token of a base pool. -/
structure MetaPool (AccountId CurrencyId : Type) where
  basePoolId : ℕ
  baseVirtualPrice : ℕ
  baseCacheLastUpdated : ℕ
  baseCurrencies : List CurrencyId
  info : BasePool AccountId CurrencyId
  deriving DecidableEq

/-- A pool of either kind. -/
inductive StablePool (AccountId CurrencyId : Type)
  | base (pool : BasePool AccountId CurrencyId)
  | metaPool (pool : MetaPool AccountId CurrencyId)
  deriving DecidableEq

namespace StablePool

variable {AccountId CurrencyId : Type}

/-- What a pool has in common with a base pool. -/
def info : StablePool AccountId CurrencyId → BasePool AccountId CurrencyId
  | .base bp => bp
  | .metaPool mp => mp.info

/-- Change what a pool has in common with a base pool. -/
def mapInfo (f : BasePool AccountId CurrencyId → BasePool AccountId CurrencyId) :
    StablePool AccountId CurrencyId → StablePool AccountId CurrencyId
  | .base bp => .base (f bp)
  | .metaPool mp => .metaPool { mp with info := f mp.info }

/-- The tokens of a pool. -/
def getCurrencyIds (pool : StablePool AccountId CurrencyId) : List CurrencyId :=
  pool.info.currencyIds

/-- The liquidity token of a pool. -/
def getLpCurrency (pool : StablePool AccountId CurrencyId) : CurrencyId := pool.info.lpCurrencyId

/-- The fee of a pool. -/
def getFee (pool : StablePool AccountId CurrencyId) : ℕ := pool.info.fee

/-- What changes of a pool is what was to change. -/
@[simp] theorem info_mapInfo (f : BasePool AccountId CurrencyId → BasePool AccountId CurrencyId)
    (pool : StablePool AccountId CurrencyId) : (pool.mapInfo f).info = f pool.info := by
  cases pool <;> rfl

end StablePool

/-! ## Errors -/

/-- Errors of the pallet. -/
inductive StableError
  | invalidPooledCurrency
  | mismatchParameter
  | invalidCurrencyDecimal
  | invalidPoolId
  | invalidBasePool
  | arithmetic
  | deadline
  | insufficientSupply
  | insufficientReserve
  | checkDFailed
  | amountSlippage
  | swapSameCurrency
  | currencyIndexOutRange
  | insufficientLpReserve
  | exceedThreshold
  | rampADelay
  | minRampTime
  | exceedMaxAChange
  | alreadyStoppedRampA
  | exceedMaxFee
  | exceedMaxAdminFee
  | zeroA
  | exceedMaxA
  | lpCurrencyAlreadyUsed
  | requireAllCurrencies
  | tooManyCurrencies
  | badPoolCurrencySymbol
  | invalidTransaction
  | invalidBasePoolLpCurrency
  | badOrigin
  deriving DecidableEq, Repr

/-- Why a call does not succeed: an error that it returns, or a panic. -/
inductive StableFault
  | stable (e : StableError)
  | tokens (e : TokensError)
  | panic
  deriving DecidableEq

/-- Why a computation has no result: it returns none, or it panics. -/
inductive Stop
  | none
  | panic
  deriving DecidableEq

namespace Stop

/-- The error of a call that needs the result. -/
def fault (e : StableError) : Stop → StableFault
  | .none => .stable e
  | .panic => .panic

end Stop

/-- A computation that may have no result. -/
abbrev Computed (α : Type) : Type := Except Stop α

/-- The result of checked arithmetic. -/
def orNone {α : Type} : Option α → Computed α := okOr .none

/-- The value at an index, which has to be in range. -/
def nth {α : Type} (xs : List α) (i : ℕ) : Computed α := okOr .panic xs[i]?

/-- Replace the value at an index, which has to be in range. -/
def setNth {α : Type} (xs : List α) (i : ℕ) (x : α) : Computed (List α) :=
  if i < xs.length then .ok (xs.set i x) else .error .panic

/-! ## Storage -/

/-- The accounts and the liquidity tokens of the pools, and the limits of a pool. -/
class DexStableConfig (AccountId CurrencyId : Type) where
  poolAccountId : ℕ → AccountId
  poolAccountId_injective : Function.Injective poolAccountId
  generateByPoolId : ℕ → CurrencyId
  validatePooledCurrency : List CurrencyId → Bool
  poolCurrencyLimit : ℕ
  poolCurrencySymbolLimit : ℕ

/-- The token balances, the time in seconds, and the storage of the pallet. -/
structure DexStable (AccountId CurrencyId Tokens : Type) where
  tokens : Tokens
  now : ℕ
  nextPoolId : ℕ
  pools : ℕ → Option (StablePool AccountId CurrencyId)
  lpCurrencies : CurrencyId → Option ℕ

/-- A call of the pallet. -/
abbrev StableCall (AccountId CurrencyId Tokens α : Type) : Type :=
  Call StableFault (DexStable AccountId CurrencyId Tokens) α

namespace DexStable

variable {AccountId CurrencyId Tokens α : Type}

/-- The storage before the first call. -/
def genesis (tokens : Tokens) (now : ℕ) : DexStable AccountId CurrencyId Tokens where
  tokens := tokens
  now := now
  nextPoolId := 0
  pools _ := none
  lpCurrencies _ := none

/-- The token balances. -/
def TokensPart : Lens (DexStable AccountId CurrencyId Tokens) Tokens where
  get s := s.tokens
  set t s := { s with tokens := t }

/-- A call of the token balances whose errors are passed on. -/
def liftTokens (x : Call TokensError Tokens α) : StableCall AccountId CurrencyId Tokens α :=
  (TokensPart.zoom x).mapError .tokens

/-- Raise an error of the pallet unless the condition holds. -/
def check (c : Prop) [Decidable c] (e : StableError) : StableCall AccountId CurrencyId Tokens Unit :=
  Call.ensure c (.stable e)

/-- The result of a computation, or an error of the pallet where it has none. -/
def computed (e : StableError) (x : Computed α) : StableCall AccountId CurrencyId Tokens α :=
  Call.ofExcept (x.mapError (Stop.fault e))

/-- The result of a computation, whose failure is an arithmetic error. -/
def arithmetic (x : Computed α) : StableCall AccountId CurrencyId Tokens α := computed .arithmetic x

end DexStable

end Interbtc
