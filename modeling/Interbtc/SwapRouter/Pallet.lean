import Interbtc.DexGeneral.Dispatch
import Interbtc.DexStable.Lifecycle

/-!
# The router of the swaps

A call of the router takes an amount along a list of routes. Each route is a path of the
constant-product exchange or a swap of the stable exchange, and its input is the output of the
route before it.
-/

namespace Interbtc

open Core MultiCurrency WithdrawableCurrency

/-! ## Routes -/

/-- How a stable pool is used for a swap. -/
inductive StableSwapMode
  | single
  | fromBase
  | toBase
  deriving DecidableEq

/-- A swap with a stable pool. -/
structure StablePath (CurrencyId : Type) where
  poolId : ℕ
  basePoolId : ℕ
  mode : StableSwapMode
  fromCurrency : CurrencyId
  toCurrency : CurrencyId
  deriving DecidableEq

/-- A swap with one of the exchanges. -/
inductive Route (CurrencyId : Type)
  | general (path : List CurrencyId)
  | stable (path : StablePath CurrencyId)
  deriving DecidableEq

namespace Route

variable {CurrencyId : Type}

/-- What a route takes. -/
def inputCurrency : Route CurrencyId → Option CurrencyId
  | general path => path.head?
  | stable path => some path.fromCurrency

/-- What a route pays. -/
def outputCurrency : Route CurrencyId → Option CurrencyId
  | general path => path.getLast?
  | stable path => some path.toCurrency

end Route

/-! ## Both exchanges -/

/-- The token balances, and the storage of the two exchanges. -/
structure SwapRouter (AccountId CurrencyId Tokens : Type) [LinearOrder CurrencyId] where
  tokens : Tokens
  general : DexGeneral AccountId CurrencyId Unit
  stable : DexStable AccountId CurrencyId Unit

/-- Why a call of the router does not succeed: the stable exchange tells its panics apart. -/
inductive RouterFault
  | dispatch (e : DispatchError)
  | stable (e : StableFault)
  deriving DecidableEq

/-- A call of the router. -/
abbrev RouterCall (AccountId CurrencyId Tokens α : Type) [LinearOrder CurrencyId] : Type :=
  Call RouterFault (SwapRouter AccountId CurrencyId Tokens) α

namespace SwapRouter

variable {AccountId CurrencyId Tokens α : Type} [LinearOrder CurrencyId]

/-- The constant-product exchange on the balances. -/
def GeneralPart : Lens (SwapRouter AccountId CurrencyId Tokens)
    (DexGeneral AccountId CurrencyId Tokens) where
  get s := { s.general with tokens := s.tokens }
  set t s := { s with tokens := t.tokens, general := { t with tokens := () } }

/-- The stable exchange on the balances. -/
def StablePart : Lens (SwapRouter AccountId CurrencyId Tokens)
    (DexStable AccountId CurrencyId Tokens) where
  get s := { s.stable with tokens := s.tokens }
  set t s := { s with tokens := t.tokens, stable := { t with tokens := () } }

/-- A call on the pairs. -/
def onGeneral (x : DexGeneralCall AccountId CurrencyId Tokens α) :
    RouterCall AccountId CurrencyId Tokens α := GeneralPart.zoom (x.mapError .dispatch)

/-- A call on the stable pools. -/
def onStable (x : StableCall AccountId CurrencyId Tokens α) :
    RouterCall AccountId CurrencyId Tokens α := StablePart.zoom (x.mapError .stable)

/-! ## Swaps of one route -/

variable [DecidableEq AccountId] [WithdrawableCurrency Tokens AccountId CurrencyId]
  [DexGeneralConfig AccountId CurrencyId] [DexStableConfig AccountId CurrencyId]

/-- Where a token is in a stable pool. -/
def currencyIndexFromStablePool (poolId : ℕ) (currencyId : CurrencyId) :
    RouterCall AccountId CurrencyId Tokens ℕ := do
  let s ← get
  Call.ofOption (.dispatch (.swapRouter .mismatchPoolAndCurrencyId))
    (DexStable.getCurrencyIndex (StablePart.get s) poolId currencyId)

/-- Swap with a stable pool. -/
def stableSwap (who : AccountId) (path : StablePath CurrencyId) (amountIn : ℕ)
    (to' : AccountId) : RouterCall AccountId CurrencyId Tokens ℕ :=
  match path.mode with
  | .single => do
    let fromIndex ← currencyIndexFromStablePool path.poolId path.fromCurrency
    let toIndex ← currencyIndexFromStablePool path.poolId path.toCurrency
    onStable (DexStable.innerSwap who path.poolId fromIndex toIndex amountIn 0 to')
  | .fromBase => do
    let fromIndex ← currencyIndexFromStablePool path.basePoolId path.fromCurrency
    let toIndex ← currencyIndexFromStablePool path.poolId path.toCurrency
    onStable (DexStable.innerSwapPoolFromBase who path.poolId path.basePoolId fromIndex toIndex
      amountIn 0 to')
  | .toBase => do
    let fromIndex ← currencyIndexFromStablePool path.poolId path.fromCurrency
    let toIndex ← currencyIndexFromStablePool path.basePoolId path.toCurrency
    onStable (DexStable.innerSwapPoolToBase who path.poolId path.basePoolId fromIndex toIndex
      amountIn 0 to')

/-- Swap along a path of pairs. -/
def swap (who : AccountId) (amountIn : ℕ) (path : List CurrencyId) (to' : AccountId) :
    RouterCall AccountId CurrencyId Tokens Unit :=
  onGeneral (DexGeneral.innerSwapExactAssetsForAssets who amountIn 0 path to')

/-- The amount that comes out of a route. -/
def swapRoute (who : AccountId) (amountIn : ℕ) (to' : AccountId) :
    Route CurrencyId → RouterCall AccountId CurrencyId Tokens ℕ
  | .general path => do
    let amounts ← onGeneral (Call.reads fun s => s.getAmountOutByPath amountIn path)
    swap who amountIn path to'
    Call.ofOption (.dispatch (.swapRouter .invalidPath)) amounts.getLast?
  | .stable path => stableSwap who path amountIn to'

/-! ## Swaps of all routes -/

/-- What goes out of a route goes into the next one. -/
def validateRoutes : List (Route CurrencyId) → RouterCall AccountId CurrencyId Tokens Unit
  | route₁ :: route₂ :: routes => do
    let output₁ ← Call.ofOption (.dispatch (.swapRouter .invalidPath)) route₁.outputCurrency
    let input₂ ← Call.ofOption (.dispatch (.swapRouter .invalidPath)) route₂.inputCurrency
    Call.ensure (output₁ = input₂) (.dispatch (.swapRouter .invalidRoutes))
    validateRoutes (route₂ :: routes)
  | _ => pure ()

/-- The trader gets what comes out of each route but the last. -/
def swapRoutes (who to' : AccountId) (amountOut : ℕ) :
    List (Route CurrencyId) → RouterCall AccountId CurrencyId Tokens ℕ
  | [] => pure amountOut
  | route :: routes => do
    let receiver := if routes.isEmpty then to' else who
    let amountOut ← swapRoute who amountOut receiver route
    swapRoutes who to' amountOut routes

/-- Swap a given amount along routes that join. -/
def swapExactTokensForTokens (now : ℕ) (who : AccountId) (amountIn amountOutMin : ℕ)
    (routes : List (Route CurrencyId)) (to' : AccountId) (deadline : ℕ) :
    RouterCall AccountId CurrencyId Tokens Unit := do
  Call.ensure (now < deadline) (.dispatch (.swapRouter .deadline))
  validateRoutes routes
  let amountOut ← swapRoutes who to' amountIn routes
  Call.ensure (amountOutMin ≤ amountOut) (.dispatch (.swapRouter .amountSlippage))

end SwapRouter

/-! ## Runs -/

/-- A call of one of the exchanges or of the router. -/
inductive RouterOp (AccountId CurrencyId : Type) [DexGeneralConfig AccountId CurrencyId]
  | general (op : DexGeneral.Op AccountId CurrencyId)
  | stable (origin : StableOrigin AccountId) (op : StableOp AccountId CurrencyId)
  | swapExactTokensForTokens (who : AccountId) (amountIn amountOutMin : ℕ)
      (routes : List (Route CurrencyId)) (to' : AccountId) (deadline : ℕ)

/-- A call, with the tokens and the time it finds and its block. -/
structure RouterStep (AccountId CurrencyId Tokens : Type)
    [DexGeneralConfig AccountId CurrencyId] where
  tokens : Tokens
  now : ℕ
  blockNumber : ℕ
  op : RouterOp AccountId CurrencyId

namespace SwapRouter

variable {AccountId CurrencyId Tokens : Type} [DecidableEq AccountId] [LinearOrder CurrencyId]
  [WithdrawableCurrency Tokens AccountId CurrencyId] [DexGeneralConfig AccountId CurrencyId]
  [DexStableConfig AccountId CurrencyId]

/-- Both exchanges before the first call. -/
def genesis (tokens : Tokens) (now : ℕ) (feeReceiver : Option AccountId) (feePoint : UInt8) :
    SwapRouter AccountId CurrencyId Tokens where
  tokens := tokens
  general := DexGeneral.genesis () feeReceiver feePoint
  stable := DexStable.genesis () now

/-- Between two calls the rest of the chain moves tokens and time goes on. -/
def within (s : SwapRouter AccountId CurrencyId Tokens) (tokens : Tokens) (now : ℕ) :
    SwapRouter AccountId CurrencyId Tokens :=
  { s with tokens := tokens, stable := { s.stable with now := now } }

/-- What each call does. -/
def dispatch (blockNumber : ℕ) :
    RouterOp AccountId CurrencyId → RouterCall AccountId CurrencyId Tokens Unit
  | .general op => onGeneral (DexGeneral.dispatch blockNumber op)
  | .stable origin op => onStable (DexStable.dispatch origin blockNumber op)
  | .swapExactTokensForTokens who amountIn amountOutMin routes to' deadline =>
    swapExactTokensForTokens blockNumber who amountIn amountOutMin routes to' deadline

/-- A call in its surroundings is committed. -/
def step (s : SwapRouter AccountId CurrencyId Tokens)
    (x : RouterStep AccountId CurrencyId Tokens) : SwapRouter AccountId CurrencyId Tokens :=
  (dispatch x.blockNumber x.op).commit (s.within x.tokens x.now)

end SwapRouter

end Interbtc
