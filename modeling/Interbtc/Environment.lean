import Interbtc.Currency.Amount

/-!
# The environment of a call

Constants of the runtime, and what a call reads of storage it never writes: prices,
loan markets, parameters that governance sets, block heights. The environment may be
another one at every call of a run.
-/

namespace Interbtc

open Core

/-- The currencies the runtime is configured with, and how many of them the pools of the vaults'
rewards may pay out. -/
class CurrencyConfig (CurrencyId : Type) where
  native : CurrencyId
  wrapped : CurrencyId
  /-- The currency of the collateral a vault locks when it asks to be replaced. -/
  griefingCollateral : CurrencyId
  isLendToken : CurrencyId → Bool
  maxCapacityRewardCurrencies : ℕ
  maxVaultRewardCurrencies : ℕ

/-- The accounts the runtime is configured with. -/
class AccountConfig (AccountId : Type) where
  /-- Receives the fees; the rewards that cannot be distributed are swept back to it. -/
  feePool : AccountId
  treasury : AccountId
  liquidationVault : AccountId

/-- A fee rate: the fee pallet rejects rates above one. -/
abbrev FeeRate : Type := {rate : FixedU128 // rate.inner ≤ FixedU128.DIV}

/-- What a call reads and never writes. -/
structure Env (AccountId CurrencyId H256 : Type) where
  -- oracle
  exchangeRate : CurrencyId → Option FixedU128
  feeEstimation : Option FixedU128
  -- loans
  underlyingId : CurrencyId → Except DispatchError CurrencyId
  recomputeUnderlyingAmount : Amount CurrencyId → Except DispatchError (Amount CurrencyId)
  recomputeCollateralAmount : Amount CurrencyId → Except DispatchError (Amount CurrencyId)
  -- fee
  issueFee : FeeRate
  issueGriefingCollateral : FeeRate
  redeemFee : FeeRate
  premiumRedeemFee : FeeRate
  punishmentFee : FeeRate
  replaceGriefingCollateral : FeeRate
  -- vault registry
  minimumCollateralVault : CurrencyId → Option ℕ
  punishmentDelay : ℕ
  systemCollateralCeiling : VaultCurrencyPair CurrencyId → Option ℕ
  secureCollateralThreshold : VaultCurrencyPair CurrencyId → Option FixedU128
  premiumRedeemThreshold : VaultCurrencyPair CurrencyId → Option FixedU128
  liquidationCollateralThreshold : VaultCurrencyPair CurrencyId → Option FixedU128
  vaultBitcoinPublicKey : AccountId → Option BtcPublicKey
  /-- The deposit address derived from a public key, if the key is valid. -/
  newDepositAddress : BtcPublicKey → H256 → Option BtcAddress
  -- nomination
  isNominationEnabled : Bool
  -- issue, redeem and replace
  issuePeriod : ℕ
  issueBtcDustValue : ℕ
  redeemPeriod : ℕ
  redeemBtcDustValue : ℕ
  redeemTransactionSize : ℕ
  replacePeriod : ℕ
  replaceBtcDustValue : ℕ
  -- security and BTC relay
  activeBlockNumber : ℕ
  /-- The identifier the next request gets. -/
  secureId : H256
  isFullyInitialized : Except DispatchError Bool
  bestBlockHeight : ℕ
  parachainBlocksPerBitcoinBlock : ℕ

namespace Env

variable {AccountId CurrencyId H256 : Type}

/-! ## Expiry -/

/-- Block numbers and heights are 32 bits wide. -/
def maxBlockNumber : ℕ := 2 ^ 32 - 1

/-- Whether a period since a parachain block is over. -/
def parachainBlockExpired (env : Env AccountId CurrencyId H256) (opentime period : ℕ) :
    Except DispatchError Bool :=
  if opentime + period ≤ maxBlockNumber then
    .ok (decide (opentime + period < env.activeBlockNumber))
  else
    .error (.arithmetic .overflow)

/-- The height at which the Bitcoin blocks of a period have passed, the last one rounded up. -/
def bitcoinExpiryHeight (env : Env AccountId CurrencyId H256) (btcOpenHeight period : ℕ) :
    Except DispatchError ℕ :=
  let rate := env.parachainBlocksPerBitcoinBlock
  if maxBlockNumber < period + rate then
    .error (.btcRelay .arithmeticOverflow)
  else if period + rate = 0 ∨ rate = 0 then
    .error (.btcRelay .arithmeticUnderflow)
  else if maxBlockNumber < btcOpenHeight + (period + rate - 1) / rate then
    .error (.btcRelay .arithmeticOverflow)
  else
    .ok (btcOpenHeight + (period + rate - 1) / rate)

/-- A request expires when its period is over on both chains. -/
def hasRequestExpired (env : Env AccountId CurrencyId H256) (opentime btcOpenHeight period : ℕ) :
    Except DispatchError Bool := do
  let parachainExpired ← env.parachainBlockExpired opentime period
  if parachainExpired then
    let expiryHeight ← env.bitcoinExpiryHeight btcOpenHeight period
    return decide (expiryHeight < env.bestBlockHeight)
  else
    return false

/-! ## Conversion -/

/-- The exchange rate of a currency has to be known. -/
def getPrice (env : Env AccountId CurrencyId H256) (currencyId : CurrencyId) :
    Except DispatchError FixedU128 :=
  okOr (.oracle .missingExchangeRate) (env.exchangeRate currencyId)

/-- What wrapped tokens are worth at the exchange rate, rounded down. -/
def wrappedToCollateral (env : Env AccountId CurrencyId H256) (amount : ℕ)
    (currencyId : CurrencyId) : Except DispatchError ℕ := do
  let rate ← env.getPrice currencyId
  let converted ← Amount.checkedMul ⟨amount, currencyId⟩ rate
  return converted.amount

/-- What collateral is worth in wrapped tokens at the exchange rate, rounded down. -/
def collateralToWrapped (env : Env AccountId CurrencyId H256) (amount : ℕ)
    (currencyId : CurrencyId) : Except DispatchError ℕ := do
  let rate ← env.getPrice currencyId
  if amount = 0 then
    return 0
  else
    let converted ← Amount.checkedDiv ⟨amount, currencyId⟩ rate
    return converted.amount

variable [DecidableEq CurrencyId] [CurrencyConfig CurrencyId]

/-- Convert at the exchange rates of the oracle. -/
def oracleConvert (env : Env AccountId CurrencyId H256) (amount : Amount CurrencyId)
    (currencyId : CurrencyId) : Except DispatchError (Amount CurrencyId) := do
  if amount.currencyId = currencyId then
    return ⟨amount.amount, currencyId⟩
  else if amount.currencyId = CurrencyConfig.wrapped then
    let converted ← env.wrappedToCollateral amount.amount currencyId
    return ⟨converted, currencyId⟩
  else if currencyId = CurrencyConfig.wrapped then
    let converted ← env.collateralToWrapped amount.amount amount.currencyId
    return ⟨converted, currencyId⟩
  else
    let base ← env.collateralToWrapped amount.amount amount.currencyId
    let converted ← env.wrappedToCollateral base currencyId
    return ⟨converted, currencyId⟩

/-- What is converted is in the currency asked for. -/
theorem oracleConvert_currencyId {env : Env AccountId CurrencyId H256} {x y : Amount CurrencyId}
    {c : CurrencyId} (h : env.oracleConvert x c = .ok y) : y.currencyId = c := by
  simp only [oracleConvert, except_ite_eq_ok, except_bind_eq_ok, except_pure_eq_ok] at h
  obtain ⟨-, rfl⟩ | ⟨-, ⟨-, _, -, rfl⟩ | ⟨-, ⟨-, _, -, rfl⟩ | ⟨-, _, -, _, -, rfl⟩⟩⟩ := h <;> rfl

/-- Convert an amount; a lend token is first exchanged for what it stands for. -/
def convert (env : Env AccountId CurrencyId H256) (amount : Amount CurrencyId)
    (toId : CurrencyId) : Except DispatchError (Amount CurrencyId) := do
  if CurrencyConfig.isLendToken amount.currencyId ∧ CurrencyConfig.isLendToken toId then
    let toUnderlyingId ← env.underlyingId toId
    let fromUnderlyingAmount ← env.recomputeUnderlyingAmount amount
    let toUnderlyingAmount ← env.oracleConvert fromUnderlyingAmount toUnderlyingId
    env.recomputeCollateralAmount toUnderlyingAmount
  else if CurrencyConfig.isLendToken amount.currencyId then
    let underlyingAmount ← env.recomputeUnderlyingAmount amount
    env.oracleConvert underlyingAmount toId
  else if CurrencyConfig.isLendToken toId then
    let underlyingId ← env.underlyingId toId
    let underlyingAmount ← env.oracleConvert amount underlyingId
    env.recomputeCollateralAmount underlyingAmount
  else
    env.oracleConvert amount toId

end Env

end Interbtc
