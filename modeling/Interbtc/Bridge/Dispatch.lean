import Interbtc.Bridge.Issue
import Interbtc.Bridge.Nomination
import Interbtc.Bridge.Redeem
import Interbtc.Bridge.Replace
import Interbtc.Core.FixedPoint
import Interbtc.Core.Run

/-!
# Dispatched calls

Every call that users, vaults and nominators can dispatch. A dispatched call is
transactional: when it raises an error, none of its writes is kept.
-/

namespace Interbtc

open Core

/-- The calls, each with the account that signs it where the call reads it. -/
inductive Op (AccountId CurrencyId H256 : Type)
  -- token balances
  | transfer (source destination : AccountId) (currencyId : CurrencyId) (amount : ℕ)
  -- oracle
  | onExchangeRateChange (currencyId : CurrencyId)
  -- vault registry
  | registerVault (vaultId : VaultId AccountId CurrencyId) (collateral : ℕ)
  | acceptNewIssues (vaultId : VaultId AccountId CurrencyId) (acceptNewIssues : Bool)
  | setCustomSecureThreshold (vaultId : VaultId AccountId CurrencyId)
      (customThreshold : Option FixedU128)
  | reportUndercollateralizedVault (vaultId : VaultId AccountId CurrencyId)
  | recoverVaultId (vaultId : VaultId AccountId CurrencyId)
  -- nomination and fee
  | optInToNomination (vaultId : VaultId AccountId CurrencyId)
  | optOutOfNomination (vaultId : VaultId AccountId CurrencyId)
  | depositCollateral (vaultId : VaultId AccountId CurrencyId) (nominatorId : AccountId)
      (amount : ℕ)
  | withdrawCollateral (vaultId : VaultId AccountId CurrencyId) (nominatorId : AccountId)
      (maybeAmount : Option ℕ) (index : Option ℕ)
  | setNominationLimit (vaultId : VaultId AccountId CurrencyId) (limit : ℕ)
  | setCommission (vaultId : VaultId AccountId CurrencyId) (commission : FixedU128)
  | withdrawRewards (vaultId : VaultId AccountId CurrencyId) (nominatorId : AccountId)
      (index : Option ℕ)
  -- issue
  | requestIssue (requester : AccountId) (amountRequested : ℕ)
      (vaultId : VaultId AccountId CurrencyId) (griefingCurrency : CurrencyId)
  | executeIssue (executor : AccountId) (issueId : H256)
      (payment : BtcAddress → Except DispatchError ℕ)
  | cancelIssue (canceller : AccountId) (issueId : H256)
  -- redeem
  | requestRedeem (redeemer : AccountId) (amountWrapped : ℕ) (btcAddress : BtcAddress)
      (vaultId : VaultId AccountId CurrencyId)
  | liquidationRedeem (redeemer : AccountId) (currencies : VaultCurrencyPair CurrencyId)
      (amountWrapped : ℕ)
  | executeRedeem (redeemId : H256) (payment : BtcAddress → ℕ → H256 → Except DispatchError Unit)
  | cancelRedeem (redeemer : AccountId) (redeemId : H256) (reimburse : Bool)
  | mintTokensForReimbursedRedeem (vaultId : VaultId AccountId CurrencyId) (redeemId : H256)
  | selfRedeem (vaultId : VaultId AccountId CurrencyId) (amountWrapped : ℕ)
  -- replace
  | requestReplace (vaultId : VaultId AccountId CurrencyId) (amountBtc : ℕ)
  | withdrawReplace (vaultId : VaultId AccountId CurrencyId) (amount : ℕ)
  | acceptReplace (oldVaultId newVaultId : VaultId AccountId CurrencyId)
      (amountBtc collateral : ℕ) (btcAddress : BtcAddress)
  | executeReplace (replaceId : H256)
      (payment : BtcAddress → ℕ → H256 → Except DispatchError Unit)
  | cancelReplace (replaceId : H256)

namespace Chain

variable {AccountId CurrencyId H256 F Tokens : Type} [DecidableEq AccountId]
  [DecidableEq CurrencyId] [DecidableEq H256] [FixedPointNumber F]
  [MultiCurrency Tokens AccountId CurrencyId] [CurrencyConfig CurrencyId]
  [AccountConfig AccountId]

/-- The oracle ignores an error of the capacity update. -/
def onExchangeRateChange (env : Env AccountId CurrencyId H256) (currencyId : CurrencyId) :
    ChainCall AccountId CurrencyId H256 F Tokens Unit := do
  let _ ← Call.attempt (updateCapacityStake env currencyId)

/-- What a dispatched call does, in the environment of its block. -/
def dispatch (env : Env AccountId CurrencyId H256) :
    Op AccountId CurrencyId H256 → ChainCall AccountId CurrencyId H256 F Tokens Unit
  | .transfer source destination currencyId amount =>
    onTokens (Amount.transfer ⟨amount, currencyId⟩ source destination)
  | .onExchangeRateChange currencyId => onExchangeRateChange env currencyId
  | .registerVault vaultId collateral => registerVault env vaultId collateral
  | .acceptNewIssues vaultId accept => acceptNewIssues env vaultId accept
  | .setCustomSecureThreshold vaultId threshold => setCustomSecureThreshold env vaultId threshold
  | .reportUndercollateralizedVault vaultId => reportUndercollateralizedVault env vaultId
  | .recoverVaultId vaultId => recoverVaultId vaultId
  | .optInToNomination vaultId => optInToNomination env vaultId
  | .optOutOfNomination vaultId => optOutOfNomination env vaultId
  | .depositCollateral vaultId nominatorId amount =>
    depositCollateral env vaultId nominatorId amount
  | .withdrawCollateral vaultId nominatorId maybeAmount index =>
    withdrawCollateral env vaultId nominatorId maybeAmount index
  | .setNominationLimit vaultId limit => setNominationLimit vaultId limit
  | .setCommission vaultId commission => setCommission vaultId commission
  | .withdrawRewards vaultId nominatorId index => withdrawRewards vaultId nominatorId index
  | .requestIssue requester amount vaultId griefingCurrency =>
    requestIssue env requester amount vaultId griefingCurrency
  | .executeIssue executor issueId payment => executeIssue env executor issueId payment
  | .cancelIssue canceller issueId => cancelIssue env canceller issueId
  | .requestRedeem redeemer amount btcAddress vaultId =>
    requestRedeem env redeemer amount btcAddress vaultId
  | .liquidationRedeem redeemer currencies amount =>
    liquidationRedeem env redeemer currencies amount
  | .executeRedeem redeemId payment => executeRedeem env redeemId payment
  | .cancelRedeem redeemer redeemId reimburse => cancelRedeem env redeemer redeemId reimburse
  | .mintTokensForReimbursedRedeem vaultId redeemId =>
    mintTokensForReimbursedRedeem env vaultId redeemId
  | .selfRedeem vaultId amount => selfRedeem env vaultId amount
  | .requestReplace vaultId amount => requestReplace env vaultId amount
  | .withdrawReplace vaultId amount => withdrawReplace env vaultId amount
  | .acceptReplace oldVaultId newVaultId amount collateral btcAddress =>
    acceptReplace env oldVaultId newVaultId amount collateral btcAddress
  | .executeReplace replaceId payment => executeReplace env replaceId payment
  | .cancelReplace replaceId => cancelReplace env replaceId

/-- A dispatched call together with its environment. -/
abbrev Dispatch (AccountId CurrencyId H256 : Type) : Type :=
  Env AccountId CurrencyId H256 × Op AccountId CurrencyId H256

/-- Dispatch one call as a transaction. -/
def step (s : Chain AccountId CurrencyId H256 F Tokens)
    (d : Dispatch AccountId CurrencyId H256) : Chain AccountId CurrencyId H256 F Tokens :=
  (dispatch d.1 d.2).commit s

end Chain

/-! ## A small chain -/

namespace Sample

/-- The accounts of the examples. -/
inductive Account
  | alice
  | bob
  | carol
  | feePool
  | treasury
  | liquidationVault
  deriving DecidableEq

instance : Fintype Account where
  elems := {.alice, .bob, .carol, .feePool, .treasury, .liquidationVault}
  complete x := by cases x <;> decide

/-- The currencies of the examples. -/
inductive Currency
  | dot
  | intr
  | ibtc
  deriving DecidableEq

instance : Fintype Currency where
  elems := {.dot, .intr, .ibtc}
  complete x := by cases x <;> decide

/-- Request identifiers. -/
abbrev Id : Type := Fin 4

instance neZero_four : NeZero 4 := ⟨by decide⟩

instance : CurrencyConfig Currency where
  native := .intr
  wrapped := .ibtc
  griefingCollateral := .intr
  isLendToken _ := false
  maxCapacityRewardCurrencies := 2
  maxVaultRewardCurrencies := 2

instance : AccountConfig Account where
  feePool := .feePool
  treasury := .treasury
  liquidationVault := .liquidationVault

/-- The storage of the examples. -/
abbrev State : Type := Chain Account Currency Id FixedI128 (TokenLedger Account Currency)

/-- The calls of the examples. -/
abbrev Dispatch : Type := Chain.Dispatch Account Currency Id

/-- A whole rate. -/
def rate (n : ℕ) (h : n * FixedU128.DIV ≤ maxBalance := by decide) : FixedU128 :=
  ⟨n * FixedU128.DIV, h⟩

/-- No fee at all. -/
def noFee : FeeRate := ⟨.zero, Nat.zero_le _⟩

/-- No fees, no minimum amounts, a rate of one, and vaults that are secure at 200%. -/
def env : Env Account Currency Id where
  exchangeRate _ := some .one
  feeEstimation := some .zero
  underlyingId c := .ok c
  recomputeUnderlyingAmount a := .ok a
  recomputeCollateralAmount a := .ok a
  issueFee := noFee
  issueGriefingCollateral := noFee
  redeemFee := noFee
  premiumRedeemFee := noFee
  punishmentFee := noFee
  replaceGriefingCollateral := noFee
  minimumCollateralVault _ := some 0
  punishmentDelay := 0
  systemCollateralCeiling _ := some maxBalance
  secureCollateralThreshold _ := some (rate 2)
  premiumRedeemThreshold _ := some (rate 2)
  liquidationCollateralThreshold _ := some .one
  vaultBitcoinPublicKey _ := some 7
  newDepositAddress _ _ := some (.p2pkh 1)
  isNominationEnabled := true
  issuePeriod := 10
  issueBtcDustValue := 0
  redeemPeriod := 10
  redeemBtcDustValue := 0
  redeemTransactionSize := 0
  replacePeriod := 10
  replaceBtcDustValue := 0
  activeBlockNumber := 0
  secureId := 0
  isFullyInitialized := .ok true
  bestBlockHeight := 0
  parachainBlocksPerBitcoinBlock := 1

/-- The same at a later block. -/
def envAt (block : ℕ) : Env Account Currency Id :=
  { env with activeBlockNumber := block, bestBlockHeight := block }

/-- The vaults of two accounts. -/
def vaultA : VaultId Account Currency := ⟨.alice, .dot, .ibtc⟩

/-- Another vault of the same currencies. -/
def vaultB : VaultId Account Currency := ⟨.bob, .dot, .ibtc⟩

/-- The users have collateral and native tokens, and nobody has wrapped tokens. -/
def balances : TokenLedger Account Currency where
  accounts
    | .alice, .dot | .bob, .dot | .carol, .dot | .alice, .intr | .bob, .intr | .carol, .intr =>
      ⟨2000, 0, 0⟩
    | _, _ => ⟨0, 0, 0⟩
  issuance
    | .dot | .intr => 6000
    | .ibtc => 0

/-- Two accounts with collateral, and nothing issued. -/
abbrev start : State := Chain.genesis balances

/-- Both vaults are registered, and carol has issued with the first. -/
def issued : List Dispatch :=
  [(env, .registerVault vaultA 1000), (env, .registerVault vaultB 1000),
    (env, .requestIssue .carol 100 vaultA .intr), (env, .executeIssue .carol 0 fun _ => .ok 100)]

end Sample

end Interbtc
