import Mathlib.Data.Fintype.Prod

/-!
# Primitives

Vault identifiers and the errors the pallets raise.
-/

namespace Interbtc

/-- The collateral a vault locks and the wrapped currency it backs. -/
structure VaultCurrencyPair (CurrencyId : Type) where
  collateral : CurrencyId
  wrapped : CurrencyId
  deriving DecidableEq

instance {CurrencyId : Type} [Fintype CurrencyId] : Fintype (VaultCurrencyPair CurrencyId) :=
  Fintype.ofEquiv (CurrencyId × CurrencyId)
    ⟨fun p => ⟨p.1, p.2⟩, fun p => (p.collateral, p.wrapped), fun _ => rfl, fun _ => rfl⟩

/-- A vault: an account together with its currency pair. -/
structure VaultId (AccountId CurrencyId : Type) where
  accountId : AccountId
  currencies : VaultCurrencyPair CurrencyId
  deriving DecidableEq

instance {AccountId CurrencyId : Type} [Fintype AccountId] [Fintype CurrencyId] :
    Fintype (VaultId AccountId CurrencyId) :=
  Fintype.ofEquiv (AccountId × VaultCurrencyPair CurrencyId)
    ⟨fun v => ⟨v.1, v.2⟩, fun v => (v.accountId, v.currencies), fun _ => rfl, fun _ => rfl⟩

namespace VaultId

variable {AccountId CurrencyId : Type}

/-- The currency the vault issues. -/
def wrappedCurrency (v : VaultId AccountId CurrencyId) : CurrencyId := v.currencies.wrapped

/-- The currency the vault is backed by. -/
def collateralCurrency (v : VaultId AccountId CurrencyId) : CurrencyId := v.currencies.collateral

end VaultId

/-- A Bitcoin address: the kind of script and its hash, read as a number. -/
inductive BtcAddress
  | p2pkh (hash : ℕ)
  | p2sh (hash : ℕ)
  | p2wpkhv0 (hash : ℕ)
  | p2wshv0 (hash : ℕ)
  deriving DecidableEq

/-- Whether the hash of an address is all zero. -/
def BtcAddress.isZero : BtcAddress → Bool
  | .p2pkh hash | .p2sh hash | .p2wpkhv0 hash | .p2wshv0 hash => hash == 0

/-- A compressed Bitcoin public key, read as a number. -/
abbrev BtcPublicKey : Type := ℕ

/-- Errors of checked arithmetic. -/
inductive ArithmeticError
  | underflow
  | overflow
  | divisionByZero
  deriving DecidableEq, Repr

/-- Errors of the staking pallet. -/
inductive StakingError
  | tryIntoIntError
  | insufficientFunds
  | slashZeroTotalStake
  deriving DecidableEq, Repr

/-- Errors of the reward pallet. -/
inductive RewardError
  | tryIntoIntError
  | insufficientFunds
  | zeroTotalStake
  | maxRewardCurrencies
  deriving DecidableEq, Repr

/-- Errors of the currency wrappers. -/
inductive CurrencyError
  | tryIntoIntError
  | invalidCurrency
  deriving DecidableEq, Repr

/-- Errors of the token balances, which a third-party pallet keeps. -/
inductive TokensError
  | balanceTooLow
  | liquidityRestrictions
  | balanceOverflow
  deriving DecidableEq, Repr

/-- Errors of the oracle. -/
inductive OracleError
  | missingExchangeRate
  deriving DecidableEq, Repr

/-- Errors of the relay. -/
inductive BtcRelayError
  | alreadyInitialized
  | invalidStartHeight
  | missingBlockHeight
  | duplicateBlock
  | invalidChainID
  | lowDiff
  | diffTargetHeader
  | bitcoinConfirmations
  | parachainConfirmations
  | ongoingFork
  | malformedMerkleProof
  | invalidMerkleProof
  | invalidTxid
  | forkIdNotFound
  | blockNotFound
  | endOfFile
  | invalidBlockVersion
  | malformedTransaction
  | malformedOpReturnOutput
  | invalidBtcHash
  | invalidBtcAddress
  | arithmeticOverflow
  | arithmeticUnderflow
  | tryIntoIntError
  | invalidCompact
  | wrongForkBound
  | boundExceeded
  | invalidCoinbasePosition
  | invalidOpReturnTransaction
  | invalidPayment
  | invalidPaymentAmount
  deriving DecidableEq, Repr

/-- Errors of the fees. -/
inductive FeeError
  | tryIntoIntError
  | aboveMaxExpectedValue
  deriving DecidableEq, Repr

/-- Errors of the vault registry. -/
inductive VaultRegistryError
  | exceedingVaultLimit
  | insufficientTokensCommitted
  | vaultBanned
  | insufficientVaultCollateralAmount
  | vaultAlreadyRegistered
  | vaultNotFound
  | vaultNotBelowLiquidationThreshold
  | vaultLiquidated
  | vaultNotRecoverable
  | noBitcoinPublicKey
  | invalidPublicKey
  | invalidCurrency
  | thresholdNotSet
  | ceilingNotSet
  | thresholdNotAboveGlobalThreshold
  | tryIntoIntError
  | vaultNotAcceptingIssueRequests
  | minimumCollateralNotSet
  | currencyCeilingExceeded
  | noVaultUnderThePremiumRedeemThreshold
  deriving DecidableEq, Repr

/-- Errors of the nomination. -/
inductive NominationError
  | vaultAlreadyOptedInToNomination
  | vaultNotOptedInToNomination
  | vaultNotFound
  | cannotWithdrawCollateral
  | vaultNominationDisabled
  | nominationExceedsLimit
  | collateralizationTooLow
  deriving DecidableEq, Repr

/-- Errors of issue requests. -/
inductive IssueError
  | issueIdNotFound
  | timeNotExpired
  | issueCompleted
  | issueCancelled
  | vaultNotAcceptingNewIssues
  | waitingForRelayerInitialization
  | invalidExecutor
  | amountBelowDustAmount
  deriving DecidableEq, Repr

/-- Errors of redeem requests. -/
inductive RedeemError
  | amountExceedsUserBalance
  | unauthorizedRedeemer
  | unauthorizedVault
  | timeNotExpired
  | redeemCancelled
  | redeemCompleted
  | redeemIdNotFound
  | amountBelowDustAmount
  deriving DecidableEq, Repr

/-- Errors of replace requests. -/
inductive ReplaceError
  | replaceAmountZero
  | amountBelowDustAmount
  | noPendingRequest
  | replaceSelfNotAllowed
  | vaultHasEnabledNomination
  | replacePeriodNotExpired
  | replaceCompleted
  | replaceCancelled
  | replaceIdNotFound
  | invalidWrappedCurrency
  deriving DecidableEq, Repr

/-- Errors of the escrow. -/
inductive EscrowError
  | inputAmountZero
  | lockFound
  | lockNotFound
  | unlockHeightNotInTheFuture
  | unlockHeightTooFarInTheFuture
  | lockAmountZero
  | unlockHeightMustIncrease
  | lockNotExpired
  | lockHasExpired
  | lockAmountTooLow
  | insufficientFunds
  deriving DecidableEq, Repr

/-- Errors of the loans. -/
inductive LoansError
  | insufficientLiquidity
  | insufficientDeposit
  | tooMuchRepay
  | insufficientCollateral
  | liquidatorIsBorrower
  | depositsAreNotCollateral
  | insufficientShortfall
  | insufficientReserves
  | invalidRateModelParam
  | marketNotActivated
  | invalidLendTokenId
  | marketDoesNotExist
  | marketAlreadyActivated
  | marketAlreadyExists
  | newMarketMustHavePendingState
  | supplyCapacityExceeded
  | borrowCapacityExceeded
  | insufficientCash
  | invalidFactor
  | invalidSupplyCap
  | invalidExchangeRate
  | invalidAmount
  | depositAllCollateralFailed
  | withdrawAllCollateralFailed
  | tokensAlreadyLocked
  | lockedTokensCannotBeRedeemed
  deriving DecidableEq, Repr

/-- Errors of the pallet of the constant-product pairs. -/
inductive DexGeneralError
  | invalidFeeRate
  | unsupportedAssetType
  | insufficientAssetBalance
  | deniedCreatePair
  | pairAlreadyExists
  | pairNotExists
  | assetNotExists
  | insufficientLiquidity
  | insufficientPairReserve
  | insufficientTargetAmount
  | excessiveSoldAmount
  | invalidPath
  | incorrectAssetAmountRange
  | overflow
  | deadline
  | invariantCheckFailed
  | notInBootstrap
  | invalidContributionAmount
  | unqualifiedBootstrap
  | zeroContribute
  | denyRefund
  | disableBootstrap
  | notQualifiedAccount
  | noRewardTokens
  | chargeRewardParamsError
  | existRewardsInBootstrap
  | tooManyRewards
  | tooManyLimits
  deriving DecidableEq, Repr

/-- Errors of the pallet of the stable pools. -/
inductive DexStableError
  | invalidPooledCurrency
  | mismatchParameter
  | invalidCurrencyDecimal
  | invalidPoolId
  | invalidBasePool
  | arithmetic
  | deadline
  | insufficientSupply
  | insufficientReserve
  | checkDFailed
  | amountSlippage
  | swapSameCurrency
  | currencyIndexOutRange
  | insufficientLpReserve
  | exceedThreshold
  | rampADelay
  | minRampTime
  | exceedMaxAChange
  | alreadyStoppedRampA
  | exceedMaxFee
  | exceedMaxAdminFee
  | zeroA
  | exceedMaxA
  | lpCurrencyAlreadyUsed
  | requireAllCurrencies
  | tooManyCurrencies
  | badPoolCurrencySymbol
  | invalidTransaction
  | invalidBasePoolLpCurrency
  deriving DecidableEq, Repr

/-- Errors of the router of the swaps. -/
inductive SwapRouterError
  | mismatchPoolAndCurrencyId
  | deadline
  | invalidRoutes
  | amountSlippage
  | invalidPath
  deriving DecidableEq, Repr

/-- Errors of a dispatched call. -/
inductive DispatchError
  | arithmetic (e : ArithmeticError)
  | staking (e : StakingError)
  | reward (e : RewardError)
  | currency (e : CurrencyError)
  | tokens (e : TokensError)
  | oracle (e : OracleError)
  | btcRelay (e : BtcRelayError)
  | fee (e : FeeError)
  | vaultRegistry (e : VaultRegistryError)
  | nomination (e : NominationError)
  | issue (e : IssueError)
  | redeem (e : RedeemError)
  | replace (e : ReplaceError)
  | escrow (e : EscrowError)
  | loans (e : LoansError)
  | dexGeneral (e : DexGeneralError)
  | dexStable (e : DexStableError)
  | swapRouter (e : SwapRouterError)
  deriving DecidableEq, Repr

end Interbtc
