import Interbtc.Bridge.Vaults

/-!
# Issuing wrapped tokens

A user asks a vault for wrapped tokens, pays Bitcoin to the deposit address of the
request and executes it. A request that is not paid in time is cancelled.
-/

namespace Interbtc.Chain

open Core

variable {AccountId CurrencyId H256 F Tokens : Type} [DecidableEq AccountId]
  [DecidableEq CurrencyId] [DecidableEq H256] [FixedPointNumber F]
  [MultiCurrency Tokens AccountId CurrencyId] [CurrencyConfig CurrencyId]
  [AccountConfig AccountId]

/-! ## Requests -/

/-- A request that is not completed. -/
def getIssueRequestFromId (s : Chain AccountId CurrencyId H256 F Tokens) (issueId : H256) :
    Except DispatchError (IssueRequest AccountId CurrencyId) := do
  let request ← okOr (.issue .issueIdNotFound) (s.issueRequests issueId)
  match request.status with
  | .completed => throw (.issue .issueCompleted)
  | _ => return request

/-- Completed and cancelled requests are refused. -/
def getPendingIssue (s : Chain AccountId CurrencyId H256 F Tokens) (issueId : H256) :
    Except DispatchError (IssueRequest AccountId CurrencyId) := do
  let request ← okOr (.issue .issueIdNotFound) (s.issueRequests issueId)
  match request.status with
  | .completed => throw (.issue .issueCompleted)
  | .cancelled => throw (.issue .issueCancelled)
  | .pending => return request

/-- Change a request, if it exists. -/
def mutateIssueRequest (issueId : H256)
    (f : IssueRequest AccountId CurrencyId → IssueRequest AccountId CurrencyId) :
    ChainCall AccountId CurrencyId H256 F Tokens Unit :=
  modify fun s =>
    { s with
      issueRequests :=
        Function.update s.issueRequests issueId ((s.issueRequests issueId).map f) }

/-- Store the status of an issue request. -/
def setIssueStatus (issueId : H256) (status : IssueRequestStatus) :
    ChainCall AccountId CurrencyId H256 F Tokens Unit :=
  mutateIssueRequest issueId fun request => { request with status := status }

/-- The fee of an issue, rounded to the nearest. -/
def getIssueFee (env : Env AccountId CurrencyId H256) (amount : Amount CurrencyId) :
    Except DispatchError (Amount CurrencyId) :=
  amount.checkedRoundedMul env.issueFee.1 .nearestPrefUp

/-- The griefing collateral of an issue, rounded to the nearest. -/
def getIssueGriefingCollateral (env : Env AccountId CurrencyId H256)
    (amount : Amount CurrencyId) : Except DispatchError (Amount CurrencyId) :=
  amount.checkedRoundedMul env.issueGriefingCollateral.1 .nearestPrefUp

/-- Update the fee and the amount of a request to what was actually transferred. -/
def setIssueAmount (env : Env AccountId CurrencyId H256) (issueId : H256)
    (issue : IssueRequest AccountId CurrencyId) (transferredBtc : Amount CurrencyId) :
    ChainCall AccountId CurrencyId H256 F Tokens (IssueRequest AccountId CurrencyId) := do
  let fee ← Call.ofExcept (getIssueFee env transferredBtc)
  let issue := { issue with fee := fee.amount }
  let amount ← Call.ofExcept (transferredBtc.checkedSub issue.feeIssued)
  let issue := { issue with amount := amount.amount }
  mutateIssueRequest issueId fun request =>
    { request with fee := issue.fee, amount := issue.amount }
  return issue

/-- Ask a vault for tokens, and lock griefing collateral. -/
def requestIssue (env : Env AccountId CurrencyId H256) (requester : AccountId)
    (amountRequested : ℕ) (vaultId : VaultId AccountId CurrencyId)
    (griefingCurrency : CurrencyId) : ChainCall AccountId CurrencyId H256 F Tokens Unit := do
  let amountRequested : Amount CurrencyId := ⟨amountRequested, vaultId.wrappedCurrency⟩
  let initialized ← Call.ofExcept env.isFullyInitialized
  Call.ensure initialized (.issue .waitingForRelayerInitialization)
  let s ← get
  let vault ← Call.ofExcept (s.registry.getActiveVaultFromId vaultId)
  Call.ensure vault.acceptsNewIssues (.issue .vaultNotAcceptingNewIssues)
  Call.ofExcept (s.registry.ensureNotBanned env vaultId)
  let amountCollateral ← Call.ofExcept (env.convert amountRequested griefingCurrency)
  let griefingCollateral ← Call.ofExcept (getIssueGriefingCollateral env amountCollateral)
  onTokens (griefingCollateral.lockOn requester)
  let aboveDust ← Call.ofExcept
    (amountRequested.ge ⟨env.issueBtcDustValue, vaultId.wrappedCurrency⟩)
  Call.ensure aboveDust (.issue .amountBelowDustAmount)
  tryIncreaseToBeIssuedTokens env vaultId amountRequested
  let fee ← Call.ofExcept (getIssueFee env amountRequested)
  let amountUser ← Call.ofExcept (amountRequested.checkedSub fee)
  let issueId := env.secureId
  let btcAddress ← Call.reads fun s => registerDepositAddress env s vaultId issueId
  let _ ← Call.ofExcept (getBitcoinPublicKey env vaultId.accountId)
  modify fun s =>
    { s with
      issueRequests := Function.update s.issueRequests issueId
        (some
          { vault := vaultId
            opentime := env.activeBlockNumber
            requester := requester
            btcAddress := btcAddress
            amount := amountUser.amount
            fee := fee.amount
            griefingCollateral := griefingCollateral.amount
            griefingCurrency := griefingCollateral.currencyId
            period := env.issuePeriod
            btcHeight := env.bestBlockHeight
            status := .pending }) }

/-! ## Execution -/

/-- Returns the request, for what was transferred, and the griefing collateral to release. -/
def decreaseIssueAmount (env : Env AccountId CurrencyId H256) (issueId : H256)
    (issue : IssueRequest AccountId CurrencyId)
    (amountTransferred expectedTotalAmount : Amount CurrencyId) :
    ChainCall AccountId CurrencyId H256 F Tokens
      (IssueRequest AccountId CurrencyId × Amount CurrencyId) := do
  let deficit ← Call.ofExcept (expectedTotalAmount.checkedSub amountTransferred)
  onRegistry (VaultRegistry.decreaseToBeIssuedTokens issue.vault deficit)
  -- slash griefing collateral proportionally to the amount that is missing
  let toReleaseCollateral ← Call.ofExcept
    (calculateCollateral issue.griefing amountTransferred expectedTotalAmount)
  let slashedCollateral ← Call.ofExcept (issue.griefing.checkedSub toReleaseCollateral)
  transferFunds env (.userGriefing issue.requester) (.freeBalance AccountConfig.treasury)
    slashedCollateral
  let issue ← setIssueAmount env issueId issue amountTransferred
  return (issue, toReleaseCollateral)

/-- Issue as much of a surplus as the vault can back. -/
def tryIncreaseIssueAmount (env : Env AccountId CurrencyId H256) (issueId : H256)
    (issue : IssueRequest AccountId CurrencyId)
    (amountTransferred expectedTotalAmount : Amount CurrencyId) :
    ChainCall AccountId CurrencyId H256 F Tokens (IssueRequest AccountId CurrencyId) := do
  let surplusBtc ← Call.ofExcept (amountTransferred.checkedSub expectedTotalAmount)
  let maxAllowed ← Call.reads fun s => getIssuableTokensFromVault env s issue.vault
  let issueAmount ← Call.ofExcept (surplusBtc.min maxAllowed)
  let result ← Call.attempt (tryIncreaseToBeIssuedTokens env issue.vault issueAmount)
  match result with
  | .ok _ => do
    let transferred ← Call.ofExcept (expectedTotalAmount.checkedAdd issueAmount)
    setIssueAmount env issueId issue transferred
  -- nothing to do on error
  | .error _ => return issue

/-- A cancelled request is executed when the vault can back what was transferred. -/
def executeCancelledIssue (env : Env AccountId CurrencyId H256) (executor : AccountId)
    (issueId : H256) (issue : IssueRequest AccountId CurrencyId)
    (amountTransferred expectedTotalAmount : Amount CurrencyId) :
    ChainCall AccountId CurrencyId H256 F Tokens (IssueRequest AccountId CurrencyId) := do
  Call.reads fun s => s.registry.ensureAcceptingNewIssues issue.vault
  tryIncreaseToBeIssuedTokens env issue.vault amountTransferred
  let less ← Call.ofExcept (amountTransferred.lt expectedTotalAmount)
  (if less then Call.ensure (issue.requester = executor) (.issue .invalidExecutor) else pure ())
  let different ← Call.ofExcept (amountTransferred.ne expectedTotalAmount)
  if different then
    -- griefing collateral and to-be-issued tokens were already decreased by the cancellation
    setIssueAmount env issueId issue amountTransferred
  else
    return issue

/-- Only the requester can execute a request with an insufficient payment. -/
def executePendingIssue (env : Env AccountId CurrencyId H256) (executor : AccountId)
    (issueId : H256) (issue : IssueRequest AccountId CurrencyId)
    (amountTransferred expectedTotalAmount : Amount CurrencyId) :
    ChainCall AccountId CurrencyId H256 F Tokens (IssueRequest AccountId CurrencyId) := do
  let less ← Call.ofExcept (amountTransferred.lt expectedTotalAmount)
  let (issue, toReleaseGriefingCollateral) ← (if less then do
      Call.ensure (issue.requester = executor) (.issue .invalidExecutor)
      decreaseIssueAmount env issueId issue amountTransferred expectedTotalAmount
    else do
      let more ← Call.ofExcept (amountTransferred.gt expectedTotalAmount)
      let issue ← (if more then do
          let liquidated ← Call.reads fun s => s.registry.isVaultLiquidated issue.vault
          if liquidated then
            pure issue
          else
            tryIncreaseIssueAmount env issueId issue amountTransferred expectedTotalAmount
        else pure issue)
      pure (issue, issue.griefing))
  onTokens (toReleaseGriefingCollateral.unlockOn issue.requester)
  return issue

/-- Complete an issue. `payment` is the amount that the given transaction, if it is verified,
pays to an address. -/
def executeIssue (env : Env AccountId CurrencyId H256) (executor : AccountId) (issueId : H256)
    (payment : BtcAddress → Except DispatchError ℕ) :
    ChainCall AccountId CurrencyId H256 F Tokens Unit := do
  let issue ← Call.reads (·.getIssueRequestFromId issueId)
  let amountTransferred ← Call.ofExcept (payment issue.btcAddress)
  let amountTransferred : Amount CurrencyId := ⟨amountTransferred, issue.vault.wrappedCurrency⟩
  let expectedTotalAmount ← Call.ofExcept (issue.amountIssued.checkedAdd issue.feeIssued)
  let issue ← (match issue.status with
    | .completed => throw (.issue .issueCompleted)
    | .cancelled =>
      executeCancelledIssue env executor issueId issue amountTransferred expectedTotalAmount
    | .pending =>
      executePendingIssue env executor issueId issue amountTransferred expectedTotalAmount)
  -- the request may have been updated
  let total ← Call.ofExcept (issue.amountIssued.checkedAdd issue.feeIssued)
  onRegistry (VaultRegistry.issueTokens issue.vault total)
  onTokens (issue.amountIssued.mintTo issue.requester)
  onTokens (issue.feeIssued.mintTo AccountConfig.feePool)
  distributeRewards issue.feeIssued
  setIssueStatus issueId .completed

/-! ## Cancellation -/

/-- The griefing collateral to slash. Before the request expires only the requester can cancel,
and gets back a part that shrinks with time. -/
def slashedGriefingCollateral (env : Env AccountId CurrencyId H256) (canceller : AccountId)
    (issue : IssueRequest AccountId CurrencyId) :
    ChainCall AccountId CurrencyId H256 F Tokens (Amount CurrencyId) := do
  let issuePeriod := max env.issuePeriod issue.period
  let expired ← Call.ofExcept
    (env.hasRequestExpired issue.opentime issue.btcHeight issuePeriod)
  if expired then
    return issue.griefing
  else if issue.requester = canceller then
    let blocksElapsed := env.activeBlockNumber - issue.opentime
    let proportional ← Call.ofExcept (calculateCollateral issue.griefing
      ⟨blocksElapsed, issue.griefingCurrency⟩ ⟨issuePeriod, issue.griefingCurrency⟩)
    let slashedCollateral ← Call.ofExcept (proportional.min issue.griefing)
    let releasedCollateral ← Call.ofExcept (issue.griefing.saturatingSub slashedCollateral)
    onTokens (releasedCollateral.unlockOn canceller)
    return slashedCollateral
  else
    throw (.issue .timeNotExpired)

/-- Cancel an expired issue request, whose griefing collateral the vault gets. -/
def cancelIssue (env : Env AccountId CurrencyId H256) (canceller : AccountId) (issueId : H256) :
    ChainCall AccountId CurrencyId H256 F Tokens Unit := do
  let issue ← Call.reads (·.getPendingIssue issueId)
  let toBeSlashedCollateral ← slashedGriefingCollateral env canceller issue
  let liquidated ← Call.reads fun s => s.registry.isVaultLiquidated issue.vault
  (if liquidated then
      onTokens (toBeSlashedCollateral.unlockOn issue.requester)
    else
      -- to the treasury, for the vault may have blocked the execution on purpose
      transferFunds env (.userGriefing issue.requester) (.freeBalance AccountConfig.treasury)
        toBeSlashedCollateral)
  let fullAmount ← Call.ofExcept (issue.amountIssued.checkedAdd issue.feeIssued)
  onRegistry (VaultRegistry.decreaseToBeIssuedTokens issue.vault fullAmount)
  setIssueStatus issueId .cancelled

end Interbtc.Chain
