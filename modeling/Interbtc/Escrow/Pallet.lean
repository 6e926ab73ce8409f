import Interbtc.Core.Run
import Interbtc.Escrow.Point
import Interbtc.Reward.Pallet

/-!
# The escrow pallet

Accounts lock the native currency for voting power that falls linearly until the lock
expires. The pallet keeps a history of points for each account and one for all accounts
together, which is advanced in steps of the span with the slope changes scheduled there.
-/

namespace Interbtc

open Core

/-- The storage of the escrow pallet, the current height, the balance locks that the currency
pallet keeps for it, and the pool in which voting power is staked. -/
structure Escrow (AccountId CurrencyId F : Type) where
  height : ℕ
  locked : AccountId → LockedBalance
  epoch : ℕ
  pointHistory : ℕ → Point
  userPointHistory : AccountId → ℕ → Point
  userPointEpoch : AccountId → ℕ
  slopeChanges : ℕ → ℕ
  limits : AccountId → Option (ℕ × ℕ)
  blocks : AccountId → Bool
  lock : AccountId → ℕ
  rewards : Rewards Unit AccountId CurrencyId F

namespace EscrowConfig

variable (cfg : EscrowConfig)

/-- The start of the span of a height. -/
def roundHeight (height : ℕ) : ℕ := height / cfg.span * cfg.span

/-- The next height on the grid of spans, or the target before it, and the slope change that is
due there. -/
def stride (slopeChanges : ℕ → ℕ) (target tI : ℕ) : ℕ × ℕ :=
  let tI := min (tI + cfg.span) maxBlockNumber
  if target < tI then (target, 0) else (tI, slopeChanges tI)

/-- Advance the last point to the current height, and store a point for each step before it. Each
step is at least one block, so `fuel` bounds the steps. -/
def fillHistory (slopeChanges : ℕ → ℕ) (now : ℕ) :
    (fuel tI epoch : ℕ) → (lastPoint : Point) → (history : ℕ → Point) → ℕ × Point × (ℕ → Point)
  | 0, _, epoch, lastPoint, history => (epoch, lastPoint, history)
  | fuel + 1, tI, epoch, lastPoint, history =>
    if tI < now then
      let (tI, dSlope) := cfg.stride slopeChanges now tI
      let heightDiff := tI - lastPoint.ts
      let lastPoint : Point :=
        { bias := lastPoint.bias - wrappingMul lastPoint.slope heightDiff
          slope := saturatingAdd lastPoint.slope dSlope
          ts := tI }
      let epoch := min (epoch + 1) maxNonce
      if tI = now then (epoch, lastPoint, history)
      else fillHistory slopeChanges now fuel tI epoch lastPoint
        (Function.update history epoch lastPoint)
    else (epoch, lastPoint, history)

/-- The supply that a point predicts for a later height. -/
def extrapolate (slopeChanges : ℕ → ℕ) (height : ℕ) : (fuel tI : ℕ) → (lastPoint : Point) → ℕ
  | 0, _, lastPoint => lastPoint.bias
  | fuel + 1, tI, lastPoint =>
    if tI < height then
      let (tI, dSlope) := cfg.stride slopeChanges height tI
      let heightDiff := tI - lastPoint.ts
      let bias := lastPoint.bias - wrappingMul lastPoint.slope heightDiff
      if tI = height then bias
      else extrapolate slopeChanges height fuel tI
        { bias := bias, slope := saturatingAdd lastPoint.slope dSlope, ts := tI }
    else lastPoint.bias

end EscrowConfig

namespace Escrow

variable {AccountId CurrencyId F : Type} [DecidableEq AccountId]

/-- Nothing is locked. -/
def default [Zero F] : Escrow AccountId CurrencyId F where
  height := 0
  locked _ := .default
  epoch := 0
  pointHistory _ := .default
  userPointHistory _ _ := .default
  userPointEpoch _ := 0
  slopeChanges _ := 0
  limits _ := none
  blocks _ := false
  lock _ := 0
  rewards := .default

/-- The rewards of the stakes. -/
def RewardsPart : Lens (Escrow AccountId CurrencyId F) (Rewards Unit AccountId CurrencyId F) where
  get s := s.rewards
  set r s := { s with rewards := r }

/-! ## Voting power -/

/-- The point of an account's last checkpoint. -/
def userPoint (s : Escrow AccountId CurrencyId F) (who : AccountId) : Point :=
  s.userPointHistory who (s.userPointEpoch who)

/-- The point of the last checkpoint of all accounts. -/
def lastPoint (s : Escrow AccountId CurrencyId F) : Point := s.pointHistory s.epoch

/-- The voting power of an account, from its last point. -/
def balanceAt (s : Escrow AccountId CurrencyId F) (who : AccountId) (height : ℕ) : ℕ :=
  (s.userPoint who).balanceAt height

/-- The voting power of all, from a point and the slope changes after it. -/
def supplyAt (cfg : EscrowConfig) (s : Escrow AccountId CurrencyId F) (point : Point)
    (height : ℕ) : ℕ :=
  cfg.extrapolate s.slopeChanges height (height + 1) (cfg.roundHeight point.ts) point

/-- The voting power of all, from the last point. -/
def totalSupply (cfg : EscrowConfig) (s : Escrow AccountId CurrencyId F) (height : ℕ) : ℕ :=
  s.supplyAt cfg s.lastPoint height

/-! ## Checkpoints -/

/-- The history of all accounts with a point at the current height, and the lock of one account
replaced in it. -/
def checkpointHistory (cfg : EscrowConfig) (uOld uNew : Point)
    (s : Escrow AccountId CurrencyId F) : Escrow AccountId CurrencyId F :=
  let (epoch, lastPoint, history) := cfg.fillHistory s.slopeChanges s.height (s.height + 1)
    (cfg.roundHeight s.lastPoint.ts) s.epoch s.lastPoint s.pointHistory
  let lastPoint : Point :=
    { lastPoint with
      slope := saturatingAdd lastPoint.slope (uNew.slope - uOld.slope)
      bias := saturatingAdd lastPoint.bias (uNew.bias - uOld.bias) }
  { s with epoch := epoch, pointHistory := Function.update history epoch lastPoint }

/-- Schedule the slope changes for the old and the new end of a lock. -/
def scheduleSlopes (oldLocked newLocked : LockedBalance) (uOld uNew : Point)
    (s : Escrow AccountId CurrencyId F) : Escrow AccountId CurrencyId F :=
  let oldDslope := s.slopeChanges oldLocked.endHeight
  let newDslope :=
    if newLocked.endHeight ≠ 0 then
      if newLocked.endHeight = oldLocked.endHeight then oldDslope
      else s.slopeChanges newLocked.endHeight
    else 0
  let changes :=
    if s.height < oldLocked.endHeight then
      let oldDslope := saturatingAdd oldDslope uOld.slope
      let oldDslope :=
        if newLocked.endHeight = oldLocked.endHeight then oldDslope - uNew.slope else oldDslope
      Function.update s.slopeChanges oldLocked.endHeight oldDslope
    else s.slopeChanges
  let changes :=
    if s.height < newLocked.endHeight ∧ oldLocked.endHeight < newLocked.endHeight then
      Function.update changes newLocked.endHeight (newDslope - uNew.slope)
    else changes
  { s with slopeChanges := changes }

/-- Add a point to the history of one account. -/
def checkpointUser (who : AccountId) (uNew : Point) (s : Escrow AccountId CurrencyId F) :
    Escrow AccountId CurrencyId F :=
  let userEpoch := min (s.userPointEpoch who + 1) maxNonce
  { s with
    userPointEpoch := Function.update s.userPointEpoch who userEpoch
    userPointHistory := Function.update s.userPointHistory who
      (Function.update (s.userPointHistory who) userEpoch uNew) }

/-- Record that one account's lock changes. -/
def checkpoint (cfg : EscrowConfig) (who : AccountId) (oldLocked newLocked : LockedBalance)
    (s : Escrow AccountId CurrencyId F) : Escrow AccountId CurrencyId F :=
  let uOld := oldLocked.point cfg s.height
  let uNew := newLocked.point cfg s.height
  let s := s.checkpointHistory cfg uOld uNew
  let s := s.scheduleSlopes oldLocked newLocked uOld uNew
  s.checkpointUser who uNew

/-! ## Calls -/

/-- What an account can lock: nothing if it is blocked, and part of its balance if limited. -/
def getFreeBalance (free : AccountId → ℕ) (who : AccountId) (s : Escrow AccountId CurrencyId F) :
    ℕ :=
  if s.blocks who = true then 0
  else match s.limits who with
    | some (start, endHeight) =>
      (Point.new (free who) start endHeight (endHeight - start)).reverseBalanceAt endHeight s.height
    | none => free who

variable [DecidableEq CurrencyId] [FixedPointNumber F]

/-- Change the lock of an account and stake its voting power anew. -/
def depositFor (cfg : EscrowConfig) (free : AccountId → ℕ) (who : AccountId)
    (amount unlockHeight : ℕ) : Call DispatchError (Escrow AccountId CurrencyId F) Unit := do
  let s ← get
  let oldLocked := s.locked who
  let newLocked : LockedBalance :=
    { amount := saturatingAdd oldLocked.amount amount
      endHeight := if 0 < unlockHeight then unlockHeight else oldLocked.endHeight }
  Call.ensure (cfg.maxPeriod ≤ newLocked.amount) (.escrow .lockAmountTooLow)
  Call.ensure (newLocked.amount ≤ s.getFreeBalance free who) (.escrow .insufficientFunds)
  modify fun s =>
    { s with
      lock := Function.update s.lock who newLocked.amount
      locked := Function.update s.locked who newLocked }
  modify (checkpoint cfg who oldLocked newLocked)
  let _ ← RewardsPart.zoom (Rewards.withdrawAllStake () who)
  let s ← get
  RewardsPart.zoom (Rewards.depositStake () who (s.balanceAt who s.height))

/-- Remove the expired lock of an account. -/
def removeLock (cfg : EscrowConfig) (who : AccountId) :
    Call DispatchError (Escrow AccountId CurrencyId F) Unit := do
  let s ← get
  let oldLocked := s.locked who
  modify fun s => { s with locked := Function.update s.locked who .default }
  Call.ensure (oldLocked.endHeight ≤ s.height) (.escrow .lockNotExpired)
  let _ ← RewardsPart.zoom (Rewards.withdrawAllStake () who)
  modify (checkpoint cfg who oldLocked .default)
  modify fun s =>
    { s with
      lock := Function.update s.lock who 0
      userPointHistory := Function.update s.userPointHistory who fun _ => .default }

/-- Lock an amount until a height. -/
def createLock (cfg : EscrowConfig) (free : AccountId → ℕ) (who : AccountId)
    (amount unlockHeight : ℕ) : Call DispatchError (Escrow AccountId CurrencyId F) Unit := do
  let s ← get
  let unlockHeight := cfg.roundHeight unlockHeight
  Call.ensure (amount ≠ 0) (.escrow .inputAmountZero)
  Call.ensure ((s.locked who).amount = 0) (.escrow .lockFound)
  Call.ensure (s.height < unlockHeight) (.escrow .unlockHeightNotInTheFuture)
  Call.ensure (unlockHeight ≤ min (s.height + cfg.maxPeriod) maxBlockNumber)
    (.escrow .unlockHeightTooFarInTheFuture)
  depositFor cfg free who amount unlockHeight

/-- Lock more until the same height. -/
def increaseAmount (cfg : EscrowConfig) (free : AccountId → ℕ) (who : AccountId) (amount : ℕ) :
    Call DispatchError (Escrow AccountId CurrencyId F) Unit := do
  let s ← get
  Call.ensure (amount ≠ 0) (.escrow .inputAmountZero)
  Call.ensure ((s.locked who).amount ≠ 0) (.escrow .lockNotFound)
  Call.ensure (s.height < (s.locked who).endHeight) (.escrow .lockHasExpired)
  depositFor cfg free who amount 0

/-- Lock the same until a later height. -/
def increaseUnlockHeight (cfg : EscrowConfig) (free : AccountId → ℕ) (who : AccountId)
    (unlockHeight : ℕ) : Call DispatchError (Escrow AccountId CurrencyId F) Unit := do
  let s ← get
  let unlockHeight := cfg.roundHeight unlockHeight
  Call.ensure (s.height < (s.locked who).endHeight) (.escrow .lockHasExpired)
  Call.ensure ((s.locked who).amount ≠ 0) (.escrow .lockAmountZero)
  Call.ensure ((s.locked who).endHeight < unlockHeight) (.escrow .unlockHeightMustIncrease)
  Call.ensure (unlockHeight ≤ min (s.height + cfg.maxPeriod) maxBlockNumber)
    (.escrow .unlockHeightTooFarInTheFuture)
  depositFor cfg free who 0 unlockHeight

/-- Withdraw what is no longer locked. -/
def withdraw (cfg : EscrowConfig) (who : AccountId) :
    Call DispatchError (Escrow AccountId CurrencyId F) Unit :=
  removeLock cfg who

/-- Bound what an account can lock over time. -/
def setAccountLimit (who : AccountId) (start endHeight : ℕ) :
    Call DispatchError (Escrow AccountId CurrencyId F) Unit :=
  modify fun s => { s with limits := Function.update s.limits who (some (start, endHeight)) }

/-- Let an account lock nothing more. -/
def setAccountBlock (who : AccountId) : Call DispatchError (Escrow AccountId CurrencyId F) Unit :=
  modify fun s => { s with blocks := Function.update s.blocks who true }

/-- Update the staked voting power of an account. -/
def updateUserStake (cfg : EscrowConfig) (free : AccountId → ℕ) (targetUser : AccountId) :
    Call DispatchError (Escrow AccountId CurrencyId F) Unit :=
  depositFor cfg free targetUser 0 0

end Escrow

end Interbtc
