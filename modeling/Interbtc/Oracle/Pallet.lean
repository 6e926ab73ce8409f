import Interbtc.Core.Median
import Interbtc.Core.OrderedMap
import Interbtc.Core.Run
import Interbtc.Loans.Rates
import Mathlib.Order.WithBot

/-!
# The oracle

Authorized oracles feed values, and each block the median of the values that are not too old is
stored for every key whose values have changed or have become too old.
-/

namespace Interbtc

open Core

/-- What the oracles report. -/
inductive OracleKey (CurrencyId : Type)
  | exchangeRate (currencyId : CurrencyId)
  | feeEstimation
  deriving DecidableEq

namespace OracleKey

variable {CurrencyId : Type}

/-- The currencies in their order, and then the fee estimation. -/
def toWithTop : OracleKey CurrencyId → WithTop CurrencyId
  | exchangeRate c => c
  | feeEstimation => ⊤

private theorem toWithTop_injective : Function.Injective (toWithTop : OracleKey CurrencyId → _) :=
    by
  intro a b h
  cases a with
  | exchangeRate c =>
    cases b with
    | exchangeRate d => rw [WithTop.coe_injective h]
    | feeEstimation => cases h
  | feeEstimation =>
    cases b with
    | exchangeRate d => cases h
    | feeEstimation => rfl

instance [LinearOrder CurrencyId] : LinearOrder (OracleKey CurrencyId) :=
  LinearOrder.lift' toWithTop toWithTop_injective

end OracleKey

/-- A value, and when it was fed, in milliseconds. -/
structure TimestampedValue where
  value : FixedU128
  timestamp : ℕ
  deriving DecidableEq

/-- Moments are 64 bits wide. -/
def maxMoment : ℕ := 2 ^ 64 - 1

/-- The storage of the pallet, and the time of the last block. The order in which a map is
iterated does not matter. -/
structure Oracle (AccountId CurrencyId : Type) [LinearOrder AccountId] [LinearOrder CurrencyId] where
  now : ℕ
  aggregate : OracleKey CurrencyId → Option FixedU128
  rawValues : OracleKey CurrencyId → OrderedMap AccountId TimestampedValue
  rawValuesUpdated : OrderedMap (OracleKey CurrencyId) Bool
  validUntil : OracleKey CurrencyId → Option ℕ
  maxDelay : ℕ
  authorizedOracles : AccountId → Option (List UInt8)

/-- Why a call of the pallet is rejected. -/
inductive OracleCallError
  | invalidOracleSource
  | badOrigin
  deriving DecidableEq

/-- Who calls. -/
inductive OracleOrigin (AccountId : Type)
  | root
  | signed (who : AccountId)
  deriving DecidableEq

namespace Oracle

variable {AccountId CurrencyId : Type} [LinearOrder AccountId] [LinearOrder CurrencyId]

/-! ## Medians -/

/-- The middle value, or the mean of the two in the middle. -/
def median (rawValues : List FixedU128) : Option FixedU128 :=
  let midIndex := rawValues.length / 2
  let sorted := rawValues.insertionSort fun a b => a.inner ≤ b.inner
  if rawValues.length = 0 then none
  else if rawValues.length % 2 = 0 then do
    let value₁ ← sorted[midIndex - 1]?
    let value₂ ← sorted[midIndex]?
    let sum ← value₁.checkedAdd value₂
    sum.checkedDiv (.saturatingFromInteger 2)
  else sorted[midIndex]?

/-! ## Blocks -/

section Reads

variable (s : Oracle AccountId CurrencyId)

/-- Whether an account may feed values. -/
def isAuthorized (who : AccountId) : Bool := (s.authorizedOracles who).isSome

/-- Whether the aggregate of a key has expired. -/
def isOutdated (key : OracleKey CurrencyId) : Bool :=
  match s.validUntil key with
  | some t => decide (t < s.now)
  | none => false

/-- The values of a key that are not too old. -/
def freshValues (key : OracleKey CurrencyId) : List TimestampedValue :=
  ((s.rawValues key).entries.map Prod.snd).filter fun v => s.now - s.maxDelay ≤ v.timestamp

end Reads

/-- The sum of two moments, which wraps around. -/
def validFor (maxDelay timestamp : ℕ) : ℕ := (timestamp + maxDelay) % (maxMoment + 1)

/-- An aggregate that cannot be computed is left as it was, and counts as updated. -/
def updateAggregate (key : OracleKey CurrencyId) (s : Oracle AccountId CurrencyId) :
    Oracle AccountId CurrencyId :=
  let s := { s with rawValuesUpdated := s.rawValuesUpdated.insert key false }
  let rawValues := s.freshValues key
  match (rawValues.map TimestampedValue.timestamp).min? with
  | none =>
    { s with
      aggregate := Function.update s.aggregate key none
      validUntil := Function.update s.validUntil key none }
  | some oldest =>
    match median (rawValues.map TimestampedValue.value) with
    | none => s
    | some value =>
      { s with
        aggregate := Function.update s.aggregate key (some value)
        validUntil := Function.update s.validUntil key (some (validFor s.maxDelay oldest)) }

/-- The keys are read first, as the map is changed on the way. -/
def beginBlock (s : Oracle AccountId CurrencyId) : Oracle AccountId CurrencyId :=
  s.rawValuesUpdated.entries.foldl (fun s e =>
    if e.2 = true ∨ s.isOutdated e.1 = true then s.updateAggregate e.1 else s) s

/-! ## Calls -/

/-- A call of the pallet. -/
abbrev OracleCall (AccountId CurrencyId α : Type) [LinearOrder AccountId]
    [LinearOrder CurrencyId] : Type :=
  Call OracleCallError (Oracle AccountId CurrencyId) α

/-- Only the root may call. -/
def ensureRoot (origin : OracleOrigin AccountId) : OracleCall AccountId CurrencyId Unit :=
  match origin with
  | .root => pure ()
  | .signed _ => throw .badOrigin

/-- Only an account may call. -/
def ensureSigned (origin : OracleOrigin AccountId) : OracleCall AccountId CurrencyId AccountId :=
  match origin with
  | .root => throw .badOrigin
  | .signed who => pure who

/-- Store one value of an oracle. -/
def feedValue (oracle : AccountId) (key : OracleKey CurrencyId) (value : FixedU128)
    (s : Oracle AccountId CurrencyId) : Oracle AccountId CurrencyId :=
  { s with
    rawValues := Function.update s.rawValues key ((s.rawValues key).insert oracle ⟨value, s.now⟩)
    rawValuesUpdated := s.rawValuesUpdated.insert key true }

/-- An authorized oracle feeds values. -/
def feedValues (origin : OracleOrigin AccountId)
    (values : List (OracleKey CurrencyId × FixedU128)) : OracleCall AccountId CurrencyId Unit := do
  let signer ← ensureSigned origin
  let s ← get
  Call.ensure (s.isAuthorized signer) .invalidOracleSource
  modify fun s => values.foldl (fun s x => s.feedValue signer x.1 x.2) s

/-- The root authorizes an oracle. -/
def insertAuthorizedOracle (origin : OracleOrigin AccountId) (accountId : AccountId)
    (name : List UInt8) : OracleCall AccountId CurrencyId Unit := do
  ensureRoot origin
  modify fun s =>
    { s with authorizedOracles := Function.update s.authorizedOracles accountId (some name) }

/-- The root withdraws an authorization. -/
def removeAuthorizedOracle (origin : OracleOrigin AccountId) (accountId : AccountId) :
    OracleCall AccountId CurrencyId Unit := do
  ensureRoot origin
  modify fun s =>
    { s with authorizedOracles := Function.update s.authorizedOracles accountId none }

end Oracle

/-- The calls of the pallet, and its hook at the beginning of a block. -/
inductive OracleOp (AccountId CurrencyId : Type)
  | beginBlock
  | feedValues (origin : OracleOrigin AccountId)
      (values : List (OracleKey CurrencyId × FixedU128))
  | insertAuthorizedOracle (origin : OracleOrigin AccountId) (accountId : AccountId)
      (name : List UInt8)
  | removeAuthorizedOracle (origin : OracleOrigin AccountId) (accountId : AccountId)
  deriving DecidableEq

namespace Oracle

variable {AccountId CurrencyId : Type} [LinearOrder AccountId] [LinearOrder CurrencyId]

/-- At first nothing is fed. -/
def genesis (maxDelay : ℕ) (authorizedOracles : AccountId → Option (List UInt8)) :
    Oracle AccountId CurrencyId where
  now := 0
  aggregate _ := none
  rawValues _ := .empty
  rawValuesUpdated := .empty
  validUntil _ := none
  maxDelay := maxDelay
  authorizedOracles := authorizedOracles

/-- What each call does. -/
def dispatch : OracleOp AccountId CurrencyId → OracleCall AccountId CurrencyId Unit
  | .beginBlock => modify beginBlock
  | .feedValues origin values => feedValues origin values
  | .insertAuthorizedOracle origin accountId name => insertAuthorizedOracle origin accountId name
  | .removeAuthorizedOracle origin accountId => removeAuthorizedOracle origin accountId

/-- Take an operation at a time. -/
def step (s : Oracle AccountId CurrencyId) (x : ℕ × OracleOp AccountId CurrencyId) :
    Oracle AccountId CurrencyId :=
  (dispatch x.2).commit { s with now := x.1 }

end Oracle

end Interbtc
