import Interbtc.Currency.Amount

/-!
# Rates of the lending markets

Parts per million, the fixed-point operations that interest is computed with, and the two
models that turn the utilization of a market into its borrow rate.
-/

namespace Interbtc

/-! ## Parts per million -/

/-- A share of at most the whole, in parts per million. -/
structure Permill where
  parts : ℕ
  upper : parts ≤ 10 ^ 6
  deriving DecidableEq

namespace Permill

/-- Parts per million. -/
def ACCURACY : ℕ := 10 ^ 6

/-- There are parts. -/
theorem ACCURACY_pos : 0 < ACCURACY := by decide

/-- None of a whole. -/
def zero : Permill := ⟨0, Nat.zero_le _⟩

/-- All of a whole. -/
def one : Permill := ⟨ACCURACY, le_rfl⟩

/-- The difference, never below zero. -/
def saturatingSub (a b : Permill) : Permill :=
  ⟨a.parts - b.parts, (Nat.sub_le _ _).trans a.upper⟩

/-- The share that `p` is of `q`, rounded down. A share of more than the whole is the whole. -/
def fromRational (p q : ℕ) : Permill :=
  if h : q ≠ 0 ∧ p ≤ q then
    ⟨p * ACCURACY / q, Nat.div_le_of_le_mul (Nat.mul_le_mul_right _ h.2)⟩
  else
    one

/-- A part of a number, rounded down. -/
def mulFloor (a : Permill) (x : ℕ) : ℕ := x * a.parts / ACCURACY

/-- A part of a number, rounded up. -/
def mulCeil (a : Permill) (x : ℕ) : ℕ := (x * a.parts + (ACCURACY - 1)) / ACCURACY

/-- A share is at most the whole. -/
theorem mulFloor_le (a : Permill) (x : ℕ) : a.mulFloor x ≤ x :=
  Nat.div_le_of_le_mul (by rw [Nat.mul_comm]; exact Nat.mul_le_mul_right x a.upper)

end Permill

/-- A share of a market, and a rate of interest or of exchange. -/
abbrev Ratio : Type := Permill

/-- A rate, with eighteen decimals. -/
abbrev Rate : Type := FixedU128

/-! ## Fixed-point numbers -/

namespace FixedU128

/-- The sum, if it fits. -/
def checkedAdd (a b : FixedU128) : Option FixedU128 := ofInner (a.inner + b.inner)

/-- The product rounded down, if it fits. -/
def checkedMul (a b : FixedU128) : Option FixedU128 := ofInner (a.inner * b.inner / DIV)

/-- The quotient of two integers, rounded down. -/
def checkedFromRational (n d : ℕ) : Option FixedU128 :=
  if d = 0 then none else ofInner (n * DIV / d)

/-- The product rounded down, or the maximum. -/
def saturatingMul (a b : FixedU128) : FixedU128 :=
  ⟨min (a.inner * b.inner / DIV) maxBalance, Nat.min_le_right _ _⟩

/-- A whole number, or the maximum. -/
def saturatingFromInteger (n : ℕ) : FixedU128 :=
  ⟨min (n * DIV) maxBalance, Nat.min_le_right _ _⟩

/-- A share of the whole is kept exactly. -/
def ofPermill (p : Permill) : FixedU128 :=
  ⟨p.parts * 10 ^ 12, (Nat.mul_le_mul_right _ p.upper).trans (by decide)⟩

/-- Square and multiply, from the lowest bit of the exponent on. -/
def powLoop : (bits exp : ℕ) → (result powVal : FixedU128) → FixedU128
  | 0, _, result, _ => result
  | bits + 1, exp, result, powVal =>
    if exp = 0 then result
    else powLoop bits (exp / 2)
      (if exp % 2 = 1 then result.saturatingMul powVal else result) (powVal.saturatingMul powVal)

/-- An exponent is 32 bits wide. -/
def saturatingPow (a : FixedU128) (exp : ℕ) : FixedU128 := powLoop 32 exp one a

/-- A sum is one of the numbers behind it. -/
theorem checkedAdd_eq_some {a b c : FixedU128} :
    a.checkedAdd b = some c ↔ c.inner = a.inner + b.inner := ofInner_eq_some

/-- A product is one of the numbers behind it, scaled back. -/
theorem checkedMul_eq_some {a b c : FixedU128} :
    a.checkedMul b = some c ↔ c.inner = a.inner * b.inner / DIV := ofInner_eq_some

/-- A product of factors of at least one is at least one. -/
theorem one_le_saturatingMul {a b : FixedU128} (ha : DIV ≤ a.inner) (hb : DIV ≤ b.inner) :
    DIV ≤ (a.saturatingMul b).inner := by
  refine Nat.le_min.mpr ⟨?_, by decide⟩
  rw [Nat.le_div_iff_mul_le DIV_pos]
  exact Nat.mul_le_mul ha hb

private theorem one_le_powLoop {bits exp : ℕ} {result powVal : FixedU128} (hr : DIV ≤ result.inner)
    (hp : DIV ≤ powVal.inner) : DIV ≤ (powLoop bits exp result powVal).inner := by
  induction bits generalizing exp result powVal with
  | zero => exact hr
  | succ bits ih =>
    unfold powLoop
    split
    · exact hr
    · refine ih ?_ (one_le_saturatingMul hp hp)
      split
      · exact one_le_saturatingMul hr hp
      · exact hr

/-- Powers of at least one are at least one. -/
theorem one_le_saturatingPow {a : FixedU128} (ha : DIV ≤ a.inner) (exp : ℕ) :
    DIV ≤ (a.saturatingPow exp).inner :=
  one_le_powLoop le_rfl ha

end FixedU128

/-! ## Interest rate models -/

/-- The rate rises linearly to a point of utilization, and faster beyond it. -/
structure JumpModel where
  baseRate : Rate
  jumpRate : Rate
  fullRate : Rate
  jumpUtilization : Ratio
  deriving DecidableEq

namespace JumpModel

/-- 10%. -/
def maxBaseRate : ℕ := 10 ^ 17

/-- 100%. -/
def maxJumpRate : ℕ := 10 ^ 18

/-- 500%. -/
def maxFullRate : ℕ := 5 * 10 ^ 18

/-- The rates are within their bounds and in order. -/
def checkModel (m : JumpModel) : Bool :=
  decide (m.baseRate.inner ≤ maxBaseRate ∧ m.jumpRate.inner ≤ maxJumpRate ∧
    m.fullRate.inner ≤ maxFullRate ∧ m.baseRate.inner ≤ m.jumpRate.inner ∧
    m.jumpRate.inner ≤ m.fullRate.inner)

/-- The rate rises slowly up to the jump, and fast from there. -/
def getBorrowRate (m : JumpModel) (utilization : Ratio) : Option Rate := do
  if utilization.parts ≤ m.jumpUtilization.parts then
    let spread ← m.jumpRate.checkedSub m.baseRate
    let slope ← (spread.saturatingMul (.ofPermill utilization)).checkedDiv
      (.ofPermill m.jumpUtilization)
    slope.checkedAdd m.baseRate
  else
    let excessUtil := utilization.saturatingSub m.jumpUtilization
    let spread ← m.fullRate.checkedSub m.jumpRate
    let slope ← (spread.saturatingMul (.ofPermill excessUtil)).checkedDiv
      (.ofPermill (Permill.one.saturatingSub m.jumpUtilization))
    slope.checkedAdd m.jumpRate

end JumpModel

/-- The rate rises with the ninth power of the utilization. -/
structure CurveModel where
  baseRate : Rate
  deriving DecidableEq

namespace CurveModel

/-- 10%. -/
def maxBaseRate : ℕ := 10 ^ 17

/-- The base rate is within its bound. -/
def checkModel (m : CurveModel) : Bool := decide (m.baseRate.inner ≤ maxBaseRate)

/-- The rate rises with the ninth power of the utilization. -/
def getBorrowRate (m : CurveModel) (utilization : Ratio) : Option Rate :=
  ((FixedU128.ofPermill utilization).saturatingPow 9).checkedAdd m.baseRate

end CurveModel

/-- How the rate follows the utilization. -/
inductive InterestRateModel
  | jump (m : JumpModel)
  | curve (m : CurveModel)
  deriving DecidableEq

namespace InterestRateModel

/-- The check of either kind of model. -/
def checkModel : InterestRateModel → Bool
  | .jump m => m.checkModel
  | .curve m => m.checkModel

/-- The rate of either kind of model. -/
def getBorrowRate : InterestRateModel → Ratio → Option Rate
  | .jump m => m.getBorrowRate
  | .curve m => m.getBorrowRate

/-- What suppliers get of the interest. -/
def getSupplyRate (borrowRate : Rate) (util reserveFactor : Ratio) : Rate :=
  let oneMinusReserveFactor := Permill.one.saturatingSub reserveFactor
  let rateToPool := borrowRate.saturatingMul (.ofPermill oneMinusReserveFactor)
  rateToPool.saturatingMul (.ofPermill util)

end InterestRateModel

end Interbtc
