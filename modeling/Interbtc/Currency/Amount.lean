import Interbtc.Core.Call
import Interbtc.Primitives

/-!
# Amounts

A balance together with its currency. Arithmetic on two amounts checks that the
currencies agree; products and quotients with a fixed-point rate are rounded.
-/

namespace Interbtc

open Core

/-- Balances are 128 bits wide. -/
def maxBalance : ℕ := 2 ^ 128 - 1

/-- A 128-bit unsigned fixed-point number, stored as a multiple of `1 / DIV`. -/
structure FixedU128 where
  inner : ℕ
  upper : inner ≤ maxBalance
  deriving DecidableEq

namespace FixedU128

/-- The scale of the stored integer. -/
def DIV : ℕ := 10 ^ 18

/-- There are parts. -/
theorem DIV_pos : 0 < DIV := by decide

/-- The number zero. -/
def zero : FixedU128 := ⟨0, Nat.zero_le _⟩

/-- The number one. -/
def one : FixedU128 := ⟨DIV, by decide⟩

/-- The number with the given stored integer, if it fits. -/
def ofInner (n : ℕ) : Option FixedU128 :=
  if h : n ≤ maxBalance then some ⟨n, h⟩ else none

/-- The larger number. -/
def max (a b : FixedU128) : FixedU128 := if a.inner ≤ b.inner then b else a

/-- The difference, if it is not negative. -/
def checkedSub (a b : FixedU128) : Option FixedU128 :=
  if b.inner ≤ a.inner then ofInner (a.inner - b.inner) else none

/-- The difference, or zero where it would be negative. -/
def saturatingSub (a b : FixedU128) : FixedU128 :=
  ⟨a.inner - b.inner, (Nat.sub_le _ _).trans a.upper⟩

/-- The quotient, rounded down, if it is in range. -/
def checkedDiv (a b : FixedU128) : Option FixedU128 :=
  if b.inner = 0 then none else ofInner (a.inner * DIV / b.inner)

/-- A number in range has the inner value it was made of. -/
theorem ofInner_eq_some {n : ℕ} {a : FixedU128} : ofInner n = some a ↔ a.inner = n := by
  unfold ofInner
  constructor
  · intro h
    split at h
    · exact (congrArg inner (Option.some.inj h)).symm
    · cases h
  · rintro rfl
    exact dif_pos a.upper

/-- The difference of the inner values, where it is not negative. -/
theorem checkedSub_eq_some {a b c : FixedU128} :
    a.checkedSub b = some c ↔ b.inner ≤ a.inner ∧ c.inner = a.inner - b.inner := by
  rw [checkedSub, Option.ite_none_right_eq_some, ofInner_eq_some]

/-- The quotient of the inner values, rounded down. -/
theorem checkedDiv_eq_some {a b c : FixedU128} :
    a.checkedDiv b = some c ↔ b.inner ≠ 0 ∧ c.inner = a.inner * DIV / b.inner := by
  rw [checkedDiv, Option.ite_none_left_eq_some, ofInner_eq_some]

end FixedU128

/-- How a quotient that is not whole is rounded. -/
inductive RoundingMode
  | up
  | down
  | nearestPrefUp
  deriving DecidableEq

/-- `a * b / c`, computed without intermediate overflow. -/
def multiplyByRationalWithRounding (a b c : ℕ) (r : RoundingMode) : Option ℕ :=
  if c = 0 then
    none
  else
    let remainder := a * b % c
    let roundsUp := match r with
      | .up => decide (0 < remainder)
      | .down => false
      | .nearestPrefUp => decide (c / 2 + c % 2 ≤ remainder)
    let result := if roundsUp then a * b / c + 1 else a * b / c
    if result ≤ maxBalance then some result else none

/-- A share of at most the whole is computed, and is at most the whole, however it is rounded. -/
theorem multiplyByRationalWithRounding_le {a b c : ℕ} (r : RoundingMode) (hc : 0 < c) (hb : b ≤ c)
    (ha : a ≤ maxBalance) : ∃ n ≤ a, multiplyByRationalWithRounding a b c r = some n := by
  have hle : a * b ≤ a * c := Nat.mul_le_mul_left a hb
  have hdiv : a * b / c ≤ a := Nat.div_le_of_le_mul (by rwa [Nat.mul_comm c a])
  have hup (hr : 0 < a * b % c) : a * b / c + 1 ≤ a := by
    refine Nat.lt_of_mul_lt_mul_right (a := c) ?_
    have := Nat.div_add_mod (a * b) c
    rw [Nat.mul_comm c] at this
    omega
  unfold multiplyByRationalWithRounding
  rw [if_neg hc.ne']
  cases r with
  | up =>
    by_cases hr : 0 < a * b % c
    · exact ⟨_, hup hr, by simp [hr, (hup hr).trans ha]⟩
    · exact ⟨_, hdiv, by simp [hr, hdiv.trans ha]⟩
  | down => exact ⟨_, hdiv, by simp [hdiv.trans ha]⟩
  | nearestPrefUp =>
    by_cases hr : c / 2 + c % 2 ≤ a * b % c
    · have hpos : 0 < a * b % c := by omega
      exact ⟨_, hup hpos, by simp [hr, (hup hpos).trans ha]⟩
    · exact ⟨_, hdiv, by simp [hr, hdiv.trans ha]⟩

private theorem multiplyByRationalWithRounding_down_eq_some {a b c n : ℕ} :
    multiplyByRationalWithRounding a b c .down = some n ↔
      c ≠ 0 ∧ a * b / c ≤ maxBalance ∧ a * b / c = n := by
  unfold multiplyByRationalWithRounding
  by_cases hc : c = 0
  · simp [hc]
  · by_cases hle : a * b / c ≤ maxBalance <;> simp [hc, hle]

/-- Rounding up adds what is missing to the next multiple. -/
theorem multiplyByRationalWithRounding_up_eq_some {a b c n : ℕ}
    (h : multiplyByRationalWithRounding a b c .up = some n) :
    n * c = a * b + (c - a * b % c) % c := by
  unfold multiplyByRationalWithRounding at h
  by_cases hc : c = 0
  · simp [hc] at h
  have hdiv := Nat.div_add_mod (a * b) c
  rw [Nat.mul_comm c] at hdiv
  by_cases hr : 0 < a * b % c
  · simp only [hc, hr, if_false, decide_true, if_true, Option.ite_none_right_eq_some,
      Option.some.injEq] at h
    have hlt := Nat.mod_lt (a * b) (Nat.pos_of_ne_zero hc)
    rw [← h.2, Nat.add_mul, Nat.one_mul, Nat.mod_eq_of_lt (a := c - a * b % c) (by omega)]
    omega
  · simp only [hc, hr, if_false, decide_false, Bool.false_eq_true, Option.ite_none_right_eq_some,
      Option.some.injEq] at h
    have hzero : a * b % c = 0 := Nat.eq_zero_of_not_pos hr
    rw [← h.2, hzero, Nat.sub_zero, Nat.mod_self]
    omega

/-- Rounding to the nearest adds at most one half. -/
theorem multiplyByRationalWithRounding_nearest_le {a b c n : ℕ}
    (h : multiplyByRationalWithRounding a b c .nearestPrefUp = some n) :
    2 * (n * c) ≤ 2 * (a * b) + c := by
  unfold multiplyByRationalWithRounding at h
  by_cases hc : c = 0
  · simp [hc]
  have hdiv := Nat.div_add_mod (a * b) c
  rw [Nat.mul_comm c] at hdiv
  by_cases hr : c / 2 + c % 2 ≤ a * b % c
  · simp only [hc, hr, if_false, decide_true, if_true, Option.ite_none_right_eq_some,
      Option.some.injEq] at h
    rw [← h.2, Nat.add_mul]
    omega
  · simp only [hc, hr, if_false, decide_false, Bool.false_eq_true, Option.ite_none_right_eq_some,
      Option.some.injEq] at h
    rw [← h.2]
    omega

/-- An amount of one currency. -/
structure Amount (CurrencyId : Type) where
  amount : ℕ
  currencyId : CurrencyId
  deriving DecidableEq

namespace Amount

variable {CurrencyId : Type}

/-- Nothing, in a currency. -/
def zero (currencyId : CurrencyId) : Amount CurrencyId := ⟨0, currencyId⟩

/-- Nothing, in any currency. -/
def isZero (x : Amount CurrencyId) : Prop := x.amount = 0

instance (x : Amount CurrencyId) : Decidable x.isZero := inferInstanceAs (Decidable (_ = _))

/-- An amount is zero if its number is. -/
@[simp] theorem isZero_iff {x : Amount CurrencyId} : x.isZero ↔ x.amount = 0 := Iff.rfl

/-- The default product with a rate rounds down. -/
def checkedRoundedMul (x : Amount CurrencyId) (scalar : FixedU128) (r : RoundingMode) :
    Except DispatchError (Amount CurrencyId) := do
  let amount ← okOr (.arithmetic .overflow)
    (multiplyByRationalWithRounding x.amount scalar.inner FixedU128.DIV r)
  return ⟨amount, x.currencyId⟩

/-- A product rounded down, if it fits. -/
def checkedMul (x : Amount CurrencyId) (scalar : FixedU128) :
    Except DispatchError (Amount CurrencyId) :=
  x.checkedRoundedMul scalar .down

/-- The quotient with a rate, rounded down. -/
def checkedDiv (x : Amount CurrencyId) (scalar : FixedU128) :
    Except DispatchError (Amount CurrencyId) := do
  let amount ← okOr (.arithmetic .overflow)
    (multiplyByRationalWithRounding x.amount FixedU128.DIV scalar.inner .down)
  return ⟨amount, x.currencyId⟩

variable [DecidableEq CurrencyId]

/-- Amounts are only combined within one currency. -/
def ensureSameCurrency (x y : Amount CurrencyId) : Except DispatchError Unit :=
  if x.currencyId = y.currencyId then .ok () else .error (.currency .invalidCurrency)

/-- The sum, if it is in range. -/
def checkedAdd (x y : Amount CurrencyId) : Except DispatchError (Amount CurrencyId) := do
  ensureSameCurrency x y
  if x.amount + y.amount ≤ maxBalance then
    return ⟨x.amount + y.amount, x.currencyId⟩
  else
    throw (.arithmetic .overflow)

/-- The difference, if it is not negative. -/
def checkedSub (x y : Amount CurrencyId) : Except DispatchError (Amount CurrencyId) := do
  ensureSameCurrency x y
  if y.amount ≤ x.amount then
    return ⟨x.amount - y.amount, x.currencyId⟩
  else
    throw (.arithmetic .underflow)

/-- The difference, or nothing where it would be negative. -/
def saturatingSub (x y : Amount CurrencyId) : Except DispatchError (Amount CurrencyId) := do
  ensureSameCurrency x y
  return ⟨x.amount - y.amount, x.currencyId⟩

/-- The smaller amount. -/
def min (x y : Amount CurrencyId) : Except DispatchError (Amount CurrencyId) := do
  ensureSameCurrency x y
  return if x.amount ≤ y.amount then x else y

/-- Less than. -/
def lt (x y : Amount CurrencyId) : Except DispatchError Bool := do
  ensureSameCurrency x y
  return decide (x.amount < y.amount)

/-- At most. -/
def le (x y : Amount CurrencyId) : Except DispatchError Bool := do
  ensureSameCurrency x y
  return decide (x.amount ≤ y.amount)

/-- As much as. -/
def eq (x y : Amount CurrencyId) : Except DispatchError Bool := do
  ensureSameCurrency x y
  return decide (x.amount = y.amount)

/-- Another amount, of the same currency. -/
def ne (x y : Amount CurrencyId) : Except DispatchError Bool := do
  let same ← x.eq y
  return !same

/-- At least. -/
def ge (x y : Amount CurrencyId) : Except DispatchError Bool := do
  ensureSameCurrency x y
  return decide (y.amount ≤ x.amount)

/-- More than. -/
def gt (x y : Amount CurrencyId) : Except DispatchError Bool := do
  ensureSameCurrency x y
  return decide (y.amount < x.amount)

/-! ## What a successful operation returns -/

variable {x y z : Amount CurrencyId} {b : Bool}

/-- Amounts can be combined within one currency. -/
theorem ensureSameCurrency_eq_ok {u : Unit} :
    ensureSameCurrency x y = .ok u ↔ x.currencyId = y.currencyId := by
  unfold ensureSameCurrency
  split <;> simp [*]

/-- Amounts are added within one currency and within the range of balances. -/
theorem checkedAdd_eq_ok : x.checkedAdd y = .ok z ↔
    x.currencyId = y.currencyId ∧ x.amount + y.amount ≤ maxBalance ∧
      ⟨x.amount + y.amount, x.currencyId⟩ = z := by
  simp only [checkedAdd, except_bind_eq_ok, ensureSameCurrency_eq_ok, except_ite_eq_ok,
    except_pure_eq_ok, except_throw_eq_ok, and_false, or_false, exists_const]

/-- Amounts are subtracted within one currency, down to zero. -/
theorem checkedSub_eq_ok : x.checkedSub y = .ok z ↔
    x.currencyId = y.currencyId ∧ y.amount ≤ x.amount ∧
      ⟨x.amount - y.amount, x.currencyId⟩ = z := by
  simp only [checkedSub, except_bind_eq_ok, ensureSameCurrency_eq_ok, except_ite_eq_ok,
    except_pure_eq_ok, except_throw_eq_ok, and_false, or_false, exists_const]

/-- Within one currency the difference is cut at zero. -/
theorem saturatingSub_eq_ok : x.saturatingSub y = .ok z ↔
    x.currencyId = y.currencyId ∧ ⟨x.amount - y.amount, x.currencyId⟩ = z := by
  simp only [saturatingSub, except_bind_eq_ok, ensureSameCurrency_eq_ok, except_pure_eq_ok,
    exists_const]

/-- Within one currency there is a smaller amount. -/
theorem min_eq_ok : x.min y = .ok z ↔
    x.currencyId = y.currencyId ∧ ⟨Nat.min x.amount y.amount, x.currencyId⟩ = z := by
  simp only [min, except_bind_eq_ok, ensureSameCurrency_eq_ok, except_pure_eq_ok, exists_const]
  refine and_congr_right fun hc => ?_
  obtain ⟨n, c⟩ := x
  obtain ⟨m, d⟩ := y
  obtain rfl : c = d := hc
  rcases Nat.le_total n m with h | h
  · simp [h]
  · rcases h.eq_or_lt with rfl | h
    · simp
    · simp [not_le.mpr h, h.le]

/-- Amounts are compared within one currency. -/
theorem lt_eq_ok : x.lt y = .ok b ↔
    x.currencyId = y.currencyId ∧ decide (x.amount < y.amount) = b := by
  simp only [lt, except_bind_eq_ok, ensureSameCurrency_eq_ok, except_pure_eq_ok, exists_const]

/-- Only amounts of one currency compare. -/
theorem le_eq_ok : x.le y = .ok b ↔
    x.currencyId = y.currencyId ∧ decide (x.amount ≤ y.amount) = b := by
  simp only [le, except_bind_eq_ok, ensureSameCurrency_eq_ok, except_pure_eq_ok, exists_const]

/-- Only amounts of one currency compare. -/
theorem ge_eq_ok : x.ge y = .ok b ↔
    x.currencyId = y.currencyId ∧ decide (y.amount ≤ x.amount) = b := by
  simp only [ge, except_bind_eq_ok, ensureSameCurrency_eq_ok, except_pure_eq_ok, exists_const]

/-- Only amounts of one currency compare. -/
theorem gt_eq_ok : x.gt y = .ok b ↔
    x.currencyId = y.currencyId ∧ decide (y.amount < x.amount) = b := by
  simp only [gt, except_bind_eq_ok, ensureSameCurrency_eq_ok, except_pure_eq_ok, exists_const]

section

omit [DecidableEq CurrencyId]

/-- The product with a rate is rounded down and has to be in range. -/
theorem checkedMul_eq_ok {rate : FixedU128} : x.checkedMul rate = .ok z ↔
    x.amount * rate.inner / FixedU128.DIV ≤ maxBalance ∧
      ⟨x.amount * rate.inner / FixedU128.DIV, x.currencyId⟩ = z := by
  simp only [checkedMul, checkedRoundedMul, except_bind_eq_ok, okOr_eq_ok, except_pure_eq_ok,
    multiplyByRationalWithRounding_down_eq_some, FixedU128.DIV_pos.ne', ne_eq, not_false_eq_true,
    true_and, and_assoc, exists_and_left, exists_eq_left']

/-- The quotient with a rate is rounded down and has to be in range. -/
theorem checkedDiv_eq_ok {rate : FixedU128} : x.checkedDiv rate = .ok z ↔
    rate.inner ≠ 0 ∧ x.amount * FixedU128.DIV / rate.inner ≤ maxBalance ∧
      ⟨x.amount * FixedU128.DIV / rate.inner, x.currencyId⟩ = z := by
  simp only [checkedDiv, except_bind_eq_ok, okOr_eq_ok, except_pure_eq_ok,
    multiplyByRationalWithRounding_down_eq_some, and_assoc, exists_and_left, exists_eq_left']

/-- A share at a rate of at most one is computed, and is at most the whole. -/
theorem checkedRoundedMul_le {rate : FixedU128} (r : RoundingMode)
    (hrate : rate.inner ≤ FixedU128.DIV) (hmax : x.amount ≤ maxBalance) :
    ∃ n ≤ x.amount, x.checkedRoundedMul rate r = .ok ⟨n, x.currencyId⟩ := by
  obtain ⟨n, hn, h⟩ := multiplyByRationalWithRounding_le r FixedU128.DIV_pos hrate hmax
  refine ⟨n, hn, ?_⟩
  rw [checkedRoundedMul, h]
  rfl

end

/-! ## What a failed operation raises -/

variable {e : DispatchError}

private theorem ensureSameCurrency_eq_error :
    ensureSameCurrency x y = .error e ↔
      x.currencyId ≠ y.currencyId ∧ .currency .invalidCurrency = e := by
  unfold ensureSameCurrency
  split <;> simp [*]

/-- A sum fails between two currencies, or out of range. -/
theorem checkedAdd_eq_error : x.checkedAdd y = .error e ↔
    (x.currencyId ≠ y.currencyId ∧ .currency .invalidCurrency = e) ∨
      x.currencyId = y.currencyId ∧ maxBalance < x.amount + y.amount ∧
        .arithmetic .overflow = e := by
  simp only [checkedAdd, except_bind_eq_error, ensureSameCurrency_eq_error,
    ensureSameCurrency_eq_ok, except_ite_eq_error, except_pure_eq_error, except_throw_eq_error,
    and_false, false_or, not_le, exists_const]

/-- An amount is not below itself. -/
theorem lt_self : x.lt x = .ok false := lt_eq_ok.mpr ⟨rfl, decide_eq_false (Nat.lt_irrefl _)⟩

/-- An amount is not above itself. -/
theorem gt_self : x.gt x = .ok false := gt_eq_ok.mpr ⟨rfl, decide_eq_false (Nat.lt_irrefl _)⟩

end Amount

end Interbtc
