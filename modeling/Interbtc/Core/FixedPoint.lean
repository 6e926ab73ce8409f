import Mathlib.Data.Rat.Floor
import Mathlib.Data.Rat.Lemmas
import Mathlib.Tactic.FieldSimp
import Mathlib.Tactic.Linarith
import Mathlib.Tactic.Positivity
import Mathlib.Tactic.Ring

/-!
# Fixed-point numbers

The operations a ledger uses of a signed fixed-point number, the laws that tie
them to the rationals, and two instances: the exact rationals, where nothing is
rounded, and a 128-bit number with eighteen decimals.
-/

namespace Core

/-! ## Rounding -/

/-- Drop the fractional part of a rational number. -/
def truncate (q : ℚ) : ℤ := if 0 ≤ q then ⌊q⌋ else ⌈q⌉

/-- What is not negative is truncated to its floor. -/
theorem truncate_of_nonneg {q : ℚ} (hq : 0 ≤ q) : truncate q = ⌊q⌋ := if_pos hq

@[simp] theorem truncate_intCast (i : ℤ) : truncate (i : ℚ) = i := by
  unfold truncate
  split <;> simp

@[simp] theorem truncate_zero : truncate 0 = 0 := by
  simpa using truncate_intCast 0

/-- Truncation is towards zero, on both sides of it. -/
theorem truncate_neg (q : ℚ) : truncate (-q) = -truncate q := by
  unfold truncate
  rcases lt_trichotomy q 0 with h | rfl | h
  · rw [if_pos (by linarith), if_neg (by linarith), Int.floor_neg]
  · simp
  · rw [if_neg (by linarith), if_pos h.le, Int.ceil_neg]

/-- Truncation keeps the sign. -/
theorem truncate_nonneg {q : ℚ} (hq : 0 ≤ q) : 0 ≤ truncate q := by
  rw [truncate_of_nonneg hq]
  exact Int.floor_nonneg.mpr hq

/-- Truncation does not raise what is not negative. -/
theorem truncate_le {q : ℚ} (hq : 0 ≤ q) : (truncate q : ℚ) ≤ q := by
  rw [truncate_of_nonneg hq]
  exact Int.floor_le q

/-- What is not positive is not truncated above zero. -/
theorem truncate_nonpos {q : ℚ} (hq : q ≤ 0) : truncate q ≤ 0 := by
  have h := truncate_nonneg (neg_nonneg.mpr hq)
  rw [truncate_neg] at h
  omega

private theorem truncate_div_of_pos (n : ℤ) {d : ℤ} (hd : 0 < d) :
    truncate ((n : ℚ) / d) = n.tdiv d := by
  have key : ∀ m : ℤ, 0 ≤ m → truncate ((m : ℚ) / d) = m.tdiv d := by
    intro m hm
    obtain ⟨k, rfl⟩ := Int.eq_ofNat_of_zero_le hd.le
    rw [truncate_of_nonneg (by positivity), Int.tdiv_eq_ediv_of_nonneg hm]
    exact Rat.floor_intCast_div_natCast m k
  rcases le_total 0 n with hn | hn
  · exact key n hn
  · have h := key (-n) (by omega)
    rw [Int.neg_tdiv, Int.cast_neg, neg_div, truncate_neg] at h
    omega

/-- Integer division toward zero truncates the exact quotient. -/
theorem truncate_div (n d : ℤ) : truncate ((n : ℚ) / d) = n.tdiv d := by
  rcases lt_trichotomy d 0 with hd | rfl | hd
  · have h := truncate_div_of_pos (-n) (d := -d) (by omega)
    rwa [Int.neg_tdiv_neg, Int.cast_neg, Int.cast_neg, neg_div_neg_eq] at h
  · simp
  · exact truncate_div_of_pos n hd

/-- Rounding toward zero with steps of one `ulp`. -/
structure Rounding where
  round : ℚ → ℚ
  ulp : ℚ
  ulp_nonneg : 0 ≤ ulp
  round_nonneg : ∀ {q}, 0 ≤ q → 0 ≤ round q
  round_le : ∀ {q}, 0 ≤ q → round q ≤ q
  le_round_add : ∀ {q}, 0 ≤ q → q ≤ round q + ulp
  round_add_le : ∀ {p q}, 0 ≤ p → 0 ≤ q → round p + round q ≤ round (p + q)
  round_add_ge : ∀ {p q}, 0 ≤ p → 0 ≤ q → round (p + q) ≤ round p + round q + ulp

namespace Rounding

variable (rd : Rounding)

@[simp] theorem round_zero : rd.round 0 = 0 :=
  le_antisymm (rd.round_le le_rfl) (rd.round_nonneg le_rfl)

/-- Rounding keeps the order of what is not negative. -/
theorem round_mono {p q : ℚ} (hp : 0 ≤ p) (hpq : p ≤ q) : rd.round p ≤ rd.round q := by
  have h := rd.round_add_le hp (sub_nonneg.mpr hpq)
  have hq := rd.round_nonneg (sub_nonneg.mpr hpq)
  rw [add_sub_cancel] at h
  linarith

/-- No rounding at all. -/
def exact : Rounding where
  round q := q
  ulp := 0
  ulp_nonneg := le_rfl
  round_nonneg h := h
  round_le _ := le_rfl
  le_round_add _ := by simp
  round_add_le _ _ := le_rfl
  round_add_ge _ _ := by simp

@[simp] theorem exact_round (q : ℚ) : exact.round q = q := rfl

@[simp] theorem exact_ulp : exact.ulp = 0 := rfl

/-- Truncation to multiples of `1 / scale`. -/
def scaled (scale : ℕ) (hscale : 0 < scale) : Rounding where
  round q := truncate (q * scale) / scale
  ulp := 1 / scale
  ulp_nonneg := by positivity
  round_nonneg := by
    intro q hq
    have h := truncate_nonneg (q := q * scale) (by positivity)
    positivity
  round_le := by
    intro q hq
    rw [div_le_iff₀ (by positivity)]
    exact truncate_le (by positivity)
  le_round_add := by
    intro q hq
    rw [truncate_of_nonneg (by positivity), ← add_div, le_div_iff₀ (by positivity)]
    exact (Int.lt_floor_add_one _).le
  round_add_le := by
    intro p q hp hq
    rw [truncate_of_nonneg (by positivity), truncate_of_nonneg (by positivity),
      truncate_of_nonneg (by positivity), ← add_div, add_mul]
    gcongr
    exact_mod_cast Int.le_floor_add _ _
  round_add_ge := by
    intro p q hp hq
    rw [truncate_of_nonneg (by positivity), truncate_of_nonneg (by positivity),
      truncate_of_nonneg (by positivity), ← add_div, ← add_div, add_mul]
    gcongr
    have h : ⌊(p * scale : ℚ) + q * scale⌋ ≤ ⌊(p * scale : ℚ)⌋ + ⌊(q * scale : ℚ)⌋ + 1 := by
      have := Int.le_floor_add_floor (p * scale : ℚ) (q * scale)
      omega
    exact_mod_cast h

end Rounding

/-! ## The operations and their laws -/

/-- The checked operations of a signed fixed-point number. -/
class FixedPointNumber (F : Type) extends LinearOrder F, Zero F where
  checkedAdd : F → F → Option F
  checkedSub : F → F → Option F
  checkedMul : F → F → Option F
  checkedDiv : F → F → Option F
  checkedFromInteger : ℤ → Option F
  truncateToInner : F → Option ℤ

/-- What the checked operations compute: sums, differences and conversions are exact,
products and quotients are rounded. -/
class LawfulFixedPoint (F : Type) [FixedPointNumber F] where
  toRat : F → ℚ
  rounding : Rounding
  toRat_zero : toRat 0 = 0
  toRat_le_iff : ∀ {a b : F}, toRat a ≤ toRat b ↔ a ≤ b
  ulp_le : ∀ {a : F}, 0 < toRat a → rounding.ulp ≤ toRat a
  toRat_add : ∀ {a b c : F}, FixedPointNumber.checkedAdd a b = some c →
    toRat c = toRat a + toRat b
  toRat_sub : ∀ {a b c : F}, FixedPointNumber.checkedSub a b = some c →
    toRat c = toRat a - toRat b
  toRat_mul : ∀ {a b c : F}, FixedPointNumber.checkedMul a b = some c →
    toRat c = rounding.round (toRat a * toRat b)
  toRat_div : ∀ {a b c : F}, FixedPointNumber.checkedDiv a b = some c →
    toRat c = rounding.round (toRat a / toRat b)
  toRat_fromInteger : ∀ {i : ℤ} {c : F}, FixedPointNumber.checkedFromInteger i = some c →
    toRat c = i
  truncateToInner_eq : ∀ {a : F} {i : ℤ}, FixedPointNumber.truncateToInner a = some i →
    i = truncate (toRat a)

namespace LawfulFixedPoint

variable {F : Type} [FixedPointNumber F] [LawfulFixedPoint F]

attribute [simp] toRat_zero

/-- Fixed point numbers of one value are one number. -/
theorem toRat_inj {a b : F} : toRat a = toRat b ↔ a = b := by
  rw [le_antisymm_iff, le_antisymm_iff, toRat_le_iff, toRat_le_iff]

@[simp] theorem toRat_eq_zero {a : F} : toRat a = 0 ↔ a = 0 := by
  rw [← toRat_zero (F := F), toRat_inj]

/-- A number and its value have one sign. -/
theorem toRat_nonneg {a : F} : 0 ≤ toRat a ↔ 0 ≤ a := by
  rw [← toRat_zero (F := F), toRat_le_iff]

/-- The larger number has the larger value. -/
theorem toRat_max (a b : F) : toRat (max a b) = max (toRat a) (toRat b) := by
  rcases le_total a b with h | h
  · rw [max_eq_right h, max_eq_right (toRat_le_iff.mpr h)]
  · rw [max_eq_left h, max_eq_left (toRat_le_iff.mpr h)]

end LawfulFixedPoint

/-- Which rationals the type can hold: a difference or a product is refused exactly where it
is not one of them. -/
class RangedFixedPoint (F : Type) [FixedPointNumber F] [LawfulFixedPoint F] where
  Fits : ℚ → Prop
  exists_checkedSub_iff : ∀ {a b : F}, (∃ c, FixedPointNumber.checkedSub a b = some c) ↔
    Fits (LawfulFixedPoint.toRat a - LawfulFixedPoint.toRat b)
  exists_checkedMul_iff : ∀ {a b : F}, (∃ c, FixedPointNumber.checkedMul a b = some c) ↔
    Fits ((LawfulFixedPoint.rounding F).round
      (LawfulFixedPoint.toRat a * LawfulFixedPoint.toRat b))

/-! ## Exact rationals -/

instance : FixedPointNumber ℚ where
  checkedAdd a b := some (a + b)
  checkedSub a b := some (a - b)
  checkedMul a b := some (a * b)
  checkedDiv a b := if b = 0 then none else some (a / b)
  checkedFromInteger i := some i
  truncateToInner a := some (truncate a)

instance : LawfulFixedPoint ℚ where
  toRat a := a
  rounding := .exact
  toRat_zero := rfl
  toRat_le_iff := Iff.rfl
  ulp_le h := h.le
  toRat_add h := (Option.some.inj h).symm
  toRat_sub h := (Option.some.inj h).symm
  toRat_mul h := (Option.some.inj h).symm
  toRat_div := by
    intro a b c h
    change (if b = 0 then none else some (a / b)) = some c at h
    split at h
    · cases h
    · exact (Option.some.inj h).symm
  toRat_fromInteger h := (Option.some.inj h).symm
  truncateToInner_eq h := (Option.some.inj h).symm

@[simp] theorem rounding_rat : LawfulFixedPoint.rounding ℚ = Rounding.exact := rfl

instance : RangedFixedPoint ℚ where
  Fits _ := True
  exists_checkedSub_iff := iff_true_intro ⟨_, rfl⟩
  exists_checkedMul_iff := iff_true_intro ⟨_, rfl⟩

/-! ## 128-bit numbers with eighteen decimals -/

/-- A 128-bit signed fixed-point number, stored as a multiple of `1 / DIV`. -/
@[ext] structure FixedI128 where
  inner : ℤ
  lower : -2 ^ 127 ≤ inner
  upper : inner < 2 ^ 127
  deriving DecidableEq

namespace FixedI128

/-- The scale of the stored integer. -/
def DIV : ℕ := 10 ^ 18

theorem DIV_pos : 0 < DIV := by decide

/-- The number with the given stored integer, if it fits. -/
def ofInner (i : ℤ) : Option FixedI128 :=
  if h : -2 ^ 127 ≤ i ∧ i < 2 ^ 127 then some ⟨i, h.1, h.2⟩ else none

/-- A number that is in range has the inner value it was made of. -/
theorem inner_of_ofInner {i : ℤ} {c : FixedI128} (h : ofInner i = some c) : c.inner = i := by
  unfold ofInner at h
  split at h
  · exact (congrArg inner (Option.some.inj h)).symm
  · cases h

instance : LinearOrder FixedI128 :=
  LinearOrder.lift' inner fun _ _ h => FixedI128.ext h

instance : FixedPointNumber FixedI128 where
  zero := ⟨0, by decide, by decide⟩
  checkedAdd a b := ofInner (a.inner + b.inner)
  checkedSub a b := ofInner (a.inner - b.inner)
  checkedMul a b := ofInner ((a.inner * b.inner).tdiv DIV)
  checkedDiv a b := if b.inner = 0 then none else ofInner ((a.inner * DIV).tdiv b.inner)
  checkedFromInteger i := ofInner (i * DIV)
  truncateToInner a := some (a.inner.tdiv DIV)

/-- A whole number. -/
def whole (n : UInt64) : {a : FixedI128 // 0 ≤ a} :=
  ⟨⟨n.toNat * DIV, by rw [DIV]; omega, by have := n.toNat_lt; rw [DIV]; omega⟩, by
    change (0 : ℤ) ≤ n.toNat * DIV
    rw [DIV]
    omega⟩

private theorem DIV_cast_pos : (0 : ℚ) < DIV := by exact_mod_cast DIV_pos

instance : LawfulFixedPoint FixedI128 where
  toRat a := a.inner / DIV
  rounding := .scaled DIV DIV_pos
  toRat_zero := by
    change ((0 : ℤ) : ℚ) / DIV = 0
    simp
  toRat_le_iff := by
    intro a b
    rw [div_le_div_iff_of_pos_right DIV_cast_pos]
    exact Int.cast_le
  ulp_le := by
    intro a h
    rw [div_pos_iff_of_pos_right DIV_cast_pos] at h
    change 1 / (DIV : ℚ) ≤ a.inner / DIV
    have h₁ : 0 < a.inner := by exact_mod_cast h
    have h₂ : (1 : ℚ) ≤ a.inner := by exact_mod_cast h₁
    have := DIV_cast_pos
    gcongr
  toRat_add := by
    intro a b c h
    rw [inner_of_ofInner h]
    push_cast
    ring
  toRat_sub := by
    intro a b c h
    rw [inner_of_ofInner h]
    push_cast
    ring
  toRat_mul := by
    intro a b c h
    have hD := DIV_cast_pos
    rw [inner_of_ofInner h, ← truncate_div]
    change _ = (truncate _ : ℚ) / _
    congr 3
    push_cast
    field_simp
  toRat_div := by
    intro a b c h
    change (if b.inner = 0 then none else ofInner ((a.inner * DIV).tdiv b.inner)) = some c at h
    split at h
    · cases h
    · have hD := DIV_cast_pos
      have hb : (b.inner : ℚ) ≠ 0 := by exact_mod_cast ‹¬ b.inner = 0›
      rw [inner_of_ofInner h, ← truncate_div]
      change _ = (truncate _ : ℚ) / _
      congr 3
      push_cast
      field_simp
  toRat_fromInteger := by
    intro i c h
    have hD := DIV_cast_pos
    rw [inner_of_ofInner h]
    push_cast
    field_simp
  truncateToInner_eq := by
    intro a i h
    rw [← Option.some.inj h]
    exact (truncate_div a.inner DIV).symm

/-- The range of the inner value is that of an `i128`. -/
theorem exists_ofInner_iff {i : ℤ} :
    (∃ c, ofInner i = some c) ↔ -2 ^ 127 ≤ i ∧ i < 2 ^ 127 := by
  unfold ofInner
  split
  · rename_i h
    exact iff_of_true ⟨_, rfl⟩ h
  · rename_i h
    exact iff_of_false (fun ⟨_, hc⟩ => nomatch hc) h

/-- A rational that a 128-bit number can hold, once it is rounded to eighteen decimals. -/
def InRange (q : ℚ) : Prop := -2 ^ 127 ≤ q * DIV ∧ q * DIV < 2 ^ 127

instance (q : ℚ) : Decidable (InRange q) :=
  inferInstanceAs (Decidable (-2 ^ 127 ≤ q * DIV ∧ q * DIV < 2 ^ 127))

private theorem inRange_div_DIV {i : ℤ} :
    InRange (i / DIV) ↔ -2 ^ 127 ≤ i ∧ i < 2 ^ 127 := by
  rw [InRange, div_mul_cancel₀ _ DIV_cast_pos.ne']
  exact_mod_cast Iff.rfl

instance : RangedFixedPoint FixedI128 where
  Fits := InRange
  exists_checkedSub_iff := by
    intro a b
    have hsub : LawfulFixedPoint.toRat a - LawfulFixedPoint.toRat b =
        ((a.inner - b.inner : ℤ) : ℚ) / DIV := by
      rw [Int.cast_sub, sub_div]
      rfl
    rw [hsub, inRange_div_DIV]
    exact exists_ofInner_iff
  exists_checkedMul_iff := by
    intro a b
    have hmul : (LawfulFixedPoint.rounding FixedI128).round
        (LawfulFixedPoint.toRat a * LawfulFixedPoint.toRat b) =
        (((a.inner * b.inner).tdiv DIV : ℤ) : ℚ) / DIV := by
      have hD := DIV_cast_pos
      rw [← truncate_div]
      change (truncate _ : ℚ) / _ = _
      congr 3
      change (a.inner : ℚ) / DIV * (b.inner / DIV) * DIV = _
      push_cast
      field_simp
    rw [hmul, inRange_div_DIV]
    exact exists_ofInner_iff

instance : DecidablePred (RangedFixedPoint.Fits FixedI128) :=
  fun q => inferInstanceAs (Decidable (InRange q))

end FixedI128

end Core
