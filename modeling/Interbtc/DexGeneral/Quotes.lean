import Interbtc.Core.ConstantProduct
import Interbtc.DexGeneral.Structure

/-!
# Quotes

The payment for an amount buys at least that amount, and a payment that is smaller by two buys
less. Both quotes pass the check of the product of the reserves.
-/

namespace Interbtc.DexGeneral

open Core DexGeneral

variable {o x y fee a v : ℕ}

/-! ## Both quotes -/

/-- The price of an amount, rounded up past the next integer. -/
def payment (o x y fee : ℕ) : ℕ :=
  x * o * FEE_ADJUSTMENT / ((y - o) * (FEE_ADJUSTMENT - fee)) + 1

/-- An amount below the reserve has a payment as long as the price is computed in 256 bits and has
128 bits. -/
theorem getAmountIn_eq_ite (hx : 0 < x) (hymax : y ≤ maxBalance) (ho : 0 < o) (hoy : o < y)
    (hfee : fee < FEE_ADJUSTMENT) : getAmountIn o x y fee =
      if x * o * FEE_ADJUSTMENT ≤ maxU256 ∧ payment o x y fee ≤ maxBalance then
        .ok (payment o x y fee)
      else .error overflow := by
  have hone : x * o ≤ x * o * FEE_ADJUSTMENT := Nat.le_mul_of_pos_right _ (by decide)
  have hrest : checkedSub y o = some (y - o) := checkedSub_eq_some.mpr ⟨hoy.le, rfl⟩
  have hdenominator : checkedMul maxU256 (y - o) (FEE_ADJUSTMENT - fee) =
      some ((y - o) * (FEE_ADJUSTMENT - fee)) :=
    checkedMul_eq_some.mpr ⟨(Nat.mul_le_mul ((Nat.sub_le _ _).trans hymax) (Nat.sub_le _ _)).trans
      (by decide : maxBalance * FEE_ADJUSTMENT ≤ maxU256), rfl⟩
  have hpos : (y - o) * (FEE_ADJUSTMENT - fee) ≠ 0 :=
    Nat.mul_ne_zero (Nat.sub_ne_zero_of_lt hoy) (Nat.sub_ne_zero_of_lt hfee)
  unfold getAmountIn
  rw [if_neg (by omega)]
  by_cases hprice : x * o * FEE_ADJUSTMENT ≤ maxU256
  · rw [checkedMul_eq_some.mpr ⟨hone.trans hprice, rfl⟩, okOr_some_bind,
      checkedMul_eq_some.mpr ⟨hprice, rfl⟩, okOr_some_bind, hrest, okOr_some_bind, hdenominator,
      okOr_some_bind, checkedDiv_eq_some.mpr ⟨hpos, rfl⟩, okOr_some_bind]
    by_cases hmax : payment o x y fee ≤ maxBalance
    · rw [if_pos ⟨hprice, hmax⟩, checkedAdd_eq_some.mpr
        ⟨hmax.trans (by decide : maxBalance ≤ maxU256), rfl⟩, okOr_some_bind]
      exact okOr_eq_ok.mpr (tryInto_eq_some.mpr ⟨hmax, rfl⟩)
    · rw [if_neg fun h => hmax h.2]
      cases hsum : checkedAdd maxU256
          (x * o * FEE_ADJUSTMENT / ((y - o) * (FEE_ADJUSTMENT - fee))) 1 with
      | none => rfl
      | some p =>
        obtain ⟨-, rfl⟩ := checkedAdd_eq_some.mp hsum
        exact okOr_eq_error.mpr ⟨if_neg hmax, rfl⟩
  · rw [if_neg fun h => hprice h.1]
    cases hproduct : checkedMul maxU256 x o with
    | none => rfl
    | some p =>
      obtain ⟨-, rfl⟩ := checkedMul_eq_some.mp hproduct
      rw [okOr_some_bind, checkedMul, if_neg hprice]
      rfl

/-- A payment is the price of the amount, rounded up past the next integer. -/
theorem getAmountIn_eq_ok (h : getAmountIn o x y fee = .ok a) :
    0 < x ∧ o ≤ y ∧ 0 < (y - o) * (FEE_ADJUSTMENT - fee) ∧ a ≤ maxBalance ∧
      x * o * FEE_ADJUSTMENT / ((y - o) * (FEE_ADJUSTMENT - fee)) + 1 = a := by
  simp only [getAmountIn, except_bind_eq_ok, except_ite_eq_ok, except_throw_eq_ok, and_false,
    false_or, okOr_eq_ok, checkedMul_eq_some, checkedSub_eq_some, checkedDiv_eq_some,
    checkedAdd_eq_some, tryInto_eq_some] at h
  obtain ⟨hzero, _, ⟨-, rfl⟩, _, ⟨-, rfl⟩, _, ⟨hle, rfl⟩, _, ⟨-, rfl⟩, _, ⟨hne, rfl⟩, _, ⟨-, rfl⟩,
    hmax, ha⟩ := h
  rw [ha] at hmax
  exact ⟨Nat.pos_of_ne_zero fun h => hzero (.inl h), hle, Nat.pos_of_ne_zero hne, hmax, ha⟩

private theorem getAmountOut_eq_ok (h : getAmountOut a x y fee = .ok v) :
    0 < x ∧ a * (FEE_ADJUSTMENT - fee) * y /
      (x * FEE_ADJUSTMENT + a * (FEE_ADJUSTMENT - fee)) = v := by
  simp only [getAmountOut, except_bind_eq_ok, except_ite_eq_ok, except_throw_eq_ok, and_false,
    false_or, okOr_eq_ok, checkedMul_eq_some, checkedDiv_eq_some, checkedAdd_eq_some,
    tryInto_eq_some] at h
  obtain ⟨hzero, _, ⟨-, rfl⟩, _, ⟨-, rfl⟩, _, ⟨-, rfl⟩, _, ⟨-, rfl⟩, _, ⟨-, rfl⟩, -, hv⟩ := h
  exact ⟨Nat.pos_of_ne_zero fun h => hzero (.inl h), hv⟩

/-- The payment covers the price of the amount. -/
theorem price_le (h : getAmountIn o x y fee = .ok a) :
    x * o * FEE_ADJUSTMENT ≤ a * ((y - o) * (FEE_ADJUSTMENT - fee)) := by
  obtain ⟨-, -, hpos, -, rfl⟩ := getAmountIn_eq_ok h
  exact (Nat.lt_mul_of_div_lt (Nat.lt_succ_self _) hpos).le

/-- A payment that is smaller by two does not. -/
theorem lt_price (h : getAmountIn o x y fee = .ok a) {b : ℕ} (hb : b + 2 ≤ a) :
    b * ((y - o) * (FEE_ADJUSTMENT - fee)) < x * o * FEE_ADJUSTMENT := by
  obtain ⟨-, -, hpos, -, rfl⟩ := getAmountIn_eq_ok h
  calc b * ((y - o) * (FEE_ADJUSTMENT - fee))
      < x * o * FEE_ADJUSTMENT / ((y - o) * (FEE_ADJUSTMENT - fee)) *
          ((y - o) * (FEE_ADJUSTMENT - fee)) := Nat.mul_lt_mul_of_pos_right (by omega) hpos
    _ ≤ x * o * FEE_ADJUSTMENT := Nat.div_mul_le_self _ _

private theorem denominator_pos (hx : 0 < x) (a g : ℕ) : 0 < x * FEE_ADJUSTMENT + a * g :=
  Nat.add_pos_left (Nat.mul_pos hx (by decide)) _

/-- Amounts of 128 bits are quoted as long as their product with the reserve has 256 bits. -/
theorem getAmountOut_eq_ite (ha : 0 < a) (hx : 0 < x) (hy : 0 < y) (hamax : a ≤ maxBalance)
    (hxmax : x ≤ maxBalance) (hymax : y ≤ maxBalance) : getAmountOut a x y fee =
      if a * (FEE_ADJUSTMENT - fee) * y ≤ maxU256 then
        .ok (a * (FEE_ADJUSTMENT - fee) * y /
          (x * FEE_ADJUSTMENT + a * (FEE_ADJUSTMENT - fee)))
      else .error overflow := by
  have hfee : FEE_ADJUSTMENT - fee ≤ FEE_ADJUSTMENT := Nat.sub_le _ _
  have hreserve : x * FEE_ADJUSTMENT ≤ maxBalance * FEE_ADJUSTMENT := Nat.mul_le_mul_right _ hxmax
  have hpayment : a * (FEE_ADJUSTMENT - fee) ≤ maxBalance * FEE_ADJUSTMENT :=
    Nat.mul_le_mul hamax hfee
  have hsum : maxBalance * FEE_ADJUSTMENT + maxBalance * FEE_ADJUSTMENT ≤ maxU256 := by decide
  have hpos := denominator_pos hx a (FEE_ADJUSTMENT - fee)
  have hle : a * (FEE_ADJUSTMENT - fee) * y /
      (x * FEE_ADJUSTMENT + a * (FEE_ADJUSTMENT - fee)) ≤ y :=
    Nat.div_le_of_le_mul (Nat.mul_le_mul_right _ (Nat.le_add_left _ _))
  have hfee' : checkedMul maxU256 a (FEE_ADJUSTMENT - fee) = some (a * (FEE_ADJUSTMENT - fee)) :=
    checkedMul_eq_some.mpr ⟨by omega, rfl⟩
  have hreserve' : checkedMul maxU256 x FEE_ADJUSTMENT = some (x * FEE_ADJUSTMENT) :=
    checkedMul_eq_some.mpr ⟨by omega, rfl⟩
  have hadd : checkedAdd maxU256 (x * FEE_ADJUSTMENT) (a * (FEE_ADJUSTMENT - fee)) =
      some (x * FEE_ADJUSTMENT + a * (FEE_ADJUSTMENT - fee)) :=
    checkedAdd_eq_some.mpr ⟨by omega, rfl⟩
  unfold getAmountOut
  rw [if_neg (by omega), hfee', okOr_some_bind]
  by_cases hproduct : a * (FEE_ADJUSTMENT - fee) * y ≤ maxU256
  · rw [if_pos hproduct, checkedMul_eq_some.mpr ⟨hproduct, rfl⟩, okOr_some_bind, hreserve',
      okOr_some_bind, hadd, okOr_some_bind, checkedDiv_eq_some.mpr ⟨hpos.ne', rfl⟩, okOr_some_bind]
    exact okOr_eq_ok.mpr (tryInto_eq_some.mpr ⟨hle.trans hymax, rfl⟩)
  · rw [if_neg hproduct, checkedMul, if_neg hproduct]
    rfl

/-! ## The check of the product -/

/-- The check can only overflow where the product is kept. -/
theorem checkInvariant_ne (h : KeepsProduct x y a v) :
    checkInvariant x y a v ≠ .error (.dexGeneral .invariantCheckFailed) := by
  intro herror
  simp only [checkInvariant, except_bind_eq_error, okOr_eq_error, okOr_eq_ok, checkedMul_eq_some,
    checkedAdd_eq_some, checkedSub_eq_some, except_ite_eq_error, except_pure_eq_error,
    except_throw_eq_error, and_false, false_or] at herror
  rcases herror with ⟨-, hoverflow⟩ | ⟨_, ⟨-, rfl⟩, ⟨-, hoverflow⟩ | ⟨_, ⟨-, rfl⟩,
    ⟨-, hoverflow⟩ | ⟨_, ⟨-, rfl⟩, ⟨-, hoverflow⟩ | ⟨_, ⟨-, rfl⟩, hless, -⟩⟩⟩⟩
  · cases hoverflow
  · cases hoverflow
  · cases hoverflow
  · cases hoverflow
  · exact hless h.product

private theorem keepsProduct_in (h : getAmountIn o x y fee = .ok a) : KeepsProduct x y a o := by
  obtain ⟨-, hle, -, -, -⟩ := getAmountIn_eq_ok h
  exact .of_price (by decide) (Nat.sub_le _ _) hle (price_le h)

private theorem keepsProduct_out (h : getAmountOut a x y fee = .ok v) : KeepsProduct x y a v := by
  obtain ⟨hx, hv⟩ := getAmountOut_eq_ok h
  have hpos := denominator_pos hx a (FEE_ADJUSTMENT - fee)
  have hle : v ≤ y := by
    rw [← hv]
    exact Nat.div_le_of_le_mul (Nat.mul_le_mul_right _ (Nat.le_add_left _ _))
  exact .of_price (by decide) (Nat.sub_le _ _) hle ((le_payout_iff hpos hle).mp hv.ge)

/-- Quotes of one exchange only overflow. -/
theorem getAmountIn_eq_error {e : DispatchError} (h : getAmountIn o x y fee = .error e) :
    e = overflow := by
  simp only [getAmountIn, except_bind_eq_error, except_ite_eq_error, except_throw_eq_error,
    okOr_eq_error] at h
  rcases h with ⟨-, h⟩ | ⟨-, ⟨-, h⟩ | ⟨_, -, ⟨-, h⟩ | ⟨_, -, ⟨-, h⟩ | ⟨_, -, ⟨-, h⟩ |
    ⟨_, -, ⟨-, h⟩ | ⟨_, -, ⟨-, h⟩ | ⟨_, -, -, h⟩⟩⟩⟩⟩⟩⟩ <;> exact h.symm

private theorem getAmountOut_eq_error {e : DispatchError} (h : getAmountOut a x y fee = .error e) :
    e = overflow := by
  simp only [getAmountOut, except_bind_eq_error, except_ite_eq_error, except_throw_eq_error,
    okOr_eq_error] at h
  rcases h with ⟨-, h⟩ | ⟨-, ⟨-, h⟩ | ⟨_, -, ⟨-, h⟩ | ⟨_, -, ⟨-, h⟩ | ⟨_, -, ⟨-, h⟩ |
    ⟨_, -, ⟨-, h⟩ | ⟨_, -, -, h⟩⟩⟩⟩⟩⟩ <;> exact h.symm

/-! ## Paths -/

section Paths

variable {AccountId AssetId Tokens : Type} [LinearOrder AssetId]
  [WithdrawableCurrency Tokens AccountId AssetId] [DexGeneralConfig AccountId AssetId]
  (s : DexGeneral AccountId AssetId Tokens)

private theorem quoteOut_ne (input output : AssetId) (amount : ℕ) :
    s.quoteOut input output amount ≠ .error (.dexGeneral .invariantCheckFailed) := by
  intro h
  simp only [quoteOut, except_bind_eq_error, except_ite_eq_error, except_throw_eq_error,
    except_pure_eq_error, and_false, exists_false, or_false] at h
  rcases h with ⟨-, h | ⟨v, hv, ⟨-, h⟩ | ⟨-, h⟩⟩⟩ | ⟨-, h⟩
  · exact absurd (getAmountOut_eq_error h) (by decide)
  · exact checkInvariant_ne (keepsProduct_out hv) h
  · cases h
  · cases h

private theorem quoteIn_ne (input output : AssetId) (amount : ℕ) :
    s.quoteIn input output amount ≠ .error (.dexGeneral .invariantCheckFailed) := by
  intro h
  simp only [quoteIn, except_bind_eq_error, except_ite_eq_error, except_throw_eq_error,
    except_pure_eq_error, and_false, exists_false, or_false] at h
  rcases h with ⟨-, h | ⟨v, hv, ⟨-, h⟩ | ⟨-, h⟩⟩⟩ | ⟨-, h⟩
  · exact absurd (getAmountIn_eq_error h) (by decide)
  · exact checkInvariant_ne (keepsProduct_in hv) h
  · cases h
  · cases h

private theorem amountsOut_ne (path : List AssetId) (amount : ℕ) :
    s.amountsOut amount path ≠ .error (.dexGeneral .invariantCheckFailed) := by
  induction path generalizing amount with
  | nil => exact nofun
  | cons input path ih =>
    cases path with
    | nil => exact nofun
    | cons output path =>
      intro h
      simp only [amountsOut, except_bind_eq_error, except_pure_eq_error, and_false, exists_false,
        or_false] at h
      rcases h with h | ⟨v, -, h⟩
      · exact quoteOut_ne s _ _ _ h
      · exact ih v h

private theorem amountsIn_ne (path : List AssetId) (amount : ℕ) :
    s.amountsIn amount path ≠ .error (.dexGeneral .invariantCheckFailed) := by
  induction path with
  | nil => exact nofun
  | cons input path ih =>
    cases path with
    | nil => exact nofun
    | cons output path =>
      intro h
      simp only [amountsIn, except_bind_eq_error, except_pure_eq_error, and_false, exists_false,
        or_false] at h
      rcases h with h | ⟨amounts, -, h⟩
      · exact ih h
      · exact quoteIn_ne s _ _ _ h

/-- For positive reserves, a fee below one and an amount below the reserve: the payment is returned
unless it overflows; it buys at least that amount, unless its product with the reserve overflows;
and one that is smaller by two buys less, unless its product does. The check of the product never
fails on the amounts of a path. -/
theorem quotes_inverse :
    (∀ x y o fee, 0 < x → x ≤ maxBalance → y ≤ maxBalance → 0 < o → o < y →
      fee < FEE_ADJUSTMENT →
      getAmountIn o x y fee =
          (if x * o * FEE_ADJUSTMENT ≤ maxU256 ∧ payment o x y fee ≤ maxBalance then
            .ok (payment o x y fee)
          else .error overflow) ∧
        ∀ a, getAmountIn o x y fee = .ok a →
          (if a * (FEE_ADJUSTMENT - fee) * y ≤ maxU256 then
            ∃ v, getAmountOut a x y fee = .ok v ∧ o ≤ v
          else getAmountOut a x y fee = .error overflow) ∧
          ∀ b, 0 < b → b + 2 ≤ a →
            if b * (FEE_ADJUSTMENT - fee) * y ≤ maxU256 then
              ∃ v, getAmountOut b x y fee = .ok v ∧ v < o
            else getAmountOut b x y fee = .error overflow) ∧
    ∀ (path : List AssetId) (amount : ℕ),
      s.getAmountOutByPath amount path ≠ .error (.dexGeneral .invariantCheckFailed) ∧
      s.getAmountInByPath amount path ≠ .error (.dexGeneral .invariantCheckFailed) := by
  refine ⟨fun x y o fee hx hxmax hymax ho hoy hfee => ⟨?_, fun a hin => ⟨?_, fun b hb hba => ?_⟩⟩,
    fun path amount => ?_⟩
  · exact getAmountIn_eq_ite hx hymax ho hoy hfee
  · obtain ⟨-, hle, -, hamax, ha⟩ := getAmountIn_eq_ok hin
    rw [getAmountOut_eq_ite (ha ▸ Nat.succ_pos _) hx (ho.trans hoy) hamax hxmax hymax]
    split
    · exact ⟨_, rfl, (le_payout_iff (denominator_pos hx _ _) hle).mpr (price_le hin)⟩
    · rfl
  · obtain ⟨-, hle, -, hamax, -⟩ := getAmountIn_eq_ok hin
    rw [getAmountOut_eq_ite hb hx (ho.trans hoy) (by omega) hxmax hymax]
    split
    · refine ⟨_, rfl, Nat.lt_of_not_le fun hreach => ?_⟩
      exact Nat.not_le.mpr (lt_price hin hba)
        ((le_payout_iff (denominator_pos hx _ _) hle).mp hreach)
    · rfl
  · unfold getAmountOutByPath getAmountInByPath
    constructor
    · split
      · exact amountsOut_ne s path amount
      · exact nofun
    · split
      · exact amountsIn_ne s path amount
      · exact nofun

end Paths

/-- For 500 of 2000, against a reserve of 1000 and at a fee of 30, the payment is 335. -/
theorem quotes_inverse_thirty : getAmountIn 500 1000 2000 30 = .ok 335 ∧
    (∃ v, getAmountOut 335 1000 2000 30 = .ok v ∧ 500 ≤ v) ∧
    ∃ v, getAmountOut 333 1000 2000 30 = .ok v ∧ v < 500 := by
  have h := (quotes_inverse (Sample.start 0 none 30)).1 1000 2000 500 30 (by decide) (by decide)
    (by decide) (by decide) (by decide) (by decide)
  have hin : getAmountIn 500 1000 2000 30 = .ok 335 := h.1.trans (by decide +kernel)
  exact ⟨hin, (h.2 335 hin).1, (h.2 335 hin).2 333 (by decide) (by decide)⟩

/-- The product of a payment of 128 bits with a reserve of 128 bits and the fee overflows. -/
theorem quotes_overflow : getAmountIn (maxBalance - 1) 1 maxBalance 0 = .ok maxBalance ∧
    getAmountOut maxBalance 1 maxBalance 0 = .error overflow := by
  decide +kernel

end Interbtc.DexGeneral
