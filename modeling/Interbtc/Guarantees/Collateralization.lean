import Mathlib.Algebra.Order.Floor.Div
import Interbtc.Guarantees.PremiumRedeem

/-!
# Required collateral and the collateralization check

The collateral required for some tokens rounds its product with the threshold up and its
conversion down; the check converts it back and divides by the threshold, both rounded down.
-/

namespace Interbtc

open Core

/-! ## Rounding -/

private theorem multiplyByRationalWithRounding_up_eq_some_iff {a b c n : ℕ} :
    multiplyByRationalWithRounding a b c .up = some n ↔
      c ≠ 0 ∧ (a * b) ⌈/⌉ c ≤ maxBalance ∧ (a * b) ⌈/⌉ c = n := by
  unfold multiplyByRationalWithRounding
  by_cases hc : c = 0
  · simp [hc]
  have hceil : (a * b) ⌈/⌉ c = if 0 < a * b % c then a * b / c + 1 else a * b / c := by
    have hpos : 0 < c := Nat.pos_of_ne_zero hc
    have hdiv := Nat.div_add_mod (a * b) c
    have hlt := Nat.mod_lt (a * b) hpos
    rw [Nat.ceilDiv_eq_add_pred_div]
    split
    · exact Nat.div_eq_of_lt_le (by rw [Nat.add_mul, Nat.mul_comm _ c]; omega)
        (by rw [Nat.add_mul, Nat.add_mul, Nat.mul_comm _ c]; omega)
    · exact Nat.div_eq_of_lt_le (by rw [Nat.mul_comm _ c]; omega)
        (by rw [Nat.add_mul, Nat.mul_comm _ c]; omega)
  simp only [hc, if_false, hceil, ne_eq, not_false_eq_true, true_and, decide_eq_true_eq,
    Option.ite_none_right_eq_some, Option.some.injEq]

/-- A product that is divided and multiplied back is reached only when the division is exact. -/
theorem le_div_mul_div_iff {n r d : ℕ} (hr : 0 < r) : n ≤ n * r / d * d / r ↔ d ∣ n * r := by
  rw [Nat.le_div_iff_mul_le hr]
  constructor
  · intro h
    exact ⟨_, (Nat.mul_comm d _ ▸ Nat.le_antisymm (Nat.div_mul_le_self _ _) h).symm⟩
  · intro h
    exact (Nat.div_mul_cancel h).ge

private theorem div_mul_div_le (n r d : ℕ) : n * r / d * d / r ≤ n := by
  rcases Nat.eq_zero_or_pos r with rfl | hr
  · simp
  · exact (Nat.div_le_div_right (Nat.div_mul_le_self _ _)).trans (Nat.mul_div_cancel _ hr).le

/-- Through a second rate, both divisions must be exact. -/
theorem le_div_mul_div_div_iff {n r l d : ℕ} (hr : 0 < r) (hd : 0 < d) :
    n ≤ n * r / d * d / l * l / d * d / r ↔ d ∣ n * r ∧ l ∣ n * r := by
  have hback : n * r / d * d / l * l / d ≤ n * r / d := div_mul_div_le _ _ _
  have hwhole : n * r / d * d ≤ n * r := Nat.div_mul_le_self _ _
  rw [Nat.le_div_iff_mul_le hr]
  constructor
  · intro h
    have hd' : n * r / d * d = n * r :=
      Nat.le_antisymm hwhole (h.trans (Nat.mul_le_mul_right d hback))
    rw [← hd']
    refine ⟨Nat.dvd_mul_left _ _, (le_div_mul_div_iff hd).mp ?_⟩
    exact Nat.le_of_mul_le_mul_right (hd'.le.trans h) hd
  · rintro ⟨hd', hl⟩
    have h : n * r / d * d = n * r := Nat.div_mul_cancel hd'
    rw [← h] at hl
    exact h.ge.trans (Nat.mul_le_mul_right d ((le_div_mul_div_iff hd).mpr hl))

private theorem div_mul_div_div_le (n r l d : ℕ) : n * r / d * d / l * l / d * d / r ≤ n :=
  (Nat.div_le_div_right (Nat.mul_le_mul_right d (div_mul_div_le _ _ _))).trans
    (div_mul_div_le n r d)

/-! ## Prices -/

namespace Env

variable {AccountId CurrencyId H256 : Type} [DecidableEq CurrencyId] [CurrencyConfig CurrencyId]
  {env : Env AccountId CurrencyId H256} {c : CurrencyId} {price lendRate : FixedU128}
  {n : ℕ} {x : Amount CurrencyId}

/-- The price at which the oracle converts wrapped tokens. -/
def oraclePrice (env : Env AccountId CurrencyId H256) (c : CurrencyId) : Option FixedU128 :=
  if c = CurrencyConfig.wrapped then some .one else env.exchangeRate c

/-- A currency with a price, or a lend token at a rate of the loans to one that has a price. -/
inductive Priced (env : Env AccountId CurrencyId H256) :
    CurrencyId → FixedU128 → FixedU128 → Prop
  | oracle {c : CurrencyId} {price : FixedU128}
      (hlend : CurrencyConfig.isLendToken c = false)
      (hprice : env.oraclePrice c = some price) : Priced env c price .one
  | lend {c underlying : CurrencyId} {price lendRate : FixedU128}
      (hlend : CurrencyConfig.isLendToken c = true)
      (hid : env.underlyingId c = .ok underlying)
      (hprice : env.oraclePrice underlying = some price)
      (hunderlying : ∀ n x, env.recomputeUnderlyingAmount ⟨n, c⟩ = .ok x ↔
        n * lendRate.inner / FixedU128.DIV ≤ maxBalance ∧
          ⟨n * lendRate.inner / FixedU128.DIV, underlying⟩ = x)
      (hcollateral : ∀ n x, env.recomputeCollateralAmount ⟨n, underlying⟩ = .ok x ↔
        lendRate.inner ≠ 0 ∧ n * FixedU128.DIV / lendRate.inner ≤ maxBalance ∧
          ⟨n * FixedU128.DIV / lendRate.inner, c⟩ = x) : Priced env c price lendRate

private theorem oracleConvert_wrapped_eq_ok (hprice : env.oraclePrice c = some price)
    (hn : n ≤ maxBalance) : env.oracleConvert ⟨n, CurrencyConfig.wrapped⟩ c = .ok x ↔
      n * price.inner / FixedU128.DIV ≤ maxBalance ∧
        ⟨n * price.inner / FixedU128.DIV, c⟩ = x := by
  unfold oraclePrice at hprice
  by_cases hc : c = CurrencyConfig.wrapped
  · subst hc
    rw [if_pos rfl] at hprice
    obtain rfl := Option.some.inj hprice
    simp [oracleConvert, FixedU128.one, Nat.mul_div_cancel n FixedU128.DIV_pos, hn,
      except_pure_eq_ok]
  · rw [if_neg hc] at hprice
    simp only [oracleConvert, Ne.symm hc, if_false, if_true, except_bind_eq_ok, except_pure_eq_ok,
      wrappedToCollateral_eq_ok, hprice, Option.some.injEq, exists_eq_left', and_assoc,
      exists_and_left]

private theorem oracleConvert_to_wrapped_eq_ok (hprice : env.oraclePrice c = some price)
    (hn : n ≤ maxBalance) : env.oracleConvert ⟨n, c⟩ CurrencyConfig.wrapped = .ok x ↔
      (n = 0 ∨ price.inner ≠ 0) ∧ n * FixedU128.DIV / price.inner ≤ maxBalance ∧
        ⟨n * FixedU128.DIV / price.inner, CurrencyConfig.wrapped⟩ = x := by
  unfold oraclePrice at hprice
  by_cases hc : c = CurrencyConfig.wrapped
  · subst hc
    rw [if_pos rfl] at hprice
    obtain rfl := Option.some.inj hprice
    simp [oracleConvert, FixedU128.one, Nat.mul_div_cancel n FixedU128.DIV_pos, hn,
      except_pure_eq_ok, FixedU128.DIV_pos.ne']
  · rw [if_neg hc] at hprice
    rcases Nat.eq_zero_or_pos n with rfl | hpos
    · simp [oracleConvert, hc, collateralToWrapped, getPrice, hprice, okOr]
    · simp only [oracleConvert, hc, if_false, if_true, collateralToWrapped, getPrice, hprice,
        except_bind_eq_ok, except_pure_eq_ok, okOr_eq_ok, Option.some.injEq, exists_eq_left',
        hpos.ne', Amount.checkedDiv_eq_ok, and_assoc, exists_and_left, false_or, ne_eq]

/-- What wrapped tokens are worth is rounded down at the price and at the rate of the loans. -/
theorem Priced.convert_wrapped_eq_ok (hc : env.Priced c price lendRate)
    (hw : CurrencyConfig.isLendToken (CurrencyConfig.wrapped : CurrencyId) = false)
    (hn : n ≤ maxBalance) (h : env.convert ⟨n, CurrencyConfig.wrapped⟩ c = .ok x) :
    n * price.inner / FixedU128.DIV ≤ maxBalance ∧ x.amount ≤ maxBalance ∧
      ⟨n * price.inner / FixedU128.DIV * FixedU128.DIV / lendRate.inner, c⟩ = x := by
  cases hc with
  | oracle hlend hprice =>
    simp only [convert, hw, hlend, Bool.false_eq_true, and_self, if_false,
      oracleConvert_wrapped_eq_ok hprice hn] at h
    obtain ⟨hle, rfl⟩ := h
    rw [FixedU128.one, Nat.mul_div_cancel _ FixedU128.DIV_pos]
    exact ⟨hle, hle, rfl⟩
  | lend hlend hid hprice _ hcollateral =>
    simp only [convert, hw, hlend, hid, Bool.false_eq_true, false_and, if_false, if_true,
      except_bind_eq_ok, Except.ok.injEq, exists_eq_left', oracleConvert_wrapped_eq_ok hprice hn,
      and_assoc, exists_and_left, hcollateral] at h
    obtain ⟨hworth, -, hle, rfl⟩ := h
    exact ⟨hworth, hle, rfl⟩

private theorem Priced.convert_to_wrapped_eq_ok (hc : env.Priced c price lendRate)
    (hw : CurrencyConfig.isLendToken (CurrencyConfig.wrapped : CurrencyId) = false)
    (hn : n ≤ maxBalance) : env.convert ⟨n, c⟩ CurrencyConfig.wrapped = .ok x ↔
      n * lendRate.inner / FixedU128.DIV ≤ maxBalance ∧
        (n * lendRate.inner / FixedU128.DIV = 0 ∨ price.inner ≠ 0) ∧
          n * lendRate.inner / FixedU128.DIV * FixedU128.DIV / price.inner ≤ maxBalance ∧
            ⟨n * lendRate.inner / FixedU128.DIV * FixedU128.DIV / price.inner,
              CurrencyConfig.wrapped⟩ = x := by
  cases hc with
  | oracle hlend hprice =>
    rw [FixedU128.one, Nat.mul_div_cancel _ FixedU128.DIV_pos]
    simp only [convert, hw, hlend, Bool.false_eq_true, and_self, if_false,
      oracleConvert_to_wrapped_eq_ok hprice hn, hn, true_and]
  | lend hlend _ hprice hunderlying _ =>
    simp only [convert, hw, hlend, Bool.false_eq_true, and_false, if_false, if_true,
      except_bind_eq_ok, hunderlying, and_assoc, exists_and_left, exists_eq_left']
    exact and_congr_right fun hle => oracleConvert_to_wrapped_eq_ok hprice hle

private theorem convert_to_wrapped_currencyId {y : Amount CurrencyId}
    (hw : CurrencyConfig.isLendToken (CurrencyConfig.wrapped : CurrencyId) = false)
    (h : env.convert x CurrencyConfig.wrapped = .ok y) : y.currencyId = CurrencyConfig.wrapped := by
  simp only [convert, hw, Bool.false_eq_true, and_false, if_false, except_ite_eq_ok,
    except_bind_eq_ok] at h
  obtain ⟨-, x', -, h⟩ | ⟨-, h⟩ := h
  · exact oracleConvert_currencyId h
  · exact oracleConvert_currencyId h

end Env

/-! ## The check -/

namespace Chain

variable {AccountId CurrencyId H256 : Type} [DecidableEq CurrencyId] [CurrencyConfig CurrencyId]
  {env : Env AccountId CurrencyId H256} {c : CurrencyId} {price lendRate threshold : FixedU128}
  {w b : ℕ} {x required max : Amount CurrencyId}

/-- The collateral that wrapped tokens require. -/
def getRequiredCollateralForWrappedWithThreshold (env : Env AccountId CurrencyId H256)
    (wrapped : Amount CurrencyId) (threshold : FixedU128) (currencyId : CurrencyId) :
    Except DispatchError (Amount CurrencyId) := do
  let required ← wrapped.checkedRoundedMul threshold .up
  env.convert required currencyId

/-- The tokens times the threshold, rounded up: what the required collateral is worth. -/
def requiredTokens (w : ℕ) (threshold : FixedU128) : ℕ :=
  (w * threshold.inner) ⌈/⌉ FixedU128.DIV

omit [DecidableEq CurrencyId] [CurrencyConfig CurrencyId] in
/-- The tokens to cover, rounded up. -/
theorem checkedRoundedMul_up_eq_ok {y : Amount CurrencyId} :
    x.checkedRoundedMul threshold .up = .ok y ↔
      requiredTokens x.amount threshold ≤ maxBalance ∧
        ⟨requiredTokens x.amount threshold, x.currencyId⟩ = y := by
  simp only [Amount.checkedRoundedMul, except_bind_eq_ok, okOr_eq_ok, except_pure_eq_ok,
    multiplyByRationalWithRounding_up_eq_some_iff, requiredTokens, FixedU128.DIV_pos.ne', ne_eq,
    not_false_eq_true, true_and, and_assoc, exists_and_left, exists_eq_left']

/-- Converted to the collateral and back, the required tokens stay what they are. -/
def ConvertsExactly (w : ℕ) (threshold price lendRate : FixedU128) : Prop :=
  price.inner ≠ 0 ∧ FixedU128.DIV ∣ requiredTokens w threshold * price.inner ∧
    lendRate.inner ∣ requiredTokens w threshold * price.inner

instance (w : ℕ) (threshold price lendRate : FixedU128) :
    Decidable (ConvertsExactly w threshold price lendRate) := inferInstanceAs (Decidable (_ ∧ _))

private theorem getRequiredCollateralForWrappedWithThreshold_eq_ok :
    getRequiredCollateralForWrappedWithThreshold env ⟨w, CurrencyConfig.wrapped⟩ threshold c =
        .ok required ↔
      requiredTokens w threshold ≤ maxBalance ∧
        env.convert ⟨requiredTokens w threshold, CurrencyConfig.wrapped⟩ c = .ok required := by
  simp only [getRequiredCollateralForWrappedWithThreshold, except_bind_eq_ok,
    checkedRoundedMul_up_eq_ok, and_assoc, exists_and_left, exists_eq_left']

private theorem isCollateralBelowThreshold_eq_false :
    isCollateralBelowThreshold env x ⟨w, CurrencyConfig.wrapped⟩ threshold = .ok false ↔
      ∃ y, env.convert x CurrencyConfig.wrapped = .ok y ∧ threshold.inner ≠ 0 ∧
        y.amount * FixedU128.DIV / threshold.inner ≤ maxBalance ∧
          y.currencyId = CurrencyConfig.wrapped ∧
            w ≤ y.amount * FixedU128.DIV / threshold.inner := by
  simp only [isCollateralBelowThreshold, calculateMaxWrappedFromCollateralForThreshold,
    except_bind_eq_ok, Amount.checkedDiv_eq_ok, Amount.lt_eq_ok, decide_eq_false_iff_not, not_lt]
  constructor
  · rintro ⟨_, ⟨y, hy, hpos, hle, rfl⟩, hcur, hw⟩
    exact ⟨y, hy, hpos, hle, hcur, hw⟩
  · rintro ⟨y, hy, hpos, hle, hcur, hw⟩
    exact ⟨_, ⟨y, hy, hpos, hle, rfl⟩, hcur, hw⟩

/-- A quotient by the threshold covers the tokens exactly if it was taken of the required tokens
or more. -/
theorem le_div_threshold_iff {n : ℕ} (ht : threshold.inner ≠ 0) :
    w ≤ n * FixedU128.DIV / threshold.inner ↔ requiredTokens w threshold ≤ n := by
  rw [requiredTokens, ceilDiv_le_iff_le_mul FixedU128.DIV_pos, Nat.mul_comm FixedU128.DIV,
    Nat.le_div_iff_mul_le (Nat.pos_of_ne_zero ht)]

private theorem requiredTokens_eq_zero (ht : threshold.inner ≠ 0) :
    requiredTokens w threshold = 0 ↔ w = 0 := by
  rw [← Nat.le_zero, ← le_div_threshold_iff ht, Nat.zero_mul, Nat.zero_div, Nat.le_zero]

/-- A vault with the required collateral is not below the threshold exactly if the required tokens
convert without loss. -/
theorem required_not_below (hc : env.Priced c price lendRate)
    (hwrapped : CurrencyConfig.isLendToken (CurrencyConfig.wrapped : CurrencyId) = false)
    (h : getRequiredCollateralForWrappedWithThreshold env ⟨w, CurrencyConfig.wrapped⟩ threshold c =
      .ok required) :
    isCollateralBelowThreshold env required ⟨w, CurrencyConfig.wrapped⟩ threshold = .ok false ↔
      threshold.inner ≠ 0 ∧ (w = 0 ∨ ConvertsExactly w threshold price lendRate ∧
        requiredTokens w threshold * FixedU128.DIV / threshold.inner ≤ maxBalance) := by
  obtain ⟨hn, h⟩ := getRequiredCollateralForWrappedWithThreshold_eq_ok.mp h
  obtain ⟨hworth, hle, rfl⟩ := hc.convert_wrapped_eq_ok hwrapped hn h
  simp only [isCollateralBelowThreshold_eq_false, hc.convert_to_wrapped_eq_ok hwrapped hle,
    ConvertsExactly]
  have hback := div_mul_div_div_le (requiredTokens w threshold) price.inner lendRate.inner
    FixedU128.DIV
  constructor
  · rintro ⟨_, ⟨-, hprice, -, rfl⟩, ht, hfits, -, hw⟩
    rw [le_div_threshold_iff ht] at hw
    dsimp only at hw hfits
    refine ⟨ht, ?_⟩
    rw [← requiredTokens_eq_zero ht]
    by_cases hr : price.inner = 0
    · rw [hr, Nat.div_zero] at hw
      exact .inl (Nat.le_zero.mp hw)
    · rw [Nat.le_antisymm hback hw] at hfits
      rw [le_div_mul_div_div_iff (Nat.pos_of_ne_zero hr) FixedU128.DIV_pos] at hw
      exact .inr ⟨⟨hr, hw⟩, hfits⟩
  · rintro ⟨ht, rfl | ⟨⟨hr, hexact⟩, hfits⟩⟩
    · simp only [(requiredTokens_eq_zero ht).mpr rfl, Nat.zero_mul, Nat.zero_div]
      exact ⟨_, ⟨Nat.zero_le _, .inl trivial, Nat.zero_le _, rfl⟩, ht,
        by rw [Nat.zero_mul, Nat.zero_div]; exact Nat.zero_le _, rfl, Nat.zero_le _⟩
    · have hwhole := Nat.le_antisymm hback
        ((le_div_mul_div_div_iff (Nat.pos_of_ne_zero hr) FixedU128.DIV_pos).mpr hexact)
      refine ⟨_, ⟨(div_mul_div_le _ _ _).trans hworth, .inr hr, hback.trans hn, rfl⟩, ht, ?_, rfl,
        ?_⟩
      · rwa [hwhole]
      · rw [le_div_threshold_iff ht, hwhole]

/-- What the collateral covers is covered by it. -/
theorem max_not_below (hwrapped :
      CurrencyConfig.isLendToken (CurrencyConfig.wrapped : CurrencyId) = false)
    (h : calculateMaxWrappedFromCollateralForThreshold env x CurrencyConfig.wrapped threshold =
      .ok max) (hb : b ≤ max.amount) :
    isCollateralBelowThreshold env x ⟨b, CurrencyConfig.wrapped⟩ threshold = .ok false := by
  simp only [calculateMaxWrappedFromCollateralForThreshold, except_bind_eq_ok,
    Amount.checkedDiv_eq_ok] at h
  obtain ⟨y, hy, ht, hle, rfl⟩ := h
  exact isCollateralBelowThreshold_eq_false.mpr
    ⟨y, hy, ht, hle, Env.convert_to_wrapped_currencyId hwrapped hy, hb⟩

/-- At every price, rate of the loans and threshold: a vault that holds exactly the collateral
required for some tokens passes the check for them exactly if the threshold is positive and,
unless there are none, the required tokens convert without loss and fit a balance once divided by
the threshold. A vault that issues what its collateral covers always passes it. -/
theorem collateralization_checks (env : Env AccountId CurrencyId H256) (c : CurrencyId)
    (price lendRate threshold : FixedU128)
    (hwrapped : CurrencyConfig.isLendToken (CurrencyConfig.wrapped : CurrencyId) = false)
    (hc : env.Priced c price lendRate) :
    (∀ w required,
      getRequiredCollateralForWrappedWithThreshold env ⟨w, CurrencyConfig.wrapped⟩ threshold c =
          .ok required →
        (isCollateralBelowThreshold env required ⟨w, CurrencyConfig.wrapped⟩ threshold =
            .ok false ↔
          threshold.inner ≠ 0 ∧ (w = 0 ∨ ConvertsExactly w threshold price lendRate ∧
            requiredTokens w threshold * FixedU128.DIV / threshold.inner ≤ maxBalance))) ∧
      ∀ n max b,
        calculateMaxWrappedFromCollateralForThreshold env ⟨n, c⟩ CurrencyConfig.wrapped threshold =
            .ok max → b ≤ max.amount →
          isCollateralBelowThreshold env ⟨n, c⟩ ⟨b, CurrencyConfig.wrapped⟩ threshold =
            .ok false :=
  ⟨fun _ _ h => required_not_below hc hwrapped h, fun _ _ _ h hb => max_not_below hwrapped h hb⟩

end Chain

end Interbtc

/-! ## Collateral that is required and does not suffice -/

namespace Interbtc.Sample

open Core

/-- At a price of 2, five units of tokens are worth ten of collateral and back. -/
theorem collateral_suffices :
    Chain.isCollateralBelowThreshold (premiumEnv (rate 2)) ⟨10, .dot⟩ ⟨5, .ibtc⟩ .one =
        .ok false ∧
      Chain.isCollateralBelowThreshold (premiumEnv (rate 2)) ⟨10, .dot⟩ ⟨4, .ibtc⟩ .one =
        .ok false :=
  have h := Chain.collateralization_checks (premiumEnv (rate 2)) Currency.dot (rate 2) .one .one
    rfl (.oracle rfl rfl)
  ⟨(h.1 5 ⟨10, .dot⟩ (by decide +kernel)).mpr ⟨by decide, .inr (by decide +kernel)⟩,
    h.2 10 ⟨5, .ibtc⟩ 4 (by decide +kernel) (by decide)⟩

/-- At a price of 1.5, one unit of tokens requires one of collateral, which covers none. -/
theorem required_collateral_below :
    Chain.getRequiredCollateralForWrappedWithThreshold
        (premiumEnv ⟨3 * FixedU128.DIV / 2, by decide⟩) ⟨1, .ibtc⟩ .one Currency.dot =
          .ok ⟨1, .dot⟩ ∧
      Chain.isCollateralBelowThreshold (premiumEnv ⟨3 * FixedU128.DIV / 2, by decide⟩) ⟨1, .dot⟩
        ⟨1, .ibtc⟩ .one = .ok true := by
  decide +kernel

end Interbtc.Sample
