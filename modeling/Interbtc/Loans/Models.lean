import Interbtc.Loans.Books

/-!
# Interest models

The rate of an accepted model lies between the base rate and the rate at full utilization, never
falls with the utilization and does not jump. A market can accrue interest with each rate that
the model gives; only a jump at no utilization leaves a market without a rate.
-/

namespace Interbtc

open Core MultiCurrency

/-! ## Shares of a spread -/

namespace Permill

/-- The share `e` of `d` of a spread. It is rounded down to a product with `e`, and again. -/
def shareOf (spread e d : ℕ) : ℕ := spread * e / ACCURACY * ACCURACY / d

variable {spread e e' d : ℕ}

private theorem shareOf_le (h : e ≤ d) : shareOf spread e d ≤ spread :=
  Nat.div_le_of_le_mul (calc
    spread * e / ACCURACY * ACCURACY ≤ spread * e := Nat.div_mul_le_self _ _
    _ ≤ spread * d := Nat.mul_le_mul_left spread h
    _ = d * spread := Nat.mul_comm _ _)

private theorem shareOf_mono (h : e ≤ e') : shareOf spread e d ≤ shareOf spread e' d := by
  unfold shareOf
  gcongr

private theorem shareOf_mul_le : shareOf spread e d * d ≤ spread * e :=
  (Nat.div_mul_le_self _ _).trans (Nat.div_mul_le_self _ _)

/-- What is lost by rounding. -/
theorem mul_lt_shareOf_mul (hd : 0 < d) : spread * e < shareOf spread e d * d + ACCURACY + d := by
  have h₁ : spread * e < (spread * e / ACCURACY + 1) * ACCURACY :=
    Nat.lt_mul_of_div_lt (Nat.lt_succ_self _) ACCURACY_pos
  have h₂ : spread * e / ACCURACY * ACCURACY < (shareOf spread e d + 1) * d :=
    Nat.lt_mul_of_div_lt (Nat.lt_succ_self _) hd
  rw [Nat.succ_mul] at h₁ h₂
  omega

end Permill

namespace FixedU128

open Permill

private theorem saturatingMul_ofPermill (a : FixedU128) (p : Permill) :
    (a.saturatingMul (.ofPermill p)).inner = a.inner * p.parts / ACCURACY := by
  have hscale : a.inner * (p.parts * 10 ^ 12) / DIV = a.inner * p.parts / ACCURACY := by
    rw [← Nat.mul_assoc]
    exact Nat.mul_div_mul_right _ ACCURACY (by decide : 0 < 10 ^ 12)
  have hle : a.inner * p.parts / ACCURACY ≤ maxBalance :=
    (p.mulFloor_le a.inner).trans a.upper
  change min (a.inner * (p.parts * 10 ^ 12) / DIV) maxBalance = _
  rw [hscale, Nat.min_eq_left hle]

/-- A share of a spread, as the models compute it. -/
theorem share_eq_some {a c : FixedU128} {e d : Permill} :
    (a.saturatingMul (.ofPermill e)).checkedDiv (.ofPermill d) = some c ↔
      d.parts ≠ 0 ∧ c.inner = shareOf a.inner e.parts d.parts := by
  have hpos : d.parts * 10 ^ 12 ≠ 0 ↔ d.parts ≠ 0 := by simp
  have hscale : ∀ n, n * DIV / (d.parts * 10 ^ 12) = n * ACCURACY / d.parts := by
    intro n
    have hdiv : n * DIV = n * ACCURACY * 10 ^ 12 := by
      rw [Nat.mul_assoc]
      rfl
    rw [hdiv]
    exact Nat.mul_div_mul_right _ _ (by decide)
  rw [checkedDiv_eq_some, saturatingMul_ofPermill]
  change d.parts * 10 ^ 12 ≠ 0 ∧ c.inner = _ * DIV / (d.parts * 10 ^ 12) ↔ _
  rw [hpos, hscale]
  rfl

/-! ## Powers -/

private theorem saturatingMul_mono {a b c d : FixedU128} (hac : a.inner ≤ c.inner)
    (hbd : b.inner ≤ d.inner) : (a.saturatingMul b).inner ≤ (c.saturatingMul d).inner :=
  min_le_min (Nat.div_le_div_right (Nat.mul_le_mul hac hbd)) le_rfl

private theorem saturatingMul_le_one {a b : FixedU128} (ha : a.inner ≤ DIV) (hb : b.inner ≤ DIV) :
    (a.saturatingMul b).inner ≤ DIV :=
  (Nat.min_le_left _ _).trans (Nat.div_le_of_le_mul (Nat.mul_le_mul ha hb))

private theorem powLoop_mono {bits exp : ℕ} {r r' p p' : FixedU128} (hr : r.inner ≤ r'.inner)
    (hp : p.inner ≤ p'.inner) : (powLoop bits exp r p).inner ≤ (powLoop bits exp r' p').inner := by
  induction bits generalizing exp r r' p p' with
  | zero => exact hr
  | succ bits ih =>
    unfold powLoop
    split
    · exact hr
    · refine ih ?_ (saturatingMul_mono hp hp)
      split
      · exact saturatingMul_mono hr hp
      · exact hr

private theorem powLoop_le_one {bits exp : ℕ} {r p : FixedU128} (hr : r.inner ≤ DIV)
    (hp : p.inner ≤ DIV) : (powLoop bits exp r p).inner ≤ DIV := by
  induction bits generalizing exp r p with
  | zero => exact hr
  | succ bits ih =>
    unfold powLoop
    split
    · exact hr
    · refine ih ?_ (saturatingMul_le_one hp hp)
      split
      · exact saturatingMul_le_one hr hp
      · exact hr

private theorem ofPermill_le_one (p : Permill) : (ofPermill p).inner ≤ DIV :=
  Nat.mul_le_mul_right (10 ^ 12) p.upper

end FixedU128

/-! ## Rates of the models -/

namespace JumpModel

open Permill

variable {m : JumpModel} {u u' : Ratio} {r r' : Rate}

private theorem checkModel_iff : m.checkModel = true ↔ m.baseRate.inner ≤ maxBaseRate ∧
    m.jumpRate.inner ≤ maxJumpRate ∧ m.fullRate.inner ≤ maxFullRate ∧
    m.baseRate.inner ≤ m.jumpRate.inner ∧ m.jumpRate.inner ≤ m.fullRate.inner :=
  decide_eq_true_iff

/-- The rate at an amount of utilization, in the parts of the stored integer. -/
def rateAt (m : JumpModel) (u : ℕ) : ℕ :=
  if u ≤ m.jumpUtilization.parts then
    shareOf (m.jumpRate.inner - m.baseRate.inner) u m.jumpUtilization.parts + m.baseRate.inner
  else
    shareOf (m.fullRate.inner - m.jumpRate.inner) (u - m.jumpUtilization.parts)
      (ACCURACY - m.jumpUtilization.parts) + m.jumpRate.inner

private theorem getBorrowRate_eq_some (hm : m.checkModel = true) : m.getBorrowRate u = some r ↔
    (m.jumpUtilization.parts ≠ 0 ∨ u.parts ≠ 0) ∧ r.inner = m.rateAt u.parts := by
  obtain ⟨-, -, -, hbase, hjump⟩ := checkModel_iff.mp hm
  have hupper := u.upper
  unfold getBorrowRate rateAt
  split
  · rename_i hle
    have hrated : (m.jumpUtilization.parts ≠ 0 ∨ u.parts ≠ 0) ↔ m.jumpUtilization.parts ≠ 0 := by
      omega
    simp only [Option.bind_eq_bind, Option.bind_eq_some_iff, FixedU128.checkedSub_eq_some,
      FixedU128.share_eq_some, FixedU128.checkedAdd_eq_some, hrated]
    constructor
    · rintro ⟨spread, ⟨-, hs⟩, slope, ⟨hj, hslope⟩, hr⟩
      rw [hs] at hslope
      exact ⟨hj, hr.trans (by rw [hslope])⟩
    · rintro ⟨hj, hr⟩
      have hle' := @shareOf_le (m.jumpRate.inner - m.baseRate.inner) _ _ hle
      refine ⟨⟨_, (Nat.sub_le _ _).trans m.jumpRate.upper⟩, ⟨hbase, rfl⟩,
        ⟨_, hle'.trans ((Nat.sub_le _ _).trans m.jumpRate.upper)⟩, ⟨hj, rfl⟩, hr⟩
  · rename_i hlt
    have hrated : (m.jumpUtilization.parts ≠ 0 ∨ u.parts ≠ 0) ↔ True := by
      refine iff_true_intro ?_
      omega
    have hexcess : u.parts - m.jumpUtilization.parts ≤ ACCURACY - m.jumpUtilization.parts :=
      Nat.sub_le_sub_right u.upper _
    have hrest : ACCURACY - m.jumpUtilization.parts ≠ 0 := by
      omega
    simp only [Option.bind_eq_bind, Option.bind_eq_some_iff, FixedU128.checkedSub_eq_some,
      FixedU128.share_eq_some, FixedU128.checkedAdd_eq_some, hrated, true_and]
    constructor
    · rintro ⟨spread, ⟨-, hs⟩, slope, ⟨hj, hslope⟩, hr⟩
      rw [hs] at hslope
      exact hr.trans (by rw [hslope]; rfl)
    · intro hr
      have hle' := @shareOf_le (m.fullRate.inner - m.jumpRate.inner) _ _ hexcess
      refine ⟨⟨_, (Nat.sub_le _ _).trans m.fullRate.upper⟩, ⟨hjump, rfl⟩,
        ⟨_, hle'.trans ((Nat.sub_le _ _).trans m.fullRate.upper)⟩, ⟨hrest, rfl⟩, hr⟩

section Accepted

variable {n n' : ℕ}

private theorem baseRate_le_rateAt (hm : m.checkModel = true) : m.baseRate.inner ≤ m.rateAt n := by
  obtain ⟨-, -, -, hbase, -⟩ := checkModel_iff.mp hm
  unfold rateAt
  split
  · exact Nat.le_add_left _ _
  · exact hbase.trans (Nat.le_add_left _ _)

/-- Up to the point of the jump the rate is at most the jump rate. -/
theorem rateAt_le_jumpRate (hm : m.checkModel = true) (h : n ≤ m.jumpUtilization.parts) :
    m.rateAt n ≤ m.jumpRate.inner := by
  obtain ⟨-, -, -, hbase, -⟩ := checkModel_iff.mp hm
  rw [rateAt, if_pos h]
  exact (Nat.add_le_add_right (shareOf_le h) _).trans_eq (Nat.sub_add_cancel hbase)

private theorem jumpRate_le_rateAt (h : m.jumpUtilization.parts < n) :
    m.jumpRate.inner ≤ m.rateAt n := by
  rw [rateAt, if_neg (not_le.mpr h)]
  exact Nat.le_add_left _ _

private theorem rateAt_mono (hm : m.checkModel = true) (h : n ≤ n') : m.rateAt n ≤ m.rateAt n' := by
  rcases Nat.lt_or_ge m.jumpUtilization.parts n' with hlt' | hle'
  · rcases Nat.lt_or_ge m.jumpUtilization.parts n with hlt | hle
    · rw [rateAt, rateAt, if_neg (not_le.mpr hlt), if_neg (not_le.mpr hlt')]
      exact Nat.add_le_add_right (shareOf_mono (Nat.sub_le_sub_right h _)) _
    · exact (rateAt_le_jumpRate hm hle).trans (jumpRate_le_rateAt hlt')
  · rw [rateAt, rateAt, if_pos (h.trans hle'), if_pos hle']
    exact Nat.add_le_add_right (shareOf_mono h) _

private theorem rateAt_le_max (hm : m.checkModel = true) : m.rateAt ACCURACY ≤ maxBalance := by
  obtain ⟨-, -, -, -, hjump⟩ := checkModel_iff.mp hm
  rcases Nat.lt_or_ge m.jumpUtilization.parts ACCURACY with hlt | hle
  · rw [rateAt, if_neg (not_le.mpr hlt)]
    refine (Nat.add_le_add_right (shareOf_le le_rfl) _).trans ?_
    rw [Nat.sub_add_cancel hjump]
    exact m.fullRate.upper
  · exact (rateAt_le_jumpRate hm hle).trans m.jumpRate.upper

/-- Below the point of the jump the rate approaches the jump rate. -/
theorem jumpRate_sub_rateAt (hm : m.checkModel = true) (h : n ≤ m.jumpUtilization.parts)
    (hj : 0 < m.jumpUtilization.parts) :
    (m.jumpRate.inner - m.rateAt n) * m.jumpUtilization.parts ≤
      (m.jumpRate.inner - m.baseRate.inner) * (m.jumpUtilization.parts - n) +
        ACCURACY + m.jumpUtilization.parts := by
  obtain ⟨-, -, -, hbase, -⟩ := checkModel_iff.mp hm
  rw [rateAt, if_pos h]
  generalize m.jumpUtilization.parts = d at h hj ⊢
  obtain ⟨spread, hspread⟩ := Nat.exists_eq_add_of_le hbase
  rw [hspread, Nat.add_sub_cancel_left, Nat.add_comm (shareOf _ _ _), Nat.add_sub_add_left,
    Nat.sub_mul, Nat.mul_sub]
  have hlost := @mul_lt_shareOf_mul spread n d hj
  omega

/-- Beyond it the rate leaves the jump rate as slowly as the rest of the rates allows. -/
theorem rateAt_sub_jumpRate (h : m.jumpUtilization.parts < n) :
    (m.rateAt n - m.jumpRate.inner) * (ACCURACY - m.jumpUtilization.parts) ≤
      (m.fullRate.inner - m.jumpRate.inner) * (n - m.jumpUtilization.parts) := by
  rw [rateAt, if_neg (not_le.mpr h), Nat.add_sub_cancel]
  exact shareOf_mul_le

end Accepted

end JumpModel

namespace CurveModel

variable {m : CurveModel} {u : Ratio} {r : Rate}

/-- The power is at most one, so the rate fits. -/
theorem exists_getBorrowRate (hm : m.checkModel = true) : ∃ r, m.getBorrowRate u = some r := by
  have hbase : m.baseRate.inner ≤ maxBaseRate := of_decide_eq_true hm
  have hpow : ((FixedU128.ofPermill u).saturatingPow 9).inner ≤ FixedU128.DIV :=
    FixedU128.powLoop_le_one le_rfl (FixedU128.ofPermill_le_one u)
  refine ⟨⟨_, (Nat.add_le_add hpow hbase).trans (by decide)⟩, ?_⟩
  exact FixedU128.checkedAdd_eq_some.mpr rfl

end CurveModel

namespace InterestRateModel

variable {m : InterestRateModel} {u u' : Ratio} {r r' : Rate}

/-- The rate at utilization zero. -/
def baseRate : InterestRateModel → Rate
  | .jump m => m.baseRate
  | .curve m => m.baseRate

/-- The model does not jump at the utilization, or the utilization is not zero. -/
def RatedAt (u : Ratio) : InterestRateModel → Prop
  | .jump m => m.jumpUtilization.parts ≠ 0 ∨ u.parts ≠ 0
  | .curve _ => True

private theorem exists_getBorrowRate (hm : m.checkModel = true) :
    (∃ r, m.getBorrowRate u = some r) ↔ m.RatedAt u := by
  cases m with
  | curve m => exact iff_of_true (CurveModel.exists_getBorrowRate hm) trivial
  | jump m =>
    constructor
    · rintro ⟨r, hr⟩
      exact ((JumpModel.getBorrowRate_eq_some hm).mp hr).1
    · intro hrated
      have hmax : m.rateAt u.parts ≤ maxBalance := by
        refine (JumpModel.rateAt_mono hm u.upper).trans ?_
        exact JumpModel.rateAt_le_max hm
      exact ⟨⟨_, hmax⟩, (JumpModel.getBorrowRate_eq_some hm).mpr ⟨hrated, rfl⟩⟩

private theorem baseRate_le (hm : m.checkModel = true) (hr : m.getBorrowRate u = some r) :
    m.baseRate.inner ≤ r.inner := by
  cases m with
  | curve m =>
    rw [FixedU128.checkedAdd_eq_some.mp hr]
    exact Nat.le_add_left _ _
  | jump m =>
    rw [((JumpModel.getBorrowRate_eq_some hm).mp hr).2]
    exact JumpModel.baseRate_le_rateAt hm

/-- The rate never falls with the utilization. -/
theorem getBorrowRate_mono (hm : m.checkModel = true) (h : u.parts ≤ u'.parts)
    (hr : m.getBorrowRate u = some r) (hr' : m.getBorrowRate u' = some r') :
    r.inner ≤ r'.inner := by
  cases m with
  | curve m =>
    rw [FixedU128.checkedAdd_eq_some.mp hr, FixedU128.checkedAdd_eq_some.mp hr']
    refine Nat.add_le_add_right (FixedU128.powLoop_mono le_rfl ?_) _
    exact Nat.mul_le_mul_right _ h
  | jump m =>
    rw [((JumpModel.getBorrowRate_eq_some hm).mp hr).2,
      ((JumpModel.getBorrowRate_eq_some hm).mp hr').2]
    exact JumpModel.rateAt_mono hm h

private theorem ratedAt_one : m.RatedAt .one := by
  cases m with
  | curve m => trivial
  | jump m => exact .inr (by decide)

end InterestRateModel

/-! ## Usable models -/

namespace Loans

/-- Interest compounds at every rate. -/
theorem accrueIndex_eq (r : Rate) (deltaTime : ℕ) :
    ∃ factor : Rate, FixedU128.DIV ≤ factor.inner ∧ ∀ index,
      accrueIndex r index deltaTime = okOr (.arithmetic .overflow) (index.checkedMul factor) := by
  have hdiv : r.inner * FixedU128.DIV / (secondsPerYear * FixedU128.DIV) =
      r.inner / secondsPerYear := Nat.mul_div_mul_right _ _ FixedU128.DIV_pos
  have hsum : FixedU128.DIV + r.inner / secondsPerYear ≤ maxBalance :=
    (Nat.add_le_add_left (Nat.div_le_div_right r.upper) _).trans (by decide)
  have hfraction : r.checkedDiv (.saturatingFromInteger secondsPerYear) =
      some ⟨r.inner / secondsPerYear, (Nat.div_le_self _ _).trans r.upper⟩ :=
    FixedU128.checkedDiv_eq_some.mpr ⟨by decide, hdiv.symm⟩
  refine ⟨FixedU128.saturatingPow ⟨_, hsum⟩ (min deltaTime (2 ^ 32 - 1)),
    FixedU128.one_le_saturatingPow (Nat.le_add_right _ _) _, fun index => ?_⟩
  have hadd : FixedU128.one.checkedAdd
      ⟨r.inner / secondsPerYear, (Nat.div_le_self _ _).trans r.upper⟩ = some ⟨_, hsum⟩ :=
    FixedU128.checkedAdd_eq_some.mpr rfl
  unfold accrueIndex
  rw [hfraction]
  change okOr _ (FixedU128.one.checkedAdd _) >>= _ = _
  rw [hadd]
  rfl

end Loans

/-- Close to the point of the jump, on both sides of it, the rate is close to the jump rate. -/
structure JumpModel.Continuous (m : JumpModel) (u : Ratio) (r : Rate) : Prop where
  below : u.parts ≤ m.jumpUtilization.parts → r.inner ≤ m.jumpRate.inner ∧
    (m.jumpRate.inner - r.inner) * m.jumpUtilization.parts ≤
      (m.jumpRate.inner - m.baseRate.inner) * (m.jumpUtilization.parts - u.parts) +
        Permill.ACCURACY + m.jumpUtilization.parts
  above : m.jumpUtilization.parts < u.parts → m.jumpRate.inner ≤ r.inner ∧
    (r.inner - m.jumpRate.inner) * (Permill.ACCURACY - m.jumpUtilization.parts) ≤
      (m.fullRate.inner - m.jumpRate.inner) * (u.parts - m.jumpUtilization.parts)

/-- A model gives a rate at a utilization, and is used as its parameters say. -/
structure InterestRateModel.Usable (m : InterestRateModel) (u : Ratio) (r : Rate) : Prop where
  rate : m.getBorrowRate u = some r
  base_le : m.baseRate.inner ≤ r.inner
  le_full : ∃ full, m.getBorrowRate .one = some full ∧ r.inner ≤ full.inner
  mono : ∀ u' r', u.parts ≤ u'.parts → m.getBorrowRate u' = some r' → r.inner ≤ r'.inner
  continuous : ∀ jump, m = .jump jump → jump.Continuous u r
  compounds : ∀ deltaTime, ∃ factor : Rate, FixedU128.DIV ≤ factor.inner ∧ ∀ index,
    Loans.accrueIndex r index deltaTime = okOr (.arithmetic .overflow) (index.checkedMul factor)

namespace InterestRateModel

variable {m : InterestRateModel} {u : Ratio} {r : Rate}

private theorem continuous_of_eq_some {m : JumpModel} (hm : m.checkModel = true)
    (hr : m.getBorrowRate u = some r) : m.Continuous u r := by
  obtain ⟨hrated, hinner⟩ := (JumpModel.getBorrowRate_eq_some hm).mp hr
  refine ⟨fun hle => ?_, fun hlt => ?_⟩
  · rw [hinner]
    exact ⟨JumpModel.rateAt_le_jumpRate hm hle, JumpModel.jumpRate_sub_rateAt hm hle (by omega)⟩
  · rw [hinner]
    exact ⟨JumpModel.jumpRate_le_rateAt hlt, JumpModel.rateAt_sub_jumpRate hlt⟩

private theorem usable_of_eq_some (hm : m.checkModel = true) (hr : m.getBorrowRate u = some r) :
    m.Usable u r where
  rate := hr
  base_le := baseRate_le hm hr
  le_full := by
    obtain ⟨full, hfull⟩ := (exists_getBorrowRate hm).mpr (ratedAt_one (m := m))
    exact ⟨full, hfull, getBorrowRate_mono hm u.upper hr hfull⟩
  mono u' r' h hr' := getBorrowRate_mono hm h hr hr'
  continuous jump hj := by
    subst hj
    exact continuous_of_eq_some hm hr
  compounds deltaTime := Loans.accrueIndex_eq r deltaTime

end InterestRateModel

namespace Loans

variable {AccountId CurrencyId H256 Tokens : Type} [DecidableEq AccountId]
  [DecidableEq CurrencyId] [MultiCurrency Tokens AccountId CurrencyId]
  [CurrencyConfig CurrencyId] [LoansConfig AccountId CurrencyId]

/-- The totals of a market with interest at a rate are in range, and the exchange rate that they
give is valid. -/
def InterestFits (s : Loans AccountId CurrencyId Tokens) (now : ℕ) (assetId : CurrencyId)
    (market : Market CurrencyId) (r : Rate) : Prop :=
  ∃ supply totals exchangeRate, s.totalSupply assetId = .ok supply ∧
    s.accruedTotals now assetId market r = .ok totals ∧
    s.calculateExchangeRate supply (s.getTotalCash assetId) totals.1 totals.2.1 = .ok exchangeRate

omit [DecidableEq AccountId] [CurrencyConfig CurrencyId] in
private theorem exists_getMarketStatus {s : Loans AccountId CurrencyId Tokens} {a : CurrencyId}
    {market : Market CurrencyId} {u : Ratio} {now : ℕ} (hmarket : s.market a = .ok market)
    (hu : calcUtilizationRatio (s.getTotalCash a) (s.borrows a) (s.reserves a) = .ok u) :
    (∃ status, s.getMarketStatus now a = .ok status) ↔
      ∃ r, market.rateModel.getBorrowRate u = some r ∧ s.InterestFits now a market r := by
  simp only [getMarketStatus, except_bind_eq_ok, except_pure_eq_ok, okOr_eq_ok, hmarket, hu,
    Except.ok.injEq, exists_eq_left']
  constructor
  · rintro ⟨status, supply, hsupply, r, hr, totals, htotals, rate, hrate, -⟩
    exact ⟨r, hr, supply, totals, rate, hsupply, htotals, hrate⟩
  · rintro ⟨r, hr, supply, totals, rate, hsupply, htotals, hrate⟩
    exact ⟨_, supply, hsupply, r, hr, totals, htotals, rate, hrate, rfl⟩

/-- An accepted model is usable at a utilization if and only if it does not jump there at zero, and
whether a market can accrue interest is then a matter of the amounts. -/
theorem accepted_model_usable_iff {m : InterestRateModel} (hm : m.checkModel = true) (u : Ratio) :
    ((∃ r, m.Usable u r) ↔ m.RatedAt u) ∧
    ∀ (env : LoansEnv AccountId CurrencyId H256) (s : Loans AccountId CurrencyId Tokens)
      (assetId : CurrencyId) (market : Market CurrencyId),
      s.market assetId = .ok market → market.rateModel = m →
      calcUtilizationRatio (s.getTotalCash assetId) (s.borrows assetId) (s.reserves assetId) =
        .ok u →
      ((accrueInterest env assetId).succeeds s = true ↔
        s.lastAccruedInterestTime assetId = 0 ∨ env.now ≤ s.lastAccruedInterestTime assetId ∨
          (m.RatedAt u ∧ ∃ r, m.Usable u r ∧ s.InterestFits env.now assetId market r)) := by
  have husable : ∀ r, m.Usable u r ↔ m.getBorrowRate u = some r :=
    fun r => ⟨fun h => h.rate, InterestRateModel.usable_of_eq_some hm⟩
  have hrated := InterestRateModel.exists_getBorrowRate (u := u) hm
  refine ⟨(exists_congr husable).trans hrated, fun env s a market hmarket hmodel hu => ?_⟩
  subst hmodel
  have hstatus : (∃ status, s.getMarketStatus env.now a = .ok status) ↔ ∃ r,
      market.rateModel.getBorrowRate u = some r ∧ s.InterestFits env.now a market r :=
    exists_getMarketStatus hmarket hu
  rw [Call.succeeds_iff]
  constructor
  · rintro ⟨_, s', hrun⟩
    rcases run_accrueInterest.mp hrun with ⟨h, -⟩ | ⟨-, h, -⟩ | ⟨-, -, status, h, -⟩
    · exact .inl h
    · exact .inr (.inl h)
    · obtain ⟨r, hr, hfits⟩ := hstatus.mp ⟨status, h⟩
      exact .inr (.inr ⟨hrated.mp ⟨r, hr⟩, r, (husable r).mpr hr, hfits⟩)
  · intro h
    by_cases hstart : s.lastAccruedInterestTime a = 0
    · exact ⟨(), _, run_accrueInterest.mpr (.inl ⟨hstart, rfl⟩)⟩
    rcases Nat.lt_or_ge (s.lastAccruedInterestTime a) env.now with hlt | hle
    · rcases h with h | h | ⟨-, r, hr, hfits⟩
      · exact absurd h hstart
      · exact absurd h (not_le.mpr hlt)
      · obtain ⟨status, hst⟩ := hstatus.mpr ⟨r, hr.rate, hfits⟩
        exact ⟨(), _, run_accrueInterest.mpr (.inr (.inr ⟨hstart, hlt, status, hst, rfl⟩))⟩
    · exact ⟨(), _, run_accrueInterest.mpr (.inr (.inl ⟨hstart, hle, rfl⟩))⟩

namespace Sample

/-- A market whose rate jumps as soon as something is borrowed. -/
def jumping : Market Asset :=
  { market .lendDot with rateModel := .jump ⟨rate 2, rate 10, rate 32, percent 0⟩ }

/-- A market is listed, and lent to but not borrowed from. -/
def lentTo (market : Market Asset) : Run :=
  [(envAt 1000, .addMarket .dot market), (envAt 1000, .activateMarket .dot),
    (envAt 1000, .mint alice .dot 100)]

/-- The model is accepted, and the market can accrue no interest from the next second on. -/
theorem jumping_stuck :
    jumping.rateModel.checkModel = true ∧ jumping.rateModel.getBorrowRate .zero = none ∧
    (run step (start 1000) (lentTo jumping)).market .dot = .ok { jumping with state := .active } ∧
    (accrueInterest (envAt 1001) .dot).error? (run step (start 1000) (lentTo jumping)) =
      some (.arithmetic .overflow) := by
  decide +kernel

/-- A jump at 80%, in a market that nobody borrows from. -/
theorem accepted_model_usable_lentTo : ∃ r, (market .lendDot).rateModel.Usable .zero r ∧
    (run step (start 1000) (lentTo (market .lendDot))).InterestFits 1001 .dot
      { market .lendDot with state := .active } r := by
  have hiff := ((@accepted_model_usable_iff Holder Asset Unit (TokenLedger Holder Asset) _ _ _ _ _
    (market .lendDot).rateModel (by decide) .zero).2 (envAt 1001)
    (run step (start 1000) (lentTo (market .lendDot))) .dot
    { market .lendDot with state := .active } (by decide +kernel) rfl (by decide +kernel)).mp
    (by decide +kernel)
  rcases hiff with hstart | hle | ⟨-, h⟩
  · exact absurd hstart (by decide +kernel)
  · exact absurd hle (by decide +kernel)
  · exact h

end Sample

end Loans

end Interbtc
