import Interbtc.Accounting.Redeeming
import Interbtc.Bridge.Dispatch

/-!
# Premiums for redeeming

A redeemer is paid a premium for redeeming with a vault that is short of collateral. The
report of the vaults that pay one asks whether a vault is below the premium threshold; a
request only asks how much the vault lacks to the secure threshold.
-/

namespace Interbtc

open Core MultiCurrency

/-! ## Rounding -/

/-- A quotient that lost `k` units is multiplied back to a product that lost what these are
worth, and one unit more. -/
theorem le_mul_div_of_div_le {x m k p d : ℕ} (hp : 0 < p) (hd : 0 < d)
    (h : x * d / p ≤ m + k) : x ≤ m * p / d + ((k + 1) * p / d + 1) := by
  have hx : x * d < (m + k + 1) * p := (Nat.div_lt_iff_lt_mul hp).mp (Nat.lt_succ_of_le h)
  have hm : m * p < d * (m * p / d + 1) := Nat.lt_mul_div_succ _ hd
  have hk : (k + 1) * p < d * ((k + 1) * p / d + 1) := Nat.lt_mul_div_succ _ hd
  refine Nat.le_of_lt_add_one (Nat.lt_of_mul_lt_mul_left (a := d) ?_)
  calc d * x = x * d := Nat.mul_comm _ _
    _ < m * p + (k + 1) * p := by linarith
    _ < d * (m * p / d + 1) + d * ((k + 1) * p / d + 1) := Nat.add_lt_add hm hk
    _ = _ := by ring

/-- Tokens whose fee is set aside in advance leave at least all but one unit. -/
theorem le_sub_fee_add_one {x n f d fee : ℕ} (hf : f < d) (hn : n = x * d / (d - f))
    (hfee : 2 * (fee * d) ≤ 2 * (n * f) + d) (hle : fee ≤ n) : x ≤ n - fee + 1 := by
  have hx : x * d < (d - f) * (n + 1) := by
    rw [hn]
    exact Nat.lt_mul_div_succ _ (Nat.sub_pos_of_lt hf)
  obtain ⟨b, rfl⟩ := Nat.exists_eq_add_of_le hle
  obtain ⟨g, rfl⟩ := Nat.exists_eq_add_of_lt hf
  rw [Nat.add_sub_cancel_left]
  rw [show f + g + 1 - f = g + 1 by omega] at hx
  refine Nat.le_of_lt_add_one (Nat.lt_of_mul_lt_mul_right (a := f + g + 1) ?_)
  nlinarith

namespace Env

variable {AccountId CurrencyId H256 : Type} [DecidableEq CurrencyId] [CurrencyConfig CurrencyId]
  {env : Env AccountId CurrencyId H256} {c w : CurrencyId}

/-- Converted to `w` and, less one unit, back to `c`, an amount loses at most `loss`. -/
def RoundTripLoses (env : Env AccountId CurrencyId H256) (c w : CurrencyId) (loss : ℕ) : Prop :=
  ∀ x y m z, env.convert ⟨x, c⟩ w = .ok y → y.amount ≤ m + 1 →
    env.convert ⟨m, w⟩ c = .ok z → x ≤ z.amount + loss

section

omit [DecidableEq CurrencyId] [CurrencyConfig CurrencyId]

/-- A conversion to collateral rounds down. -/
theorem wrappedToCollateral_eq_ok {n m : ℕ} : env.wrappedToCollateral n c = .ok m ↔
    ∃ rate, env.exchangeRate c = some rate ∧ n * rate.inner / FixedU128.DIV ≤ maxBalance ∧
      n * rate.inner / FixedU128.DIV = m := by
  simp only [wrappedToCollateral, getPrice, except_bind_eq_ok, okOr_eq_ok,
    Amount.checkedMul_eq_ok, except_pure_eq_ok, and_assoc, exists_and_left, exists_eq_left']

private theorem collateralToWrapped_eq_ok {n m : ℕ} (h : env.collateralToWrapped n c = .ok m) :
    ∃ rate, env.exchangeRate c = some rate ∧
      (n = 0 ∧ m = 0 ∨ 0 < rate.inner ∧ n * FixedU128.DIV / rate.inner = m) := by
  simp only [collateralToWrapped, getPrice, except_bind_eq_ok, okOr_eq_ok, except_ite_eq_ok,
    Amount.checkedDiv_eq_ok, except_pure_eq_ok, and_assoc, exists_and_left,
    exists_eq_left'] at h
  obtain ⟨rate, hrate, ⟨hn, hm⟩ | ⟨-, hpos, -, hm⟩⟩ := h
  · exact ⟨rate, hrate, .inl ⟨hn, hm.symm⟩⟩
  · exact ⟨rate, hrate, .inr ⟨Nat.pos_of_ne_zero hpos, hm⟩⟩

end

/-- For a collateral with a price, the loss is what two wrapped units are worth, and one. -/
theorem roundTripLoses_of_price {price : FixedU128} (hprice : env.exchangeRate c = some price)
    (hc : CurrencyConfig.isLendToken c = false) (hw : CurrencyConfig.wrapped = w)
    (hlend : CurrencyConfig.isLendToken w = false) (hne : c ≠ w) :
    env.RoundTripLoses c w (2 * price.inner / FixedU128.DIV + 1) := by
  intro x y m z hy hle hz
  simp only [convert, oracleConvert, hc, hlend, hw, hne, hne.symm, Bool.false_eq_true, and_self,
    if_false, if_true, except_bind_eq_ok, except_pure_eq_ok] at hy hz
  obtain ⟨y, hy, rfl⟩ := hy
  obtain ⟨z, hz, rfl⟩ := hz
  obtain ⟨rate, hrate, hy⟩ := collateralToWrapped_eq_ok hy
  obtain ⟨rate', hrate', -, rfl⟩ := wrappedToCollateral_eq_ok.mp hz
  obtain rfl := Option.some.inj (hprice.symm.trans hrate)
  obtain rfl := Option.some.inj (hprice.symm.trans hrate')
  obtain ⟨rfl, -⟩ | ⟨hpos, rfl⟩ := hy
  · exact Nat.zero_le _
  · exact le_mul_div_of_div_le hpos FixedU128.DIV_pos hle

/-- For lend tokens whose underlying has a price: also what is lost at the rate of the loans. -/
theorem roundTripLoses_of_lendRate {price lendRate : FixedU128} {underlying : CurrencyId}
    (hid : env.underlyingId c = .ok underlying)
    (hprice : env.exchangeRate underlying = some price) (hrate : 0 < lendRate.inner)
    (hunderlying : ∀ n a, env.recomputeUnderlyingAmount ⟨n, c⟩ = .ok a →
      a = ⟨n * lendRate.inner / FixedU128.DIV, underlying⟩)
    (hcollateral : ∀ n a, env.recomputeCollateralAmount ⟨n, underlying⟩ = .ok a →
      a = ⟨n * FixedU128.DIV / lendRate.inner, c⟩)
    (hc : CurrencyConfig.isLendToken c = true) (hw : CurrencyConfig.wrapped = w)
    (hlend : CurrencyConfig.isLendToken w = false) (hne : underlying ≠ w) :
    env.RoundTripLoses c w
      ((2 * price.inner / FixedU128.DIV + 1 + 1) * FixedU128.DIV / lendRate.inner + 1) := by
  intro x y m z hy hle hz
  simp only [convert, oracleConvert, hc, hlend, hw, hid, Bool.false_eq_true, and_false, false_and,
    if_false, if_true, except_bind_eq_ok, Except.ok.injEq, exists_eq_left'] at hy hz
  obtain ⟨a, ha, hy⟩ := hy
  obtain ⟨b, hb, hz⟩ := hz
  obtain rfl := hunderlying _ _ ha
  simp only [hne, hne.symm, if_false, except_bind_eq_ok, except_pure_eq_ok] at hy hb
  obtain ⟨y, hy, rfl⟩ := hy
  obtain ⟨n, hn, rfl⟩ := hb
  obtain rfl := hcollateral _ _ hz
  obtain ⟨rate, hrate₁, hy⟩ := collateralToWrapped_eq_ok hy
  obtain ⟨rate', hrate₂, -, rfl⟩ := wrappedToCollateral_eq_ok.mp hn
  obtain rfl := Option.some.inj (hprice.symm.trans hrate₁)
  obtain rfl := Option.some.inj (hprice.symm.trans hrate₂)
  refine le_mul_div_of_div_le FixedU128.DIV_pos hrate ?_
  obtain ⟨hzero, -⟩ | ⟨hpos, rfl⟩ := hy
  · rw [hzero]
    exact Nat.zero_le _
  · exact le_mul_div_of_div_le hpos FixedU128.DIV_pos hle

end Env

namespace VaultRegistry

variable {AccountId CurrencyId : Type} [DecidableEq AccountId] [DecidableEq CurrencyId]
  {r r' : VaultRegistry AccountId CurrencyId} {v : VaultId AccountId CurrencyId} {d : Vault}
  {n : ℕ} {y z : Amount CurrencyId} {u : Unit}

/-- Tokens are reserved exactly if the vault has issued them and does not have to redeem them
yet. -/
theorem tryIncreaseToBeRedeemedTokens_eq_ok (hd : r.vaults v = some d)
    (hl : d.isLiquidated = false) :
    (tryIncreaseToBeRedeemedTokens v ⟨n, v.wrappedCurrency⟩).run r = .ok u r' ↔
      d.toBeRedeemedTokens + n ≤ min d.issuedTokens maxBalance ∧
        r' = r.setVault v { d with toBeRedeemedTokens := d.toBeRedeemedTokens + n } := by
  have hget : r.getActiveRichVaultFromId v = .ok ⟨v, d⟩ :=
    getActiveRichVaultFromId_eq_ok.mpr ⟨rfl, hd, hl⟩
  simp only [tryIncreaseToBeRedeemedTokens, RichVault.requestRedeemTokens,
    RichVault.increaseToBeRedeemed, RichVault.run_increase, Call.run_bind_eq_ok,
    Call.run_reads_eq_ok, hget, Except.ok.injEq, Call.run_ofExcept_eq_ok,
    Amount.checkedSub_eq_ok, Amount.ge_eq_ok, Call.run_ensure_eq_ok, Call.run_pure_eq_ok]
  constructor
  · rintro ⟨_, _, ⟨rfl, rfl⟩, _, _, ⟨⟨-, hle, rfl⟩, rfl⟩, _, _, ⟨⟨-, rfl⟩, rfl⟩, _, _,
      ⟨hcovered, rfl⟩, _, _, ⟨_, _, ⟨-, rfl⟩, -, hmax, -, rfl⟩, -, rfl⟩
    have hcovered := of_decide_eq_true hcovered
    change d.toBeRedeemedTokens ≤ d.issuedTokens at hle
    change n ≤ d.issuedTokens - d.toBeRedeemedTokens at hcovered
    exact ⟨le_min (by omega) hmax, rfl⟩
  · rintro ⟨hle, rfl⟩
    obtain ⟨hle, hmax⟩ := le_min_iff.mp hle
    refine ⟨_, r, ⟨rfl, rfl⟩, _, r, ⟨⟨rfl, ?_, rfl⟩, rfl⟩, _, r, ⟨⟨rfl, rfl⟩, rfl⟩, (), r,
      ⟨decide_eq_true ?_, rfl⟩, _, _, ⟨(), r, ⟨hl, rfl⟩, rfl, hmax, rfl, rfl⟩, trivial, rfl⟩
    · change d.toBeRedeemedTokens ≤ d.issuedTokens
      omega
    · change n ≤ d.issuedTokens - d.toBeRedeemedTokens
      omega

/-- Tokens that need not be replaced any more free their share of the griefing collateral. -/
theorem decreaseToBeReplacedTokens_eq_ok [CurrencyConfig CurrencyId] (hd : r.vaults v = some d) :
    (decreaseToBeReplacedTokens v ⟨n, v.wrappedCurrency⟩).run r = .ok (y, z) r' ↔
      calculateCollateral ⟨d.replaceCollateral, CurrencyConfig.griefingCollateral⟩
          ⟨min n d.toBeReplacedTokens, v.wrappedCurrency⟩
          ⟨d.toBeReplacedTokens, v.wrappedCurrency⟩ = .ok z ∧
        y = ⟨min n d.toBeReplacedTokens, v.wrappedCurrency⟩ ∧
        r' = r.setVault v
          { d with toBeReplacedTokens := d.toBeReplacedTokens - min n d.toBeReplacedTokens } := by
  have hget : r.getRichVaultFromId v = .ok ⟨v, d⟩ := getRichVaultFromId_eq_ok.mpr ⟨rfl, hd⟩
  simp only [decreaseToBeReplacedTokens, RichVault.setToBeReplacedAmount,
    Call.run_bind_eq_ok, Call.run_reads_eq_ok, hget, Except.ok.injEq, Call.run_ofExcept_eq_ok,
    Call.run_pure_eq_ok, Amount.min_eq_ok, Amount.checkedSub_eq_ok, Prod.mk.injEq]
  constructor
  · rintro ⟨_, _, ⟨rfl, rfl⟩, _, _, ⟨⟨-, rfl⟩, rfl⟩, used, _, ⟨hused, rfl⟩, _, _,
      ⟨⟨-, rfl⟩, rfl⟩, _, _, ⟨⟨-, -, rfl⟩, rfl⟩, _, _, hrun, ⟨rfl, rfl⟩, rfl⟩
    obtain ⟨-, rfl⟩ := RichVault.run_update hrun
    refine ⟨?_, rfl, rfl⟩
    obtain ⟨-, rfl⟩ := calculateCollateral_eq_ok.mp hused
    exact hused.trans (congrArg (fun m => Except.ok (Amount.mk m _))
      (Nat.min_eq_left (collateralShare_le (Nat.min_le_right _ _))).symm)
  · rintro ⟨hused, rfl, rfl⟩
    obtain ⟨-, rfl⟩ := calculateCollateral_eq_ok.mp hused
    refine ⟨_, r, ⟨rfl, rfl⟩, _, r, ⟨⟨trivial, rfl⟩, rfl⟩, _, r, ⟨hused, rfl⟩, _, r,
      ⟨⟨rfl, congrArg (Amount.mk · _) (Nat.min_eq_left ?_)⟩, rfl⟩, _, r,
      ⟨⟨rfl, Nat.min_le_right _ _, rfl⟩, rfl⟩, _, _, RichVault.update_succeeds _ _, ⟨rfl, rfl⟩, rfl⟩
    exact collateralShare_le (Nat.min_le_right _ _)

end VaultRegistry

namespace Chain

variable {AccountId CurrencyId H256 F Tokens : Type} [DecidableEq AccountId]
  [DecidableEq CurrencyId] [DecidableEq H256] [FixedPointNumber F]
  [MultiCurrency Tokens AccountId CurrencyId] [LawfulMultiCurrency Tokens]
  [CurrencyConfig CurrencyId] [AccountConfig AccountId]
  {s s' : Chain AccountId CurrencyId H256 F Tokens} {env : Env AccountId CurrencyId H256}
  {v : VaultId AccountId CurrencyId} {x y z : Amount CurrencyId} {redeemer : AccountId} {n : ℕ}
  {btcAddress : BtcAddress} {d : Vault} {u : Unit}

/-! ## Requests -/

/-- The redeem fee, which the owner of the vault does not pay. -/
def redeemFeeFor (env : Env AccountId CurrencyId H256) (redeemer : AccountId)
    (v : VaultId AccountId CurrencyId) (n : ℕ) : Except DispatchError (Amount CurrencyId) :=
  if redeemer = v.accountId then .ok (.zero v.wrappedCurrency)
  else getRedeemFee env ⟨n, v.wrappedCurrency⟩

/-- The vault holds what it needs at the secure threshold for the tokens it will back, up to so
little that the premium on it is less than one unit. -/
def NearSecureThreshold (env : Env AccountId CurrencyId H256)
    (s : Chain AccountId CurrencyId H256 F Tokens) (v : VaultId AccountId CurrencyId) : Prop :=
  ∃ d threshold required collateral, s.registry.vaults v = some d ∧
    env.secureCollateralThreshold v.currencies = some threshold ∧
    getRequiredCollateralForWrapped env
      ⟨d.issuedTokens + d.toBeIssuedTokens - d.toBeRedeemedTokens, v.wrappedCurrency⟩
      v.collateralCurrency = .ok required ∧
    s.getBackingCollateral v = .ok collateral ∧
    (required.amount - collateral.amount) * (env.premiumRedeemFee.1.inner * FixedU128.DIV /
      (threshold.inner - env.premiumRedeemFee.1.inner)) < FixedU128.DIV

/-- Less the fees, `n` tokens are worth so little collateral that the premium on it is less than
one unit. -/
def RedeemsDust (env : Env AccountId CurrencyId H256) (redeemer : AccountId)
    (v : VaultId AccountId CurrencyId) (n : ℕ) : Prop :=
  ∃ fee inclusionFee value, redeemFeeFor env redeemer v n = .ok fee ∧
    getCurrentInclusionFee env v.wrappedCurrency = .ok inclusionFee ∧
    env.convert ⟨n - fee.amount - inclusionFee.amount, v.wrappedCurrency⟩ v.collateralCurrency =
      .ok value ∧
    value.amount * env.premiumRedeemFee.1.inner < FixedU128.DIV

section

omit [DecidableEq CurrencyId] [CurrencyConfig CurrencyId] [DecidableEq H256]
  [AccountConfig AccountId]

private theorem redeemFeeFor_of_ne (h : redeemer ≠ v.accountId) :
    redeemFeeFor env redeemer v n = getRedeemFee env ⟨n, v.wrappedCurrency⟩ :=
  if_neg h

end

section

omit [DecidableEq AccountId] [DecidableEq H256] [MultiCurrency Tokens AccountId CurrencyId]
  [LawfulMultiCurrency Tokens] [AccountConfig AccountId]

private theorem getVaultMaxPremiumRedeem_eq_zero (h : getVaultMaxPremiumRedeem env s v = .ok z) :
    z.amount = 0 ↔ NearSecureThreshold env s v := by
  simp only [getVaultMaxPremiumRedeem, RichVault.toBeBackedTokens, RichVault.backedTokens,
    except_bind_eq_ok, okOr_eq_ok, VaultRegistry.getActiveRichVaultFromId_eq_ok,
    Amount.checkedAdd_eq_ok, Amount.checkedSub_eq_ok, Amount.saturatingSub_eq_ok,
    Amount.checkedMul_eq_ok, and_assoc, exists_and_left, exists_eq_left'] at h
  obtain ⟨vault, rfl, hvault, -, -, -, -, -, threshold, hthreshold, required, hrequired,
    collateral, hcollateral, -, divisor, hdivisor, factor, hfactor, -, rfl⟩ := h
  obtain ⟨-, hdivisor⟩ := FixedU128.checkedSub_eq_some.mp hdivisor
  obtain ⟨-, hfactor⟩ := FixedU128.checkedDiv_eq_some.mp hfactor
  change (required.amount - collateral.amount) * factor.inner / FixedU128.DIV = 0 ↔ _
  rw [Nat.div_eq_zero_iff_lt FixedU128.DIV_pos, hfactor, hdivisor]
  constructor
  · intro hlt
    exact ⟨vault.data, threshold, required, collateral, hvault, hthreshold, hrequired,
      hcollateral, hlt⟩
  · rintro ⟨d, threshold', required', collateral', hd, hthreshold', hrequired', hcollateral',
      hlt⟩
    obtain rfl := Option.some.inj (hvault.symm.trans hd)
    obtain rfl := Option.some.inj (hthreshold.symm.trans hthreshold')
    obtain rfl := Except.ok.inj (hrequired.symm.trans hrequired')
    obtain rfl := Except.ok.inj (hcollateral.symm.trans hcollateral')
    exact hlt

private theorem premiumCollateral_eq_zero
    (h : premiumCollateral env s v ⟨n, v.wrappedCurrency⟩ = .ok z) :
    z.amount = 0 ↔ NearSecureThreshold env s v ∨
      ∃ value, env.convert ⟨n, v.wrappedCurrency⟩ v.collateralCurrency = .ok value ∧
        value.amount * env.premiumRedeemFee.1.inner < FixedU128.DIV := by
  simp only [premiumCollateral, except_bind_eq_ok, Amount.min_eq_ok] at h
  obtain ⟨value, hvalue, share, hshare, max, hmax, -, rfl⟩ := h
  obtain ⟨-, rfl⟩ := Amount.checkedMul_eq_ok.mp hshare
  rw [← getVaultMaxPremiumRedeem_eq_zero hmax]
  simp only [hvalue, Except.ok.injEq, exists_eq_left',
    ← Nat.div_eq_zero_iff_lt FixedU128.DIV_pos]
  exact Nat.min_eq_zero_iff

private theorem getVaultMaxPremiumRedeem_currencyId (h : getVaultMaxPremiumRedeem env s v = .ok z) :
    z.currencyId = v.collateralCurrency := by
  simp only [getVaultMaxPremiumRedeem, getBackingCollateral, except_bind_eq_ok, except_pure_eq_ok,
    Amount.saturatingSub_eq_ok, Amount.checkedMul_eq_ok, and_assoc, exists_and_left,
    exists_eq_left'] at h
  obtain ⟨_, -, _, -, _, -, required, -, _, ⟨_, -, rfl⟩, hcur, _, -, _, -, -, rfl⟩ := h
  exact hcur

end

section

omit [LawfulMultiCurrency Tokens]

/-- What a successful request records of the premium. -/
theorem run_requestRedeem_premium
    (h : (requestRedeem env redeemer n btcAddress v).run s = .ok u s') :
    ∃ fee inclusionFee premium r, redeemFeeFor env redeemer v n = .ok fee ∧
      getCurrentInclusionFee env v.wrappedCurrency = .ok inclusionFee ∧
      fee.amount + inclusionFee.amount ≤ n ∧
      premiumCollateral env s v
        ⟨n - fee.amount - inclusionFee.amount, v.wrappedCurrency⟩ = .ok premium ∧
      s'.redeemRequests env.secureId = some r ∧ r.premium = premium.amount := by
  simp only [requestRedeem, Call.run_bind_eq_ok, Call.run_get_eq_ok, Call.run_ofExcept_eq_ok,
    Call.run_ensure_eq_ok, Call.run_modify_eq_ok, Call.run_mapError_eq_ok, Call.run_ite_eq_ok,
    Call.run_pure_eq_ok, Amount.checkedSub_eq_ok, and_assoc, exists_and_left, exists_eq_left',
    exists_const] at h
  obtain ⟨_, -, _, -, -, -, fee, s₀, hfee, inclusionFee, hinclusionFee, -, hle, hcur, hle', _, -,
    _, -, -, premium, hpremium, _, s₁, -, _, s₂, -, _, s₃, -, rfl⟩ := h
  refine ⟨fee, inclusionFee, premium, _, ?_, hinclusionFee, by omega, hpremium,
    Function.update_self _ _ _, rfl⟩
  obtain ⟨hr, hfee, -⟩ | ⟨hr, hfee, -⟩ := hfee
  · exact (if_pos hr).trans (congrArg Except.ok hfee)
  · exact (if_neg hr).trans hfee

end

/-- A positive premium is recorded only for a vault that is below the premium threshold. -/
def ChargesBelowPremiumThreshold (env : Env AccountId CurrencyId H256)
    (s s' : Chain AccountId CurrencyId H256 F Tokens) (v : VaultId AccountId CurrencyId) : Prop :=
  ∀ r, s'.redeemRequests env.secureId = some r → 0 < r.premium →
    willBeBelowPremiumThreshold env s v = .ok true

section

omit [LawfulMultiCurrency Tokens]

private theorem chargesBelowPremiumThreshold_iff
    (h : (requestRedeem env redeemer n btcAddress v).run s = .ok u s') :
    ChargesBelowPremiumThreshold env s s' v ↔ willBeBelowPremiumThreshold env s v = .ok true ∨
      NearSecureThreshold env s v ∨ RedeemsDust env redeemer v n := by
  obtain ⟨fee, inclusionFee, premium, r, hfee, hinclusionFee, -, hpremium, hr, hrp⟩ :=
    run_requestRedeem_premium h
  have hzero : r.premium = 0 ↔ NearSecureThreshold env s v ∨ RedeemsDust env redeemer v n := by
    rw [hrp, premiumCollateral_eq_zero hpremium, RedeemsDust]
    simp only [hfee, hinclusionFee, Except.ok.injEq, exists_and_left, exists_eq_left']
  rw [← hzero]
  constructor
  · intro hcharges
    rcases Nat.eq_zero_or_pos r.premium with hp | hp
    · exact .inr hp
    · exact .inl (hcharges r hr hp)
  · rintro hcond r' hr' hp
    obtain rfl := Option.some.inj (hr.symm.trans hr')
    exact hcond.resolve_right hp.ne'

end

/-! ## Requests that succeed -/

/-- The redeemer can lock `n` tokens and they are worth the fees and the dust value; the vault can
redeem them less the fee, and what this releases of the griefing collateral is reserved. -/
structure RequestFits (env : Env AccountId CurrencyId H256)
    (s : Chain AccountId CurrencyId H256 F Tokens) (redeemer : AccountId)
    (v : VaultId AccountId CurrencyId) (n : ℕ) (d : Vault) (fee inclusionFee : ℕ) : Prop where
  lockable : (balances s.tokens redeemer v.wrappedCurrency).CanWithdraw n
  aboveDust : fee + inclusionFee + env.redeemBtcDustValue ≤ n
  redeemable : d.toBeRedeemedTokens + (n - fee) ≤ min d.issuedTokens maxBalance
  convertible : ∃ value,
    env.convert ⟨n - fee - inclusionFee, v.wrappedCurrency⟩ v.collateralCurrency =
      .ok ⟨value, v.collateralCurrency⟩ ∧
    value * env.premiumRedeemFee.1.inner / FixedU128.DIV ≤ maxBalance
  releasable : ∃ released,
    calculateCollateral ⟨d.replaceCollateral, CurrencyConfig.griefingCollateral⟩
      ⟨min (n - fee) d.toBeReplacedTokens, v.wrappedCurrency⟩
      ⟨d.toBeReplacedTokens, v.wrappedCurrency⟩ = .ok released ∧
    released.amount ≤
      (balances s.tokens v.accountId CurrencyConfig.griefingCollateral).reserved

section

omit [DecidableEq H256]

/-- Collateral that a replace request put down can be taken back if as much is reserved. -/
theorem releaseFunds_succeeds_iff (hd : s.registry.vaults v = some d)
    (hl : d.isLiquidated = false) (hle : x.amount ≤ d.replaceCollateral) :
    (transferFunds env (.availableReplaceCollateral v) (.freeBalance v.accountId) x).succeeds s =
        true ↔
      x.amount ≤ (balances s.tokens v.accountId x.currencyId).reserved := by
  have hactive : s.registry.getActiveRichVaultFromId v = .ok ⟨v, d⟩ :=
    VaultRegistry.getActiveRichVaultFromId_eq_ok.mpr ⟨rfl, hd, hl⟩
  constructor
  · intro h
    obtain ⟨_, s', h⟩ := Call.succeeds_iff.mp h
    simp only [transferFunds, takeFunds, onTokens, onRegistry, Call.run_bind_eq_ok] at h
    obtain ⟨_, _, ⟨_, s₁, hs₁, hs₂⟩, -⟩ := h
    obtain ⟨r, -, rfl⟩ := Lens.run_zoom_eq_ok.mp hs₁
    obtain ⟨t, ht, -⟩ := Lens.run_zoom_eq_ok.mp hs₂
    exact Amount.unlockOn_succeeds_iff.mp (Call.succeeds_iff.mpr ⟨_, _, ht⟩)
  · intro hreserved
    refine Call.succeeds_bind (Call.succeeds_bind ?_ fun _ s₁ h₁ => ?_) fun _ s₂ _ =>
      Call.succeeds_bind ?_ fun _ _ _ => rfl
    · rw [onRegistry, Lens.zoom_succeeds]
      refine Call.succeeds_bind_of_ok (Call.run_reads_eq_ok.mpr ⟨hactive, rfl⟩) ?_
      exact Call.succeeds_bind_of_ok (VaultRegistry.run_decreaseUntagged.mpr ⟨hle, rfl, rfl⟩) rfl
    · obtain ⟨r, -, rfl⟩ := Lens.run_zoom_eq_ok.mp h₁
      rw [onTokens, Lens.zoom_succeeds]
      exact Amount.unlockOn_succeeds_iff.mpr hreserved
    · rw [onTokens, Lens.zoom_succeeds]
      exact Amount.transfer_succeeds_iff.mpr (.inl rfl)

/-- Burning tokens releases what they no longer need to be replaced for, if as much is reserved. -/
theorem releaseReplaceCollateral_succeeds_iff (hd : s.registry.vaults v = some d)
    (hl : d.isLiquidated = false) :
    (releaseReplaceCollateral env v ⟨n, v.wrappedCurrency⟩).succeeds s = true ↔
      ∃ released,
        calculateCollateral ⟨d.replaceCollateral, CurrencyConfig.griefingCollateral⟩
          ⟨min n d.toBeReplacedTokens, v.wrappedCurrency⟩
          ⟨d.toBeReplacedTokens, v.wrappedCurrency⟩ = .ok released ∧
        released.amount ≤
          (balances s.tokens v.accountId CurrencyConfig.griefingCollateral).reserved := by
  -- the rest of the call, once the tokens are known that need not be replaced
  have hrest : ∀ used released s₁,
      (onRegistry (VaultRegistry.decreaseToBeReplacedTokens v ⟨n, v.wrappedCurrency⟩)).run s =
        .ok (used, released) s₁ →
      ((if released.isZero then return else
        transferFunds env (.availableReplaceCollateral v) (.freeBalance v.accountId) released :
          ChainCall AccountId CurrencyId H256 F Tokens Unit).succeeds s₁ = true ↔
        released.amount ≤
          (balances s.tokens v.accountId CurrencyConfig.griefingCollateral).reserved) := by
    intro used released s₁ h
    obtain ⟨r, hr, rfl⟩ := Lens.run_zoom_eq_ok.mp h
    obtain ⟨hcalc, -, rfl⟩ := (VaultRegistry.decreaseToBeReplacedTokens_eq_ok hd).mp hr
    obtain ⟨-, rfl⟩ := VaultRegistry.calculateCollateral_eq_ok.mp hcalc
    split
    · rename_i hzero
      exact iff_of_true rfl ((Amount.isZero_iff.mp hzero).trans_le (Nat.zero_le _))
    · exact releaseFunds_succeeds_iff (Function.update_self _ _ _) hl
        (VaultRegistry.collateralShare_le (Nat.min_le_right _ _))
  constructor
  · intro h
    obtain ⟨_, s', h⟩ := Call.succeeds_iff.mp h
    obtain ⟨⟨used, released⟩, s₁, h₁, h₂⟩ := Call.run_bind_eq_ok.mp h
    obtain ⟨r, hr, -⟩ := Lens.run_zoom_eq_ok.mp h₁
    exact ⟨released, ((VaultRegistry.decreaseToBeReplacedTokens_eq_ok hd).mp hr).1,
      (hrest used released s₁ h₁).mp (Call.succeeds_iff.mpr ⟨_, _, h₂⟩)⟩
  · rintro ⟨released, hcalc, hle⟩
    have h₁ := Lens.run_zoom_eq_ok (l := RegistryPart) (s := s) |>.mpr ⟨_,
      (VaultRegistry.decreaseToBeReplacedTokens_eq_ok hd).mpr ⟨hcalc, rfl, rfl⟩, rfl⟩
    exact Call.succeeds_bind_of_ok h₁ ((hrest _ _ _ h₁).mpr hle)

/-- Neither what is to be redeemed nor what another account locks changes what can be released. -/
theorem releaseReplaceCollateral_succeeds_iff_of_locked {m : ℕ} {u u' : Unit}
    {s₁ s₂ : Chain AccountId CurrencyId H256 F Tokens} (hd : s.registry.vaults v = some d)
    (hl : d.isLiquidated = false) (hne : redeemer ≠ v.accountId)
    (h₁ : (onRegistry (VaultRegistry.tryIncreaseToBeRedeemedTokens v
      ⟨m, v.wrappedCurrency⟩)).run s = .ok u s₁)
    (h₂ : (onTokens (Amount.lockOn ⟨n, v.wrappedCurrency⟩ redeemer)).run s₁ = .ok u' s₂) :
    (releaseReplaceCollateral env v ⟨m, v.wrappedCurrency⟩).succeeds s₂ = true ↔
      ∃ released,
        calculateCollateral ⟨d.replaceCollateral, CurrencyConfig.griefingCollateral⟩
          ⟨min m d.toBeReplacedTokens, v.wrappedCurrency⟩
          ⟨d.toBeReplacedTokens, v.wrappedCurrency⟩ = .ok released ∧
        released.amount ≤
          (balances s.tokens v.accountId CurrencyConfig.griefingCollateral).reserved := by
  obtain ⟨r, hr, rfl⟩ := Lens.run_zoom_eq_ok.mp h₁
  obtain ⟨t, ht, rfl⟩ := Lens.run_zoom_eq_ok.mp h₂
  obtain ⟨-, rfl⟩ := (VaultRegistry.tryIncreaseToBeRedeemedTokens_eq_ok hd hl).mp hr
  obtain ⟨-, hbalances⟩ := Amount.run_lockOn ht
  have howner : balances t v.accountId = balances s.tokens v.accountId := by
    rw [hbalances]
    exact Function.update_of_ne hne.symm _ _
  rw [← howner]
  exact releaseReplaceCollateral_succeeds_iff
    (d := { d with toBeRedeemedTokens := d.toBeRedeemedTokens + m })
    (Function.update_self _ _ _) hl

end

section

omit [DecidableEq CurrencyId] [CurrencyConfig CurrencyId] [DecidableEq AccountId] [DecidableEq H256]
  [AccountConfig AccountId]

private theorem getRedeemFee_currencyId (h : getRedeemFee env x = .ok y) : y.currencyId =
    x.currencyId := by
  simp only [getRedeemFee, Amount.checkedRoundedMul, except_bind_eq_ok, okOr_eq_ok,
    except_pure_eq_ok] at h
  obtain ⟨_, -, rfl⟩ := h
  rfl

/-- The inclusion fee is in the currency asked for. -/
theorem getCurrentInclusionFee_currencyId {c : CurrencyId}
    (h : getCurrentInclusionFee env c = .ok y) : y.currencyId = c := by
  simp only [getCurrentInclusionFee, calculateInclusionFee, except_bind_eq_ok, except_ite_eq_ok,
    except_pure_eq_ok, except_throw_eq_ok, and_false, or_false] at h
  obtain ⟨_, -, -, rfl⟩ := h
  rfl

end

section

omit [DecidableEq AccountId] [DecidableEq H256] [MultiCurrency Tokens AccountId CurrencyId]
  [LawfulMultiCurrency Tokens] [AccountConfig AccountId]

private theorem premiumCollateral_isOk_iff (h : getVaultMaxPremiumRedeem env s v = .ok z) :
    (∃ premium, premiumCollateral env s v ⟨n, v.wrappedCurrency⟩ = .ok premium) ↔ ∃ value,
      env.convert ⟨n, v.wrappedCurrency⟩ v.collateralCurrency =
        .ok ⟨value, v.collateralCurrency⟩ ∧
      value * env.premiumRedeemFee.1.inner / FixedU128.DIV ≤ maxBalance := by
  have hcur := getVaultMaxPremiumRedeem_currencyId h
  simp only [premiumCollateral, except_bind_eq_ok, h, Except.ok.injEq, exists_eq_left',
    Amount.min_eq_ok]
  constructor
  · rintro ⟨_, ⟨value, c⟩, hvalue, share, hshare, hc, -⟩
    obtain ⟨hle, rfl⟩ := Amount.checkedMul_eq_ok.mp hshare
    obtain rfl : v.collateralCurrency = c := hcur.symm.trans hc
    exact ⟨value, hvalue, hle⟩
  · rintro ⟨value, hvalue, hle⟩
    exact ⟨_, _, hvalue, _, Amount.checkedMul_eq_ok.mpr ⟨hle, rfl⟩, hcur, rfl⟩

end

section

omit [CurrencyConfig CurrencyId] [DecidableEq H256] [FixedPointNumber F]
  [MultiCurrency Tokens AccountId CurrencyId] [LawfulMultiCurrency Tokens] [AccountConfig AccountId]

private theorem increase_succeeds_iff (hd : s.registry.vaults v = some d)
    (hl : d.isLiquidated = false) :
    (onRegistry (VaultRegistry.tryIncreaseToBeRedeemedTokens v
        ⟨n, v.wrappedCurrency⟩)).succeeds s = true ↔
      d.toBeRedeemedTokens + n ≤ min d.issuedTokens maxBalance := by
  rw [onRegistry, Lens.zoom_succeeds, Call.succeeds_iff]
  constructor
  · rintro ⟨_, r, h⟩
    exact ((VaultRegistry.tryIncreaseToBeRedeemedTokens_eq_ok hd hl).mp h).1
  · intro h
    exact ⟨(), _, (VaultRegistry.tryIncreaseToBeRedeemedTokens_eq_ok hd hl).mpr ⟨h, rfl⟩⟩

end

section

omit [CurrencyConfig CurrencyId] [DecidableEq H256] [FixedPointNumber F] [AccountConfig AccountId]

private theorem lock_succeeds_iff {f : RegistryCall AccountId CurrencyId Unit}
    (h : (onRegistry f).run s = .ok u s') :
    (onTokens (x.lockOn redeemer)).succeeds s' = true ↔
      (balances s.tokens redeemer x.currencyId).CanWithdraw x.amount := by
  obtain ⟨r, -, rfl⟩ := Lens.run_zoom_eq_ok.mp h
  rw [onTokens, Lens.zoom_succeeds]
  exact Amount.lockOn_succeeds_iff

end

/-- For a vault that is active and not banned, and whose premium can be computed, a request by
another account succeeds exactly if it fits. -/
theorem requestRedeem_succeeds_iff (hd : s.registry.vaults v = some d)
    (hl : d.isLiquidated = false) (hban : s.registry.ensureNotBanned env v = .ok ())
    (hmax : getVaultMaxPremiumRedeem env s v = .ok z) (hne : redeemer ≠ v.accountId) :
    (requestRedeem env redeemer n btcAddress v).succeeds s = true ↔
      btcAddress.isZero = false ∧ ∃ fee inclusionFee,
        getRedeemFee env ⟨n, v.wrappedCurrency⟩ = .ok fee ∧
        getCurrentInclusionFee env v.wrappedCurrency = .ok inclusionFee ∧
        RequestFits env s redeemer v n d fee.amount inclusionFee.amount := by
  simp only [Call.succeeds_iff, requestRedeem, Call.run_bind_eq_ok, Call.run_get_eq_ok,
    Call.run_ofExcept_eq_ok, Call.run_ensure_eq_ok, Call.run_modify_eq_ok,
    Call.run_mapError_eq_ok, if_neg hne, Amount.checkedSub_eq_ok, Amount.ge_eq_ok,
    Amount.le_eq_ok, and_assoc, exists_and_left, exists_eq_left', exists_const]
  constructor
  · rintro ⟨_, _, -, -, -, haddress, fee, hfee, inclusionFee, hinclusionFee, -, hle, -, hle', _, -,
      -, hdust, premium, hpremium, _, s₁, h₁, _, s₂, h₂, _, s₃, h₃, -⟩
    have hdust := of_decide_eq_true hdust
    refine ⟨haddress, fee, hfee, inclusionFee, hinclusionFee, ?_, ?_, ?_, ?_, ?_⟩
    · exact (lock_succeeds_iff h₁).mp (Call.succeeds_iff.mpr ⟨_, _, h₂⟩)
    · omega
    · exact (increase_succeeds_iff hd hl).mp (Call.succeeds_iff.mpr ⟨_, _, h₁⟩)
    · exact (premiumCollateral_isOk_iff hmax).mp ⟨premium, hpremium⟩
    · exact (releaseReplaceCollateral_succeeds_iff_of_locked hd hl hne h₁ h₂).mp
        (Call.succeeds_iff.mpr ⟨_, _, h₃⟩)
  · rintro ⟨haddress, fee, hfee, inclusionFee, hinclusionFee, hlockable, hdust, hredeemable,
      hconvertible, hreleasable⟩
    obtain ⟨premium, hpremium⟩ := (premiumCollateral_isOk_iff hmax).mpr hconvertible
    obtain ⟨_, s₁, h₁⟩ := Call.succeeds_iff.mp (increase_succeeds_iff hd hl |>.mpr hredeemable)
    obtain ⟨_, s₂, h₂⟩ := Call.succeeds_iff.mp ((lock_succeeds_iff h₁
      (x := ⟨n, v.wrappedCurrency⟩)).mpr hlockable)
    have hreleases : (releaseReplaceCollateral env v _).succeeds s₂ = true :=
      (releaseReplaceCollateral_succeeds_iff_of_locked hd hl hne h₁ h₂).mpr hreleasable
    obtain ⟨_, s₃, h₃⟩ := Call.succeeds_iff.mp hreleases
    refine ⟨_, _, rfl, rfl, decide_eq_true ?_, haddress, fee, hfee, inclusionFee,
      hinclusionFee, ?_, ?_, ?_, ?_, (), hban, trivial, decide_eq_true ?_, premium, hpremium, _,
      s₁, h₁, _, s₂, h₂, _, s₃, h₃, rfl⟩
    · rcases hlockable with rfl | hfree
      · exact Nat.zero_le _
      · exact (Nat.le_add_right _ _).trans hfree
    · exact (getRedeemFee_currencyId hfee).symm
    · omega
    · exact (getCurrentInclusionFee_currencyId hinclusionFee).symm
    · omega
    · omega

/-- What `RequestFits` asks of a request, at the fees for `n` tokens. -/
def CanRequestRedeem (env : Env AccountId CurrencyId H256)
    (s : Chain AccountId CurrencyId H256 F Tokens) (redeemer : AccountId)
    (btcAddress : BtcAddress) (v : VaultId AccountId CurrencyId) (n : ℕ) : Prop :=
  btcAddress.isZero = false ∧ ∃ d fee inclusionFee, s.registry.vaults v = some d ∧
    getRedeemFee env ⟨n, v.wrappedCurrency⟩ = .ok fee ∧
    getCurrentInclusionFee env v.wrappedCurrency = .ok inclusionFee ∧
    RequestFits env s redeemer v n d fee.amount inclusionFee.amount

/-! ## The report -/

section

omit [DecidableEq AccountId] [DecidableEq H256] [MultiCurrency Tokens AccountId CurrencyId]
  [LawfulMultiCurrency Tokens] [AccountConfig AccountId]

private theorem mem_getPremiumRedeemVaults {vaultIds : List (VaultId AccountId CurrencyId)}
    {size : ℕ} {reported : List (VaultId AccountId CurrencyId × Amount CurrencyId)}
    (h : getPremiumRedeemVaults env s vaultIds size = .ok reported) (hv : (v, x) ∈ reported) :
    redeemTokensForMaxPremium env s size v = .ok x ∧
      s.registry.ensureNotBanned env v = .ok () ∧
      willBeBelowPremiumThreshold env s v = .ok true := by
  simp only [getPremiumRedeemVaults] at h
  split at h
  · cases h
  · obtain rfl := Except.ok.inj h
    rw [List.mem_mergeSort, List.mem_filterMap] at hv
    obtain ⟨w, -, hw⟩ := hv
    cases htokens : redeemTokensForMaxPremium env s size w with
    | error e => simp [htokens] at hw
    | ok tokens =>
      simp only [htokens, Option.ite_none_right_eq_some, Option.some.injEq, Prod.mk.injEq] at hw
      obtain ⟨⟨hban, -, hbelow⟩, rfl, rfl⟩ := hw
      refine ⟨htokens, ?_, ?_⟩
      · cases hb : s.registry.ensureNotBanned env w with
        | error e => simp [hb, Except.toBool] at hban
        | ok u => rfl
      cases hb : willBeBelowPremiumThreshold env s w with
      | error e => simp [hb, Except.toOption] at hbelow
      | ok b => simpa [hb, Except.toOption] using hbelow

end

/-- The recorded premium is the most the vault pays, up to what the conversions between its
currencies and two products with the premium rate lose by rounding. -/
def GrantsMaxPremium (env : Env AccountId CurrencyId H256)
    (s s' : Chain AccountId CurrencyId H256 F Tokens) (v : VaultId AccountId CurrencyId) : Prop :=
  ∃ r max, s'.redeemRequests env.secureId = some r ∧
    getVaultMaxPremiumRedeem env s v = .ok max ∧ r.premium ≤ max.amount ∧
    ∀ loss, env.RoundTripLoses v.collateralCurrency v.wrappedCurrency loss →
      max.amount ≤ r.premium + ((loss + 1) * env.premiumRedeemFee.1.inner / FixedU128.DIV + 1)

section

omit [LawfulMultiCurrency Tokens]

private theorem reported_grantsMaxPremium
    (hx : redeemTokensForMaxPremium env s env.redeemTransactionSize v = .ok x)
    (hne : redeemer ≠ v.accountId)
    (h : (requestRedeem env redeemer x.amount btcAddress v).run s = .ok u s') :
    GrantsMaxPremium env s s' v := by
  obtain ⟨fee, inclusionFee, premium, r, hfee, hinclusionFee, hle, hpremium, hr, hrp⟩ :=
    run_requestRedeem_premium h
  simp only [redeemTokensForMaxPremium, except_bind_eq_ok, Amount.checkedDiv_eq_ok,
    Amount.checkedAdd_eq_ok, and_assoc, exists_and_left, exists_eq_left'] at hx
  obtain ⟨max, hmax, hrate, -, burn, hburn, inclusionFee', hinclusionFee', -, -, hf, -, rfl⟩ := hx
  obtain rfl := Except.ok.inj (hinclusionFee.symm.trans hinclusionFee')
  -- the redeemer receives all but one unit of what earns the most
  have hreceived : burn.amount ≤ (burn.amount + inclusionFee.amount) * FixedU128.DIV /
      (FixedU128.one.saturatingSub env.redeemFee.1).inner - fee.amount - inclusionFee.amount +
        1 := by
    simp only [redeemFeeFor_of_ne hne, getRedeemFee, Amount.checkedRoundedMul, except_bind_eq_ok,
      okOr_eq_ok, except_pure_eq_ok] at hfee
    obtain ⟨m, hm, rfl⟩ := hfee
    have hkept := le_sub_fee_add_one (Nat.lt_of_sub_ne_zero hf) rfl
      (multiplyByRationalWithRounding_nearest_le hm) ((Nat.le_add_right _ _).trans hle)
    change burn.amount + inclusionFee.amount ≤
      (burn.amount + inclusionFee.amount) * FixedU128.DIV /
        (FixedU128.one.saturatingSub env.redeemFee.1).inner - m + 1 at hkept
    change m + inclusionFee.amount ≤ (burn.amount + inclusionFee.amount) * FixedU128.DIV /
        (FixedU128.one.saturatingSub env.redeemFee.1).inner at hle
    change burn.amount ≤ _ - m - inclusionFee.amount + 1
    omega
  have hpremium' := hpremium
  simp only [premiumCollateral, except_bind_eq_ok, Amount.min_eq_ok] at hpremium'
  obtain ⟨value, hvalue, share, hshare, max', hmax', -, rfl⟩ := hpremium'
  obtain ⟨-, rfl⟩ := Amount.checkedMul_eq_ok.mp hshare
  obtain rfl := Except.ok.inj (hmax.symm.trans hmax')
  refine ⟨r, max, hr, hmax, ?_, fun loss hloss => ?_⟩
  · rw [hrp]
    exact Nat.min_le_left _ _
  · rw [← getVaultMaxPremiumRedeem_currencyId hmax] at hloss
    have hback := le_mul_div_of_div_le (Nat.pos_of_ne_zero hrate) FixedU128.DIV_pos
      (hloss _ _ _ _ hburn hreceived (getVaultMaxPremiumRedeem_currencyId hmax ▸ hvalue))
    rw [hrp]
    rcases Nat.le_total max.amount
      (value.amount * env.premiumRedeemFee.1.inner / FixedU128.DIV) with hle | hle
    · exact (Nat.min_eq_left hle).ge.trans (Nat.le_add_right _ _)
    · exact hback.trans_eq (congrArg (· + _) (Nat.min_eq_right hle).symm)

end

private theorem requestRedeem_succeeds_iff_of_notBanned
    (hban : s.registry.ensureNotBanned env v = .ok ())
    (hmax : getVaultMaxPremiumRedeem env s v = .ok z) (hne : redeemer ≠ v.accountId) :
    (requestRedeem env redeemer n btcAddress v).succeeds s = true ↔
      CanRequestRedeem env s redeemer btcAddress v n := by
  have hactive := hban
  simp only [VaultRegistry.ensureNotBanned, except_bind_eq_ok,
    VaultRegistry.getActiveRichVaultFromId_eq_ok] at hactive
  obtain ⟨⟨v, d⟩, ⟨rfl, hd, hl⟩, -⟩ := hactive
  rw [requestRedeem_succeeds_iff hd hl hban hmax hne]
  constructor
  · rintro ⟨haddress, fee, inclusionFee, hfee, hinclusionFee, hfits⟩
    exact ⟨haddress, d, fee, inclusionFee, hd, hfee, hinclusionFee, hfits⟩
  · rintro ⟨haddress, d', fee, inclusionFee, hd', hfee, hinclusionFee, hfits⟩
    obtain rfl := Option.some.inj (hd.symm.trans hd')
    exact ⟨haddress, fee, inclusionFee, hfee, hinclusionFee, hfits⟩

/-- A request of what is reported grants the most the vault pays, and succeeds if it fits. -/
theorem reported_grants_iff {vaultIds : List (VaultId AccountId CurrencyId)}
    {reported : List (VaultId AccountId CurrencyId × Amount CurrencyId)}
    (h : getPremiumRedeemVaults env s vaultIds env.redeemTransactionSize = .ok reported)
    (hv : (v, x) ∈ reported) (hne : redeemer ≠ v.accountId) :
    (∃ s', (requestRedeem env redeemer x.amount btcAddress v).run s = .ok () s' ∧
        ChargesBelowPremiumThreshold env s s' v ∧ GrantsMaxPremium env s s' v) ↔
      CanRequestRedeem env s redeemer btcAddress v x.amount := by
  obtain ⟨htokens, hban, hbelow⟩ := mem_getPremiumRedeemVaults h hv
  have hmax := htokens
  simp only [redeemTokensForMaxPremium, except_bind_eq_ok] at hmax
  obtain ⟨max, hmax, -⟩ := hmax
  rw [← requestRedeem_succeeds_iff_of_notBanned hban hmax hne, Call.succeeds_iff]
  constructor
  · rintro ⟨s', h, -⟩
    exact ⟨(), s', h⟩
  · rintro ⟨_, s', h⟩
    exact ⟨s', h, fun _ _ _ => hbelow, reported_grantsMaxPremium htokens hne h⟩

/-- In every state, a request charges a vault a premium below the premium threshold only exactly
if the vault is below it, or near the secure threshold, or dust is redeemed. A request of what the
report says grants the most the vault pays exactly if it fits. -/
theorem premium_redeems (s : Chain AccountId CurrencyId H256 F Tokens)
    (env : Env AccountId CurrencyId H256) (v : VaultId AccountId CurrencyId) :
    (∀ redeemer n btcAddress s',
      (requestRedeem env redeemer n btcAddress v).run s = .ok () s' →
        (ChargesBelowPremiumThreshold env s s' v ↔
          willBeBelowPremiumThreshold env s v = .ok true ∨ NearSecureThreshold env s v ∨
            RedeemsDust env redeemer v n)) ∧
      ∀ vaultIds reported tokens,
        getPremiumRedeemVaults env s vaultIds env.redeemTransactionSize = .ok reported →
          (v, tokens) ∈ reported → ∀ redeemer btcAddress, redeemer ≠ v.accountId →
            ((∃ s', (requestRedeem env redeemer tokens.amount btcAddress v).run s = .ok () s' ∧
                ChargesBelowPremiumThreshold env s s' v ∧ GrantsMaxPremium env s s' v) ↔
              CanRequestRedeem env s redeemer btcAddress v tokens.amount) :=
  ⟨fun _ _ _ _ h => chargesBelowPremiumThreshold_iff h,
    fun _ _ _ hreported hmem _ _ hne => reported_grants_iff hreported hmem hne⟩

end Chain

end Interbtc

/-! ## A vault between the thresholds -/

namespace Interbtc.Sample

open Core

theorem threeHalves_le : FixedU128.DIV * 3 / 2 ≤ maxBalance := by decide

/-- At the given price, with a premium of 5% below 150%. -/
def premiumEnv (price : FixedU128) : Env Account Currency Id :=
  { env with
    exchangeRate := fun _ => some price
    premiumRedeemFee := ⟨⟨FixedU128.DIV / 20, by decide⟩, by decide⟩
    premiumRedeemThreshold := fun _ => some ⟨FixedU128.DIV * 3 / 2, threeHalves_le⟩
    secureId := 1 }

/-- The first vault has issued 100 tokens for 1000 units of collateral. -/
abbrev issuedState : State := run Chain.step start issued

/-- After carol has asked to redeem with it at the given price. -/
def redeemedAt (price : FixedU128) (n : ℕ) : State :=
  (Chain.requestRedeem (premiumEnv price) .carol n (.p2pkh 1) vaultA).commit issuedState

private theorem run_redeemedAt {price : FixedU128} {n : ℕ}
    (h : (Chain.requestRedeem (premiumEnv price) .carol n (.p2pkh 1) vaultA).succeeds
      issuedState = true) :
    (Chain.requestRedeem (premiumEnv price) .carol n (.p2pkh 1) vaultA).run issuedState =
      .ok () (redeemedAt price n) :=
  Call.run_eq_ok_commit h

/-- At a price of 8 the vault is at 125%, and 37 tokens earn the most it pays. -/
theorem vaultA_grants :
    Chain.ChargesBelowPremiumThreshold (premiumEnv (rate 8)) issuedState
        (redeemedAt (rate 8) 100) vaultA ∧
      ∃ s', (Chain.requestRedeem (premiumEnv (rate 8)) .carol 37 (.p2pkh 1) vaultA).run
          issuedState = .ok () s' ∧
        Chain.ChargesBelowPremiumThreshold (premiumEnv (rate 8)) issuedState s' vaultA ∧
        Chain.GrantsMaxPremium (premiumEnv (rate 8)) issuedState s' vaultA := by
  have h := Chain.premium_redeems issuedState (premiumEnv (rate 8)) vaultA
  constructor
  · exact (h.1 .carol 100 (.p2pkh 1) _ (run_redeemedAt (by decide +kernel))).mpr
      (.inl (by decide +kernel))
  · refine (h.2 [vaultA, vaultB] [(vaultA, ⟨37, .ibtc⟩)] ⟨37, .ibtc⟩ (by decide +kernel) (by simp)
      .carol (.p2pkh 1) (by decide)).mpr ?_
    refine ⟨by decide, (issuedState.registry.vaults vaultA).get (by decide +kernel), ⟨0, .ibtc⟩,
      ⟨0, .ibtc⟩, (Option.some_get _).symm, by decide +kernel, by decide +kernel, ?_⟩
    exact ⟨by decide +kernel, by decide +kernel, by decide +kernel, ⟨296, by decide +kernel⟩,
      ⟨⟨0, .intr⟩, by decide +kernel⟩⟩

/-- Both vaults are registered, carol has issued with the second, and asks to issue with the
first. -/
def issuing : List Dispatch :=
  [(env, .registerVault vaultA 1000), (env, .registerVault vaultB 2000),
    (env, .requestIssue .carol 100 vaultB .intr), (env, .executeIssue .carol 0 fun _ => .ok 100),
    ({ env with secureId := 1 }, .requestIssue .carol 100 vaultA .intr)]

/-- A vault with issues that are only requested. -/
abbrev issuingState : State := run Chain.step start issuing

/-- At a price of 6 the first vault is at 166%, above the premium threshold, and is charged a
premium. At a price of 8 it is reported with tokens that it is still to issue, and refuses to
redeem any. -/
theorem vaultA_charged_above_threshold :
    ((Chain.requestRedeem (premiumEnv (rate 6)) .carol 100 (.p2pkh 1) vaultA).succeeds
        issuedState = true ∧
      ¬ Chain.ChargesBelowPremiumThreshold (premiumEnv (rate 6)) issuedState
        (redeemedAt (rate 6) 100) vaultA) ∧
      Chain.getPremiumRedeemVaults (premiumEnv (rate 8)) issuingState [vaultA, vaultB] 0 =
        .ok [(vaultA, ⟨37, .ibtc⟩)] ∧
      ∀ n ∈ [37, 1], (Chain.requestRedeem (premiumEnv (rate 8)) .carol n (.p2pkh 1) vaultA).error?
        issuingState = some (.vaultRegistry .insufficientTokensCommitted) := by
  refine ⟨⟨by decide +kernel, fun h => ?_⟩, by decide +kernel, by decide +kernel⟩
  have hpremium : ((redeemedAt (rate 6) 100).redeemRequests 1).map (·.premium) = some 5 := by
    decide +kernel
  obtain ⟨r, hr, hr'⟩ := Option.map_eq_some_iff.mp hpremium
  have habove : Chain.willBeBelowPremiumThreshold (premiumEnv (rate 6)) issuedState vaultA =
      .ok false := by decide +kernel
  cases habove.symm.trans (h r hr (by omega))

end Interbtc.Sample
