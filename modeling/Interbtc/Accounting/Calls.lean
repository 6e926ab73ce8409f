import Interbtc.Accounting.Registry

/-!
# Registry calls in the books

What the calls on the vault registry do to the counters, and that those on collateral
and on the status of a vault leave the counters alone.
-/

namespace Interbtc.VaultRegistry

open Core

variable {AccountId CurrencyId H256 : Type} [DecidableEq AccountId] [DecidableEq CurrencyId]
  {s s' : VaultRegistry AccountId CurrencyId} {vaultId : VaultId AccountId CurrencyId}
  {v v' : RichVault AccountId CurrencyId} {x y z : Amount CurrencyId} {u : Unit}

/-! ## Tokens to be replaced -/

private theorem run_setToBeReplacedAmount (hc : v.Current s)
    (h : (v.setToBeReplacedAmount x).run s = .ok v' s') :
    v'.Current s' ∧ v'.id = v.id ∧ s'.rest = s.rest ∧
      s'.counters = s.counters.setToBeReplaced v.id x.amount := by
  obtain ⟨rfl, rfl⟩ := RichVault.run_update h
  refine ⟨RichVault.current_setVault _, rfl, ?_, ?_⟩
  · refine Prod.ext (funext fun u => ?_) rfl
    change (Function.update s.vaults v.id _ u).map Vault.rest = (s.vaults u).map Vault.rest
    rcases eq_or_ne u v.id with rfl | hu
    · rw [Function.update_self, show s.vaults v.id = some v.data from hc]
      rfl
    · rw [Function.update_of_ne hu]
  · rw [counters_setVault]
    ext1
    · exact Function.update_eq_self_iff.mpr hc.isLiquidated.symm
    · exact Function.update_eq_self_iff.mpr hc.toBeIssued.symm
    · exact Function.update_eq_self_iff.mpr hc.issued.symm
    · exact Function.update_eq_self_iff.mpr hc.toBeRedeemed.symm
    · rfl

section

omit [DecidableEq AccountId]

/-- An active vault can ask for what is issued, not to be redeemed and not asked for yet. -/
theorem requestableToBeReplacedTokens_eq_ok :
    s.requestableToBeReplacedTokens vaultId = .ok z ↔
      ∃ d, s.vaults vaultId = some d ∧ d.isLiquidated = false ∧
        d.toBeReplacedTokens ≤ d.issuedTokens ∧
        d.toBeRedeemedTokens ≤ d.issuedTokens - d.toBeReplacedTokens ∧
        ⟨d.issuedTokens - d.toBeReplacedTokens - d.toBeRedeemedTokens,
          vaultId.wrappedCurrency⟩ = z := by
  simp only [requestableToBeReplacedTokens, except_bind_eq_ok, getActiveRichVaultFromId_eq_ok,
    Amount.checkedSub_eq_ok]
  constructor
  · rintro ⟨v, ⟨rfl, hc, hl⟩, _, ⟨-, h₁, rfl⟩, -, h₂, rfl⟩
    exact ⟨v.data, hc, hl, h₁, h₂, rfl⟩
  · rintro ⟨d, hd, hl, h₁, h₂, rfl⟩
    exact ⟨⟨vaultId, d⟩, ⟨rfl, hd, hl⟩, _, ⟨rfl, h₁, rfl⟩, rfl, h₂, rfl⟩

end

/-- An active vault asks for more to be replaced, up to what it can ask for. -/
theorem run_tryIncreaseToBeReplacedTokens
    (h : (tryIncreaseToBeReplacedTokens vaultId x).run s = .ok z s') :
    s.counters.isLiquidated vaultId = false ∧ vaultId.wrappedCurrency = x.currencyId ∧
      z = ⟨s.counters.toBeReplaced vaultId + x.amount, vaultId.wrappedCurrency⟩ ∧
      s.counters.toBeReplaced vaultId + x.amount + s.counters.toBeRedeemed (.inl vaultId) ≤
        s.counters.issued (.inl vaultId) ∧ s'.rest = s.rest ∧
      s'.counters = s.counters.setToBeReplaced vaultId
        (s.counters.toBeReplaced vaultId + x.amount) := by
  simp only [tryIncreaseToBeReplacedTokens, Call.run_bind_eq_ok, Call.run_reads_eq_ok,
    Call.run_ofExcept_eq_ok, Call.run_ensure_eq_ok, Call.run_pure_eq_ok,
    getActiveRichVaultFromId_eq_ok, Amount.checkedAdd_eq_ok, Amount.le_eq_ok] at h
  obtain ⟨v, _, ⟨⟨rfl, hc, hl⟩, rfl⟩, _, _, ⟨⟨hcur, -, rfl⟩, rfl⟩, _, _, ⟨⟨-, -, rfl⟩, rfl⟩,
    _, _, ⟨⟨-, rfl⟩, rfl⟩, _, _, ⟨hle, rfl⟩, _, _, hrun, rfl, rfl⟩ := h
  obtain ⟨-, -, hrest, hcounters⟩ := run_setToBeReplacedAmount hc hrun
  rw [hc.isLiquidated, hc.toBeReplaced, hc.toBeRedeemed, hc.issued]
  exact ⟨hl, hcur, rfl, of_decide_eq_true hle, hrest, hcounters⟩

/-- The part of a collateral that goes with `n` of `d` tokens. -/
def collateralShare (collateral n d : ℕ) : ℕ :=
  if n = 0 ∧ d = 0 then collateral else collateral * n / d

omit [DecidableEq CurrencyId] in
/-- A share is rounded down, and all of nothing is nothing. -/
theorem calculateCollateral_eq_ok {c n d : Amount CurrencyId} :
    calculateCollateral c n d = .ok z ↔
      ((n.amount = 0 ∧ d.amount = 0) ∨
        c.amount * n.amount < 2 ^ 256 ∧ d.amount ≠ 0 ∧
          c.amount * n.amount / d.amount ≤ maxBalance) ∧
      ⟨collateralShare c.amount n.amount d.amount, c.currencyId⟩ = z := by
  unfold calculateCollateral collateralShare
  simp only [Amount.isZero_iff]
  by_cases h₀ : n.amount = 0 ∧ d.amount = 0
  · simp [h₀]
  rw [if_neg h₀, if_neg h₀]
  by_cases h₁ : 2 ^ 256 ≤ c.amount * n.amount
  · rw [if_pos h₁]
    constructor
    · rintro ⟨⟩
    · rintro ⟨h | ⟨h, -⟩, -⟩
      · exact absurd h h₀
      · exact absurd h (not_lt.mpr h₁)
  rw [if_neg h₁]
  by_cases h₂ : d.amount = 0
  · rw [if_pos h₂]
    constructor
    · rintro ⟨⟩
    · rintro ⟨h | ⟨-, h, -⟩, -⟩
      · exact absurd h h₀
      · exact absurd h₂ h
  rw [if_neg h₂]
  by_cases h₃ : maxBalance < c.amount * n.amount / d.amount
  · rw [if_pos h₃]
    constructor
    · rintro ⟨⟩
    · rintro ⟨h | ⟨-, -, h⟩, -⟩
      · exact absurd h h₀
      · exact absurd h (not_le.mpr h₃)
  rw [if_neg h₃, Except.ok.injEq]
  exact ⟨fun h => ⟨.inr ⟨not_le.mp h₁, h₂, not_lt.mp h₃⟩, h⟩, fun h => h.2⟩

/-- A share of a part is at most the whole. -/
theorem collateralShare_le {collateral n d : ℕ} (h : n ≤ d) :
    collateralShare collateral n d ≤ collateral := by
  unfold collateralShare
  split
  · exact Nat.le_refl _
  · rcases Nat.eq_zero_or_pos d with rfl | hd
    · simp
    · exact Nat.div_le_of_le_mul (by rw [mul_comm]; exact Nat.mul_le_mul_right _ h)

/-- What is taken back of the tokens to be replaced takes its share of the collateral. -/
theorem run_decreaseToBeReplacedTokens [CurrencyConfig CurrencyId]
    (h : (decreaseToBeReplacedTokens vaultId x).run s = .ok (y, z) s') :
    ∃ d, s.vaults vaultId = some d ∧ x.currencyId = vaultId.wrappedCurrency ∧
      y = ⟨min x.amount d.toBeReplacedTokens, vaultId.wrappedCurrency⟩ ∧
      z = ⟨collateralShare d.replaceCollateral (min x.amount d.toBeReplacedTokens)
        d.toBeReplacedTokens, CurrencyConfig.griefingCollateral⟩ ∧
      d.toBeReplacedTokens = s.counters.toBeReplaced vaultId ∧ s'.rest = s.rest ∧
      s'.counters = s.counters.setToBeReplaced vaultId (d.toBeReplacedTokens - x.amount) := by
  simp only [decreaseToBeReplacedTokens, Call.run_bind_eq_ok, Call.run_reads_eq_ok,
    Call.run_ofExcept_eq_ok, Call.run_pure_eq_ok, getRichVaultFromId_eq_ok, Amount.min_eq_ok,
    Amount.checkedSub_eq_ok, calculateCollateral_eq_ok, Prod.mk.injEq] at h
  obtain ⟨v, _, ⟨⟨rfl, hc⟩, rfl⟩, _, _, ⟨⟨hcur, rfl⟩, rfl⟩, _, _, ⟨⟨-, rfl⟩, rfl⟩,
    _, _, ⟨⟨-, rfl⟩, rfl⟩, _, _, ⟨⟨-, hle, rfl⟩, rfl⟩, _, _, hrun, ⟨rfl, rfl⟩, rfl⟩ := h
  obtain ⟨-, -, hrest, hcounters⟩ := run_setToBeReplacedAmount hc hrun
  refine ⟨v.data, hc, hcur, by rw [hcur], ?_, hc.toBeReplaced.symm, hrest, ?_⟩
  · have : collateralShare v.data.replaceCollateral _ _ ≤ _ :=
      collateralShare_le (Nat.min_le_right x.amount v.data.toBeReplacedTokens)
    exact congrArg (Amount.mk · _) (Nat.min_eq_left this)
  · rw [hcounters]
    congr 1
    change v.data.toBeReplacedTokens - min x.amount v.data.toBeReplacedTokens = _
    omega

/-! ## Tokens to be issued and redeemed -/

/-- Less is to be issued where the vault is counted. -/
theorem run_decreaseToBeIssuedTokens
    (h : (decreaseToBeIssuedTokens vaultId x).run s = .ok u s') :
    vaultId.wrappedCurrency = x.currencyId ∧ s'.rest = s.rest ∧
      x.amount ≤ s.counters.toBeIssued (s.counters.home pairOf vaultId) ∧
      s'.counters = s.counters.subToBeIssued (s.counters.home pairOf vaultId) x.amount := by
  simp only [decreaseToBeIssuedTokens, RichVault.cancelIssueTokens, Call.run_bind_eq_ok,
    Call.run_reads_eq_ok, getRichVaultFromId_eq_ok, Call.run_pure_eq_ok] at h
  obtain ⟨v, _, ⟨⟨rfl, hc⟩, rfl⟩, _, _, hrun, -, rfl⟩ := h
  obtain ⟨he, hcur, hle, hcounters⟩ := RichVault.run_decreaseToBeIssued hc hrun
  rw [hc.home]
  exact ⟨hcur, he.rest hc, hle, hcounters⟩

/-- What was to be issued is issued, where the vault is counted. -/
theorem run_issueTokens (h : (issueTokens vaultId x).run s = .ok u s') :
    vaultId.wrappedCurrency = x.currencyId ∧ s'.rest = s.rest ∧
      x.amount ≤ s.counters.toBeIssued (s.counters.home pairOf vaultId) ∧
      s.counters.issued (s.counters.home pairOf vaultId) + x.amount ≤ maxBalance ∧
      s'.counters = (s.counters.subToBeIssued (s.counters.home pairOf vaultId) x.amount).addIssued
        (s.counters.home pairOf vaultId) x.amount := by
  simp only [issueTokens, Call.run_bind_eq_ok, Call.run_reads_eq_ok, getRichVaultFromId_eq_ok,
    Call.run_pure_eq_ok] at h
  obtain ⟨v, _, ⟨⟨rfl, hc⟩, rfl⟩, _, _, hrun, -, rfl⟩ := h
  obtain ⟨he, hcur, hle, hmax, hcounters⟩ := RichVault.run_executeIssueTokens hc hrun
  rw [hc.home]
  exact ⟨hcur, he.rest hc, hle, hmax, hcounters⟩

/-- What was to be issued can be issued while the counter stays in range. -/
theorem issueTokens_succeeds {d : Vault} (hd : s.vaults vaultId = some d)
    (hcur : vaultId.wrappedCurrency = x.currencyId)
    (hle : x.amount ≤ s.counters.toBeIssued (s.counters.home pairOf vaultId))
    (hmax : s.counters.issued (s.counters.home pairOf vaultId) + x.amount ≤ maxBalance) :
    (issueTokens vaultId x).succeeds s = true := by
  have hc : (⟨vaultId, d⟩ : RichVault AccountId CurrencyId).Current s := hd
  refine Call.succeeds_bind_of_ok (Call.run_reads_eq_ok.mpr
    ⟨getRichVaultFromId_eq_ok.mpr ⟨rfl, hc⟩, rfl⟩) (Call.succeeds_bind ?_ fun _ _ _ => rfl)
  rw [show vaultId = (⟨vaultId, d⟩ : RichVault AccountId CurrencyId).id from rfl, hc.home]
    at hle hmax
  exact (RichVault.executeIssueTokens_succeeds hc).mpr ⟨hcur, hle, hmax⟩

/-- An active vault redeems no more than it has issued. -/
theorem run_tryIncreaseToBeRedeemedTokens
    (h : (tryIncreaseToBeRedeemedTokens vaultId x).run s = .ok u s') :
    vaultId.wrappedCurrency = x.currencyId ∧ s.counters.isLiquidated vaultId = false ∧
      s.counters.toBeRedeemed (.inl vaultId) + x.amount ≤ s.counters.issued (.inl vaultId) ∧
      s'.rest = s.rest ∧
      s'.counters = s.counters.addToBeRedeemed (.inl vaultId) x.amount := by
  simp only [tryIncreaseToBeRedeemedTokens, RichVault.requestRedeemTokens, Call.run_bind_eq_ok,
    Call.run_reads_eq_ok, getActiveRichVaultFromId_eq_ok, Call.run_ofExcept_eq_ok,
    Amount.checkedSub_eq_ok, Amount.ge_eq_ok, Call.run_ensure_eq_ok, Call.run_pure_eq_ok] at h
  obtain ⟨v, _, ⟨⟨rfl, hc, hl⟩, rfl⟩, _, _, ⟨⟨-, hle, rfl⟩, rfl⟩, _, _, ⟨⟨-, rfl⟩, rfl⟩, _, _,
    ⟨hcovered, rfl⟩, _, _, hrun, -, rfl⟩ := h
  obtain ⟨he, hcur, -, hcounters⟩ := RichVault.run_increaseToBeRedeemed hc hrun
  have hcovered := of_decide_eq_true hcovered
  rw [hc.isLiquidated, hc.toBeRedeemed, hc.issued]
  refine ⟨hcur, hl, ?_, he.rest hc, hcounters⟩
  change v.data.toBeRedeemedTokens ≤ v.data.issuedTokens at hle
  change x.amount ≤ v.data.issuedTokens - v.data.toBeRedeemedTokens at hcovered
  omega

/-- An active vault can redeem all it has issued. -/
theorem tryIncreaseToBeRedeemedTokens_succeeds {d : Vault} (hd : s.vaults vaultId = some d)
    (hl : d.isLiquidated = false) (hcur : x.currencyId = vaultId.wrappedCurrency)
    (hle : d.toBeRedeemedTokens + x.amount ≤ d.issuedTokens)
    (hmax : d.issuedTokens ≤ maxBalance) :
    (tryIncreaseToBeRedeemedTokens vaultId x).succeeds s = true := by
  have hc : (⟨vaultId, d⟩ : RichVault AccountId CurrencyId).Current s := hd
  obtain ⟨v', s', hrun⟩ := Call.succeeds_iff.mp ((RichVault.increaseToBeRedeemed_succeeds hc).mpr
    ⟨hl, hcur.symm, by rw [hc.toBeRedeemed]; exact hle.trans hmax⟩)
  refine Call.succeeds_iff.mpr ⟨(), s', ?_⟩
  simp only [tryIncreaseToBeRedeemedTokens, RichVault.requestRedeemTokens, Call.run_bind_eq_ok,
    Call.run_reads_eq_ok, getActiveRichVaultFromId_eq_ok, Call.run_ofExcept_eq_ok,
    Amount.checkedSub_eq_ok, Amount.ge_eq_ok, Call.run_ensure_eq_ok, Call.run_pure_eq_ok]
  refine ⟨_, s, ⟨⟨rfl, hc, hl⟩, rfl⟩, _, s, ⟨⟨rfl, ?_, rfl⟩, rfl⟩, _, s, ⟨⟨hcur.symm, rfl⟩, rfl⟩,
    (), s, ⟨decide_eq_true ?_, rfl⟩, _, s', hrun, trivial, rfl⟩
  · change d.toBeRedeemedTokens ≤ d.issuedTokens
    omega
  · change x.amount ≤ d.issuedTokens - d.toBeRedeemedTokens
    omega

/-- Less is to be redeemed by the vault, and by its pool if it is liquidated. -/
theorem run_decreaseToBeRedeemedTokens
    (h : (decreaseToBeRedeemedTokens vaultId x).run s = .ok u s') :
    vaultId.wrappedCurrency = x.currencyId ∧ s'.rest = s.rest ∧
      x.amount ≤ s.counters.toBeRedeemed (.inl vaultId) ∧
      s'.counters = s.counters.subToBeRedeemed pairOf vaultId x.amount := by
  simp only [decreaseToBeRedeemedTokens, RichVault.cancelRedeemTokens, Call.run_bind_eq_ok,
    Call.run_reads_eq_ok, getRichVaultFromId_eq_ok, Call.run_pure_eq_ok] at h
  obtain ⟨v, _, ⟨⟨rfl, hc⟩, rfl⟩, _, _, hrun, -, rfl⟩ := h
  obtain ⟨he, hcur, hle, hcounters⟩ := RichVault.run_decreaseToBeRedeemed hc hrun
  exact ⟨hcur, he.rest hc, hle, hcounters⟩

/-- What was to be redeemed is no longer issued, where the vault is counted. -/
theorem run_decreaseTokens (h : (decreaseTokens vaultId x).run s = .ok u s') :
    vaultId.wrappedCurrency = x.currencyId ∧ s'.rest = s.rest ∧
      x.amount ≤ s.counters.toBeRedeemed (.inl vaultId) ∧
      x.amount ≤ s.counters.issued (s.counters.home pairOf vaultId) ∧
      s'.counters = (s.counters.subToBeRedeemed pairOf vaultId x.amount).subIssued
        (s.counters.home pairOf vaultId) x.amount := by
  simp only [decreaseTokens, Call.run_bind_eq_ok, Call.run_reads_eq_ok, getRichVaultFromId_eq_ok,
    Call.run_pure_eq_ok] at h
  obtain ⟨v, _, ⟨⟨rfl, hc⟩, rfl⟩, _, _, hrun, -, rfl⟩ := h
  obtain ⟨he, hcur, hle, hissued, hcounters⟩ := RichVault.run_executeRedeemTokens hc hrun
  rw [hc.home]
  exact ⟨hcur, he.rest hc, hle, hissued, hcounters⟩

/-! ## Calls that count nothing -/

/-- A write to the copy that keeps the counters and the status keeps the books. -/
theorem counters_update (hc : v.Current s) {f : Vault → Vault}
    (hf : (f v.data).isLiquidated = v.data.isLiquidated ∧
      (f v.data).toBeIssuedTokens = v.data.toBeIssuedTokens ∧
      (f v.data).issuedTokens = v.data.issuedTokens ∧
      (f v.data).toBeRedeemedTokens = v.data.toBeRedeemedTokens ∧
      (f v.data).toBeReplacedTokens = v.data.toBeReplacedTokens)
    (h : (v.update f).run s = .ok v' s') :
    s'.counters = s.counters ∧ v'.Current s' ∧ v'.id = v.id ∧ v'.data = f v.data := by
  obtain ⟨rfl, rfl⟩ := RichVault.run_update h
  refine ⟨?_, RichVault.current_setVault _, rfl, rfl⟩
  obtain ⟨h₁, h₂, h₃, h₄, h₅⟩ := hf
  rw [counters_setVault]
  ext1
  · exact Function.update_eq_self_iff.mpr (h₁.trans hc.isLiquidated.symm)
  · exact Function.update_eq_self_iff.mpr (h₂.trans hc.toBeIssued.symm)
  · exact Function.update_eq_self_iff.mpr (h₃.trans hc.issued.symm)
  · exact Function.update_eq_self_iff.mpr (h₄.trans hc.toBeRedeemed.symm)
  · exact Function.update_eq_self_iff.mpr (h₅.trans hc.toBeReplaced.symm)

omit [DecidableEq AccountId] [DecidableEq CurrencyId] in
/-- The counters are read from the vaults and the liquidation vaults. -/
theorem counters_eq_of_vaults (hv : s'.vaults = s.vaults)
    (hp : ∀ p, (s'.liquidationVault p).toBeIssuedTokens =
        (s.liquidationVault p).toBeIssuedTokens ∧
      (s'.liquidationVault p).issuedTokens = (s.liquidationVault p).issuedTokens ∧
      (s'.liquidationVault p).toBeRedeemedTokens = (s.liquidationVault p).toBeRedeemedTokens) :
    s'.counters = s.counters := by
  unfold counters
  rw [hv]
  simp only [funext fun p => (hp p).1, funext fun p => (hp p).2.1, funext fun p => (hp p).2.2]

end Interbtc.VaultRegistry
