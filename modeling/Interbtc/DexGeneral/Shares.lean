import Interbtc.DexGeneral.Structure
import Mathlib.Tactic.Ring

/-!
# Fair shares

Liquidity is bought at no less than its share of the reserves. It is sold at its share of the
reserves before the protocol fee is minted, which is more than its share after it.
-/

namespace Interbtc.DexGeneral

open Core MultiCurrency

/-! ## Shares of one reserve -/

section Shares

variable {liquidity supply reserve minted k m : ℕ}

/-- The computation of a share leaves the range of its integers. -/
def Overflows (liquidity supply reserve : ℕ) : Prop :=
  maxU256 < liquidity * reserve ∨ maxBalance < liquidity * reserve / supply

instance : Decidable (Overflows liquidity supply reserve) := by
  unfold Overflows
  infer_instance

/-- A share is rounded down, and nothing where the product overflows. -/
theorem calculateShareAmount_eq : calculateShareAmount liquidity supply reserve =
    if Overflows liquidity supply reserve then 0 else liquidity * reserve / supply := by
  unfold calculateShareAmount Overflows checkedMul checkedDiv tryInto
  rcases Nat.eq_zero_or_pos supply with rfl | hpos
  · simp
  · by_cases hmul : liquidity * reserve ≤ maxU256
    · by_cases hdiv : liquidity * reserve / supply ≤ maxBalance
      · simp [hmul, hdiv, hpos.ne', not_lt.mpr]
      · simp [hmul, hdiv, hpos.ne', lt_of_not_ge hdiv]
    · simp [hmul, lt_of_not_ge hmul]

private theorem calculateShareAmount_mul_le :
    calculateShareAmount liquidity supply reserve * supply ≤ liquidity * reserve := by
  rw [calculateShareAmount_eq]
  split
  · rw [zero_mul]
    exact Nat.zero_le _
  · exact Nat.div_mul_le_self _ _

/-- What is rounded off a share makes up for a fee that is minted after it was computed, where the
share is paid `k` times. -/
def RoundsOff (k liquidity supply m reserve : ℕ) : Prop :=
  Overflows liquidity supply reserve ∨
    liquidity * reserve / supply * ((k - 1) * supply + k * m) ≤ liquidity * reserve % supply

instance : Decidable (RoundsOff k liquidity supply m reserve) := by
  unfold RoundsOff
  infer_instance

/-- A share paid from a smaller supply is fair exactly where its rounding makes up for it. -/
theorem share_le_iff (hk : 1 ≤ k) :
    k * calculateShareAmount liquidity supply reserve * (supply + m) ≤ liquidity * reserve ↔
      RoundsOff k liquidity supply m reserve := by
  rw [calculateShareAmount_eq, RoundsOff]
  by_cases hover : Overflows liquidity supply reserve
  · simp only [hover, ite_true, mul_zero, zero_mul, Nat.zero_le, true_or]
  · rw [if_neg hover, or_iff_right hover]
    obtain ⟨k, rfl⟩ := Nat.exists_eq_add_of_le' hk
    rw [Nat.add_sub_cancel]
    have hdiv := Nat.div_add_mod (liquidity * reserve) supply
    set q := liquidity * reserve / supply
    have hsplit : (k + 1) * q * (supply + m) =
        supply * q + q * (k * supply + (k + 1) * m) := by ring
    omega

end Shares

variable {AccountId AssetId Tokens : Type} [DecidableEq AccountId] [LinearOrder AssetId]
  [WithdrawableCurrency Tokens AccountId AssetId] [LawfulWithdrawableCurrency Tokens]
  [DexGeneralConfig AccountId AssetId]
  {s s' t : DexGeneral AccountId AssetId Tokens} {asset₀ asset₁ : AssetId} {who : AccountId}
  {u : Unit}

/-! ## Fair calls -/

/-- How often an asset is in a pair that has it. -/
def copies (asset₀ asset₁ : AssetId) : ℕ := if asset₀ = asset₁ then 2 else 1

/-- The amount of each asset that a removal pays out is at most the share of the reserve that the
removed liquidity has in the supply after the protocol fee, which is what is left and what is
removed. -/
def RemovesFairly (asset₀ asset₁ : AssetId) (liquidity : ℕ)
    (s s' : DexGeneral AccountId AssetId Tokens) : Prop :=
  ∀ p p', s.pairStatuses (sortAssetId asset₀ asset₁) = .trading p →
    s'.pairStatuses (sortAssetId asset₀ asset₁) = .trading p' →
      ∀ asset ∈ [asset₀, asset₁],
        ((s.freeBalance asset p.pairAccount : ℤ) - s'.freeBalance asset p.pairAccount) *
            (p'.totalSupply + liquidity) ≤ liquidity * s.freeBalance asset p.pairAccount

/-- The liquidity that is minted to who adds is at most the share of the supply after the protocol
fee that the added amount of each asset has in the reserve. The first liquidity is at most the
mean of the amounts. -/
def AddsFairly (asset₀ asset₁ : AssetId) (s s' : DexGeneral AccountId AssetId Tokens) : Prop :=
  ∀ p p' m, s.pairStatuses (sortAssetId asset₀ asset₁) = .trading p →
    s'.pairStatuses (sortAssetId asset₀ asset₁) = .trading p' →
    s.protocolFee (sortAssetId asset₀ asset₁) (s.freeBalance asset₀ p.pairAccount)
      (s.freeBalance asset₁ p.pairAccount) p.totalSupply = .ok m →
    let added asset : ℤ :=
      s'.freeBalance asset p.pairAccount - s.freeBalance asset p.pairAccount
    let minted : ℤ := p'.totalSupply - (p.totalSupply + m)
    if p.totalSupply + m = 0 then minted * minted ≤ added asset₀ * added asset₁
    else ∀ asset ∈ [asset₀, asset₁],
      minted * s.freeBalance asset p.pairAccount ≤ added asset * (p.totalSupply + m)

/-- No protocol fee is due, or the rounding of the payouts makes up for it, or the pair pays
itself. -/
def FeeRoundsOff (asset₀ asset₁ : AssetId) (liquidity : ℕ) (recipient : AccountId)
    (s : DexGeneral AccountId AssetId Tokens) : Prop :=
  ∀ p m, s.pairStatuses (sortAssetId asset₀ asset₁) = .trading p →
    s.protocolFee (sortAssetId asset₀ asset₁) (s.freeBalance asset₀ p.pairAccount)
      (s.freeBalance asset₁ p.pairAccount) p.totalSupply = .ok m →
    recipient = p.pairAccount ∨ ∀ asset ∈ [asset₀, asset₁],
      RoundsOff (copies asset₀ asset₁) liquidity p.totalSupply m
        (s.freeBalance asset p.pairAccount)

/-! ## Removals -/

/-- A pair gives up its payouts, except to itself. -/
theorem drop_of_remove (h : Linked s) {recipient : AccountId} {liquidity min₀ min₁ : ℕ}
    {p : PairMetadata AccountId}
    (hp : s.pairStatuses (sortAssetId asset₀ asset₁) = .trading p)
    (hrun : (innerRemoveLiquidity who asset₀ asset₁ liquidity min₀ min₁ recipient).run s =
      .ok u s') {asset : AssetId} (hasset : asset ∈ [asset₀, asset₁]) :
    (s.freeBalance asset p.pairAccount : ℤ) - s'.freeBalance asset p.pairAccount =
      if recipient = p.pairAccount then 0
      else ((copies asset₀ asset₁ * calculateShareAmount liquidity p.totalSupply
        (s.freeBalance asset p.pairAccount) : ℕ) : ℤ) := by
  obtain ⟨q, lp, m, hq, hlp, -, -, -, hs⟩ := run_innerRemoveLiquidity hrun
  obtain rfl := PairStatus.trading.inj (hp.symm.trans hq)
  have hne := h.ne_of_mem hlp hasset
  rw [freeBalance_eq_held, freeBalance_eq_held, hs.held]
  simp only [Pi.add_apply, Pi.sub_apply, feeFlow_of_ne hne, flow_of_ne_currency hne]
  by_cases hself : recipient = p.pairAccount
  · subst hself
    rw [if_pos rfl]
    ring
  · rw [if_neg hself]
    simp only [flow_of_ne (Ne.symm hself), flow_at, copies]
    rw [List.mem_pair] at hasset
    by_cases heq : asset₀ = asset₁
    · subst heq
      obtain rfl : asset = asset₀ := hasset.elim id id
      simp only [ite_true, Nat.cast_mul, Nat.cast_ofNat]
      ring
    · rcases hasset with rfl | rfl
      · simp only [ite_true, if_neg heq, one_mul]
        ring
      · simp only [ite_true, if_neg heq, if_neg (Ne.symm heq), one_mul]
        ring

private theorem removesFairly_iff (h : Linked s) {recipient : AccountId} {liquidity min₀ min₁ : ℕ}
    (hrun : (innerRemoveLiquidity who asset₀ asset₁ liquidity min₀ min₁ recipient).run s =
      .ok u s') :
    RemovesFairly asset₀ asset₁ liquidity s s' ↔
      FeeRoundsOff asset₀ asset₁ liquidity recipient s := by
  obtain ⟨p, lp, m, hp, -, hm, hle, -, hs⟩ := run_innerRemoveLiquidity hrun
  have hcopies : 1 ≤ copies asset₀ asset₁ := by
    unfold copies
    split <;> omega
  have hsupply : ((p.totalSupply + m - liquidity : ℕ) : ℤ) + liquidity =
      ((p.totalSupply + m : ℕ) : ℤ) := by omega
  have hfair : ∀ asset ∈ [asset₀, asset₁],
      ((s.freeBalance asset p.pairAccount : ℤ) - s'.freeBalance asset p.pairAccount) *
          (((p.totalSupply + m - liquidity : ℕ) : ℤ) + liquidity) ≤
        liquidity * s.freeBalance asset p.pairAccount ↔
      recipient = p.pairAccount ∨ RoundsOff (copies asset₀ asset₁) liquidity p.totalSupply m
        (s.freeBalance asset p.pairAccount) := by
    intro asset hasset
    rw [drop_of_remove h hp hrun hasset, hsupply, ← share_le_iff hcopies]
    by_cases hself : recipient = p.pairAccount
    · simp only [hself, ite_true, zero_mul, true_or, iff_true]
      exact_mod_cast Nat.zero_le _
    · rw [if_neg hself, or_iff_right hself]
      norm_cast
  constructor
  · intro hfairly q m' hq hm'
    obtain rfl := PairStatus.trading.inj (hp.symm.trans hq)
    obtain rfl := Except.ok.inj (hm.symm.trans hm')
    by_cases hself : recipient = p.pairAccount
    · exact .inl hself
    · refine .inr fun asset hasset => ?_
      exact ((hfair asset hasset).mp (hfairly p _ hp hs.status asset hasset)).resolve_left hself
  · intro hrounds q q' hq hq' asset hasset
    obtain rfl := PairStatus.trading.inj (hp.symm.trans hq)
    obtain rfl := PairStatus.trading.inj (hs.status.symm.trans hq')
    exact (hfair asset hasset).mpr ((hrounds p m hp hm).imp id fun hall => hall asset hasset)

/-! ## Additions -/

private theorem calculateLiquidity_mul_le {amount₀ amount₁ reserve₀ reserve₁ supply : ℕ}
    (hsupply : supply ≠ 0) :
    calculateLiquidity amount₀ amount₁ reserve₀ reserve₁ supply * reserve₀ ≤ amount₀ * supply ∧
      calculateLiquidity amount₀ amount₁ reserve₀ reserve₁ supply * reserve₁ ≤
        amount₁ * supply := by
  rw [calculateLiquidity, if_neg hsupply]
  constructor
  · exact (Nat.mul_le_mul_right _ (Nat.min_le_left _ _)).trans calculateShareAmount_mul_le
  · exact (Nat.mul_le_mul_right _ (Nat.min_le_right _ _)).trans calculateShareAmount_mul_le

/-- The first liquidity is at most the geometric mean of the amounts. -/
theorem calculateLiquidity_mul_self_le {amount₀ amount₁ reserve₀ reserve₁ : ℕ} :
    calculateLiquidity amount₀ amount₁ reserve₀ reserve₁ 0 *
      calculateLiquidity amount₀ amount₁ reserve₀ reserve₁ 0 ≤ amount₀ * amount₁ := by
  simp only [calculateLiquidity, ite_true, checkedMul]
  by_cases hmul : amount₀ * amount₁ ≤ maxU256
  · rw [if_pos hmul, Option.map_some, Option.bind_some, tryInto]
    split
    · exact Nat.sqrt_le _
    · exact Nat.zero_le _
  · rw [if_neg hmul]
    exact Nat.zero_le _

omit [LawfulWithdrawableCurrency Tokens] in
/-- A pair gets all that is added. -/
theorem rise_of_add (h : Linked s) (who : Trader AccountId AssetId)
    {p : PairMetadata AccountId} {amounts : ℕ × ℕ}
    (hp : s.pairStatuses (sortAssetId asset₀ asset₁) = .trading p)
    {lp : AssetId} (hlp : s.liquidityPairs (sortAssetId asset₀ asset₁) = some lp)
    {m minted supply : ℕ}
    (hs : ChangesLiquidity (sortAssetId asset₀ asset₁) p supply
      (feeFlow s lp m + flow lp who.val minted +
        (flow asset₀ p.pairAccount amounts.1 - flow asset₀ who.val amounts.1) +
        (flow asset₁ p.pairAccount amounts.2 - flow asset₁ who.val amounts.2)) s s') {asset : AssetId}
    (hasset : asset ∈ [asset₀, asset₁]) :
    (s'.freeBalance asset p.pairAccount : ℤ) - s.freeBalance asset p.pairAccount =
      (if asset = asset₀ then (amounts.1 : ℤ) else 0) +
        if asset = asset₁ then (amounts.2 : ℤ) else 0 := by
  have hne := h.ne_of_mem hlp hasset
  have hwho : p.pairAccount ≠ who.val := by
    rw [h.account _ p hp]
    exact (who.property.2 _).symm
  rw [freeBalance_eq_held, freeBalance_eq_held, hs.held]
  simp only [Pi.add_apply, Pi.sub_apply, feeFlow_of_ne hne, flow_of_ne_currency hne,
    flow_of_ne hwho, flow_at]
  ring

private theorem addsFairly (h : Linked s) (who : Trader AccountId AssetId)
    {desired₀ desired₁ min₀ min₁ : ℕ}
    (hrun : (innerAddLiquidity who.val asset₀ asset₁ desired₀ desired₁ min₀ min₁).run s =
      .ok u s') : AddsFairly asset₀ asset₁ s s' := by
  obtain ⟨p, lp, m, amounts, minted, hp, hlp, hm, -, hminted, -, -, hs⟩ :=
    run_innerAddLiquidity hrun
  intro q q' m' hq hq' hm'
  obtain rfl := PairStatus.trading.inj (hp.symm.trans hq)
  obtain rfl := Except.ok.inj (hm.symm.trans hm')
  obtain rfl := PairStatus.trading.inj (hs.status.symm.trans hq')
  have hminted' : ((p.totalSupply + m + minted : ℕ) : ℤ) - (p.totalSupply + m) = minted := by
    omega
  have hadded : ∀ asset ∈ [asset₀, asset₁],
      (s'.freeBalance asset p.pairAccount : ℤ) - s.freeBalance asset p.pairAccount =
        (if asset = asset₀ then (amounts.1 : ℤ) else 0) +
          if asset = asset₁ then (amounts.2 : ℤ) else 0 :=
    fun asset => rise_of_add h who hp hlp hs
  have hadded₀ : (amounts.1 : ℤ) ≤
      s'.freeBalance asset₀ p.pairAccount - s.freeBalance asset₀ p.pairAccount := by
    rw [hadded asset₀ (List.mem_pair.mpr (.inl rfl)), if_pos rfl]
    split <;> omega
  have hadded₁ : (amounts.2 : ℤ) ≤
      s'.freeBalance asset₁ p.pairAccount - s.freeBalance asset₁ p.pairAccount := by
    rw [hadded asset₁ (List.mem_pair.mpr (.inr rfl)), if_pos rfl]
    split <;> omega
  simp only [hminted']
  by_cases hsupply : p.totalSupply + m = 0
  · rw [if_pos hsupply]
    rw [hsupply] at hminted
    have hmean : minted * minted ≤ amounts.1 * amounts.2 :=
      hminted ▸ calculateLiquidity_mul_self_le
    calc (minted : ℤ) * minted ≤ amounts.1 * amounts.2 := by exact_mod_cast hmean
      _ ≤ _ := mul_le_mul hadded₀ hadded₁ (Int.natCast_nonneg _)
        ((Int.natCast_nonneg _).trans hadded₀)
  · rw [if_neg hsupply]
    have hshares : minted * s.freeBalance asset₀ p.pairAccount ≤
          amounts.1 * (p.totalSupply + m) ∧
        minted * s.freeBalance asset₁ p.pairAccount ≤ amounts.2 * (p.totalSupply + m) :=
      hminted ▸ calculateLiquidity_mul_le hsupply
    intro asset hasset
    rcases List.mem_pair.mp hasset with rfl | rfl
    · calc (minted : ℤ) * s.freeBalance asset p.pairAccount
          ≤ amounts.1 * (p.totalSupply + m) := by exact_mod_cast hshares.1
        _ ≤ _ := mul_le_mul_of_nonneg_right hadded₀ (by positivity)
    · calc (minted : ℤ) * s.freeBalance asset p.pairAccount
          ≤ amounts.2 * (p.totalSupply + m) := by exact_mod_cast hshares.2
        _ ≤ _ := mul_le_mul_of_nonneg_right hadded₁ (by positivity)

/-! ## Runs -/

/-- After every run a removal pays out no more than the share of the supply after the protocol fee
exactly where the fee rounds off, and an addition mints no more than the share of what is added. -/
theorem run_shares_fair {tokens : Tokens} {feeReceiver : Option AccountId} {feePoint : UInt8}
    (ds : List (Dispatch AccountId AssetId)) (asset₀ asset₁ : AssetId) :
    (∀ who recipient liquidity min₀ min₁ s',
      (innerRemoveLiquidity who asset₀ asset₁ liquidity min₀ min₁ recipient).run
          (run step (genesis tokens feeReceiver feePoint) ds) = .ok () s' →
        (RemovesFairly asset₀ asset₁ liquidity
            (run step (genesis tokens feeReceiver feePoint) ds) s' ↔
          FeeRoundsOff asset₀ asset₁ liquidity recipient
            (run step (genesis tokens feeReceiver feePoint) ds))) ∧
    ∀ (who : Trader AccountId AssetId) desired₀ desired₁ min₀ min₁ s',
      (innerAddLiquidity who.val asset₀ asset₁ desired₀ desired₁ min₀ min₁).run
          (run step (genesis tokens feeReceiver feePoint) ds) = .ok () s' →
        AddsFairly asset₀ asset₁ (run step (genesis tokens feeReceiver feePoint) ds) s' :=
  ⟨fun _ _ _ _ _ _ => removesFairly_iff (run_linked ds),
    fun who _ _ _ _ _ => addsFairly (run_linked ds) who⟩

/-- Alice and bob hold the liquidity of a pair, and bob pays it as much as it has. -/
def Sample.growth : Sample.Run :=
  [(1, .createPair 0 1 30), (1, .addLiquidity Sample.alice 0 1 500 500 0 0 2),
    (1, .addLiquidity Sample.bob 0 1 500 500 0 0 2), (1, .transfer Sample.bob (Sample.pool 0 1) 0 1000),
    (1, .transfer Sample.bob (Sample.pool 0 1) 1 1000)]

/-- A pair that has earned fees. -/
def Sample.grown : Sample.Exchange :=
  run step (Sample.start 10000 (some Sample.carol.val) 5) Sample.growth

/-- Alice removes all her liquidity. -/
def Sample.removal : DexGeneralCall Sample.Holder Sample.Asset
    (TokenLedger Sample.Holder Sample.Asset) Unit :=
  innerRemoveLiquidity Sample.alice.val 0 1 500 0 0 Sample.alice.val

/-- Carol adds to both assets. -/
def Sample.addition : DexGeneralCall Sample.Holder Sample.Asset
    (TokenLedger Sample.Holder Sample.Asset) Unit :=
  innerAddLiquidity Sample.carol.val 0 1 100 100 0 0

/-- The payouts are the share before the protocol fee, which carol gets in the same call. -/
theorem removal_unfair : ∃ s', Sample.removal.run Sample.grown = .ok () s' ∧
    ¬ RemovesFairly 0 1 500 Sample.grown s' := by
  refine ⟨Sample.removal.commit Sample.grown, Call.run_eq_ok_commit (by decide +kernel), fun h => ?_⟩
  have hfair := h ⟨Sample.pool 0 1, 1000, 30⟩ ⟨Sample.pool 0 1, 590, 30⟩ (by decide +kernel)
    (by decide +kernel) 0 (by decide)
  exact absurd hfair (by decide +kernel)

/-- On it liquidity is added and removed fairly. -/
theorem run_shares_fair_grown :
    (RemovesFairly 0 1 500 Sample.grown (Sample.removal.commit Sample.grown) ↔
      FeeRoundsOff 0 1 500 Sample.alice.val Sample.grown) ∧
    AddsFairly 0 1 Sample.grown (Sample.addition.commit Sample.grown) :=
  ⟨(run_shares_fair Sample.growth 0 1).1 _ _ _ _ _ _
      (Call.run_eq_ok_commit (x := Sample.removal) (s := Sample.grown) (by decide +kernel)),
    (run_shares_fair Sample.growth 0 1).2 Sample.carol _ _ _ _ _
      (Call.run_eq_ok_commit (x := Sample.addition) (s := Sample.grown) (by decide +kernel))⟩

end Interbtc.DexGeneral
