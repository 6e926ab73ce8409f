import Interbtc.Currency.Flows
import Interbtc.DexGeneral.Dispatch

/-!
# What the calls of the exchange do

A call moves tokens and writes a few entries of the storage. What it moves is given as a flow
of tokens.
-/

namespace Interbtc.DexGeneral

open Core MultiCurrency

variable {AccountId AssetId Tokens : Type} [DecidableEq AccountId] [LinearOrder AssetId]
  [WithdrawableCurrency Tokens AccountId AssetId] [LawfulWithdrawableCurrency Tokens]
  [DexGeneralConfig AccountId AssetId]
  {s s' t : DexGeneral AccountId AssetId Tokens} {asset : AssetId} {who a b : AccountId} {x : ℕ}
  {u : Unit}

/-! ## Tokens -/

/-- Tokens flow, and the storage is left alone. -/
structure Pays (w : Flow AccountId AssetId) (s s' : DexGeneral AccountId AssetId Tokens) : Prop where
  held : held s'.tokens = held s.tokens + w
  frozen : frozen s'.tokens = frozen s.tokens
  storage : s' = { s with tokens := s'.tokens }

namespace Pays

variable {v w : Flow AccountId AssetId}

omit [DecidableEq AccountId] [LawfulWithdrawableCurrency Tokens]
  [DexGeneralConfig AccountId AssetId]

/-- Paying nothing changes nothing. -/
theorem refl (s : DexGeneral AccountId AssetId Tokens) : Pays 0 s s where
  held := (add_zero _).symm
  frozen := rfl
  storage := rfl

/-- Payments add up. -/
theorem trans (h : Pays v s t) (h' : Pays w t s') : Pays (v + w) s s' where
  held := by rw [h'.held, h.held, add_assoc]
  frozen := by rw [h'.frozen, h.frozen]
  storage := by
    rw [h'.storage, h.storage]

/-- Paying keeps the pairs. -/
theorem pairStatuses (h : Pays w s s') : s'.pairStatuses = s.pairStatuses := by rw [h.storage]

/-- Paying keeps the liquidity tokens. -/
theorem liquidityPairs (h : Pays w s s') : s'.liquidityPairs = s.liquidityPairs := by
  rw [h.storage]

/-- Paying keeps how bootstraps ended. -/
theorem bootstrapEndStatus (h : Pays w s s') : s'.bootstrapEndStatus = s.bootstrapEndStatus := by
  rw [h.storage]

/-- Paying keeps the contributions. -/
theorem bootstrapPersonalSupply (h : Pays w s s') :
    s'.bootstrapPersonalSupply = s.bootstrapPersonalSupply := by
  rw [h.storage]

/-- Paying keeps the rewards. -/
theorem bootstrapRewards (h : Pays w s s') : s'.bootstrapRewards = s.bootstrapRewards := by
  rw [h.storage]

end Pays

omit [DecidableEq AccountId] [WithdrawableCurrency Tokens AccountId AssetId]
  [LawfulWithdrawableCurrency Tokens] [DexGeneralConfig AccountId AssetId] in
/-- A call on the balances changes nothing else. -/
theorem run_onTokens {α : Type} {x : Call TokensError Tokens α} {r : α} :
    (onTokens x).run s = .ok r s' ↔
      ∃ t, x.run s.tokens = .ok r t ∧ s' = { s with tokens := t } := by
  unfold onTokens
  rw [Lens.run_zoom_eq_ok]
  constructor
  · rintro ⟨t, ht, rfl⟩
    exact ⟨t, Call.run_mapError_eq_ok.mp ht, rfl⟩
  · rintro ⟨t, ht, rfl⟩
    exact ⟨t, Call.run_mapError_eq_ok.mpr ht, rfl⟩

section

omit [DexGeneralConfig AccountId AssetId]

/-- A transfer pays from one account to the other. -/
theorem run_transfer (h : (transfer asset a b x).run s = .ok u s') :
    Pays (flow asset b x - flow asset a x) s s' ∧
      totalIssuance s'.tokens = totalIssuance s.tokens := by
  obtain ⟨t, ht, rfl⟩ := run_onTokens.mp h
  obtain ⟨hheld, hissuance, hfrozen⟩ := held_transfer ht
  exact ⟨⟨by rw [hheld, add_sub_assoc], hfrozen, rfl⟩, hissuance⟩

/-- A deposit pays to an account. -/
theorem run_deposit (h : (deposit asset a x).run s = .ok u s') : Pays (flow asset a x) s s' := by
  obtain ⟨t, ht, rfl⟩ := run_onTokens.mp h
  obtain ⟨hheld, -, hfrozen⟩ := held_deposit ht
  exact ⟨hheld, hfrozen, rfl⟩

private theorem run_withdraw (h : (withdraw asset a x).run s = .ok u s') :
    Pays (-flow asset a x) s s' := by
  obtain ⟨t, ht, rfl⟩ := run_onTokens.mp h
  obtain ⟨hheld, -, hfrozen⟩ := held_withdraw ht
  exact ⟨by rw [hheld, sub_eq_add_neg], hfrozen, rfl⟩

end

omit [DecidableEq AccountId] [LawfulWithdrawableCurrency Tokens]
  [DexGeneralConfig AccountId AssetId] in
/-- Free balances are what is held. -/
theorem freeBalance_eq_held : (s.freeBalance asset who : ℤ) = held s.tokens asset who := rfl

/-! ## Storage -/

section

omit [DecidableEq AccountId] [WithdrawableCurrency Tokens AccountId AssetId]
  [LawfulWithdrawableCurrency Tokens] [DexGeneralConfig AccountId AssetId]

/-- Pairs that trade can be read as such. -/
theorem tradingPair_eq_ok {pair : AssetId × AssetId} {p : PairMetadata AccountId} :
    s.tradingPair pair = .ok p ↔ s.pairStatuses pair = .trading p := by
  unfold tradingPair
  cases s.pairStatuses pair with
  | trading q => simp only [Except.ok.injEq, PairStatus.trading.injEq]
  | bootstrap | disable => simp only [reduceCtorEq]

/-- Pairs in a bootstrap can be read as such. -/
theorem bootstrapPair_eq_ok {pair : AssetId × AssetId} {params : BootstrapParameter AccountId} :
    bootstrapPair s pair = .ok params ↔ s.pairStatuses pair = .bootstrap params := by
  unfold bootstrapPair
  cases s.pairStatuses pair with
  | bootstrap q => simp only [Except.ok.injEq, PairStatus.bootstrap.injEq]
  | trading | disable => simp only [reduceCtorEq]

/-- Pairs whose bootstrap ended can be read as such. -/
theorem bootstrapEnded_eq_ok {pair : AssetId × AssetId} {params : BootstrapParameter AccountId} :
    bootstrapEnded s pair = .ok params ↔ s.bootstrapEndStatus pair = .bootstrap params := by
  unfold bootstrapEnded
  cases s.bootstrapEndStatus pair with
  | bootstrap q => simp only [Except.ok.injEq, PairStatus.bootstrap.injEq]
  | trading | disable => simp only [reduceCtorEq]

/-- Whether a pair trades is read from its status. -/
theorem isTrading_eq_true {pair : AssetId × AssetId} :
    IsTrading s pair = true ↔ ∃ p, s.pairStatuses pair = .trading p := by
  unfold IsTrading
  cases s.pairStatuses pair with
  | trading q => simp only [PairStatus.trading.injEq, exists_eq']
  | bootstrap | disable => simp only [Bool.false_eq_true, reduceCtorEq, exists_false]

end

/-- Only the last product of the reserves of one pair is written, in range. -/
structure WritesKLast (pair : AssetId × AssetId) (s s' : DexGeneral AccountId AssetId Tokens) :
    Prop where
  storage : s' = { s with kLast := s'.kLast }
  of_ne : ∀ q, q ≠ pair → s'.kLast q = s.kLast q
  le : s.kLast pair ≤ maxU256 → s'.kLast pair ≤ maxU256

section

omit [DecidableEq AccountId] [WithdrawableCurrency Tokens AccountId AssetId]
  [LawfulWithdrawableCurrency Tokens] [DexGeneralConfig AccountId AssetId]

private theorem WritesKLast.refl (pair : AssetId × AssetId)
    (s : DexGeneral AccountId AssetId Tokens) :
    WritesKLast pair s s :=
  ⟨rfl, fun _ _ => rfl, id⟩

private theorem run_mutateKLast {asset₀ asset₁ : AssetId} {last : ℕ} (hlast : last ≤ maxU256)
    (h : (mutateKLast asset₀ asset₁ last).run s = .ok u s') :
    WritesKLast (sortAssetId asset₀ asset₁) s s' := by
  obtain rfl := Call.run_modify_eq_ok.mp h
  refine ⟨rfl, fun q hq => Function.update_of_ne hq _ _, fun _ => ?_⟩
  change Function.update s.kLast _ last _ ≤ _
  rw [Function.update_self]
  exact hlast

end

/-! ## The protocol fee -/

section

omit [DecidableEq AccountId] [WithdrawableCurrency Tokens AccountId AssetId]
  [LawfulWithdrawableCurrency Tokens] [DexGeneralConfig AccountId AssetId]

/-- The protocol fee is zero while it is off. -/
theorem protocolFee_of_off {pair : AssetId × AssetId} {reserve₀ reserve₁ supply m : ℕ}
    (hoff : s.feeMeta.1 = none) (h : s.protocolFee pair reserve₀ reserve₁ supply = .ok m) :
    m = 0 := by
  unfold protocolFee at h
  rw [if_neg (by simp [hoff])] at h
  exact (Except.ok.inj h).symm

/-- The protocol fee is minted to its receiver. -/
theorem run_mintProtocolFee {reserve₀ reserve₁ supply m : ℕ} {asset₀ asset₁ : AssetId}
    (h : (mintProtocolFee reserve₀ reserve₁ asset₀ asset₁ supply).run s = .ok m s') :
    s.protocolFee (sortAssetId asset₀ asset₁) reserve₀ reserve₁ supply = .ok m ∧
      WritesKLast (sortAssetId asset₀ asset₁) s s' := by
  simp only [mintProtocolFee, Call.run_bind_eq_ok, Call.run_reads_eq_ok, Call.run_get_eq_ok,
    Call.run_ite_eq_ok, Call.run_pure_eq_ok] at h
  obtain ⟨_, _, ⟨hfee, rfl⟩, _, _, ⟨rfl, rfl⟩, _, _, hclear, rfl, rfl⟩ := h
  refine ⟨hfee, ?_⟩
  rcases hclear with ⟨-, hclear⟩ | ⟨-, -, rfl⟩
  · exact run_mutateKLast (Nat.zero_le _) hclear
  · exact .refl _ _

end

/-- The liquidity that the receiver of the protocol fee gets. -/
def feeFlow (s : DexGeneral AccountId AssetId Tokens) (lp : AssetId) (m : ℕ) :
    Flow AccountId AssetId :=
  match s.feeMeta.1 with
  | some feeTo => flow lp feeTo m
  | none => 0

section

omit [WithdrawableCurrency Tokens AccountId AssetId] [LawfulWithdrawableCurrency Tokens]
  [DexGeneralConfig AccountId AssetId]

/-- The protocol fee brings something. -/
theorem feeFlow_nonneg {lp c : AssetId} {m : ℕ} : 0 ≤ feeFlow s lp m c who := by
  unfold feeFlow
  cases s.feeMeta.1 with
  | some feeTo => exact flow_nonneg
  | none => exact le_rfl

/-- The protocol fee is paid in liquidity only. -/
theorem feeFlow_of_ne {lp c : AssetId} {m : ℕ} (h : c ≠ lp) : feeFlow s lp m c who = 0 := by
  unfold feeFlow
  cases s.feeMeta.1 with
  | some feeTo => exact flow_of_ne_currency h
  | none => rfl

end

omit [DexGeneralConfig AccountId AssetId] in
/-- The fee is minted where it is on; where it is off, there is none. -/
theorem run_depositFee {lp : AssetId} {m supply supply' : ℕ} (hoff : s.feeMeta.1 = none → m = 0)
    (h : (depositFee lp m supply).run s = .ok supply' s') :
    supply' = supply + m ∧ (supply ≤ maxBalance → supply' ≤ maxBalance) ∧
      Pays (feeFlow s lp m) s s' := by
  simp only [depositFee, Call.run_bind_eq_ok, Call.run_get_eq_ok] at h
  obtain ⟨_, _, ⟨rfl, rfl⟩, h⟩ := h
  unfold feeFlow
  cases hfee : s.feeMeta.1 with
  | none =>
    rw [hfee] at h
    obtain ⟨rfl, rfl⟩ := Call.run_pure_eq_ok.mp h
    exact ⟨by rw [hoff hfee, add_zero], id, .refl _⟩
  | some feeTo =>
    rw [hfee] at h
    simp only [Call.run_ite_eq_ok, Call.run_bind_eq_ok, Call.run_ofOption_eq_ok,
      checkedAdd_eq_some, Call.run_pure_eq_ok] at h
    obtain ⟨-, _, _, hdeposit, ⟨hle, rfl⟩, rfl⟩ | ⟨hm, rfl, rfl⟩ := h
    · exact ⟨rfl, fun _ => hle, run_deposit hdeposit⟩
    · obtain rfl : m = 0 := by omega
      refine ⟨rfl, id, ?_⟩
      change Pays (flow lp feeTo 0) s s
      rw [flow_zero]
      exact .refl _

omit [DecidableEq AccountId] [LawfulWithdrawableCurrency Tokens]
  [DexGeneralConfig AccountId AssetId] in
private theorem run_updateKLast {asset₀ asset₁ : AssetId} {pairAccount : AccountId}
    (h : (updateKLast asset₀ asset₁ pairAccount).run s = .ok u s') :
    WritesKLast (sortAssetId asset₀ asset₁) s s' := by
  simp only [updateKLast, Call.run_bind_eq_ok, Call.run_get_eq_ok, Call.run_ite_eq_ok,
    Call.run_ofOption_eq_ok, checkedMul_eq_some, Call.run_pure_eq_ok] at h
  obtain ⟨_, _, ⟨rfl, rfl⟩, ⟨-, _, _, ⟨⟨hle, rfl⟩, rfl⟩, hwrite⟩ | ⟨-, -, rfl⟩⟩ := h
  · exact run_mutateKLast hle hwrite
  · exact .refl _ _

/-! ## Liquidity -/

/-- What a change of the liquidity of a pair does: tokens flow, and the supply of the pair and the
last product of its reserves are written. -/
structure ChangesLiquidity (pair : AssetId × AssetId) (p : PairMetadata AccountId) (supply : ℕ)
    (w : Flow AccountId AssetId) (s s' : DexGeneral AccountId AssetId Tokens) : Prop where
  held : held s'.tokens = held s.tokens + w
  frozen : frozen s'.tokens = frozen s.tokens
  storage : s' = { s with
    tokens := s'.tokens
    kLast := s'.kLast
    pairStatuses := Function.update s.pairStatuses pair
      (.trading { p with totalSupply := supply }) }
  kLast_of_ne : ∀ q, q ≠ pair → s'.kLast q = s.kLast q
  kLast_le : s.kLast pair ≤ maxU256 → s'.kLast pair ≤ maxU256

section

omit [DecidableEq AccountId] [LawfulWithdrawableCurrency Tokens]
  [DexGeneralConfig AccountId AssetId]

/-- A change of liquidity leaves the pair trading, with another supply. -/
theorem ChangesLiquidity.status {pair : AssetId × AssetId} {p : PairMetadata AccountId}
    {supply : ℕ} {w : Flow AccountId AssetId} (h : ChangesLiquidity pair p supply w s s') :
    s'.pairStatuses pair = .trading { p with totalSupply := supply } := by
  rw [h.storage]
  exact Function.update_self _ _ _

private theorem changesLiquidity_of {pair : AssetId × AssetId} {p : PairMetadata AccountId}
    {supply : ℕ}
    {w : Flow AccountId AssetId} {s₁ s₂ s₃ : DexGeneral AccountId AssetId Tokens}
    (h₁ : WritesKLast pair s s₁) (hw : Pays w s₁ s₂) (h₃ : WritesKLast pair s₂ s₃)
    (h : (setPairStatus pair (.trading { p with totalSupply := supply })).run s₃ = .ok u s') :
    ChangesLiquidity pair p supply w s s' := by
  obtain rfl := Call.run_modify_eq_ok.mp h
  have htokens₁ : s₁.tokens = s.tokens := by rw [h₁.storage]
  have htokens₃ : s₃.tokens = s₂.tokens := by rw [h₃.storage]
  have hkLast : s₂.kLast = s₁.kLast := by rw [hw.storage]
  constructor
  · change Interbtc.held s₃.tokens = _
    rw [htokens₃, hw.held, htokens₁]
  · change Interbtc.frozen s₃.tokens = _
    rw [htokens₃, hw.frozen, htokens₁]
  · rw [h₃.storage, hw.storage, h₁.storage]
  · intro q hq
    change s₃.kLast q = s.kLast q
    rw [h₃.of_ne q hq, hkLast, h₁.of_ne q hq]
  · intro hle
    refine h₃.le ?_
    rw [hkLast]
    exact h₁.le hle

end

section

omit [DexGeneralConfig AccountId AssetId]

/-- Liquidity is burnt for its share, after the protocol fee. -/
theorem run_innerRemoveLiquidity {recipient : AccountId} {asset₀ asset₁ : AssetId}
    {liquidity min₀ min₁ : ℕ}
    (h : (innerRemoveLiquidity who asset₀ asset₁ liquidity min₀ min₁ recipient).run s = .ok u s') :
    ∃ p lp m, s.pairStatuses (sortAssetId asset₀ asset₁) = .trading p ∧
      s.liquidityPairs (sortAssetId asset₀ asset₁) = some lp ∧
      s.protocolFee (sortAssetId asset₀ asset₁) (s.freeBalance asset₀ p.pairAccount)
        (s.freeBalance asset₁ p.pairAccount) p.totalSupply = .ok m ∧
      liquidity ≤ p.totalSupply + m ∧ (p.totalSupply ≤ maxBalance →
        p.totalSupply + m ≤ maxBalance) ∧
      ChangesLiquidity (sortAssetId asset₀ asset₁) p (p.totalSupply + m - liquidity)
        (feeFlow s lp m - flow lp who liquidity +
          (flow asset₀ recipient (calculateShareAmount liquidity p.totalSupply
              (s.freeBalance asset₀ p.pairAccount)) -
            flow asset₀ p.pairAccount (calculateShareAmount liquidity p.totalSupply
              (s.freeBalance asset₀ p.pairAccount))) +
          (flow asset₁ recipient (calculateShareAmount liquidity p.totalSupply
              (s.freeBalance asset₁ p.pairAccount)) -
            flow asset₁ p.pairAccount (calculateShareAmount liquidity p.totalSupply
              (s.freeBalance asset₁ p.pairAccount)))) s s' := by
  simp only [innerRemoveLiquidity, Call.run_bind_eq_ok, Call.run_reads_eq_ok, Call.run_get_eq_ok,
    Call.run_ensure_eq_ok, Call.run_ofOption_eq_ok, tradingPair_eq_ok, checkedSub_eq_some] at h
  obtain ⟨p, _, ⟨hp, rfl⟩, _, _, ⟨rfl, rfl⟩, -, _, ⟨-, rfl⟩, lp, _, ⟨hlp, rfl⟩, m, s₁, hfee,
    supply, s₂, hdeposit, _, _, ⟨⟨hle, rfl⟩, rfl⟩, _, s₃, hwithdraw, _, s₄, hpay₀, _, s₅, hpay₁,
    _, s₆, hkLast, hset⟩ := h
  obtain ⟨hm, hk₁⟩ := run_mintProtocolFee hfee
  have hmeta : s₁.feeMeta = s.feeMeta := by rw [hk₁.storage]
  have hoff : s₁.feeMeta.1 = none → m = 0 := fun hoff => protocolFee_of_off (hmeta ▸ hoff) hm
  obtain ⟨rfl, hbound, hflow⟩ := run_depositFee hoff hdeposit
  have hfeeFlow : feeFlow s₁ lp m = feeFlow s lp m := by rw [feeFlow, hmeta, feeFlow]
  rw [hfeeFlow] at hflow
  have hpays := ((hflow.trans (run_withdraw hwithdraw)).trans (run_transfer hpay₀).1).trans
    (run_transfer hpay₁).1
  rw [← sub_eq_add_neg] at hpays
  exact ⟨p, lp, m, hp, hlp, hm, hle, hbound,
    changesLiquidity_of hk₁ hpays (run_updateKLast hkLast) hset⟩

/-- Liquidity is minted for what is brought, after the protocol fee. -/
theorem run_innerAddLiquidity {asset₀ asset₁ : AssetId} {desired₀ desired₁ min₀ min₁ : ℕ}
    (h : (innerAddLiquidity who asset₀ asset₁ desired₀ desired₁ min₀ min₁).run s = .ok u s') :
    ∃ p lp m amounts minted, s.pairStatuses (sortAssetId asset₀ asset₁) = .trading p ∧
      s.liquidityPairs (sortAssetId asset₀ asset₁) = some lp ∧
      s.protocolFee (sortAssetId asset₀ asset₁) (s.freeBalance asset₀ p.pairAccount)
        (s.freeBalance asset₁ p.pairAccount) p.totalSupply = .ok m ∧
      calculateAddedAmount desired₀ desired₁ min₀ min₁ (s.freeBalance asset₀ p.pairAccount)
        (s.freeBalance asset₁ p.pairAccount) = .ok amounts ∧
      minted = calculateLiquidity amounts.1 amounts.2 (s.freeBalance asset₀ p.pairAccount)
        (s.freeBalance asset₁ p.pairAccount) (p.totalSupply + m) ∧ 0 < minted ∧
      p.totalSupply + m + minted ≤ maxBalance ∧
      ChangesLiquidity (sortAssetId asset₀ asset₁) p (p.totalSupply + m + minted)
        (feeFlow s lp m + flow lp who minted +
          (flow asset₀ p.pairAccount amounts.1 - flow asset₀ who amounts.1) +
          (flow asset₁ p.pairAccount amounts.2 - flow asset₁ who amounts.2)) s s' := by
  simp only [innerAddLiquidity, Call.run_bind_eq_ok, Call.run_reads_eq_ok, Call.run_get_eq_ok,
    Call.run_ensure_eq_ok, Call.run_ofOption_eq_ok, Call.run_ofExcept_eq_ok, tradingPair_eq_ok,
    checkedAdd_eq_some] at h
  obtain ⟨p, _, ⟨hp, rfl⟩, _, _, ⟨rfl, rfl⟩, amounts, _, ⟨hamounts, rfl⟩, -, _, ⟨-, rfl⟩, lp, _,
    ⟨hlp, rfl⟩, m, s₁, hfee, supply, s₂, hdeposit, -, _, ⟨hpos, rfl⟩, _, _, ⟨⟨hle, rfl⟩, rfl⟩, _,
    s₃, hmint, _, s₄, hpay₀, _, s₅, hpay₁, _, s₆, hkLast, hset⟩ := h
  obtain ⟨hm, hk₁⟩ := run_mintProtocolFee hfee
  have hmeta : s₁.feeMeta = s.feeMeta := by rw [hk₁.storage]
  have hoff : s₁.feeMeta.1 = none → m = 0 := fun hoff => protocolFee_of_off (hmeta ▸ hoff) hm
  obtain ⟨rfl, -, hflow⟩ := run_depositFee hoff hdeposit
  have hfeeFlow : feeFlow s₁ lp m = feeFlow s lp m := by rw [feeFlow, hmeta, feeFlow]
  rw [hfeeFlow] at hflow
  have hpays := ((hflow.trans (run_deposit hmint)).trans (run_transfer hpay₀).1).trans
    (run_transfer hpay₁).1
  exact ⟨p, lp, m, amounts, _, hp, hlp, hm, hamounts, rfl, hpos, hle,
    changesLiquidity_of hk₁ hpays (run_updateKLast hkLast) hset⟩

end

/-! ## Pairs of assets -/

/-- Sorting what is sorted changes nothing. -/
theorem sortAssetId_fst_snd (a b : AssetId) :
    sortAssetId (sortAssetId a b).1 (sortAssetId a b).2 = sortAssetId a b := by
  unfold sortAssetId
  by_cases hab : a < b
  · rw [if_pos hab, if_pos hab]
  · rw [if_neg hab]
    rcases (not_lt.mp hab).lt_or_eq with hba | rfl
    · exact if_pos hba
    · exact if_neg hab

private theorem sortAssetId_comm (a b : AssetId) : sortAssetId a b = sortAssetId b a := by
  unfold sortAssetId
  rcases lt_trichotomy a b with hab | rfl | hab
  · rw [if_pos hab, if_neg hab.not_gt]
  · rfl
  · rw [if_neg hab.not_gt, if_pos hab]

/-- Sorting keeps the order or turns it round. -/
theorem sortAssetId_eq (a b : AssetId) : sortAssetId a b = (a, b) ∨ sortAssetId a b = (b, a) := by
  unfold sortAssetId
  by_cases hab : a < b
  · exact .inl (if_pos hab)
  · exact .inr (if_neg hab)

section

omit [DecidableEq AccountId]

/-- Both orders of a pair have one account. -/
theorem pairAccountId_comm (a b : AssetId) :
    (pairAccountId a b : AccountId) = pairAccountId b a := by
  unfold pairAccountId
  rw [sortAssetId_comm]

/-- The account of a pair is that of the sorted one. -/
theorem pairAccountId_fst_snd (a b : AssetId) :
    (pairAccountId (sortAssetId a b).1 (sortAssetId a b).2 : AccountId) =
      DexGeneralConfig.subAccount (sortAssetId a b) := by
  unfold pairAccountId
  rw [sortAssetId_fst_snd]

end

/-! ## Swaps -/

/-- One exchange of a path. -/
structure Hop (AssetId : Type) where
  input : AssetId
  output : AssetId
  amountIn : ℕ
  amountOut : ℕ
  deriving DecidableEq

/-- The exchanges of a path. -/
def hops : List ℕ → List AssetId → List (Hop AssetId)
  | amountIn :: amountOut :: amounts, input :: output :: path =>
    ⟨input, output, amountIn, amountOut⟩ :: hops (amountOut :: amounts) (output :: path)
  | _, _ => []

/-- What an exchange brings to the account of its pair. -/
def Hop.flow (h : Hop AssetId) : Flow AccountId AssetId :=
  Interbtc.flow h.input (pairAccountId h.input h.output) h.amountIn -
    Interbtc.flow h.output (pairAccountId h.input h.output) h.amountOut

omit [DexGeneralConfig AccountId AssetId] in
private theorem run_pay {c : Prop} [Decidable c] (hc : ¬ c → x = 0)
    (h : (if c then transfer asset a b x else pure ()).run s = .ok u s') :
    Pays (flow asset b x - flow asset a x) s s' := by
  rcases Call.run_ite_eq_ok.mp h with ⟨-, h⟩ | ⟨hn, h⟩
  · exact (run_transfer h).1
  · obtain ⟨-, rfl⟩ := Call.run_pure_eq_ok.mp h
    rw [hc hn, flow_zero, flow_zero, sub_zero]
    exact .refl s

private theorem run_pairSwap {input output : AssetId} {destination : AccountId} {y : ℕ}
    (h : (pairSwap (sortAssetId input output).1 (sortAssetId input output).2
      (pairAccountId input output) (if input = (sortAssetId input output).1 then (0, y) else (y, 0)).1
      (if input = (sortAssetId input output).1 then (0, y) else (y, 0)).2 destination).run s =
        .ok u s') :
    (∃ p, s.pairStatuses (sortAssetId input output) = .trading p) ∧
      Pays (flow output destination y - flow output (pairAccountId input output) y) s s' := by
  simp only [pairSwap, Call.run_bind_eq_ok, Call.run_reads_eq_ok, Call.run_get_eq_ok,
    Call.run_ensure_eq_ok, tradingPair_eq_ok, sortAssetId_fst_snd] at h
  obtain ⟨p, _, ⟨hp, rfl⟩, _, _, ⟨rfl, rfl⟩, -, _, ⟨-, rfl⟩, _, s₁, hpay₀, hpay₁⟩ := h
  have h₀ := run_pay (fun h => by omega) hpay₀
  have h₁ := run_pay (fun h => by omega) hpay₁
  refine ⟨⟨p, hp⟩, ?_⟩
  have hpays := h₀.trans h₁
  by_cases hfirst : input = (sortAssetId input output).1
  · have hsnd : (sortAssetId input output).2 = output := by
      rcases sortAssetId_eq input output with hsort | hsort
      · rw [hsort]
      · rw [hsort] at hfirst ⊢
        exact hfirst
    rw [if_pos hfirst, flow_zero, flow_zero, sub_zero, zero_add, hsnd] at hpays
    exact hpays
  · have hfst : (sortAssetId input output).1 = output := by
      rcases sortAssetId_eq input output with hsort | hsort
      · rw [hsort] at hfirst
        exact absurd rfl hfirst
      · rw [hsort]
    rw [if_neg hfirst, flow_zero, flow_zero, sub_zero, add_zero, hfst] at hpays
    exact hpays

/-- What is paid along a path, where the first pair has its amount already: every pair on the way
takes in what the one before it pays out, and the recipient gets the last amount of the last
asset. -/
theorem run_swap {recipient : AccountId} {path : List AssetId} {amounts : List ℕ}
    {input output : AssetId} {x y : ℕ} (hlength : amounts.length = path.length)
    (h : (swap recipient (x :: y :: amounts) (input :: output :: path)).run s = .ok u s') :
    (∀ hop ∈ hops (x :: y :: amounts) (input :: output :: path),
      ∃ p, s.pairStatuses (sortAssetId hop.input hop.output) = .trading p) ∧
    ∃ last z, (output :: path).getLast? = some last ∧ (y :: amounts).getLast? = some z ∧
      Pays (((hops (x :: y :: amounts) (input :: output :: path)).map Hop.flow).sum -
        flow input (pairAccountId input output) x + flow last recipient z) s s' := by
  induction path generalizing s x y input output amounts with
  | nil =>
    obtain rfl := List.length_eq_zero_iff.mp hlength
    simp only [swap, Call.run_bind_eq_ok, Call.run_pure_eq_ok] at h
    obtain ⟨_, _, hswap, -, rfl⟩ := h
    obtain ⟨htrading, hpays⟩ := run_pairSwap hswap
    refine ⟨fun hop hhop => ?_, output, y, rfl, rfl, ?_⟩
    · obtain rfl := List.mem_singleton.mp hhop
      exact htrading
    · convert hpays using 1
      simp only [hops, List.map_cons, List.map_nil, List.sum_cons, List.sum_nil, Hop.flow]
      abel
  | cons next path ih =>
    obtain ⟨z, amounts, rfl⟩ := List.exists_of_length_succ amounts hlength
    rw [swap, Call.run_bind_eq_ok] at h
    obtain ⟨_, s₁, hswap, hrest⟩ := h
    obtain ⟨htrading, hpays⟩ := run_pairSwap hswap
    obtain ⟨hall, last, w, hlast, hw, hpaid⟩ := ih (Nat.succ.inj hlength) hrest
    refine ⟨fun hop hhop => ?_, last, w, hlast, hw, ?_⟩
    · rcases List.mem_cons.mp hhop with rfl | hhop
      · exact htrading
      · obtain ⟨p, hp⟩ := hall hop hhop
        rw [hpays.storage] at hp
        exact ⟨p, hp⟩
    · convert hpays.trans hpaid using 1
      rw [hops, List.map_cons, List.sum_cons, Hop.flow]
      abel

/-! ## Quotes -/

/-- An exchange at the reserves of a state keeps their product. -/
structure Quoted (s : DexGeneral AccountId AssetId Tokens) (h : Hop AssetId) : Prop where
  input_pos : 0 < s.freeBalance h.input (pairAccountId h.input h.output)
  output_pos : 0 < s.freeBalance h.output (pairAccountId h.input h.output)
  le : h.amountOut ≤ s.freeBalance h.output (pairAccountId h.input h.output)
  product : s.freeBalance h.input (pairAccountId h.input h.output) *
      s.freeBalance h.output (pairAccountId h.input h.output) ≤
    (s.freeBalance h.input (pairAccountId h.input h.output) + h.amountIn) *
      (s.freeBalance h.output (pairAccountId h.input h.output) - h.amountOut)

private theorem checkInvariant_eq_ok {r₀ r₁ x y : ℕ} (h : checkInvariant r₀ r₁ x y = .ok u) :
    y ≤ r₁ ∧ r₀ * r₁ ≤ (r₀ + x) * (r₁ - y) := by
  simp only [checkInvariant, except_bind_eq_ok, okOr_eq_ok, checkedMul_eq_some, checkedAdd_eq_some,
    checkedSub_eq_some, except_ite_eq_ok, except_throw_eq_ok, and_false, or_false] at h
  obtain ⟨_, ⟨-, rfl⟩, _, ⟨-, rfl⟩, _, ⟨hle, rfl⟩, _, ⟨-, rfl⟩, hk, -⟩ := h
  exact ⟨hle, hk⟩

section

omit [DecidableEq AccountId] [LawfulWithdrawableCurrency Tokens]

private theorem quoteOut_eq_ok {input output : AssetId} {x y : ℕ}
    (h : s.quoteOut input output x = .ok y) :
    Quoted s ⟨input, output, x, y⟩ := by
  simp only [quoteOut, except_bind_eq_ok, except_ite_eq_ok, except_throw_eq_ok, and_false,
    or_false, except_pure_eq_ok] at h
  obtain ⟨⟨hin, hout⟩, _, -, -, _, hcheck, rfl⟩ := h
  obtain ⟨hle, hk⟩ := checkInvariant_eq_ok hcheck
  exact ⟨hin, hout, hle, hk⟩

private theorem quoteIn_eq_ok {input output : AssetId} {x y : ℕ}
    (h : s.quoteIn input output y = .ok x) :
    Quoted s ⟨input, output, x, y⟩ := by
  simp only [quoteIn, except_bind_eq_ok, except_ite_eq_ok, except_throw_eq_ok, and_false,
    or_false, except_pure_eq_ok] at h
  obtain ⟨⟨hin, hout⟩, _, -, -, _, hcheck, rfl⟩ := h
  obtain ⟨hle, hk⟩ := checkInvariant_eq_ok hcheck
  exact ⟨hin, hout, hle, hk⟩

private theorem amountsOut_eq_ok {path : List AssetId} {input : AssetId} {x : ℕ} {amounts : List ℕ}
    (h : s.amountsOut x (input :: path) = .ok amounts) :
    ∃ rest, amounts = x :: rest ∧ rest.length = path.length ∧
      ∀ hop ∈ hops amounts (input :: path), Quoted s hop := by
  induction path generalizing input x amounts with
  | nil =>
    obtain rfl := (except_pure_eq_ok.mp h)
    exact ⟨[], rfl, rfl, fun hop hhop => absurd hhop List.not_mem_nil⟩
  | cons output path ih =>
    simp only [amountsOut, except_bind_eq_ok, except_pure_eq_ok] at h
    obtain ⟨y, hy, _, hrest, rfl⟩ := h
    obtain ⟨rest, rfl, hlength, hquoted⟩ := ih hrest
    refine ⟨y :: rest, rfl, congrArg Nat.succ hlength, fun hop hhop => ?_⟩
    rcases List.mem_cons.mp hhop with rfl | hhop
    · exact quoteOut_eq_ok hy
    · exact hquoted hop hhop

private theorem amountsIn_eq_ok {path : List AssetId} {input : AssetId} {y : ℕ} {amounts : List ℕ}
    (h : s.amountsIn y (input :: path) = .ok amounts) :
    ∃ x rest, amounts = x :: rest ∧ rest.length = path.length ∧
      ∀ hop ∈ hops amounts (input :: path), Quoted s hop := by
  induction path generalizing input amounts with
  | nil =>
    obtain rfl := (except_pure_eq_ok.mp h)
    exact ⟨y, [], rfl, rfl, fun hop hhop => absurd hhop List.not_mem_nil⟩
  | cons output path ih =>
    simp only [amountsIn, except_bind_eq_ok, except_pure_eq_ok] at h
    obtain ⟨_, hrest, w, hw, rfl⟩ := h
    obtain ⟨x, rest, rfl, hlength, hquoted⟩ := ih hrest
    refine ⟨w, x :: rest, rfl, congrArg Nat.succ hlength, fun hop hhop => ?_⟩
    rcases List.mem_cons.mp hhop with rfl | hhop
    · exact quoteIn_eq_ok hw
    · exact hquoted hop hhop

end

/-- What a swap does: each pair on the path exchanges at the reserves of the state before. -/
structure Swaps (path : List AssetId) (who recipient : AccountId)
    (s s' : DexGeneral AccountId AssetId Tokens) : Prop where
  exists_pays : ∃ amounts first last x y, amounts.length = path.length ∧
    (∀ hop ∈ hops amounts path, Quoted s hop ∧
      ∃ p, s.pairStatuses (sortAssetId hop.input hop.output) = .trading p) ∧
    Pays (((hops amounts path).map Hop.flow).sum - flow first who x + flow last recipient y) s s'

/-- The first amount goes in, and the last amount comes out. -/
theorem run_payAndSwap {amounts : List ℕ} {path : List AssetId} {recipient : AccountId}
    (hlength : amounts.length = path.length)
    (h : (payAndSwap who amounts path recipient).run s = .ok u s') :
    (∀ hop ∈ hops amounts path, ∃ p,
      s.pairStatuses (sortAssetId hop.input hop.output) = .trading p) ∧
    ∃ first last x y, path.head? = some first ∧ path.getLast? = some last ∧
      amounts.head? = some x ∧ amounts.getLast? = some y ∧
      Pays (((hops amounts path).map Hop.flow).sum - flow first who x + flow last recipient y)
        s s' := by
  rcases path with - | ⟨input, - | ⟨output, path⟩⟩
  case cons.cons =>
    obtain ⟨x, rest, rfl⟩ := List.exists_of_length_succ amounts hlength
    obtain ⟨y, amounts, rfl⟩ := List.exists_of_length_succ rest (Nat.succ.inj hlength)
    rw [payAndSwap, Call.run_bind_eq_ok] at h
    obtain ⟨_, s₁, hpay, hswap⟩ := h
    have hpays := (run_transfer hpay).1
    obtain ⟨htrading, last, z, hlast, hz, hpaid⟩ :=
      run_swap (Nat.succ.inj (Nat.succ.inj hlength)) hswap
    refine ⟨fun hop hhop => ?_, input, last, x, z, rfl, hlast, rfl, hz, ?_⟩
    · obtain ⟨p, hp⟩ := htrading hop hhop
      rw [hpays.storage] at hp
      exact ⟨p, hp⟩
    · convert hpays.trans hpaid using 1
      abel
  all_goals cases amounts <;> exact absurd h Call.run_throw_eq_ok.mp

private theorem swaps_of_payAndSwap {amounts : List ℕ} {path : List AssetId} {recipient : AccountId}
    (hlength : amounts.length = path.length) (hquoted : ∀ hop ∈ hops amounts path, Quoted s hop)
    (h : (payAndSwap who amounts path recipient).run s = .ok u s') :
    Swaps path who recipient s s' := by
  obtain ⟨htrading, first, last, x, y, -, -, -, -, hpays⟩ := run_payAndSwap hlength h
  exact ⟨amounts, first, last, x, y, hlength,
    fun hop hhop => ⟨hquoted hop hhop, htrading hop hhop⟩, hpays⟩

/-- A swap of a given amount swaps along its path. -/
theorem run_innerSwapExactAssetsForAssets {path : List AssetId} {recipient : AccountId}
    {amountIn amountOutMin : ℕ}
    (h : (innerSwapExactAssetsForAssets who amountIn amountOutMin path recipient).run s =
      .ok u s') : Swaps path who recipient s s' := by
  simp only [innerSwapExactAssetsForAssets, Call.run_bind_eq_ok, Call.run_reads_eq_ok,
    Call.run_ensure_eq_ok] at h
  obtain ⟨amounts, _, ⟨hamounts, rfl⟩, -, _, ⟨-, rfl⟩, hswap⟩ := h
  unfold getAmountOutByPath at hamounts
  cases path with
  | nil => cases hamounts
  | cons input path =>
    split_ifs at hamounts
    obtain ⟨rest, rfl, hlength, hquoted⟩ := amountsOut_eq_ok hamounts
    exact swaps_of_payAndSwap (by rw [List.length_cons, List.length_cons, hlength]) hquoted hswap

/-- The whole amount goes in, and the last amount of its quote comes out. -/
theorem innerSwapExactAssetsForAssets_pays {path : List AssetId} {recipient : AccountId}
    {amountIn amountOutMin : ℕ}
    (h : (innerSwapExactAssetsForAssets who amountIn amountOutMin path recipient).run s =
      .ok u s') :
    ∃ amounts first last y, s.getAmountOutByPath amountIn path = .ok amounts ∧
      path.head? = some first ∧ path.getLast? = some last ∧ amounts.getLast? = some y ∧
      Pays (((hops amounts path).map Hop.flow).sum - flow first who amountIn +
        flow last recipient y) s s' := by
  simp only [innerSwapExactAssetsForAssets, Call.run_bind_eq_ok, Call.run_reads_eq_ok,
    Call.run_ensure_eq_ok] at h
  obtain ⟨amounts, _, ⟨hamounts, rfl⟩, -, _, ⟨-, rfl⟩, hswap⟩ := h
  have hquote := hamounts
  unfold getAmountOutByPath at hamounts
  cases path with
  | nil => cases hamounts
  | cons input path =>
    split_ifs at hamounts
    obtain ⟨rest, rfl, hlength, -⟩ := amountsOut_eq_ok hamounts
    obtain ⟨-, first, last, x, y, hfirst, hlast, hx, hy, hpays⟩ :=
      run_payAndSwap (by rw [List.length_cons, List.length_cons, hlength]) hswap
    cases hx
    exact ⟨_, first, last, y, hquote, hfirst, hlast, hy, hpays⟩

/-- A swap for a given amount swaps along its path. -/
theorem run_innerSwapAssetsForExactAssets {path : List AssetId} {recipient : AccountId}
    {amountOut amountInMax : ℕ}
    (h : (innerSwapAssetsForExactAssets who amountOut amountInMax path recipient).run s =
      .ok u s') : Swaps path who recipient s s' := by
  simp only [innerSwapAssetsForExactAssets, Call.run_bind_eq_ok, Call.run_reads_eq_ok,
    Call.run_ensure_eq_ok] at h
  obtain ⟨-, _, ⟨-, rfl⟩, amounts, _, ⟨hamounts, rfl⟩, -, _, ⟨-, rfl⟩, hswap⟩ := h
  unfold getAmountInByPath at hamounts
  cases path with
  | nil => cases hamounts
  | cons input path =>
    split_ifs at hamounts
    obtain ⟨x, rest, rfl, hlength, hquoted⟩ := amountsIn_eq_ok hamounts
    exact swaps_of_payAndSwap (by rw [List.length_cons, List.length_cons, hlength]) hquoted hswap

/-! ## Governance -/

omit [DecidableEq AccountId] [WithdrawableCurrency Tokens AccountId AssetId]
  [LawfulWithdrawableCurrency Tokens] [DexGeneralConfig AccountId AssetId] in
/-- A new fee changes the pair only. -/
theorem run_setExchangeFee {asset₀ asset₁ : AssetId} {feeRate : ℕ}
    (h : (setExchangeFee asset₀ asset₁ feeRate).run s = .ok u s') :
    ∃ p, s.pairStatuses (sortAssetId asset₀ asset₁) = .trading p ∧ s' = { s with
      pairStatuses := Function.update s.pairStatuses (sortAssetId asset₀ asset₁)
        (.trading { p with feeRate := feeRate }) } := by
  simp only [setExchangeFee, Call.run_bind_eq_ok, Call.run_ensure_eq_ok, Call.run_get_eq_ok] at h
  obtain ⟨-, _, ⟨-, rfl⟩, _, _, ⟨rfl, rfl⟩, h⟩ := h
  cases hp : s.pairStatuses (sortAssetId asset₀ asset₁) with
  | trading p =>
    rw [hp] at h
    exact ⟨p, rfl, (Call.run_modify_eq_ok.mp h).symm⟩
  | bootstrap | disable =>
    rw [hp] at h
    exact absurd h Call.run_throw_eq_ok.mp

omit [DecidableEq AccountId] [WithdrawableCurrency Tokens AccountId AssetId]
  [LawfulWithdrawableCurrency Tokens] in
/-- The pair that a call creates trades with no liquidity, and a failed bootstrap of it is kept. -/
theorem run_createPair {now feeRate : ℕ} {asset₀ asset₁ : AssetId}
    (h : (createPair now asset₀ asset₁ feeRate).run s = .ok u s') :
    ∃ lp endStatus, asset₀ ≠ asset₁ ∧ lpAssetId AccountId asset₀ asset₁ = some lp ∧
      (s.pairStatuses (sortAssetId asset₀ asset₁) = .disable ∧
          endStatus = s.bootstrapEndStatus (sortAssetId asset₀ asset₁) ∨
        ∃ params, s.pairStatuses (sortAssetId asset₀ asset₁) = .bootstrap params ∧
          bootstrapDisable now params = true ∧ endStatus = .bootstrap params) ∧
      s' = { s with
        pairStatuses := Function.update s.pairStatuses (sortAssetId asset₀ asset₁)
          (.trading ⟨DexGeneralConfig.subAccount (sortAssetId asset₀ asset₁), 0, feeRate⟩)
        bootstrapEndStatus := Function.update s.bootstrapEndStatus (sortAssetId asset₀ asset₁)
          endStatus
        liquidityPairs := Function.update s.liquidityPairs (sortAssetId asset₀ asset₁)
          (some lp) } := by
  simp only [createPair, mutateLpPairs, setPairStatus, Call.run_bind_eq_ok, Call.run_ensure_eq_ok,
    Call.run_get_eq_ok, Call.run_ofOption_eq_ok, Call.run_modify_eq_ok,
    pairAccountId_fst_snd] at h
  obtain ⟨-, _, ⟨-, rfl⟩, -, _, ⟨hne, rfl⟩, -, _, ⟨-, rfl⟩, _, _, ⟨rfl, rfl⟩, _, s₁, hset, lp, _,
    ⟨hlp, rfl⟩, rfl⟩ := h
  cases hp : s.pairStatuses (sortAssetId asset₀ asset₁) with
  | trading p =>
    rw [hp] at hset
    exact absurd hset Call.run_throw_eq_ok.mp
  | bootstrap params =>
    rw [hp] at hset
    simp only [Call.run_bind_eq_ok, Call.run_ensure_eq_ok, Call.run_modify_eq_ok] at hset
    obtain ⟨-, _, ⟨hdisable, rfl⟩, -, _, rfl, rfl⟩ := hset
    exact ⟨lp, _, hne, hlp, .inr ⟨params, rfl, hdisable, rfl⟩, rfl⟩
  | disable =>
    rw [hp] at hset
    obtain rfl := Call.run_modify_eq_ok.mp hset
    refine ⟨lp, _, hne, hlp, .inl ⟨rfl, rfl⟩, ?_⟩
    rw [Function.update_eq_self]

end Interbtc.DexGeneral
