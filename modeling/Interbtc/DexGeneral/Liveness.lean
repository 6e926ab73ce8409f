import Interbtc.DexGeneral.Paths
import Interbtc.DexGeneral.Shares

/-!
# Live pairs

A pair with liquidity keeps something of both assets, as long as no removal takes all that there
was before the protocol fee, and no swap takes a pair twice in one direction.
-/

namespace Interbtc.DexGeneral

open Core MultiCurrency

variable {AccountId AssetId Tokens : Type} [DecidableEq AccountId] [LinearOrder AssetId]
  [WithdrawableCurrency Tokens AccountId AssetId] [LawfulWithdrawableCurrency Tokens]
  [DexGeneralConfig AccountId AssetId]
  {s s' t : DexGeneral AccountId AssetId Tokens} {asset₀ asset₁ : AssetId}
  {who recipient : AccountId} {path : List AssetId} {now : ℕ} {u : Unit}

/-! ## Reserves -/

/-- What the account of a pair has of an asset. -/
def reserveOf (s : DexGeneral AccountId AssetId Tokens) (pair : AssetId × AssetId)
    (asset : AssetId) : ℕ :=
  s.freeBalance asset (DexGeneralConfig.subAccount pair)

/-- The calls that trade. -/
def Trades : Op AccountId AssetId → Prop
  | .setFeeReceiver _ | .setFeePoint _ | .setExchangeFee .. | .createPair .. | .addLiquidity ..
  | .removeLiquidity .. | .swapExactAssetsForAssets .. | .swapAssetsForExactAssets ..
  | .transfer .. => True
  | _ => False

/-- A removal takes less than all the liquidity before the protocol fee, or all of it after the
fee, or the pair pays itself. -/
def LeavesReserves (s : DexGeneral AccountId AssetId Tokens) (asset₀ asset₁ : AssetId)
    (liquidity : ℕ) (recipient : AccountId) : Prop :=
  ∀ p m, s.pairStatuses (sortAssetId asset₀ asset₁) = .trading p →
    s.protocolFee (sortAssetId asset₀ asset₁) (s.freeBalance asset₀ p.pairAccount)
      (s.freeBalance asset₁ p.pairAccount) p.totalSupply = .ok m →
    liquidity < p.totalSupply ∨ p.totalSupply + m ≤ liquidity ∨ recipient = p.pairAccount

/-- A call that trades and drains no pair, or that fails. -/
def Drainless (s : DexGeneral AccountId AssetId Tokens) (d : Dispatch AccountId AssetId) : Prop :=
  (dispatch d.1 d.2).succeeds s = true → Trades d.2 ∧ match d.2 with
  | .removeLiquidity _ asset₀ asset₁ liquidity _ _ recipient _ =>
    LeavesReserves s asset₀ asset₁ liquidity recipient
  | .swapExactAssetsForAssets _ _ _ path _ _ | .swapAssetsForExactAssets _ _ _ path _ _ =>
    NoRepeat path
  | _ => True

/-- A pair that trades has two assets in order, and some of both where it has liquidity. -/
structure LivePair (s : DexGeneral AccountId AssetId Tokens) (pair : AssetId × AssetId)
    (supply : ℕ) : Prop where
  sorted : sortAssetId pair.1 pair.2 = pair
  ne : pair.1 ≠ pair.2
  fst_pos : 0 < supply → 0 < reserveOf s pair pair.1
  snd_pos : 0 < supply → 0 < reserveOf s pair pair.2

/-- Every pair that trades with liquidity has reserves. -/
structure Live (s : DexGeneral AccountId AssetId Tokens) : Prop where
  linked : Linked s
  pairs : ∀ pair p, s.pairStatuses pair = .trading p → LivePair s pair p.totalSupply

/-! ## Pairs that a call leaves alone -/

/-- The reserves of a pair do not shrink. -/
def Grows (s s' : DexGeneral AccountId AssetId Tokens) (pair : AssetId × AssetId) : Prop :=
  ∀ asset, reserveOf s pair asset ≤ reserveOf s' pair asset

section

omit [DecidableEq AccountId] [LawfulWithdrawableCurrency Tokens]

private theorem LivePair.of_grows {pair : AssetId × AssetId} {supply supply' : ℕ}
    (h : LivePair s pair supply) (hgrows : Grows s s' pair) (hsupply : 0 < supply' → 0 < supply) :
    LivePair s' pair supply' where
  sorted := h.sorted
  ne := h.ne
  fst_pos hpos := (h.fst_pos (hsupply hpos)).trans_le (hgrows _)
  snd_pos hpos := (h.snd_pos (hsupply hpos)).trans_le (hgrows _)

private theorem Grows.of_held {w : Flow AccountId AssetId} {pair : AssetId × AssetId}
    (hheld : held s'.tokens = held s.tokens + w)
    (hw : ∀ asset, 0 ≤ w asset (DexGeneralConfig.subAccount pair)) : Grows s s' pair := by
  intro asset
  have : (reserveOf s' pair asset : ℤ) = reserveOf s pair asset +
      w asset (DexGeneralConfig.subAccount pair) := by
    rw [reserveOf, reserveOf, freeBalance_eq_held, freeBalance_eq_held, hheld]
    rfl
  have := hw asset
  omega

private theorem Grows.of_tokens (h : s'.tokens = s.tokens) (pair : AssetId × AssetId) :
    Grows s s' pair := by
  intro asset
  rw [reserveOf, reserveOf, freeBalance, freeBalance, h]

end

/-! ## Liquidity -/

section

omit [DecidableEq AccountId] [WithdrawableCurrency Tokens AccountId AssetId]
  [LawfulWithdrawableCurrency Tokens] [DexGeneralConfig AccountId AssetId]

/-- No fee is due where there is no liquidity. -/
theorem protocolFee_of_empty {pair : AssetId × AssetId} {reserve₀ reserve₁ m : ℕ}
    (h : s.protocolFee pair reserve₀ reserve₁ 0 = .ok m) : m = 0 := by
  simp only [protocolFee, except_ite_eq_ok, except_bind_eq_ok, except_pure_eq_ok, okOr_eq_ok,
    checkedMul_eq_some, checkedSub_eq_some, checkedAdd_eq_some, zero_mul] at h
  obtain ⟨-, _, -, ⟨-, _, -, _, ⟨-, rfl⟩, _, -, _, -, rfl⟩ | ⟨-, rfl⟩⟩ | ⟨-, rfl⟩ := h
  · unfold checkedDiv tryInto
    split
    · rfl
    · simp
  · rfl
  · rfl

end

/-- Where less than all is removed, less than all is paid. -/
theorem calculateShareAmount_lt {liquidity supply r : ℕ} (hlt : liquidity < supply) (hr : 0 < r) :
    calculateShareAmount liquidity supply r < r := by
  rw [calculateShareAmount_eq]
  split
  · exact hr
  · exact Nat.div_lt_of_lt_mul (Nat.mul_lt_mul_of_pos_right hlt hr)

section

omit [DecidableEq AccountId] [LawfulWithdrawableCurrency Tokens]

/-- The change of the liquidity of one pair takes nothing from another one. -/
theorem Live.of_changes (h : Live s) {pair : AssetId × AssetId} {p : PairMetadata AccountId}
    {supply : ℕ} {w : Flow AccountId AssetId} (hp : s.pairStatuses pair = .trading p)
    (hs : ChangesLiquidity pair p supply w s s')
    (hw : ∀ q asset, q ≠ pair → 0 ≤ w asset (DexGeneralConfig.subAccount q))
    (hpos : 0 < supply → 0 < reserveOf s' pair pair.1 ∧ 0 < reserveOf s' pair pair.2) : Live s' where
  linked := h.linked.of_changes hp hs
  pairs q r hr := by
    rcases eq_or_ne q pair with rfl | hne
    · obtain rfl := PairStatus.trading.inj (hs.status.symm.trans hr)
      exact ⟨(h.pairs q p hp).sorted, (h.pairs q p hp).ne, fun h => (hpos h).1, fun h => (hpos h).2⟩
    · have hstatus : s'.pairStatuses q = s.pairStatuses q := by
        rw [hs.storage]
        exact Function.update_of_ne hne _ _
      exact (h.pairs q r (hstatus ▸ hr)).of_grows (.of_held hs.held fun asset => hw q asset hne) id

private theorem Live.ne (h : Live s) {p : PairMetadata AccountId}
    (hp : s.pairStatuses (sortAssetId asset₀ asset₁) = .trading p) : asset₀ ≠ asset₁ := by
  rintro rfl
  refine (h.pairs _ p hp).ne ?_
  rcases sortAssetId_eq asset₀ asset₀ with hsort | hsort <;> rw [hsort]

private theorem LivePair.pos {pair : AssetId × AssetId} {supply : ℕ} (h : LivePair s pair supply)
    (hpos : 0 < supply) {asset : AssetId} (hasset : asset = pair.1 ∨ asset = pair.2) :
    0 < reserveOf s pair asset := by
  rcases hasset with rfl | rfl
  · exact h.fst_pos hpos
  · exact h.snd_pos hpos

end

private theorem mem_of_fst_snd (asset₀ asset₁ : AssetId) :
    (sortAssetId asset₀ asset₁).1 ∈ [asset₀, asset₁] ∧
      (sortAssetId asset₀ asset₁).2 ∈ [asset₀, asset₁] := by
  rcases sortAssetId_eq asset₀ asset₁ with hsort | hsort <;> rw [hsort] <;>
    exact ⟨List.mem_pair.mpr (by simp), List.mem_pair.mpr (by simp)⟩

private theorem eq_fst_or_snd {asset : AssetId} (hasset : asset ∈ [asset₀, asset₁]) :
    asset = (sortAssetId asset₀ asset₁).1 ∨ asset = (sortAssetId asset₀ asset₁).2 := by
  rcases sortAssetId_eq asset₀ asset₁ with hsort | hsort <;> rw [hsort]
  · exact List.mem_pair.mp hasset
  · exact (List.mem_pair.mp hasset).symm

private theorem live_removeLiquidity (h : Live s) (who : Trader AccountId AssetId)
    {liquidity min₀ min₁ : ℕ} (hleaves : LeavesReserves s asset₀ asset₁ liquidity recipient)
    (hrun : (innerRemoveLiquidity who.val asset₀ asset₁ liquidity min₀ min₁ recipient).run s =
      .ok u s') : Live s' := by
  obtain ⟨p, lp, m, hp, hlp, hm, hle, -, hs⟩ := run_innerRemoveLiquidity hrun
  have hne := h.ne hp
  have haccount := h.linked.account _ p hp
  refine h.of_changes hp hs (fun q asset hq => ?_) fun hpos => ?_
  · -- another pair pays nothing
    have hother : DexGeneralConfig.subAccount q ≠ p.pairAccount := by
      rw [haccount]
      exact fun heq => hq (DexGeneralConfig.subAccount_injective heq)
    have hwho : DexGeneralConfig.subAccount q ≠ who.val := (who.property.2 q).symm
    simp only [Pi.add_apply, Pi.sub_apply, flow_of_ne hother, flow_of_ne hwho, sub_zero]
    exact add_nonneg (add_nonneg feeFlow_nonneg flow_nonneg) flow_nonneg
  · -- the pair itself had liquidity before the fee
    have hsupply : 0 < p.totalSupply := by
      by_contra hzero
      have hempty : p.totalSupply = 0 := by omega
      rw [hempty] at hm
      have := protocolFee_of_empty hm
      omega
    suffices hall : ∀ asset ∈ [asset₀, asset₁],
        0 < reserveOf s' (sortAssetId asset₀ asset₁) asset from
      ⟨hall _ (mem_of_fst_snd _ _).1, hall _ (mem_of_fst_snd _ _).2⟩
    intro asset hasset
    have hbefore : 0 < s.freeBalance asset p.pairAccount := by
      rw [haccount]
      exact (h.pairs _ p hp).pos hsupply (eq_fst_or_snd hasset)
    have hdrop := drop_of_remove h.linked hp hrun hasset
    rw [reserveOf, ← haccount]
    by_cases hself : recipient = p.pairAccount
    · rw [if_pos hself] at hdrop
      omega
    · have hlt : liquidity < p.totalSupply := by
        rcases hleaves p m hp hm with hlt | hge | heq
        · exact hlt
        · omega
        · exact absurd heq hself
      have := calculateShareAmount_lt hlt hbefore
      rw [if_neg hself, copies, if_neg hne, one_mul] at hdrop
      omega

private theorem live_addLiquidity (h : Live s) (who : Trader AccountId AssetId)
    {desired₀ desired₁ min₀ min₁ : ℕ}
    (hrun : (innerAddLiquidity who.val asset₀ asset₁ desired₀ desired₁ min₀ min₁).run s =
      .ok u s') : Live s' := by
  obtain ⟨p, lp, m, amounts, minted, hp, hlp, hm, -, hminted, hpos, -, hs⟩ :=
    run_innerAddLiquidity hrun
  have hne := h.ne hp
  have haccount := h.linked.account _ p hp
  refine h.of_changes hp hs (fun q asset hq => ?_) fun _ => ?_
  · have hwho : DexGeneralConfig.subAccount q ≠ who.val := (who.property.2 q).symm
    simp only [Pi.add_apply, Pi.sub_apply, flow_of_ne hwho, sub_zero, add_zero]
    exact add_nonneg (add_nonneg feeFlow_nonneg flow_nonneg) flow_nonneg
  · suffices hall : ∀ asset ∈ [asset₀, asset₁],
        0 < reserveOf s' (sortAssetId asset₀ asset₁) asset from
      ⟨hall _ (mem_of_fst_snd _ _).1, hall _ (mem_of_fst_snd _ _).2⟩
    intro asset hasset
    have hrise := rise_of_add h.linked who hp hlp hs hasset
    have hbefore : 0 < p.totalSupply → 0 < s.freeBalance asset p.pairAccount := by
      intro hsupply
      rw [haccount]
      exact (h.pairs _ p hp).pos hsupply (eq_fst_or_snd hasset)
    have hamounts : p.totalSupply = 0 → 0 < amounts.1 ∧ 0 < amounts.2 := by
      intro hempty
      rw [hempty] at hm
      rw [hempty, protocolFee_of_empty hm, add_zero] at hminted
      have hmean : minted * minted ≤ amounts.1 * amounts.2 :=
        hminted ▸ calculateLiquidity_mul_self_le
      have hproduct := (Nat.mul_pos hpos hpos).trans_le hmean
      exact ⟨Nat.pos_of_mul_pos_right hproduct, Nat.pos_of_mul_pos_left hproduct⟩
    rw [reserveOf, ← haccount]
    rcases List.mem_pair.mp hasset with rfl | rfl
    · rw [if_pos rfl, if_neg hne] at hrise
      omega
    · rw [if_pos rfl, if_neg (Ne.symm hne)] at hrise
      omega

/-! ## The other calls -/

section

omit [LawfulWithdrawableCurrency Tokens]

private theorem live_swap (h : Live s) (who : Trader AccountId AssetId) (hpath : NoRepeat path)
    (hs : Swaps path who.val recipient s s') : Live s' where
  linked := h.linked.of_tokens hs.storage
  pairs pair p hp := by
    rw [hs.storage] at hp
    obtain ⟨hsorted, hne, hfst, hsnd⟩ := h.pairs pair p hp
    have haccount : DexGeneralConfig.subAccount pair = (pairAccountId pair.1 pair.2 : AccountId) := by
      rw [pairAccountId, hsorted]
    simp only [reserveOf, haccount] at hfst hsnd
    refine ⟨hsorted, hne, fun hpos => ?_, fun hpos => ?_⟩
    · rw [reserveOf, haccount]
      exact (hs.pos who.property hpath hne (hfst hpos) (hsnd hpos)).1
    · rw [reserveOf, haccount]
      exact (hs.pos who.property hpath hne (hfst hpos) (hsnd hpos)).2

end

section

omit [DecidableEq AccountId] [LawfulWithdrawableCurrency Tokens]

/-- The status of one pair is written, with the supply it has, or with none. -/
theorem Live.of_update (h : Live s) {pair : AssetId × AssetId} {p : PairMetadata AccountId}
    (hlinked : Linked s') (htokens : s'.tokens = s.tokens)
    (hstatuses : s'.pairStatuses = Function.update s.pairStatuses pair (.trading p))
    (hpair : LivePair s pair p.totalSupply) : Live s' where
  linked := hlinked
  pairs q r hr := by
    rw [hstatuses] at hr
    rcases eq_or_ne q pair with rfl | hne
    · rw [Function.update_self] at hr
      obtain rfl := PairStatus.trading.inj hr
      exact hpair.of_grows (.of_tokens htokens q) id
    · rw [Function.update_of_ne hne] at hr
      exact (h.pairs q r hr).of_grows (.of_tokens htokens q) id

private theorem live_createPair {feeRate : ℕ} (h : Live s)
    (hrun : (createPair now asset₀ asset₁ feeRate).run s = .ok u s') : Live s' := by
  have hlinked := linked_createPair h.linked hrun
  obtain ⟨lp, _, hne, -, -, rfl⟩ := run_createPair hrun
  refine h.of_update hlinked rfl rfl ⟨sortAssetId_fst_snd _ _, ?_, nofun, nofun⟩
  rcases sortAssetId_eq asset₀ asset₁ with hsort | hsort <;> rw [hsort]
  · exact hne
  · exact hne.symm

end

private theorem live_dispatch {op : Op AccountId AssetId} (h : Live s)
    (hcond : Drainless s (now, op))
    (hrun : (dispatch now op).run s = .ok u s') : Live s' := by
  have hlinked := linked_dispatch h.linked hrun
  replace hcond := hcond (Call.succeeds_iff.mpr ⟨u, s', hrun⟩)
  cases op with
  | setFeeReceiver | setFeePoint =>
    obtain rfl := Call.run_modify_eq_ok.mp hrun
    exact ⟨hlinked, fun pair p hp => (h.pairs pair p hp).of_grows (.of_tokens rfl pair) id⟩
  | setExchangeFee =>
    obtain ⟨p, hp, rfl⟩ := run_setExchangeFee hrun
    exact h.of_update hlinked rfl rfl (h.pairs _ p hp)
  | createPair => exact live_createPair h hrun
  | addLiquidity who => exact live_addLiquidity h who (run_addLiquidity hrun)
  | removeLiquidity who =>
    exact live_removeLiquidity h who hcond.2 (run_removeLiquidity hrun)
  | swapExactAssetsForAssets who =>
    exact live_swap h who hcond.2 (run_swapExactAssetsForAssets hrun)
  | swapAssetsForExactAssets who =>
    exact live_swap h who hcond.2 (run_swapAssetsForExactAssets hrun)
  | transfer who =>
    have hpays := (run_transfer hrun).1
    refine ⟨hlinked, fun pair p hp => ?_⟩
    rw [hpays.storage] at hp
    refine (h.pairs pair p hp).of_grows (.of_held hpays.held fun asset => ?_) id
    rw [Pi.sub_apply, Pi.sub_apply, flow_of_ne (who.property.2 pair).symm, sub_zero]
    exact flow_nonneg
  | bootstrapCreate | bootstrapUpdate | bootstrapWithdrawReward | bootstrapContribute
  | bootstrapClaim | bootstrapEnd | bootstrapRefund | bootstrapChargeReward =>
    exact absurd hcond.1 id

private theorem live_step (s : DexGeneral AccountId AssetId Tokens) (d : Dispatch AccountId AssetId)
    (h : Live s) (hcond : Drainless s d) : Live (step s d) := by
  obtain ⟨_, hrun⟩ | ⟨-, hsame⟩ := Call.commit_cases (dispatch d.1 d.2) s
  · exact live_dispatch h hcond hrun
  · rw [step, hsame]
    exact h

private theorem run_live {tokens : Tokens} {feeReceiver : Option AccountId} {feePoint : UInt8}
    {ds : List (Dispatch AccountId AssetId)}
    (h : Meets step Drainless (genesis tokens feeReceiver feePoint) ds) :
    Live (run step (genesis tokens feeReceiver feePoint) ds) :=
  run_invariant live_step ⟨.genesis, fun _ _ hp => (nomatch hp)⟩ h

/-! ## Additions that succeed -/

private theorem mul_le_maxU256 {x y : ℕ} (hx : x ≤ maxBalance) (hy : y ≤ maxBalance) : x * y ≤
    maxU256 :=
  (Nat.mul_le_mul hx hy).trans (by decide)

/-- The range that a share of amounts in range stays in. -/
theorem calculateShareAmount_of_le {liquidity supply r : ℕ} (hl : liquidity ≤ maxBalance)
    (hr : r ≤ maxBalance) (hle : liquidity * r / supply ≤ maxBalance) :
    calculateShareAmount liquidity supply r = liquidity * r / supply := by
  rw [calculateShareAmount_eq, if_neg]
  rintro (hover | hover)
  · exact (mul_le_maxU256 hl hr).not_gt hover
  · exact hle.not_gt hover

section

omit [DecidableEq AccountId] [WithdrawableCurrency Tokens AccountId AssetId]
  [LawfulWithdrawableCurrency Tokens] [DexGeneralConfig AccountId AssetId]

/-- The protocol fee can be computed where the reserves and the supply are in range. -/
theorem exists_protocolFee {pair : AssetId × AssetId} {r₀ r₁ supply : ℕ} (h₀ : r₀ ≤ maxBalance)
    (h₁ : r₁ ≤ maxBalance) (hsupply : supply ≤ maxBalance) :
    ∃ m, s.protocolFee pair r₀ r₁ supply = .ok m := by
  simp only [protocolFee, except_bind_eq_ok, except_ite_eq_ok, except_pure_eq_ok, okOr_eq_ok,
    checkedMul_eq_some, checkedSub_eq_some, checkedAdd_eq_some]
  by_cases hon : s.feeMeta.1.isSome ∧ s.kLast pair ≠ 0
  · by_cases hgrow : Nat.sqrt (s.kLast pair) < Nat.sqrt (r₀ * r₁)
    · have hroot : Nat.sqrt (r₀ * r₁) ≤ maxBalance :=
        (Nat.sqrt_le_sqrt (Nat.mul_le_mul h₀ h₁)).trans (Nat.sqrt_eq _).le
      have hnumerator := mul_le_maxU256 hsupply
        ((Nat.sub_le _ (Nat.sqrt (s.kLast pair))).trans hroot)
      have hpoint : s.feeMeta.2.toNat < 256 := s.feeMeta.2.toNat_lt
      have hshare : Nat.sqrt (r₀ * r₁) * s.feeMeta.2.toNat ≤ maxBalance * 255 :=
        Nat.mul_le_mul hroot (by omega)
      have hdenominator : Nat.sqrt (r₀ * r₁) * s.feeMeta.2.toNat + Nat.sqrt (s.kLast pair) ≤
          maxU256 := by
        have : maxBalance * 255 + maxBalance ≤ maxU256 := by decide
        omega
      exact ⟨_, .inl ⟨hon, _, ⟨mul_le_maxU256 h₀ h₁, rfl⟩, .inl ⟨hgrow, _, ⟨hgrow.le, rfl⟩, _,
        ⟨hnumerator, rfl⟩, _, ⟨le_of_add_le_left hdenominator, rfl⟩, _, ⟨hdenominator, rfl⟩, rfl⟩⟩⟩
    · exact ⟨0, .inl ⟨hon, _, ⟨mul_le_maxU256 h₀ h₁, rfl⟩, .inr ⟨hgrow, rfl⟩⟩⟩
  · exact ⟨0, .inr ⟨hon, rfl⟩⟩

private theorem exists_mintProtocolFee {r₀ r₁ supply m : ℕ}
    (h : s.protocolFee (sortAssetId asset₀ asset₁) r₀ r₁ supply = .ok m) :
    ∃ s', (mintProtocolFee r₀ r₁ asset₀ asset₁ supply).run s = .ok m s' := by
  simp only [mintProtocolFee, mutateKLast, Call.run_bind_eq_ok, Call.run_reads_eq_ok,
    Call.run_get_eq_ok, Call.run_ite_eq_ok, Call.run_modify_eq_ok, Call.run_pure_eq_ok]
  by_cases hclear : s.feeMeta.1 = none ∧ s.kLast (sortAssetId asset₀ asset₁) ≠ 0
  · exact ⟨_, _, s, ⟨h, rfl⟩, _, _, ⟨rfl, rfl⟩, (), _, .inl ⟨hclear, rfl⟩, rfl, rfl⟩
  · exact ⟨_, _, s, ⟨h, rfl⟩, _, _, ⟨rfl, rfl⟩, (), _, .inr ⟨hclear, trivial, rfl⟩, rfl, rfl⟩

end

/-- Of amounts that are at least the reserves, all of one is added, and of the other at least its
reserve. -/
theorem exists_calculateAddedAmount {d₀ d₁ min₀ min₁ r₀ r₁ : ℕ} (hr₀ : 0 < r₀) (hr₁ : 0 < r₁)
    (hd₀ : r₀ ≤ d₀) (hd₁ : r₁ ≤ d₁) (hmin₀ : min₀ ≤ r₀) (hmin₁ : min₁ ≤ r₁)
    (hmax₀ : d₀ ≤ maxBalance) (hmax₁ : d₁ ≤ maxBalance) (hfits : d₀ * r₁ / r₀ ≤ maxBalance) :
    ∃ x, calculateAddedAmount d₀ d₁ min₀ min₁ r₀ r₁ = .ok x ∧ r₀ ≤ x.1 ∧ x.1 ≤ d₀ ∧ r₁ ≤ x.2 ∧
      x.2 ≤ d₁ ∧ x.2 * r₀ ≤ d₀ * r₁ := by
  have hshare₁ : calculateShareAmount d₀ r₀ r₁ = d₀ * r₁ / r₀ :=
    calculateShareAmount_of_le hmax₀ (hd₁.trans hmax₁) hfits
  unfold calculateAddedAmount
  rw [if_neg (by omega), hshare₁]
  by_cases hle : d₀ * r₁ / r₀ ≤ d₁
  · have hge : r₁ ≤ d₀ * r₁ / r₀ := by
      rw [Nat.le_div_iff_mul_le hr₀, mul_comm]
      exact Nat.mul_le_mul_right _ hd₀
    simp only [if_pos hle, if_pos (hmin₁.trans hge)]
    exact ⟨_, rfl, hd₀, le_rfl, hge, hle, Nat.div_mul_le_self _ _⟩
  · have hlt : d₁ * r₀ < d₀ * r₁ := by
      by_contra hnot
      exact hle (Nat.div_le_of_le_mul (by rw [mul_comm r₀]; omega))
    have hle₀ : d₁ * r₀ / r₁ ≤ d₀ := Nat.div_le_of_le_mul (by rw [mul_comm r₁]; omega)
    have hshare₀ : calculateShareAmount d₁ r₁ r₀ = d₁ * r₀ / r₁ :=
      calculateShareAmount_of_le hmax₁ (hd₀.trans hmax₀) (hle₀.trans hmax₀)
    have hge : r₀ ≤ d₁ * r₀ / r₁ := by
      rw [Nat.le_div_iff_mul_le hr₁, mul_comm]
      exact Nat.mul_le_mul_right _ hd₁
    simp only [if_neg hle, hshare₀, if_pos (And.intro (hmin₀.trans hge) hle₀)]
    exact ⟨_, rfl, hge, hle₀, hd₁, le_rfl, hlt.le⟩

/-- The liquidity that amounts of at least the reserves are worth. -/
theorem calculateLiquidity_pos {x : ℕ × ℕ} {d₀ r₀ r₁ supply : ℕ} (hr₀ : 0 < r₀) (hr₁ : 0 < r₁)
    (hsupply : 0 < supply) (hx₀ : r₀ ≤ x.1) (hle₀ : x.1 ≤ d₀) (hx₁ : r₁ ≤ x.2)
    (hle₁ : x.2 * r₀ ≤ d₀ * r₁) (hmax₀ : x.1 ≤ maxBalance) (hmax₁ : x.2 ≤ maxBalance)
    (hmax : supply ≤ maxBalance) (hfits : d₀ * supply / r₀ ≤ maxBalance) :
    0 < calculateLiquidity x.1 x.2 r₀ r₁ supply ∧
      calculateLiquidity x.1 x.2 r₀ r₁ supply ≤ d₀ * supply / r₀ := by
  have hbound₀ : x.1 * supply / r₀ ≤ d₀ * supply / r₀ :=
    Nat.div_le_div_right (Nat.mul_le_mul_right _ hle₀)
  have hbound₁ : x.2 * supply / r₁ ≤ d₀ * supply / r₀ := by
    rw [Nat.le_div_iff_mul_le hr₀]
    refine Nat.le_of_mul_le_mul_right ?_ hr₁
    calc x.2 * supply / r₁ * r₀ * r₁ = x.2 * supply / r₁ * r₁ * r₀ := Nat.mul_right_comm _ _ _
      _ ≤ x.2 * supply * r₀ := Nat.mul_le_mul_right _ (Nat.div_mul_le_self _ _)
      _ = x.2 * r₀ * supply := Nat.mul_right_comm _ _ _
      _ ≤ d₀ * r₁ * supply := Nat.mul_le_mul_right _ hle₁
      _ = d₀ * supply * r₁ := Nat.mul_right_comm _ _ _
  rw [calculateLiquidity, if_neg hsupply.ne',
    calculateShareAmount_of_le hmax₀ hmax (hbound₀.trans hfits),
    calculateShareAmount_of_le hmax₁ hmax (hbound₁.trans hfits)]
  refine ⟨lt_min ?_ ?_, (min_le_left _ _).trans hbound₀⟩
  · exact Nat.div_pos (hx₀.trans (Nat.le_mul_of_pos_right _ hsupply)) hr₀
  · exact Nat.div_pos (hx₁.trans (Nat.le_mul_of_pos_right _ hsupply)) hr₁

section

omit [DexGeneralConfig AccountId AssetId]

/-- What can be withdrawn can be transferred. -/
theorem exists_transfer {asset : AssetId} {a b : AccountId} {x : ℕ}
    (h : (balances s.tokens a asset).CanWithdraw x) :
    ∃ s', (transfer asset a b x).run s = .ok () s' := by
  obtain ⟨_, t, ht⟩ := Call.succeeds_iff.mp
    ((LawfulMultiCurrency.transfer_succeeds asset a b x s.tokens).mpr (.inr h))
  exact ⟨_, run_onTokens.mpr ⟨t, ht, rfl⟩⟩

private theorem exists_deposit {asset : AssetId} {a : AccountId} {x : ℕ}
    (h : totalIssuance s.tokens asset + x ≤ maxBalance) :
    ∃ s', (deposit asset a x).run s = .ok () s' ∧
      totalIssuance s'.tokens asset = totalIssuance s.tokens asset + x := by
  obtain ⟨_, t, ht⟩ := Call.succeeds_iff.mp
    ((LawfulMultiCurrency.deposit_succeeds asset a x s.tokens).mpr (.inr h))
  refine ⟨_, run_onTokens.mpr ⟨t, ht, rfl⟩, ?_⟩
  change totalIssuance t asset = _
  rw [(LawfulMultiCurrency.run_deposit asset a x s.tokens t ht).1, Function.update_self]

private theorem exists_depositFee {lp : AssetId} {m supply : ℕ} (hsupply : supply + m ≤ maxBalance)
    (hissuance : totalIssuance s.tokens lp + m ≤ maxBalance) (hoff : s.feeMeta.1 = none → m = 0) :
    ∃ s', (depositFee lp m supply).run s = .ok (supply + m) s' ∧
      totalIssuance s'.tokens lp = totalIssuance s.tokens lp + m := by
  simp only [depositFee, Call.run_bind_eq_ok, Call.run_get_eq_ok]
  cases hfee : s.feeMeta.1 with
  | none =>
    rw [hoff hfee, add_zero, add_zero]
    exact ⟨s, ⟨s, s, ⟨rfl, rfl⟩, by rw [hfee]; rfl⟩, rfl⟩
  | some feeTo =>
    rcases Nat.eq_zero_or_pos m with rfl | hpos
    · exact ⟨s, ⟨s, s, ⟨rfl, rfl⟩, by rw [hfee]; rfl⟩, rfl⟩
    · obtain ⟨s', hdeposit, hafter⟩ := exists_deposit (a := feeTo) hissuance
      refine ⟨s', ⟨s, s, ⟨rfl, rfl⟩, ?_⟩, hafter⟩
      rw [hfee]
      simp only [Call.run_ite_eq_ok, Call.run_bind_eq_ok, Call.run_ofOption_eq_ok,
        checkedAdd_eq_some]
      exact .inl ⟨hpos, (), s', hdeposit, ⟨hsupply, trivial⟩, rfl⟩

end

section

omit [DecidableEq AccountId] [LawfulWithdrawableCurrency Tokens]
  [DexGeneralConfig AccountId AssetId]

/-- An account that gets something can still withdraw what it could, and less. -/
theorem canWithdraw_of_pays {w : Flow AccountId AssetId} {asset : AssetId} {x y : ℕ}
    (hpays : Pays w s s') (hw : 0 ≤ w asset who)
    (h : (balances s.tokens who asset).CanWithdraw x) (hle : y ≤ x) :
    (balances s'.tokens who asset).CanWithdraw y := by
  have hheld : held s'.tokens asset who = held s.tokens asset who + w asset who := by
    rw [hpays.held]
    rfl
  have hfrozen : frozen s'.tokens asset who = frozen s.tokens asset who := by rw [hpays.frozen]
  simp only [held, frozen] at hheld hfrozen
  rcases h with rfl | h
  · exact .inl (by omega)
  · exact .inr (by omega)

private theorem exists_updateKLast {pairAccount : AccountId}
    (h : s.freeBalance asset₀ pairAccount * s.freeBalance asset₁ pairAccount ≤ maxU256) :
    ∃ s', (updateKLast asset₀ asset₁ pairAccount).run s = .ok () s' := by
  simp only [updateKLast, mutateKLast, Call.run_bind_eq_ok, Call.run_get_eq_ok,
    Call.run_ite_eq_ok, Call.run_ofOption_eq_ok, checkedMul_eq_some, Call.run_modify_eq_ok,
    Call.run_pure_eq_ok]
  by_cases hon : s.feeMeta.1.isSome = true
  · exact ⟨_, s, s, ⟨rfl, rfl⟩, .inl ⟨hon, _, s, ⟨⟨h, rfl⟩, rfl⟩, rfl⟩⟩
  · exact ⟨_, s, s, ⟨rfl, rfl⟩, .inr ⟨hon, trivial, rfl⟩⟩

end

/-- What is desired of both assets covers the reserves, the account has it, and the results stay
in the range of their integers. -/
structure Affordable (s : DexGeneral AccountId AssetId Tokens) (who : AccountId)
    (asset₀ asset₁ : AssetId) (d₀ d₁ : ℕ) (p : PairMetadata AccountId) (lp : AssetId) (m : ℕ) :
    Prop where
  covers₀ : s.freeBalance asset₀ p.pairAccount ≤ d₀
  covers₁ : s.freeBalance asset₁ p.pairAccount ≤ d₁
  has₀ : (balances s.tokens who asset₀).CanWithdraw d₀
  has₁ : (balances s.tokens who asset₁).CanWithdraw d₁
  range₀ : s.freeBalance asset₀ p.pairAccount + d₀ ≤ maxBalance
  range₁ : s.freeBalance asset₁ p.pairAccount + d₁ ≤ maxBalance
  proportional : d₀ * s.freeBalance asset₁ p.pairAccount / s.freeBalance asset₀ p.pairAccount ≤
    maxBalance
  supply : p.totalSupply + m +
    d₀ * (p.totalSupply + m) / s.freeBalance asset₀ p.pairAccount ≤ maxBalance
  issuance : totalIssuance s.tokens lp + m +
    d₀ * (p.totalSupply + m) / s.freeBalance asset₀ p.pairAccount ≤ maxBalance

private theorem succeeds_innerAddLiquidity (h : Live s) (who : Trader AccountId AssetId)
    {p : PairMetadata AccountId} {lp : AssetId} {m d₀ d₁ min₀ min₁ : ℕ}
    (hp : s.pairStatuses (sortAssetId asset₀ asset₁) = .trading p) (hsupply : 0 < p.totalSupply)
    (hlp : s.liquidityPairs (sortAssetId asset₀ asset₁) = some lp)
    (hm : s.protocolFee (sortAssetId asset₀ asset₁) (s.freeBalance asset₀ p.pairAccount)
      (s.freeBalance asset₁ p.pairAccount) p.totalSupply = .ok m)
    (ha : Affordable s who.val asset₀ asset₁ d₀ d₁ p lp m)
    (hmin₀ : min₀ ≤ s.freeBalance asset₀ p.pairAccount)
    (hmin₁ : min₁ ≤ s.freeBalance asset₁ p.pairAccount) :
    (innerAddLiquidity who.val asset₀ asset₁ d₀ d₁ min₀ min₁).succeeds s = true := by
  have hne := h.ne hp
  have haccount := h.linked.account _ p hp
  have hlp₀ : asset₀ ≠ lp := h.linked.ne_of_mem hlp (List.mem_pair.mpr (.inl rfl))
  have hlp₁ : asset₁ ≠ lp := h.linked.ne_of_mem hlp (List.mem_pair.mpr (.inr rfl))
  have hpair : p.pairAccount ≠ who.val := by
    rw [haccount]
    exact (who.property.2 _).symm
  have hr₀ : 0 < s.freeBalance asset₀ p.pairAccount := by
    rw [haccount]
    exact (h.pairs _ p hp).pos hsupply (eq_fst_or_snd (List.mem_pair.mpr (.inl rfl)))
  have hr₁ : 0 < s.freeBalance asset₁ p.pairAccount := by
    rw [haccount]
    exact (h.pairs _ p hp).pos hsupply (eq_fst_or_snd (List.mem_pair.mpr (.inr rfl)))
  have hd₀ := le_of_add_le_right ha.range₀
  have hd₁ := le_of_add_le_right ha.range₁
  obtain ⟨x, hx, hx₀, hxd₀, hx₁, hxd₁, hle⟩ := exists_calculateAddedAmount hr₀ hr₁ ha.covers₀
    ha.covers₁ hmin₀ hmin₁ hd₀ hd₁ ha.proportional
  have hfits := le_of_add_le_right ha.supply
  have hmax := le_of_add_le_left ha.supply
  obtain ⟨hpos, hbound⟩ := calculateLiquidity_pos hr₀ hr₁ (Nat.add_pos_left hsupply m) hx₀ hxd₀ hx₁
    hle (hxd₀.trans hd₀) (hxd₁.trans hd₁) hmax hfits
  set minted := calculateLiquidity x.1 x.2 (s.freeBalance asset₀ p.pairAccount)
    (s.freeBalance asset₁ p.pairAccount) (p.totalSupply + m) with hminted
  -- the protocol fee
  obtain ⟨s₁, hfee⟩ := exists_mintProtocolFee hm
  have hs₁ := (run_mintProtocolFee hfee).2.storage
  have htokens₁ : s₁.tokens = s.tokens := by rw [hs₁]
  have hmeta : s₁.feeMeta = s.feeMeta := by rw [hs₁]
  have hoff : s₁.feeMeta.1 = none → m = 0 := fun hoff => protocolFee_of_off (hmeta ▸ hoff) hm
  have hissuance₁ : totalIssuance s₁.tokens lp + m ≤ maxBalance := by
    rw [htokens₁]
    exact le_of_add_le_left ha.issuance
  obtain ⟨s₂, hdeposit, hissuance₂⟩ := exists_depositFee hmax hissuance₁ hoff
  obtain ⟨-, -, hpays₂⟩ := run_depositFee hoff hdeposit
  -- the liquidity and the amounts
  have hissuance₃ : totalIssuance s₂.tokens lp + minted ≤ maxBalance := by
    have := ha.issuance
    rw [hissuance₂, htokens₁]
    omega
  obtain ⟨s₃, hmint, -⟩ := exists_deposit (a := who.val) hissuance₃
  have hpays₃ := hpays₂.trans (run_deposit hmint)
  have hcan₀ : (balances s₃.tokens who.val asset₀).CanWithdraw x.1 := by
    refine canWithdraw_of_pays hpays₃ ?_ (htokens₁.symm ▸ ha.has₀) hxd₀
    exact add_nonneg feeFlow_nonneg flow_nonneg
  obtain ⟨s₄, hpay₀⟩ := exists_transfer (b := p.pairAccount) hcan₀
  have hpays₄ := hpays₃.trans (run_transfer hpay₀).1
  have hcan₁ : (balances s₄.tokens who.val asset₁).CanWithdraw x.2 := by
    refine canWithdraw_of_pays hpays₄ ?_ (htokens₁.symm ▸ ha.has₁) hxd₁
    simp only [Pi.add_apply, Pi.sub_apply, flow_of_ne_currency hne.symm, sub_zero, add_zero]
    exact add_nonneg feeFlow_nonneg flow_nonneg
  obtain ⟨s₅, hpay₁⟩ := exists_transfer (b := p.pairAccount) hcan₁
  have hpays₅ := hpays₄.trans (run_transfer hpay₁).1
  -- the product of the reserves
  have hafter₀ : s₅.freeBalance asset₀ p.pairAccount =
      s.freeBalance asset₀ p.pairAccount + x.1 := by
    have hheld := congrFun (congrFun hpays₅.held asset₀) p.pairAccount
    simp only [Pi.add_apply, Pi.sub_apply, feeFlow_of_ne hlp₀, flow_of_ne_currency hlp₀,
      flow_of_ne hpair, flow_of_ne_currency hne, flow_self, htokens₁] at hheld
    rw [← freeBalance_eq_held, ← freeBalance_eq_held] at hheld
    omega
  have hafter₁ : s₅.freeBalance asset₁ p.pairAccount =
      s.freeBalance asset₁ p.pairAccount + x.2 := by
    have hheld := congrFun (congrFun hpays₅.held asset₁) p.pairAccount
    simp only [Pi.add_apply, Pi.sub_apply, feeFlow_of_ne hlp₁, flow_of_ne_currency hlp₁,
      flow_of_ne hpair, flow_of_ne_currency hne.symm, flow_self, htokens₁] at hheld
    rw [← freeBalance_eq_held, ← freeBalance_eq_held] at hheld
    omega
  have hproduct : s₅.freeBalance asset₀ p.pairAccount * s₅.freeBalance asset₁ p.pairAccount ≤
      maxU256 := by
    have := ha.range₀
    have := ha.range₁
    exact mul_le_maxU256 (by omega) (by omega)
  obtain ⟨s₆, hkLast⟩ := exists_updateKLast hproduct
  have hhas : x.1 ≤ s.freeBalance asset₀ who.val ∧ x.2 ≤ s.freeBalance asset₁ who.val :=
    ⟨hxd₀.trans ha.has₀.le_free, hxd₁.trans ha.has₁.le_free⟩
  unfold innerAddLiquidity
  refine Call.succeeds_bind_of_ok (Call.run_reads_eq_ok.mpr ⟨tradingPair_eq_ok.mpr hp, rfl⟩) ?_
  refine Call.succeeds_bind_of_ok (Call.run_get_eq_ok.mpr ⟨rfl, rfl⟩) ?_
  refine Call.succeeds_bind_of_ok (Call.run_ofExcept_eq_ok.mpr ⟨hx, rfl⟩) ?_
  refine Call.succeeds_bind_of_ok ((Call.run_ensure_eq_ok (u := ())).mpr ⟨hhas, rfl⟩) ?_
  refine Call.succeeds_bind_of_ok (Call.run_ofOption_eq_ok.mpr ⟨hlp, rfl⟩) ?_
  refine Call.succeeds_bind_of_ok hfee ?_
  refine Call.succeeds_bind_of_ok hdeposit ?_
  refine Call.succeeds_bind_of_ok ((Call.run_ensure_eq_ok (u := ())).mpr ⟨hpos, rfl⟩) ?_
  refine Call.succeeds_bind_of_ok
    (Call.run_ofOption_eq_ok.mpr ⟨checkedAdd_eq_some.mpr ⟨?_, rfl⟩, rfl⟩) ?_
  · have := ha.supply
    omega
  refine Call.succeeds_bind_of_ok hmint ?_
  refine Call.succeeds_bind_of_ok hpay₀ ?_
  refine Call.succeeds_bind_of_ok hpay₁ ?_
  refine Call.succeeds_bind_of_ok hkLast ?_
  exact Call.succeeds_iff.mpr ⟨(), _, Call.run_modify_eq_ok.mpr rfl⟩

/-- The protocol fee that is due at the next change of the liquidity. -/
def dueFee (s : DexGeneral AccountId AssetId Tokens) (asset₀ asset₁ : AssetId)
    (p : PairMetadata AccountId) : ℕ :=
  match s.protocolFee (sortAssetId asset₀ asset₁) (s.freeBalance asset₀ p.pairAccount)
    (s.freeBalance asset₁ p.pairAccount) p.totalSupply with
  | .ok m => m
  | .error _ => 0

/-- What was minted is more than nothing. -/
theorem minted_of_add (h : Live s) (who : Trader AccountId AssetId) {lp : AssetId}
    {d₀ d₁ min₀ min₁ : ℕ} (hlp : s.liquidityPairs (sortAssetId asset₀ asset₁) = some lp)
    (hrun : (innerAddLiquidity who.val asset₀ asset₁ d₀ d₁ min₀ min₁).run s = .ok u s') :
    s.freeBalance lp who.val < s'.freeBalance lp who.val := by
  obtain ⟨p, lp', m, amounts, minted, -, hlp', -, -, -, hpos, -, hs⟩ := run_innerAddLiquidity hrun
  obtain rfl := Option.some.inj (hlp.symm.trans hlp')
  have hlp₀ : asset₀ ≠ lp := h.linked.ne_of_mem hlp (List.mem_pair.mpr (.inl rfl))
  have hlp₁ : asset₁ ≠ lp := h.linked.ne_of_mem hlp (List.mem_pair.mpr (.inr rfl))
  have hheld := congrFun (congrFun hs.held lp) who.val
  simp only [Pi.add_apply, Pi.sub_apply, flow_of_ne_currency hlp₀.symm,
    flow_of_ne_currency hlp₁.symm, flow_self] at hheld
  rw [← freeBalance_eq_held, ← freeBalance_eq_held] at hheld
  have hfee : 0 ≤ feeFlow s lp m lp who.val := feeFlow_nonneg
  omega

/-- In every run whose successful calls trade and drain no pair, a pair with liquidity has some of both
assets, and whoever can afford to match its reserves gets liquidity. -/
theorem run_pair_alive {tokens : Tokens} {feeReceiver : Option AccountId} {feePoint : UInt8}
    {ds : List (Dispatch AccountId AssetId)}
    (h : Meets step Drainless (genesis tokens feeReceiver feePoint) ds)
    (hs : s = run step (genesis tokens feeReceiver feePoint) ds) (asset₀ asset₁ : AssetId)
    (p : PairMetadata AccountId)
    (hp : s.pairStatuses (sortAssetId asset₀ asset₁) = .trading p) (hsupply : 0 < p.totalSupply) :
    0 < s.freeBalance asset₀ p.pairAccount ∧ 0 < s.freeBalance asset₁ p.pairAccount ∧
      ∃ lp, s.liquidityPairs (sortAssetId asset₀ asset₁) = some lp ∧
        ∀ (who : Trader AccountId AssetId) now deadline d₀ d₁ min₀ min₁, now < deadline →
          Affordable s who.val asset₀ asset₁ d₀ d₁ p lp (dueFee s asset₀ asset₁ p) →
          min₀ ≤ s.freeBalance asset₀ p.pairAccount → min₁ ≤ s.freeBalance asset₁ p.pairAccount →
          ∃ s', (addLiquidity now who.val asset₀ asset₁ d₀ d₁ min₀ min₁ deadline).run s = .ok () s' ∧
            s.freeBalance lp who.val < s'.freeBalance lp who.val := by
  have hlive : Live s := hs ▸ run_live h
  have haccount := hlive.linked.account _ p hp
  obtain ⟨lp, hlp⟩ := hlive.linked.liquid _ p hp
  refine ⟨?_, ?_, lp, hlp, fun who now deadline d₀ d₁ min₀ min₁ hnow ha hmin₀ hmin₁ => ?_⟩
  · rw [haccount]
    exact (hlive.pairs _ p hp).pos hsupply (eq_fst_or_snd (List.mem_pair.mpr (.inl rfl)))
  · rw [haccount]
    exact (hlive.pairs _ p hp).pos hsupply (eq_fst_or_snd (List.mem_pair.mpr (.inr rfl)))
  · have hsupply_le := le_of_add_le_left (le_of_add_le_left ha.supply)
    obtain ⟨m, hm⟩ : ∃ m, s.protocolFee (sortAssetId asset₀ asset₁)
        (s.freeBalance asset₀ p.pairAccount) (s.freeBalance asset₁ p.pairAccount) p.totalSupply =
          .ok m :=
      exists_protocolFee (le_of_add_le_left ha.range₀) (le_of_add_le_left ha.range₁) hsupply_le
    rw [dueFee, hm] at ha
    obtain ⟨_, s', hrun⟩ := Call.succeeds_iff.mp
      (succeeds_innerAddLiquidity hlive who hp hsupply hlp hm ha hmin₀ hmin₁)
    refine ⟨s', ?_, minted_of_add hlive who hlp hrun⟩
    obtain ⟨hvalid₀, hvalid₁, -⟩ :=
      DexGeneralConfig.validateAsset_of_generate _ _ _ (hlive.linked.token _ lp hlp)
    have hvalid : ∀ asset ∈ [asset₀, asset₁],
        DexGeneralConfig.validateAsset AccountId asset = true := by
      intro asset hasset
      rcases eq_fst_or_snd hasset with rfl | rfl
      · exact hvalid₀
      · exact hvalid₁
    simp only [addLiquidity, ensureValidAssets, ensureDeadline, Call.run_bind_eq_ok,
      Call.run_ensure_eq_ok]
    exact ⟨(), s, ⟨hvalid, rfl⟩, (), s, ⟨hnow, rfl⟩, hrun⟩

/-- Alice holds the liquidity of a pair, and bob swaps. -/
def Sample.opening : Sample.Run :=
  [(1, .createPair 0 1 30), (1, .addLiquidity Sample.alice 0 1 1000000 1000000 0 0 2),
    (1, .swapExactAssetsForAssets Sample.bob 500000 0 [0, 1] Sample.bob.val 2)]

/-- A pair with liquidity. -/
def Sample.opened : Sample.Exchange :=
  run step (Sample.start 10000000 (some Sample.carol.val) 5) Sample.opening

/-- Alice removes all the liquidity there was before the protocol fee, which carol gets in the same
call. Carol's liquidity is worth nothing, and nobody can add to the pair. -/
theorem pair_drained :
    let s := step Sample.opened
      (1, .removeLiquidity Sample.alice 0 1 1000000 0 0 Sample.alice.val 2)
    s.pairStatuses (0, 1) = .trading ⟨Sample.pool 0 1, 83, 30⟩ ∧
      s.freeBalance 0 (Sample.pool 0 1) = 0 ∧ s.freeBalance 1 (Sample.pool 0 1) = 0 ∧
      (addLiquidity 1 Sample.bob.val 0 1 5000000 5000000 0 0 2).succeeds s = false := by
  decide +kernel

/-- Liquidity can be added to it. -/
theorem run_pair_alive_opened :
    0 < Sample.opened.freeBalance 0 (Sample.pool 0 1) ∧
      0 < Sample.opened.freeBalance 1 (Sample.pool 0 1) ∧
      ∃ s', (addLiquidity 1 Sample.bob.val 0 1 1500000 700000 0 0 2).run Sample.opened =
          .ok () s' ∧
        Sample.opened.freeBalance 4 Sample.bob.val < s'.freeBalance 4 Sample.bob.val := by
  have hmeets : Meets step Drainless (Sample.start 10000000 (some Sample.carol.val) 5)
      Sample.opening :=
    ⟨fun _ => ⟨trivial, trivial⟩, fun _ => ⟨trivial, trivial⟩, fun _ => ⟨trivial, by decide⟩,
      trivial⟩
  obtain ⟨h₀, h₁, lp, hlp, hadd⟩ := run_pair_alive hmeets (rfl : Sample.opened = _) 0 1
    ⟨Sample.pool 0 1, 1000000, 30⟩ (by decide +kernel) (by decide)
  obtain rfl : lp = 4 := Option.some.inj (hlp.symm.trans (by decide +kernel))
  exact ⟨h₀, h₁, hadd Sample.bob 1 2 1500000 700000 0 0 (by decide)
    ⟨by decide +kernel, by decide +kernel, by decide +kernel, by decide +kernel, by decide +kernel,
      by decide +kernel, by decide +kernel, by decide +kernel, by decide +kernel⟩
    (Nat.zero_le _) (Nat.zero_le _)⟩

end Interbtc.DexGeneral
