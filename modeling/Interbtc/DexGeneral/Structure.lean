import Interbtc.DexGeneral.Lifecycle

/-!
# Pairs and their tokens

A pair trades from the account that belongs to it, and its liquidity token is none of its assets.
No call changes this.
-/

namespace Interbtc.DexGeneral

open Core MultiCurrency

variable {AccountId AssetId Tokens : Type} [DecidableEq AccountId] [LinearOrder AssetId]
  [WithdrawableCurrency Tokens AccountId AssetId] [LawfulWithdrawableCurrency Tokens]
  [DexGeneralConfig AccountId AssetId]
  {s s' t : DexGeneral AccountId AssetId Tokens} {asset₀ asset₁ : AssetId} {who : AccountId}
  {now : ℕ} {u : Unit}

/-! ## Checks before a call -/

omit [DecidableEq AccountId] [WithdrawableCurrency Tokens AccountId AssetId]
  [LawfulWithdrawableCurrency Tokens] [DexGeneralConfig AccountId AssetId] in
private theorem run_ensureDeadline {deadline : ℕ}
    (h : (ensureDeadline now deadline).run s = .ok u s') :
    s = s' :=
  (Call.run_ensure_eq_ok.mp h).2

omit [DecidableEq AccountId] [WithdrawableCurrency Tokens AccountId AssetId]
  [LawfulWithdrawableCurrency Tokens] in
private theorem run_ensureValidAssets {assets : List AssetId}
    (h : (ensureValidAssets assets).run s = .ok u s') : s = s' :=
  (Call.run_ensure_eq_ok.mp h).2

section

omit [DecidableEq AccountId] [LawfulWithdrawableCurrency Tokens]

/-- What is added after the deadline is checked. -/
theorem run_addLiquidity {desired₀ desired₁ min₀ min₁ deadline : ℕ}
    (h : (addLiquidity now who asset₀ asset₁ desired₀ desired₁ min₀ min₁ deadline).run s =
      .ok u s') :
    (innerAddLiquidity who asset₀ asset₁ desired₀ desired₁ min₀ min₁).run s = .ok u s' := by
  simp only [addLiquidity, Call.run_bind_eq_ok] at h
  obtain ⟨_, _, hassets, _, _, hdeadline, h⟩ := h
  obtain rfl := run_ensureValidAssets hassets
  obtain rfl := run_ensureDeadline hdeadline
  exact h

/-- What is removed after the deadline is checked. -/
theorem run_removeLiquidity {liquidity min₀ min₁ deadline : ℕ} {recipient : AccountId}
    (h : (removeLiquidity now who asset₀ asset₁ liquidity min₀ min₁ recipient deadline).run s =
      .ok u s') :
    (innerRemoveLiquidity who asset₀ asset₁ liquidity min₀ min₁ recipient).run s = .ok u s' := by
  simp only [removeLiquidity, Call.run_bind_eq_ok] at h
  obtain ⟨_, _, hassets, _, _, hdeadline, h⟩ := h
  obtain rfl := run_ensureValidAssets hassets
  obtain rfl := run_ensureDeadline hdeadline
  exact h

end

/-- What is swapped after the deadline is checked. -/
theorem run_swapExactAssetsForAssets {amountIn amountOutMin deadline : ℕ} {path : List AssetId}
    {recipient : AccountId}
    (h : (swapExactAssetsForAssets now who amountIn amountOutMin path recipient deadline).run s =
      .ok u s') : Swaps path who recipient s s' := by
  simp only [swapExactAssetsForAssets, Call.run_bind_eq_ok] at h
  obtain ⟨_, _, hdeadline, _, _, hassets, h⟩ := h
  obtain rfl := run_ensureDeadline hdeadline
  obtain rfl := run_ensureValidAssets hassets
  exact run_innerSwapExactAssetsForAssets h

/-- What is swapped after the deadline is checked. -/
theorem run_swapAssetsForExactAssets {amountOut amountInMax deadline : ℕ} {path : List AssetId}
    {recipient : AccountId}
    (h : (swapAssetsForExactAssets now who amountOut amountInMax path recipient deadline).run s =
      .ok u s') : Swaps path who recipient s s' := by
  rw [swapAssetsForExactAssets, Call.run_bind_eq_ok] at h
  obtain ⟨_, _, hdeadline, h⟩ := h
  obtain rfl := run_ensureDeadline hdeadline
  exact run_innerSwapAssetsForExactAssets h

section

omit [LawfulWithdrawableCurrency Tokens]

/-- What is contributed after the deadline is checked. -/
theorem run_bootstrapContribute {amount₀ amount₁ deadline : ℕ}
    (h : (bootstrapContribute now who asset₀ asset₁ amount₀ amount₁ deadline).run s =
      .ok u s') :
    (doBootstrapContribute now who asset₀ asset₁ amount₀ amount₁).run s = .ok u s' := by
  simp only [bootstrapContribute, Call.run_bind_eq_ok, Call.run_get_eq_ok,
    Call.run_ensure_eq_ok] at h
  obtain ⟨_, _, ⟨rfl, rfl⟩, _, _, ⟨-, rfl⟩, _, _, hdeadline, h⟩ := h
  obtain rfl := run_ensureDeadline hdeadline
  exact h

/-- What is claimed after the deadline is checked. -/
theorem run_bootstrapClaim {recipient : AccountId} {deadline : ℕ}
    (h : (bootstrapClaim now who recipient asset₀ asset₁ deadline).run s = .ok u s') :
    (doBootstrapClaim now who recipient asset₀ asset₁).run s = .ok u s' := by
  rw [bootstrapClaim, Call.run_bind_eq_ok] at h
  obtain ⟨_, _, hdeadline, h⟩ := h
  obtain rfl := run_ensureDeadline hdeadline
  exact h

/-- Swaps change balances only. -/
theorem Swaps.storage {path : List AssetId} {recipient : AccountId}
    (h : Swaps path who recipient s s') : s' = { s with tokens := s'.tokens } := by
  obtain ⟨_, _, _, _, _, _, _, hpays⟩ := h.exists_pays
  exact hpays.storage

end

/-- A bootstrap that reached its targets becomes a pair that trades from what was accumulated. -/
theorem run_bootstrapEnd (h : (bootstrapEnd now asset₀ asset₁).run s = .ok u s') :
    ∃ params lp t, lpAssetId AccountId asset₀ asset₁ = some lp ∧
      s.pairStatuses (sortAssetId asset₀ asset₁) = .bootstrap params ∧
      params.endBlockNumber ≤ now ∧
      params.targetSupply.1 ≤ params.accumulatedSupply.1 ∧
      params.targetSupply.2 ≤ params.accumulatedSupply.2 ∧
      0 < calculateLiquidity params.accumulatedSupply.1 params.accumulatedSupply.2 0 0 0 ∧
      Pays (movesBoth (sortAssetId asset₀ asset₁) params.pairAccount
          (DexGeneralConfig.subAccount (sortAssetId asset₀ asset₁)) params.accumulatedSupply +
        flow lp (DexGeneralConfig.subAccount (sortAssetId asset₀ asset₁))
          (calculateLiquidity params.accumulatedSupply.1 params.accumulatedSupply.2 0 0 0)) s t ∧
      s' = { t with
        liquidityPairs := Function.update s.liquidityPairs (sortAssetId asset₀ asset₁) (some lp)
        pairStatuses := Function.update s.pairStatuses (sortAssetId asset₀ asset₁)
          (.trading ⟨DexGeneralConfig.subAccount (sortAssetId asset₀ asset₁),
            calculateLiquidity params.accumulatedSupply.1 params.accumulatedSupply.2 0 0 0,
            DEFAULT_FEE_RATE⟩)
        bootstrapEndStatus := Function.update s.bootstrapEndStatus (sortAssetId asset₀ asset₁)
          (.bootstrap params) } := by
  simp only [bootstrapEnd, mutateLpPairs, Call.run_bind_eq_ok, Call.run_ofOption_eq_ok,
    Call.run_modify_eq_ok] at h
  obtain ⟨_, _, ⟨lp, _, ⟨hlp, rfl⟩, rfl⟩, hend⟩ := h
  obtain ⟨params, lp', t, hp, hnow, htarget₀, htarget₁, hlp', hpos, hpays, rfl⟩ :=
    run_doEndBootstrap hend
  change Function.update s.liquidityPairs _ _ _ = _ at hlp'
  rw [Function.update_self] at hlp'
  obtain rfl := Option.some.inj hlp'
  refine ⟨params, lp, { s with tokens := t.tokens }, hlp, hp, hnow, htarget₀, htarget₁, hpos,
    ⟨hpays.held, hpays.frozen, rfl⟩, ?_⟩
  rw [hpays.storage]

/-! ## The invariant -/

/-- A pair trades from its own account, and its liquidity token was generated for it. -/
structure Linked (s : DexGeneral AccountId AssetId Tokens) : Prop where
  account : ∀ pair p, s.pairStatuses pair = .trading p →
    p.pairAccount = DexGeneralConfig.subAccount pair
  token : ∀ pair lp, s.liquidityPairs pair = some lp →
    DexGeneralConfig.generateLpAssetId AccountId pair.1 pair.2 = some lp
  liquid : ∀ pair p, s.pairStatuses pair = .trading p → ∃ lp, s.liquidityPairs pair = some lp

namespace Linked

section

omit [DecidableEq AccountId] [WithdrawableCurrency Tokens AccountId AssetId]
  [LawfulWithdrawableCurrency Tokens]

/-- The liquidity token of a pair is none of its assets. -/
theorem ne_token (h : Linked s) {pair : AssetId × AssetId} {lp : AssetId}
    (hlp : s.liquidityPairs pair = some lp) : pair.1 ≠ lp ∧ pair.2 ≠ lp := by
  obtain ⟨h₀, h₁, hno⟩ :=
    DexGeneralConfig.validateAsset_of_generate _ _ _ (h.token pair lp hlp)
  constructor
  · rintro rfl
    rw [hno] at h₀
    exact Bool.noConfusion h₀
  · rintro rfl
    rw [hno] at h₁
    exact Bool.noConfusion h₁

/-- The liquidity token of a pair is none of its assets, whatever their order. -/
theorem ne_of_mem (h : Linked s) {lp asset : AssetId}
    (hlp : s.liquidityPairs (sortAssetId asset₀ asset₁) = some lp)
    (hasset : asset ∈ [asset₀, asset₁]) : asset ≠ lp := by
  obtain ⟨h₀, h₁⟩ := h.ne_token hlp
  rw [List.mem_pair] at hasset
  rcases sortAssetId_eq asset₀ asset₁ with hsort | hsort <;> rw [hsort] at h₀ h₁ <;>
    rcases hasset with rfl | rfl <;> assumption

private theorem of_eq (h : Linked s) (hstatuses : s'.pairStatuses = s.pairStatuses)
    (hpairs : s'.liquidityPairs = s.liquidityPairs) : Linked s' where
  account pair p hp := h.account pair p (hstatuses ▸ hp)
  token pair lp hlp := h.token pair lp (hpairs ▸ hlp)
  liquid pair p hp := hpairs ▸ h.liquid pair p (hstatuses ▸ hp)

/-- The status of one pair is written, from which it trades on or does not trade. -/
theorem of_update (h : Linked s) {pair : AssetId × AssetId} {status : PairStatus AccountId}
    (hstatuses : s'.pairStatuses = Function.update s.pairStatuses pair status)
    (hpairs : s'.liquidityPairs = s.liquidityPairs)
    (htrading : ∀ p, status = .trading p →
      p.pairAccount = DexGeneralConfig.subAccount pair ∧ ∃ lp, s.liquidityPairs pair = some lp) :
    Linked s' where
  account q p hp := by
    rw [hstatuses] at hp
    rcases eq_or_ne q pair with rfl | hne
    · rw [Function.update_self] at hp
      exact (htrading p hp).1
    · rw [Function.update_of_ne hne] at hp
      exact h.account q p hp
  token q lp hlp := h.token q lp (hpairs ▸ hlp)
  liquid q p hp := by
    rw [hstatuses] at hp
    rw [hpairs]
    rcases eq_or_ne q pair with rfl | hne
    · rw [Function.update_self] at hp
      exact (htrading p hp).2
    · rw [Function.update_of_ne hne] at hp
      exact h.liquid q p hp

/-- The liquidity token of a pair is generated. -/
theorem of_token (h : Linked s) {lp : AssetId}
    (hlp : lpAssetId AccountId asset₀ asset₁ = some lp) :
    Linked { s with
      liquidityPairs := Function.update s.liquidityPairs (sortAssetId asset₀ asset₁)
        (some lp) } where
  account := h.account
  token pair lp' hlp' := by
    change Function.update s.liquidityPairs _ _ pair = _ at hlp'
    rcases eq_or_ne pair (sortAssetId asset₀ asset₁) with rfl | hne
    · rw [Function.update_self, Option.some.injEq] at hlp'
      subst hlp'
      exact hlp
    · rw [Function.update_of_ne hne] at hlp'
      exact h.token pair lp' hlp'
  liquid pair p hp := by
    change ∃ lp', Function.update s.liquidityPairs _ _ pair = _
    rcases eq_or_ne pair (sortAssetId asset₀ asset₁) with rfl | hne
    · exact ⟨lp, Function.update_self _ _ _⟩
    · rw [Function.update_of_ne hne]
      exact h.liquid pair p hp

/-- Balances do not matter for the links. -/
theorem of_tokens (h : Linked s) (hs : s' = { s with tokens := s'.tokens }) : Linked s' :=
  h.of_eq (by rw [hs]) (by rw [hs])

/-- A new bootstrap keeps the links. -/
theorem of_starts (h : Linked s) {pair : AssetId × AssetId} {params : BootstrapParameter AccountId}
    {rewards : List AssetId} {limits : List (AssetId × ℕ)}
    (hs : s' = starts pair params rewards limits s) : Linked s' := by
  obtain rfl := hs
  exact h.of_update rfl rfl fun _ hq => (nomatch hq)

/-- At first there is nothing to link. -/
theorem genesis {tokens : Tokens} {feeReceiver : Option AccountId} {feePoint : UInt8} :
    Linked (DexGeneral.genesis tokens feeReceiver feePoint :
      DexGeneral AccountId AssetId Tokens) where
  account _ _ := nofun
  token _ _ := nofun
  liquid _ _ := nofun

end

omit [DecidableEq AccountId] [LawfulWithdrawableCurrency Tokens] in
/-- A change of liquidity keeps the links. -/
theorem of_changes (h : Linked s) {pair : AssetId × AssetId} {p : PairMetadata AccountId}
    {supply : ℕ} {w : Flow AccountId AssetId} (hp : s.pairStatuses pair = .trading p)
    (hs : ChangesLiquidity pair p supply w s s') : Linked s' := by
  refine h.of_update (by rw [hs.storage]) (by rw [hs.storage]) fun q hq => ?_
  obtain rfl := PairStatus.trading.inj hq
  exact ⟨h.account pair p hp, h.liquid pair p hp⟩

end Linked

omit [DecidableEq AccountId] [WithdrawableCurrency Tokens AccountId AssetId]
  [LawfulWithdrawableCurrency Tokens] in
/-- A new pair keeps the links. -/
theorem linked_createPair {feeRate : ℕ} (h : Linked s)
    (hrun : (createPair now asset₀ asset₁ feeRate).run s = .ok u s') : Linked s' := by
  obtain ⟨lp, _, -, hlp, -, rfl⟩ := run_createPair hrun
  refine (h.of_token hlp).of_update rfl rfl fun p hp => ?_
  obtain rfl := PairStatus.trading.inj hp
  exact ⟨rfl, lp, Function.update_self _ _ _⟩

private theorem linked_bootstrapEnd (h : Linked s)
    (hrun : (bootstrapEnd now asset₀ asset₁).run s = .ok u s') : Linked s' := by
  obtain ⟨params, lp, t, hlp, -, -, -, -, -, hpays, rfl⟩ := run_bootstrapEnd hrun
  refine (h.of_token hlp).of_update rfl rfl fun p hp => ?_
  obtain rfl := PairStatus.trading.inj hp
  exact ⟨rfl, lp, Function.update_self _ _ _⟩

/-- Every call keeps the links. -/
theorem linked_dispatch {op : Op AccountId AssetId} (h : Linked s)
    (hrun : (dispatch now op).run s = .ok u s') : Linked s' := by
  cases op with
  | setFeeReceiver | setFeePoint =>
    obtain rfl := Call.run_modify_eq_ok.mp hrun
    exact h.of_eq rfl rfl
  | setExchangeFee =>
    obtain ⟨p, hp, rfl⟩ := run_setExchangeFee hrun
    refine h.of_update rfl rfl fun q hq => ?_
    obtain rfl := PairStatus.trading.inj hq
    exact ⟨h.account _ p hp, h.liquid _ p hp⟩
  | createPair => exact linked_createPair h hrun
  | bootstrapCreate =>
    obtain ⟨params, -, -, hs⟩ := run_bootstrapCreate hrun
    exact h.of_starts hs
  | bootstrapUpdate =>
    obtain ⟨_, params, -, -, -, -, hs⟩ := run_bootstrapUpdate hrun
    exact h.of_starts hs
  | bootstrapWithdrawReward =>
    obtain ⟨t, hpays, rfl⟩ := run_bootstrapWithdrawReward hrun
    exact (h.of_tokens hpays.storage).of_eq rfl rfl
  | addLiquidity =>
    obtain ⟨p, _, _, _, _, hp, -, -, -, -, -, -, hs⟩ :=
      run_innerAddLiquidity (run_addLiquidity hrun)
    exact h.of_changes hp hs
  | removeLiquidity =>
    obtain ⟨p, _, _, hp, -, -, -, -, hs⟩ := run_innerRemoveLiquidity (run_removeLiquidity hrun)
    exact h.of_changes hp hs
  | swapExactAssetsForAssets => exact h.of_tokens (run_swapExactAssetsForAssets hrun).storage
  | swapAssetsForExactAssets => exact h.of_tokens (run_swapAssetsForExactAssets hrun).storage
  | bootstrapContribute =>
    obtain ⟨params, x, t, -, -, -, -, hpays, rfl⟩ :=
      run_doBootstrapContribute (run_bootstrapContribute hrun)
    exact h.of_update rfl (by rw [hpays.storage]) fun _ => (nomatch ·)
  | bootstrapClaim =>
    obtain ⟨_, _, _, _, _, _, t, -, -, -, -, -, -, -, hpays, rfl⟩ :=
      run_doBootstrapClaim (run_bootstrapClaim hrun)
    exact (h.of_tokens hpays.storage).of_eq rfl rfl
  | bootstrapEnd => exact linked_bootstrapEnd h hrun
  | bootstrapRefund =>
    obtain ⟨_, params, t, -, hpays, ⟨-, -, rfl⟩ | ⟨-, rfl⟩⟩ := run_doBootstrapRefund hrun
    · exact h.of_update rfl (by rw [hpays.storage]) fun _ => (nomatch ·)
    · exact (h.of_tokens hpays.storage).of_eq rfl rfl
  | bootstrapChargeReward =>
    obtain ⟨_, t, hpays, -, -, -, rfl⟩ := run_bootstrapChargeReward hrun
    exact (h.of_tokens hpays.storage).of_eq rfl rfl
  | transfer => exact h.of_tokens (run_transfer hrun).1.storage

private theorem linked_step (s : DexGeneral AccountId AssetId Tokens)
    (d : Dispatch AccountId AssetId)
    (h : Linked s) : Linked (step s d) := by
  obtain ⟨_, hrun⟩ | ⟨-, hsame⟩ := Call.commit_cases (dispatch d.1 d.2) s
  · exact linked_dispatch h hrun
  · rw [step, hsame]
    exact h

/-- Every run keeps the links. -/
theorem run_linked {tokens : Tokens} {feeReceiver : Option AccountId} {feePoint : UInt8}
    (ds : List (Dispatch AccountId AssetId)) :
    Linked (run step (genesis tokens feeReceiver feePoint) ds) :=
  run_preserves linked_step .genesis ds

end Interbtc.DexGeneral
