import Interbtc.DexStable.Guards

/-!
# Calls of one or two pools keep the layout

The indices of a call are checked against the pool that they are used on, or come from a pool
whose layout fits.
-/

namespace Interbtc.DexStable

open Core DexStable MultiCurrency WithdrawableCurrency

variable {AccountId CurrencyId Tokens : Type} [WithdrawableCurrency Tokens AccountId CurrencyId]
  {Γ : Layout} {l : PoolLayout} {pool : BasePool AccountId CurrencyId}
  {mp : MetaPool AccountId CurrencyId} {who to' : AccountId} {id : ℕ}

/-! ## Calls of a pool -/

/-- Adding liquidity does not panic. -/
theorem innerAddLiquidity_guards {amounts : List ℕ} {minMint : ℕ} :
    Γ.Guards (innerAddLiquidity who id amounts minMint to' :
      StableCall AccountId CurrencyId Tokens ℕ) fun _ => True := by
  refine mutatePool_guards fun l pool hf => ?_
  cases pool with
  | base pool =>
    refine Within.bind (basePoolAddLiquidity_guards hf) fun ⟨mint, changed⟩ h => ?_
    exact Within.pure h
  | metaPool mp =>
    refine Within.bind (metaPoolAddLiquidity_guards hf) fun ⟨mint, changed⟩ h => ?_
    exact Within.pure h

/-- A swap does not panic. -/
theorem innerSwap_guards {i j inAmount outMinAmount : ℕ} :
    Γ.Guards (innerSwap who id i j inAmount outMinAmount to' :
      StableCall AccountId CurrencyId Tokens ℕ) fun _ => True := by
  refine Within.bind check_within fun _ _ => mutatePool_guards fun l pool hf => ?_
  cases pool with
  | base pool =>
    refine Within.bind (basePoolSwap_guards hf) fun ⟨dy, changed⟩ h => ?_
    exact Within.pure h
  | metaPool mp =>
    refine Within.bind (metaPoolSwap_guards hf) fun ⟨dy, changed⟩ h => ?_
    exact Within.pure h

private theorem payAmounts_guards (h : pool.Fits l) {amounts minAmounts : List ℕ}
    (ha : amounts.length = l.size) (hm : minAmounts.length = l.size) :
    Γ.Guards (payAmounts pool amounts minAmounts to' :
      StableCall AccountId CurrencyId Tokens (List ℕ)) fun balances => balances.length = l.size := by
  have hc := h.currencyIds
  refine Within.foldlM (fun x hx balances hb => ?_) h.balances
  have hi := lt_length_of_mem_zipIdx hx
  refine Within.bind (arithmetic_within (nth_noPanic (by omega))) fun minAmount _ => ?_
  refine Within.bind check_within fun _ _ => ?_
  refine Within.bind (arithmetic_within (nth_noPanic (by omega))) fun balance _ => ?_
  refine Within.bind (arithmetic_within orNone_true) fun rest _ => ?_
  refine Within.bind (arithmetic_within (setNth_noPanic (by omega))) fun changed hlen => ?_
  refine Within.bind (arithmetic_within (nth_noPanic (by omega))) fun currency _ => ?_
  refine Within.bind liftTokens_guards fun _ _ => ?_
  exact Within.pure (hlen.trans hb)

/-- Removing liquidity does not panic. -/
theorem innerRemoveLiquidity_guards {lpAmount : ℕ} {minAmounts : List ℕ} :
    Γ.Guards (innerRemoveLiquidity id who lpAmount minAmounts to' :
      StableCall AccountId CurrencyId Tokens Unit) fun _ => True := by
  refine Within.bind check_within fun _ _ => mutatePool_guards fun l pool hf => ?_
  have h := hf.info_fits
  refine Within.get_bind fun s _ => ?_
  refine Within.bind check_within fun _ _ => ?_
  refine Within.bind check_within fun _ hm => ?_
  refine Within.bind (arithmetic_within (calculateBaseRemoveLiquidity_noPanic s h)) ?_
  intro amounts ha
  refine Within.bind (payAmounts_guards h ha (hm.symm.trans h.currencyIds)) fun balances hb => ?_
  refine Within.bind liftTokens_guards fun _ _ => ?_
  exact Within.pure (hf.mapInfo (h.setBalances hb))

/-- Removing one of the tokens does not panic. -/
theorem innerRemoveLiquidityOneCurrency_guards {lpAmount index minAmount : ℕ} :
    Γ.Guards (innerRemoveLiquidityOneCurrency id who lpAmount index minAmount to' :
      StableCall AccountId CurrencyId Tokens ℕ) fun _ => True := by
  refine Within.bind check_within fun _ _ => mutatePool_guards fun l pool hf => ?_
  cases pool with
  | base pool =>
    refine Within.bind (basePoolRemoveLiquidityOneCurrency_guards hf) fun ⟨dy, changed⟩ h => ?_
    exact Within.pure h
  | metaPool mp =>
    refine Within.bind (metaPoolRemoveLiquidityOneCurrency_guards hf) fun ⟨dy, changed⟩ h => ?_
    exact Within.pure h

/-! ## Liquidity for amounts of several currencies -/

section Imbalance

variable [DecidableEq AccountId] [DecidableEq CurrencyId] [LawfulWithdrawableCurrency Tokens]
  {t : Tokens}

/-- The tokens that were issued cover what an account can burn. -/
theorem liftTokens_withdraw_triple {c : CurrencyId} {x : ℕ}
    (ht : (balances t who c).free ≤ totalIssuance t c) :
    Triple (· ≠ StableFault.panic) (fun s => Γ.Fits s ∧ s.tokens = t)
      (liftTokens (WithdrawableCurrency.withdraw c who x) :
        StableCall AccountId CurrencyId Tokens Unit)
      fun _ s => Γ.Fits s ∧ x ≤ totalIssuance t c where
  ok s u s' hs h := by
    obtain ⟨hfit, rfl⟩ := hs
    obtain ⟨t', hw, rfl⟩ := Lens.run_zoom_eq_ok.mp (Call.run_mapError_eq_ok.mp h)
    have hcan := (LawfulWithdrawableCurrency.withdraw_succeeds c who x s.tokens).mp
      (Call.succeeds_iff.mpr ⟨_, _, hw⟩)
    refine ⟨hfit.setTokens t', ?_⟩
    rcases hcan with h₀ | hle <;> omega
  error s e s' hs := (liftTokens_guards : Γ.Guards _ _).error s e s' hs.1

/-- What is left of the supply does not overflow: the burned amount was part of it. -/
theorem payImbalance_triple (h : pool.Fits l) {amounts : List ℕ} (ha : amounts.length = l.size)
    (ht : (balances t who pool.lpCurrencyId).free ≤ totalIssuance t pool.lpCurrencyId)
    {burnAmount maxBurnAmount : ℕ} :
    Triple (· ≠ StableFault.panic) (fun s => Γ.Fits s ∧ s.tokens = t)
      (payImbalance who pool amounts (totalIssuance t pool.lpCurrencyId) burnAmount maxBurnAmount
        to' : StableCall AccountId CurrencyId Tokens Unit)
      fun _ s => Γ.Fits s ∧ True := by
  have hc := h.currencyIds
  refine Within.bind check_within fun _ _ => ?_
  refine Within.bind (arithmetic_within orNone_true) fun burned _ => ?_
  refine Within.bind check_within fun _ _ => ?_
  refine Triple.bind (liftTokens_withdraw_triple ht) fun _ => Triple.of_fact fun hle => ?_
  refine Within.bind (Within.forM fun x hx => ?_) fun _ _ => ?_
  · have hi := lt_length_of_mem_zipIdx hx
    refine Within.ite (fun _ => ?_) fun _ => Within.pure trivial
    refine Within.bind (arithmetic_within (nth_noPanic (by omega))) fun currency _ => ?_
    exact liftTokens_guards
  · refine Within.bind (Q := fun _ => True) (arithmetic_within ?_) fun _ _ => Within.pure trivial
    rw [minus, if_pos hle]
    exact Yields.ok trivial

private theorem basePoolRemoveLiquidityImbalance_triple (h : pool.Fits l) {amounts : List ℕ}
    {maxBurnAmount : ℕ} (ht : ∀ c, (balances t who c).free ≤ totalIssuance t c) :
    Triple (· ≠ StableFault.panic) (fun s => Γ.Fits s ∧ s.tokens = t)
      (basePoolRemoveLiquidityImbalance who pool amounts maxBurnAmount to')
      fun changed s => Γ.Fits s ∧ changed.Fits l := by
  refine Within.get_bind fun s hs => ?_
  obtain ⟨-, rfl⟩ := hs
  refine Within.bind check_within fun _ _ => ?_
  refine Within.bind check_within fun _ ha => ?_
  have hlen := ha.trans h.currencyIds
  refine Within.bind
    (arithmetic_within (calculateBaseRemoveLiquidityImbalance_noPanic s h hlen)) ?_
  rintro ⟨burnAmount, fees, changed⟩ ⟨hchanged, hlp⟩
  dsimp only at hchanged hlp
  refine Triple.bind (Q := fun _ s => Γ.Fits s ∧ True) ?_ fun _ => Triple.of_fact fun _ =>
    Within.pure hchanged
  change Triple _ _ (payImbalance who changed amounts (totalIssuance s.tokens pool.lpCurrencyId)
    burnAmount maxBurnAmount to') _
  rw [← hlp]
  exact payImbalance_triple hchanged hlen (ht changed.lpCurrencyId)

private theorem metaPoolRemoveLiquidityImbalance_triple (hf : mp.Fits Γ l) {amounts : List ℕ}
    {maxBurnAmount : ℕ} (ht : ∀ c, (balances t who c).free ≤ totalIssuance t c) :
    Triple (· ≠ StableFault.panic) (fun s => Γ.Fits s ∧ s.tokens = t)
      (metaPoolRemoveLiquidityImbalance who mp amounts maxBurnAmount to')
      fun changed s => Γ.Fits s ∧ changed.Fits Γ l := by
  refine Within.get_bind fun s hs => ?_
  obtain ⟨hfit, rfl⟩ := hs
  refine Within.bind check_within fun _ _ => ?_
  refine Within.bind check_within fun _ ha => ?_
  have hlen := ha.trans hf.info.currencyIds
  refine Within.bind (arithmetic_within (metaPoolUpdateVirtualPrice_noPanic hfit hf)) ?_
  rintro ⟨price, mp'⟩ ⟨(hf' : mp'.Fits Γ l), (hinfo : mp'.info = mp.info)⟩
  refine Within.bind
    (arithmetic_within (calculateMetaRemoveLiquidityImbalance_noPanic hf' hlen)) ?_
  rintro ⟨burnAmount, fees, changed⟩ ⟨(hchanged : changed.Fits Γ l), hlp⟩
  replace hlp : changed.info.lpCurrencyId = mp.info.lpCurrencyId :=
    hlp.trans (congrArg BasePool.lpCurrencyId hinfo)
  refine Triple.bind (Q := fun _ s => Γ.Fits s ∧ True) ?_ fun _ => Triple.of_fact fun _ =>
    Within.pure hchanged
  change Triple _ _ (payImbalance who changed.info amounts
    (totalIssuance s.tokens mp.info.lpCurrencyId) burnAmount maxBurnAmount to') _
  rw [← hlp]
  exact payImbalance_triple hchanged.info hlen (ht changed.info.lpCurrencyId)

/-- Removing given amounts does not panic where nobody holds more than there is. -/
theorem innerRemoveLiquidityImbalance_triple {amounts : List ℕ} {maxBurnAmount : ℕ}
    (ht : ∀ c, (balances t who c).free ≤ totalIssuance t c) :
    Triple (· ≠ StableFault.panic) (fun s => Γ.Fits s ∧ s.tokens = t)
      (innerRemoveLiquidityImbalance who id amounts maxBurnAmount to' :
        StableCall AccountId CurrencyId Tokens Unit)
      fun _ s => Γ.Fits s ∧ True := by
  refine mutatePool_triple (fun _ hs => hs.1) fun l pool hf => ?_
  cases pool with
  | base pool =>
    refine Triple.bind (basePoolRemoveLiquidityImbalance_triple hf ht) fun changed => ?_
    exact Triple.of_fact fun h => Within.pure h
  | metaPool mp =>
    refine Triple.bind (metaPoolRemoveLiquidityImbalance_triple hf ht) fun changed => ?_
    exact Triple.of_fact fun h => Within.pure h

end Imbalance

/-! ## Swaps with the currencies of a base pool -/

private theorem underlyingCurrency_noPanic (hn : 0 < mp.info.currencyIds.length) {index : ℕ}
    (hi : index < mp.info.currencyIds.length - 1 + mp.baseCurrencies.length) :
    NoPanic (underlyingCurrency mp (mp.info.currencyIds.length - 1) index) fun r =>
      r.2 < mp.info.currencyIds.length := by
  refine Yields.ite (fun h => ?_) fun h => ?_
  · refine nth_bind (by omega) fun _ => Yields.ok ?_
    exact h.trans (Nat.sub_lt hn one_pos)
  · refine nth_bind (by omega) fun _ => Yields.ok ?_
    exact Nat.sub_lt hn one_pos

private theorem underlyingIn_guards (hf : mp.Fits Γ l) (hl : 0 < l.size) {normalized : List ℕ}
    (hn : normalized.length = l.size) {price index dx : ℕ}
    (hi : index < l.size - 1 + mp.baseCurrencies.length) :
    Γ.Guards (underlyingIn mp normalized price (l.size - 1) index dx :
      StableCall AccountId CurrencyId Tokens (ℕ × ℕ)) fun _ => True := by
  have hm := hf.info.tokenMultipliers
  refine Within.ite (fun h => arithmetic_within ?_) fun h => ?_
  · refine nth_bind (by omega) fun _ => orNone_bind fun _ => nth_bind (by omega) fun _ => ?_
    exact orNone_bind fun _ => Yields.ok trivial
  · refine Within.bind (arithmetic_within (setNth_noPanic ?_)) fun baseAmounts _ => ?_
    · rw [List.length_replicate]
      omega
    refine Within.bind innerAddLiquidity_guards fun dx _ => arithmetic_within ?_
    refine orNone_bind fun _ => nth_bind (by omega) fun _ => ?_
    exact orNone_bind fun _ => Yields.ok trivial

omit [WithdrawableCurrency Tokens AccountId CurrencyId] in
private theorem underlyingOut_noPanic (hf : mp.Fits Γ l) {normalized : List ℕ}
    (hn : normalized.length = l.size) {now price last index metaFrom metaTo x dx : ℕ}
    (hfrom : metaFrom < l.size) (hto : metaTo < l.size) :
    NoPanic (underlyingOut now mp normalized price last index metaFrom metaTo x dx) fun r =>
      r.2.length = l.size := by
  have hm := hf.info.tokenMultipliers
  have hb := hf.info.balances
  refine orNone_bind fun _ => nth_bind (by omega) fun _ => ?_
  iterate 5 refine orNone_bind fun _ => ?_
  refine nth_bind (by omega) fun _ => ?_
  iterate 3 refine orNone_bind fun _ => ?_
  refine nth_bind (by omega) fun _ => orNone_bind fun _ => ?_
  refine Yields.bind (setNth_noPanic (by omega)) fun balances hlen => ?_
  refine nth_bind (by omega) fun _ => orNone_bind fun _ => orNone_bind fun _ => ?_
  refine Yields.bind (setNth_noPanic (by omega)) fun balances' hlen' => Yields.ok ?_
  exact hlen'.trans (hlen.trans hb)

private theorem metaPoolSwapUnderlying_guards (hf : mp.Fits Γ l)
    {inAmount minOutAmount indexFrom indexTo : ℕ} :
    Γ.Guards (metaPoolSwapUnderlying mp who to' inAmount minOutAmount indexFrom indexTo :
      StableCall AccountId CurrencyId Tokens _) fun r => r.2.Fits Γ l := by
  refine Within.bind (arithmetic_within (orNone_noPanic _)) fun last hlast => ?_
  obtain ⟨hpos, rfl⟩ := checkedSub_eq_some.mp hlast
  refine Within.get_bind fun s hs => ?_
  refine Within.bind (arithmetic_within (metaPoolUpdateVirtualPrice_noPanic hs hf)) ?_
  rintro ⟨price, mp'⟩ ⟨(hf' : mp'.Fits Γ l), (hinfo : mp'.info = mp.info)⟩
  rw [← hinfo] at hpos ⊢
  have hc := hf'.info.currencyIds
  refine Within.bind check_within fun _ hrange => ?_
  obtain ⟨-, hin, hout⟩ := hrange
  refine Within.bind (arithmetic_within (underlyingCurrency_noPanic hpos hin)) ?_
  rintro ⟨currencyFrom, metaFrom⟩ (hfrom : metaFrom < mp'.info.currencyIds.length)
  refine Within.bind (arithmetic_within (underlyingCurrency_noPanic hpos hout)) ?_
  rintro ⟨currencyTo, metaTo⟩ (hto : metaTo < mp'.info.currencyIds.length)
  rw [hc] at hpos hin hfrom hto ⊢
  refine Within.bind doTransferIn_guards fun dx _ => ?_
  -- what all branches end with
  have hpay : ∀ (dy : ℕ) (changed : MetaPool AccountId CurrencyId), changed.Fits Γ l →
      Γ.Guards (do
        liftTokens (MultiCurrency.transfer currencyTo changed.info.account to' dy)
        pure (dy, changed) : StableCall AccountId CurrencyId Tokens _) fun r => r.2.Fits Γ l :=
    fun dy changed h => Within.bind liftTokens_guards fun _ _ => Within.pure h
  refine Within.ite (fun _ => ?_) fun _ => ?_
  · refine Within.bind (arithmetic_within (metaPoolXp_balances_noPanic hf'.info)) ?_
    intro normalized hn
    refine Within.bind (underlyingIn_guards hf' hpos hn hin) fun ⟨x, dx⟩ _ => ?_
    refine Within.bind (arithmetic_within (underlyingOut_noPanic hf' hn hfrom hto)) ?_
    rintro ⟨dy, balances⟩ hb
    have hchanged := hf'.setInfo (hf'.info.setBalances hb)
    refine Within.ite (fun _ => ?_) fun _ => ?_
    · refine Within.get_bind fun before _ => ?_
      refine Within.bind innerRemoveLiquidityOneCurrency_guards fun _ _ => ?_
      refine Within.get_bind fun after _ => ?_
      refine Within.bind (arithmetic_within orNone_true) fun dy _ => ?_
      exact Within.bind check_within fun _ _ => hpay _ _ hchanged
    · refine Within.bind (Q := fun _ => True) (Within.pure trivial) fun dy _ => ?_
      exact Within.bind check_within fun _ _ => hpay _ _ hchanged
  · refine Within.get_bind fun before _ => ?_
    refine Within.bind innerSwap_guards fun _ _ => ?_
    refine Within.get_bind fun after _ => ?_
    refine Within.bind (arithmetic_within orNone_true) fun dy _ => ?_
    exact hpay _ _ hf'

/-- An underlying swap does not panic. -/
theorem swapMetaPoolUnderlying_guards [DecidableEq CurrencyId]
    [DexStableConfig AccountId CurrencyId] {inIndex outIndex dx minDy : ℕ} :
    Γ.Guards (swapMetaPoolUnderlying who id inIndex outIndex dx minDy to' :
      StableCall AccountId CurrencyId Tokens ℕ) fun _ => True := by
  refine mutatePool_guards fun l pool hf => ?_
  cases pool with
  | base pool => exact Within.throw nofun
  | metaPool mp =>
    refine Within.bind (metaPoolSwapUnderlying_guards hf) fun ⟨dy, changed⟩ h => ?_
    exact Within.pure h

/-! ## Calls of a meta pool and its base pool -/

section TwoPools

variable [DecidableEq CurrencyId] {poolId basePoolId : ℕ}

omit [WithdrawableCurrency Tokens AccountId CurrencyId] in
private theorem setLpAmounts_noPanic {currencyIds : List CurrencyId} {lp : CurrencyId}
    {lpAmount : ℕ}
    {amounts : List ℕ} (h : amounts.length = currencyIds.length) :
    NoPanic (setLpAmounts currencyIds lp lpAmount amounts) fun _ => True := by
  refine (Yields.foldlM (S := fun ys : List ℕ => ys.length = amounts.length)
    (fun c hc ys hys => ?_) rfl).mono fun _ _ => trivial
  have hi := lt_length_of_mem_zipIdx hc
  refine Yields.ite (fun _ => ?_) fun _ => Yields.ok hys
  exact (setNth_noPanic (by omega)).mono fun zs hzs => hzs.trans hys

/-- Adding liquidity to two pools does not panic. -/
theorem innerAddPoolAndBasePoolLiquidity_guards {metaAmounts baseAmounts : List ℕ}
    {minToMint : ℕ} :
    Γ.Guards (innerAddPoolAndBasePoolLiquidity who poolId basePoolId metaAmounts baseAmounts
      minToMint to' : StableCall AccountId CurrencyId Tokens Unit) fun _ => True := by
  refine Within.bind findPool_guards fun basePool _ => ?_
  refine Within.bind findPool_guards fun metaPool _ => ?_
  refine Within.bind checkMetaPool_guards fun _ _ => ?_
  refine Within.bind check_within fun _ hlen => ?_
  refine Within.ite_bind (Q := fun _ => True) (fun _ => innerAddLiquidity_guards)
    (fun _ => Within.pure trivial) fun baseLpReceived _ => ?_
  refine Within.get_bind fun before _ => ?_
  refine Within.bind (arithmetic_within (setLpAmounts_noPanic hlen)) fun amounts _ => ?_
  refine Within.bind innerAddLiquidity_guards fun _ _ => ?_
  refine Within.ite (fun _ => ?_) fun _ => Within.pure trivial
  refine Within.get_bind fun after _ => ?_
  refine Within.bind (arithmetic_within orNone_true) fun difference _ => ?_
  exact check_within.weaken fun _ _ => trivial

omit [DecidableEq CurrencyId] in
/-- Removing liquidity from two pools does not panic. -/
theorem innerRemovePoolAndBasePoolLiquidity_guards {amount : ℕ}
    {minAmountsMeta minAmountsBase : List ℕ} :
    Γ.Guards (innerRemovePoolAndBasePoolLiquidity who poolId basePoolId amount minAmountsMeta
      minAmountsBase to' : StableCall AccountId CurrencyId Tokens Unit) fun _ => True := by
  refine Within.bind findPool_guards fun basePool _ => ?_
  refine Within.get_bind fun before _ => ?_
  refine Within.bind innerRemoveLiquidity_guards fun _ _ => ?_
  refine Within.get_bind fun after _ => ?_
  refine Within.bind (arithmetic_within orNone_true) fun baseLpAmount _ => ?_
  exact innerRemoveLiquidity_guards

/-- Removing one of the tokens of two pools does not panic. -/
theorem innerRemovePoolAndBasePoolLiquidityOneCurrency_guards {amount i minAmount : ℕ} :
    Γ.Guards (innerRemovePoolAndBasePoolLiquidityOneCurrency who poolId basePoolId amount i
      minAmount to' : StableCall AccountId CurrencyId Tokens Unit) fun _ => True := by
  refine Within.bind findPool_guards fun basePool _ => ?_
  refine Within.bind findPool_guards fun metaPool _ => ?_
  refine Within.bind checkMetaPool_guards fun _ _ => ?_
  refine Within.bind ofOption_guards fun index _ => ?_
  refine Within.get_bind fun before _ => ?_
  refine Within.bind innerRemoveLiquidityOneCurrency_guards fun _ _ => ?_
  refine Within.get_bind fun after _ => ?_
  refine Within.bind (arithmetic_within orNone_true) fun amount _ => ?_
  refine Within.bind innerRemoveLiquidityOneCurrency_guards fun _ _ => ?_
  exact Within.pure trivial

/-- A swap into the base pool does not panic. -/
theorem innerSwapPoolToBase_guards {inIndex outIndex dx minDy : ℕ} :
    Γ.Guards (innerSwapPoolToBase who poolId basePoolId inIndex outIndex dx minDy to' :
      StableCall AccountId CurrencyId Tokens ℕ) fun _ => True := by
  refine Within.get_bind fun s _ => ?_
  refine Within.bind ofOption_guards fun basePoolCurrency _ => ?_
  refine Within.bind ofOption_guards fun index _ => ?_
  refine Within.ite_bind (Q := fun _ => True) (fun _ => innerSwap_guards)
    (fun _ => Within.pure trivial) fun baseLpAmount _ => ?_
  exact innerRemoveLiquidityOneCurrency_guards

end TwoPools

end Interbtc.DexStable
