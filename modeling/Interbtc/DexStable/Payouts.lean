import Interbtc.DexStable.Delivery

/-!
# Quotes and payouts

What a swap with the currencies of a base pool pays, compared with what was quoted for it. Between
two of these currencies the base pool is asked and the base pool pays. For a currency of its own
the meta pool first computes an amount of liquidity, which the base pool takes; the quote computes
that amount too, but takes the fee before it divides by the price.
-/

namespace Interbtc.DexStable

open Core DexStable MultiCurrency WithdrawableCurrency

variable {AccountId CurrencyId Tokens : Type} {s s' : DexStable AccountId CurrencyId Tokens}
  {poolId i j b x minAmount quote dy : ℕ} {who to' : AccountId}
  {mp mp' : MetaPool AccountId CurrencyId}

/-- The liquidity that a swap takes out of the base pool, and the liquidity that is quoted, differ
by at most one unit, where the base pool is not worth less than its liquidity. -/
theorem underlyingOut_toBase {normalized balances : List ℕ} {price dx out net quoted : ℕ}
    (hinfo : mp'.info = mp.info) (hto : b ≤ j) (hm : mp.info.tokenMultipliers[b]? = some 1)
    (hfee : mp.info.fee ≤ FEE_DENOMINATOR)
    (h : underlyingOut s.now mp' normalized price b j i b x dx = .ok (out, balances))
    (hnet : quoteOut s mp normalized i b x = .ok net) (hquoted : unpriced price net = some quoted) :
    out ≤ quoted + 1 ∧ (BASE_VIRTUAL_PRICE_PRECISION ≤ price → quoted ≤ out + 1) ∧
      (price = BASE_VIRTUAL_PRICE_PRECISION → out = quoted) := by
  simp only [underlyingOut, quoteOut, unpriced, hinfo, hm, if_pos hto, except_bind_eq_ok,
    orNone_eq_ok, nth_eq_ok, checkedSub_eq_some, checkedDiv_eq_some, Option.some.injEq,
    exists_eq_left'] at h hnet hquoted
  obtain ⟨y, hy, balance, hbalance, _, ⟨-, rfl⟩, _, ⟨-, rfl⟩, priced, hpriced, fee, hfee', _,
    ⟨-, rfl⟩, _, ⟨-, rfl⟩, _, -, _, -, _, -, _, -, _, -, _, -, _, -, _, -, _, -, hdy⟩ := h
  obtain ⟨y', hy', balance', hbalance', _, ⟨-, rfl⟩, _, ⟨-, rfl⟩, fee', hfee'', -, rfl⟩ := hnet
  obtain rfl := Option.some.inj (hy.symm.trans hy')
  obtain rfl := Option.some.inj (hbalance.symm.trans hbalance')
  obtain rfl := (Prod.mk.inj (Except.ok.inj hdy)).1
  rw [mulDivBalance_eq_some hfee', mulDivBalance_eq_some hpriced, mulDivBalance_eq_some hquoted,
    mulDivBalance_eq_some hfee'', Nat.div_one]
  have hpos : 0 < FEE_DENOMINATOR := by decide
  refine ⟨priced_sub_fee_le hfee hpos _ _ _, fun hle => sub_fee_priced_le hfee hpos hle _, ?_⟩
  rintro rfl
  rw [Nat.mul_div_cancel _ (by decide), Nat.mul_div_cancel _ (by decide)]

variable [WithdrawableCurrency Tokens AccountId CurrencyId]

/-! ## The price of a base pool -/

section Prices

variable [DexStableConfig AccountId CurrencyId]

/-- More calls than there are older pools make no difference. -/
theorem baseVirtualPriceFrom_succ {depth : ℕ} (hs : Built s)
    (hp : s.pools poolId = some (.metaPool mp)) (hlt : poolId < depth) :
    baseVirtualPriceFrom s (depth + 1) mp = baseVirtualPriceFrom s depth mp := by
  induction depth generalizing poolId mp with
  | zero => exact absurd hlt (Nat.not_lt_zero _)
  | succ depth ih =>
    obtain ⟨hbelow, -⟩ := hs.base poolId _ mp.basePoolId mp.baseCurrencies hp rfl
    rw [baseVirtualPriceFrom, baseVirtualPriceFrom]
    cases hbase : s.pools mp.basePoolId with
    | none => rfl
    | some base =>
      cases base with
      | base bp => rfl
      | metaPool bm => simp only [ih hbase (by omega)]

/-- A meta pool reads the price that it would remember. -/
theorem metaPoolBaseVirtualPrice_of_update {price : ℕ} (hs : Built s)
    (hp : s.pools poolId = some (.metaPool mp))
    (h : metaPoolUpdateVirtualPrice s mp = .ok (price, mp')) :
    metaPoolBaseVirtualPrice s mp = .ok price := by
  obtain ⟨hbelow, -⟩ := hs.base poolId _ mp.basePoolId mp.baseCurrencies hp rfl
  have hid := hs.below poolId _ hp
  rw [metaPoolBaseVirtualPrice, baseVirtualPriceFrom, except_bind_eq_ok]
  obtain ⟨hfresh, rfl, -⟩ | ⟨base, hexpired, hbase, hprice, -⟩ := metaPoolUpdateVirtualPrice_cases h
  · exact ⟨false, hfresh, rfl⟩
  · refine ⟨true, hexpired, ?_⟩
    cases base with
    | base bp =>
      simp only [hbase, if_true]
      exact hprice
    | metaPool bm =>
      rw [getPoolVirtualPrice, calculateMetaVirtualPrice, metaPoolBaseVirtualPrice,
        baseVirtualPriceFrom_succ hs hbase (by omega)] at hprice
      simp only [hbase, if_true]
      exact hprice

/-- Once it is remembered, it is the price that is read. -/
theorem metaPoolBaseVirtualPrice_updated {price price' : ℕ} (hs : Built s)
    (hp : s.pools poolId = some (.metaPool mp))
    (h : metaPoolUpdateVirtualPrice s mp = .ok (price, mp'))
    (h' : metaPoolBaseVirtualPrice s mp' = .ok price') : price' = price := by
  obtain ⟨-, rfl, rfl⟩ | ⟨base, -, -, -, rfl⟩ := metaPoolUpdateVirtualPrice_cases h
  · exact Except.ok.inj (h'.symm.trans (metaPoolBaseVirtualPrice_of_update hs hp h))
  · rw [metaPoolBaseVirtualPrice, baseVirtualPriceFrom, except_bind_eq_ok] at h'
    obtain ⟨expired, hexpired, h'⟩ := h'
    unfold cacheExpired at hexpired
    split at hexpired
    · obtain rfl : false = expired := by
        refine (decide_eq_false (not_lt.mpr ?_)).symm.trans (Except.ok.inj hexpired)
        exact Nat.le_add_right _ _
      exact (Except.ok.inj h').symm
    · cases hexpired

/-- What liquidity is worth does not depend on whether the price was remembered. -/
theorem calculateMetaRemoveLiquidityOneCurrency_updated {price amount index supply : ℕ}
    {result : ℕ × ℕ} (hs : Built s) (hp : s.pools poolId = some (.metaPool mp))
    (h : metaPoolUpdateVirtualPrice s mp = .ok (price, mp'))
    (h' : calculateMetaRemoveLiquidityOneCurrency s mp' amount index supply = .ok result) :
    calculateMetaRemoveLiquidityOneCurrency s mp amount index supply = .ok result := by
  obtain ⟨hinfo, -, -⟩ := metaPoolUpdateVirtualPrice_info h
  unfold calculateMetaRemoveLiquidityOneCurrency at h' ⊢
  rw [hinfo] at h'
  split at h'
  · cases h'
  · obtain ⟨_, hprice, h'⟩ := except_bind_eq_ok.mp h'
    obtain rfl := metaPoolBaseVirtualPrice_updated hs hp h hprice
    rw [if_neg ‹_›, except_bind_eq_ok]
    exact ⟨_, metaPoolBaseVirtualPrice_of_update hs hp h, h'⟩

end Prices

/-! ## Swaps into the base pool -/

/-- The quote of a swap from a currency of the meta pool to one of the base pool. -/
theorem calculateMetaSwapUnderlying_toBase (hpool : s.pools poolId = some (.metaPool mp))
    (hb : checkedSub mp.info.currencyIds.length 1 = some b) (hfrom : i < b) (hto : b ≤ j)
    (hq : calculateMetaSwapUnderlying s poolId x i j = .ok quote) :
    ∃ price normalized multiplier balance net quoted,
      calculateMetaVirtualPrice s mp = .ok price ∧
      metaPoolXp mp.info.balances mp.info.tokenMultipliers price = .ok normalized ∧
      mp.info.tokenMultipliers[i]? = some multiplier ∧ normalized[i]? = some balance ∧
      quoteOut s mp normalized i b (x * multiplier + balance) = .ok net ∧
      unpriced price net = some quoted ∧
      stableAmmCalculateRemoveLiquidityOneCurrency s mp.basePoolId quoted (j - b) = .ok quote := by
  rw [calculateMetaSwapUnderlying, hpool] at hq
  simp only [hb, except_bind_eq_ok, okOr_eq_ok, mapError_eq_ok, Option.some.injEq] at hq
  obtain ⟨_, rfl, price, hprice, hq⟩ := hq
  split at hq
  · cases hq
  simp only [not_le.mpr hfrom, not_lt.mpr hto, false_and, if_false, except_bind_eq_ok,
    mapError_eq_ok, orNone_eq_ok, nth_eq_ok, checkedMul_eq_some, checkedAdd_eq_some] at hq
  obtain ⟨normalized, hnormalized, ⟨_, _⟩, ⟨multiplier, hm, _, ⟨-, rfl⟩, balance, hbalance, _,
    ⟨-, rfl⟩, hin⟩, net, hnet, quoted, hquoted, hquote⟩ := hq
  obtain ⟨rfl, rfl⟩ := Prod.mk.inj (Except.ok.inj hin)
  exact ⟨price, normalized, multiplier, balance, net, quoted, hprice, hnormalized, hm, hbalance,
    hnet, hquoted, hquote⟩

/-! ## What is paid -/

section Transfers

variable [DecidableEq AccountId] [DecidableEq CurrencyId] [LawfulWithdrawableCurrency Tokens]
  [DexStableConfig AccountId CurrencyId]

/-- Liquidity is taken for what was quoted for it. -/
theorem innerRemoveLiquidityOneCurrency_pays {lpAmount index minAmount paid : ℕ} (hs : Built s)
    (h : (innerRemoveLiquidityOneCurrency poolId who lpAmount index minAmount to').run s =
      .ok paid s') :
    stableAmmCalculateRemoveLiquidityOneCurrency s poolId lpAmount index = .ok paid := by
  simp only [innerRemoveLiquidityOneCurrency, Call.run_bind_eq_ok, run_check_eq_ok] at h
  obtain ⟨_, _, ⟨-, rfl⟩, h⟩ := h
  obtain ⟨pool, _, _, hp, hrun, -⟩ := run_mutatePool h
  rw [stableAmmCalculateRemoveLiquidityOneCurrency, hp]
  cases pool with
  | base bp =>
    simp only [basePoolRemoveLiquidityOneCurrency, Call.run_bind_eq_ok, Call.run_pure_eq_ok,
      run_check_eq_ok, run_arithmetic_eq_ok, Call.run_get_eq_ok] at hrun
    obtain ⟨⟨_, _⟩, _, ⟨_, _, ⟨rfl, rfl⟩, _, _, ⟨-, rfl⟩, _, _, ⟨-, rfl⟩, _, _, ⟨-, rfl⟩, ⟨dy, fee⟩,
      _, ⟨hdy, rfl⟩, hpay⟩, hresult, -⟩ := hrun
    obtain ⟨rfl, -⟩ := Prod.mk.inj hresult
    obtain ⟨-, rfl, -⟩ := payOneCurrency_trades hpay
    exact except_bind_eq_ok.mpr ⟨_, hdy, rfl⟩
  | metaPool bm =>
    simp only [metaPoolRemoveLiquidityOneCurrency, Call.run_bind_eq_ok, Call.run_pure_eq_ok,
      run_check_eq_ok, run_arithmetic_eq_ok, Call.run_get_eq_ok] at hrun
    obtain ⟨⟨_, _⟩, _, ⟨_, _, ⟨rfl, rfl⟩, _, _, ⟨-, rfl⟩, _, _, ⟨-, rfl⟩, ⟨price, updated⟩, _,
      ⟨hprice, rfl⟩, ⟨dy, fee⟩, _, ⟨hdy, rfl⟩, ⟨out, info⟩, _, hpay, hout, -⟩, hresult, -⟩ := hrun
    obtain ⟨rfl, -⟩ := Prod.mk.inj hresult
    obtain ⟨rfl, -⟩ := Prod.mk.inj hout
    obtain ⟨-, rfl, -⟩ := payOneCurrency_trades hpay
    exact except_bind_eq_ok.mpr
      ⟨_, calculateMetaRemoveLiquidityOneCurrency_updated hs hp hprice hdy, rfl⟩

/-- A swap from a currency of the meta pool pays what the base pool quotes for about the liquidity
that it was quoted with. -/
theorem metaPoolSwapUnderlying_toBase_pays {base : StablePool AccountId CurrencyId} {price : ℕ}
    {updated : MetaPool AccountId CurrencyId} (hs : Stands s poolId mp base)
    (hpool : s.pools poolId = some (.metaPool mp)) (hne : who ≠ mp.info.account)
    (hquoted : calculateMetaVirtualPrice s mp = .ok price)
    (hpaid : metaPoolUpdateVirtualPrice s mp = .ok (price, updated))
    (hb : mp.info.currencyIds.length = b + 1) (hm : mp.info.tokenMultipliers[b]? = some 1)
    (hfee : mp.info.fee ≤ FEE_DENOMINATOR)
    (hlp : base.info.lpCurrencyId ∉ mp.baseCurrencies) (hfrom : i < b) (hto : b ≤ j)
    (hq : calculateMetaSwapUnderlying s poolId x i j = .ok quote)
    (h : (metaPoolSwapUnderlying mp who to' x minAmount i j).run s = .ok (dy, mp') s') :
    ∃ quoted removed,
      stableAmmCalculateRemoveLiquidityOneCurrency s mp.basePoolId quoted (j - b) = .ok quote ∧
      stableAmmCalculateRemoveLiquidityOneCurrency s mp.basePoolId removed (j - b) = .ok dy ∧
      removed ≤ quoted + 1 ∧ (BASE_VIRTUAL_PRICE_PRECISION ≤ price → quoted ≤ removed + 1) ∧
      (price = BASE_VIRTUAL_PRICE_PRECISION → removed = quoted) := by
  have hsub : checkedSub mp.info.currencyIds.length 1 = some b :=
    checkedSub_eq_some.mpr (by omega)
  obtain ⟨price', normalized, multiplier, balance, net, quoted, hprice, hnormalized, hmi, hbalance,
    hnet, hpriced, hquote⟩ := calculateMetaSwapUnderlying_toBase hpool hsub hfrom hto hq
  obtain ⟨price'', updated', normalized', multiplier', balance', removed, balances, hprice',
    hnormalized', hmi', hbalance', hout, -, hremoves⟩ :=
    run_metaPoolSwapUnderlying hne hsub hfrom h
  obtain rfl := Except.ok.inj (hquoted.symm.trans hprice)
  obtain ⟨rfl, rfl⟩ := Prod.mk.inj (Except.ok.inj (hpaid.symm.trans hprice'))
  obtain rfl := Except.ok.inj (hnormalized.symm.trans hnormalized')
  obtain rfl := Option.some.inj (hmi.symm.trans hmi')
  obtain rfl := Option.some.inj (hbalance.symm.trans hbalance')
  rw [min_eq_right hto] at hout
  have hunits := underlyingOut_toBase (metaPoolUpdateVirtualPrice_info hpaid).1 hto hm hfee hout
    hnet hpriced
  obtain ⟨currency, t, paid, s₁, hcurrency, ht, hrun, hdy⟩ := hremoves hto
  have hpays := innerRemoveLiquidityOneCurrency_pays (hs.of_tokens t).built hrun
  rw [stableAmmCalculateRemoveLiquidityOneCurrency_of_issuance ht] at hpays
  -- what arrives at the account of the meta pool is what the base pool paid
  obtain ⟨-, d, hd, htrades⟩ := innerRemoveLiquidityOneCurrency_trades (hs.of_tokens t).stored hrun
  obtain ⟨hlt, -⟩ | ⟨-, -, hget⟩ := underlyingCurrency_cases hcurrency
  · omega
  rw [hs.currencyIds] at hd
  obtain rfl := Option.some.inj (hget.symm.trans hd)
  have hother : base.info.lpCurrencyId ≠ currency :=
    fun heq => hlp (heq ▸ List.mem_of_getElem? hget)
  have hheld := htrades.held_trader (hs.of_tokens t) currency
  have hbefore : held t currency mp.info.account =
      freeBalance { s with tokens := t } currency mp.info.account := rfl
  have hafter : held s₁.tokens currency mp.info.account =
      freeBalance s₁ currency mp.info.account := rfl
  simp only [single, hother.symm, if_true, if_false, Pi.zero_apply] at hheld
  obtain rfl : paid = dy := by omega
  exact ⟨quoted, removed, hquote, hpays, hunits⟩

/-- The base pool takes `x` of its currency at `i` and pays the recipient of its currency at `j`,
within the rounding of its own quote. -/
def PaysFromBase (s s' : DexStable AccountId CurrencyId Tokens) (mp : MetaPool AccountId CurrencyId)
    (who to' : AccountId) (i j x quote : ℕ) : Prop :=
  ∃ base c d out, s.pools mp.basePoolId = some base ∧ mp.baseCurrencies[i]? = some c ∧
    mp.baseCurrencies[j]? = some d ∧ Delivers s s' who c x to' d out ∧
    (∀ bp, base = .base bp → quote ≤ out ∧ out ≤ quote + 1) ∧
    ∀ bm, base = .metaPool bm → PricesAgree s bm → out = quote

/-- The recipient is paid what the base pool quotes for some liquidity, which is at most one unit
from the liquidity that the quote is for, and that liquidity itself at a price of one. -/
def PaysForLiquidity (s s' : DexStable AccountId CurrencyId Tokens)
    (mp : MetaPool AccountId CurrencyId) (who to' : AccountId) (price i j x quote dy : ℕ) : Prop :=
  ∃ c d quoted removed, mp.info.currencyIds[i]? = some c ∧ mp.baseCurrencies[j]? = some d ∧
    Delivers s s' who c x to' d dy ∧
    stableAmmCalculateRemoveLiquidityOneCurrency s mp.basePoolId quoted j = .ok quote ∧
    stableAmmCalculateRemoveLiquidityOneCurrency s mp.basePoolId removed j = .ok dy ∧
    removed ≤ quoted + 1 ∧ (BASE_VIRTUAL_PRICE_PRECISION ≤ price → quoted ≤ removed + 1) ∧
    (price = BASE_VIRTUAL_PRICE_PRECISION → dy = quote)

private theorem swapMetaPoolUnderlying_paysFromBase (hs : Built s) (hwho : Outside CurrencyId who)
    (hpool : s.pools poolId = some (.metaPool mp)) (hb : mp.info.currencyIds.length = b + 1)
    (hi : b ≤ i) (hj : b ≤ j) (hq : calculateMetaSwapUnderlying s poolId x i j = .ok quote)
    (h : (swapMetaPoolUnderlying who poolId i j x minAmount to').run s = .ok dy s') :
    PaysFromBase s s' mp who to' (i - b) (j - b) x quote := by
  obtain ⟨mp', b', c, d, _, _, hp, hb', hc, hd, -, hbase⟩ :=
    swapMetaPoolUnderlying_delivers hs hwho h
  cases hp.symm.trans hpool
  obtain rfl : b' = b := by omega
  obtain ⟨-, t, s₁, out, ht, hswap, -, hdelivers⟩ := hbase hi hj
  obtain ⟨base, _, hstands, -⟩ := hs.stands hp
  obtain ⟨hlt, -⟩ | ⟨-, -, hc⟩ := underlyingCurrency_cases hc
  · omega
  obtain ⟨hlt, -⟩ | ⟨-, -, hd⟩ := underlyingCurrency_cases hd
  · omega
  have hquote := calculateMetaSwapUnderlying_base hp (checkedSub_eq_some.mpr (by omega)) hi hj hq
  rw [← stableAmmCalculateSwapAmount_of_issuance ht] at hquote
  have hstored := (hstands.of_tokens t).stored
  refine ⟨base, c, d, out, hstands.stored, hc, hd, hdelivers, ?_, ?_⟩
  · rintro bp rfl
    exact innerSwap_pays_base hstored hstands.account_ne hquote hswap
  · rintro bm rfl ⟨price, updated, hprice, hupdate⟩
    refine innerSwap_pays_meta hstored hstands.account_ne ⟨price, updated, ?_, ?_⟩ hquote hswap
    · rw [calculateMetaVirtualPrice_of_issuance ht]
      exact hprice
    · rw [metaPoolUpdateVirtualPrice_of_issuance ht]
      exact hupdate

private theorem swapMetaPoolUnderlying_paysForLiquidity {base : StablePool AccountId CurrencyId}
    {price : ℕ} {updated : MetaPool AccountId CurrencyId} (hs : Built s)
    (hwho : Outside CurrencyId who) (hpool : s.pools poolId = some (.metaPool mp))
    (hbase : s.pools mp.basePoolId = some base)
    (hquoted : calculateMetaVirtualPrice s mp = .ok price)
    (hpaid : metaPoolUpdateVirtualPrice s mp = .ok (price, updated))
    (hb : mp.info.currencyIds.length = b + 1) (hm : mp.info.tokenMultipliers[b]? = some 1)
    (hfee : mp.info.fee ≤ FEE_DENOMINATOR)
    (hlp : base.info.lpCurrencyId ∉ base.info.currencyIds) (hi : i < b) (hj : b ≤ j)
    (hq : calculateMetaSwapUnderlying s poolId x i j = .ok quote)
    (h : (swapMetaPoolUnderlying who poolId i j x minAmount to').run s = .ok dy s') :
    PaysForLiquidity s s' mp who to' price i (j - b) x quote dy := by
  obtain ⟨mp', b', c, d, _, _, hp, hb', hc, hd, hown, -⟩ :=
    swapMetaPoolUnderlying_delivers hs hwho h
  cases hp.symm.trans hpool
  obtain rfl : b' = b := by omega
  obtain ⟨-, hdelivers⟩ := hown (.inl hi)
  obtain ⟨base', _, hstands, -⟩ := hs.stands hp
  cases hbase.symm.trans hstands.stored
  obtain ⟨-, -, hc⟩ | ⟨hle, -⟩ := underlyingCurrency_cases hc
  swap
  · omega
  obtain ⟨hlt, -⟩ | ⟨-, -, hd⟩ := underlyingCurrency_cases hd
  · omega
  obtain ⟨mp', _, _, hp', hrun, -⟩ := run_swapMetaPoolUnderlying_eq_ok h
  cases hp'.symm.trans hp
  rw [hstands.currencyIds] at hlp
  obtain ⟨quoted, removed, hquote, hpays, hle, hge, hone⟩ := metaPoolSwapUnderlying_toBase_pays
    hstands hp (hs.outside hwho hp) hquoted hpaid hb hm hfee hlp hi hj hq hrun
  refine ⟨c, d, quoted, removed, hc, hd, hdelivers, hquote, hpays, hle, hge, fun hprice => ?_⟩
  rw [hone hprice] at hpays
  exact Except.ok.inj (hpays.symm.trans hquote)

section

omit [DexStableConfig AccountId CurrencyId]

private theorem swapMetaPoolUnderlying_own_pays (hpool : s.pools poolId = some (.metaPool mp))
    (hne : who ≠ mp.info.account) (hprices : PricesAgree s mp)
    (hi : i + 1 < mp.info.currencyIds.length) (hj : j + 1 < mp.info.currencyIds.length)
    (hq : calculateMetaSwapUnderlying s poolId x i j = .ok quote)
    (h : (swapMetaPoolUnderlying who poolId i j x minAmount to').run s = .ok dy s') :
    dy = quote := by
  obtain ⟨mp', _, _, hp, hrun, -⟩ := run_swapMetaPoolUnderlying_eq_ok h
  cases hp.symm.trans hpool
  exact metaPoolSwapUnderlying_own_pays hp hne hprices hi hj hq hrun

end

/-- A base pool pays its quote or one unit more. A meta pool pays its quote where the price that
the quote takes is the one of its base pool. For a currency of the base pool, the base pool pays
what it quotes: for another one of its currencies, or for nearly the liquidity of the quote. -/
theorem quotes_match_execution (s : DexStable AccountId CurrencyId Tokens) (who to' : AccountId)
    (poolId i j x minAmount : ℕ) :
    (∀ pool quote dy s', s.pools poolId = some (.base pool) → who ≠ pool.account →
      calculateBaseSwapAmount s pool i j x = .ok quote →
      (innerSwap who poolId i j x minAmount to').run s = .ok dy s' →
      quote ≤ dy ∧ dy ≤ quote + 1) ∧
    ∀ mp, s.pools poolId = some (.metaPool mp) → who ≠ mp.info.account →
      (PricesAgree s mp → ∀ quote dy s',
        stableAmmCalculateSwapAmount s poolId i j x = .ok quote →
        (innerSwap who poolId i j x minAmount to').run s = .ok dy s' → dy = quote) ∧
      ∀ quote dy s' b, mp.info.currencyIds.length = b + 1 →
        calculateMetaSwapUnderlying s poolId x i j = .ok quote →
        (swapMetaPoolUnderlying who poolId i j x minAmount to').run s = .ok dy s' →
        (PricesAgree s mp → i < b → j < b → dy = quote) ∧
        (Built s → Outside CurrencyId who → b ≤ i → b ≤ j →
          PaysFromBase s s' mp who to' (i - b) (j - b) x quote) ∧
        ∀ base price updated, Built s → Outside CurrencyId who →
          s.pools mp.basePoolId = some base → base.info.lpCurrencyId ∉ base.info.currencyIds →
          mp.info.tokenMultipliers[b]? = some 1 → mp.info.fee ≤ FEE_DENOMINATOR →
          calculateMetaVirtualPrice s mp = .ok price →
          metaPoolUpdateVirtualPrice s mp = .ok (price, updated) → i < b → b ≤ j →
          PaysForLiquidity s s' mp who to' price i (j - b) x quote dy := by
  refine ⟨fun pool quote dy s' hpool hne hq h => ?_, fun mp hpool hne => ⟨?_, ?_⟩⟩
  · refine innerSwap_pays_base hpool hne ?_ h
    rw [stableAmmCalculateSwapAmount, hpool]
    exact hq
  · intro hprices quote dy s' hq h
    exact innerSwap_pays_meta hpool hne hprices hq h
  · intro quote dy s' b hb hq h
    refine ⟨fun hprices hi hj => ?_, fun hs hwho hi hj => ?_, ?_⟩
    · exact swapMetaPoolUnderlying_own_pays hpool hne hprices (by omega) (by omega) hq h
    · exact swapMetaPoolUnderlying_paysFromBase hs hwho hpool hb hi hj hq h
    · intro base price updated hs hwho hbase hlp hm hfee hquoted hpaid hi hj
      exact swapMetaPoolUnderlying_paysForLiquidity hs hwho hpool hbase hquoted hpaid hb hm hfee hlp
        hi hj hq h

end Transfers

namespace Sample

/-- A meta pool whose cached price is above one. -/
def tiltedMeta : MetaPool ℕ ℕ :=
  { balancedMeta with
    baseVirtualPrice := 11 * 10 ^ 17
    info := { balancedMeta.info with balances := [1000007, 10 ^ 6] } }

/-- A pair of pools in which a unit of the liquidity of the base pool is worth many units of its
second currency, and in which both prices are 1.1. -/
def tilted : Exchange :=
  { balanced with
    tokens := { billions with
      issuance := fun c => if c = 100 then 38637100 else if c = 101 then 1908900 else 2 * 10 ^ 9 }
    pools := fun id =>
      if id = 0 then some (.base { balancedBase with balances := [1000, 10 ^ 9] })
      else if id = 1 then some (.metaPool tiltedMeta)
      else none }

/-- The quote of a swap that goes through the base pool estimates the fee there. The quote of a
swap into the base pool can be for one unit of liquidity too much. -/
theorem underlying_quote_exceeds_payout :
    (balanced.pools 1 = some (.metaPool balancedMeta) ∧ PricesAgree balanced balancedMeta ∧
      calculateMetaSwapUnderlying balanced 1 500000000 1 0 = .ok 467222625 ∧
      (swapMetaPoolUnderlying 0 1 1 0 500000000 0 0).value? balanced = some 467215248) ∧
    tilted.pools 1 = some (.metaPool tiltedMeta) ∧ PricesAgree tilted tiltedMeta ∧
    calculateMetaSwapUnderlying tilted 1 373 0 2 = .ok 13129 ∧
    (swapMetaPoolUnderlying 0 1 0 2 373 0 0).value? tilted = some 13059 := by
  refine ⟨⟨by decide +kernel, ⟨10 ^ 18, balancedMeta, ?_, ?_⟩, ?_, ?_⟩,
    rfl, ⟨11 * 10 ^ 17, tiltedMeta, ?_, ?_⟩, ?_, ?_⟩ <;> decide +kernel

private theorem balanced_built : Built balanced := by
  have hstep (s : Exchange) (x : Step) (hs : Built s)
      (hx : (∀ who, x.origin = .signed who → Outside ℕ who) ∧ x.op.Distinct) :
      Built (DexStable.step s x) := (step_upheld hs hx.1 hx.2).built
  have hrun : Built (run DexStable.step start filling) := by
    refine run_invariant hstep (genesis_built _ _) ⟨⟨?_, (by decide : [0, 1].Nodup)⟩, ⟨?_, trivial⟩,
      ⟨?_, (by decide : [2, 100].Nodup)⟩, ⟨?_, trivial⟩, trivial⟩
    · rintro who ⟨⟩
    · rintro who ⟨⟩
      exact trader_outside
    · rintro who ⟨⟩
    · rintro who ⟨⟩
      exact trader_outside
  exact hrun.of_frames ⟨fun _ => rfl, rfl, rfl⟩

/-- A thousand of each currency, quoted and swapped: in the base pool, which pays one unit more than
it quotes, in the meta pool, between two currencies of the base pool, and into the base pool. -/
theorem quotes_match_execution_balanced :
    (calculateBaseSwapAmount balanced balancedBase 0 1 1000 = .ok 996 ∧
      stableAmmCalculateSwapAmount balanced 1 0 1 1000 = .ok 997 ∧
      calculateMetaSwapUnderlying balanced 1 1000 1 2 = .ok 996 ∧
      calculateMetaSwapUnderlying balanced 1 1000 0 2 = .ok 996) ∧
    (∃ dy s', (innerSwap 0 0 0 1 1000 0 5).run balanced = .ok dy s' ∧ 996 ≤ dy ∧ dy ≤ 997) ∧
    (∃ dy s', (innerSwap 0 1 0 1 1000 0 5).run balanced = .ok dy s' ∧ dy = 997) ∧
    (∃ dy s', (swapMetaPoolUnderlying 0 1 1 2 1000 0 5).run balanced = .ok dy s' ∧
      PaysFromBase balanced s' balancedMeta 0 5 0 1 1000 996) ∧
    ∃ dy s', (swapMetaPoolUnderlying 0 1 0 2 1000 0 5).run balanced = .ok dy s' ∧
      PaysForLiquidity balanced s' balancedMeta 0 5 (10 ^ 18) 0 1 1000 996 dy := by
  have hbase : balanced.pools 0 = some (.base balancedBase) := by decide +kernel
  have hmeta : balanced.pools 1 = some (.metaPool balancedMeta) := by decide +kernel
  have hquotes : calculateBaseSwapAmount balanced balancedBase 0 1 1000 = .ok 996 ∧
      stableAmmCalculateSwapAmount balanced 1 0 1 1000 = .ok 997 ∧
      calculateMetaSwapUnderlying balanced 1 1000 1 2 = .ok 996 ∧
      calculateMetaSwapUnderlying balanced 1 1000 0 2 = .ok 996 := by
    refine ⟨?_, ?_, ?_, ?_⟩ <;> decide +kernel
  have hprice : calculateMetaVirtualPrice balanced balancedMeta = .ok (10 ^ 18) := by
    decide +kernel
  have hupdate : metaPoolUpdateVirtualPrice balanced balancedMeta =
      .ok (10 ^ 18, balancedMeta) := by decide +kernel
  obtain ⟨s₁, h₁⟩ := Call.exists_of_value?
    (by decide +kernel : (innerSwap 0 0 0 1 1000 0 5).value? balanced = some 997)
  obtain ⟨s₂, h₂⟩ := Call.exists_of_value?
    (by decide +kernel : (innerSwap 0 1 0 1 1000 0 5).value? balanced = some 997)
  obtain ⟨s₃, h₃⟩ := Call.exists_of_value?
    (by decide +kernel : (swapMetaPoolUnderlying 0 1 1 2 1000 0 5).value? balanced = some 0)
  obtain ⟨s₄, h₄⟩ := Call.exists_of_value?
    (by decide +kernel : (swapMetaPoolUnderlying 0 1 0 2 1000 0 5).value? balanced = some 996)
  refine ⟨hquotes, ⟨997, s₁, h₁, ?_⟩, ⟨997, s₂, h₂, ?_⟩, ⟨0, s₃, h₃, ?_⟩, 996, s₄, h₄, ?_⟩
  · exact (quotes_match_execution balanced 0 5 0 0 1 1000 0).1 balancedBase 996 997 s₁ hbase
      (by decide) hquotes.1 h₁
  · exact ((quotes_match_execution balanced 0 5 1 0 1 1000 0).2 balancedMeta hmeta
      (by decide)).1 ⟨_, _, hprice, hupdate⟩ 997 997 s₂ hquotes.2.1 h₂
  · exact (((quotes_match_execution balanced 0 5 1 1 2 1000 0).2 balancedMeta hmeta
      (by decide)).2 996 0 s₃ 1 rfl hquotes.2.2.1 h₃).2.1 balanced_built trader_outside
      (by decide) (by decide)
  · exact (((quotes_match_execution balanced 0 5 1 0 2 1000 0).2 balancedMeta hmeta
      (by decide)).2 996 996 s₄ 1 rfl hquotes.2.2.2 h₄).2.2 (.base balancedBase) (10 ^ 18)
      balancedMeta balanced_built trader_outside hbase (by decide) rfl (by decide) hprice hupdate
      (by decide) (by decide)

end Sample

end Interbtc.DexStable
