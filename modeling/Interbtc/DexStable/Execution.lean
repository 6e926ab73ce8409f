import Interbtc.Core.Fees
import Interbtc.DexStable.Lifecycle

/-!
# What swaps pay and what was quoted

A quote and the swap that follows it compute the same change of a balance. They differ in where
the fee is rounded, and in the price that they take for the liquidity of a base pool.
-/

namespace Interbtc.DexStable

open Core DexStable MultiCurrency WithdrawableCurrency

variable {AccountId CurrencyId Tokens α : Type} {s s' : DexStable AccountId CurrencyId Tokens}

/-! ## Results of computations -/

/-- What is there is returned. -/
theorem orNone_eq_ok {o : Option α} {a : α} : orNone o = .ok a ↔ o = some a := okOr_eq_ok

/-- What is at an index is returned. -/
theorem nth_eq_ok {xs : List α} {i : ℕ} {x : α} : nth xs i = .ok x ↔ xs[i]? = some x := okOr_eq_ok

/-- Another error does not change a result. -/
theorem mapError_eq_ok {ε ε' : Type} {f : ε → ε'} {x : Except ε α} {a : α} :
    x.mapError f = .ok a ↔ x = .ok a := by
  cases x with
  | error e => simp [Except.mapError]
  | ok b => simp [Except.mapError]

/-- Arithmetic changes nothing. -/
theorem run_arithmetic_eq_ok {x : Computed α} {a : α} :
    (arithmetic x : StableCall AccountId CurrencyId Tokens α).run s = .ok a s' ↔
      x = .ok a ∧ s = s' := by
  unfold arithmetic computed
  rw [Call.run_ofExcept_eq_ok, mapError_eq_ok]

/-- A check changes nothing. -/
theorem run_check_eq_ok {c : Prop} [Decidable c] {e : StableError} {u : Unit} :
    (check c e : StableCall AccountId CurrencyId Tokens Unit).run s = .ok u s' ↔ c ∧ s = s' :=
  Call.run_ensure_eq_ok

/-- A product is divided without an overflow between. -/
theorem mulDivBalance_eq_some {a b c n : ℕ} (h : mulDivBalance a b c = some n) :
    n = a * b / c := by
  simp only [mulDivBalance, mulDiv, Option.bind_eq_some_iff, checkedMul_eq_some,
    checkedDiv_eq_some, tryInto_eq_some] at h
  obtain ⟨_, ⟨_, ⟨-, rfl⟩, -, rfl⟩, -, rfl⟩ := h
  rfl

/-- A call on a pool stores what it returns. -/
theorem run_mutatePool {poolId : ℕ} {a : α} {f : StablePool AccountId CurrencyId →
      StableCall AccountId CurrencyId Tokens (α × StablePool AccountId CurrencyId)}
    (h : (mutatePool poolId f).run s = .ok a s') :
    ∃ pool pool' s₁, s.pools poolId = some pool ∧ (f pool).run s = .ok (a, pool') s₁ ∧
      s' = { s₁ with pools := Function.update s₁.pools poolId (some pool') } := by
  unfold mutatePool at h
  obtain ⟨_, _, hget, h⟩ := Call.run_bind_eq_ok.mp h
  obtain ⟨rfl, rfl⟩ := Call.run_get_eq_ok.mp hget
  cases hpool : s.pools poolId with
  | none =>
    rw [hpool] at h
    cases h
  | some pool =>
    simp only [hpool, Call.run_bind_eq_ok, Call.run_modify_eq_ok, Call.run_pure_eq_ok] at h
    obtain ⟨⟨b, pool'⟩, s₁, hrun, _, _, rfl, rfl, rfl⟩ := h
    exact ⟨pool, pool', s₁, rfl, hrun, rfl⟩

variable {who to' : AccountId} {pool pool' : BasePool AccountId CurrencyId}
  {mp mp' : MetaPool AccountId CurrencyId}
  {i j poolId inAmount minAmount quote dy price indexFrom indexTo b : ℕ}

/-! ## Base pools -/

/-- What the balance of a currency changes by for an amount of another one, with common decimals
and before the fee. -/
def baseChange (now : ℕ) (pool : BasePool AccountId CurrencyId) (i j inAmount : ℕ) :
    Computed ℕ := do
  let normalized ← xp pool.balances pool.tokenMultipliers
  let balanceIn ← nth normalized i
  let multiplierIn ← nth pool.tokenMultipliers i
  let scaled ← orNone (checkedMul maxBalance inAmount multiplierIn)
  let newInBalance ← orNone (checkedAdd maxBalance balanceIn scaled)
  let outBalance ← orNone (getY now pool i j newInBalance normalized)
  let balanceOut ← nth normalized j
  let change ← orNone (checkedSub balanceOut outBalance)
  orNone (checkedSub change 1)

private theorem baseChange_eq_ok {now change : ℕ} : baseChange now pool i j inAmount = .ok change ↔
    ∃ normalized balanceIn multiplierIn y balanceOut,
      xp pool.balances pool.tokenMultipliers = .ok normalized ∧
      normalized[i]? = some balanceIn ∧ pool.tokenMultipliers[i]? = some multiplierIn ∧
      inAmount * multiplierIn ≤ maxBalance ∧ balanceIn + inAmount * multiplierIn ≤ maxBalance ∧
      getY now pool i j (balanceIn + inAmount * multiplierIn) normalized = some y ∧
      normalized[j]? = some balanceOut ∧ y ≤ balanceOut ∧ 1 ≤ balanceOut - y ∧
      balanceOut - y - 1 = change := by
  simp only [baseChange, except_bind_eq_ok, orNone_eq_ok, nth_eq_ok, checkedMul_eq_some,
    checkedAdd_eq_some, checkedSub_eq_some]
  constructor
  · rintro ⟨normalized, hn, balanceIn, hbi, multiplierIn, hm, _, ⟨hmul, rfl⟩, _, ⟨hadd, rfl⟩, y,
      hy, balanceOut, hbo, _, ⟨hle, rfl⟩, hpos, hc⟩
    exact ⟨normalized, balanceIn, multiplierIn, y, balanceOut, hn, hbi, hm, hmul, hadd, hy, hbo,
      hle, hpos, hc⟩
  · rintro ⟨normalized, balanceIn, multiplierIn, y, balanceOut, hn, hbi, hm, hmul, hadd, hy, hbo,
      hle, hpos, hc⟩
    exact ⟨normalized, hn, balanceIn, hbi, multiplierIn, hm, _, ⟨hmul, rfl⟩, _, ⟨hadd, rfl⟩, y,
      hy, balanceOut, hbo, _, ⟨hle, rfl⟩, hpos, hc⟩

/-- A quote takes the fee of what is divided into units, and rounds once more. -/
theorem calculateBaseSwapAmount_eq_ok
    (h : calculateBaseSwapAmount s pool i j inAmount = .ok quote) :
    ∃ change multiplier, baseChange s.now pool i j inAmount = .ok change ∧
      pool.tokenMultipliers[j]? = some multiplier ∧
      quote + 1 =
        change / multiplier - change / multiplier * pool.fee / FEE_DENOMINATOR := by
  unfold calculateBaseSwapAmount at h
  split at h
  · cases h
  simp only [except_bind_eq_ok, orNone_eq_ok, nth_eq_ok, checkedMul_eq_some,
    checkedAdd_eq_some, checkedSub_eq_some, checkedDiv_eq_some] at h
  obtain ⟨normalized, hn, balanceIn, hbi, multiplierIn, hm, _, ⟨hmul, rfl⟩, _, ⟨hadd, rfl⟩, y,
    hy, balanceOut, hbo, _, ⟨hle, rfl⟩, _, ⟨hpos, rfl⟩, multiplier, hmo, _, ⟨-, rfl⟩, fee, hfee,
    _, ⟨-, rfl⟩, hone, rfl⟩ := h
  refine ⟨_, multiplier, baseChange_eq_ok.mpr ⟨normalized, balanceIn, multiplierIn, y, balanceOut,
    hn, hbi, hm, hmul, hadd, hy, hbo, hle, hpos, rfl⟩, hmo, ?_⟩
  rw [← mulDivBalance_eq_some hfee, Nat.sub_add_cancel hone]

private theorem calculateMetaSwapAmount_of_info (hinfo : mp'.info = mp.info) :
    calculateMetaSwapAmount { s with tokens := t } mp' i j inAmount price =
      calculateMetaSwapAmount s mp i j inAmount price := by
  unfold calculateMetaSwapAmount
  rw [hinfo]

private theorem underlyingCurrency_index {index metaIndex : ℕ} {c : CurrencyId}
    (h : underlyingCurrency mp b index = .ok (c, metaIndex)) : metaIndex = min index b := by
  unfold underlyingCurrency at h
  split at h
  · obtain ⟨_, -, h⟩ := except_bind_eq_ok.mp h
    rw [min_eq_left (le_of_lt ‹_›)]
    exact (Prod.mk.inj (Except.ok.inj h)).2.symm
  · obtain ⟨_, -, h⟩ := except_bind_eq_ok.mp h
    rw [min_eq_right (not_lt.mp ‹_›)]
    exact (Prod.mk.inj (Except.ok.inj h)).2.symm

private theorem underlyingCurrency_own {index metaIndex : ℕ} {c : CurrencyId} (hindex : index < b)
    (h : underlyingCurrency mp b index = .ok (c, metaIndex)) : metaIndex = index :=
  (underlyingCurrency_index h).trans (min_eq_left hindex.le)

/-- What is paid of a currency of the meta pool is the quote divided into units. -/
theorem underlyingOut_own {normalized balances : List ℕ} {x dx net : ℕ}
    (hinfo : mp'.info = mp.info) (hto : indexTo < b)
    (h : underlyingOut s.now mp' normalized price b indexTo indexFrom indexTo x dx =
      .ok (dy, balances))
    (hnet : quoteOut s mp normalized indexFrom indexTo x = .ok net) :
    ∃ multiplier, mp.info.tokenMultipliers[indexTo]? = some multiplier ∧ dy = net / multiplier := by
  simp only [underlyingOut, quoteOut, hinfo, not_le.mpr hto, if_false, except_bind_eq_ok,
    orNone_eq_ok, nth_eq_ok, checkedSub_eq_some, checkedDiv_eq_some, Option.some.injEq,
    exists_eq_left'] at h hnet
  obtain ⟨y, hy, balance, hbalance, _, ⟨-, rfl⟩, _, ⟨-, rfl⟩, fee, hfee, _, ⟨-, rfl⟩, multiplier,
    hm, _, ⟨-, rfl⟩, _, -, _, -, _, -, _, -, _, -, _, -, _, -, _, -, _, -, hdy⟩ := h
  obtain ⟨y', hy', balance', hbalance', _, ⟨-, rfl⟩, _, ⟨-, rfl⟩, fee', hfee', -, rfl⟩ := hnet
  obtain rfl := Option.some.inj (hy.symm.trans hy')
  obtain rfl := Option.some.inj (hbalance.symm.trans hbalance')
  obtain rfl := Option.some.inj (hfee.symm.trans hfee')
  exact ⟨multiplier, hm, (Prod.mk.inj (Except.ok.inj hdy)).1.symm⟩

/-! ## Meta pools -/

variable [WithdrawableCurrency Tokens AccountId CurrencyId] {t : Tokens}

section Issuance

variable (ht : totalIssuance t = (totalIssuance s.tokens : CurrencyId → ℕ))

include ht

private theorem calculateBaseVirtualPrice_of_issuance :
    calculateBaseVirtualPrice { s with tokens := t } pool = calculateBaseVirtualPrice s pool := by
  have hsupply : lpSupply { s with tokens := t } pool = lpSupply s pool := congrFun ht _
  unfold calculateBaseVirtualPrice
  rw [hsupply]

private theorem metaVirtualPriceAt_of_issuance :
    metaVirtualPriceAt { s with tokens := t } mp price = metaVirtualPriceAt s mp price := by
  have hsupply : lpSupply { s with tokens := t } mp.info = lpSupply s mp.info := congrFun ht _
  unfold metaVirtualPriceAt
  rw [hsupply]

private theorem baseVirtualPriceFrom_of_issuance (depth : ℕ) (mp : MetaPool AccountId CurrencyId) :
    baseVirtualPriceFrom { s with tokens := t } depth mp = baseVirtualPriceFrom s depth mp := by
  induction depth generalizing mp with
  | zero => rfl
  | succ depth ih =>
    simp only [baseVirtualPriceFrom, calculateBaseVirtualPrice_of_issuance ht,
      metaVirtualPriceAt_of_issuance ht, ih]
    rfl

private theorem metaPoolBaseVirtualPrice_of_issuance :
    metaPoolBaseVirtualPrice { s with tokens := t } mp = metaPoolBaseVirtualPrice s mp :=
  baseVirtualPriceFrom_of_issuance ht _ mp

/-- The price of a meta pool depends on the issuance only. -/
theorem calculateMetaVirtualPrice_of_issuance :
    calculateMetaVirtualPrice { s with tokens := t } mp = calculateMetaVirtualPrice s mp := by
  simp only [calculateMetaVirtualPrice, metaPoolBaseVirtualPrice_of_issuance ht,
    metaVirtualPriceAt_of_issuance ht]

/-- Prices depend on the issuance of the tokens, not on their balances. -/
theorem metaPoolUpdateVirtualPrice_of_issuance :
    metaPoolUpdateVirtualPrice { s with tokens := t } mp = metaPoolUpdateVirtualPrice s mp := by
  have hprice (p : StablePool AccountId CurrencyId) :
      getPoolVirtualPrice { s with tokens := t } p = getPoolVirtualPrice s p := by
    cases p with
    | base p => exact calculateBaseVirtualPrice_of_issuance ht
    | metaPool p => exact calculateMetaVirtualPrice_of_issuance ht
  simp only [metaPoolUpdateVirtualPrice, hprice]
  rfl

/-- The quote of a swap depends on the issuance only. -/
theorem stableAmmCalculateSwapAmount_of_issuance (poolId i j x : ℕ) :
    stableAmmCalculateSwapAmount { s with tokens := t } poolId i j x =
      stableAmmCalculateSwapAmount s poolId i j x := by
  simp only [stableAmmCalculateSwapAmount, calculateMetaVirtualPrice_of_issuance ht]
  rfl

/-- The quote for one token depends on the issuance only. -/
theorem stableAmmCalculateRemoveLiquidityOneCurrency_of_issuance (poolId amount index : ℕ) :
    stableAmmCalculateRemoveLiquidityOneCurrency { s with tokens := t } poolId amount index =
      stableAmmCalculateRemoveLiquidityOneCurrency s poolId amount index := by
  have hsupply (p : BasePool AccountId CurrencyId) :
      lpSupply { s with tokens := t } p = lpSupply s p := congrFun ht _
  simp only [stableAmmCalculateRemoveLiquidityOneCurrency, calculateBaseRemoveLiquidityOneToken,
    calculateMetaRemoveLiquidityOneCurrency, metaPoolBaseVirtualPrice_of_issuance ht, hsupply]

end Issuance

/-- The price of the base pool is read from the cache, or computed and stored. -/
theorem metaPoolUpdateVirtualPrice_cases {price : ℕ}
    (h : metaPoolUpdateVirtualPrice s mp = .ok (price, mp')) :
    cacheExpired s mp = .ok false ∧ price = mp.baseVirtualPrice ∧ mp' = mp ∨
      ∃ base, cacheExpired s mp = .ok true ∧ s.pools mp.basePoolId = some base ∧
        getPoolVirtualPrice s base = .ok price ∧
        mp' = { mp with baseVirtualPrice := price, baseCacheLastUpdated := s.now } := by
  unfold metaPoolUpdateVirtualPrice at h
  obtain ⟨expired, hexpired, h⟩ := except_bind_eq_ok.mp h
  cases expired with
  | false =>
    obtain ⟨rfl, rfl⟩ := Prod.mk.inj (Except.ok.inj h)
    exact .inl ⟨hexpired, rfl, rfl⟩
  | true =>
    cases hbase : s.pools mp.basePoolId with
    | none =>
      simp only [hbase, if_true] at h
      cases h
    | some base =>
      simp only [hbase, if_true] at h
      obtain ⟨_, hprice, h⟩ := except_bind_eq_ok.mp h
      obtain ⟨rfl, rfl⟩ := Prod.mk.inj (Except.ok.inj h)
      exact .inr ⟨base, hexpired, rfl, hprice, rfl⟩

/-- What is remembered of the price is all that an update changes. -/
theorem metaPoolUpdateVirtualPrice_info
    (h : metaPoolUpdateVirtualPrice s mp = .ok (price, mp')) :
    mp'.info = mp.info ∧ mp'.basePoolId = mp.basePoolId ∧
      mp'.baseCurrencies = mp.baseCurrencies := by
  obtain ⟨-, -, rfl⟩ | ⟨_, -, -, -, rfl⟩ := metaPoolUpdateVirtualPrice_cases h
  · exact ⟨rfl, rfl, rfl⟩
  · exact ⟨rfl, rfl, rfl⟩

/-- The price that the quote of a meta pool takes is the one that its swaps take. -/
def PricesAgree (s : DexStable AccountId CurrencyId Tokens) (mp : MetaPool AccountId CurrencyId) :
    Prop :=
  ∃ price updated, calculateMetaVirtualPrice s mp = .ok price ∧
    metaPoolUpdateVirtualPrice s mp = .ok (price, updated)

/-! ## Swaps of the storage -/

/-- A swap is with a base pool or with a meta pool. -/
theorem run_innerSwap (h : (innerSwap who poolId i j inAmount minAmount to').run s = .ok dy s') :
    (∃ pool pool' s₁, s.pools poolId = some (.base pool) ∧
      (basePoolSwap who pool i j inAmount minAmount to').run s = .ok (dy, pool') s₁) ∨
    ∃ mp mp' s₁, s.pools poolId = some (.metaPool mp) ∧
      (metaPoolSwap who mp i j inAmount minAmount to').run s = .ok (dy, mp') s₁ := by
  simp only [innerSwap, Call.run_bind_eq_ok, run_check_eq_ok] at h
  obtain ⟨_, _, ⟨-, rfl⟩, h⟩ := h
  obtain ⟨stored, _, s₁, hstored, hrun, -⟩ := run_mutatePool h
  cases stored with
  | base pool =>
    simp only [Call.run_bind_eq_ok, Call.run_pure_eq_ok] at hrun
    obtain ⟨⟨out, pool'⟩, _, hrun, hout, rfl⟩ := hrun
    obtain ⟨rfl, -⟩ := Prod.mk.inj hout
    exact .inl ⟨pool, pool', _, hstored, hrun⟩
  | metaPool mp =>
    simp only [Call.run_bind_eq_ok, Call.run_pure_eq_ok] at hrun
    obtain ⟨⟨out, mp'⟩, _, hrun, hout, rfl⟩ := hrun
    obtain ⟨rfl, -⟩ := Prod.mk.inj hout
    exact .inr ⟨mp, mp', _, hstored, hrun⟩

/-! ## Swaps with the currencies of a base pool -/

private theorem run_underlyingIn_own {normalized : List ℕ} {dx x received : ℕ}
    (hfrom : indexFrom < b)
    (h : (underlyingIn mp normalized price b indexFrom dx).run s = .ok (x, received) s') :
    ∃ multiplier balance, mp.info.tokenMultipliers[indexFrom]? = some multiplier ∧
      normalized[indexFrom]? = some balance ∧ x = dx * multiplier + balance ∧ received = dx ∧
      s = s' := by
  rw [underlyingIn, if_pos hfrom, run_arithmetic_eq_ok] at h
  simp only [except_bind_eq_ok, nth_eq_ok, orNone_eq_ok, checkedMul_eq_some,
    checkedAdd_eq_some] at h
  obtain ⟨⟨multiplier, hm, _, ⟨-, rfl⟩, balance, hbalance, _, ⟨-, rfl⟩, hx⟩, hs⟩ := h
  obtain ⟨rfl, rfl⟩ := Prod.mk.inj (Except.ok.inj hx)
  exact ⟨multiplier, balance, hm, hbalance, rfl, rfl, hs⟩

/-- The quote of a swap between two currencies of the meta pool itself. -/
theorem calculateMetaSwapUnderlying_own (hpool : s.pools poolId = some (.metaPool mp))
    (hb : checkedSub mp.info.currencyIds.length 1 = some b) (hfrom : indexFrom < b)
    (hto : indexTo < b)
    (hq : calculateMetaSwapUnderlying s poolId inAmount indexFrom indexTo = .ok quote) :
    ∃ price normalized multiplier x net multiplierOut,
      calculateMetaVirtualPrice s mp = .ok price ∧
      metaPoolXp mp.info.balances mp.info.tokenMultipliers price = .ok normalized ∧
      mp.info.tokenMultipliers[indexFrom]? = some multiplier ∧ normalized[indexFrom]? = some x ∧
      quoteOut s mp normalized indexFrom indexTo (inAmount * multiplier + x) = .ok net ∧
      mp.info.tokenMultipliers[indexTo]? = some multiplierOut ∧ quote = net / multiplierOut := by
  rw [calculateMetaSwapUnderlying, hpool] at hq
  simp only [hb, except_bind_eq_ok, okOr_eq_ok, mapError_eq_ok, Option.some.injEq] at hq
  obtain ⟨_, rfl, price, hprice, hq⟩ := hq
  have hown : ¬ (b ≤ indexFrom ∧ b ≤ indexTo) := by omega
  split at hq
  · cases hq
  simp only [except_bind_eq_ok, mapError_eq_ok, orNone_eq_ok, nth_eq_ok, checkedMul_eq_some,
    checkedAdd_eq_some, checkedDiv_eq_some] at hq
  obtain ⟨normalized, hnormalized, ⟨x', metaFrom⟩, ⟨multiplier, hm, _, ⟨-, rfl⟩, x, hx, _, ⟨-, rfl⟩,
    hin⟩, net, hnet, multiplierOut, hmo, -, rfl⟩ := hq
  obtain ⟨rfl, rfl⟩ := Prod.mk.inj (Except.ok.inj hin)
  exact ⟨price, normalized, multiplier, x, net, multiplierOut, hprice, hnormalized, hm, hx, hnet,
    hmo, rfl⟩

/-- The quote of a swap between two currencies of the base pool is the one of the base pool. -/
theorem calculateMetaSwapUnderlying_base (hpool : s.pools poolId = some (.metaPool mp))
    (hb : checkedSub mp.info.currencyIds.length 1 = some b) (hfrom : b ≤ indexFrom)
    (hto : b ≤ indexTo)
    (hq : calculateMetaSwapUnderlying s poolId inAmount indexFrom indexTo = .ok quote) :
    stableAmmCalculateSwapAmount s mp.basePoolId (indexFrom - b) (indexTo - b) inAmount =
      .ok quote := by
  rw [calculateMetaSwapUnderlying, hpool] at hq
  simp only [hb, except_bind_eq_ok, okOr_eq_ok, mapError_eq_ok, Option.some.injEq] at hq
  obtain ⟨_, rfl, price, hprice, hq⟩ := hq
  split at hq
  · cases hq
  obtain ⟨normalized, -, hq⟩ := except_bind_eq_ok.mp hq
  rw [if_pos ⟨hfrom, hto⟩, mapError_eq_ok] at hq
  exact hq

/-! ## What is paid -/

section Transfers

variable [DecidableEq AccountId] [DecidableEq CurrencyId] [LawfulWithdrawableCurrency Tokens]

/-- A transfer to another account adds all of its amount to the balance there. -/
theorem run_doTransferIn {c : CurrencyId} {source dest : AccountId} {amount received : ℕ}
    (hne : source ≠ dest)
    (h : (doTransferIn c source dest amount).run s = .ok received s') :
    received = amount ∧ ∃ t, s' = { s with tokens := t } ∧
      totalIssuance t = (totalIssuance s.tokens : CurrencyId → ℕ) := by
  simp only [doTransferIn, Call.run_bind_eq_ok, Call.run_get_eq_ok, Call.run_mapError_eq_ok,
    Lens.run_zoom_eq_ok, run_arithmetic_eq_ok, orNone_eq_ok, checkedSub_eq_some] at h
  obtain ⟨_, _, ⟨rfl, rfl⟩, _, _, ⟨t, ht, rfl⟩, _, _, ⟨rfl, rfl⟩, ⟨-, hreceived⟩, rfl⟩ := h
  obtain ⟨hissuance, hbalances⟩ := LawfulMultiCurrency.run_transfer _ _ _ _ _ _ ht
  refine ⟨?_, t, rfl, hissuance⟩
  rw [if_neg hne] at hbalances
  have hfree : (balances t dest c).free = (balances s.tokens dest c).free + amount := by
    rw [hbalances]
    simp [Balances.modify, AccountData.credit, Ne.symm hne, TokensPart]
  rw [← hreceived]
  change (balances t dest c).free - (balances s.tokens dest c).free = amount
  rw [hfree, Nat.add_sub_cancel_left]

/-- A swap divides into units what is left after the fee. -/
theorem run_basePoolSwap (hne : who ≠ pool.account)
    (h : (basePoolSwap who pool i j inAmount minAmount to').run s = .ok (dy, pool') s') :
    ∃ change multiplier, baseChange s.now pool i j inAmount = .ok change ∧
      pool.tokenMultipliers[j]? = some multiplier ∧
      dy = (change - change * pool.fee / FEE_DENOMINATOR) / multiplier := by
  simp only [basePoolSwap, Call.run_bind_eq_ok, run_check_eq_ok, run_arithmetic_eq_ok,
    Call.run_get_eq_ok, Call.run_pure_eq_ok, except_bind_eq_ok, orNone_eq_ok, nth_eq_ok,
    checkedMul_eq_some, checkedAdd_eq_some, checkedSub_eq_some, checkedDiv_eq_some] at h
  obtain ⟨_, _, ⟨-, rfl⟩, c, _, ⟨hc, rfl⟩, received, s₁, hin, _, _, ⟨rfl, rfl⟩, ⟨out, adminFee⟩, _,
    ⟨⟨normalized, hn, multiplierIn, hm, _, ⟨hmul, rfl⟩, balanceIn, hbi, _, ⟨hadd, rfl⟩, y, hy,
      balanceOut, hbo, _, ⟨hle, rfl⟩, _, ⟨hpos, rfl⟩, fee, hfee, _, ⟨-, rfl⟩, multiplier, hmo, _,
      ⟨-, rfl⟩, hout⟩, rfl⟩, _, _, -, _, _, -, _, _, -, _, _, -, hdy, -⟩ := h
  obtain ⟨rfl, t, rfl, -⟩ := run_doTransferIn hne hin
  obtain ⟨rfl, -⟩ := Prod.mk.inj (Except.ok.inj hout)
  obtain ⟨rfl, -⟩ := Prod.mk.inj hdy
  rw [Nat.add_comm] at hadd hy
  refine ⟨_, multiplier, baseChange_eq_ok.mpr ⟨normalized, balanceIn, multiplierIn, y, balanceOut,
    hn, hbi, hm, hmul, hadd, hy, hbo, hle, hpos, rfl⟩, hmo, ?_⟩
  rw [mulDivBalance_eq_some hfee]

/-- What a base pool was asked for is paid, or one unit more. -/
theorem basePoolSwap_pays (hne : who ≠ pool.account)
    (hq : calculateBaseSwapAmount s pool i j inAmount = .ok quote)
    (h : (basePoolSwap who pool i j inAmount minAmount to').run s = .ok (dy, pool') s') :
    quote ≤ dy ∧ dy ≤ quote + 1 := by
  obtain ⟨change, multiplier, hchange, hm, hquote⟩ := calculateBaseSwapAmount_eq_ok hq
  obtain ⟨change', multiplier', hchange', hm', rfl⟩ := run_basePoolSwap hne h
  obtain rfl := Except.ok.inj (hchange.symm.trans hchange')
  obtain rfl := Option.some.inj (hm.symm.trans hm')
  have hlower := le_sub_fee_div change multiplier pool.fee FEE_DENOMINATOR
  have hupper := sub_fee_div_le change multiplier pool.fee FEE_DENOMINATOR
  omega

/-- A swap with a base pool pays its quote. -/
theorem innerSwap_pays_base (hpool : s.pools poolId = some (.base pool)) (hne : who ≠ pool.account)
    (hq : stableAmmCalculateSwapAmount s poolId i j inAmount = .ok quote)
    (h : (innerSwap who poolId i j inAmount minAmount to').run s = .ok dy s') :
    quote ≤ dy ∧ dy ≤ quote + 1 := by
  rw [stableAmmCalculateSwapAmount, hpool] at hq
  obtain ⟨pool', _, _, hpool', hrun⟩ | ⟨mp, _, _, hmp, -⟩ := run_innerSwap h
  · cases hpool.symm.trans hpool'
    exact basePoolSwap_pays hne hq hrun
  · cases hpool.symm.trans hmp

/-- A swap in a meta pool pays what is computed at the price of the base pool. -/
theorem run_metaPoolSwap (hne : who ≠ mp.info.account)
    (h : (metaPoolSwap who mp i j inAmount minAmount to').run s = .ok (dy, mp') s') :
    ∃ price updated fee, metaPoolUpdateVirtualPrice s mp = .ok (price, updated) ∧
      calculateMetaSwapAmount s mp i j inAmount price = .ok (dy, fee) := by
  simp only [metaPoolSwap, Call.run_bind_eq_ok, run_check_eq_ok, run_arithmetic_eq_ok,
    Call.run_get_eq_ok, Call.run_pure_eq_ok] at h
  obtain ⟨_, _, ⟨-, rfl⟩, c, _, ⟨-, rfl⟩, received, s₁, hin, _, _, ⟨rfl, rfl⟩, ⟨price, updated⟩, _,
    ⟨hprice, rfl⟩, ⟨out, fee⟩, _, ⟨hswap, rfl⟩, _, _, -, _, _, -, _, _, -, _, _, -, hdy, -⟩ := h
  obtain ⟨rfl, t, rfl, ht⟩ := run_doTransferIn hne hin
  rw [metaPoolUpdateVirtualPrice_of_issuance ht] at hprice
  rw [calculateMetaSwapAmount_of_info (metaPoolUpdateVirtualPrice_info hprice).1] at hswap
  obtain ⟨rfl, -⟩ := Prod.mk.inj hdy
  exact ⟨price, updated, fee, hprice, hswap⟩

/-- A swap with a meta pool pays its quote, where the prices agree. -/
theorem innerSwap_pays_meta (hpool : s.pools poolId = some (.metaPool mp))
    (hne : who ≠ mp.info.account) (hprices : PricesAgree s mp)
    (hq : stableAmmCalculateSwapAmount s poolId i j inAmount = .ok quote)
    (h : (innerSwap who poolId i j inAmount minAmount to').run s = .ok dy s') : dy = quote := by
  rw [stableAmmCalculateSwapAmount, hpool] at hq
  obtain ⟨price, updated, hquoted, hpaid⟩ := hprices
  simp only [except_bind_eq_ok] at hq
  obtain ⟨_, hprice, ⟨out, fee⟩, hout, hquote⟩ := hq
  obtain rfl := Except.ok.inj (hquoted.symm.trans hprice)
  obtain rfl : out = quote := Except.ok.inj hquote
  obtain ⟨pool, _, _, hpool', -⟩ | ⟨mp', _, _, hmp, hrun⟩ := run_innerSwap h
  · cases hpool.symm.trans hpool'
  · cases hpool.symm.trans hmp
    obtain ⟨price', _, fee', hpaid', hswap⟩ := run_metaPoolSwap hne hrun
    obtain ⟨rfl, -⟩ := Prod.mk.inj (Except.ok.inj (hpaid.symm.trans hpaid'))
    exact congrArg Prod.fst (Except.ok.inj (hswap.symm.trans hout))

/-- For a currency of its own a meta pool swaps for itself: for another one of its own, or for
liquidity that the base pool then takes for one of its currencies. -/
theorem run_metaPoolSwapUnderlying (hne : who ≠ mp.info.account)
    (hb : checkedSub mp.info.currencyIds.length 1 = some b) (hfrom : indexFrom < b)
    (h : (metaPoolSwapUnderlying mp who to' inAmount minAmount indexFrom indexTo).run s =
      .ok (dy, mp') s') :
    ∃ price updated normalized multiplier x out balances,
      metaPoolUpdateVirtualPrice s mp = .ok (price, updated) ∧
      metaPoolXp mp.info.balances mp.info.tokenMultipliers price = .ok normalized ∧
      mp.info.tokenMultipliers[indexFrom]? = some multiplier ∧
      normalized[indexFrom]? = some x ∧
      underlyingOut s.now updated normalized price b indexTo indexFrom (min indexTo b)
        (inAmount * multiplier + x) inAmount = .ok (out, balances) ∧
      (indexTo < b → dy = out) ∧
      (b ≤ indexTo → ∃ (currency : CurrencyId) (t : Tokens) (paid : ℕ) (s₁ : _),
        underlyingCurrency mp b indexTo = .ok (currency, b) ∧
        totalIssuance t = (totalIssuance s.tokens : CurrencyId → ℕ) ∧
        (innerRemoveLiquidityOneCurrency mp.basePoolId mp.info.account out (indexTo - b) 0
          mp.info.account).run { s with tokens := t } = .ok paid s₁ ∧
        freeBalance s₁ currency mp.info.account -
          freeBalance { s with tokens := t } currency mp.info.account = dy) := by
  simp only [metaPoolSwapUnderlying, Call.run_bind_eq_ok, run_check_eq_ok, run_arithmetic_eq_ok,
    Call.run_get_eq_ok, Call.run_pure_eq_ok, Call.run_ite_eq_ok, orNone_eq_ok, hb,
    Option.some.injEq, checkedSub_eq_some] at h
  obtain ⟨_, _, ⟨rfl, rfl⟩, _, _, ⟨rfl, rfl⟩, ⟨price, updated⟩, _, ⟨hprice, rfl⟩, _, _, ⟨-, rfl⟩,
    ⟨currencyFrom, metaFrom⟩, _, ⟨hcurrency, rfl⟩, ⟨currencyTo, metaTo⟩, _, ⟨hto, rfl⟩, dx, s₁, hin,
    h⟩ := h
  obtain ⟨hinfo, hid, hcurrencies⟩ := metaPoolUpdateVirtualPrice_info hprice
  have hcurrencyTo : underlyingCurrency mp b indexTo = .ok (currencyTo, metaTo) := by
    simpa only [underlyingCurrency, hinfo, hcurrencies] using hto
  rw [hinfo] at hin
  obtain ⟨rfl, t, rfl, ht⟩ := run_doTransferIn hne hin
  obtain rfl := underlyingCurrency_own hfrom hcurrency
  obtain ⟨-, normalized, _, ⟨hnormalized, rfl⟩, ⟨x, dx⟩, _, hin, ⟨out, balances⟩, _, ⟨hout, rfl⟩,
    h⟩ | ⟨hbase, -⟩ := h
  · obtain ⟨multiplier, balance, hm, hbalance, rfl, rfl, rfl⟩ := run_underlyingIn_own hfrom hin
    rw [hinfo] at hnormalized hm
    have hmeta : metaTo = min indexTo b := underlyingCurrency_index hto
    rw [hmeta] at hout
    refine ⟨price, updated, normalized, multiplier, balance, out, balances, hprice, hnormalized, hm,
      hbalance, hout, fun hlt => ?_, fun hge => ?_⟩
    · obtain ⟨hle, -⟩ | ⟨-, _, _, ⟨rfl, rfl⟩, _, _, -, _, _, ⟨rfl, rfl⟩, _, _, -, hdy, -⟩ := h
      · exact absurd hlt (not_lt.mpr hle)
      · exact (Prod.mk.inj hdy).1.symm
    · obtain ⟨-, _, _, ⟨rfl, rfl⟩, paid, s₁, hremove, _, _, ⟨rfl, rfl⟩, _, _, ⟨⟨-, rfl⟩, rfl⟩, _, _,
        -, _, _, ⟨rfl, rfl⟩, _, _, -, hdy, -⟩ | ⟨hlt, -⟩ := h
      · obtain ⟨rfl, -⟩ := Prod.mk.inj hdy
        rw [hinfo, hid] at hremove
        rw [hmeta, min_eq_right hge] at hcurrencyTo
        exact ⟨currencyTo, t, paid, s₁, hcurrencyTo, ht, hremove, by rw [hinfo]⟩
      · exact absurd hge hlt
  · exact absurd (.inl hfrom) hbase

/-- A swap of two tokens of the meta pool itself pays its quote. -/
theorem metaPoolSwapUnderlying_own_pays (hpool : s.pools poolId = some (.metaPool mp))
    (hne : who ≠ mp.info.account) (hprices : PricesAgree s mp)
    (hfrom : indexFrom + 1 < mp.info.currencyIds.length)
    (hto : indexTo + 1 < mp.info.currencyIds.length)
    (hq : calculateMetaSwapUnderlying s poolId inAmount indexFrom indexTo = .ok quote)
    (h : (metaPoolSwapUnderlying mp who to' inAmount minAmount indexFrom indexTo).run s =
      .ok (dy, mp') s') : dy = quote := by
  have hb : checkedSub mp.info.currencyIds.length 1 = some (mp.info.currencyIds.length - 1) :=
    checkedSub_eq_some.mpr ⟨by omega, rfl⟩
  obtain ⟨price, updated, hquoted, hpaid⟩ := hprices
  obtain ⟨price', normalized, multiplier, x, net, multiplierOut, hprice, hnormalized, hm, hx, hnet,
    hmo, rfl⟩ := calculateMetaSwapUnderlying_own hpool hb (by omega) (by omega) hq
  obtain ⟨price'', updated', normalized', multiplier', x', out, balances, hprice', hnormalized',
    hm', hx', hout, hdy, -⟩ := run_metaPoolSwapUnderlying hne hb (by omega) h
  obtain rfl := hdy (by omega)
  rw [min_eq_left (by omega)] at hout
  obtain rfl := Except.ok.inj (hquoted.symm.trans hprice)
  obtain ⟨rfl, rfl⟩ := Prod.mk.inj (Except.ok.inj (hpaid.symm.trans hprice'))
  obtain rfl := Except.ok.inj (hnormalized.symm.trans hnormalized')
  obtain rfl := Option.some.inj (hm.symm.trans hm')
  obtain rfl := Option.some.inj (hx.symm.trans hx')
  obtain ⟨multiplierOut', hmo', rfl⟩ :=
    underlyingOut_own (metaPoolUpdateVirtualPrice_info hprice').1 (by omega) hout hnet
  obtain rfl := Option.some.inj (hmo.symm.trans hmo')
  rfl

end Transfers

namespace Sample

/-- The trader, the base pool and the meta pool hold a billion of each of their currencies. -/
def billions : TokenLedger ℕ ℕ where
  accounts who c :=
    ⟨if who = 0 ∧ c < 3 ∨ who = 100 ∧ c < 2 ∨ who = 101 ∧ (c = 2 ∨ c = 100) then 10 ^ 9 else 0,
      0, 0⟩
  issuance _ := 2 * 10 ^ 9

/-- A base pool and a meta pool with a fee of 0.3% are created and filled. -/
def filling : List Step :=
  let scale (holdings : ℕ → ℕ) : ℕ → ℕ := fun c => 10 ^ 7 * holdings c
  [at' 1000 first_le (scale before) 0 .root
      (.createBasePool [0, 1] [18, 18] 10 30000000 0 1 []),
    at' 1010 second_le (scale before) 0 (.signed 0) (.addLiquidity 0 [10 ^ 9, 10 ^ 9] 0 0 1),
    at' 1020 third_le (scale after) (scale pooled) .root
      (.createMetaPool [2, 100] [18, 18] 10 30000000 0 1 []),
    at' 1030 fourth_le (scale after) (scale pooled) (.signed 0)
      (.addLiquidity 1 [10 ^ 9, 10 ^ 9] 0 0 1)]

/-- Both pools, balanced. -/
def balanced : Exchange :=
  { run DexStable.step start filling with
    tokens := billions
    now := 1040 }

/-- A base pool of two tokens with equal balances. -/
def balancedBase : BasePool ℕ ℕ where
  currencyIds := [0, 1]
  lpCurrencyId := 100
  tokenMultipliers := [1, 1]
  balances := [10 ^ 9, 10 ^ 9]
  fee := 30000000
  adminFee := 0
  initialA := 1000
  futureA := 1000
  initialATime := 0
  futureATime := 0
  account := 100
  adminFeeReceiver := 1
  lpCurrencySymbol := []
  lpCurrencyDecimal := 18

/-- The meta pool, in which all prices are one. -/
def balancedMeta : MetaPool ℕ ℕ where
  basePoolId := 0
  baseVirtualPrice := 10 ^ 18
  baseCacheLastUpdated := 1020
  baseCurrencies := [0, 1]
  info := { balancedBase with currencyIds := [2, 100], lpCurrencyId := 101, account := 101 }

end Sample

end Interbtc.DexStable
