import Interbtc.DexStable.Surplus

/-!
# Calls through several pools

A trader that is no pool makes no surplus smaller, through however many pools a call goes. A swap
with the currencies of a base pool is also a trade of the account of the meta pool with the base
pool, in which that account gives away no more than its pool records.
-/

namespace Interbtc.DexStable

open Core DexStable MultiCurrency WithdrawableCurrency

variable {AccountId CurrencyId Tokens α : Type} [DecidableEq AccountId] [DecidableEq CurrencyId]
  [WithdrawableCurrency Tokens AccountId CurrencyId] [DexStableConfig AccountId CurrencyId]
  {s s₁ s' : DexStable AccountId CurrencyId Tokens} {poolId basePoolId i j x : ℕ}
  {who to' : AccountId} {amounts : List ℕ}

/-- An account that is not the account of a pool. -/
def Outside (CurrencyId : Type) [DexStableConfig AccountId CurrencyId] (who : AccountId) : Prop :=
  ∀ id, who ≠ DexStableConfig.poolAccountId CurrencyId id

/-- A call for a trader. -/
structure Serves (s s' : DexStable AccountId CurrencyId Tokens) : Prop where
  frames : SameFrames s s'
  enriches : ∀ id, Enriches s s' id

section

omit [DecidableEq AccountId] [DexStableConfig AccountId CurrencyId]

private theorem Serves.trans (h : Serves s s₁) (h' : Serves s₁ s') : Serves s s' :=
  ⟨h.frames.trans h'.frames, fun id => (h.enriches id).trans h.frames (h'.enriches id)⟩

/-- Doing nothing serves the pools. -/
theorem Serves.refl (s : DexStable AccountId CurrencyId Tokens) : Serves s s := by
  refine ⟨.refl s, fun id pool pool' hp hp' c => ?_⟩
  cases hp.symm.trans hp'
  exact le_rfl

end

omit [DecidableEq AccountId] [DecidableEq CurrencyId]
  [WithdrawableCurrency Tokens AccountId CurrencyId] in
/-- Who is outside the pools is none of them. -/
theorem Built.outside (hs : Built s) (hwho : Outside CurrencyId who)
    {pool : StablePool AccountId CurrencyId} (hp : s.pools poolId = some pool) :
    who ≠ pool.info.account := by
  rw [hs.account poolId pool hp]
  exact hwho poolId

private theorem TradesAt.serves {pool : StablePool AccountId CurrencyId} {ins outs : CurrencyId → ℕ}
    {burned minted : ℕ} (h : TradesAt poolId pool who to' ins outs burned minted s s')
    (hs : Built s) (hwho : Outside CurrencyId who) (hp : s.pools poolId = some pool) :
    Serves s s' :=
  ⟨h.sameFrames hp, fun id => h.enriches hs hp (hs.outside hwho hp) (hwho id)⟩

/-! ## Calls of one pool -/

variable [LawfulWithdrawableCurrency Tokens]

/-- Adding liquidity serves the pools. -/
theorem innerAddLiquidity_serves {minMintAmount minted : ℕ} (hs : Built s)
    (hwho : Outside CurrencyId who)
    (h : (innerAddLiquidity who poolId amounts minMintAmount to').run s = .ok minted s') :
    Serves s s' := by
  obtain ⟨pool, -, -, hp, -⟩ := run_mutatePool h
  exact (innerAddLiquidity_trades hp (hs.outside hwho hp) h).serves hs hwho hp

omit [DecidableEq AccountId] [DecidableEq CurrencyId] [DexStableConfig AccountId CurrencyId]
  [LawfulWithdrawableCurrency Tokens] in
/-- A swap is with a pool. -/
theorem exists_pool_of_innerSwap {minAmount dy : ℕ}
    (h : (innerSwap who poolId i j x minAmount to').run s = .ok dy s') :
    ∃ pool, s.pools poolId = some pool := by
  obtain ⟨bp, -, -, hp, -⟩ | ⟨mp, -, -, hp, -⟩ := run_innerSwap h
  · exact ⟨_, hp⟩
  · exact ⟨_, hp⟩

/-- A swap serves the pools. -/
theorem innerSwap_serves {minAmount dy : ℕ} (hs : Built s) (hwho : Outside CurrencyId who)
    (h : (innerSwap who poolId i j x minAmount to').run s = .ok dy s') : Serves s s' := by
  obtain ⟨pool, hp⟩ := exists_pool_of_innerSwap h
  obtain ⟨-, c, d, -, -, htrades⟩ := innerSwap_trades hp (hs.outside hwho hp) h
  exact htrades.serves hs hwho hp

/-- Removing liquidity serves the pools. -/
theorem innerRemoveLiquidity_serves {lpAmount : ℕ} {minAmounts : List ℕ} {u : Unit}
    (hs : Built s) (hwho : Outside CurrencyId who)
    (h : (innerRemoveLiquidity poolId who lpAmount minAmounts to').run s = .ok u s') :
    Serves s s' := by
  obtain ⟨_, _, hcheck, h'⟩ := Call.run_bind_eq_ok.mp h
  obtain ⟨-, rfl⟩ := run_check_eq_ok.mp hcheck
  obtain ⟨pool, -, -, hp, -⟩ := run_mutatePool h'
  obtain ⟨outs, htrades⟩ := innerRemoveLiquidity_trades hp h
  exact htrades.serves hs hwho hp

/-- Removing one of the tokens serves the pools. -/
theorem innerRemoveLiquidityOneCurrency_serves {lpAmount minAmount paid : ℕ} (hs : Built s)
    (hwho : Outside CurrencyId who)
    (h : (innerRemoveLiquidityOneCurrency poolId who lpAmount i minAmount to').run s =
      .ok paid s') : Serves s s' := by
  obtain ⟨_, _, hcheck, h'⟩ := Call.run_bind_eq_ok.mp h
  obtain ⟨-, rfl⟩ := run_check_eq_ok.mp hcheck
  obtain ⟨pool, -, -, hp, -⟩ := run_mutatePool h'
  obtain ⟨-, d, -, htrades⟩ := innerRemoveLiquidityOneCurrency_trades hp h
  exact htrades.serves hs hwho hp

/-- Removing given amounts serves the pools. -/
theorem innerRemoveLiquidityImbalance_serves {maxBurnAmount : ℕ} {u : Unit} (hs : Built s)
    (hwho : Outside CurrencyId who)
    (h : (innerRemoveLiquidityImbalance who poolId amounts maxBurnAmount to').run s = .ok u s') :
    Serves s s' := by
  obtain ⟨pool, -, -, hp, -⟩ := run_mutatePool h
  obtain ⟨burned, htrades⟩ := innerRemoveLiquidityImbalance_trades hp h
  exact htrades.serves hs hwho hp

/-! ## Calls of a meta pool and its base pool -/

section

omit [DecidableEq AccountId] [DecidableEq CurrencyId]
  [WithdrawableCurrency Tokens AccountId CurrencyId] [DexStableConfig AccountId CurrencyId]
  [LawfulWithdrawableCurrency Tokens]

/-- A pool is found by its id. -/
theorem run_findPool_eq_ok {e : StableError} {pool : StablePool AccountId CurrencyId} :
    (findPool poolId e : StableCall AccountId CurrencyId Tokens _).run s = .ok pool s' ↔
      s.pools poolId = some pool ∧ s = s' := by
  simp only [findPool, Call.run_bind_eq_ok, Call.run_get_eq_ok, Call.run_ofOption_eq_ok]
  constructor
  · rintro ⟨_, _, ⟨rfl, rfl⟩, hp, rfl⟩
    exact ⟨hp, rfl⟩
  · rintro ⟨hp, rfl⟩
    exact ⟨s, s, ⟨rfl, rfl⟩, hp, rfl⟩

/-- A meta pool is checked for its base pool. -/
theorem run_checkMetaPool_eq_ok {pool : StablePool AccountId CurrencyId} {u : Unit} :
    (checkMetaPool pool basePoolId : StableCall AccountId CurrencyId Tokens Unit).run s =
      .ok u s' ↔ (∃ mp, pool = .metaPool mp ∧ mp.basePoolId = basePoolId) ∧ s = s' := by
  cases pool with
  | base bp =>
    simp only [checkMetaPool, Call.run_throw_eq_ok, reduceCtorEq, false_and, exists_false]
  | metaPool mp =>
    simp only [checkMetaPool, run_check_eq_ok, StablePool.metaPool.injEq, exists_eq_left']

end

/-- Adding liquidity to two pools serves them. -/
theorem innerAddPoolAndBasePoolLiquidity_serves {metaAmounts baseAmounts : List ℕ}
    {minToMint : ℕ} {u : Unit} (hs : Built s) (hwho : Outside CurrencyId who)
    (h : (innerAddPoolAndBasePoolLiquidity who poolId basePoolId metaAmounts baseAmounts minToMint
      to').run s = .ok u s') : Serves s s' := by
  simp only [innerAddPoolAndBasePoolLiquidity, Call.run_bind_eq_ok, run_findPool_eq_ok,
    run_checkMetaPool_eq_ok, run_check_eq_ok, run_arithmetic_eq_ok, Call.run_get_eq_ok,
    Call.run_pure_eq_ok, Call.run_ite_eq_ok] at h
  obtain ⟨base, _, ⟨hb, rfl⟩, pool, _, ⟨hp, rfl⟩, _, _, ⟨-, rfl⟩, _, _, ⟨-, rfl⟩,
    ⟨-, lp, s₁, hfirst, _, _, ⟨rfl, rfl⟩, _, _, ⟨-, rfl⟩, _, _, hsecond, hend⟩ |
    ⟨-, _, _, ⟨rfl, rfl⟩, _, _, ⟨rfl, rfl⟩, _, _, ⟨-, rfl⟩, _, _, hsecond, hend⟩⟩ := h
  · have h₁ := innerAddLiquidity_serves hs hwho hfirst
    have h₂ := innerAddLiquidity_serves (hs.of_frames h₁.frames) hwho hsecond
    obtain ⟨-, _, _, ⟨rfl, rfl⟩, _, _, ⟨-, rfl⟩, -, rfl⟩ | ⟨-, -, rfl⟩ := hend
    · exact h₁.trans h₂
    · exact h₁.trans h₂
  · have h₂ := innerAddLiquidity_serves hs hwho hsecond
    obtain ⟨-, _, _, ⟨rfl, rfl⟩, _, _, ⟨-, rfl⟩, -, rfl⟩ | ⟨-, -, rfl⟩ := hend
    · exact h₂
    · exact h₂

/-- Removing liquidity from two pools serves them. -/
theorem innerRemovePoolAndBasePoolLiquidity_serves {amount : ℕ}
    {minAmountsMeta minAmountsBase : List ℕ} {u : Unit} (hs : Built s)
    (hwho : Outside CurrencyId who)
    (h : (innerRemovePoolAndBasePoolLiquidity who poolId basePoolId amount minAmountsMeta
      minAmountsBase to').run s = .ok u s') : Serves s s' := by
  simp only [innerRemovePoolAndBasePoolLiquidity, Call.run_bind_eq_ok, run_findPool_eq_ok,
    run_arithmetic_eq_ok, Call.run_get_eq_ok] at h
  obtain ⟨base, _, ⟨-, rfl⟩, _, _, ⟨rfl, rfl⟩, _, s₁, hfirst, _, _, ⟨rfl, rfl⟩, _, _, ⟨-, rfl⟩,
    hsecond⟩ := h
  have h₁ := innerRemoveLiquidity_serves hs hwho hfirst
  exact h₁.trans (innerRemoveLiquidity_serves (hs.of_frames h₁.frames) hwho hsecond)

/-- Removing one of the tokens of two pools serves them. -/
theorem innerRemovePoolAndBasePoolLiquidityOneCurrency_serves {amount minAmount : ℕ} {u : Unit}
    (hs : Built s) (hwho : Outside CurrencyId who)
    (h : (innerRemovePoolAndBasePoolLiquidityOneCurrency who poolId basePoolId amount i minAmount
      to').run s = .ok u s') : Serves s s' := by
  simp only [innerRemovePoolAndBasePoolLiquidityOneCurrency, Call.run_bind_eq_ok,
    run_findPool_eq_ok, run_checkMetaPool_eq_ok, Call.run_ofOption_eq_ok, run_arithmetic_eq_ok,
    Call.run_get_eq_ok, Call.run_pure_eq_ok] at h
  obtain ⟨base, _, ⟨-, rfl⟩, pool, _, ⟨-, rfl⟩, _, _, ⟨-, rfl⟩, _, _, ⟨-, rfl⟩, _, _, ⟨rfl, rfl⟩, _,
    s₁, hfirst, _, _, ⟨rfl, rfl⟩, _, _, ⟨-, rfl⟩, _, _, hsecond, -, rfl⟩ := h
  have h₁ := innerRemoveLiquidityOneCurrency_serves hs hwho hfirst
  exact h₁.trans (innerRemoveLiquidityOneCurrency_serves (hs.of_frames h₁.frames) hwho hsecond)

/-- A swap out of the base pool serves the pools. -/
theorem innerSwapPoolFromBase_serves {minDy dy : ℕ} (hs : Built s) (hwho : Outside CurrencyId who)
    (h : (innerSwapPoolFromBase who poolId basePoolId i j x minDy to').run s = .ok dy s') :
    Serves s s' := by
  simp only [innerSwapPoolFromBase, Call.run_bind_eq_ok, run_findPool_eq_ok,
    run_checkMetaPool_eq_ok, Call.run_ofOption_eq_ok, run_arithmetic_eq_ok, Call.run_ite_eq_ok,
    Call.run_pure_eq_ok] at h
  obtain ⟨base, _, ⟨-, rfl⟩, pool, _, ⟨-, rfl⟩, _, _, ⟨-, rfl⟩, _, _, ⟨-, rfl⟩, _, _, ⟨-, rfl⟩, _,
    s₁, hfirst, ⟨-, hsecond⟩ | ⟨-, -, rfl⟩⟩ := h
  · have h₁ := innerAddLiquidity_serves hs hwho hfirst
    exact h₁.trans (innerSwap_serves (hs.of_frames h₁.frames) hwho hsecond)
  · exact innerAddLiquidity_serves hs hwho hfirst

/-- A swap into the base pool serves the pools. -/
theorem innerSwapPoolToBase_serves {minDy dy : ℕ} (hs : Built s) (hwho : Outside CurrencyId who)
    (h : (innerSwapPoolToBase who poolId basePoolId i j x minDy to').run s = .ok dy s') :
    Serves s s' := by
  simp only [innerSwapPoolToBase, Call.run_bind_eq_ok, Call.run_get_eq_ok,
    Call.run_ofOption_eq_ok, Call.run_ite_eq_ok, Call.run_pure_eq_ok] at h
  obtain ⟨_, _, ⟨rfl, rfl⟩, _, _, ⟨-, rfl⟩, _, _, ⟨-, rfl⟩, ⟨-, _, s₁, hfirst, hsecond⟩ |
    ⟨-, _, _, ⟨rfl, rfl⟩, hsecond⟩⟩ := h
  · have h₁ := innerSwap_serves hs hwho hfirst
    exact h₁.trans (innerRemoveLiquidityOneCurrency_serves (hs.of_frames h₁.frames) hwho hsecond)
  · exact innerRemoveLiquidityOneCurrency_serves hs hwho hsecond

/-! ## Swaps with the currencies of a base pool -/

section Underlying

variable {mp mp' : MetaPool AccountId CurrencyId} {base : StablePool AccountId CurrencyId}
  {s₂ : DexStable AccountId CurrencyId Tokens} {w : AccountId}

/-- What the account of a pool does with another pool. -/
structure Errand (poolId : ℕ) (s s' : DexStable AccountId CurrencyId Tokens) : Prop where
  frames : SameFrames s s'
  others : ∀ id, id ≠ poolId → Enriches s s' id
  own : s'.pools poolId = s.pools poolId

section

omit [DecidableEq AccountId] [DexStableConfig AccountId CurrencyId]
  [LawfulWithdrawableCurrency Tokens]

private theorem Errand.refl (s : DexStable AccountId CurrencyId Tokens) : Errand poolId s s := by
  refine ⟨.refl s, fun id _ pool pool' hp hp' c => ?_, rfl⟩
  cases hp.symm.trans hp'
  exact le_rfl

private theorem Errand.trans (h : Errand poolId s s₁) (h' : Errand poolId s₁ s') : Errand poolId s
    s' :=
  ⟨h.frames.trans h'.frames, fun id hne => (h.others id hne).trans h.frames (h'.others id hne),
    h'.own.trans h.own⟩

end

/-- A meta pool as it is stored, and its base pool. -/
structure Stands (s : DexStable AccountId CurrencyId Tokens) (poolId : ℕ)
    (mp : MetaPool AccountId CurrencyId) (base : StablePool AccountId CurrencyId) : Prop where
  built : Built s
  account : mp.info.account = DexStableConfig.poolAccountId CurrencyId poolId
  stored : s.pools mp.basePoolId = some base
  currencyIds : base.info.currencyIds = mp.baseCurrencies
  last : mp.info.currencyIds.getLast? = some base.info.lpCurrencyId
  ne : mp.basePoolId ≠ poolId

omit [DecidableEq AccountId] [LawfulWithdrawableCurrency Tokens] in
/-- An errand leaves a base pool that only differs in its balances and prices. -/
theorem Stands.after (h : Stands s poolId mp base) (he : Errand poolId s s') :
    ∃ base', Stands s' poolId mp base' ∧ base'.info.lpCurrencyId = base.info.lpCurrencyId := by
  obtain ⟨base', hbase', hframe⟩ := he.frames.pool h.stored
  simp only [StablePool.frame, PoolFrame.mk.injEq] at hframe
  obtain ⟨hcurrencies, hlp, -, -⟩ := hframe
  refine ⟨base', ⟨h.built.of_frames he.frames, h.account, hbase', hcurrencies.trans h.currencyIds,
    ?_, h.ne⟩, hlp⟩
  rw [hlp]
  exact h.last

omit [DecidableEq AccountId] [DecidableEq CurrencyId]
  [WithdrawableCurrency Tokens AccountId CurrencyId] [LawfulWithdrawableCurrency Tokens] in
/-- A meta pool and its base pool have two accounts. -/
theorem Stands.account_ne (h : Stands s poolId mp base) : mp.info.account ≠ base.info.account := by
  rw [h.account]
  exact h.built.account_ne h.stored h.ne

section

omit [LawfulWithdrawableCurrency Tokens]

private theorem TradesAt.errand {ins outs : CurrencyId → ℕ} {burned minted : ℕ}
    (h : TradesAt mp.basePoolId base mp.info.account to' ins outs burned minted s s')
    (hs : Stands s poolId mp base) : Errand poolId s s' := by
  refine ⟨h.sameFrames hs.stored, fun id hne => h.enriches hs.built hs.stored hs.account_ne ?_, ?_⟩
  · rw [hs.account]
    exact fun heq => hne (DexStableConfig.poolAccountId_injective heq).symm
  · obtain ⟨pool', t, -, rfl, -⟩ := h
    exact Function.update_of_ne hs.ne.symm _ _

/-- What a trade with the base pool does to the account of the meta pool, which is not paid. -/
theorem TradesAt.held_trader {ins outs : CurrencyId → ℕ} {burned minted : ℕ}
    (h : TradesAt mp.basePoolId base mp.info.account mp.info.account ins outs burned minted s s')
    (hs : Stands s poolId mp base) (c : CurrencyId) :
    held s'.tokens c mp.info.account = held s.tokens c mp.info.account - ins c + outs c -
      single base.info.lpCurrencyId burned c + single base.info.lpCurrencyId minted c := by
  have hmoved := congrFun (congrFun h.moved c) mp.info.account
  simp only [Pi.add_apply, Pi.sub_apply, parcel_self, parcel_of_ne hs.account_ne] at hmoved
  rw [← parcel_single, ← parcel_single, parcel_self, parcel_self] at hmoved
  omega

/-- Nobody else gets or pays anything in it. -/
theorem TradesAt.held_outside {ins outs : CurrencyId → ℕ} {burned minted : ℕ}
    (h : TradesAt mp.basePoolId base mp.info.account mp.info.account ins outs burned minted s s')
    (hs : Stands s poolId mp base) (hw : Outside CurrencyId w) (c : CurrencyId) :
    held s'.tokens c w = held s.tokens c w := by
  have hself : w ≠ mp.info.account := by
    rw [hs.account]
    exact hw poolId
  have hmoved := congrFun (congrFun h.moved c) w
  simp only [Pi.add_apply, Pi.sub_apply, parcel_of_ne hself,
    parcel_of_ne (hs.built.outside hw hs.stored), flow_of_ne hself] at hmoved
  omega

end

omit [DecidableEq AccountId] [DecidableEq CurrencyId] [LawfulWithdrawableCurrency Tokens]

  [WithdrawableCurrency Tokens AccountId CurrencyId] [DexStableConfig AccountId CurrencyId] in
/-- An index is one of the tokens of the meta pool, or one of its base pool. -/
theorem underlyingCurrency_cases {b metaIndex : ℕ} {c : CurrencyId}
    (h : underlyingCurrency mp b i = .ok (c, metaIndex)) :
    i < b ∧ metaIndex = i ∧ mp.info.currencyIds[i]? = some c ∨
      b ≤ i ∧ metaIndex = b ∧ mp.baseCurrencies[i - b]? = some c := by
  unfold underlyingCurrency at h
  split at h
  · simp only [except_bind_eq_ok, nth_eq_ok, Except.ok.injEq, Prod.mk.injEq] at h
    obtain ⟨_, hget, rfl, rfl⟩ := h
    exact .inl ⟨‹_›, rfl, hget⟩
  · simp only [except_bind_eq_ok, nth_eq_ok, Except.ok.injEq, Prod.mk.injEq] at h
    obtain ⟨_, hget, rfl, rfl⟩ := h
    exact .inr ⟨not_lt.mp ‹_›, rfl, hget⟩

omit [DecidableEq AccountId] [DecidableEq CurrencyId]
  [WithdrawableCurrency Tokens AccountId CurrencyId] [LawfulWithdrawableCurrency Tokens] in
private theorem Stands.last_index {b : ℕ} (h : Stands s poolId mp base)
    (hb : b + 1 = mp.info.currencyIds.length) :
    mp.info.currencyIds[b]? = some base.info.lpCurrencyId := by
  rw [← h.last, List.getLast?_eq_getElem?, ← hb, Nat.add_sub_cancel]

/-! ### What comes in -/

/-- An amount that came in, as it is or as liquidity of the base pool, stands at its index in the
meta pool. -/
theorem underlyingIn_errand {normalized : List ℕ} {price b metaFrom dx x' dx' : ℕ} {c : CurrencyId}
    (hs : Stands s poolId mp base) (hb : b + 1 = mp.info.currencyIds.length)
    (hc : underlyingCurrency mp b i = .ok (c, metaFrom))
    (h : (underlyingIn mp normalized price b i dx).run s = .ok (x', dx') s') :
    Errand poolId s s' ∧ (∀ w, Outside CurrencyId w → ∀ e, held s'.tokens e w = held s.tokens e w) ∧
      ∃ d, mp.info.currencyIds[metaFrom]? = some d ∧ ∀ e, held s'.tokens e mp.info.account =
        held s.tokens e mp.info.account - single c dx e + single d dx' e := by
  unfold underlyingIn at h
  obtain ⟨hi, rfl, hget⟩ | ⟨hi, rfl, hget⟩ := underlyingCurrency_cases hc
  · rw [if_pos hi] at h
    simp only [run_arithmetic_eq_ok, except_bind_eq_ok, Except.ok.injEq, Prod.mk.injEq] at h
    obtain ⟨⟨_, -, _, -, _, -, _, -, -, rfl⟩, rfl⟩ := h
    exact ⟨.refl s, fun _ _ _ => rfl, c, hget, fun e => (sub_add_cancel _ _).symm⟩
  · rw [if_neg (not_lt.mpr hi)] at h
    simp only [Call.run_bind_eq_ok, run_arithmetic_eq_ok, except_bind_eq_ok, setNth_eq_ok,
      Except.ok.injEq, Prod.mk.injEq] at h
    obtain ⟨_, _, ⟨⟨hlt, rfl⟩, rfl⟩, minted, s₁, hadd, ⟨_, -, _, -, _, -, -, rfl⟩, rfl⟩ := h
    have htrades := innerAddLiquidity_trades hs.stored hs.account_ne hadd
    rw [← hs.currencyIds] at hget
    rw [List.length_replicate] at hlt
    refine ⟨htrades.errand hs, fun w hw e => htrades.held_outside hs hw e,
      base.info.lpCurrencyId, hs.last_index hb, fun e => ?_⟩
    have hheld := htrades.held_trader hs e
    rw [totalOf_single hget hlt] at hheld
    simp only [Pi.zero_apply, single, ite_self] at hheld ⊢
    omega

/-! ### What goes out -/

omit [DecidableEq AccountId] [DexStableConfig AccountId CurrencyId] in
/-- The records of the meta pool for what goes out. -/
theorem underlyingOut_books {normalized balances : List ℕ}
    {now price b metaFrom metaTo x' dx' dy : ℕ} {c d : CurrencyId} (hne : metaFrom ≠ metaTo)
    (hc : mp.info.currencyIds[metaFrom]? = some c)
    (hd : mp.info.currencyIds[metaTo]? = some d)
    (h : underlyingOut now mp normalized price b j metaFrom metaTo x' dx' = .ok (dy, balances))
    (e : CurrencyId) :
    totalOf mp.info.currencyIds balances e + single d dy e ≤
      mp.info.recorded e + single c dx' e := by
  simp only [underlyingOut, except_bind_eq_ok, orNone_eq_ok, nth_eq_ok, checkedAdd_eq_some,
    checkedSub_eq_some, setNth_eq_ok, Except.ok.injEq, Prod.mk.injEq] at h
  obtain ⟨_, -, _, -, _, -, _, -, _, -, _, -, _, -, _, -, _, -, _, -, fee, -, balanceIn, hin, _,
    ⟨-, rfl⟩, _, ⟨-, rfl⟩, balanceOut, hout, _, ⟨hle, rfl⟩, _, ⟨-, rfl⟩, _, ⟨-, rfl⟩, rfl, rfl⟩ := h
  rw [← List.getElem?_set_ne hne] at hout
  exact totalOf_swap hc hd hin hout hle e

omit [DecidableEq AccountId] [DexStableConfig AccountId CurrencyId]
  [LawfulWithdrawableCurrency Tokens] in
/-- What was measured of a currency can be paid, where all of it is not more than was lost. -/
theorem measured_le {y : CurrencyId → ℕ} {d : CurrencyId}
    (hy : ∀ e, held s.tokens e w - y e ≤ held s'.tokens e w)
    (hle : freeBalance s d w ≤ freeBalance s' d w) (e : CurrencyId) :
    held s.tokens e w - y e ≤
      held s'.tokens e w - single d (freeBalance s' d w - freeBalance s d w) e := by
  unfold single
  split
  · subst e
    have hfree : held s.tokens d w = freeBalance s d w := rfl
    have hfree' : held s'.tokens d w = freeBalance s' d w := rfl
    omega
  · exact (hy e).trans_eq (sub_zero _).symm

omit [LawfulWithdrawableCurrency Tokens] in
/-- What the account of the meta pool loses in a trade with the base pool. -/
theorem TradesAt.held_trader_le {ins outs : CurrencyId → ℕ} {burned minted : ℕ}
    (h : TradesAt mp.basePoolId base mp.info.account to' ins outs burned minted s s')
    (hs : Stands s poolId mp base) (e : CurrencyId) :
    held s.tokens e mp.info.account - (ins + single base.info.lpCurrencyId burned) e ≤
      held s'.tokens e mp.info.account := by
  have hmoved := congrFun (congrFun h.moved e) mp.info.account
  simp only [Pi.add_apply, Pi.sub_apply, parcel_self, parcel_of_ne hs.account_ne] at hmoved
  rw [flow_single] at hmoved
  have hpaid : 0 ≤ parcel to' outs e mp.info.account := parcel_nonneg
  have hminted : 0 ≤ flow base.info.lpCurrencyId to' minted e mp.info.account := flow_nonneg
  rw [Pi.add_apply]
  omega

section

omit [DecidableEq AccountId] [DecidableEq CurrencyId]
  [WithdrawableCurrency Tokens AccountId CurrencyId] [LawfulWithdrawableCurrency Tokens]

private theorem Stands.of_info (h : Stands s poolId mp base) (hinfo : mp'.info = mp.info)
    (hid : mp'.basePoolId = mp.basePoolId) (hcurrencies : mp'.baseCurrencies = mp.baseCurrencies) :
    Stands s poolId mp' base := by
  refine ⟨h.built, ?_, ?_, ?_, ?_, ?_⟩
  · rw [hinfo]
    exact h.account
  · rw [hid]
    exact h.stored
  · rw [hcurrencies]
    exact h.currencyIds
  · rw [hinfo]
    exact h.last
  · rw [hid]
    exact h.ne

/-- Other balances change nothing of it. -/
theorem Stands.of_tokens (h : Stands s poolId mp base) (t : Tokens) :
    Stands { s with tokens := t } poolId mp base :=
  ⟨⟨h.built.account, h.built.lpCurrencies, h.built.below, h.built.base, h.built.distinct⟩,
    h.account, h.stored, h.currencyIds, h.last, h.ne⟩

end

omit [DecidableEq AccountId] [DecidableEq CurrencyId] [LawfulWithdrawableCurrency Tokens]

  [WithdrawableCurrency Tokens AccountId CurrencyId] [DexStableConfig AccountId CurrencyId] in
/-- An account holds `h₁`, then `h₂`, then `h₃`, while its records go from `r` to `r'`. -/
theorem spare_le {h₁ h₂ h₃ : ℤ} {taken put charged paid r r' : ℕ}
    (hbooks : r' + charged ≤ r + put) (hout : h₂ - charged ≤ h₃ - paid)
    (hin : h₂ = h₁ - taken + put) : h₁ - taken - r ≤ h₃ - paid - r' := by
  omega

/-- A swap takes an amount of one currency, trades with the base pool if it has to, and pays an
amount of another currency that the pool can spare. -/
theorem run_metaPoolSwapUnderlying_path {b minAmount dy : ℕ} (hs : Stands s poolId mp base)
    (hb : b + 1 = mp.info.currencyIds.length) (hne : who ≠ mp.info.account)
    (h : (metaPoolSwapUnderlying mp who to' x minAmount i j).run s = .ok (dy, mp') s') :
    (StablePool.metaPool mp').frame = (StablePool.metaPool mp).frame ∧ i ≠ j ∧
      ∃ c d metaFrom metaTo t₁ s₂ t₃, underlyingCurrency mp b i = .ok (c, metaFrom) ∧
        underlyingCurrency mp b j = .ok (d, metaTo) ∧
        held t₁ = held s.tokens + flow c mp.info.account x - flow c who x ∧
        totalIssuance t₁ = (totalIssuance s.tokens : CurrencyId → ℕ) ∧
        Errand poolId { s with tokens := t₁ } s₂ ∧
        (MultiCurrency.transfer d mp.info.account to' dy).run s₂.tokens = .ok () t₃ ∧
        s' = { s₂ with tokens := t₃ } ∧
        (∀ e, held t₁ e mp.info.account - single c x e - mp.info.recorded e ≤
          held s₂.tokens e mp.info.account - single d dy e - mp'.info.recorded e) ∧
        (i < b ∨ j < b → minAmount ≤ dy ∧
          ∀ w, Outside CurrencyId w → ∀ e, held s₂.tokens e w = held t₁ e w) ∧
        (b ≤ i → b ≤ j → ∃ out, minAmount ≤ out ∧
          (innerSwap mp.info.account mp.basePoolId (i - b) (j - b) x minAmount to').run
            { s with tokens := t₁ } = .ok out s₂ ∧
          (c ≠ d → to' ≠ mp.info.account → dy = 0) ∧
          ∀ w, Outside CurrencyId w → ∀ e,
            held s₂.tokens e w = held t₁ e w + flow d to' out e w) := by
  have hsub : checkedSub mp.info.currencyIds.length 1 = some b :=
    checkedSub_eq_some.mpr (by omega)
  simp only [metaPoolSwapUnderlying, Call.run_bind_eq_ok, run_check_eq_ok, run_arithmetic_eq_ok,
    Call.run_get_eq_ok, Call.run_pure_eq_ok, Call.run_ite_eq_ok, orNone_eq_ok, hsub,
    Option.some.injEq, run_liftTokens_eq_ok, checkedSub_eq_some] at h
  obtain ⟨_, _, ⟨rfl, rfl⟩, _, _, ⟨rfl, rfl⟩, ⟨price, updated⟩, _, ⟨hprice, rfl⟩, _, _, ⟨hij, rfl⟩,
    ⟨c, metaFrom⟩, _, ⟨hc, rfl⟩, ⟨d, metaTo⟩, _, ⟨hd, rfl⟩, dx, s₁, hin, h⟩ := h
  obtain ⟨hinfo, hid, hcurrencies⟩ := metaPoolUpdateVirtualPrice_info hprice
  have hs' := hs.of_info hinfo hid hcurrencies
  have hframe : (StablePool.metaPool updated).frame = (StablePool.metaPool mp).frame := by
    simp only [StablePool.frame, StablePool.info, StablePool.base?, hinfo, hid, hcurrencies]
  have hcurrency (k : ℕ) : underlyingCurrency updated b k = underlyingCurrency mp b k := by
    simp only [underlyingCurrency, hinfo, hcurrencies]
  rw [← hinfo] at hb hne
  rw [← hinfo, ← hid, ← hframe, ← hcurrency, ← hcurrency]
  obtain ⟨-, t, ht, hissuance⟩ := run_doTransferIn hne hin
  obtain ⟨rfl, t₁, rfl, hheld⟩ := held_doTransferIn hne hin
  obtain rfl : t₁ = t := congrArg DexStable.tokens ht
  have hstands : Stands { s with tokens := t₁ } poolId updated base := hs'.of_tokens t₁
  obtain ⟨hown, normalized, _, ⟨-, rfl⟩, ⟨x', dx'⟩, s₂, hunder, ⟨dy₀, balances⟩, _, ⟨hout, rfl⟩,
      h⟩ |
    ⟨hbase, _, _, ⟨rfl, rfl⟩, paid, s₂, hswap, _, _, ⟨rfl, rfl⟩, _, _, ⟨⟨hle, rfl⟩, rfl⟩, _, _,
      ⟨rfl, rfl⟩, _, _, ⟨t₃, hpay, rfl⟩, hresult, rfl⟩ := h
  · obtain ⟨herrand, houtside, cF, hcF, hheldIn⟩ := underlyingIn_errand hstands hb hc hunder
    obtain ⟨base', hstands', -⟩ := hstands.after herrand
    have hindex : metaFrom ≠ metaTo := by
      obtain ⟨hi, rfl, -⟩ | ⟨hi, rfl, -⟩ := underlyingCurrency_cases hc
      · obtain ⟨hj, rfl, -⟩ | ⟨hj, rfl, -⟩ := underlyingCurrency_cases hd
        · exact hij.1
        · exact hi.ne
      · obtain ⟨hj, rfl, -⟩ | ⟨hj, rfl, -⟩ := underlyingCurrency_cases hd
        · exact hj.ne'
        · omega
    obtain ⟨hj, _, _, ⟨rfl, rfl⟩, paid, s₃, hremove, _, _, ⟨rfl, rfl⟩, _, _, ⟨⟨hle, rfl⟩, rfl⟩, _,
      _, ⟨hmin, rfl⟩, _, _, ⟨rfl, rfl⟩, _, _, ⟨t₃, hpay, rfl⟩, hresult, rfl⟩ |
      ⟨hj, _, _, ⟨rfl, rfl⟩, _, _, ⟨hmin, rfl⟩, _, _, ⟨rfl, rfl⟩, _, _, ⟨t₃, hpay, rfl⟩, hresult,
        rfl⟩ := h
    · obtain ⟨rfl, rfl⟩ := Prod.mk.inj hresult
      obtain ⟨-, e, -, htrades⟩ := innerRemoveLiquidityOneCurrency_trades hstands'.stored hremove
      have hlast : updated.info.currencyIds[metaTo]? = some base'.info.lpCurrencyId := by
        obtain ⟨hlt, -⟩ | ⟨-, rfl, -⟩ := underlyingCurrency_cases hd
        · omega
        · exact hstands'.last_index hb
      refine ⟨rfl, hij.1, c, d, metaFrom, metaTo, t₁, s₃, t₃, hc, hd, hheld, hissuance,
        herrand.trans (htrades.errand hstands'), hpay, rfl, fun e => ?_, fun _ => ⟨hmin,
          fun w hw e => (htrades.held_outside hstands' hw e).trans (houtside w hw e)⟩,
        fun hi hj => absurd hown (by omega)⟩
      have hbooks := underlyingOut_books hindex hcF hlast hout e
      have hmeasured := measured_le (htrades.held_trader_le hstands') hle e
      have hcame : held s₂.tokens e updated.info.account =
          held t₁ e updated.info.account - single c dx e + single cF dx' e := hheldIn e
      rw [Pi.add_apply, Pi.zero_apply, zero_add] at hmeasured
      exact spare_le hbooks hmeasured hcame
    · obtain ⟨rfl, rfl⟩ := Prod.mk.inj hresult
      have hto : updated.info.currencyIds[metaTo]? = some d := by
        obtain ⟨-, rfl, hget⟩ | ⟨hge, -⟩ := underlyingCurrency_cases hd
        · exact hget
        · exact absurd hge hj
      refine ⟨rfl, hij.1, c, d, metaFrom, metaTo, t₁, s₂, t₃, hc, hd, hheld, hissuance, herrand,
        hpay, rfl, fun e => ?_, fun _ => ⟨hmin, houtside⟩, fun _ hge => absurd hge hj⟩
      have hbooks := underlyingOut_books hindex hcF hto hout e
      have hcame : held s₂.tokens e updated.info.account =
          held t₁ e updated.info.account - single c dx e + single cF dx' e := hheldIn e
      exact spare_le hbooks le_rfl hcame
  · obtain ⟨rfl, rfl⟩ := Prod.mk.inj hresult
    obtain ⟨hmin, cFrom, cTo, hcFrom, hcTo, htrades⟩ :=
      innerSwap_trades hstands.stored hstands.account_ne hswap
    rw [hstands.currencyIds] at hcFrom hcTo
    obtain rfl : cFrom = c := by
      obtain ⟨hlt, -⟩ | ⟨-, -, hget⟩ := underlyingCurrency_cases hc
      · exact absurd (.inl hlt) hbase
      · exact Option.some.inj (hcFrom.symm.trans hget)
    obtain rfl : cTo = d := by
      obtain ⟨hlt, -⟩ | ⟨-, -, hget⟩ := underlyingCurrency_cases hd
      · exact absurd (.inr hlt) hbase
      · exact Option.some.inj (hcTo.symm.trans hget)
    refine ⟨rfl, hij.1, cFrom, cTo, metaFrom, metaTo, t₁, s₂, t₃, hc, hd, hheld, hissuance,
      htrades.errand hstands, hpay, rfl, fun e => ?_, fun h => absurd h hbase,
      fun _ _ => ⟨paid, hmin, hswap, fun hne hto => ?_, fun w hw e => ?_⟩⟩
    · have hmeasured := measured_le (htrades.held_trader_le hstands) hle e
      have hnone : single base.info.lpCurrencyId 0 e = 0 := ite_self 0
      rw [Pi.add_apply, hnone, add_zero] at hmeasured
      exact Int.sub_le_sub_right hmeasured _
    · have hmoved := congrFun (congrFun htrades.moved cTo) updated.info.account
      have hother : single cFrom dx cTo = 0 := if_neg hne.symm
      simp only [Pi.add_apply, Pi.sub_apply, parcel_self, parcel_of_ne hstands.account_ne,
        parcel_of_ne hto.symm, flow_zero, Pi.zero_apply, hother, Nat.cast_zero] at hmoved
      refine Nat.sub_eq_zero_of_le (Int.ofNat_le.mp ?_)
      change held s₂.tokens cTo updated.info.account =
        held t₁ cTo updated.info.account + 0 - 0 + 0 - 0 - 0 + 0 at hmoved
      change held s₂.tokens cTo updated.info.account ≤ held t₁ cTo updated.info.account
      omega
    · have hself : w ≠ updated.info.account := by
        rw [hstands.account]
        exact hw poolId
      have hmoved := congrFun (congrFun htrades.moved e) w
      simp only [Pi.add_apply, Pi.sub_apply, parcel_single, flow_of_ne hself,
        flow_of_ne (hstands.built.outside hw hstands.stored), flow_zero, Pi.zero_apply] at hmoved
      change held s₂.tokens e w =
        held t₁ e w + 0 - 0 + flow cTo to' paid e w - 0 - 0 + 0 at hmoved
      omega

omit [LawfulWithdrawableCurrency Tokens] [DexStableConfig AccountId CurrencyId] in
/-- Only the payer of a transfer loses. -/
theorem held_le_of_flow {t t' : Tokens} {c : CurrencyId} {source dest : AccountId}
    (h : held t' = held t + flow c dest x - flow c source x) (hw : w ≠ source) (e : CurrencyId) :
    held t e w ≤ held t' e w := by
  rw [h, Pi.sub_apply, Pi.sub_apply, Pi.add_apply, Pi.add_apply, flow_of_ne hw, sub_zero]
  exact le_add_of_nonneg_right flow_nonneg

omit [DecidableEq AccountId] [DecidableEq CurrencyId]
  [WithdrawableCurrency Tokens AccountId CurrencyId] [LawfulWithdrawableCurrency Tokens] in
/-- A meta pool stands on a base pool. -/
theorem Built.stands (hs : Built s) (hp : s.pools poolId = some (.metaPool mp)) :
    ∃ base b, Stands s poolId mp base ∧ b + 1 = mp.info.currencyIds.length := by
  obtain ⟨hlt, base, hbase, hcurrencies, hlast⟩ :=
    hs.base poolId (.metaPool mp) mp.basePoolId mp.baseCurrencies hp rfl
  refine ⟨base, mp.info.currencyIds.length - 1,
    ⟨hs, hs.account poolId _ hp, hbase, hcurrencies, hlast, hlt.ne⟩, Nat.sub_add_cancel ?_⟩
  rw [Nat.one_le_iff_ne_zero, Ne, List.length_eq_zero_iff]
  intro hnil
  change mp.info.currencyIds.getLast? = _ at hlast
  rw [hnil] at hlast
  cases hlast

omit [DecidableEq AccountId] [DecidableEq CurrencyId] [DexStableConfig AccountId CurrencyId]
  [LawfulWithdrawableCurrency Tokens] in
/-- An underlying swap is with a meta pool. -/
theorem run_swapMetaPoolUnderlying_eq_ok {minAmount dy : ℕ}
    (h : (swapMetaPoolUnderlying who poolId i j x minAmount to').run s = .ok dy s') :
    ∃ mp mp' s₁, s.pools poolId = some (.metaPool mp) ∧
      (metaPoolSwapUnderlying mp who to' x minAmount i j).run s = .ok (dy, mp') s₁ ∧
      s' = { s₁ with pools := Function.update s₁.pools poolId (some (.metaPool mp')) } := by
  obtain ⟨pool, pool', s₁, hp, hrun, rfl⟩ := run_mutatePool h
  cases pool with
  | base bp => exact (Call.run_throw_eq_ok.mp hrun).elim
  | metaPool mp =>
    simp only [Call.run_bind_eq_ok, Call.run_pure_eq_ok, Prod.mk.injEq] at hrun
    obtain ⟨⟨_, mp'⟩, _, hrun, ⟨rfl, rfl⟩, rfl⟩ := hrun
    exact ⟨mp, mp', _, hp, hrun, rfl⟩

/-- An underlying swap serves the pools. -/
theorem swapMetaPoolUnderlying_serves {minAmount dy : ℕ} (hs : Built s)
    (hwho : Outside CurrencyId who)
    (h : (swapMetaPoolUnderlying who poolId i j x minAmount to').run s = .ok dy s') :
    Serves s s' := by
  obtain ⟨mp, mp', _, hp, hrun, rfl⟩ := run_swapMetaPoolUnderlying_eq_ok h
  obtain ⟨base, b, hstands, hb⟩ := hs.stands hp
  have hne : who ≠ mp.info.account := hs.outside hwho hp
  obtain ⟨hframe, -, c, d, -, -, t₁, s₂, t₃, -, -, hin, -, herrand, hpay, rfl, hown, -, -⟩ :=
    run_metaPoolSwapUnderlying_path hstands hb hne hrun
  have hout := (held_transfer hpay).1
  have hp₂ : s₂.pools poolId = some (.metaPool mp) := herrand.own.trans hp
  have hframes : SameFrames s s₂ :=
    ⟨herrand.frames.pools, herrand.frames.lpCurrencies, herrand.frames.nextPoolId⟩
  refine ⟨⟨fun id => ?_, hframes.lpCurrencies, hframes.nextPoolId⟩,
    fun id pool pool' hpool hpool' e => ?_⟩
  · change (Function.update s₂.pools poolId _ id).map _ = _
    rcases eq_or_ne id poolId with rfl | hid
    · rw [Function.update_self, hp, Option.map_some, Option.map_some, hframe]
    · rw [Function.update_of_ne hid]
      exact hframes.pools id
  · change Function.update s₂.pools poolId _ id = _ at hpool'
    change surplus s.tokens pool e ≤ surplus t₃ pool' e
    rcases eq_or_ne id poolId with rfl | hid
    · rw [Function.update_self] at hpool'
      cases hpool'
      cases hp.symm.trans hpool
      have hcame : held t₁ e mp.info.account = held s.tokens e mp.info.account + single c x e := by
        rw [hin, Pi.sub_apply, Pi.sub_apply, Pi.add_apply, Pi.add_apply, flow_single,
          flow_of_ne hne.symm, sub_zero]
      have hwent : held s₂.tokens e mp.info.account - single d dy e ≤
          held t₃ e mp.info.account := by
        rw [hout, Pi.sub_apply, Pi.sub_apply, Pi.add_apply, Pi.add_apply, flow_single]
        exact Int.sub_le_sub_right (le_add_of_nonneg_right flow_nonneg) _
      have haccount : mp'.info.account = mp.info.account := congrArg PoolFrame.account hframe
      have hspare := hown e
      change held s.tokens e mp.info.account - mp.info.recorded e ≤
        held t₃ e mp'.info.account - mp'.info.recorded e
      rw [haccount]
      omega
    · rw [Function.update_of_ne hid] at hpool'
      have hother : pool.info.account ≠ mp.info.account := by
        rw [hs.account id pool hpool]
        exact hs.account_ne hp hid.symm
      obtain ⟨pool₂, hpool₂, hsame⟩ := hframes.pool hpool
      cases hpool₂.symm.trans hpool'
      have haccount : pool'.info.account = pool.info.account := congrArg PoolFrame.account hsame
      have hfirst := held_le_of_flow hin (hs.outside hwho hpool).symm e
      have hlast := held_le_of_flow hout (haccount.trans_ne hother) e
      have henriched := herrand.others id hid pool pool' hpool hpool' e
      change held t₁ e pool.info.account - _ ≤ held s₂.tokens e pool'.info.account - _ at henriched
      change held s.tokens e pool.info.account - _ ≤ held t₃ e pool'.info.account - _
      omega

end Underlying

end Interbtc.DexStable
