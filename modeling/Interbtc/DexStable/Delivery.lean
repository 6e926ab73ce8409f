import Interbtc.DexStable.Backing

/-!
# What swaps deliver

A swap takes its amount of one currency from the trader and pays what it reports of another
currency to the recipient. Apart from the pools, nobody else gets or pays anything. In two cases a
swap reports nothing although it pays.
-/

namespace Interbtc.DexStable

open Core DexStable MultiCurrency WithdrawableCurrency

variable {AccountId CurrencyId Tokens : Type} [DecidableEq AccountId] [DecidableEq CurrencyId]
  [WithdrawableCurrency Tokens AccountId CurrencyId] [DexStableConfig AccountId CurrencyId]
  {s s₁ s' : DexStable AccountId CurrencyId Tokens} {poolId basePoolId i j x minAmount dy : ℕ}
  {who to' : AccountId} {c d : CurrencyId}

/-- For every account that is not the account of a pool, `who` paid `x` of one currency and `to'`
got `y` of another one. -/
def Delivers (s s' : DexStable AccountId CurrencyId Tokens) (who : AccountId) (c : CurrencyId)
    (x : ℕ) (to' : AccountId) (d : CurrencyId) (y : ℕ) : Prop :=
  ∀ w, Outside CurrencyId w → ∀ e,
    held s'.tokens e w = held s.tokens e w - flow c who x e w + flow d to' y e w

/-- A delivery to the trader can be passed on. -/
theorem Delivers.trans {e : CurrencyId} {y z : ℕ} (h : Delivers s s₁ who c x who d y)
    (h' : Delivers s₁ s' who d y to' e z) : Delivers s s' who c x to' e z := by
  intro w hw k
  rw [h' w hw k, h w hw k]
  omega

/-- What is seen of a trade from outside of the pools. -/
theorem TradesAt.held_of_outside {pool : StablePool AccountId CurrencyId} {w : AccountId}
    {ins outs : CurrencyId → ℕ} {burned minted : ℕ}
    (h : TradesAt poolId pool who to' ins outs burned minted s s') (hs : Built s)
    (hpool : s.pools poolId = some pool) (hw : Outside CurrencyId w) (e : CurrencyId) :
    held s'.tokens e w = held s.tokens e w - parcel who ins e w + parcel to' outs e w -
      flow pool.info.lpCurrencyId who burned e w +
      flow pool.info.lpCurrencyId to' minted e w := by
  have hmoved := congrFun (congrFun h.moved e) w
  simp only [Pi.add_apply, Pi.sub_apply, parcel_of_ne (hs.outside hw hpool)] at hmoved
  omega

variable [LawfulWithdrawableCurrency Tokens]

/-! ## Parts of swaps -/

/-- A swap takes what it asks for and pays what it returns. -/
theorem innerSwap_delivers (hs : Built s) (hwho : Outside CurrencyId who)
    (h : (innerSwap who poolId i j x minAmount to').run s = .ok dy s') :
    ∃ pool c d, s.pools poolId = some pool ∧ pool.info.currencyIds[i]? = some c ∧
      pool.info.currencyIds[j]? = some d ∧ minAmount ≤ dy ∧ Delivers s s' who c x to' d dy := by
  obtain ⟨pool, hp⟩ := exists_pool_of_innerSwap h
  obtain ⟨hmin, c, d, hc, hd, htrades⟩ := innerSwap_trades hp (hs.outside hwho hp) h
  refine ⟨pool, c, d, hp, hc, hd, hmin, fun w hw e => ?_⟩
  rw [htrades.held_of_outside hs hp hw, parcel_single, parcel_single, flow_zero, flow_zero]
  exact (add_zero _).trans (sub_zero _)

/-- Liquidity for one amount. -/
theorem innerAddLiquidity_delivers {pool : StablePool AccountId CurrencyId} {minted n : ℕ}
    (hs : Built s) (hwho : Outside CurrencyId who) (hp : s.pools poolId = some pool)
    (hc : pool.info.currencyIds[i]? = some c) (hi : i < n)
    (h : (innerAddLiquidity who poolId ((List.replicate n 0).set i x) minAmount to').run s =
      .ok minted s') : Delivers s s' who c x to' pool.info.lpCurrencyId minted := by
  have htrades := innerAddLiquidity_trades hp (hs.outside hwho hp) h
  intro w hw e
  have hins : totalOf pool.info.currencyIds ((List.replicate n 0).set i x) = single c x :=
    funext fun _ => totalOf_single hc hi
  rw [htrades.held_of_outside hs hp hw, hins, parcel_single, parcel_zero, flow_zero]
  exact congrArg (· + _) ((sub_zero _).trans (add_zero _))

/-- One amount for liquidity. -/
theorem innerRemoveLiquidityOneCurrency_delivers {lpAmount : ℕ} (hs : Built s)
    (h : (innerRemoveLiquidityOneCurrency poolId who lpAmount i minAmount to').run s =
      .ok dy s') :
    0 < lpAmount ∧ ∃ pool d, s.pools poolId = some pool ∧ pool.info.currencyIds[i]? = some d ∧
      minAmount ≤ dy ∧ Delivers s s' who pool.info.lpCurrencyId lpAmount to' d dy := by
  obtain ⟨_, _, hcheck, h'⟩ := Call.run_bind_eq_ok.mp h
  obtain ⟨hpos, rfl⟩ := run_check_eq_ok.mp hcheck
  obtain ⟨pool, -, -, hp, -⟩ := run_mutatePool h'
  obtain ⟨hmin, d, hd, htrades⟩ := innerRemoveLiquidityOneCurrency_trades hp h
  refine ⟨Nat.pos_of_ne_zero hpos, pool, d, hp, hd, hmin, fun w hw e => ?_⟩
  rw [htrades.held_of_outside hs hp hw, parcel_single, parcel_zero, flow_zero, Pi.zero_apply,
    Pi.zero_apply]
  omega

/-! ## Where liquidity stands -/

/-- A token is at its index. -/
theorem lastIndexOf_eq_some {currencyIds : List CurrencyId}
    (h : lastIndexOf currencyIds c = some i) : currencyIds[i]? = some c := by
  have hfold : ∀ (l : List (CurrencyId × ℕ)) (found : Option ℕ),
      (∀ x ∈ l, currencyIds[x.2]? = some x.1) →
      (∀ k, found = some k → currencyIds[k]? = some c) →
      ∀ k, l.foldl (fun found x => if x.1 = c then some x.2 else found) found = some k →
        currencyIds[k]? = some c := by
    intro l
    induction l with
    | nil => exact fun found _ hfound => hfound
    | cons x l ih =>
      intro found hl hfound
      refine ih _ (fun y hy => hl y (List.mem_cons_of_mem x hy)) fun k hk => ?_
      change (if x.1 = c then some x.2 else found) = some k at hk
      split at hk
      · rename_i hx
        cases hk
        rw [← hx]
        exact hl x List.mem_cons_self
      · exact hfound k hk
  exact hfold _ none (fun x hx => List.mk_mem_zipIdx_iff_getElem?.mp hx) nofun i h

omit [DecidableEq AccountId] [WithdrawableCurrency Tokens AccountId CurrencyId]
  [DexStableConfig AccountId CurrencyId] [LawfulWithdrawableCurrency Tokens] in
/-- A token of a pool is at its index. -/
theorem getCurrencyIndex_eq_some (h : getCurrencyIndex s poolId c = some i) :
    ∃ pool, s.pools poolId = some pool ∧ pool.info.currencyIds[i]? = some c := by
  unfold getCurrencyIndex at h
  obtain ⟨pool, hp, hfind⟩ := Option.bind_eq_some_iff.mp h
  obtain ⟨hi, hget, -⟩ := List.findIdx?_eq_some_iff_getElem.mp hfind
  refine ⟨pool, hp, List.getElem?_eq_some_iff.mpr ⟨hi, ?_⟩⟩
  exact of_decide_eq_true hget

/-! ## Swaps -/

/-- The liquidity of the base pool goes on into the meta pool, unless it is what was asked for. -/
theorem innerSwapPoolFromBase_delivers (hs : Built s) (hwho : Outside CurrencyId who)
    (h : (innerSwapPoolFromBase who poolId basePoolId i j x minAmount to').run s = .ok dy s') :
    ∃ base pool lpIndex c, s.pools basePoolId = some base ∧ s.pools poolId = some pool ∧
      lastIndexOf pool.info.currencyIds base.info.lpCurrencyId = some lpIndex ∧
      base.info.currencyIds[i]? = some c ∧
      (lpIndex ≠ j → ∃ d, pool.info.currencyIds[j]? = some d ∧ minAmount ≤ dy ∧
        Delivers s s' who c x to' d dy) ∧
      (lpIndex = j → dy = 0 ∧
        ∃ minted, Delivers s s' who c x who base.info.lpCurrencyId minted) := by
  simp only [innerSwapPoolFromBase, Call.run_bind_eq_ok, run_findPool_eq_ok,
    run_checkMetaPool_eq_ok, Call.run_ofOption_eq_ok, run_arithmetic_eq_ok, setNth_eq_ok,
    Call.run_ite_eq_ok, Call.run_pure_eq_ok] at h
  obtain ⟨base, _, ⟨hb, rfl⟩, pool, _, ⟨hp, rfl⟩, _, _, ⟨-, rfl⟩, lpIndex, _, ⟨hlp, rfl⟩, _, _,
    ⟨⟨hi, rfl⟩, rfl⟩, minted, s₁, hadd, h⟩ := h
  rw [List.length_replicate] at hi
  obtain ⟨c, hc⟩ : ∃ c, base.info.currencyIds[i]? = some c := ⟨_, List.getElem?_eq_getElem hi⟩
  have hfirst := innerAddLiquidity_delivers hs hwho hb hc hi hadd
  refine ⟨base, pool, lpIndex, c, hb, hp, hlp, hc, fun hne => ?_, fun heq => ?_⟩
  · obtain ⟨-, hswap⟩ | ⟨heq, -⟩ := h
    · have hserved := innerAddLiquidity_serves hs hwho hadd
      obtain ⟨pool', e, d, hp', he, hd, hmin, hsecond⟩ :=
        innerSwap_delivers (hs.of_frames hserved.frames) hwho hswap
      obtain ⟨pool'', hp'', hframe⟩ := hserved.frames.pool hp
      cases hp''.symm.trans hp'
      have hcurrencies : pool'.info.currencyIds = pool.info.currencyIds :=
        congrArg PoolFrame.currencyIds hframe
      rw [hcurrencies] at he hd
      obtain rfl := Option.some.inj (he.symm.trans (lastIndexOf_eq_some hlp))
      exact ⟨d, hd, hmin, hfirst.trans hsecond⟩
    · exact absurd hne heq
  · obtain ⟨hne, -⟩ | ⟨-, rfl, rfl⟩ := h
    · exact absurd heq hne
    · exact ⟨rfl, minted, hfirst⟩

/-- The meta pool pays liquidity of the base pool, which pays for it. -/
theorem innerSwapPoolToBase_delivers (hs : Built s) (hwho : Outside CurrencyId who)
    (h : (innerSwapPoolToBase who poolId basePoolId i j x minAmount to').run s = .ok dy s') :
    ∃ base pool c d, s.pools basePoolId = some base ∧ s.pools poolId = some pool ∧
      pool.info.currencyIds[i]? = some c ∧ base.info.currencyIds[j]? = some d ∧
      minAmount ≤ dy ∧ Delivers s s' who c x to' d dy := by
  simp only [innerSwapPoolToBase, Call.run_bind_eq_ok, Call.run_get_eq_ok,
    Call.run_ofOption_eq_ok, Call.run_ite_eq_ok, Call.run_pure_eq_ok] at h
  obtain ⟨_, _, ⟨rfl, rfl⟩, lp, _, ⟨hlp, rfl⟩, lpIndex, _, ⟨hindex, rfl⟩,
    ⟨-, _, s₁, hswap, hremove⟩ | ⟨-, _, _, ⟨rfl, rfl⟩, hremove⟩⟩ := h
  · obtain ⟨pool, c, e, hp, hc, he, -, hfirst⟩ := innerSwap_delivers hs hwho hswap
    have hserved := innerSwap_serves hs hwho hswap
    obtain ⟨-, base', d, hb', hd, hmin, hsecond⟩ :=
      innerRemoveLiquidityOneCurrency_delivers (hs.of_frames hserved.frames) hremove
    obtain ⟨base, hb, hframe⟩ := hserved.frames.pool_before hb'
    simp only [StablePool.frame, PoolFrame.mk.injEq] at hframe
    obtain ⟨hcurrencies, hlpBase, -⟩ := hframe
    -- the currency that the meta pool paid is the liquidity that the base pool burned
    have hlp' : base.info.lpCurrencyId = lp := by
      rw [getLpCurrency, hb] at hlp
      exact Option.some.inj hlp
    obtain ⟨pool', hp', he'⟩ := getCurrencyIndex_eq_some hindex
    cases hp.symm.trans hp'
    obtain rfl := Option.some.inj (he'.symm.trans he)
    rw [hlpBase, hlp'] at hsecond
    rw [hcurrencies] at hd
    exact ⟨base, pool, c, d, hb, hp, hc, hd, hmin, hfirst.trans hsecond⟩
  · obtain ⟨hpos, -⟩ := innerRemoveLiquidityOneCurrency_delivers hs hremove
    exact absurd hpos (lt_irrefl 0)

/-- What is paid through a meta pool of the currencies of the two pools. Between two currencies of
the base pool it is what that pool pays. -/
theorem swapMetaPoolUnderlying_delivers (hs : Built s) (hwho : Outside CurrencyId who)
    (h : (swapMetaPoolUnderlying who poolId i j x minAmount to').run s = .ok dy s') :
    ∃ mp b c d metaFrom metaTo, s.pools poolId = some (.metaPool mp) ∧
      b + 1 = mp.info.currencyIds.length ∧
      underlyingCurrency mp b i = .ok (c, metaFrom) ∧ underlyingCurrency mp b j = .ok (d, metaTo) ∧
      (i < b ∨ j < b → minAmount ≤ dy ∧ Delivers s s' who c x to' d dy) ∧
      (b ≤ i → b ≤ j → (to' ≠ mp.info.account → dy = 0) ∧ ∃ (t : Tokens) (s₁ : _) (out : ℕ),
        totalIssuance t = (totalIssuance s.tokens : CurrencyId → ℕ) ∧
        (innerSwap mp.info.account mp.basePoolId (i - b) (j - b) x minAmount to').run
          { s with tokens := t } = .ok out s₁ ∧
        minAmount ≤ out ∧ Delivers s s' who c x to' d out) := by
  obtain ⟨mp, mp', _, hp, hrun, rfl⟩ := run_swapMetaPoolUnderlying_eq_ok h
  obtain ⟨base, b, hstands, hb⟩ := hs.stands hp
  obtain ⟨-, hij, c, d, metaFrom, metaTo, t₁, s₂, t₃, hc, hd, hin, hissuance, -, hpay, rfl, -, hown,
    hbase⟩ := run_metaPoolSwapUnderlying_path hstands hb (hs.outside hwho hp) hrun
  have hout := (held_transfer hpay).1
  have hself {w : AccountId} (hw : Outside CurrencyId w) : w ≠ mp.info.account :=
    hs.outside hw hp
  have htaken {w : AccountId} (hw : Outside CurrencyId w) (e : CurrencyId) :
      held t₁ e w = held s.tokens e w - flow c who x e w := by
    rw [hin, Pi.sub_apply, Pi.sub_apply, Pi.add_apply, Pi.add_apply, flow_of_ne (hself hw),
      add_zero]
  have hpaid {w : AccountId} (hw : Outside CurrencyId w) (e : CurrencyId) :
      held t₃ e w = held s₂.tokens e w + flow d to' dy e w := by
    rw [hout, Pi.sub_apply, Pi.sub_apply, Pi.add_apply, Pi.add_apply, flow_of_ne (hself hw),
      sub_zero]
  refine ⟨mp, b, c, d, metaFrom, metaTo, hp, hb, hc, hd, fun hi => ?_, fun hi hj => ?_⟩
  · obtain ⟨hmin, hsame⟩ := hown hi
    refine ⟨hmin, fun w hw e => ?_⟩
    change held t₃ e w = _
    rw [hpaid hw, hsame w hw, htaken hw]
  · obtain ⟨out, hmin, hswap, hnothing, hdirect⟩ := hbase hi hj
    have hne : c ≠ d := by
      rintro rfl
      obtain ⟨hlt, -⟩ | ⟨-, -, hgetFrom⟩ := underlyingCurrency_cases hc
      · omega
      obtain ⟨hlt, -⟩ | ⟨-, -, hgetTo⟩ := underlyingCurrency_cases hd
      · omega
      have hdistinct := hs.distinct mp.basePoolId base hstands.stored
      rw [hstands.currencyIds] at hdistinct
      obtain ⟨hltFrom, hfrom⟩ := List.getElem?_eq_some_iff.mp hgetFrom
      obtain ⟨hltTo, hto'⟩ := List.getElem?_eq_some_iff.mp hgetTo
      have hsame := (List.Nodup.getElem_inj_iff hdistinct).mp (hfrom.trans hto'.symm)
      omega
    -- nothing more goes to the recipient, or it is the account of the meta pool
    have hrest {w : AccountId} (hw : Outside CurrencyId w) (e : CurrencyId) :
        flow d to' dy e w = 0 := by
      rcases eq_or_ne to' mp.info.account with rfl | hto
      · exact flow_of_ne (hself hw)
      · rw [hnothing hne hto, flow_zero]
        rfl
    refine ⟨hnothing hne, t₁, s₂, out, hissuance, hswap, hmin, fun w hw e => ?_⟩
    change held t₃ e w = _
    rw [hpaid hw, hdirect w hw, htaken hw, hrest hw, add_zero]

/-- In every state that a run reaches, the four kinds of swaps deliver what they report, of the
currencies at the indices that they were asked for. They report nothing where the liquidity of
the base pool itself was asked for, and for two currencies of the base pool of a meta pool. -/
theorem swaps_deliver {tokens : Tokens} {now : ℕ}
    {steps : List (StableStep AccountId CurrencyId Tokens)} (poolId basePoolId i j x minAmount : ℕ)
    (hrun : Meets step Custodial (genesis tokens now) steps)
    (w : StableSurroundings AccountId CurrencyId Tokens)
    (hs : s = (run step (genesis tokens now) steps).within w) (hwho : Outside CurrencyId who) :
    ((innerSwap who poolId i j x minAmount to').run s = .ok dy s' →
      ∃ pool c d, s.pools poolId = some pool ∧ pool.info.currencyIds[i]? = some c ∧
        pool.info.currencyIds[j]? = some d ∧ minAmount ≤ dy ∧ Delivers s s' who c x to' d dy) ∧
    ((innerSwapPoolFromBase who poolId basePoolId i j x minAmount to').run s = .ok dy s' →
      ∃ base pool lpIndex c, s.pools basePoolId = some base ∧ s.pools poolId = some pool ∧
        lastIndexOf pool.info.currencyIds base.info.lpCurrencyId = some lpIndex ∧
        base.info.currencyIds[i]? = some c ∧
        (lpIndex ≠ j → ∃ d, pool.info.currencyIds[j]? = some d ∧ minAmount ≤ dy ∧
          Delivers s s' who c x to' d dy) ∧
        (lpIndex = j → dy = 0 ∧
          ∃ minted, Delivers s s' who c x who base.info.lpCurrencyId minted)) ∧
    ((innerSwapPoolToBase who poolId basePoolId i j x minAmount to').run s = .ok dy s' →
      ∃ base pool c d, s.pools basePoolId = some base ∧ s.pools poolId = some pool ∧
        pool.info.currencyIds[i]? = some c ∧ base.info.currencyIds[j]? = some d ∧
        minAmount ≤ dy ∧ Delivers s s' who c x to' d dy) ∧
    ((swapMetaPoolUnderlying who poolId i j x minAmount to').run s = .ok dy s' →
      ∃ mp b c d metaFrom metaTo, s.pools poolId = some (.metaPool mp) ∧
        b + 1 = mp.info.currencyIds.length ∧
        underlyingCurrency mp b i = .ok (c, metaFrom) ∧
        underlyingCurrency mp b j = .ok (d, metaTo) ∧
        (i < b ∨ j < b → minAmount ≤ dy ∧ Delivers s s' who c x to' d dy) ∧
        (b ≤ i → b ≤ j → Outside CurrencyId to' → dy = 0 ∧
          ∃ out, minAmount ≤ out ∧ Delivers s s' who c x to' d out)) := by
  have hbuilt : Built s := by
    rw [hs]
    exact (run_upheld hrun).1.within w
  refine ⟨innerSwap_delivers hbuilt hwho, innerSwapPoolFromBase_delivers hbuilt hwho,
    innerSwapPoolToBase_delivers hbuilt hwho, fun h => ?_⟩
  obtain ⟨mp, b, c, d, metaFrom, metaTo, hp, hb, hc, hd, hown, hbase⟩ :=
    swapMetaPoolUnderlying_delivers hbuilt hwho h
  refine ⟨mp, b, c, d, metaFrom, metaTo, hp, hb, hc, hd, hown, fun hi hj hto => ?_⟩
  obtain ⟨hnothing, _, _, out, -, -, hmin, hdelivers⟩ := hbase hi hj
  exact ⟨hnothing (hbuilt.outside hto hp), out, hmin, hdelivers⟩

namespace Sample

private theorem fourth_seconds : 1030 ≤ maxSeconds := by decide

/-- What surrounds the two pools after their run. -/
def aroundTwo : StableSurroundings ℕ ℕ (TokenLedger ℕ ℕ) where
  tokens := ledger after pooled
  now := 1030
  free_le := ledger_free_le after pooled
  now_le := fourth_seconds

/-- The two pools, ten seconds later. -/
def twoWithin : Exchange := (run DexStable.step start twoPools).within aroundTwo

/-- The meta pool, which holds nothing. -/
def emptyMeta : MetaPool ℕ ℕ where
  basePoolId := 0
  baseVirtualPrice := 10 ^ 18
  baseCacheLastUpdated := 1020
  baseCurrencies := [0, 1]
  info := { balancedBase with
    currencyIds := [2, 100]
    lpCurrencyId := 101
    balances := [0, 0]
    fee := 0
    account := 101 }

private theorem recipient_outside : Outside ℕ (5 : ℕ) := by
  intro id h
  change 5 = 100 + id at h
  omega

/-- The recipient gets at least five units of the second currency of the base pool for ten of the
first one, and the meta pool reports that it paid nothing. -/
theorem swaps_deliver_two_pools :
    ∃ s', (swapMetaPoolUnderlying 0 1 1 2 10 5 5).run twoWithin = .ok 0 s' ∧
      ∃ out, 5 ≤ out ∧ Delivers twoWithin s' 0 0 10 5 1 out := by
  have hmeets : Meets DexStable.step Custodial start twoPools := by
    refine ⟨⟨by decide +kernel, ?_, (by decide : [0, 1].Nodup)⟩, ⟨by decide +kernel, ?_, trivial⟩,
      ⟨by decide +kernel, ?_, (by decide : [2, 100].Nodup)⟩, trivial⟩
    · rintro who ⟨⟩
    · rintro who ⟨⟩
      exact trader_outside
    · rintro who ⟨⟩
  have hvalue : (swapMetaPoolUnderlying 0 1 1 2 10 5 5).value? twoWithin = some 0 := by
    decide +kernel
  obtain ⟨s', hrun⟩ := Call.exists_of_value? hvalue
  obtain ⟨mp, b, c, d, metaFrom, metaTo, hp, hb, hc, hd, -, hbase⟩ :=
    (swaps_deliver 1 0 1 2 10 5 hmeets aroundTwo rfl trader_outside).2.2.2 hrun
  have hpool : twoWithin.pools 1 = some (.metaPool emptyMeta) := by decide +kernel
  cases hpool.symm.trans hp
  cases hb
  cases hc
  cases hd
  obtain ⟨-, hdelivers⟩ := hbase (by decide) (by decide) recipient_outside
  exact ⟨s', hrun, hdelivers⟩

end Sample

end Interbtc.DexStable
