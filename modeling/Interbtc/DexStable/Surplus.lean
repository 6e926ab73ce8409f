import Interbtc.DexStable.Trades

/-!
# The surplus of stored pools

What the account of a pool holds beyond the records of the pool is for the receiver of its fees.
A call for a trader changes nothing else about the stored pools than balances and prices, and
makes no surplus smaller.
-/

namespace Interbtc

open Core DexStable MultiCurrency WithdrawableCurrency

variable {AccountId CurrencyId Tokens α : Type}

namespace DexStable

/-- What trades do not change about a pool. -/
structure PoolFrame (AccountId CurrencyId : Type) where
  currencyIds : List CurrencyId
  lpCurrencyId : CurrencyId
  account : AccountId
  /-- The base pool of a meta pool, and the currencies of the base pool. -/
  base : Option (ℕ × List CurrencyId)

end DexStable

/-- The base pool of a meta pool, and the currencies of the base pool. -/
def StablePool.base? : StablePool AccountId CurrencyId → Option (ℕ × List CurrencyId)
  | .base _ => none
  | .metaPool pool => some (pool.basePoolId, pool.baseCurrencies)

/-- What no trade changes of a pool. -/
def StablePool.frame (pool : StablePool AccountId CurrencyId) : PoolFrame AccountId CurrencyId where
  currencyIds := pool.info.currencyIds
  lpCurrencyId := pool.info.lpCurrencyId
  account := pool.info.account
  base := pool.base?

namespace DexStable

variable [DecidableEq AccountId] [DecidableEq CurrencyId]
  [WithdrawableCurrency Tokens AccountId CurrencyId]

/-- What a pool's account holds beyond the records. -/
def surplus (t : Tokens) (pool : StablePool AccountId CurrencyId) (c : CurrencyId) : ℤ :=
  held t c pool.info.account - pool.info.recorded c

/-! ## Stored pools -/

/-- The stored pools are the same, up to what trades change. -/
structure SameFrames (s s' : DexStable AccountId CurrencyId Tokens) : Prop where
  pools : ∀ id, (s'.pools id).map StablePool.frame = (s.pools id).map StablePool.frame
  lpCurrencies : s'.lpCurrencies = s.lpCurrencies
  nextPoolId : s'.nextPoolId = s.nextPoolId

/-- No surplus of a stored pool got smaller. -/
def Enriches (s s' : DexStable AccountId CurrencyId Tokens) (id : ℕ) : Prop :=
  ∀ pool pool', s.pools id = some pool → s'.pools id = some pool' →
    ∀ c, surplus s.tokens pool c ≤ surplus s'.tokens pool' c

section Relations

variable {s s₁ s' : DexStable AccountId CurrencyId Tokens} {id : ℕ} {who : AccountId}

section

omit [DecidableEq AccountId] [DecidableEq CurrencyId]
  [WithdrawableCurrency Tokens AccountId CurrencyId]

/-- Doing nothing keeps the frames. -/
theorem SameFrames.refl (s : DexStable AccountId CurrencyId Tokens) : SameFrames s s :=
  ⟨fun _ => rfl, rfl, rfl⟩

/-- What two calls keep they keep in sequence. -/
theorem SameFrames.trans (h : SameFrames s s₁) (h' : SameFrames s₁ s') : SameFrames s s' :=
  ⟨fun id => (h'.pools id).trans (h.pools id), h'.lpCurrencies.trans h.lpCurrencies,
    h'.nextPoolId.trans h.nextPoolId⟩

/-- A pool is still stored. -/
theorem SameFrames.pool {pool : StablePool AccountId CurrencyId} (h : SameFrames s s')
    (hp : s.pools id = some pool) :
    ∃ pool', s'.pools id = some pool' ∧ pool'.frame = pool.frame := by
  have hframe := h.pools id
  rw [hp, Option.map_some, Option.map_eq_some_iff] at hframe
  exact hframe

/-- A stored pool was stored before. -/
theorem SameFrames.pool_before {pool' : StablePool AccountId CurrencyId} (h : SameFrames s s')
    (hp : s'.pools id = some pool') :
    ∃ pool, s.pools id = some pool ∧ pool'.frame = pool.frame := by
  have hframe := h.pools id
  rw [hp, Option.map_some, eq_comm, Option.map_eq_some_iff] at hframe
  obtain ⟨pool, hpool, hsame⟩ := hframe
  exact ⟨pool, hpool, hsame.symm⟩

end

omit [DecidableEq AccountId] in
/-- Calls that enrich the pools do so in sequence. -/
theorem Enriches.trans (hf : SameFrames s s₁) (h : Enriches s s₁ id) (h' : Enriches s₁ s' id) :
    Enriches s s' id := by
  intro pool pool' hp hp' c
  obtain ⟨pool₁, hp₁, -⟩ := hf.pool hp
  exact (h pool pool₁ hp hp₁ c).trans (h' pool₁ pool' hp₁ hp' c)

end Relations

/-! ## Built pools -/

section Built

variable [DexStableConfig AccountId CurrencyId]

/-- How pools are stored: each has an account of its own, and a meta pool holds the liquidity of
an older pool as its last currency. -/
structure Built (s : DexStable AccountId CurrencyId Tokens) : Prop where
  account : ∀ id pool, s.pools id = some pool →
    pool.info.account = DexStableConfig.poolAccountId CurrencyId id
  lpCurrencies : ∀ c id, s.lpCurrencies c = some id →
    ∃ pool, s.pools id = some pool ∧ pool.info.lpCurrencyId = c
  below : ∀ id pool, s.pools id = some pool → id < s.nextPoolId
  base : ∀ id pool basePoolId baseCurrencies, s.pools id = some pool →
    pool.base? = some (basePoolId, baseCurrencies) → basePoolId < id ∧
      ∃ base, s.pools basePoolId = some base ∧ base.info.currencyIds = baseCurrencies ∧
        pool.info.currencyIds.getLast? = some base.info.lpCurrencyId
  distinct : ∀ id pool, s.pools id = some pool → pool.info.currencyIds.Nodup

variable {s s' : DexStable AccountId CurrencyId Tokens} {id id' : ℕ}
  {pool pool' : StablePool AccountId CurrencyId}

section

omit [DecidableEq AccountId] [DecidableEq CurrencyId]
  [WithdrawableCurrency Tokens AccountId CurrencyId]

/-- How pools are built depends on their frames only. -/
theorem Built.of_frames (hs : Built s) (h : SameFrames s s') : Built s' := by
  have hframe {pool pool' : StablePool AccountId CurrencyId} (hp : pool'.frame = pool.frame) :
      pool'.info.currencyIds = pool.info.currencyIds ∧
        pool'.info.lpCurrencyId = pool.info.lpCurrencyId ∧
        pool'.info.account = pool.info.account ∧ pool'.base? = pool.base? := by
    simpa only [StablePool.frame, PoolFrame.mk.injEq] using hp
  refine ⟨fun id pool' hp' => ?_, fun c id hc => ?_, fun id pool' hp' => ?_,
    fun id pool' b cs hp' hb => ?_, fun id pool' hp' => ?_⟩
  · obtain ⟨pool, hp, hsame⟩ := h.pool_before hp'
    rw [(hframe hsame).2.2.1]
    exact hs.account id pool hp
  · rw [h.lpCurrencies] at hc
    obtain ⟨pool, hp, hlp⟩ := hs.lpCurrencies c id hc
    obtain ⟨pool', hp', hsame⟩ := h.pool hp
    exact ⟨pool', hp', (hframe hsame).2.1.trans hlp⟩
  · obtain ⟨pool, hp, -⟩ := h.pool_before hp'
    rw [h.nextPoolId]
    exact hs.below id pool hp
  · obtain ⟨pool, hp, hsame⟩ := h.pool_before hp'
    rw [(hframe hsame).2.2.2] at hb
    obtain ⟨hlt, base, hbase, hcurrencies, hlast⟩ := hs.base id pool b cs hp hb
    obtain ⟨base', hbase', hsame'⟩ := h.pool hbase
    refine ⟨hlt, base', hbase', (hframe hsame').1.trans hcurrencies, ?_⟩
    rw [(hframe hsame).1, (hframe hsame').2.1]
    exact hlast
  · obtain ⟨pool, hp, hsame⟩ := h.pool_before hp'
    rw [(hframe hsame).1]
    exact hs.distinct id pool hp

/-- Different pools have different accounts. -/
theorem Built.account_ne (hs : Built s) (hp : s.pools id = some pool) (hne : id ≠ id') :
    DexStableConfig.poolAccountId CurrencyId id' ≠ pool.info.account := by
  rw [hs.account id pool hp]
  exact fun h => hne (DexStableConfig.poolAccountId_injective h).symm

end

end Built

/-! ## Trades with stored pools -/

/-- A trade with a stored pool. -/
def TradesAt (poolId : ℕ) (pool : StablePool AccountId CurrencyId) (who to' : AccountId)
    (ins outs : CurrencyId → ℕ) (burned minted : ℕ)
    (s s' : DexStable AccountId CurrencyId Tokens) : Prop :=
  ∃ pool' t, pool'.frame = pool.frame ∧
    s' = { s with tokens := t, pools := Function.update s.pools poolId (some pool') } ∧
    Trades pool.info pool'.info who to' ins outs burned minted s.tokens t

section TradesAt

variable {s s' : DexStable AccountId CurrencyId Tokens} {poolId id : ℕ}
  {pool : StablePool AccountId CurrencyId} {who to' : AccountId} {ins outs : CurrencyId → ℕ}
  {burned minted : ℕ}

/-- A trade keeps the frames. -/
theorem TradesAt.sameFrames (h : TradesAt poolId pool who to' ins outs burned minted s s')
    (hpool : s.pools poolId = some pool) : SameFrames s s' := by
  obtain ⟨pool', t, hframe, rfl, -⟩ := h
  refine ⟨fun id => ?_, rfl, rfl⟩
  change (Function.update s.pools poolId (some pool') id).map _ = _
  rcases eq_or_ne id poolId with rfl | hne
  · rw [Function.update_self, hpool, Option.map_some, Option.map_some, hframe]
  · rw [Function.update_of_ne hne]

/-- What a trade does to the holdings of every account. -/
theorem TradesAt.moved (h : TradesAt poolId pool who to' ins outs burned minted s s') :
    held s'.tokens = held s.tokens + parcel pool.info.account ins - parcel who ins +
      parcel to' outs - parcel pool.info.account outs - flow pool.info.lpCurrencyId who burned +
      flow pool.info.lpCurrencyId to' minted := by
  obtain ⟨pool', t, -, rfl, htrades⟩ := h
  exact htrades.moved

/-- A trader that is not the account of a pool makes no surplus of that pool smaller. -/
theorem TradesAt.enriches [DexStableConfig AccountId CurrencyId]
    (h : TradesAt poolId pool who to' ins outs burned minted s s')
    (hs : Built s) (hpool : s.pools poolId = some pool) (hself : who ≠ pool.info.account)
    (hwho : who ≠ DexStableConfig.poolAccountId CurrencyId id) : Enriches s s' id := by
  obtain ⟨pool', t, -, rfl, htrades⟩ := h
  intro p p' hp hp' c
  change Function.update s.pools poolId (some pool') id = some p' at hp'
  rcases eq_or_ne id poolId with rfl | hne
  · rw [Function.update_self] at hp'
    cases hp'
    cases hpool.symm.trans hp
    exact htrades.surplus_le hself c
  · rw [Function.update_of_ne hne] at hp'
    cases hp.symm.trans hp'
    have haccount : p.info.account = DexStableConfig.poolAccountId CurrencyId id :=
      hs.account id p hp
    have hother : p.info.account ≠ pool.info.account := by
      rw [haccount]
      exact hs.account_ne hpool hne.symm
    have hle := htrades.held_le (haccount ▸ hwho.symm) hother c
    exact Int.sub_le_sub_right hle _

end TradesAt

/-! ## Calls of one stored pool -/

section Calls

variable [LawfulWithdrawableCurrency Tokens] {s s' : DexStable AccountId CurrencyId Tokens}
  {poolId i j x : ℕ} {pool : StablePool AccountId CurrencyId} {who to' : AccountId}
  {amounts : List ℕ}

omit [DecidableEq AccountId] [DecidableEq CurrencyId]
  [WithdrawableCurrency Tokens AccountId CurrencyId] [LawfulWithdrawableCurrency Tokens] in
private theorem run_mutatePool_of {a : α} {f : StablePool AccountId CurrencyId →
      StableCall AccountId CurrencyId Tokens (α × StablePool AccountId CurrencyId)}
    (hpool : s.pools poolId = some pool) (h : (mutatePool poolId f).run s = .ok a s') :
    ∃ pool' s₁, (f pool).run s = .ok (a, pool') s₁ ∧
      s' = { s₁ with pools := Function.update s₁.pools poolId (some pool') } := by
  obtain ⟨stored, pool', s₁, hstored, hrun, rfl⟩ := run_mutatePool h
  cases hpool.symm.trans hstored
  exact ⟨pool', s₁, hrun, rfl⟩

section

omit [LawfulWithdrawableCurrency Tokens]

private theorem Trades.base_frame {bp bp' : BasePool AccountId CurrencyId}
    {ins outs : CurrencyId → ℕ}
    {burned minted : ℕ} {t t' : Tokens} (h : Trades bp bp' who to' ins outs burned minted t t') :
    (StablePool.base bp').frame = (StablePool.base bp).frame := by
  simp only [StablePool.frame, StablePool.info, StablePool.base?, h.currencyIds, h.lpCurrencyId,
    h.account]

private theorem Trades.meta_frame {mp mp' : MetaPool AccountId CurrencyId}
    {ins outs : CurrencyId → ℕ}
    {burned minted : ℕ} {t t' : Tokens}
    (h : Trades mp.info mp'.info who to' ins outs burned minted t t')
    (hbase : mp'.basePoolId = mp.basePoolId ∧ mp'.baseCurrencies = mp.baseCurrencies) :
    (StablePool.metaPool mp').frame = (StablePool.metaPool mp).frame := by
  simp only [StablePool.frame, StablePool.info, StablePool.base?, h.currencyIds, h.lpCurrencyId,
    h.account, hbase.1, hbase.2]

end

/-- Adding liquidity is a trade with a pool. -/
theorem innerAddLiquidity_trades {minMintAmount minted : ℕ} (hpool : s.pools poolId = some pool)
    (hne : who ≠ pool.info.account)
    (h : (innerAddLiquidity who poolId amounts minMintAmount to').run s = .ok minted s') :
    TradesAt poolId pool who to' (totalOf pool.info.currencyIds amounts) 0 0 minted s s' := by
  obtain ⟨pool', s₁, hrun, rfl⟩ := run_mutatePool_of hpool h
  cases pool with
  | base bp =>
    simp only [Call.run_bind_eq_ok, Call.run_pure_eq_ok, Prod.mk.injEq] at hrun
    obtain ⟨⟨_, bp'⟩, _, hrun, ⟨rfl, rfl⟩, rfl⟩ := hrun
    obtain ⟨t, rfl, htrades⟩ := basePoolAddLiquidity_trades hne hrun
    exact ⟨_, t, htrades.base_frame, rfl, htrades⟩
  | metaPool mp =>
    simp only [Call.run_bind_eq_ok, Call.run_pure_eq_ok, Prod.mk.injEq] at hrun
    obtain ⟨⟨_, mp'⟩, _, hrun, ⟨rfl, rfl⟩, rfl⟩ := hrun
    obtain ⟨hbase, t, rfl, htrades⟩ := metaPoolAddLiquidity_trades hne hrun
    exact ⟨_, t, htrades.meta_frame hbase, rfl, htrades⟩

/-- A swap is a trade with a pool. -/
theorem innerSwap_trades {minAmount dy : ℕ} (hpool : s.pools poolId = some pool)
    (hne : who ≠ pool.info.account)
    (h : (innerSwap who poolId i j x minAmount to').run s = .ok dy s') :
    minAmount ≤ dy ∧ ∃ c d, pool.info.currencyIds[i]? = some c ∧
      pool.info.currencyIds[j]? = some d ∧
      TradesAt poolId pool who to' (single c x) (single d dy) 0 0 s s' := by
  simp only [innerSwap, Call.run_bind_eq_ok, run_check_eq_ok] at h
  obtain ⟨_, _, ⟨-, rfl⟩, h⟩ := h
  obtain ⟨pool', s₁, hrun, rfl⟩ := run_mutatePool_of hpool h
  cases pool with
  | base bp =>
    simp only [Call.run_bind_eq_ok, Call.run_pure_eq_ok, Prod.mk.injEq] at hrun
    obtain ⟨⟨_, bp'⟩, _, hrun, ⟨rfl, rfl⟩, rfl⟩ := hrun
    obtain ⟨hmin, c, d, t, hc, hd, rfl, htrades⟩ := basePoolSwap_trades hne hrun
    exact ⟨hmin, c, d, hc, hd, _, t, htrades.base_frame, rfl, htrades⟩
  | metaPool mp =>
    simp only [Call.run_bind_eq_ok, Call.run_pure_eq_ok, Prod.mk.injEq] at hrun
    obtain ⟨⟨_, mp'⟩, _, hrun, ⟨rfl, rfl⟩, rfl⟩ := hrun
    obtain ⟨hbase, hmin, c, d, t, hc, hd, rfl, htrades⟩ := metaPoolSwap_trades hne hrun
    exact ⟨hmin, c, d, hc, hd, _, t, htrades.meta_frame hbase, rfl, htrades⟩

/-- Removing one of the tokens is a trade with a pool. -/
theorem innerRemoveLiquidityOneCurrency_trades {lpAmount minAmount paid : ℕ}
    (hpool : s.pools poolId = some pool)
    (h : (innerRemoveLiquidityOneCurrency poolId who lpAmount i minAmount to').run s =
      .ok paid s') :
    minAmount ≤ paid ∧ ∃ d, pool.info.currencyIds[i]? = some d ∧
      TradesAt poolId pool who to' 0 (single d paid) lpAmount 0 s s' := by
  simp only [innerRemoveLiquidityOneCurrency, Call.run_bind_eq_ok, run_check_eq_ok] at h
  obtain ⟨_, _, ⟨-, rfl⟩, h⟩ := h
  obtain ⟨pool', s₁, hrun, rfl⟩ := run_mutatePool_of hpool h
  cases pool with
  | base bp =>
    simp only [Call.run_bind_eq_ok, Call.run_pure_eq_ok, Prod.mk.injEq] at hrun
    obtain ⟨⟨_, bp'⟩, _, hrun, ⟨rfl, rfl⟩, rfl⟩ := hrun
    obtain ⟨hmin, d, t, hd, rfl, htrades⟩ := basePoolRemoveLiquidityOneCurrency_trades hrun
    exact ⟨hmin, d, hd, _, t, htrades.base_frame, rfl, htrades⟩
  | metaPool mp =>
    simp only [Call.run_bind_eq_ok, Call.run_pure_eq_ok, Prod.mk.injEq] at hrun
    obtain ⟨⟨_, mp'⟩, _, hrun, ⟨rfl, rfl⟩, rfl⟩ := hrun
    obtain ⟨hbase, hmin, d, t, hd, rfl, htrades⟩ := metaPoolRemoveLiquidityOneCurrency_trades hrun
    exact ⟨hmin, d, hd, _, t, htrades.meta_frame hbase, rfl, htrades⟩

/-- Removing given amounts is a trade with a pool. -/
theorem innerRemoveLiquidityImbalance_trades {maxBurnAmount : ℕ} {u : Unit}
    (hpool : s.pools poolId = some pool)
    (h : (innerRemoveLiquidityImbalance who poolId amounts maxBurnAmount to').run s = .ok u s') :
    ∃ burned, TradesAt poolId pool who to' 0 (totalOf pool.info.currencyIds amounts) burned 0
      s s' := by
  obtain ⟨pool', s₁, hrun, rfl⟩ := run_mutatePool_of hpool h
  cases pool with
  | base bp =>
    simp only [Call.run_bind_eq_ok, Call.run_pure_eq_ok, Prod.mk.injEq] at hrun
    obtain ⟨bp', _, hrun, ⟨-, rfl⟩, rfl⟩ := hrun
    obtain ⟨burned, t, rfl, htrades⟩ := basePoolRemoveLiquidityImbalance_trades hrun
    exact ⟨burned, _, t, htrades.base_frame, rfl, htrades⟩
  | metaPool mp =>
    simp only [Call.run_bind_eq_ok, Call.run_pure_eq_ok, Prod.mk.injEq] at hrun
    obtain ⟨mp', _, hrun, ⟨-, rfl⟩, rfl⟩ := hrun
    obtain ⟨hbase, burned, t, rfl, htrades⟩ := metaPoolRemoveLiquidityImbalance_trades hrun
    exact ⟨burned, _, t, htrades.meta_frame hbase, rfl, htrades⟩

/-- Removing liquidity is a trade with a pool. -/
theorem innerRemoveLiquidity_trades {lpAmount : ℕ} {minAmounts : List ℕ} {u : Unit}
    (hpool : s.pools poolId = some pool)
    (h : (innerRemoveLiquidity poolId who lpAmount minAmounts to').run s = .ok u s') :
    ∃ outs, TradesAt poolId pool who to' 0 outs lpAmount 0 s s' := by
  simp only [innerRemoveLiquidity, Call.run_bind_eq_ok, run_check_eq_ok] at h
  obtain ⟨_, _, ⟨-, rfl⟩, h⟩ := h
  obtain ⟨pool', s₁, hrun, rfl⟩ := run_mutatePool_of hpool h
  simp only [Call.run_bind_eq_ok, run_check_eq_ok, run_arithmetic_eq_ok, Call.run_get_eq_ok,
    Call.run_pure_eq_ok, Prod.mk.injEq, run_liftTokens_eq_ok] at hrun
  obtain ⟨_, _, ⟨rfl, rfl⟩, _, _, ⟨-, rfl⟩, _, _, ⟨-, rfl⟩, _, _, ⟨-, rfl⟩, balances, _, hpay, _, _,
    ⟨t', hburn, rfl⟩, ⟨-, rfl⟩, rfl⟩ := hrun
  obtain ⟨outs, t, rfl, hheld, hbooks⟩ := run_payAmounts hpay
  refine ⟨outs, _, t', ?_, rfl, ?_⟩
  · cases pool with
    | base bp => rfl
    | metaPool mp => rfl
  · rw [StablePool.info_mapInfo]
    refine ⟨rfl, rfl, rfl, ?_, fun c => (hbooks c).le⟩
    rw [(held_withdraw hburn).1, hheld, parcel_zero, parcel_zero, flow_zero, add_zero, sub_zero,
      add_zero]

end Calls

end DexStable

end Interbtc
