import Interbtc.Core.Triple
import Interbtc.DexStable.Dispatch

/-!
# The layout of the stored pools

How many currencies a pool has, and whose liquidity a meta pool holds, does not change once the
pool is stored. This is all that the indices of the calls depend on. The ramp of the coefficient
changes only by the two calls that are made for this.
-/

namespace Interbtc

open Core MultiCurrency WithdrawableCurrency

variable {AccountId CurrencyId Tokens α β : Type}

namespace DexStable

/-- The seconds of a time that is kept in milliseconds with 64 bits. -/
def maxSeconds : ℕ := (2 ^ 64 - 1) / 1000

/-- How the coefficient of a pool moves from one value to another. -/
structure Ramp where
  initialA : ℕ
  futureA : ℕ
  initialATime : ℕ
  futureATime : ℕ
  deriving DecidableEq

/-- How many currencies a pool has, the pool whose liquidity is the last of them, and the ramp of
the coefficient. -/
structure PoolLayout where
  size : ℕ
  base : Option ℕ
  ramp : Ramp

/-- The layout of each stored pool, and the time. -/
structure Layout where
  pools : ℕ → Option PoolLayout
  now : ℕ

instance : CoeFun Layout fun _ => ℕ → Option PoolLayout := ⟨Layout.pools⟩

end DexStable

/-! ## Pools of a layout -/

/-- The ramp of the amplification of a pool. -/
def BasePool.ramp (pool : BasePool AccountId CurrencyId) : DexStable.Ramp where
  initialA := pool.initialA
  futureA := pool.futureA
  initialATime := pool.initialATime
  futureATime := pool.futureATime

/-- A pool keeps a multiplier and a balance for each of its currencies. -/
structure BasePool.Fits (l : DexStable.PoolLayout) (pool : BasePool AccountId CurrencyId) :
    Prop where
  currencyIds : pool.currencyIds.length = l.size
  tokenMultipliers : pool.tokenMultipliers.length = l.size
  balances : pool.balances.length = l.size
  ramp : pool.ramp = l.ramp

section Fits

variable {Γ : DexStable.Layout} {l : DexStable.PoolLayout}

/-- A meta pool knows the currencies of its base pool, and a time at which it knew its price. -/
structure MetaPool.Fits (Γ : DexStable.Layout) (l : DexStable.PoolLayout)
    (pool : MetaPool AccountId CurrencyId) : Prop where
  info : pool.info.Fits l
  base : l.base = some pool.basePoolId
  baseCurrencies : ∃ l', Γ pool.basePoolId = some l' ∧ pool.baseCurrencies.length = l'.size
  cache : pool.baseCacheLastUpdated ≤ DexStable.maxSeconds

/-- A pool has the numbers of tokens of its layout. -/
def StablePool.Fits (Γ : DexStable.Layout) (l : DexStable.PoolLayout) :
    StablePool AccountId CurrencyId → Prop
  | .base pool => pool.Fits l
  | .metaPool pool => pool.Fits Γ l

/-- Balances of as many tokens fit. -/
theorem BasePool.Fits.setBalances {pool : BasePool AccountId CurrencyId} (h : pool.Fits l)
    {balances : List ℕ} (hb : balances.length = l.size) :
    Fits l { pool with balances := balances } :=
  ⟨h.currencyIds, h.tokenMultipliers, hb, h.ramp⟩

/-- What a meta pool has in common with a base pool fits as such. -/
theorem MetaPool.Fits.setInfo {pool : MetaPool AccountId CurrencyId} (h : pool.Fits Γ l)
    {info : BasePool AccountId CurrencyId} (hi : info.Fits l) :
    Fits Γ l { pool with info := info } :=
  ⟨hi, h.base, h.baseCurrencies, h.cache⟩

/-- A pool that fits does so as a base pool. -/
theorem StablePool.Fits.info_fits {pool : StablePool AccountId CurrencyId} (h : pool.Fits Γ l) :
    pool.info.Fits l := by
  cases pool with
  | base pool => exact h
  | metaPool pool => exact h.info

/-- A change of what pools have in common keeps a pool fitting. -/
theorem StablePool.Fits.mapInfo {pool : StablePool AccountId CurrencyId} (h : pool.Fits Γ l)
    {f : BasePool AccountId CurrencyId → BasePool AccountId CurrencyId}
    (hf : (f pool.info).Fits l) : (pool.mapInfo f).Fits Γ l := by
  cases pool with
  | base pool => exact hf
  | metaPool pool => exact h.setInfo hf

end Fits

/-- The stored pools have a layout, in which a base pool is older than its meta pool. -/
structure DexStable.Layout.Fits (Γ : DexStable.Layout)
    (s : DexStable AccountId CurrencyId Tokens) : Prop where
  now : s.now = Γ.now
  now_le : Γ.now ≤ DexStable.maxSeconds
  pools : ∀ id, Option.Rel (fun pool l => pool.Fits Γ l) (s.pools id) (Γ id)
  older : ∀ id l b, Γ id = some l → l.base = some b → b < id
  below : ∀ id l, Γ id = some l → id < s.nextPoolId

namespace DexStable

section Layout

variable {Γ : Layout} {s : DexStable AccountId CurrencyId Tokens} {id : ℕ}
  {pool : StablePool AccountId CurrencyId}

/-- Every pool has a layout. -/
theorem Layout.Fits.layout_of_pool (h : Γ.Fits s) (hp : s.pools id = some pool) :
    ∃ l, Γ id = some l ∧ pool.Fits Γ l := by
  have := h.pools id
  rw [hp] at this
  cases hl : Γ id with
  | none =>
    rw [hl] at this
    cases this
  | some l =>
    rw [hl] at this
    cases this with
    | some hf => exact ⟨l, rfl, hf⟩

/-- Every layout has a pool. -/
theorem Layout.Fits.pool_of_layout (h : Γ.Fits s) {l : PoolLayout} (hl : Γ id = some l) :
    ∃ pool, s.pools id = some pool ∧ pool.Fits Γ l := by
  have := h.pools id
  rw [hl] at this
  cases hp : s.pools id with
  | none =>
    rw [hp] at this
    cases this
  | some pool =>
    rw [hp] at this
    cases this with
    | some hf => exact ⟨pool, rfl, hf⟩

/-- The base pool of a meta pool of the layout. -/
theorem Layout.Fits.base_pool (h : Γ.Fits s) {l : PoolLayout} {pool : MetaPool AccountId CurrencyId}
    (hf : pool.Fits Γ l) :
    ∃ l' base, Γ pool.basePoolId = some l' ∧ s.pools pool.basePoolId = some base ∧
      base.Fits Γ l' ∧ pool.baseCurrencies.length = l'.size := by
  obtain ⟨l', hl', hn⟩ := hf.baseCurrencies
  obtain ⟨base, hb, hfit⟩ := h.pool_of_layout hl'
  exact ⟨l', base, hl', hb, hfit, hn⟩

end Layout

/-! ## Computations that do not panic -/

/-- A computation does not panic, and its result has a property. -/
abbrev NoPanic (x : Computed α) (Q : α → Prop) : Prop := Yields (· ≠ Stop.panic) x Q

variable {Q : α → Prop} {R : β → Prop}

/-- A missing value is no panic. -/
theorem none_noPanic : NoPanic (.error .none : Computed α) Q :=
  Yields.error nofun

/-- A missing value is no panic. -/
theorem orNone_noPanic (o : Option α) : NoPanic (orNone o) fun a => o = some a :=
  Yields.okOr (fun _ h => nomatch h) fun _ h => h

/-- Whatever a value is, its absence is no panic. -/
theorem orNone_true {o : Option α} : NoPanic (orNone o) fun _ => True :=
  (orNone_noPanic o).mono fun _ _ => trivial

/-- A computation goes on with a value that is there. -/
theorem orNone_bind {o : Option α} {f : α → Computed β} (hf : ∀ a, NoPanic (f a) R) :
    NoPanic (orNone o >>= f) R :=
  Yields.bind (orNone_noPanic o) fun a _ => hf a

/-- An index in range does not panic. -/
theorem nth_noPanic {xs : List α} {i : ℕ} (h : i < xs.length) :
    NoPanic (nth xs i) fun _ => True := by
  rw [nth, List.getElem?_eq_getElem h]
  exact Yields.ok trivial

/-- A computation goes on with what is at an index in range. -/
theorem nth_bind {xs : List α} {i : ℕ} {f : α → Computed β} (h : i < xs.length)
    (hf : ∀ a, NoPanic (f a) R) : NoPanic (nth xs i >>= f) R :=
  Yields.bind (nth_noPanic h) fun a _ => hf a

/-- An index in range does not panic, and the length stays. -/
theorem setNth_noPanic {xs : List α} {i : ℕ} {x : α} (h : i < xs.length) :
    NoPanic (setNth xs i x) fun ys => ys.length = xs.length := by
  rw [setNth, if_pos h]
  exact Yields.ok List.length_set

/-- A call that needs the result of such a computation raises an error where there is none. -/
theorem NoPanic.fault {x : Computed α} {e : StableError} (hx : NoPanic x Q) :
    Yields (· ≠ StableFault.panic) (x.mapError (Stop.fault e)) Q := by
  refine hx.mapError fun stop h => ?_
  cases stop with
  | none => exact nofun
  | panic => exact (h rfl).elim

end DexStable

end Interbtc
