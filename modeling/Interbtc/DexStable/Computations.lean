import Interbtc.DexStable.Layout

/-!
# Computations on pools do not panic

Each computation is read for the lists that it indexes. They are as long as the pool has
currencies, and so are the lists that it computes from them.
-/

namespace Interbtc.DexStable

open Core DexStable MultiCurrency WithdrawableCurrency

variable {AccountId CurrencyId Tokens : Type} {l : PoolLayout} {pool : BasePool AccountId CurrencyId}

/-- The indices of a list are in range. -/
theorem lt_length_of_mem_zipIdx {α : Type} {xs : List α} {x : α × ℕ} (h : x ∈ xs.zipIdx) :
    x.2 < xs.length := by
  have := List.snd_lt_add_of_mem_zipIdx h
  omega

private theorem length_of_mapM_eq_some {α β : Type} {f : α → Option β} {xs : List α} {ys : List β}
    (h : xs.mapM f = some ys) : ys.length = xs.length := by
  induction xs generalizing ys with
  | nil =>
    cases h
    rfl
  | cons x xs ih =>
    rw [List.mapM_cons] at h
    obtain ⟨y, -, h⟩ := Option.bind_eq_some_iff.mp h
    obtain ⟨zs, hzs, h⟩ := Option.bind_eq_some_iff.mp h
    cases h
    rw [List.length_cons, List.length_cons, ih hzs]

/-! ## Base pools -/

private theorem xp_noPanic {balances rates : List ℕ} (h : balances.length ≤ rates.length) :
    NoPanic (xp balances rates) fun ys => ys.length = balances.length := by
  induction balances generalizing rates with
  | nil => exact Yields.ok rfl
  | cons balance balances ih =>
    cases rates with
    | nil => exact absurd h (by simp)
    | cons rate rates =>
      refine orNone_bind fun _ => ?_
      refine Yields.bind (ih (Nat.le_of_succ_le_succ h)) fun rest hrest => Yields.ok ?_
      exact congrArg Nat.succ hrest

/-- Charging imbalances does not panic in range. -/
theorem chargeImbalances_noPanic {f a d₀ d₁ rounds m : ℕ} {balances newBalances : List ℕ}
    (hb : rounds ≤ balances.length) (hn : rounds ≤ newBalances.length) (hm : rounds ≤ m) :
    NoPanic (chargeImbalances f a d₀ d₁ rounds m balances newBalances) fun r =>
      r.1.length = balances.length ∧ r.2.1.length = newBalances.length := by
  refine (Yields.foldlM (S := fun r : List ℕ × List ℕ × List ℕ =>
    r.1.length = balances.length ∧ r.2.1.length = newBalances.length ∧ r.2.2.length = m)
    (fun i hi => ?_) ⟨rfl, rfl, List.length_replicate⟩).mono fun r h => ⟨h.1, h.2.1⟩
  rintro ⟨bs, ns, fs⟩ ⟨h₁, h₂, h₃⟩
  replace hi := List.mem_range.mp hi
  dsimp only at h₁ h₂ h₃
  refine nth_bind (by omega) fun old => nth_bind (by omega) fun new => ?_
  refine orNone_bind fun ⟨kept, left, fee⟩ => ?_
  refine Yields.bind (setNth_noPanic (by omega)) fun fees hf => ?_
  refine Yields.bind (setNth_noPanic (by omega)) fun bs' hb' => ?_
  refine Yields.bind (setNth_noPanic (by omega)) fun ns' hn' => ?_
  exact Yields.ok ⟨hb'.trans h₁, hn'.trans h₂, hf.trans h₃⟩

/-- The invariant of balances does not panic. -/
theorem balancesD_noPanic (h : pool.Fits l) {balances : List ℕ} (hb : balances.length = l.size)
    {amp : ℕ} : NoPanic (balancesD pool balances amp) fun _ => True := by
  refine Yields.bind (xp_noPanic ?_) fun _ _ => orNone_true
  rw [hb, h.tokenMultipliers]

/-- Scaling the balances does not panic. -/
theorem xp_balances_noPanic (h : pool.Fits l) :
    NoPanic (xp pool.balances pool.tokenMultipliers) fun ys => ys.length = l.size := by
  refine (xp_noPanic ?_).mono fun ys hys => hys.trans h.balances
  rw [h.balances, h.tokenMultipliers]

private theorem subtractAmounts_noPanic {balances amounts : List ℕ}
    (h : amounts.length ≤ balances.length) :
    NoPanic (subtractAmounts balances amounts) fun ys => ys.length = balances.length := by
  refine Yields.foldlM (fun x hx ys hys => ?_) rfl
  have hi := lt_length_of_mem_zipIdx hx
  refine nth_bind (by omega) fun _ => orNone_bind fun _ => ?_
  exact (setNth_noPanic (by omega)).mono fun zs hzs => hzs.trans hys

private theorem addAmounts_noPanic {balances amounts : List ℕ}
    (h : amounts.length ≤ balances.length) :
    NoPanic (addAmounts balances amounts) fun ys => ys.length = balances.length := by
  refine Yields.foldlM (fun x hx ys hys => ?_) rfl
  have hi := lt_length_of_mem_zipIdx hx
  refine nth_bind (by omega) fun _ => orNone_bind fun _ => ?_
  exact (setNth_noPanic (by omega)).mono fun zs hzs => hzs.trans hys

/-- The liquidity to mint does not panic. -/
theorem calculateBaseMintAmount_noPanic (h : pool.Fits l) {newBalances : List ℕ}
    (hn : newBalances.length = l.size) {d₀ d₁ fee amp totalSupply : ℕ} :
    NoPanic (calculateBaseMintAmount pool newBalances d₀ d₁ fee amp totalSupply) fun r =>
      r.2.2.Fits l := by
  have hc := h.currencyIds
  have hb := h.balances
  refine Yields.bind (chargeImbalances_noPanic (by omega) (by omega) (by omega)) ?_
  rintro ⟨balances, newBalances', fees⟩ ⟨h₁, h₂⟩
  refine Yields.bind (balancesD_noPanic h (h₂.trans hn)) fun _ _ => ?_
  refine orNone_bind fun _ => orNone_bind fun _ => ?_
  exact Yields.ok (h.setBalances (h₁.trans hb))

section Reads

variable [WithdrawableCurrency Tokens AccountId CurrencyId]
  (s : DexStable AccountId CurrencyId Tokens)

private theorem calculateBaseVirtualPrice_noPanic (h : pool.Fits l) :
    NoPanic (calculateBaseVirtualPrice s pool) fun _ => True := by
  refine Yields.bind (xp_balances_noPanic h) fun _ _ => ?_
  refine orNone_bind fun _ => orNone_bind fun _ => ?_
  exact Yields.ite (fun _ => orNone_true) fun _ => none_noPanic

omit [WithdrawableCurrency Tokens AccountId CurrencyId] in
/-- The liquidity to burn does not panic. -/
theorem calculateBaseRemoveLiquidityImbalance_noPanic (h : pool.Fits l) {amounts : List ℕ}
    (ha : amounts.length = l.size) {totalSupply : ℕ} :
    NoPanic (calculateBaseRemoveLiquidityImbalance s pool amounts totalSupply) fun r =>
      r.2.2.Fits l ∧ r.2.2.lpCurrencyId = pool.lpCurrencyId := by
  have hc := h.currencyIds
  have hb := h.balances
  refine orNone_bind fun _ => orNone_bind fun amp => ?_
  refine Yields.bind (balancesD_noPanic h hb) fun _ _ => ?_
  refine Yields.bind (subtractAmounts_noPanic (by omega)) fun newBalances hn => ?_
  refine Yields.bind (balancesD_noPanic h (by omega)) fun _ _ => ?_
  refine Yields.bind (chargeImbalances_noPanic (by omega) (by omega) (by omega)) ?_
  rintro ⟨balances, newBalances', fees⟩ ⟨h₁, h₂⟩
  dsimp only at h₁ h₂
  refine Yields.bind (balancesD_noPanic h (by omega)) fun _ _ => ?_
  refine orNone_bind fun _ => orNone_bind fun _ => ?_
  exact Yields.ok ⟨h.setBalances (h₁.trans hb), rfl⟩

/-- The payment in one token does not panic. -/
theorem calculateBaseRemoveLiquidityOneToken_noPanic (h : pool.Fits l)
    {tokenAmount index : ℕ} :
    NoPanic (calculateBaseRemoveLiquidityOneToken s pool tokenAmount index) fun _ => True := by
  have hc := h.currencyIds
  have hm := h.tokenMultipliers
  refine Yields.ite (fun _ => none_noPanic) fun hi => ?_
  refine orNone_bind fun _ => ?_
  refine Yields.bind (xp_balances_noPanic h) fun normalized hn => ?_
  iterate 5 refine orNone_bind fun _ => ?_
  refine Yields.bind (orNone_noPanic _) fun reduced hr => ?_
  have hlen := length_of_mapM_eq_some hr
  rw [List.length_zipIdx] at hlen
  refine nth_bind (by omega) fun _ => ?_
  iterate 3 refine orNone_bind fun _ => ?_
  refine nth_bind (by omega) fun _ => orNone_bind fun _ => nth_bind (by omega) fun _ => ?_
  iterate 3 refine orNone_bind fun _ => ?_
  exact Yields.ok trivial

omit [WithdrawableCurrency Tokens AccountId CurrencyId] in
/-- The payment of a swap does not panic. -/
theorem calculateBaseSwapAmount_noPanic (h : pool.Fits l) {i j inBalance : ℕ} :
    NoPanic (calculateBaseSwapAmount s pool i j inBalance) fun _ => True := by
  have hc := h.currencyIds
  have hm := h.tokenMultipliers
  refine Yields.ite (fun _ => none_noPanic) fun hij => ?_
  refine Yields.bind (xp_balances_noPanic h) fun normalized hn => ?_
  refine nth_bind (by omega) fun _ => nth_bind (by omega) fun _ => ?_
  iterate 3 refine orNone_bind fun _ => ?_
  refine nth_bind (by omega) fun _ => orNone_bind fun _ => orNone_bind fun _ => ?_
  refine nth_bind (by omega) fun _ => ?_
  iterate 3 refine orNone_bind fun _ => ?_
  exact orNone_true

/-- The payments of all tokens do not panic. -/
theorem calculateBaseRemoveLiquidity_noPanic (h : pool.Fits l) {amount : ℕ} :
    NoPanic (calculateBaseRemoveLiquidity s pool amount) fun amounts => amounts.length = l.size := by
  refine Yields.ite (fun _ => none_noPanic) fun _ => (orNone_noPanic _).mono fun amounts ha => ?_
  rw [length_of_mapM_eq_some ha, h.balances]

/-- The quote for amounts does not panic. -/
theorem calculateBaseCurrencyAmount_noPanic (h : pool.Fits l) {amounts : List ℕ}
    {deposit : Bool} :
    Yields (· ≠ StableFault.panic) (calculateBaseCurrencyAmount s pool amounts deposit)
      fun _ => True := by
  have hc := h.currencyIds
  have hb := h.balances
  refine Yields.ite (fun _ => Yields.error nofun) fun ha => NoPanic.fault ?_
  refine orNone_bind fun _ => ?_
  refine Yields.bind (balancesD_noPanic h hb) fun _ _ => ?_
  refine Yields.ite_bind (fun _ => addAmounts_noPanic (by omega))
    (fun _ => subtractAmounts_noPanic (by omega)) fun newBalances hn => ?_
  refine Yields.bind (balancesD_noPanic h (hn.trans hb)) fun _ _ => ?_
  refine Yields.ite (fun _ => Yields.ok trivial) fun _ => ?_
  exact orNone_bind fun _ => orNone_true

end Reads

/-! ## Meta pools -/

private theorem metaPoolXp_noPanic {balances rates : List ℕ} (h : balances.length ≤ rates.length)
    {price : ℕ} :
    NoPanic (metaPoolXp balances rates price) fun ys => ys.length = balances.length := by
  refine Yields.bind (xp_noPanic h) fun normalized hn => ?_
  refine Yields.bind (orNone_noPanic _) fun last hlast => ?_
  obtain ⟨h₁, rfl⟩ := checkedSub_eq_some.mp hlast
  refine nth_bind (by omega) fun _ => orNone_bind fun _ => ?_
  exact (setNth_noPanic (by omega)).mono fun ys hys => hys.trans hn

/-- Scaling the balances of a meta pool does not panic. -/
theorem metaPoolXp_balances_noPanic (h : pool.Fits l) {price : ℕ} :
    NoPanic (metaPoolXp pool.balances pool.tokenMultipliers price) fun ys => ys.length = l.size := by
  refine (metaPoolXp_noPanic ?_).mono fun ys hys => hys.trans h.balances
  rw [h.balances, h.tokenMultipliers]

/-- The invariant of a meta pool does not panic. -/
theorem metaBalancesD_noPanic (h : pool.Fits l) {balances : List ℕ}
    (hb : balances.length = l.size) {price amp : ℕ} :
    NoPanic (metaBalancesD pool balances price amp) fun _ => True := by
  refine Yields.bind (metaPoolXp_noPanic ?_) fun _ _ => orNone_true
  rw [hb, h.tokenMultipliers]

section Reads

variable [WithdrawableCurrency Tokens AccountId CurrencyId]
  {s : DexStable AccountId CurrencyId Tokens} {Γ : Layout}
  {mp : MetaPool AccountId CurrencyId}

omit [WithdrawableCurrency Tokens AccountId CurrencyId] in
/-- The time of the price does not overflow: it is a time in milliseconds, divided. -/
theorem cacheExpired_noPanic (hf : mp.Fits Γ l) :
    NoPanic (cacheExpired s mp) fun _ => True := by
  have hc := hf.cache
  have hle : mp.baseCacheLastUpdated + BASE_CACHE_EXPIRE_TIME ≤ maxU64 := by
    unfold maxSeconds at hc
    unfold BASE_CACHE_EXPIRE_TIME MINUTE maxU64
    omega
  unfold cacheExpired
  rw [if_pos hle]
  exact Yields.ok trivial

private theorem metaVirtualPriceAt_noPanic (hf : mp.Fits Γ l) {price : ℕ} :
    NoPanic (metaVirtualPriceAt s mp price) fun _ => True := by
  refine Yields.bind (metaPoolXp_balances_noPanic hf.info) fun _ _ => ?_
  refine orNone_bind fun _ => orNone_bind fun _ => ?_
  exact Yields.ite (fun _ => orNone_true) fun _ => none_noPanic

/-- The calls for a price go to older and older pools, so there is an end to them. -/
theorem baseVirtualPriceFrom_noPanic (hs : Γ.Fits s) {depth : ℕ} (hf : mp.Fits Γ l)
    (hd : mp.basePoolId < depth) :
    NoPanic (baseVirtualPriceFrom s depth mp) fun _ => True := by
  induction depth generalizing mp l with
  | zero => omega
  | succ depth ih =>
    refine Yields.bind (cacheExpired_noPanic hf) fun expired _ => ?_
    refine Yields.ite (fun _ => ?_) fun _ => Yields.ok trivial
    obtain ⟨l', base, hl', hbase, hfit, -⟩ := hs.base_pool hf
    rw [hbase]
    cases base with
    | base base => exact calculateBaseVirtualPrice_noPanic s hfit
    | metaPool base =>
      have hlt := hs.older _ _ _ hl' (MetaPool.Fits.base hfit)
      refine Yields.bind (ih hfit (by omega)) fun price _ => ?_
      exact metaVirtualPriceAt_noPanic hfit

/-- The price of the base pool does not panic. -/
theorem metaPoolBaseVirtualPrice_noPanic (hs : Γ.Fits s) (hf : mp.Fits Γ l) :
    NoPanic (metaPoolBaseVirtualPrice s mp) fun _ => True := by
  obtain ⟨l', -, hl', -⟩ := hs.base_pool hf
  exact baseVirtualPriceFrom_noPanic hs hf (Nat.lt_succ_of_lt (hs.below _ _ hl'))

/-- The price of a meta pool does not panic. -/
theorem calculateMetaVirtualPrice_noPanic (hs : Γ.Fits s) (hf : mp.Fits Γ l) :
    NoPanic (calculateMetaVirtualPrice s mp) fun _ => True :=
  Yields.bind (metaPoolBaseVirtualPrice_noPanic hs hf) fun _ _ => metaVirtualPriceAt_noPanic hf

/-- The price of a pool does not panic. -/
theorem getPoolVirtualPrice_noPanic (hs : Γ.Fits s) {pool : StablePool AccountId CurrencyId}
    (hf : pool.Fits Γ l) : NoPanic (getPoolVirtualPrice s pool) fun _ => True := by
  cases pool with
  | base pool => exact calculateBaseVirtualPrice_noPanic s hf
  | metaPool pool => exact calculateMetaVirtualPrice_noPanic hs hf

/-- A pool that remembers a new price fits where it did, and is the same besides. -/
theorem metaPoolUpdateVirtualPrice_noPanic (hs : Γ.Fits s) (hf : mp.Fits Γ l) :
    NoPanic (metaPoolUpdateVirtualPrice s mp) fun r => r.2.Fits Γ l ∧ r.2.info = mp.info := by
  refine Yields.bind (cacheExpired_noPanic hf) fun expired _ => ?_
  refine Yields.ite (fun _ => ?_) fun _ => Yields.ok ⟨hf, rfl⟩
  obtain ⟨l', base, hl', hbase, hfit, -⟩ := hs.base_pool hf
  rw [hbase]
  refine Yields.bind (getPoolVirtualPrice_noPanic hs hfit) fun price _ => ?_
  exact Yields.ok ⟨⟨hf.info, hf.base, hf.baseCurrencies, hs.now ▸ hs.now_le⟩, rfl⟩

/-- The payment of a meta pool in one token does not panic. -/
theorem calculateMetaRemoveLiquidityOneCurrency_noPanic (hs : Γ.Fits s) (hf : mp.Fits Γ l)
    {tokenAmount index totalSupply : ℕ} :
    NoPanic (calculateMetaRemoveLiquidityOneCurrency s mp tokenAmount index totalSupply)
      fun _ => True := by
  have hc := hf.info.currencyIds
  have hm := hf.info.tokenMultipliers
  refine Yields.ite (fun _ => none_noPanic) fun hi => ?_
  refine Yields.bind (metaPoolBaseVirtualPrice_noPanic hs hf) fun price _ => ?_
  refine Yields.bind (metaPoolXp_balances_noPanic hf.info) fun normalized hn => ?_
  iterate 6 refine orNone_bind fun _ => ?_
  refine Yields.bind (orNone_noPanic _) fun reduced hr => ?_
  have hlen := length_of_mapM_eq_some hr
  rw [List.length_zipIdx] at hlen
  refine nth_bind (by omega) fun _ => orNone_bind fun _ => orNone_bind fun _ => ?_
  refine Yields.bind (R := fun _ => True)
    (Yields.ite (fun _ => Yields.ok trivial) fun h => ?_) fun last _ => ?_
  · exact absurd h (by omega)
  refine nth_bind (by omega) fun balance => ?_
  refine Yields.ite (fun _ => orNone_bind fun _ => orNone_bind fun _ => orNone_bind fun _ => ?_)
    fun _ => ?_
  all_goals
    refine Yields.bind (R := fun _ => True) (Yields.ok trivial) ?_
    rintro ⟨gross, newY, balance⟩ -
    refine orNone_bind fun _ => nth_bind (by omega) fun _ => ?_
    iterate 4 refine orNone_bind fun _ => ?_
    exact Yields.ok trivial

/-- The amounts for a meta pool have to be at most as many as its currencies. -/
theorem calculateMetaCurrencyAmount_noPanic (hs : Γ.Fits s) (hf : mp.Fits Γ l)
    {amounts : List ℕ} (ha : amounts.length ≤ l.size) {deposit : Bool} :
    NoPanic (calculateMetaCurrencyAmount s mp amounts deposit) fun _ => True := by
  have hb := hf.info.balances
  refine Yields.bind (metaPoolBaseVirtualPrice_noPanic hs hf) fun price _ => ?_
  refine Yields.bind (metaPoolXp_balances_noPanic hf.info) fun _ _ => ?_
  refine orNone_bind fun _ => orNone_bind fun _ => ?_
  refine Yields.ite_bind (fun _ => addAmounts_noPanic (by omega))
    (fun _ => subtractAmounts_noPanic (by omega)) fun newBalances hn => ?_
  refine Yields.bind (metaBalancesD_noPanic hf.info (hn.trans hb)) fun _ _ => ?_
  refine Yields.ite (fun _ => Yields.ok trivial) fun _ => ?_
  exact orNone_bind fun _ => orNone_true

omit [WithdrawableCurrency Tokens AccountId CurrencyId] in
/-- The liquidity of a meta pool to burn does not panic. -/
theorem calculateMetaRemoveLiquidityImbalance_noPanic (hf : mp.Fits Γ l) {amounts : List ℕ}
    (ha : amounts.length = l.size) {totalSupply price : ℕ} :
    NoPanic (calculateMetaRemoveLiquidityImbalance s mp amounts totalSupply price) fun r =>
      r.2.2.Fits Γ l ∧ r.2.2.info.lpCurrencyId = mp.info.lpCurrencyId := by
  have hc := hf.info.currencyIds
  have hb := hf.info.balances
  refine orNone_bind fun _ => orNone_bind fun amp => ?_
  refine Yields.bind (metaBalancesD_noPanic hf.info hb) fun _ _ => ?_
  refine Yields.bind (subtractAmounts_noPanic (by omega)) fun newBalances hn => ?_
  refine Yields.bind (metaBalancesD_noPanic hf.info (by omega)) fun _ _ => ?_
  refine Yields.bind (chargeImbalances_noPanic (by omega) (by omega) (by omega)) ?_
  rintro ⟨balances, newBalances', fees⟩ ⟨h₁, h₂⟩
  dsimp only at h₁ h₂
  refine Yields.bind (metaBalancesD_noPanic hf.info (by omega)) fun _ _ => ?_
  refine orNone_bind fun _ => orNone_bind fun _ => ?_
  exact Yields.ok ⟨hf.setInfo (hf.info.setBalances (h₁.trans hb)), rfl⟩

omit [WithdrawableCurrency Tokens AccountId CurrencyId] in
/-- The payment of a swap of a meta pool does not panic. -/
theorem calculateMetaSwapAmount_noPanic (hf : mp.Fits Γ l) {i j inAmount price : ℕ} :
    NoPanic (calculateMetaSwapAmount s mp i j inAmount price) fun _ => True := by
  have hc := hf.info.currencyIds
  have hm := hf.info.tokenMultipliers
  refine Yields.ite (fun _ => none_noPanic) fun hij => ?_
  refine Yields.bind (metaPoolXp_balances_noPanic hf.info) fun normalized hn => ?_
  refine orNone_bind fun _ => nth_bind (by omega) fun _ => ?_
  refine orNone_bind fun _ => orNone_bind fun _ => nth_bind (by omega) fun _ => ?_
  refine orNone_bind fun _ => orNone_bind fun _ => nth_bind (by omega) fun _ => ?_
  iterate 5 refine orNone_bind fun _ => ?_
  refine nth_bind (by omega) fun _ => orNone_bind fun _ => ?_
  exact Yields.ok trivial

end Reads

end Interbtc.DexStable
