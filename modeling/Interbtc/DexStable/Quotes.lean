import Interbtc.DexStable.Calls

/-!
# Quotes

What can be asked about a pool without a call. Two of the quotes index a list with a number that
nobody has checked; no other quote panics.
-/

namespace Interbtc

open Core MultiCurrency WithdrawableCurrency

/-- A question about a pool, of those that compute something. -/
inductive StableQuote
  | virtualPrice (poolId : ℕ)
  | adminBalances (poolId : ℕ)
  | currency (poolId index : ℕ)
  | currencyAmount (poolId : ℕ) (amounts : List ℕ) (deposit : Bool)
  | swapAmount (poolId i j inBalance : ℕ)
  | swapUnderlying (poolId inAmount indexFrom indexTo : ℕ)
  | removeLiquidity (poolId amount : ℕ)
  | removeLiquidityOneCurrency (poolId amount index : ℕ)

namespace DexStable

variable {AccountId CurrencyId Tokens : Type} [WithdrawableCurrency Tokens AccountId CurrencyId]

/-! ## Questions about a pool -/

/-- The result of a computation, or a default value where there is none. -/
def unwrapOr {α : Type} (d : α) : Computed α → Computed α
  | .ok a => .ok a
  | .error .none => .ok d
  | .error .panic => .error .panic

/-- The price of a pool, zero where it cannot be computed. -/
def getVirtualPrice (s : DexStable AccountId CurrencyId Tokens) (poolId : ℕ) : Computed ℕ :=
  match s.pools poolId with
  | none => .ok 0
  | some pool => unwrapOr 0 (getPoolVirtualPrice s pool)

/-- What a pool holds beyond its balances. -/
def getAdminBalances (s : DexStable AccountId CurrencyId Tokens) (poolId : ℕ) :
    Computed (List ℕ) :=
  match s.pools poolId with
  | none => .ok []
  | some pool => (List.range pool.getCurrencyIds.length).mapM fun i =>
      unwrapOr 0 (getAdminBalance s poolId i)

/-- To ask the question panics. -/
def Panics (s : DexStable AccountId CurrencyId Tokens) : StableQuote → Prop
  | .virtualPrice poolId => getVirtualPrice s poolId = .error .panic
  | .adminBalances poolId => getAdminBalances s poolId = .error .panic
  | .currency poolId index => getCurrency s poolId index = .error .panic
  | .currencyAmount poolId amounts deposit =>
    calculateCurrencyAmount s poolId amounts deposit = .error .panic
  | .swapAmount poolId i j inBalance =>
    stableAmmCalculateSwapAmount s poolId i j inBalance = .error .panic
  | .swapUnderlying poolId inAmount indexFrom indexTo =>
    calculateMetaSwapUnderlying s poolId inAmount indexFrom indexTo = .error .panic
  | .removeLiquidity poolId amount =>
    stableAmmCalculateRemoveLiquidity s poolId amount = .error .panic
  | .removeLiquidityOneCurrency poolId amount index =>
    stableAmmCalculateRemoveLiquidityOneCurrency s poolId amount index = .error .panic

/-- The value of a meta pool, which a quote for its liquidity starts with. -/
def metaPoolD (s : DexStable AccountId CurrencyId Tokens) (pool : MetaPool AccountId CurrencyId) :
    Computed ℕ := do
  let baseVirtualPrice ← metaPoolBaseVirtualPrice s pool
  let normalized ← metaPoolXp pool.info.balances pool.info.tokenMultipliers baseVirtualPrice
  let amp ← orNone (getAPrecise s.now pool.info)
  orNone (getD normalized amp)

/-- The question has an index beyond the currencies of the pool, or there are more amounts than a
meta pool has currencies, those before fit the balances, and the pool has a value. -/
def AsksBeyond (s : DexStable AccountId CurrencyId Tokens) : StableQuote → Prop
  | .currency poolId index =>
    ∃ pool, s.pools poolId = some pool ∧ pool.getCurrencyIds.length < index
  | .currencyAmount poolId amounts deposit =>
    ∃ pool d, s.pools poolId = some (.metaPool pool) ∧ metaPoolD s pool = .ok d ∧
      pool.info.balances.length < amounts.length ∧
      ∀ x ∈ pool.info.balances.zip amounts, if deposit then x.1 + x.2 ≤ maxBalance else x.2 ≤ x.1
  | _ => False

/-! ## Only these two panic -/

variable {s : DexStable AccountId CurrencyId Tokens} {Γ : Layout} {l : PoolLayout} {poolId : ℕ}
  {mp : MetaPool AccountId CurrencyId}

private theorem unwrapOr_noPanic {α : Type} {d : α} {x : Computed α}
    (hx : NoPanic x fun _ => True) :
    NoPanic (unwrapOr d x) fun _ => True := by
  cases hx with
  | ok h => exact Yields.ok h
  | @error stop _ h =>
    cases stop with
    | none => exact Yields.ok trivial
    | panic => exact (h rfl).elim

private theorem getVirtualPrice_noPanic (hs : Γ.Fits s) :
    NoPanic (getVirtualPrice s poolId) fun _ => True := by
  unfold getVirtualPrice
  cases hp : s.pools poolId with
  | none => exact Yields.ok trivial
  | some pool =>
    obtain ⟨l, -, hf⟩ := hs.layout_of_pool hp
    exact unwrapOr_noPanic (getPoolVirtualPrice_noPanic hs hf)

private theorem getAdminBalance_noPanic (hs : Γ.Fits s) {index : ℕ} :
    NoPanic (getAdminBalance s poolId index) fun _ => True := by
  unfold getAdminBalance
  cases hp : s.pools poolId with
  | none => exact none_noPanic
  | some pool =>
    obtain ⟨l, -, hf⟩ := hs.layout_of_pool hp
    have hc := hf.info_fits.currencyIds
    have hb := hf.info_fits.balances
    refine Yields.ite (fun _ => none_noPanic) fun hi => ?_
    exact nth_bind (by omega) fun _ => nth_bind (by omega) fun _ => orNone_true

private theorem getAdminBalances_noPanic (hs : Γ.Fits s) :
    NoPanic (getAdminBalances s poolId) fun _ => True := by
  unfold getAdminBalances
  cases s.pools poolId with
  | none => exact Yields.ok trivial
  | some pool =>
    refine (Yields.mapM fun i _ => ?_).mono fun _ _ => trivial
    exact unwrapOr_noPanic (getAdminBalance_noPanic hs)

private theorem calculateCurrencyAmount_yields (hs : Γ.Fits s) {amounts : List ℕ} {deposit : Bool}
    (ha : ∀ mp, s.pools poolId = some (.metaPool mp) →
      amounts.length ≤ mp.info.currencyIds.length) :
    Yields (· ≠ StableFault.panic) (calculateCurrencyAmount s poolId amounts deposit)
      fun _ => True := by
  unfold calculateCurrencyAmount
  cases hp : s.pools poolId with
  | none => exact Yields.error nofun
  | some pool =>
    obtain ⟨l, hl, hf⟩ := hs.layout_of_pool hp
    cases pool with
    | base pool => exact calculateBaseCurrencyAmount_noPanic s hf
    | metaPool mp =>
      refine (calculateMetaCurrencyAmount_noPanic hs hf ?_).fault
      exact (ha mp hp).trans_eq (MetaPool.Fits.info hf).currencyIds

private theorem stableAmmCalculateSwapAmount_noPanic (hs : Γ.Fits s) {i j inBalance : ℕ} :
    NoPanic (stableAmmCalculateSwapAmount s poolId i j inBalance) fun _ => True := by
  unfold stableAmmCalculateSwapAmount
  cases hp : s.pools poolId with
  | none => exact none_noPanic
  | some pool =>
    obtain ⟨l, -, hf⟩ := hs.layout_of_pool hp
    cases pool with
    | base pool => exact calculateBaseSwapAmount_noPanic s hf
    | metaPool mp =>
      refine Yields.bind (calculateMetaVirtualPrice_noPanic hs hf) fun price _ => ?_
      refine Yields.bind (calculateMetaSwapAmount_noPanic hf) fun ⟨dy, fee⟩ _ => ?_
      exact Yields.ok trivial

private theorem stableAmmCalculateRemoveLiquidity_noPanic (hs : Γ.Fits s) {amount : ℕ} :
    NoPanic (stableAmmCalculateRemoveLiquidity s poolId amount) fun _ => True := by
  unfold stableAmmCalculateRemoveLiquidity
  cases hp : s.pools poolId with
  | none => exact none_noPanic
  | some pool =>
    obtain ⟨l, -, hf⟩ := hs.layout_of_pool hp
    exact (calculateBaseRemoveLiquidity_noPanic s hf.info_fits).mono fun _ _ => trivial

private theorem stableAmmCalculateRemoveLiquidityOneCurrency_noPanic (hs : Γ.Fits s)
    {amount index : ℕ} :
    NoPanic (stableAmmCalculateRemoveLiquidityOneCurrency s poolId amount index)
      fun _ => True := by
  unfold stableAmmCalculateRemoveLiquidityOneCurrency
  cases hp : s.pools poolId with
  | none => exact none_noPanic
  | some pool =>
    obtain ⟨l, -, hf⟩ := hs.layout_of_pool hp
    cases pool with
    | base pool =>
      refine Yields.bind (calculateBaseRemoveLiquidityOneToken_noPanic s hf) fun ⟨dy, fee⟩ _ => ?_
      exact Yields.ok trivial
    | metaPool mp =>
      refine Yields.bind (calculateMetaRemoveLiquidityOneCurrency_noPanic hs hf) ?_
      exact fun ⟨dy, fee⟩ _ => Yields.ok trivial

/-- The amounts for the base pool are as many as it has currencies. -/
theorem quoteBaseIn_yields (hs : Γ.Fits s) (hf : mp.Fits Γ l) {normalized : List ℕ}
    {price last index inAmount : ℕ} (hi : index < mp.baseCurrencies.length)
    (hlast : last < normalized.length) :
    Yields (· ≠ StableFault.panic) (quoteBaseIn s mp normalized price last index inAmount)
      fun _ => True := by
  refine Yields.bind (NoPanic.fault (setNth_noPanic ?_)) fun baseInputs hb => ?_
  · rw [List.length_replicate]
    exact hi
  rw [List.length_replicate] at hb
  refine Yields.bind (calculateCurrencyAmount_yields hs fun base hbase => ?_) fun amount _ => ?_
  · obtain ⟨l', base', -, hbase', hfit, hsize⟩ := hs.base_pool hf
    obtain rfl := Option.some.inj (hbase.symm.trans hbase')
    exact (hb.trans (hsize.trans hfit.info_fits.currencyIds.symm)).le
  refine Yields.bind (Yields.okOr (fun _ => nofun) fun _ h => h) fun value _ => ?_
  refine Yields.bind (Yields.okOr (fun _ => nofun) fun _ h => h) fun basePool _ => ?_
  refine NoPanic.fault ?_
  exact orNone_bind fun _ => orNone_bind fun _ => nth_bind hlast fun _ => orNone_true

omit [WithdrawableCurrency Tokens AccountId CurrencyId] in
private theorem quoteOut_noPanic {normalized : List ℕ} {metaFrom metaTo x : ℕ}
    (h : metaTo < normalized.length) :
    NoPanic (quoteOut s mp normalized metaFrom metaTo x) fun _ => True := by
  refine orNone_bind fun _ => nth_bind h fun _ => ?_
  iterate 3 refine orNone_bind fun _ => ?_
  exact orNone_true

private theorem calculateMetaSwapUnderlying_yields (hs : Γ.Fits s)
    {inAmount indexFrom indexTo : ℕ} :
    Yields (· ≠ StableFault.panic)
      (calculateMetaSwapUnderlying s poolId inAmount indexFrom indexTo) fun _ => True := by
  unfold calculateMetaSwapUnderlying
  cases hp : s.pools poolId with
  | none => exact Yields.error nofun
  | some pool =>
    obtain ⟨l, -, hf⟩ := hs.layout_of_pool hp
    cases pool with
    | base pool => exact Yields.error nofun
    | metaPool mp =>
      replace hf : mp.Fits Γ l := hf
      have hc := hf.info.currencyIds
      have hm := hf.info.tokenMultipliers
      refine Yields.bind (Yields.okOr (fun _ => nofun) fun _ h => h) fun last hlast => ?_
      obtain ⟨hpos, rfl⟩ := checkedSub_eq_some.mp hlast
      refine Yields.bind (calculateMetaVirtualPrice_noPanic hs hf).fault fun price _ => ?_
      refine Yields.ite (fun _ => Yields.error nofun) fun hr => ?_
      obtain ⟨-, hin, hout⟩ := not_not.mp hr
      refine Yields.bind (metaPoolXp_balances_noPanic hf.info).fault fun normalized hn => ?_
      refine Yields.ite (fun _ => (stableAmmCalculateSwapAmount_noPanic hs).fault) fun _ => ?_
      have hto : (if indexTo < mp.info.currencyIds.length - 1 then indexTo
          else mp.info.currencyIds.length - 1) < normalized.length := by
        split <;> omega
      refine Yields.ite
        (fun _ => Yields.bind (R := fun _ => True) (NoPanic.fault ?_) ?_)
        (fun _ => Yields.bind (quoteBaseIn_yields hs hf (by omega) (by omega)) fun _ _ =>
          Yields.bind (R := fun _ => True) (Yields.ok trivial) ?_)
      · refine nth_bind (by omega) fun _ => orNone_bind fun _ => nth_bind (by omega) fun _ => ?_
        exact orNone_bind fun _ => Yields.ok trivial
      all_goals
        rintro ⟨x, metaFrom⟩ -
        refine Yields.bind (quoteOut_noPanic hto).fault fun dy _ => ?_
        refine Yields.ite (fun h => NoPanic.fault ?_) fun _ => NoPanic.fault ?_
        · exact nth_bind (by omega) fun _ => orNone_true
        · exact orNone_bind fun _ => stableAmmCalculateRemoveLiquidityOneCurrency_noPanic hs

/-! ## Amounts beyond the balances -/

/-- Amounts beyond the balances panic once those before them were taken. -/
theorem foldAmounts_beyond {f : ℕ → ℕ → Option ℕ} {amounts balances : List ℕ} {k : ℕ}
    (hk : k ≤ balances.length) (hlt : balances.length < k + amounts.length) {x : Computed (List ℕ)}
    (hx : x = (amounts.zipIdx k).foldlM (fun bs x => do
      let b ← nth bs x.2
      let r ← orNone (f b x.1)
      setNth bs x.2 r) balances) :
    (x = .error .panic ↔ ∀ x ∈ (balances.drop k).zip amounts, (f x.1 x.2).isSome) ∧
      ∀ ys, x ≠ .ok ys := by
  induction amounts generalizing k balances with
  | nil => exact absurd hlt (not_lt.mpr hk)
  | cons a as ih =>
    rw [List.zipIdx_cons, List.foldlM_cons] at hx
    rcases hk.lt_or_eq with hin | rfl
    · have hnth : nth balances k = .ok balances[k] := by
        rw [nth, List.getElem?_eq_getElem hin]
        rfl
      rw [List.drop_eq_getElem_cons hin, List.zip_cons_cons, List.forall_mem_cons]
      rw [hnth] at hx
      change _ = (orNone (f balances[k] a) >>= fun r => setNth balances k r) >>= _ at hx
      cases hf : f balances[k] a with
      | none =>
        rw [hf] at hx
        subst hx
        exact ⟨⟨by rintro ⟨⟩, fun h => by cases h.1⟩, by rintro _ ⟨⟩⟩
      | some r =>
        rw [hf] at hx
        change _ = setNth balances k r >>= _ at hx
        rw [setNth, if_pos hin] at hx
        rw [List.length_cons] at hlt
        have hset := @ih (balances.set k r) (k + 1) (by rw [List.length_set]; exact hin)
          (by rw [List.length_set]; omega) hx
        rw [List.drop_set_of_lt (Nat.lt_succ_self k)] at hset
        simpa using hset
    · have hnth : nth balances balances.length = .error .panic := by
        rw [nth, List.getElem?_eq_none le_rfl]
        rfl
      rw [hnth] at hx
      subst hx
      rw [List.drop_length, List.zip_nil_left]
      exact ⟨⟨fun _ _ h => (by cases h), fun _ => rfl⟩, by rintro _ ⟨⟩⟩

private theorem fault_eq_panic {α : Type} {x : Computed α} {e : StableError} :
    x.mapError (Stop.fault e) = .error .panic ↔ x = .error .panic := by
  cases x with
  | ok a => exact iff_of_false nofun nofun
  | error stop => cases stop with
    | none => exact iff_of_false nofun nofun
    | panic => exact iff_of_true rfl rfl

private theorem addAmounts_beyond {balances amounts : List ℕ}
    (h : balances.length < amounts.length) :
    (addAmounts balances amounts = .error .panic ↔
      ∀ x ∈ balances.zip amounts, x.1 + x.2 ≤ maxBalance) ∧
      ∀ ys, addAmounts balances amounts ≠ .ok ys := by
  have hfold := @foldAmounts_beyond (checkedAdd maxBalance) amounts balances 0 (Nat.zero_le _)
    (by omega) (addAmounts balances amounts) rfl
  refine ⟨hfold.1.trans (forall₂_congr fun x _ => ?_), hfold.2⟩
  unfold checkedAdd
  split <;> simp [*]

private theorem subtractAmounts_beyond {balances amounts : List ℕ}
    (h : balances.length < amounts.length) :
    (subtractAmounts balances amounts = .error .panic ↔
      ∀ x ∈ balances.zip amounts, x.2 ≤ x.1) ∧
      ∀ ys, subtractAmounts balances amounts ≠ .ok ys := by
  have hfold := @foldAmounts_beyond checkedSub amounts balances 0 (Nat.zero_le _)
    (by omega) (subtractAmounts balances amounts) rfl
  refine ⟨hfold.1.trans (forall₂_congr fun x _ => ?_), hfold.2⟩
  unfold checkedSub
  split <;> simp [*]

/-- Once the value of the pool is computed, it is up to the next step to panic. -/
theorem metaPoolD_bind_eq_panic (hs : Γ.Fits s) (hf : mp.Fits Γ l) {α : Type} {x : Computed α}
    (hok : ∀ y, x ≠ .ok y) {f : ℕ → ℕ → ℕ → α → Computed ℕ} :
    (do
      let baseVirtualPrice ← metaPoolBaseVirtualPrice s mp
      let normalized ← metaPoolXp mp.info.balances mp.info.tokenMultipliers baseVirtualPrice
      let amp ← orNone (getAPrecise s.now mp.info)
      let d₀ ← orNone (getD normalized amp)
      let y ← x
      f baseVirtualPrice amp d₀ y) = .error .panic ↔
      ∃ d, metaPoolD s mp = .ok d ∧ x = .error .panic := by
  constructor
  · intro h
    obtain h | ⟨price, hprice, h⟩ := except_bind_eq_error.mp h
    · exact ((metaPoolBaseVirtualPrice_noPanic hs hf).ne_error h).elim
    obtain h | ⟨normalized, hn, h⟩ := except_bind_eq_error.mp h
    · exact ((metaPoolXp_balances_noPanic hf.info).ne_error h).elim
    obtain h | ⟨amp, hamp, h⟩ := except_bind_eq_error.mp h
    · exact (orNone_true.ne_error h).elim
    obtain h | ⟨d, hd, h⟩ := except_bind_eq_error.mp h
    · exact (orNone_true.ne_error h).elim
    obtain h | ⟨y, hy, -⟩ := except_bind_eq_error.mp h
    · refine ⟨d, ?_, h⟩
      refine except_bind_eq_ok.mpr ⟨price, hprice, ?_⟩
      exact except_bind_eq_ok.mpr ⟨normalized, hn, except_bind_eq_ok.mpr ⟨amp, hamp, hd⟩⟩
    · exact (hok y hy).elim
  · rintro ⟨d, hd, hx⟩
    obtain ⟨price, hprice, hd⟩ := except_bind_eq_ok.mp hd
    obtain ⟨normalized, hn, hd⟩ := except_bind_eq_ok.mp hd
    obtain ⟨amp, hamp, hd⟩ := except_bind_eq_ok.mp hd
    refine except_bind_eq_error.mpr (.inr ⟨price, hprice, ?_⟩)
    refine except_bind_eq_error.mpr (.inr ⟨normalized, hn, ?_⟩)
    refine except_bind_eq_error.mpr (.inr ⟨amp, hamp, ?_⟩)
    refine except_bind_eq_error.mpr (.inr ⟨d, hd, ?_⟩)
    exact except_bind_eq_error.mpr (.inl hx)

private theorem calculateMetaCurrencyAmount_eq_panic (hs : Γ.Fits s) (hf : mp.Fits Γ l)
    {amounts : List ℕ} {deposit : Bool} :
    calculateMetaCurrencyAmount s mp amounts deposit = .error .panic ↔
      ∃ d, metaPoolD s mp = .ok d ∧ mp.info.balances.length < amounts.length ∧
        ∀ x ∈ mp.info.balances.zip amounts,
          if deposit then x.1 + x.2 ≤ maxBalance else x.2 ≤ x.1 := by
  rcases Nat.lt_or_ge mp.info.balances.length amounts.length with hlt | hle
  · cases deposit with
    | true =>
      obtain ⟨hpanic, hok⟩ := addAmounts_beyond hlt
      refine (metaPoolD_bind_eq_panic hs hf hok).trans (exists_congr fun d => ?_)
      simp only [hpanic, hlt, true_and, if_true]
    | false =>
      obtain ⟨hpanic, hok⟩ := subtractAmounts_beyond hlt
      refine (metaPoolD_bind_eq_panic hs hf hok).trans (exists_congr fun d => ?_)
      simp only [hpanic, hlt, true_and, Bool.false_eq_true, if_false]
  · constructor
    · intro h
      refine ((calculateMetaCurrencyAmount_noPanic hs hf ?_).ne_error h).elim
      exact hle.trans_eq hf.info.balances
    · rintro ⟨-, -, hlt, -⟩
      exact absurd hlt (not_lt.mpr hle)

/-- In a storage with a layout a question panics if and only if it asks beyond what there is. -/
theorem panics_iff (hs : Γ.Fits s) {q : StableQuote} : s.Panics q ↔ s.AsksBeyond q := by
  cases q with
  | virtualPrice poolId => exact iff_of_false (getVirtualPrice_noPanic hs).ne_error id
  | adminBalances poolId => exact iff_of_false (getAdminBalances_noPanic hs).ne_error id
  | swapAmount poolId i j inBalance =>
    exact iff_of_false (stableAmmCalculateSwapAmount_noPanic hs).ne_error id
  | swapUnderlying poolId inAmount indexFrom indexTo =>
    exact iff_of_false (calculateMetaSwapUnderlying_yields hs).ne_error id
  | removeLiquidity poolId amount =>
    exact iff_of_false (stableAmmCalculateRemoveLiquidity_noPanic hs).ne_error id
  | removeLiquidityOneCurrency poolId amount index =>
    exact iff_of_false (stableAmmCalculateRemoveLiquidityOneCurrency_noPanic hs).ne_error id
  | currency poolId index =>
    change getCurrency s poolId index = _ ↔ ∃ pool, s.pools poolId = some pool ∧ _
    unfold getCurrency
    cases hp : s.pools poolId with
    | none => exact iff_of_false (by rintro ⟨⟩) (by rintro ⟨_, ⟨⟩, _⟩)
    | some pool =>
      constructor
      · intro h
        refine ⟨pool, rfl, ?_⟩
        by_contra hle
        dsimp only at h
        rw [if_neg hle] at h
        cases h
      · rintro ⟨pool', hpool, hlt⟩
        cases hpool
        dsimp only
        rw [if_pos hlt, nth, List.getElem?_eq_none hlt.le]
        rfl
  | currencyAmount poolId amounts deposit =>
    change calculateCurrencyAmount s poolId amounts deposit = _ ↔ ∃ pool d, _ ∧ _
    unfold calculateCurrencyAmount
    cases hp : s.pools poolId with
    | none => exact iff_of_false (by rintro ⟨⟩) (by rintro ⟨_, _, ⟨⟩, _⟩)
    | some pool =>
      obtain ⟨l, hl, hf⟩ := hs.layout_of_pool hp
      cases pool with
      | base pool =>
        refine iff_of_false (calculateBaseCurrencyAmount_noPanic s hf).ne_error ?_
        rintro ⟨mp, d, hmp, -⟩
        cases hmp
      | metaPool mp =>
        refine fault_eq_panic.trans ((calculateMetaCurrencyAmount_eq_panic hs hf).trans ?_)
        constructor
        · rintro ⟨d, h⟩
          exact ⟨mp, d, rfl, h⟩
        · rintro ⟨mp', d, hmp, h⟩
          cases hmp
          exact ⟨d, h⟩

end DexStable

end Interbtc
