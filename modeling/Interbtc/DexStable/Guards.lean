import Interbtc.DexStable.Computations

/-!
# Calls keep the layout

A call of the exchange does not panic in a storage with a layout, and leaves a storage with the
same layout, whether it changes one pool or a meta pool and its base pool.
-/

namespace Interbtc.DexStable

open Core DexStable MultiCurrency WithdrawableCurrency

variable {AccountId CurrencyId Tokens α : Type} {Γ : Layout} {l : PoolLayout}

/-- A call does not panic, keeps the layout, and gives a value with a property. -/
abbrev Layout.Guards (Γ : Layout) (x : StableCall AccountId CurrencyId Tokens α)
    (Q : α → Prop) : Prop :=
  Within (· ≠ StableFault.panic) Γ.Fits x Q

/-- The layout does not depend on the balances of tokens. -/
theorem Layout.Fits.setTokens {s : DexStable AccountId CurrencyId Tokens} (h : Γ.Fits s)
    (t : Tokens) : Γ.Fits { s with tokens := t } :=
  ⟨h.now, h.now_le, h.pools, h.older, h.below⟩

private theorem Layout.Fits.setPool {s : DexStable AccountId CurrencyId Tokens} (h : Γ.Fits s)
    {id : ℕ}
    (hl : Γ id = some l) {pool : StablePool AccountId CurrencyId} (hf : pool.Fits Γ l) :
    Γ.Fits { s with pools := Function.update s.pools id (some pool) } := by
  refine ⟨h.now, h.now_le, fun i => ?_, h.older, h.below⟩
  change Option.Rel _ (Function.update s.pools id (some pool) i) (Γ i)
  by_cases hi : i = id
  · rw [hi, Function.update_self, hl]
    exact .some hf
  · rw [Function.update_of_ne hi]
    exact h.pools i

/-! ## Parts of calls -/

section Parts

variable {I : DexStable AccountId CurrencyId Tokens → Prop}

/-- A check does not panic. -/
theorem check_within {c : Prop} [Decidable c] {e : StableError} :
    Within (· ≠ StableFault.panic) I (check c e) fun _ => c :=
  Within.ensure fun _ => nofun

/-- Arithmetic that does not panic does not in a call. -/
theorem arithmetic_within {x : Computed α} {Q : α → Prop} (hx : NoPanic x Q) :
    Within (· ≠ StableFault.panic) I (arithmetic x) Q :=
  Within.ofExcept hx.fault

end Parts

/-- A missing value is an error. -/
theorem ofOption_guards {e : StableError} {o : Option α} :
    Γ.Guards (Call.ofOption (.stable e) o : StableCall AccountId CurrencyId Tokens α)
      fun a => o = some a :=
  Within.ofOption (fun _ => nofun) fun _ h => h

/-- A call of the token balances keeps the layout. -/
theorem tokens_guards {x : Call TokensError Tokens α} {g : TokensError → StableFault}
    (hg : ∀ e, g e ≠ .panic) :
    Γ.Guards ((TokensPart.zoom x).mapError g : StableCall AccountId CurrencyId Tokens α)
      fun _ => True :=
  Within.zoom (fun _ t hs => hs.setTokens t) hg

/-- Calls on the balances do not panic. -/
theorem liftTokens_guards {x : Call TokensError Tokens α} :
    Γ.Guards (liftTokens x : StableCall AccountId CurrencyId Tokens α) fun _ => True :=
  tokens_guards nofun

/-- A pool that is found fits its layout. -/
theorem findPool_guards {id : ℕ} {e : StableError} :
    Γ.Guards (findPool id e : StableCall AccountId CurrencyId Tokens _) fun pool =>
      ∃ l, Γ id = some l ∧ pool.Fits Γ l :=
  Within.get_bind fun _ hs => ofOption_guards.weaken fun _ hp => hs.layout_of_pool hp

/-- Checking the base pool does not panic. -/
theorem checkMetaPool_guards {pool : StablePool AccountId CurrencyId} {id : ℕ} :
    Γ.Guards (checkMetaPool pool id : StableCall AccountId CurrencyId Tokens Unit)
      fun _ => True := by
  cases pool with
  | base pool => exact Within.throw nofun
  | metaPool pool => exact check_within.weaken fun _ _ => trivial

/-- A call that changes a pool keeps the layout if the pool that it returns fits. -/
theorem mutatePool_triple {P : DexStable AccountId CurrencyId Tokens → Prop} {id : ℕ}
    {f : StablePool AccountId CurrencyId →
      StableCall AccountId CurrencyId Tokens (α × StablePool AccountId CurrencyId)}
    (hP : ∀ s, P s → Γ.Fits s)
    (hf : ∀ l pool, pool.Fits Γ l →
      Triple (· ≠ .panic) P (f pool) fun r s => Γ.Fits s ∧ r.2.Fits Γ l) :
    Triple (· ≠ .panic) P (mutatePool id f) fun _ s => Γ.Fits s ∧ True := by
  refine Within.get_bind fun s hs => ?_
  cases hp : s.pools id with
  | none => exact Triple.throw nofun
  | some pool =>
    obtain ⟨l, hl, hfit⟩ := (hP s hs).layout_of_pool hp
    refine Triple.bind (hf l pool hfit) fun ⟨a, pool'⟩ => Triple.of_fact fun hfit' => ?_
    refine Triple.bind (Triple.modify fun s hs => hs.setPool hl hfit') fun _ => ?_
    exact Within.pure trivial

/-- A change of a pool that keeps it fitting does not panic. -/
theorem mutatePool_guards {id : ℕ}
    {f : StablePool AccountId CurrencyId →
      StableCall AccountId CurrencyId Tokens (α × StablePool AccountId CurrencyId)}
    (hf : ∀ l pool, pool.Fits Γ l → Γ.Guards (f pool) fun r => r.2.Fits Γ l) :
    Γ.Guards (mutatePool id f) fun _ => True :=
  mutatePool_triple (fun _ hs => hs) hf

section Tokens

variable [WithdrawableCurrency Tokens AccountId CurrencyId]
  {pool : BasePool AccountId CurrencyId} {mp : MetaPool AccountId CurrencyId}
  {who to' : AccountId}

/-- A transfer into a pool does not panic. -/
theorem doTransferIn_guards {c : CurrencyId} {source dest : AccountId} {amount : ℕ} :
    Γ.Guards (doTransferIn c source dest amount : StableCall AccountId CurrencyId Tokens ℕ)
      fun _ => True := by
  refine Within.get_bind fun before _ => ?_
  refine Within.bind (tokens_guards nofun) fun _ _ => ?_
  exact Within.get_bind fun after _ => arithmetic_within orNone_true

/-! ## Base pools -/

private theorem supplyCurrencies_guards (h : pool.Fits l) {amounts : List ℕ}
    (ha : amounts.length = l.size) {lpTotalSupply : ℕ} :
    Γ.Guards (supplyCurrencies who pool amounts lpTotalSupply :
      StableCall AccountId CurrencyId Tokens (List ℕ)) fun newBalances => newBalances.length = l.size := by
  refine Within.foldlM (fun i hi newBalances hn => ?_) h.balances
  replace hi := List.mem_range.mp hi
  have hc := h.currencyIds
  refine Within.bind (arithmetic_within (nth_noPanic (by omega))) fun amount _ => ?_
  refine Within.bind check_within fun _ _ => ?_
  refine Within.bind (arithmetic_within (nth_noPanic (by omega))) fun balance _ => ?_
  refine Within.bind (arithmetic_within (nth_noPanic (by omega))) fun currency _ => ?_
  refine Within.bind doTransferIn_guards fun received _ => ?_
  refine Within.bind (arithmetic_within orNone_true) fun sum _ => ?_
  exact arithmetic_within ((setNth_noPanic (by omega)).mono fun ys hys => hys.trans hn)

/-- Adding liquidity to a base pool keeps it fitting. -/
theorem basePoolAddLiquidity_guards (h : pool.Fits l) {amounts : List ℕ} {minMint : ℕ} :
    Γ.Guards (basePoolAddLiquidity who pool amounts minMint to' :
      StableCall AccountId CurrencyId Tokens _) fun r => r.2.Fits l := by
  refine Within.bind check_within fun _ ha => ?_
  have hlen : amounts.length = l.size := ha.symm.trans h.currencyIds
  refine Within.bind (arithmetic_within orNone_true) fun feePerToken _ => ?_
  refine Within.get_bind fun s _ => ?_
  refine Within.bind (arithmetic_within orNone_true) fun amp _ => ?_
  refine Within.ite_bind (fun _ => arithmetic_within (balancesD_noPanic h h.balances))
    (fun _ => Within.pure trivial) fun d₀ _ => ?_
  refine Within.bind (supplyCurrencies_guards h hlen) fun newBalances hn => ?_
  refine Within.bind (arithmetic_within (balancesD_noPanic h hn)) fun d₁ _ => ?_
  refine Within.bind check_within fun _ _ => ?_
  have hset := h.setBalances hn
  refine Within.ite (fun _ => ?_) fun _ => Within.bind
    (arithmetic_within (calculateBaseMintAmount_noPanic h hn)) fun ⟨mint, fees, pool'⟩ hp => ?_
  all_goals
    refine Within.bind (Q := fun r => r.2.Fits l) (Within.pure (by assumption)) ?_
    rintro ⟨mintAmount, changed⟩ hchanged
    refine Within.bind check_within fun _ _ => ?_
    refine Within.bind liftTokens_guards fun _ _ => ?_
    exact Within.pure hchanged

/-- A swap with a base pool keeps it fitting. -/
theorem basePoolSwap_guards (h : pool.Fits l) {i j inAmount outMinAmount : ℕ} :
    Γ.Guards (basePoolSwap who pool i j inAmount outMinAmount to' :
      StableCall AccountId CurrencyId Tokens _) fun r => r.2.Fits l := by
  have hc := h.currencyIds
  have hm := h.tokenMultipliers
  have hb := h.balances
  refine Within.bind check_within fun _ hij => ?_
  refine Within.bind (arithmetic_within (nth_noPanic (by omega))) fun currencyIn _ => ?_
  refine Within.bind doTransferIn_guards fun received _ => ?_
  refine Within.get_bind fun s _ => ?_
  refine Within.bind (arithmetic_within (Q := fun _ => True) ?_) fun ⟨dy, adminFee⟩ _ => ?_
  · refine Yields.bind (xp_balances_noPanic h) fun normalized hn => ?_
    refine nth_bind (by omega) fun _ => orNone_bind fun _ => nth_bind (by omega) fun _ => ?_
    refine orNone_bind fun _ => orNone_bind fun _ => nth_bind (by omega) fun _ => ?_
    iterate 4 refine orNone_bind fun _ => ?_
    refine nth_bind (by omega) fun _ => orNone_bind fun _ => ?_
    exact Yields.ok trivial
  refine Within.bind check_within fun _ _ => ?_
  refine Within.bind (arithmetic_within (Q := fun bs => bs.length = l.size) ?_) fun balances hbs => ?_
  · refine orNone_bind fun _ => nth_bind (by omega) fun _ => orNone_bind fun _ => ?_
    refine Yields.bind (setNth_noPanic (by omega)) fun balances hlen => ?_
    refine nth_bind (by omega) fun _ => orNone_bind fun _ => orNone_bind fun _ => ?_
    exact (setNth_noPanic (by omega)).mono fun ys hys => by omega
  refine Within.bind (arithmetic_within (nth_noPanic (by omega))) fun currencyOut _ => ?_
  refine Within.bind (tokens_guards nofun) fun _ _ => ?_
  exact Within.pure (h.setBalances hbs)

private theorem payOneCurrency_guards (h : pool.Fits l) {lpAmount index minAmount dy dyFee : ℕ}
    (hi : index < l.size) :
    Γ.Guards (payOneCurrency pool who lpAmount index minAmount to' dy dyFee :
      StableCall AccountId CurrencyId Tokens _) fun r => r.2.Fits l := by
  have hc := h.currencyIds
  have hb := h.balances
  refine Within.bind check_within fun _ _ => ?_
  refine Within.bind (arithmetic_within (Q := fun bs => bs.length = l.size) ?_) fun balances hbs => ?_
  · refine orNone_bind fun _ => orNone_bind fun _ => nth_bind (by omega) fun _ => ?_
    refine orNone_bind fun _ => ?_
    exact (setNth_noPanic (by omega)).mono fun ys hys => hys.trans hb
  refine Within.bind liftTokens_guards fun _ _ => ?_
  refine Within.bind (arithmetic_within (nth_noPanic (by omega))) fun currency _ => ?_
  refine Within.bind liftTokens_guards fun _ _ => ?_
  exact Within.pure (h.setBalances hbs)

/-- Removing one of the tokens of a base pool keeps it fitting. -/
theorem basePoolRemoveLiquidityOneCurrency_guards (h : pool.Fits l)
    {lpAmount index minAmount : ℕ} :
    Γ.Guards (basePoolRemoveLiquidityOneCurrency pool who lpAmount index minAmount to' :
      StableCall AccountId CurrencyId Tokens _) fun r => r.2.Fits l := by
  refine Within.get_bind fun s _ => ?_
  refine Within.bind check_within fun _ _ => ?_
  refine Within.bind check_within fun _ _ => ?_
  refine Within.bind check_within fun _ hi => ?_
  refine Within.bind (arithmetic_within (calculateBaseRemoveLiquidityOneToken_noPanic s h)) ?_
  rintro ⟨dy, dyFee⟩ -
  exact payOneCurrency_guards h (h.currencyIds ▸ hi)

/-! ## Meta pools -/

private theorem supplyMetaCurrencies_guards (h : pool.Fits l) {amounts : List ℕ}
    (ha : amounts.length = l.size) {lpTotalSupply : ℕ} :
    Γ.Guards (supplyMetaCurrencies who pool amounts lpTotalSupply :
      StableCall AccountId CurrencyId Tokens (List ℕ)) fun newBalances =>
        newBalances.length = l.size := by
  refine Within.foldlM (fun c hi newBalances hn => ?_) h.balances
  replace hi := lt_length_of_mem_zipIdx hi
  have hc := h.currencyIds
  refine Within.bind (arithmetic_within (nth_noPanic (by omega))) fun amount _ => ?_
  refine Within.bind check_within fun _ _ => ?_
  refine Within.ite (fun _ => ?_) fun _ => Within.pure hn
  refine Within.bind (arithmetic_within (nth_noPanic (by omega))) fun balance _ => ?_
  refine Within.bind doTransferIn_guards fun received _ => ?_
  refine Within.bind (arithmetic_within orNone_true) fun sum _ => ?_
  exact arithmetic_within ((setNth_noPanic (by omega)).mono fun ys hys => hys.trans hn)

/-- Adding liquidity to a meta pool keeps it fitting. -/
theorem metaPoolAddLiquidity_guards (hf : mp.Fits Γ l) {amounts : List ℕ} {minMint : ℕ} :
    Γ.Guards (metaPoolAddLiquidity who mp amounts minMint to' :
      StableCall AccountId CurrencyId Tokens _) fun r => r.2.Fits Γ l := by
  refine Within.bind check_within fun _ ha => ?_
  have hlen : amounts.length = l.size := ha.symm.trans hf.info.currencyIds
  refine Within.get_bind fun s hs => ?_
  refine Within.bind (arithmetic_within orNone_true) fun amp _ => ?_
  refine Within.bind (arithmetic_within (metaPoolUpdateVirtualPrice_noPanic hs hf)) ?_
  rintro ⟨price, mp'⟩ ⟨(hf' : mp'.Fits Γ l), -⟩
  have hi := hf'.info
  refine Within.ite_bind (fun _ => arithmetic_within (metaBalancesD_noPanic hi hi.balances))
    (fun _ => Within.pure trivial) fun d₀ _ => ?_
  refine Within.bind (supplyMetaCurrencies_guards hi hlen) fun newBalances hn => ?_
  refine Within.bind (arithmetic_within (metaBalancesD_noPanic hi hn)) fun d₁ _ => ?_
  refine Within.bind check_within fun _ _ => ?_
  refine Within.ite_bind (Q := fun r => r.2.length = l.size) (fun _ => arithmetic_within ?_)
    (fun _ => Within.pure hn) fun ⟨mintAmount, balances⟩ hbs => ?_
  · have hc := hi.currencyIds
    have hb := hi.balances
    refine orNone_bind fun feePerToken => ?_
    refine Yields.bind (chargeImbalances_noPanic (by omega) (by omega) (by omega)) ?_
    rintro ⟨balances, newBalances', fees⟩ ⟨h₁, h₂⟩
    refine Yields.bind (metaBalancesD_noPanic hi (h₂.trans hn)) fun _ _ => ?_
    refine orNone_bind fun _ => orNone_bind fun _ => ?_
    exact Yields.ok (h₁.trans hb)
  refine Within.bind check_within fun _ _ => ?_
  refine Within.bind liftTokens_guards fun _ _ => ?_
  exact Within.pure (hf'.setInfo (hi.setBalances hbs))

/-- A swap with a meta pool keeps it fitting. -/
theorem metaPoolSwap_guards (hf : mp.Fits Γ l) {i j inAmount outMinAmount : ℕ} :
    Γ.Guards (metaPoolSwap who mp i j inAmount outMinAmount to' :
      StableCall AccountId CurrencyId Tokens _) fun r => r.2.Fits Γ l := by
  have hn := hf.info.currencyIds
  refine Within.bind check_within fun _ hij => ?_
  refine Within.bind (arithmetic_within (nth_noPanic (by omega))) fun currencyIn _ => ?_
  refine Within.bind doTransferIn_guards fun received _ => ?_
  refine Within.get_bind fun s hs => ?_
  refine Within.bind (arithmetic_within (metaPoolUpdateVirtualPrice_noPanic hs hf)) ?_
  rintro ⟨price, mp'⟩ ⟨(hf' : mp'.Fits Γ l), -⟩
  have hi := hf'.info
  have hc := hi.currencyIds
  have hm := hi.tokenMultipliers
  have hb := hi.balances
  refine Within.bind (arithmetic_within (calculateMetaSwapAmount_noPanic hf')) ?_
  rintro ⟨dy, dyFee⟩ -
  refine Within.bind check_within fun _ _ => ?_
  refine Within.bind (arithmetic_within (Q := fun bs => bs.length = l.size) ?_) ?_
  · refine orNone_bind fun _ => nth_bind (by omega) fun _ => orNone_bind fun _ => ?_
    refine nth_bind (by omega) fun _ => orNone_bind fun _ => ?_
    refine Yields.bind (setNth_noPanic (by omega)) fun balances hlen => ?_
    refine nth_bind (by omega) fun _ => orNone_bind fun _ => orNone_bind fun _ => ?_
    exact (setNth_noPanic (by omega)).mono fun ys hys => by omega
  intro balances hbs
  refine Within.bind (arithmetic_within (nth_noPanic (by omega))) fun currencyOut _ => ?_
  refine Within.bind (tokens_guards nofun) fun _ _ => ?_
  exact Within.pure (hf'.setInfo (hi.setBalances hbs))

/-- Removing one of the tokens of a meta pool keeps it fitting. -/
theorem metaPoolRemoveLiquidityOneCurrency_guards (hf : mp.Fits Γ l)
    {lpAmount index minAmount : ℕ} :
    Γ.Guards (metaPoolRemoveLiquidityOneCurrency mp who lpAmount index minAmount to' :
      StableCall AccountId CurrencyId Tokens _) fun r => r.2.Fits Γ l := by
  refine Within.get_bind fun s hs => ?_
  refine Within.bind check_within fun _ _ => ?_
  refine Within.bind check_within fun _ hi => ?_
  refine Within.bind (arithmetic_within (metaPoolUpdateVirtualPrice_noPanic hs hf)) ?_
  rintro ⟨price, mp'⟩ ⟨(hf' : mp'.Fits Γ l), -⟩
  refine Within.bind (arithmetic_within (calculateMetaRemoveLiquidityOneCurrency_noPanic hs hf')) ?_
  rintro ⟨dy, dyFee⟩ -
  refine Within.bind (payOneCurrency_guards (hf'.info) (hf.info.currencyIds ▸ hi)) ?_
  rintro ⟨paid, info⟩ hinfo
  exact Within.pure (hf'.setInfo hinfo)

end Tokens

end Interbtc.DexStable
