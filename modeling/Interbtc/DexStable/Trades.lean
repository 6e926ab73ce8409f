import Interbtc.Core.Baskets
import Interbtc.Core.Loops
import Interbtc.Currency.Flows
import Interbtc.DexStable.Execution

/-!
# Trades with a pool

A trader pays amounts to the account of a pool and gets amounts from it, and liquidity is burned
or minted for the difference. The balances that the pool records never grow by more than what
came in less what went out.
-/

namespace Interbtc

open Core DexStable MultiCurrency WithdrawableCurrency

variable {AccountId CurrencyId Tokens : Type} [DecidableEq AccountId] [DecidableEq CurrencyId]

/-- What a pool records of a currency. -/
def BasePool.recorded (pool : BasePool AccountId CurrencyId) (c : CurrencyId) : ℕ :=
  totalOf pool.currencyIds pool.balances c

variable [WithdrawableCurrency Tokens AccountId CurrencyId]

namespace DexStable

/-- A trade of `who` with a pool for the benefit of `to'`. -/
structure Trades (pool pool' : BasePool AccountId CurrencyId) (who to' : AccountId)
    (ins outs : CurrencyId → ℕ) (burned minted : ℕ) (t t' : Tokens) : Prop where
  currencyIds : pool'.currencyIds = pool.currencyIds
  lpCurrencyId : pool'.lpCurrencyId = pool.lpCurrencyId
  account : pool'.account = pool.account
  moved : held t' = held t + parcel pool.account ins - parcel who ins + parcel to' outs -
    parcel pool.account outs - flow pool.lpCurrencyId who burned + flow pool.lpCurrencyId to' minted
  books : ∀ c, pool'.recorded c + outs c ≤ pool.recorded c + ins c

section Trades

variable {pool pool' : BasePool AccountId CurrencyId} {who to' w : AccountId}
  {ins outs : CurrencyId → ℕ} {burned minted : ℕ} {t t' : Tokens}

/-- What the account of the pool holds beyond the records does not shrink. -/
theorem Trades.surplus_le (h : Trades pool pool' who to' ins outs burned minted t t')
    (hne : who ≠ pool.account) (c : CurrencyId) :
    held t c pool.account - pool.recorded c ≤ held t' c pool'.account - pool'.recorded c := by
  have hheld := congrFun (congrFun h.moved c) pool.account
  simp only [Pi.add_apply, Pi.sub_apply, parcel_self, parcel_of_ne hne.symm,
    flow_of_ne hne.symm] at hheld
  have hpaid : 0 ≤ parcel to' outs c pool.account := parcel_nonneg
  have hminted : 0 ≤ flow pool.lpCurrencyId to' minted c pool.account := flow_nonneg
  have hbooks := h.books c
  rw [h.account]
  omega

/-- Only the trader and the pool pay. -/
theorem Trades.held_le (h : Trades pool pool' who to' ins outs burned minted t t')
    (hwho : w ≠ who) (hw : w ≠ pool.account) (c : CurrencyId) : held t c w ≤ held t' c w := by
  have hheld := congrFun (congrFun h.moved c) w
  simp only [Pi.add_apply, Pi.sub_apply, parcel_of_ne hwho, parcel_of_ne hw,
    flow_of_ne hwho] at hheld
  have hpaid : 0 ≤ parcel to' outs c w := parcel_nonneg
  have hminted : 0 ≤ flow pool.lpCurrencyId to' minted c w := flow_nonneg
  omega

end Trades

/-! ## Parts of calls -/

variable {s s' : DexStable AccountId CurrencyId Tokens}

/-- What is at an index in range is replaced. -/
theorem setNth_eq_ok {α : Type} {xs ys : List α} {i : ℕ} {x : α} :
    setNth xs i x = .ok ys ↔ i < xs.length ∧ xs.set i x = ys := by
  unfold setNth
  split
  · rw [Except.ok.injEq, and_iff_right ‹_›]
  · simp only [reduceCtorEq, false_and, ‹¬ _›]

omit [DecidableEq AccountId] [DecidableEq CurrencyId]
  [WithdrawableCurrency Tokens AccountId CurrencyId] in
/-- A call on the balances changes nothing else. -/
theorem run_liftTokens_eq_ok {α : Type} {x : Call TokensError Tokens α} {a : α} :
    (liftTokens x : StableCall AccountId CurrencyId Tokens α).run s = .ok a s' ↔
      ∃ t, x.run s.tokens = .ok a t ∧ s' = { s with tokens := t } := by
  rw [liftTokens, Call.run_mapError_eq_ok, Lens.run_zoom_eq_ok]
  exact ⟨fun ⟨t, h, hs⟩ => ⟨t, h, hs.symm⟩, fun ⟨t, h, hs⟩ => ⟨t, h, hs.symm⟩⟩

variable [LawfulWithdrawableCurrency Tokens]

/-- A transfer into a pool brings all of it. -/
theorem held_doTransferIn {c : CurrencyId} {source dest : AccountId} {amount received : ℕ}
    (hne : source ≠ dest)
    (h : (doTransferIn c source dest amount).run s = .ok received s') :
    received = amount ∧ ∃ t, s' = { s with tokens := t } ∧
      held t = held s.tokens + flow c dest amount - flow c source amount := by
  refine ⟨(run_doTransferIn hne h).1, ?_⟩
  simp only [doTransferIn, Call.run_bind_eq_ok, Call.run_get_eq_ok, Call.run_mapError_eq_ok,
    Lens.run_zoom_eq_ok, run_arithmetic_eq_ok] at h
  obtain ⟨_, _, ⟨rfl, rfl⟩, _, _, ⟨t, ht, rfl⟩, _, _, ⟨rfl, rfl⟩, -, rfl⟩ := h
  exact ⟨t, rfl, (held_transfer ht).1⟩

/-! ## What comes in -/

variable {pool pool' : BasePool AccountId CurrencyId} {who to' : AccountId} {amounts : List ℕ}
  {i j x : ℕ}

private theorem firstOf_succ_eq {kinds : List CurrencyId} {xs : List ℕ} {c : CurrencyId}
    (h : kinds[i]? = some c) :
    firstOf kinds xs (i + 1) = firstOf kinds xs i + single c (xs.getD i 0) :=
  funext fun _ => firstOf_succ h

/-- Some amounts came to the account of a pool, and were added to its balances. -/
def Supplied (pool : BasePool AccountId CurrencyId) (who : AccountId) (ins : CurrencyId → ℕ)
    (s : DexStable AccountId CurrencyId Tokens) (newBalances : List ℕ)
    (s' : DexStable AccountId CurrencyId Tokens) : Prop :=
  (∃ t, s' = { s with tokens := t } ∧
    held t = held s.tokens + parcel pool.account ins - parcel who ins) ∧
    ∀ c, totalOf pool.currencyIds newBalances c = pool.recorded c + ins c

omit [LawfulWithdrawableCurrency Tokens] in
private theorem Supplied.nothing : Supplied pool who 0 s pool.balances s := by
  refine ⟨⟨s.tokens, rfl, ?_⟩, fun _ => rfl⟩
  rw [parcel_zero, parcel_zero, add_zero, sub_zero]

/-- The amount at one more position. -/
theorem Supplied.next {newBalances : List ℕ} {c : CurrencyId} {balance received : ℕ}
    {s₁ s₂ : DexStable AccountId CurrencyId Tokens} (hne : who ≠ pool.account)
    (h : Supplied pool who (firstOf pool.currencyIds amounts i) s newBalances s₁)
    (hc : pool.currencyIds[i]? = some c) (ha : amounts[i]? = some x)
    (hb : newBalances[i]? = some balance)
    (hrun : (doTransferIn c who pool.account x).run s₁ = .ok received s₂) :
    Supplied pool who (firstOf pool.currencyIds amounts (i + 1)) s
      (newBalances.set i (balance + received)) s₂ := by
  obtain ⟨⟨t, rfl, hheld⟩, hbalances⟩ := h
  obtain ⟨rfl, t', rfl, hheld'⟩ := held_doTransferIn hne hrun
  have hget : amounts.getD i 0 = received := by
    rw [List.getD_eq_getElem?_getD, ha]
    rfl
  have hfirst : firstOf pool.currencyIds amounts (i + 1) =
      firstOf pool.currencyIds amounts i + single c (amounts.getD i 0) := firstOf_succ_eq hc
  rw [hget] at hfirst
  refine ⟨⟨t', rfl, ?_⟩, fun d => ?_⟩
  · rw [hheld', hheld, hfirst, parcel_add, parcel_add, parcel_single, parcel_single]
    abel
  · have hset := totalOf_set (c := d) (y := balance + received) hc hb
    have hold := hbalances d
    rw [hfirst, Pi.add_apply, single]
    split at hset
    · rw [if_pos ‹_›]
      omega
    · rw [if_neg ‹_›]
      omega

private theorem run_supplyCurrencies {newBalances : List ℕ} {lpTotalSupply : ℕ}
    (hne : who ≠ pool.account)
    (h : (supplyCurrencies who pool amounts lpTotalSupply).run s = .ok newBalances s') :
    Supplied pool who (totalOf pool.currencyIds amounts) s newBalances s' := by
  refine Call.run_foldlM_eq_ok
    (I := fun i b s' => Supplied pool who (firstOf pool.currencyIds amounts i) s b s')
    (fun i k b s₁ b' s₂ hk hI hrun => ?_) Supplied.nothing List.length_range h
  obtain ⟨_, rfl⟩ := List.getElem?_eq_some_iff.mp hk
  rw [List.getElem_range] at hrun
  simp only [Call.run_bind_eq_ok, run_arithmetic_eq_ok, run_check_eq_ok, nth_eq_ok, orNone_eq_ok,
    checkedAdd_eq_some, setNth_eq_ok] at hrun
  obtain ⟨x, _, ⟨hx, rfl⟩, _, _, ⟨-, rfl⟩, balance, _, ⟨hb, rfl⟩, c, _, ⟨hc, rfl⟩, received, s₃,
    hin, _, _, ⟨⟨-, rfl⟩, rfl⟩, ⟨-, rfl⟩, rfl⟩ := hrun
  exact hI.next hne hc hx hb hin

private theorem run_supplyMetaCurrencies {newBalances : List ℕ} {lpTotalSupply : ℕ}
    (hne : who ≠ pool.account)
    (h : (supplyMetaCurrencies who pool amounts lpTotalSupply).run s = .ok newBalances s') :
    Supplied pool who (totalOf pool.currencyIds amounts) s newBalances s' := by
  refine Call.run_foldlM_eq_ok
    (I := fun i b s' => Supplied pool who (firstOf pool.currencyIds amounts i) s b s')
    (fun i k b s₁ b' s₂ hk hI hrun => ?_) Supplied.nothing List.length_zipIdx h
  rw [List.getElem?_zipIdx, Nat.zero_add, Option.map_eq_some_iff] at hk
  obtain ⟨c, hc, rfl⟩ := hk
  simp only [Call.run_bind_eq_ok, run_arithmetic_eq_ok, run_check_eq_ok, nth_eq_ok, orNone_eq_ok,
    checkedAdd_eq_some, setNth_eq_ok, Call.run_ite_eq_ok, Call.run_pure_eq_ok] at hrun
  obtain ⟨x, _, ⟨hx, rfl⟩, _, _, ⟨-, rfl⟩, ⟨-, balance, _, ⟨hb, rfl⟩, received, s₃, hin, _, _,
    ⟨⟨-, rfl⟩, rfl⟩, ⟨-, rfl⟩, rfl⟩ | ⟨hzero, rfl, rfl⟩⟩ := hrun
  · exact hI.next hne hc hx hb hin
  · have hget : amounts.getD i 0 = 0 := by
      rw [List.getD_eq_getElem?_getD, hx, Option.getD_some, not_not.mp hzero]
    rw [firstOf_succ_of_eq_zero hget]
    exact hI

/-- Liquidity is minted for what came in, and at most that is kept in the records. -/
theorem Supplied.trades {ins : CurrencyId → ℕ} {newBalances kept : List ℕ} {minted : ℕ} {u : Unit}
    {s₁ : DexStable AccountId CurrencyId Tokens} (h : Supplied pool who ins s newBalances s₁)
    (hle : ∀ i < pool.currencyIds.length, kept.getD i 0 ≤ newBalances.getD i 0)
    (hrun : (liftTokens (MultiCurrency.deposit pool.lpCurrencyId to' minted)).run s₁ = .ok u s') :
    ∃ t, s' = { s with tokens := t } ∧
      Trades pool { pool with balances := kept } who to' ins 0 0 minted s.tokens t := by
  obtain ⟨⟨t, rfl, hheld⟩, hbalances⟩ := h
  obtain ⟨t', hdeposit, rfl⟩ := run_liftTokens_eq_ok.mp hrun
  refine ⟨t', rfl, rfl, rfl, rfl, ?_, fun c => ?_⟩
  · rw [(held_deposit hdeposit).1, hheld, parcel_zero, parcel_zero, flow_zero, add_zero, sub_zero,
      sub_zero]
  · exact (totalOf_mono hle).trans (hbalances c).le

/-! ## Fees -/

private theorem chargeImbalance_le {feePerToken adminFee d₀ d₁ old new kept left fee : ℕ}
    (h : chargeImbalance feePerToken adminFee d₀ d₁ old new = some (kept, left, fee)) :
    kept ≤ new := by
  simp only [chargeImbalance, Option.bind_eq_bind, Option.bind_eq_some_iff, Option.some.injEq,
    Prod.mk.injEq, checkedSub_eq_some] at h
  obtain ⟨_, -, _, -, _, -, _, ⟨-, rfl⟩, _, -, rfl, -⟩ := h
  exact Nat.sub_le _ _

/-- A fee only makes a balance smaller. -/
theorem chargeImbalances_le {feePerToken adminFee d₀ d₁ rounds n : ℕ}
    {balances newBalances kept left fees : List ℕ}
    (h : chargeImbalances feePerToken adminFee d₀ d₁ rounds n balances newBalances =
      .ok (kept, left, fees)) :
    kept.length = balances.length ∧ ∀ i < rounds, kept.getD i 0 ≤ newBalances.getD i 0 := by
  have hall := except_foldlM_eq_ok
    (I := fun i (b : List ℕ × List ℕ × List ℕ) => b.1.length = balances.length ∧
      (∀ j < i, b.1.getD j 0 ≤ newBalances.getD j 0) ∧ ∀ j, i ≤ j → b.2.1[j]? = newBalances[j]?)
    (fun i k b b' hk hI hround => ?_) ⟨rfl, nofun, fun _ _ => rfl⟩ List.length_range h
  · exact ⟨hall.1, hall.2.1⟩
  · obtain ⟨_, rfl⟩ := List.getElem?_eq_some_iff.mp hk
    obtain ⟨hlen, hdone, hleft⟩ := hI
    simp only [List.getElem_range, except_bind_eq_ok, nth_eq_ok, orNone_eq_ok, setNth_eq_ok]
      at hround
    obtain ⟨old, -, new, hnew, ⟨keep, rest, fee⟩, hcharge, _, ⟨-, rfl⟩, _, ⟨hi, rfl⟩, _, ⟨-, rfl⟩,
      hb⟩ := hround
    obtain rfl := Except.ok.inj hb
    refine ⟨List.length_set.trans hlen, fun j hj => ?_, fun j hj => ?_⟩
    · rw [List.getD_eq_getElem?_getD]
      rcases Nat.lt_succ_iff_lt_or_eq.mp hj with hlt | rfl
      · rw [List.getElem?_set_ne (Nat.ne_of_gt hlt), ← List.getD_eq_getElem?_getD]
        exact hdone j hlt
      · rw [List.getElem?_set_self hi, Option.getD_some, List.getD_eq_getElem?_getD,
          ← hleft j le_rfl, hnew, Option.getD_some]
        exact chargeImbalance_le hcharge
    · change (b.2.1.set i rest)[j]? = _
      rw [List.getElem?_set_ne (Nat.ne_of_lt hj)]
      exact hleft j (Nat.le_of_succ_le hj)

/-- What is subtracted and what is left add up to the balances. -/
theorem subtractAmounts_add {balances rest : List ℕ}
    (h : subtractAmounts balances amounts = .ok rest) :
    rest.length = balances.length ∧
      ∀ i, rest.getD i 0 + amounts.getD i 0 = balances.getD i 0 := by
  have hall := except_foldlM_eq_ok
    (I := fun i (b : List ℕ) => b.length = balances.length ∧
      (∀ j < i, b.getD j 0 + amounts.getD j 0 = balances.getD j 0) ∧
      ∀ j, i ≤ j → b[j]? = balances[j]?)
    (fun i x b b' hx hI hround => ?_) ⟨rfl, nofun, fun _ _ => rfl⟩ List.length_zipIdx h
  · refine ⟨hall.1, fun i => ?_⟩
    rcases Nat.lt_or_ge i amounts.length with hi | hi
    · exact hall.2.1 i hi
    · have hsame := hall.2.2 i hi
      rw [List.getD_eq_getElem?_getD, hsame, ← List.getD_eq_getElem?_getD,
        List.getD_eq_getElem?_getD (l := amounts), List.getElem?_eq_none hi, Option.getD_none,
        add_zero]
  · rw [List.getElem?_zipIdx, Nat.zero_add, Option.map_eq_some_iff] at hx
    obtain ⟨amount, hamount, rfl⟩ := hx
    obtain ⟨hlen, hdone, hleft⟩ := hI
    simp only [except_bind_eq_ok, nth_eq_ok, orNone_eq_ok, setNth_eq_ok, checkedSub_eq_some]
      at hround
    obtain ⟨balance, hbalance, _, ⟨hle, rfl⟩, hi, rfl⟩ := hround
    refine ⟨List.length_set.trans hlen, fun j hj => ?_, fun j hj => ?_⟩
    · rw [List.getD_eq_getElem?_getD]
      rcases Nat.lt_succ_iff_lt_or_eq.mp hj with hlt | rfl
      · rw [List.getElem?_set_ne (Nat.ne_of_gt hlt), ← List.getD_eq_getElem?_getD]
        exact hdone j hlt
      · rw [List.getElem?_set_self hi, Option.getD_some, List.getD_eq_getElem?_getD, hamount,
          Option.getD_some, List.getD_eq_getElem?_getD, ← hleft j le_rfl, hbalance,
          Option.getD_some]
        exact Nat.sub_add_cancel hle
    · rw [List.getElem?_set_ne (Nat.ne_of_lt hj)]
      exact hleft j (Nat.le_of_succ_le hj)

/-- What is kept after amounts went out and fees were charged for what is left. -/
theorem kept_add_le {feePerToken adminFee d₀ d₁ n m : ℕ} {balances rest kept left fees : List ℕ}
    (hrest : subtractAmounts balances amounts = .ok rest)
    (hcharge : chargeImbalances feePerToken adminFee d₀ d₁ balances.length n balances rest =
      .ok (kept, left, fees)) :
    ∀ i < m, kept.getD i 0 + amounts.getD i 0 ≤ balances.getD i 0 := by
  intro i _
  obtain ⟨-, hadd⟩ := subtractAmounts_add hrest
  obtain ⟨hlen, hle⟩ := chargeImbalances_le hcharge
  rw [← hadd i]
  refine Nat.add_le_add_right ?_ _
  rcases Nat.lt_or_ge i balances.length with hi | hi
  · exact hle i hi
  · rw [List.getD_eq_getElem?_getD, List.getElem?_eq_none (hlen.trans_le hi), Option.getD_none]
    exact Nat.zero_le _

/-! ## Calls of one pool -/

omit [DecidableEq AccountId] [DecidableEq CurrencyId] in
private theorem calculateBaseMintAmount_kept {newBalances fees : List ℕ}
    {d₀ d₁ fee amp totalSupply minted : ℕ}
    (h : calculateBaseMintAmount pool newBalances d₀ d₁ fee amp totalSupply =
      .ok (minted, fees, pool')) :
    ∃ kept, pool' = { pool with balances := kept } ∧
      ∀ i < pool.currencyIds.length, kept.getD i 0 ≤ newBalances.getD i 0 := by
  simp only [calculateBaseMintAmount, except_bind_eq_ok] at h
  obtain ⟨⟨kept, left, charged⟩, hcharge, _, -, _, -, _, -, h⟩ := h
  simp only [Except.ok.injEq, Prod.mk.injEq] at h
  exact ⟨kept, h.2.2.symm, (chargeImbalances_le hcharge).2⟩

/-- Adding liquidity is a trade with the base pool. -/
theorem basePoolAddLiquidity_trades {minMintAmount minted : ℕ} (hne : who ≠ pool.account)
    (h : (basePoolAddLiquidity who pool amounts minMintAmount to').run s =
      .ok (minted, pool') s') :
    ∃ t, s' = { s with tokens := t } ∧
      Trades pool pool' who to' (totalOf pool.currencyIds amounts) 0 0 minted s.tokens t := by
  simp only [basePoolAddLiquidity, Call.run_bind_eq_ok, run_check_eq_ok, run_arithmetic_eq_ok,
    Call.run_get_eq_ok, Call.run_pure_eq_ok, Call.run_ite_eq_ok] at h
  obtain ⟨_, _, ⟨-, rfl⟩, fee, _, ⟨-, rfl⟩, _, _, ⟨rfl, rfl⟩, amp, _, ⟨-, rfl⟩, h⟩ := h
  -- the invariant before the supply is computed only if there is liquidity
  obtain ⟨-, d₀, _, ⟨-, rfl⟩, newBalances, s₁, hin, d₁, _, ⟨-, rfl⟩, _, _, ⟨-, rfl⟩, h⟩ |
    ⟨-, d₀, _, ⟨-, rfl⟩, newBalances, s₁, hin, d₁, _, ⟨-, rfl⟩, _, _, ⟨-, rfl⟩, h⟩ := h
  all_goals
    have hsupplied := run_supplyCurrencies hne hin
    obtain ⟨-, _, _, ⟨rfl, rfl⟩, _, _, ⟨-, rfl⟩, _, _, hdeposit, hresult, rfl⟩ |
      ⟨-, ⟨_, _, _⟩, _, ⟨hmint, rfl⟩, _, _, ⟨rfl, rfl⟩, _, _, ⟨-, rfl⟩, _, _, hdeposit, hresult,
        rfl⟩ := h
    · obtain ⟨rfl, rfl⟩ := Prod.mk.inj hresult
      exact hsupplied.trades (fun _ _ => le_rfl) hdeposit
    · obtain ⟨rfl, rfl⟩ := Prod.mk.inj hresult
      obtain ⟨kept, rfl, hle⟩ := calculateBaseMintAmount_kept hmint
      exact hsupplied.trades hle hdeposit

/-- Adding liquidity is a trade with the meta pool. -/
theorem metaPoolAddLiquidity_trades {mp mp' : MetaPool AccountId CurrencyId}
    {minMintAmount minted : ℕ} (hne : who ≠ mp.info.account)
    (h : (metaPoolAddLiquidity who mp amounts minMintAmount to').run s = .ok (minted, mp') s') :
    (mp'.basePoolId = mp.basePoolId ∧ mp'.baseCurrencies = mp.baseCurrencies) ∧
      ∃ t, s' = { s with tokens := t } ∧ Trades mp.info mp'.info who to'
        (totalOf mp.info.currencyIds amounts) 0 0 minted s.tokens t := by
  simp only [metaPoolAddLiquidity, Call.run_bind_eq_ok, run_check_eq_ok, run_arithmetic_eq_ok,
    Call.run_get_eq_ok, Call.run_pure_eq_ok, Call.run_ite_eq_ok] at h
  obtain ⟨_, _, ⟨-, rfl⟩, _, _, ⟨rfl, rfl⟩, amp, _, ⟨-, rfl⟩, ⟨price, updated⟩, _, ⟨hprice, rfl⟩,
    h⟩ := h
  obtain ⟨hinfo, hid, hcurrencies⟩ := metaPoolUpdateVirtualPrice_info hprice
  rw [← hinfo] at hne ⊢
  rw [← hid, ← hcurrencies]
  obtain ⟨-, d₀, _, ⟨-, rfl⟩, newBalances, s₁, hin, d₁, _, ⟨-, rfl⟩, _, _, ⟨-, rfl⟩, h⟩ |
    ⟨-, d₀, _, ⟨-, rfl⟩, newBalances, s₁, hin, d₁, _, ⟨-, rfl⟩, _, _, ⟨-, rfl⟩, h⟩ := h
  all_goals
    have hsupplied := run_supplyMetaCurrencies hne hin
    obtain ⟨-, ⟨_, _⟩, _, ⟨hmint, rfl⟩, _, _, ⟨-, rfl⟩, _, _, hdeposit, hresult, rfl⟩ |
      ⟨-, _, _, ⟨rfl, rfl⟩, _, _, ⟨-, rfl⟩, _, _, hdeposit, hresult, rfl⟩ := h
    · obtain ⟨rfl, rfl⟩ := Prod.mk.inj hresult
      simp only [except_bind_eq_ok] at hmint
      obtain ⟨_, -, ⟨kept, left, charged⟩, hcharge, _, -, _, -, _, -, hmint⟩ := hmint
      obtain ⟨rfl, rfl⟩ := Prod.mk.inj (Except.ok.inj hmint)
      exact ⟨⟨rfl, rfl⟩, hsupplied.trades (chargeImbalances_le hcharge).2 hdeposit⟩
    · obtain ⟨rfl, rfl⟩ := Prod.mk.inj hresult
      exact ⟨⟨rfl, rfl⟩, hsupplied.trades (fun _ _ => le_rfl) hdeposit⟩

/-! ### Swaps -/

omit [DecidableEq AccountId] in
/-- The records after one amount came in and another one, with a fee, went out. -/
theorem totalOf_swap {kinds : List CurrencyId} {balances : List ℕ} {c d : CurrencyId}
    {balanceIn balanceOut dy fee : ℕ} (hc : kinds[i]? = some c) (hd : kinds[j]? = some d)
    (hin : balances[i]? = some balanceIn)
    (hout : (balances.set i (balanceIn + x))[j]? = some balanceOut)
    (hdy : dy ≤ balanceOut) (e : CurrencyId) :
    totalOf kinds ((balances.set i (balanceIn + x)).set j (balanceOut - dy - fee)) e +
      single d dy e ≤ totalOf kinds balances e + single c x e := by
  have hfirst := totalOf_set (c := e) (y := balanceIn + x) hc hin
  have hsecond := totalOf_set (c := e) (y := balanceOut - dy - fee) hd hout
  unfold single
  split_ifs at hfirst hsecond ⊢
  all_goals omega

/-- The trade of a swap, from what the account of the pool received. -/
theorem swap_trades {balances : List ℕ} {c d : CurrencyId} {dy : ℕ} {u : Unit} {t₁ t₂ : Tokens}
    (hin : held t₁ = held s.tokens + flow c pool.account x - flow c who x)
    (hout : (MultiCurrency.transfer d pool.account to' dy).run t₁ = .ok u t₂)
    (hbooks : ∀ e, totalOf pool.currencyIds balances e + single d dy e ≤
      pool.recorded e + single c x e) :
    Trades pool { pool with balances := balances } who to' (single c x) (single d dy) 0 0
      s.tokens t₂ := by
  refine ⟨rfl, rfl, rfl, ?_, hbooks⟩
  rw [(held_transfer hout).1, hin, parcel_single, parcel_single, parcel_single, parcel_single,
    flow_zero, flow_zero, sub_zero, add_zero]

/-- A swap is a trade with the base pool. -/
theorem basePoolSwap_trades {minAmount dy : ℕ} (hne : who ≠ pool.account)
    (h : (basePoolSwap who pool i j x minAmount to').run s = .ok (dy, pool') s') :
    minAmount ≤ dy ∧ ∃ c d t, pool.currencyIds[i]? = some c ∧ pool.currencyIds[j]? = some d ∧
      s' = { s with tokens := t } ∧
      Trades pool pool' who to' (single c x) (single d dy) 0 0 s.tokens t := by
  simp only [basePoolSwap, Call.run_bind_eq_ok, run_check_eq_ok, run_arithmetic_eq_ok,
    Call.run_get_eq_ok, Call.run_pure_eq_ok, except_bind_eq_ok, orNone_eq_ok, nth_eq_ok,
    checkedAdd_eq_some, checkedSub_eq_some, setNth_eq_ok, Call.run_mapError_eq_ok,
    Lens.run_zoom_eq_ok] at h
  obtain ⟨_, _, ⟨-, rfl⟩, c, _, ⟨hc, rfl⟩, received, s₁, hin, _, _, ⟨rfl, rfl⟩, ⟨out, adminFee⟩, _,
    ⟨-, rfl⟩, _, _, ⟨hmin, rfl⟩, balances, _, ⟨⟨fee, -, balanceIn, hbin, _, ⟨-, rfl⟩, _, ⟨-, rfl⟩,
      balanceOut, hbout, _, ⟨hle, rfl⟩, _, ⟨hfee, rfl⟩, -, rfl⟩, rfl⟩, d, _, ⟨hd, rfl⟩, _, _,
    ⟨t, hout, rfl⟩, hresult, rfl⟩ := h
  obtain ⟨rfl, t₁, rfl, hheld⟩ := held_doTransferIn hne hin
  obtain ⟨rfl, rfl⟩ := Prod.mk.inj hresult
  exact ⟨hmin, c, d, t, hc, hd, rfl, swap_trades hheld hout (totalOf_swap hc hd hbin hbout hle)⟩

/-- A swap is a trade with the meta pool. -/
theorem metaPoolSwap_trades {mp mp' : MetaPool AccountId CurrencyId} {minAmount dy : ℕ}
    (hne : who ≠ mp.info.account)
    (h : (metaPoolSwap who mp i j x minAmount to').run s = .ok (dy, mp') s') :
    (mp'.basePoolId = mp.basePoolId ∧ mp'.baseCurrencies = mp.baseCurrencies) ∧ minAmount ≤ dy ∧
      ∃ c d t, mp.info.currencyIds[i]? = some c ∧ mp.info.currencyIds[j]? = some d ∧
        s' = { s with tokens := t } ∧
        Trades mp.info mp'.info who to' (single c x) (single d dy) 0 0 s.tokens t := by
  simp only [metaPoolSwap, Call.run_bind_eq_ok, run_check_eq_ok, run_arithmetic_eq_ok,
    Call.run_get_eq_ok, Call.run_pure_eq_ok, except_bind_eq_ok, orNone_eq_ok, nth_eq_ok,
    checkedAdd_eq_some, checkedSub_eq_some, setNth_eq_ok, Call.run_mapError_eq_ok,
    Lens.run_zoom_eq_ok] at h
  obtain ⟨_, _, ⟨-, rfl⟩, c, _, ⟨hc, rfl⟩, received, s₁, hin, _, _, ⟨rfl, rfl⟩, ⟨price, updated⟩, _,
    ⟨hprice, rfl⟩, ⟨out, dyFee⟩, _, ⟨-, rfl⟩, _, _, ⟨hmin, rfl⟩, balances, _, ⟨⟨_, -, _, -, fee, -,
      balanceIn, hbin, _, ⟨-, rfl⟩, _, ⟨-, rfl⟩, balanceOut, hbout, _, ⟨hle, rfl⟩, _, ⟨hfee, rfl⟩,
      -, rfl⟩, rfl⟩, d, _, ⟨hd, rfl⟩, _, _, ⟨t, hout, rfl⟩, hresult, rfl⟩ := h
  obtain ⟨rfl, t₁, rfl, hheld⟩ := held_doTransferIn hne hin
  obtain ⟨rfl, rfl⟩ := Prod.mk.inj hresult
  obtain ⟨hinfo, hid, hcurrencies⟩ := metaPoolUpdateVirtualPrice_info hprice
  rw [hinfo] at hd hbin hbout hout
  refine ⟨⟨hid, hcurrencies⟩, hmin, c, d, t, hc, hd, rfl, ?_⟩
  simp only [hinfo]
  exact swap_trades hheld hout (totalOf_swap hc hd hbin hbout hle)

/-! ### Removed liquidity -/

/-- Paying one of the tokens is a trade with the pool. -/
theorem payOneCurrency_trades {lpAmount minAmount dy dyFee paid : ℕ}
    (h : (payOneCurrency pool who lpAmount i minAmount to' dy dyFee).run s = .ok (paid, pool') s') :
    minAmount ≤ paid ∧ paid = dy ∧ ∃ d t, pool.currencyIds[i]? = some d ∧
      s' = { s with tokens := t } ∧
      Trades pool pool' who to' 0 (single d paid) lpAmount 0 s.tokens t := by
  simp only [payOneCurrency, Call.run_bind_eq_ok, run_check_eq_ok, run_arithmetic_eq_ok,
    Call.run_pure_eq_ok, except_bind_eq_ok, orNone_eq_ok, nth_eq_ok, checkedSub_eq_some,
    setNth_eq_ok, run_liftTokens_eq_ok, Option.bind_eq_some_iff, checkedAdd_eq_some,
    tryInto_eq_some] at h
  obtain ⟨_, _, ⟨hmin, rfl⟩, balances, _, ⟨⟨fee, -, _, ⟨_, ⟨-, rfl⟩, -, rfl⟩, balance, hbalance, _,
    ⟨hle, rfl⟩, -, rfl⟩, rfl⟩, _, _, ⟨t₁, hburn, rfl⟩, d, _, ⟨hd, rfl⟩, _, _, ⟨t₂, hout, rfl⟩,
    hresult, rfl⟩ := h
  obtain ⟨rfl, rfl⟩ := Prod.mk.inj hresult
  refine ⟨hmin, rfl, d, t₂, hd, rfl, rfl, rfl, rfl, ?_, fun c => ?_⟩
  · rw [(held_transfer hout).1, (held_withdraw hburn).1, parcel_zero, parcel_zero, parcel_single,
      parcel_single, flow_zero, add_zero, sub_zero, add_zero]
    abel
  · have hset := totalOf_set (c := c) (y := balance - (fee + dy)) hd hbalance
    change totalOf pool.currencyIds (pool.balances.set i (balance - (fee + dy))) c +
      single d dy c ≤ totalOf pool.currencyIds pool.balances c + 0
    unfold single
    split_ifs at hset ⊢
    all_goals omega

/-- The amounts are paid one after the other. -/
theorem payImbalance_trades {totalSupply burnAmount maxBurnAmount : ℕ} {kept : List ℕ} {u : Unit}
    (hlen : amounts.length = pool.currencyIds.length)
    (hkept : ∀ i < pool.currencyIds.length,
      kept.getD i 0 + amounts.getD i 0 ≤ pool.balances.getD i 0)
    (h : (payImbalance who { pool with balances := kept } amounts totalSupply burnAmount
      maxBurnAmount to').run s = .ok u s') :
    ∃ burned t, s' = { s with tokens := t } ∧ Trades pool { pool with balances := kept } who to' 0
      (totalOf pool.currencyIds amounts) burned 0 s.tokens t := by
  simp only [payImbalance, Call.run_bind_eq_ok, run_check_eq_ok, run_arithmetic_eq_ok,
    orNone_eq_ok, run_liftTokens_eq_ok, checkedAdd_eq_some, Call.run_pure_eq_ok] at h
  obtain ⟨_, _, ⟨-, rfl⟩, _, _, ⟨⟨-, rfl⟩, rfl⟩, _, _, ⟨-, rfl⟩, _, _, ⟨t₁, hburn, rfl⟩, _, _, hpay,
    _, _, ⟨-, rfl⟩, -, rfl⟩ := h
  have hpaid := Call.run_forM_eq_ok
    (I := fun i s' => ∃ t, s' = { s with tokens := t } ∧
      held t = held t₁ + parcel to' (firstOf pool.currencyIds amounts i) -
        parcel pool.account (firstOf pool.currencyIds amounts i))
    (fun i x s₁ u s₂ hx hI hrun => ?_) ⟨t₁, rfl, ?_⟩ (List.length_zipIdx.trans hlen) hpay
  · obtain ⟨t, rfl, hheld⟩ := hpaid
    refine ⟨burnAmount + 1, t, rfl, rfl, rfl, rfl, ?_, fun c => totalOf_add_le hkept⟩
    rw [hheld, (held_withdraw hburn).1, parcel_zero, parcel_zero, flow_zero, sub_zero, add_zero,
      add_zero, firstOf_eq_totalOf le_rfl]
    abel
  · rw [List.getElem?_zipIdx, Nat.zero_add, Option.map_eq_some_iff] at hx
    obtain ⟨x, hx, rfl⟩ := hx
    obtain ⟨t, rfl, hheld⟩ := hI
    have hget : amounts.getD i 0 = x := by
      rw [List.getD_eq_getElem?_getD, hx, Option.getD_some]
    simp only [Call.run_ite_eq_ok, Call.run_bind_eq_ok, run_arithmetic_eq_ok, nth_eq_ok,
      run_liftTokens_eq_ok, Call.run_pure_eq_ok] at hrun
    obtain ⟨-, d, _, ⟨hd, rfl⟩, t', hout, rfl⟩ | ⟨hzero, -, rfl⟩ := hrun
    · refine ⟨t', rfl, ?_⟩
      rw [firstOf_succ_eq hd, hget, parcel_add, parcel_add, parcel_single, parcel_single,
        (held_transfer hout).1, hheld]
      abel
    · rw [firstOf_succ_of_eq_zero (hget.trans (Nat.eq_zero_of_not_pos hzero))]
      exact ⟨t, rfl, hheld⟩
  · change held t₁ = held t₁ + parcel to' 0 - parcel pool.account 0
    rw [parcel_zero, parcel_zero, add_zero, sub_zero]

/-- Removing given amounts is a trade with the base pool. -/
theorem basePoolRemoveLiquidityImbalance_trades {maxBurnAmount : ℕ}
    (h : (basePoolRemoveLiquidityImbalance who pool amounts maxBurnAmount to').run s =
      .ok pool' s') :
    ∃ burned t, s' = { s with tokens := t } ∧
      Trades pool pool' who to' 0 (totalOf pool.currencyIds amounts) burned 0 s.tokens t := by
  simp only [basePoolRemoveLiquidityImbalance, calculateBaseRemoveLiquidityImbalance,
    Call.run_bind_eq_ok, run_check_eq_ok, run_arithmetic_eq_ok, Call.run_get_eq_ok,
    Call.run_pure_eq_ok, except_bind_eq_ok] at h
  obtain ⟨_, _, ⟨rfl, rfl⟩, _, _, ⟨-, rfl⟩, _, _, ⟨hlen, rfl⟩, ⟨burnAmount, fees, changed⟩, _,
    ⟨⟨_, -, _, -, _, -, rest, hrest, _, -, ⟨kept, left, charged⟩, hcharge, _, -, _, -, _, -,
      hresult⟩, rfl⟩, _, _, hpay, rfl, rfl⟩ := h
  simp only [Except.ok.injEq, Prod.mk.injEq] at hresult
  obtain ⟨-, -, rfl⟩ := hresult
  exact payImbalance_trades hlen (kept_add_le hrest hcharge) hpay

/-- Removing given amounts is a trade with the meta pool. -/
theorem metaPoolRemoveLiquidityImbalance_trades {mp mp' : MetaPool AccountId CurrencyId}
    {maxBurnAmount : ℕ}
    (h : (metaPoolRemoveLiquidityImbalance who mp amounts maxBurnAmount to').run s =
      .ok mp' s') :
    (mp'.basePoolId = mp.basePoolId ∧ mp'.baseCurrencies = mp.baseCurrencies) ∧
      ∃ burned t, s' = { s with tokens := t } ∧ Trades mp.info mp'.info who to' 0
        (totalOf mp.info.currencyIds amounts) burned 0 s.tokens t := by
  simp only [metaPoolRemoveLiquidityImbalance, calculateMetaRemoveLiquidityImbalance,
    Call.run_bind_eq_ok, run_check_eq_ok, run_arithmetic_eq_ok, Call.run_get_eq_ok,
    Call.run_pure_eq_ok, except_bind_eq_ok] at h
  obtain ⟨_, _, ⟨rfl, rfl⟩, _, _, ⟨-, rfl⟩, _, _, ⟨hlen, rfl⟩, ⟨price, updated⟩, _, ⟨hprice, rfl⟩,
    ⟨burnAmount, fees, changed⟩, _,
    ⟨⟨_, -, _, -, _, -, rest, hrest, _, -, ⟨kept, left, charged⟩, hcharge, _, -, _, -, _, -,
      hresult⟩, rfl⟩, _, _, hpay, rfl, rfl⟩ := h
  simp only [Except.ok.injEq, Prod.mk.injEq] at hresult
  obtain ⟨-, -, rfl⟩ := hresult
  obtain ⟨hinfo, hid, hcurrencies⟩ := metaPoolUpdateVirtualPrice_info hprice
  rw [← hinfo] at hlen ⊢
  exact ⟨⟨hid, hcurrencies⟩, payImbalance_trades hlen (kept_add_le hrest hcharge) hpay⟩

/-- Removing one of the tokens is a trade with the base pool. -/
theorem basePoolRemoveLiquidityOneCurrency_trades {lpAmount minAmount paid : ℕ}
    (h : (basePoolRemoveLiquidityOneCurrency pool who lpAmount i minAmount to').run s =
      .ok (paid, pool') s') :
    minAmount ≤ paid ∧ ∃ d t, pool.currencyIds[i]? = some d ∧ s' = { s with tokens := t } ∧
      Trades pool pool' who to' 0 (single d paid) lpAmount 0 s.tokens t := by
  simp only [basePoolRemoveLiquidityOneCurrency, Call.run_bind_eq_ok, run_check_eq_ok,
    run_arithmetic_eq_ok, Call.run_get_eq_ok] at h
  obtain ⟨_, _, ⟨rfl, rfl⟩, _, _, ⟨-, rfl⟩, _, _, ⟨-, rfl⟩, _, _, ⟨-, rfl⟩, _, _, ⟨-, rfl⟩, hpay⟩ :=
    h
  obtain ⟨hmin, -, hpaid⟩ := payOneCurrency_trades hpay
  exact ⟨hmin, hpaid⟩

/-- Removing one of the tokens is a trade with the meta pool. -/
theorem metaPoolRemoveLiquidityOneCurrency_trades {mp mp' : MetaPool AccountId CurrencyId}
    {lpAmount minAmount paid : ℕ}
    (h : (metaPoolRemoveLiquidityOneCurrency mp who lpAmount i minAmount to').run s =
      .ok (paid, mp') s') :
    (mp'.basePoolId = mp.basePoolId ∧ mp'.baseCurrencies = mp.baseCurrencies) ∧
      minAmount ≤ paid ∧ ∃ d t, mp.info.currencyIds[i]? = some d ∧ s' = { s with tokens := t } ∧
        Trades mp.info mp'.info who to' 0 (single d paid) lpAmount 0 s.tokens t := by
  simp only [metaPoolRemoveLiquidityOneCurrency, Call.run_bind_eq_ok, run_check_eq_ok,
    run_arithmetic_eq_ok, Call.run_get_eq_ok, Call.run_pure_eq_ok] at h
  obtain ⟨_, _, ⟨rfl, rfl⟩, _, _, ⟨-, rfl⟩, _, _, ⟨-, rfl⟩, ⟨price, updated⟩, _, ⟨hprice, rfl⟩,
    ⟨_, _⟩, _, ⟨-, rfl⟩, ⟨out, info⟩, _, hpay, hresult, rfl⟩ := h
  obtain ⟨rfl, rfl⟩ := Prod.mk.inj hresult
  obtain ⟨hinfo, hid, hcurrencies⟩ := metaPoolUpdateVirtualPrice_info hprice
  rw [← hinfo]
  obtain ⟨hmin, -, hpaid⟩ := payOneCurrency_trades hpay
  exact ⟨⟨hid, hcurrencies⟩, hmin, hpaid⟩

/-- The amounts are taken from the balances as they are paid. -/
theorem run_payAmounts {minAmounts balances : List ℕ}
    (h : (payAmounts pool amounts minAmounts to').run s = .ok balances s') :
    ∃ outs t, s' = { s with tokens := t } ∧
      held t = held s.tokens + parcel to' outs - parcel pool.account outs ∧
      ∀ c, totalOf pool.currencyIds balances c + outs c = pool.recorded c := by
  refine Call.run_foldlM_eq_ok
    (I := fun _ b s' => ∃ outs t, s' = { s with tokens := t } ∧
      held t = held s.tokens + parcel to' outs - parcel pool.account outs ∧
      ∀ c, totalOf pool.currencyIds b c + outs c = pool.recorded c)
    (fun i x b s₁ b' s₂ hx hI hrun => ?_) ⟨0, s.tokens, rfl, ?_, fun _ => rfl⟩ rfl h
  · rw [List.getElem?_zipIdx, Nat.zero_add, Option.map_eq_some_iff] at hx
    obtain ⟨x, hx, rfl⟩ := hx
    obtain ⟨outs, t, rfl, hheld, hbooks⟩ := hI
    simp only [Call.run_bind_eq_ok, run_arithmetic_eq_ok, run_check_eq_ok, nth_eq_ok, orNone_eq_ok,
      checkedSub_eq_some, setNth_eq_ok, run_liftTokens_eq_ok, Call.run_pure_eq_ok] at hrun
    obtain ⟨_, _, ⟨-, rfl⟩, _, _, ⟨-, rfl⟩, balance, _, ⟨hb, rfl⟩, _, _, ⟨⟨hle, rfl⟩, rfl⟩, _, _,
      ⟨⟨-, rfl⟩, rfl⟩, d, _, ⟨hd, rfl⟩, _, _, ⟨t', hout, rfl⟩, rfl, rfl⟩ := hrun
    refine ⟨outs + single d x, t', rfl, ?_, fun c => ?_⟩
    · rw [(held_transfer hout).1, hheld, parcel_add, parcel_add, parcel_single, parcel_single]
      abel
    · have hset := totalOf_set (c := c) (y := balance - x) hd hb
      have hold := hbooks c
      rw [Pi.add_apply, single]
      split_ifs at hset ⊢
      all_goals omega
  · rw [parcel_zero, parcel_zero, add_zero, sub_zero]

end DexStable

end Interbtc
