import Interbtc.DexStable.Custody

/-!
# Pools are backed

Over every run, the account of a pool holds at least what the pool records of each of its
currencies. Only the withdrawal of the fees makes a surplus smaller, and it takes no more than the
surplus.
-/

namespace Interbtc

/-- New pools have different currencies. -/
def StableOp.Distinct {AccountId CurrencyId : Type} : StableOp AccountId CurrencyId → Prop
  | .createBasePool currencyIds _ _ _ _ _ _ => currencyIds.Nodup
  | .createMetaPool currencyIds _ _ _ _ _ _ => currencyIds.Nodup
  | _ => True

namespace DexStable

open Core DexStable MultiCurrency WithdrawableCurrency

variable {AccountId CurrencyId Tokens : Type} [DecidableEq AccountId] [DecidableEq CurrencyId]
  [WithdrawableCurrency Tokens AccountId CurrencyId] [DexStableConfig AccountId CurrencyId]
  [LawfulWithdrawableCurrency Tokens] {s s' : DexStable AccountId CurrencyId Tokens} {poolId : ℕ}
  {origin : StableOrigin AccountId}

/-- The accounts of the pools hold what the pools record. -/
def Backed (s : DexStable AccountId CurrencyId Tokens) : Prop :=
  ∀ id pool, s.pools id = some pool → ∀ c ∈ pool.info.currencyIds,
    pool.info.recorded c ≤ (balances s.tokens pool.info.account c).free

section

omit [DecidableEq AccountId] [DexStableConfig AccountId CurrencyId]
  [LawfulWithdrawableCurrency Tokens]

private theorem surplus_nonneg {t : Tokens} {pool : StablePool AccountId CurrencyId}
    {c : CurrencyId} :
    0 ≤ surplus t pool c ↔ pool.info.recorded c ≤ (balances t pool.info.account c).free := by
  rw [surplus, held, sub_nonneg, Nat.cast_le]

private theorem Serves.backed (h : Serves s s') (hs : Backed s) : Backed s' := by
  intro id pool' hpool' c hc
  obtain ⟨pool, hpool, hframe⟩ := h.frames.pool_before hpool'
  have hcurrencies : pool'.info.currencyIds = pool.info.currencyIds :=
    congrArg PoolFrame.currencyIds hframe
  rw [hcurrencies] at hc
  have hbefore := surplus_nonneg.mpr (hs id pool hpool c hc)
  exact surplus_nonneg.mp (hbefore.trans (h.enriches id pool pool' hpool hpool' c))

end

/-! ## Parameters -/

omit [DecidableEq AccountId] [DexStableConfig AccountId CurrencyId]
  [LawfulWithdrawableCurrency Tokens] in
/-- A change of other parameters than the currencies and the balances. -/
theorem mutateInfo_serves {f : BasePool AccountId CurrencyId →
      StableCall AccountId CurrencyId Tokens (BasePool AccountId CurrencyId)} {u : Unit}
    (hf : ∀ pool info s₁, (f pool).run s = .ok info s₁ → s = s₁ ∧
      info.currencyIds = pool.currencyIds ∧ info.lpCurrencyId = pool.lpCurrencyId ∧
      info.account = pool.account ∧ info.balances = pool.balances)
    (h : (mutateInfo poolId f).run s = .ok u s') : Serves s s' := by
  obtain ⟨pool, pool', s₁, hpool, hrun, rfl⟩ := run_mutatePool h
  simp only [Call.run_bind_eq_ok, Call.run_pure_eq_ok, Prod.mk.injEq] at hrun
  obtain ⟨info, _, hinfo, ⟨-, rfl⟩, rfl⟩ := hrun
  obtain ⟨rfl, hcurrencies, hlp, haccount, hbalances⟩ := hf pool.info info _ hinfo
  have hframe : (pool.mapInfo fun _ => info).frame = pool.frame := by
    cases pool with
    | base bp =>
      simp only [StablePool.mapInfo, StablePool.frame, StablePool.info, StablePool.base?,
        hcurrencies, hlp, haccount]
    | metaPool mp =>
      simp only [StablePool.mapInfo, StablePool.frame, StablePool.info, StablePool.base?,
        hcurrencies, hlp, haccount]
  refine ⟨⟨fun id => ?_, rfl, rfl⟩, fun id p p' hp hp' c => ?_⟩
  · change (Function.update s.pools poolId _ id).map _ = _
    rcases eq_or_ne id poolId with rfl | hid
    · rw [Function.update_self, hpool, Option.map_some, Option.map_some, hframe]
    · rw [Function.update_of_ne hid]
  · change Function.update s.pools poolId _ id = _ at hp'
    rcases eq_or_ne id poolId with rfl | hid
    · rw [Function.update_self] at hp'
      cases hp'
      cases hpool.symm.trans hp
      simp only [surplus, StablePool.info_mapInfo, BasePool.recorded, hcurrencies, haccount,
        hbalances, le_refl]
    · rw [Function.update_of_ne hid] at hp'
      cases hp.symm.trans hp'
      exact le_rfl

section

omit [DecidableEq AccountId] [DecidableEq CurrencyId]
  [WithdrawableCurrency Tokens AccountId CurrencyId] [DexStableConfig AccountId CurrencyId]
  [LawfulWithdrawableCurrency Tokens]

private theorem run_ensureRoot_eq_ok {u : Unit} :
    (ensureRoot origin : StableCall AccountId CurrencyId Tokens Unit).run s = .ok u s' ↔
      origin = .root ∧ s = s' := by
  cases origin with
  | root => simp only [ensureRoot, Call.run_pure_eq_ok, true_and]
  | signed who => simp only [ensureRoot, Call.run_throw_eq_ok, reduceCtorEq, false_and]

private theorem run_ensureSigned_eq_ok {who : AccountId} :
    (ensureSigned origin : StableCall AccountId CurrencyId Tokens AccountId).run s = .ok who s' ↔
      origin = .signed who ∧ s = s' := by
  cases origin with
  | root => simp only [ensureSigned, Call.run_throw_eq_ok, reduceCtorEq, false_and]
  | signed who' =>
    simp only [ensureSigned, Call.run_pure_eq_ok, StableOrigin.signed.injEq]

end

section

omit [DecidableEq AccountId] [DexStableConfig AccountId CurrencyId]
  [LawfulWithdrawableCurrency Tokens]

private theorem updateFeeReceiver_serves {feeReceiver : AccountId} {u : Unit}
    (h : (updateFeeReceiver origin poolId feeReceiver).run s = .ok u s') : Serves s s' := by
  obtain ⟨_, _, hroot, h⟩ := Call.run_bind_eq_ok.mp h
  obtain ⟨-, rfl⟩ := run_ensureRoot_eq_ok.mp hroot
  refine mutateInfo_serves (fun pool info s₁ hrun => ?_) h
  obtain ⟨rfl, rfl⟩ := Call.run_pure_eq_ok.mp hrun
  exact ⟨rfl, rfl, rfl, rfl, rfl⟩

private theorem setSwapFee_serves {newSwapFee : ℕ} {u : Unit}
    (h : (setSwapFee origin poolId newSwapFee).run s = .ok u s') : Serves s s' := by
  obtain ⟨_, _, hroot, h⟩ := Call.run_bind_eq_ok.mp h
  obtain ⟨-, rfl⟩ := run_ensureRoot_eq_ok.mp hroot
  refine mutateInfo_serves (fun pool info s₁ hrun => ?_) h
  simp only [Call.run_bind_eq_ok, run_check_eq_ok, Call.run_pure_eq_ok] at hrun
  obtain ⟨_, _, ⟨-, rfl⟩, rfl, rfl⟩ := hrun
  exact ⟨rfl, rfl, rfl, rfl, rfl⟩

private theorem setAdminFee_serves {newAdminFee : ℕ} {u : Unit}
    (h : (setAdminFee origin poolId newAdminFee).run s = .ok u s') : Serves s s' := by
  obtain ⟨_, _, hroot, h⟩ := Call.run_bind_eq_ok.mp h
  obtain ⟨-, rfl⟩ := run_ensureRoot_eq_ok.mp hroot
  refine mutateInfo_serves (fun pool info s₁ hrun => ?_) h
  simp only [Call.run_bind_eq_ok, run_check_eq_ok, Call.run_pure_eq_ok] at hrun
  obtain ⟨_, _, ⟨-, rfl⟩, rfl, rfl⟩ := hrun
  exact ⟨rfl, rfl, rfl, rfl, rfl⟩

private theorem rampA_serves {futureA futureATime : ℕ} {u : Unit}
    (h : (rampA origin poolId futureA futureATime).run s = .ok u s') : Serves s s' := by
  simp only [rampA, Call.run_bind_eq_ok, run_ensureRoot_eq_ok, Call.run_get_eq_ok] at h
  obtain ⟨_, _, ⟨-, rfl⟩, _, _, ⟨rfl, rfl⟩, h⟩ := h
  refine mutateInfo_serves (fun pool info s₁ hrun => ?_) h
  simp only [Call.run_bind_eq_ok, run_arithmetic_eq_ok, run_check_eq_ok, Call.run_pure_eq_ok,
    Call.run_ite_eq_ok] at hrun
  obtain ⟨_, _, ⟨-, rfl⟩, _, _, ⟨-, rfl⟩, _, _, ⟨-, rfl⟩, _, _, ⟨-, rfl⟩, _, _, ⟨-, rfl⟩, _, _,
    ⟨-, rfl⟩, _, _, ⟨-, rfl⟩, ⟨-, _, _, ⟨-, rfl⟩, _, _, ⟨-, rfl⟩, rfl, rfl⟩ |
    ⟨-, _, _, ⟨-, rfl⟩, _, _, ⟨-, rfl⟩, rfl, rfl⟩⟩ := hrun
  · exact ⟨rfl, rfl, rfl, rfl, rfl⟩
  · exact ⟨rfl, rfl, rfl, rfl, rfl⟩

private theorem stopRampA_serves {u : Unit} (h : (stopRampA origin poolId).run s = .ok u s') :
    Serves s s' := by
  simp only [stopRampA, Call.run_bind_eq_ok, run_ensureRoot_eq_ok, Call.run_get_eq_ok] at h
  obtain ⟨_, _, ⟨-, rfl⟩, _, _, ⟨rfl, rfl⟩, h⟩ := h
  refine mutateInfo_serves (fun pool info s₁ hrun => ?_) h
  simp only [Call.run_bind_eq_ok, run_arithmetic_eq_ok, run_check_eq_ok,
    Call.run_pure_eq_ok] at hrun
  obtain ⟨_, _, ⟨-, rfl⟩, _, _, ⟨-, rfl⟩, rfl, rfl⟩ := hrun
  exact ⟨rfl, rfl, rfl, rfl, rfl⟩

end

/-! ## The withdrawal of fees -/

/-- Each currency is paid down to its record. -/
theorem withdrawAdminFee_backed {u : Unit} (hs : Built s)
    (h : (withdrawAdminFee origin poolId).run s = .ok u s') :
    SameFrames s s' ∧ (Backed s → Backed s') := by
  simp only [withdrawAdminFee, Call.run_bind_eq_ok, run_ensureSigned_eq_ok] at h
  obtain ⟨who, _, ⟨-, rfl⟩, h⟩ := h
  obtain ⟨pool, pool', s₁, hpool, hrun, rfl⟩ := run_mutatePool h
  simp only [Call.run_bind_eq_ok, Call.run_pure_eq_ok, Prod.mk.injEq] at hrun
  obtain ⟨_, _, ⟨_, _, hloop, rfl, rfl⟩, ⟨-, rfl⟩, rfl⟩ := hrun
  have hnodup := hs.distinct poolId pool hpool
  have hpaid := Call.run_forM_eq_ok
    (I := fun _ s' => ∃ t, s' = { s with tokens := t } ∧
      (Backed s → ∀ c ∈ pool.info.currencyIds,
        pool.info.recorded c ≤ (balances t pool.info.account c).free) ∧
      ∀ w, w ≠ pool.info.account → ∀ c, held s.tokens c w ≤ held t c w)
    (fun i reserve s₁ u s₂ hreserve hI hround => ?_)
    ⟨s.tokens, rfl, fun hbacked => hbacked poolId pool hpool, fun _ _ _ => le_rfl⟩ rfl hloop
  · obtain ⟨t, rfl, hown, hothers⟩ := hpaid
    have hsame : (pool.mapInfo fun _ => pool.info) = pool := by
      cases pool with
      | base bp => rfl
      | metaPool mp => rfl
    rw [hsame]
    have hpools : Function.update s.pools poolId (some pool) = s.pools := by
      rw [← hpool]
      exact Function.update_eq_self _ _
    refine ⟨⟨fun id => ?_, rfl, rfl⟩, fun hbacked id p hp c hc => ?_⟩
    · change (Function.update s.pools poolId (some pool) id).map _ = _
      rw [hpools]
    · change Function.update s.pools poolId (some pool) id = some p at hp
      rw [hpools] at hp
      rcases eq_or_ne id poolId with rfl | hid
      · cases hpool.symm.trans hp
        exact hown hbacked c hc
      · have hother : p.info.account ≠ pool.info.account := by
          rw [hs.account id p hp]
          exact hs.account_ne hpool hid.symm
        have hle := hothers p.info.account hother c
        simp only [held, Nat.cast_le] at hle
        exact (hbacked id p hp c hc).trans hle
  · rw [List.getElem?_zipIdx, Nat.zero_add, Option.map_eq_some_iff] at hreserve
    obtain ⟨balance, hbalance, rfl⟩ := hreserve
    obtain ⟨t, rfl, hown, hothers⟩ := hI
    simp only [Call.run_bind_eq_ok, run_arithmetic_eq_ok, nth_eq_ok, orNone_eq_ok,
      checkedSub_eq_some, Call.run_get_eq_ok, Call.run_ite_eq_ok, Call.run_pure_eq_ok,
      run_liftTokens_eq_ok] at hround
    obtain ⟨c, _, ⟨hc, rfl⟩, _, _, ⟨rfl, rfl⟩, _, _, ⟨⟨hle, rfl⟩, rfl⟩, ⟨-, t', hpay, rfl⟩ |
      ⟨-, -, rfl⟩⟩ := hround
    · have hheld : held t' = held t +
          flow c pool.info.adminFeeReceiver
            (freeBalance { s with tokens := t } c pool.info.account - balance) -
          flow c pool.info.account
            (freeBalance { s with tokens := t } c pool.info.account - balance) :=
        (held_transfer hpay).1
      refine ⟨t', rfl, fun hbacked d hd => ?_, fun w hw d => (hothers w hw d).trans
        (held_le_of_flow hheld hw d)⟩
      have hin : 0 ≤ flow c pool.info.adminFeeReceiver
          (freeBalance { s with tokens := t } c pool.info.account - balance) d pool.info.account :=
        flow_nonneg
      have hmoved := congrFun (congrFun hheld d) pool.info.account
      rw [Pi.sub_apply, Pi.sub_apply, Pi.add_apply, Pi.add_apply,
        flow_at pool.info.account] at hmoved
      rw [← Nat.cast_le (α := ℤ)]
      change _ ≤ held t' d pool.info.account
      have hbefore : (pool.info.recorded d : ℤ) ≤ held t d pool.info.account :=
        Nat.cast_le.mpr (hown hbacked d hd)
      have hfree : held t c pool.info.account =
          freeBalance { s with tokens := t } c pool.info.account := rfl
      split at hmoved
      · subst d
        -- the record of the currency is this one balance
        have hrecord : pool.info.recorded c = balance := by
          rw [BasePool.recorded, totalOf_of_nodup hnodup hc, List.getD_eq_getElem?_getD, hbalance,
            Option.getD_some]
        omega
      · omega
    · exact ⟨t, rfl, hown, hothers⟩

/-! ## New pools -/

omit [DecidableEq AccountId] [DecidableEq CurrencyId]
  [WithdrawableCurrency Tokens AccountId CurrencyId] [LawfulWithdrawableCurrency Tokens] in
private theorem run_innerCreateBasePool {currencyIds : List CurrencyId} {decimals : List ℕ}
    {a fee adminFee id : ℕ} {receiver : AccountId} {symbol : List UInt8}
    {pool : BasePool AccountId CurrencyId}
    (h : (innerCreateBasePool currencyIds decimals a fee adminFee receiver symbol).run s =
      .ok (pool, id) s') :
    s = s' ∧ id = s.nextPoolId ∧ pool.currencyIds = currencyIds ∧
      pool.account = DexStableConfig.poolAccountId CurrencyId id ∧
      pool.balances = List.replicate currencyIds.length 0 := by
  simp only [innerCreateBasePool, Call.run_bind_eq_ok, run_check_eq_ok, run_arithmetic_eq_ok,
    Call.run_get_eq_ok, Call.run_pure_eq_ok, Call.run_ofExcept_eq_ok, Prod.mk.injEq] at h
  obtain ⟨_, _, ⟨-, rfl⟩, _, _, ⟨-, rfl⟩, _, _, ⟨-, rfl⟩, _, _, ⟨-, rfl⟩, _, _, ⟨-, rfl⟩, _, _,
    ⟨-, rfl⟩, _, _, ⟨-, rfl⟩, _, _, ⟨rfl, rfl⟩, _, _, ⟨-, rfl⟩, _, _, ⟨-, rfl⟩, _, _, ⟨-, rfl⟩, _,
    _, ⟨-, rfl⟩, ⟨rfl, rfl⟩, rfl⟩ := h
  exact ⟨rfl, rfl, rfl, rfl, rfl⟩

omit [DecidableEq AccountId] [WithdrawableCurrency Tokens AccountId CurrencyId]
  [DexStableConfig AccountId CurrencyId] [LawfulWithdrawableCurrency Tokens] in
private theorem run_insertPool {pool : StablePool AccountId CurrencyId} {u : Unit}
    (h : (insertPool pool poolId).run s = .ok u s') :
    s.pools poolId = none ∧ s' = { s with
      lpCurrencies := Function.update s.lpCurrencies pool.getLpCurrency (some poolId)
      nextPoolId := s.nextPoolId + 1
      pools := Function.update s.pools poolId (some pool) } := by
  simp only [insertPool, Call.run_bind_eq_ok, Call.run_modify_eq_ok, Call.run_get_eq_ok,
    run_arithmetic_eq_ok, orNone_eq_ok, checkedAdd_eq_some, run_check_eq_ok] at h
  obtain ⟨_, _, rfl, _, _, ⟨rfl, rfl⟩, _, _, ⟨⟨-, rfl⟩, rfl⟩, _, _, rfl, _, _, ⟨rfl, rfl⟩, _, _,
    ⟨hnone, rfl⟩, rfl⟩ := h
  exact ⟨hnone, rfl⟩

omit [DecidableEq AccountId] [LawfulWithdrawableCurrency Tokens] in
/-- A new pool, with nothing recorded, is stored beside the others. -/
theorem insertPool_built {pool : StablePool AccountId CurrencyId} {n : ℕ} {u : Unit}
    (hs : Built s) (h : (insertPool pool poolId).run s = .ok u s') (hid : poolId = s.nextPoolId)
    (haccount : pool.info.account = DexStableConfig.poolAccountId CurrencyId poolId)
    (hbalances : pool.info.balances = List.replicate n 0) (hnodup : pool.info.currencyIds.Nodup)
    (hbase : ∀ b cs, pool.base? = some (b, cs) → ∃ base, s.pools b = some base ∧
      base.info.currencyIds = cs ∧
      pool.info.currencyIds.getLast? = some base.info.lpCurrencyId) :
    Built s' ∧ (∀ id, Enriches s s' id) ∧ (Backed s → Backed s') := by
  obtain ⟨hnone, rfl⟩ := run_insertPool h
  have hold {id : ℕ} {p : StablePool AccountId CurrencyId}
      (hp : Function.update s.pools poolId (some pool) id = some p) :
      id = poolId ∧ p = pool ∨ id ≠ poolId ∧ s.pools id = some p := by
    rcases eq_or_ne id poolId with rfl | hne
    · rw [Function.update_self] at hp
      exact .inl ⟨rfl, (Option.some.inj hp).symm⟩
    · rw [Function.update_of_ne hne] at hp
      exact .inr ⟨hne, hp⟩
  have hkept {id : ℕ} {p : StablePool AccountId CurrencyId} (hp : s.pools id = some p) :
      Function.update s.pools poolId (some pool) id = some p := by
    rw [Function.update_of_ne, hp]
    rintro rfl
    rw [hnone] at hp
    cases hp
  refine ⟨⟨fun id p hp => ?_, fun c id hc => ?_, fun id p hp => ?_, fun id p b cs hp hb => ?_,
    fun id p hp => ?_⟩, fun id p p' hp hp' c => ?_, fun hbacked id p hp c hc => ?_⟩
  · obtain ⟨rfl, rfl⟩ | ⟨-, hp⟩ := hold hp
    · exact haccount
    · exact hs.account id p hp
  · change Function.update s.lpCurrencies pool.getLpCurrency (some poolId) c = some id at hc
    rcases eq_or_ne c pool.getLpCurrency with rfl | hne
    · rw [Function.update_self] at hc
      cases hc
      exact ⟨pool, Function.update_self _ _ _, rfl⟩
    · rw [Function.update_of_ne hne] at hc
      obtain ⟨p, hp, hlp⟩ := hs.lpCurrencies c id hc
      exact ⟨p, hkept hp, hlp⟩
  · change id < s.nextPoolId + 1
    obtain ⟨rfl, rfl⟩ | ⟨-, hp⟩ := hold hp
    · omega
    · exact Nat.lt_succ_of_lt (hs.below id p hp)
  · obtain ⟨rfl, rfl⟩ | ⟨-, hp⟩ := hold hp
    · obtain ⟨base, hstored, hcurrencies, hlast⟩ := hbase b cs hb
      exact ⟨(hs.below b base hstored).trans_eq hid.symm, base, hkept hstored, hcurrencies, hlast⟩
    · obtain ⟨hlt, base, hstored, hcurrencies, hlast⟩ := hs.base id p b cs hp hb
      exact ⟨hlt, base, hkept hstored, hcurrencies, hlast⟩
  · obtain ⟨rfl, rfl⟩ | ⟨-, hp⟩ := hold hp
    · exact hnodup
    · exact hs.distinct id p hp
  · cases (hkept hp).symm.trans hp'
    exact le_rfl
  · obtain ⟨rfl, rfl⟩ | ⟨-, hp⟩ := hold hp
    · rw [BasePool.recorded, hbalances, totalOf_replicate_zero]
      exact Nat.zero_le _
    · exact hbacked id p hp c hc

section Creation

variable {currencyIds : List CurrencyId} {decimals : List ℕ} {a fee adminFee : ℕ}
  {receiver : AccountId} {symbol : List UInt8} {u : Unit}

omit [DecidableEq AccountId] [LawfulWithdrawableCurrency Tokens]

private theorem createBasePool_built (hs : Built s) (hnodup : currencyIds.Nodup)
    (h : (createBasePool origin currencyIds decimals a fee adminFee receiver symbol).run s =
      .ok u s') : Built s' ∧ (∀ id, Enriches s s' id) ∧ (Backed s → Backed s') := by
  simp only [createBasePool, Call.run_bind_eq_ok, run_ensureRoot_eq_ok] at h
  obtain ⟨_, _, ⟨-, rfl⟩, ⟨pool, id⟩, _, hcreate, hinsert⟩ := h
  obtain ⟨rfl, hid, rfl, haccount, hbalances⟩ := run_innerCreateBasePool hcreate
  refine insertPool_built hs hinsert hid haccount hbalances hnodup fun b cs hb => ?_
  cases hb

/-- The base pool of a new meta pool is the one whose liquidity is the last currency. -/
theorem createMetaPool_built (hs : Built s) (hnodup : currencyIds.Nodup)
    (h : (createMetaPool origin currencyIds decimals a fee adminFee receiver symbol).run s =
      .ok u s') : Built s' ∧ (∀ id, Enriches s s' id) ∧ (Backed s → Backed s') := by
  simp only [createMetaPool, Call.run_bind_eq_ok, run_ensureRoot_eq_ok, Call.run_ofOption_eq_ok,
    Call.run_get_eq_ok, run_findPool_eq_ok, run_arithmetic_eq_ok] at h
  obtain ⟨_, _, ⟨-, rfl⟩, lp, _, ⟨hlast, rfl⟩, _, _, ⟨rfl, rfl⟩, basePoolId, _, ⟨hlp, rfl⟩,
    ⟨info, id⟩, _, hcreate, base, _, ⟨hbase, rfl⟩, price, _, ⟨-, rfl⟩, hinsert⟩ := h
  obtain ⟨rfl, hid, rfl, haccount, hbalances⟩ := run_innerCreateBasePool hcreate
  refine insertPool_built hs hinsert hid haccount hbalances hnodup fun b cs hb => ?_
  obtain ⟨rfl, rfl⟩ := Prod.mk.inj (Option.some.inj hb)
  obtain ⟨base', hbase', hlpBase⟩ := hs.lpCurrencies lp _ hlp
  cases hbase'.symm.trans hbase
  refine ⟨base, hbase, rfl, ?_⟩
  rw [hlpBase]
  exact hlast

end Creation

/-! ## Dispatched calls -/

omit [DecidableEq AccountId] [LawfulWithdrawableCurrency Tokens] in
/-- A call of a trader does what it does for one that is no pool. -/
theorem inTime_serves {α : Type} {blockNumber deadline : ℕ} {u : Unit}
    {f : AccountId → StableCall AccountId CurrencyId Tokens α}
    (hf : ∀ who a, Outside CurrencyId who → (f who).run s = .ok a s' → Serves s s')
    (horigin : ∀ who, origin = .signed who → Outside CurrencyId who)
    (h : (inTime origin blockNumber deadline f).run s = .ok u s') : Serves s s' := by
  simp only [inTime, Call.run_bind_eq_ok, run_ensureSigned_eq_ok, run_check_eq_ok,
    Call.run_pure_eq_ok] at h
  obtain ⟨who, _, ⟨hwho, rfl⟩, _, _, ⟨-, rfl⟩, a, _, hrun, -, rfl⟩ := h
  exact hf who a (horigin who hwho) hrun

/-- What a call leaves of the stored pools. -/
structure Upheld (op : StableOp AccountId CurrencyId)
    (s s' : DexStable AccountId CurrencyId Tokens) : Prop where
  built : Built s'
  backed : Backed s → Backed s'
  enriches : (∀ id, op ≠ .withdrawAdminFee id) → ∀ id, Enriches s s' id

omit [DecidableEq AccountId] [LawfulWithdrawableCurrency Tokens] in
private theorem Serves.upheld {op : StableOp AccountId CurrencyId} (h : Serves s s')
    (hs : Built s) :
    Upheld op s s' :=
  ⟨hs.of_frames h.frames, h.backed, fun _ => h.enriches⟩

/-- Every call upholds the pools. -/
theorem dispatch_upheld {blockNumber : ℕ} {op : StableOp AccountId CurrencyId} {u : Unit}
    (hs : Built s) (horigin : ∀ who, origin = .signed who → Outside CurrencyId who)
    (hop : op.Distinct)
    (h : (dispatch origin blockNumber op).run s = .ok u s') : Upheld op s s' := by
  cases op with
  | createBasePool =>
    obtain ⟨hbuilt, henriches, hkeep⟩ := createBasePool_built hs hop h
    exact ⟨hbuilt, hkeep, fun _ => henriches⟩
  | createMetaPool =>
    obtain ⟨hbuilt, henriches, hkeep⟩ := createMetaPool_built hs hop h
    exact ⟨hbuilt, hkeep, fun _ => henriches⟩
  | addLiquidity =>
    exact (inTime_serves (fun _ _ => innerAddLiquidity_serves hs) horigin h).upheld hs
  | swap => exact (inTime_serves (fun _ _ => innerSwap_serves hs) horigin h).upheld hs
  | removeLiquidity =>
    exact (inTime_serves (fun _ _ => innerRemoveLiquidity_serves hs) horigin h).upheld hs
  | removeLiquidityOneCurrency =>
    exact (inTime_serves (fun _ _ => innerRemoveLiquidityOneCurrency_serves hs) horigin h).upheld hs
  | removeLiquidityImbalance =>
    exact (inTime_serves (fun _ _ => innerRemoveLiquidityImbalance_serves hs) horigin h).upheld hs
  | addPoolAndBasePoolLiquidity =>
    exact (inTime_serves (fun _ _ => innerAddPoolAndBasePoolLiquidity_serves hs) horigin
      h).upheld hs
  | removePoolAndBasePoolLiquidity =>
    exact (inTime_serves (fun _ _ => innerRemovePoolAndBasePoolLiquidity_serves hs) horigin
      h).upheld hs
  | removePoolAndBasePoolLiquidityOneCurrency =>
    exact (inTime_serves (fun _ _ => innerRemovePoolAndBasePoolLiquidityOneCurrency_serves hs)
      horigin h).upheld hs
  | swapPoolFromBase =>
    exact (inTime_serves (fun _ _ => innerSwapPoolFromBase_serves hs) horigin h).upheld hs
  | swapPoolToBase =>
    exact (inTime_serves (fun _ _ => innerSwapPoolToBase_serves hs) horigin h).upheld hs
  | swapMetaPoolUnderlying =>
    exact (inTime_serves (fun _ _ => swapMetaPoolUnderlying_serves hs) horigin h).upheld hs
  | updateFeeReceiver => exact (updateFeeReceiver_serves h).upheld hs
  | setSwapFee => exact (setSwapFee_serves h).upheld hs
  | setAdminFee => exact (setAdminFee_serves h).upheld hs
  | rampA => exact (rampA_serves h).upheld hs
  | stopRampA => exact (stopRampA_serves h).upheld hs
  | withdrawAdminFee id =>
    obtain ⟨hframes, hkept⟩ := withdrawAdminFee_backed hs h
    exact ⟨hs.of_frames hframes, hkept, fun hne => absurd rfl (hne id)⟩

/-! ## Runs -/

/-- Between two calls nothing is taken from the accounts of the pools. -/
def Undisturbed (s : DexStable AccountId CurrencyId Tokens) (t : Tokens) : Prop :=
  ∀ id < s.nextPoolId, ∀ pool ∈ s.pools id, ∀ c ∈ pool.info.currencyIds,
    freeBalance s c pool.info.account ≤ (balances t pool.info.account c).free

instance (s : DexStable AccountId CurrencyId Tokens) (t : Tokens) : Decidable (s.Undisturbed t) :=
  inferInstanceAs (Decidable (∀ id < s.nextPoolId, ∀ pool ∈ s.pools id,
    ∀ c ∈ pool.info.currencyIds, _ ≤ _))

/-- Pools sign no calls, nobody takes from their accounts, and new pools have different
currencies. -/
structure Custodial (s : DexStable AccountId CurrencyId Tokens)
    (x : StableStep AccountId CurrencyId Tokens) : Prop where
  undisturbed : s.Undisturbed x.tokens
  signer : ∀ who, x.origin = .signed who → Outside CurrencyId who
  distinct : x.op.Distinct

omit [DecidableEq AccountId] [DecidableEq CurrencyId] [LawfulWithdrawableCurrency Tokens] in
/-- The surroundings do not matter for how pools are built. -/
theorem Built.within (hs : Built s) (w : StableSurroundings AccountId CurrencyId Tokens) :
    Built (s.within w) := hs.of_frames ⟨fun _ => rfl, rfl, rfl⟩

omit [DecidableEq AccountId] [LawfulWithdrawableCurrency Tokens] in
private theorem Backed.within (hs : Built s) (hbacked : Backed s)
    {w : StableSurroundings AccountId CurrencyId Tokens} (hw : s.Undisturbed w.tokens) :
    Backed (s.within w) := fun id pool hp c hc =>
  (hbacked id pool hp c hc).trans (hw id (hs.below id pool hp) pool hp c hc)

/-- Every step upholds the pools. -/
theorem step_upheld {x : StableStep AccountId CurrencyId Tokens} (hs : Built s)
    (hsigner : ∀ who, x.origin = .signed who → Outside CurrencyId who) (hop : x.op.Distinct) :
    Upheld x.op (s.within x.toStableSurroundings) (s.step x) := by
  have hwithin := hs.within x.toStableSurroundings
  rcases (dispatch x.origin x.blockNumber x.op).commit_cases (s.within x.toStableSurroundings)
    with ⟨u, hrun⟩ | ⟨-, hsame⟩
  · exact dispatch_upheld hwithin hsigner hop hrun
  · rw [step, hsame]
    exact (Serves.refl _).upheld hwithin

omit [DecidableEq AccountId] [DecidableEq CurrencyId]
  [WithdrawableCurrency Tokens AccountId CurrencyId] [LawfulWithdrawableCurrency Tokens] in
/-- At first there are no pools. -/
theorem genesis_built (tokens : Tokens) (now : ℕ) :
    Built (genesis tokens now : DexStable AccountId CurrencyId Tokens) :=
  ⟨nofun, nofun, nofun, nofun, nofun⟩

/-- Every run upholds the pools. -/
theorem run_upheld {tokens : Tokens} {now : ℕ}
    {steps : List (StableStep AccountId CurrencyId Tokens)}
    (h : Meets step Custodial (genesis tokens now) steps) :
    Built (run step (genesis tokens now) steps) ∧ Backed (run step (genesis tokens now) steps) := by
  have hstep (s : DexStable AccountId CurrencyId Tokens)
      (x : StableStep AccountId CurrencyId Tokens) (hs : Built s ∧ Backed s) (hx : s.Custodial x) :
      Built (s.step x) ∧ Backed (s.step x) := by
    have hupheld := step_upheld hs.1 hx.signer hx.distinct
    exact ⟨hupheld.built, hupheld.backed (hs.2.within hs.1 hx.undisturbed)⟩
  exact run_invariant hstep ⟨genesis_built tokens now, nofun⟩ h

/-- In every state that a run reaches, the fees of a pool are what its account holds beyond the
recorded balance, which is never missing. No call but the withdrawal of the fees takes from them. -/
theorem pools_are_backed {tokens : Tokens} {now : ℕ}
    {steps : List (StableStep AccountId CurrencyId Tokens)}
    (h : Meets step Custodial (genesis tokens now) steps) {id : ℕ}
    {pool : StablePool AccountId CurrencyId}
    (hpool : (run step (genesis tokens now) steps).pools id = some pool) :
    (∀ i c balance, pool.info.currencyIds[i]? = some c → pool.info.balances[i]? = some balance →
      ∃ fee, getAdminBalance (run step (genesis tokens now) steps) id i = .ok fee ∧
        freeBalance (run step (genesis tokens now) steps) c pool.info.account = balance + fee) ∧
    ∀ x pool', (run step (genesis tokens now) steps).Custodial x →
      (∀ id', x.op ≠ .withdrawAdminFee id') →
      ((run step (genesis tokens now) steps).step x).pools id = some pool' →
      ∀ c ∈ pool.info.currencyIds,
        surplus (run step (genesis tokens now) steps).tokens pool c ≤
          surplus ((run step (genesis tokens now) steps).step x).tokens pool' c := by
  obtain ⟨hbuilt, hbacked⟩ := run_upheld h
  generalize run step (genesis tokens now) steps = s at hpool hbuilt hbacked ⊢
  constructor
  · intro i c balance hc hbalance
    obtain ⟨hi, -⟩ := List.getElem?_eq_some_iff.mp hc
    have hle : balance ≤ freeBalance s c pool.info.account := by
      have hrecord : pool.info.balances.getD i 0 ≤ pool.info.recorded c := le_totalOf hc
      rw [List.getD_eq_getElem?_getD, hbalance, Option.getD_some] at hrecord
      exact hrecord.trans (hbacked id pool hpool c (List.mem_of_getElem? hc))
    refine ⟨freeBalance s c pool.info.account - balance, ?_, (Nat.add_sub_cancel' hle).symm⟩
    simp only [getAdminBalance, hpool, if_neg (not_le.mpr hi), except_bind_eq_ok, nth_eq_ok,
      orNone_eq_ok, checkedSub_eq_some]
    exact ⟨c, hc, balance, hbalance, hle, rfl⟩
  · intro x pool' hx hop hpool' c hc
    have hmoved : surplus s.tokens pool c ≤ surplus x.tokens pool c := by
      have hle := hx.undisturbed id (hbuilt.below id pool hpool) pool hpool c hc
      exact Int.sub_le_sub_right (Nat.cast_le.mpr hle) _
    exact hmoved.trans
      ((step_upheld hbuilt hx.signer hx.distinct).enriches hop id pool pool' hpool hpool' c)

namespace Sample

/-- What the trader has, and what the pool has after the first liquidity. -/
def wealth : ℕ → ℕ := fun c => if c < 2 then 10 ^ 9 else 0

/-- What the trader of the examples starts with. -/
def liquidity : ℕ → ℕ := fun c => if c < 2 then 10 ^ 8 else 0

/-- A pool with an admin fee of half of the swap fee, its first liquidity, and a swap. -/
def charging : List Step :=
  [at' 1000 first_le wealth 0 .root (.createBasePool [0, 1] [18, 18] 10 30000000 5000000000 1 []),
    at' 1010 second_le wealth 0 (.signed 0) (.addLiquidity 0 [10 ^ 8, 10 ^ 8] 0 0 1),
    at' 1020 third_le wealth liquidity (.signed 0) (.swap 0 0 1 1000000 0 0 1)]

/-- The pool after the swap. -/
def chargedPool : BasePool ℕ ℕ where
  currencyIds := [0, 1]
  lpCurrencyId := 100
  tokenMultipliers := [1, 1]
  balances := [101000000, 99002408]
  fee := 30000000
  adminFee := 5000000000
  initialA := 1000
  futureA := 1000
  initialATime := 0
  futureATime := 0
  account := 100
  adminFeeReceiver := 1
  lpCurrencySymbol := []
  lpCurrencyDecimal := 18

/-- The trader is no pool. -/
theorem trader_outside : Outside ℕ (0 : ℕ) := by
  intro id h
  change 0 = 100 + id at h
  omega

/-- The pool holds 1498 units more of the second currency than it records. -/
theorem pools_are_backed_charging :
    freeBalance (run DexStable.step start charging) 1 100 = 99003906 ∧
    ∃ fee, getAdminBalance (run DexStable.step start charging) 0 1 = .ok fee ∧
      freeBalance (run DexStable.step start charging) 1 100 = 99002408 + fee := by
  have hmeets : Meets DexStable.step Custodial start charging := by
    refine ⟨⟨by decide +kernel, ?_, (by decide : [0, 1].Nodup)⟩, ⟨by decide +kernel, ?_, trivial⟩,
      ⟨by decide +kernel, ?_, trivial⟩, trivial⟩
    · rintro who ⟨⟩
    · rintro who ⟨⟩
      exact trader_outside
    · rintro who ⟨⟩
      exact trader_outside
  have hpool : (run DexStable.step start charging).pools 0 = some (.base chargedPool) := by
    decide +kernel
  exact ⟨by decide +kernel, (pools_are_backed hmeets hpool).1 1 1 99002408 rfl rfl⟩

end Sample

end DexStable

end Interbtc
