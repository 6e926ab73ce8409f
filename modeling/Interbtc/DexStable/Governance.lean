import Interbtc.DexStable.Evolution

/-!
# Calls of the root origin

New pools get the next id, and a meta pool is built on an older pool. Of the parameters of a
stored pool only the ramp is part of the layout.
-/

namespace Interbtc.DexStable

open Core DexStable MultiCurrency WithdrawableCurrency

variable {AccountId CurrencyId Tokens : Type}
  {Γ : Layout} {s : DexStable AccountId CurrencyId Tokens} {origin : StableOrigin AccountId}
  {id a fee adminFee : ℕ} {receiver : AccountId} {symbol : List UInt8}

section Origins

variable {I : DexStable AccountId CurrencyId Tokens → Prop}

private theorem ensureRoot_within :
    Within (· ≠ StableFault.panic) I (ensureRoot origin) fun _ => True := by
  cases origin with
  | root => exact Within.pure trivial
  | signed who => exact Within.throw nofun

/-- The check of the origin does not panic. -/
theorem ensureSigned_within :
    Within (· ≠ StableFault.panic) I (ensureSigned origin) fun who => origin = .signed who := by
  cases origin with
  | root => exact Within.throw nofun
  | signed who => exact Within.pure rfl

end Origins

/-! ## Parameters -/

/-- A change that leaves the lists and the ramp of a pool alone. -/
theorem BasePool.Ramped.keep {l : PoolLayout} {pool : BasePool AccountId CurrencyId}
    (h : pool.Fits l) : BasePool.Ramped Γ l pool :=
  ⟨l.ramp, .keep _, h⟩

/-- Setting the receiver keeps the layout. -/
theorem updateFeeReceiver_governs {feeReceiver : AccountId} :
    Γ.Governs Γ.Fits (updateFeeReceiver origin id feeReceiver :
      StableCall AccountId CurrencyId Tokens Unit) := by
  refine Within.bind ensureRoot_within fun _ _ => mutateInfo_governs fun l pool _ h => ?_
  exact Within.pure (.keep ⟨h.currencyIds, h.tokenMultipliers, h.balances, h.ramp⟩)

/-- Setting the fee keeps the layout. -/
theorem setSwapFee_governs {newSwapFee : ℕ} :
    Γ.Governs Γ.Fits (setSwapFee origin id newSwapFee :
      StableCall AccountId CurrencyId Tokens Unit) := by
  refine Within.bind ensureRoot_within fun _ _ => mutateInfo_governs fun l pool _ h => ?_
  refine Within.bind check_within fun _ _ => ?_
  exact Within.pure (.keep ⟨h.currencyIds, h.tokenMultipliers, h.balances, h.ramp⟩)

/-- Setting the admin fee keeps the layout. -/
theorem setAdminFee_governs {newAdminFee : ℕ} :
    Γ.Governs Γ.Fits (setAdminFee origin id newAdminFee :
      StableCall AccountId CurrencyId Tokens Unit) := by
  refine Within.bind ensureRoot_within fun _ _ => mutateInfo_governs fun l pool _ h => ?_
  refine Within.bind check_within fun _ _ => ?_
  exact Within.pure (.keep ⟨h.currencyIds, h.tokenMultipliers, h.balances, h.ramp⟩)

/-- Paying the admin fees keeps the layout. -/
theorem withdrawAdminFee_governs [WithdrawableCurrency Tokens AccountId CurrencyId] :
    Γ.Governs Γ.Fits (withdrawAdminFee origin id : StableCall AccountId CurrencyId Tokens Unit) := by
  refine Within.bind ensureSigned_within fun _ _ => mutateInfo_governs fun l pool _ h => ?_
  refine Within.bind (Within.forM fun reserve hr => ?_) fun _ _ => Within.pure (.keep h)
  have hi := lt_length_of_mem_zipIdx hr
  have hc := h.currencyIds
  have hb := h.balances
  refine Within.bind (arithmetic_within (nth_noPanic (by omega))) fun currency _ => ?_
  refine Within.get_bind fun t _ => ?_
  refine Within.bind (arithmetic_within orNone_true) fun balance _ => ?_
  exact Within.ite (fun _ => liftTokens_guards) fun _ => Within.pure trivial

/-! ## The ramp -/

/-- What the coefficient of a stored pool is now. -/
theorem getAPrecise_now {l : PoolLayout} {pool : BasePool AccountId CurrencyId} (hΓ : Γ.Sound)
    (hs : Γ.Fits s) (hl : Γ id = some l) (h : pool.Fits l) :
    getAPrecise s.now pool = some (l.ramp.value Γ.now) := by
  have hsound : pool.ramp.Sound s.now := by
    rw [hs.now, h.ramp]
    exact hΓ id l hl
  have hnow : s.now ≤ maxSeconds := hs.now.trans_le hs.now_le
  rw [getAPrecise_eq hsound hnow, h.ramp, hs.now]

/-- Starting a ramp keeps the layout. -/
theorem rampA_governs {futureA futureATime : ℕ} (hΓ : Γ.Sound) :
    Γ.Governs Γ.Fits (rampA origin id futureA futureATime :
      StableCall AccountId CurrencyId Tokens Unit) := by
  refine Within.bind ensureRoot_within fun _ _ => Within.get_bind fun s hs => ?_
  refine mutateInfo_governs fun l pool hl h => ?_
  refine Within.bind (arithmetic_within orNone_true) fun earliest _ => ?_
  refine Within.bind check_within fun _ _ => ?_
  refine Within.bind (arithmetic_within (orNone_noPanic _)) fun soonest hsoonest => ?_
  refine Within.bind check_within fun _ htime => ?_
  refine Within.bind check_within fun _ hA => ?_
  refine Within.bind (arithmetic_within (orNone_noPanic _)) fun initialAPrecise hinitial => ?_
  refine Within.bind (arithmetic_within (orNone_noPanic _)) fun futureAPrecise hfuture => ?_
  obtain ⟨-, rfl⟩ := checkedAdd_eq_some.mp hsoonest
  obtain ⟨-, rfl⟩ := checkedMul_eq_some.mp hfuture
  obtain rfl := Option.some.inj ((getAPrecise_now hΓ hs hl h).symm.trans hinitial)
  -- whatever the change of the coefficient is limited to
  have hramped : BasePool.Ramped Γ l { pool with
      initialA := l.ramp.value Γ.now
      futureA := futureA * A_PRECISION
      initialATime := s.now
      futureATime := futureATime } := by
    refine ⟨_, Ramp.Step.ramp _ (Nat.mul_pos hA.1 (by decide))
      (Nat.mul_lt_mul_of_pos_right hA.2 (by decide)) (?_ : Γ.now < futureATime),
      ⟨h.currencyIds, h.tokenMultipliers, h.balances, ?_⟩⟩
    · rw [← hs.now]
      exact (Nat.lt_add_of_pos_right (by decide)).trans_le htime
    · change Ramp.mk _ _ s.now _ = _
      rw [hs.now]
  refine Within.ite (fun _ => ?_) fun _ => ?_
  all_goals
    refine Within.bind (arithmetic_within orNone_true) fun most _ => ?_
    exact Within.bind check_within fun _ _ => Within.pure hramped

/-- Stopping a ramp keeps the layout. -/
theorem stopRampA_governs (hΓ : Γ.Sound) :
    Γ.Governs Γ.Fits (stopRampA origin id : StableCall AccountId CurrencyId Tokens Unit) := by
  refine Within.bind ensureRoot_within fun _ _ => Within.get_bind fun s hs => ?_
  refine mutateInfo_governs fun l pool hl h => ?_
  refine Within.bind check_within fun _ _ => ?_
  refine Within.bind (arithmetic_within (orNone_noPanic _)) fun currentA hcurrent => ?_
  obtain rfl := Option.some.inj ((getAPrecise_now hΓ hs hl h).symm.trans hcurrent)
  refine Within.pure ⟨_, Ramp.Step.stop _, ⟨h.currencyIds, h.tokenMultipliers, h.balances, ?_⟩⟩
  change Ramp.mk _ _ s.now s.now = _
  rw [hs.now]

/-! ## New pools -/

section Creation

variable [DexStableConfig AccountId CurrencyId] {currencyIds : List CurrencyId}
  {currencyDecimals : List ℕ}

/-- The ramp of a new pool stands still. -/
def newRamp (a : ℕ) : Ramp := ⟨a * A_PRECISION, a * A_PRECISION, 0, 0⟩

private theorem newRamp_sound {now : ℕ} (h : a ≠ 0) (hlt : a < MAX_A) : (newRamp a).Sound now := by
  have hpos : 0 < a * A_PRECISION := Nat.mul_pos (Nat.pos_of_ne_zero h) (by decide)
  have hbound : a * A_PRECISION < MAX_A * A_PRECISION :=
    Nat.mul_lt_mul_of_pos_right hlt (by decide)
  exact ⟨hpos, hbound, hpos, hbound, Nat.zero_le now, .inr rfl⟩

omit [DexStableConfig AccountId CurrencyId] in
private theorem tokenMultipliers_yields (h : currencyIds.length = currencyDecimals.length) :
    Yields (· ≠ StableFault.panic) (tokenMultipliers currencyIds currencyDecimals) fun rates =>
      rates.length = currencyIds.length := by
  refine (Yields.mapM fun i hi => ?_).mono fun rates hr => hr.trans List.length_range
  replace hi := h ▸ List.mem_range.mp hi
  rw [List.getElem?_eq_getElem hi]
  refine Yields.bind (R := fun _ => True) (Yields.ok trivial) fun decimals _ => ?_
  refine Yields.ite (fun _ => Yields.error nofun) fun _ => ?_
  exact Yields.okOr (fun _ => nofun) fun _ _ => trivial

/-- A new pool has the next id. -/
theorem innerCreateBasePool_within :
    Within (· ≠ StableFault.panic) (· = s) (innerCreateBasePool currencyIds currencyDecimals a fee
      adminFee receiver symbol : StableCall AccountId CurrencyId Tokens _) fun r =>
        r.2 = s.nextPoolId ∧ (a ≠ 0 ∧ a < MAX_A) ∧
          ∀ base, r.1.Fits ⟨currencyIds.length, base, newRamp a⟩ := by
  refine Within.bind check_within fun _ _ => ?_
  refine Within.bind check_within fun _ hlen => ?_
  refine Within.bind check_within fun _ hzero => ?_
  refine Within.bind check_within fun _ hmax => ?_
  refine Within.bind check_within fun _ _ => ?_
  refine Within.bind check_within fun _ _ => ?_
  refine Within.bind (Within.ofExcept (tokenMultipliers_yields hlen)) fun rate hrate => ?_
  refine Within.get_bind fun t ht => ?_
  refine Within.bind check_within fun _ _ => ?_
  refine Within.bind (arithmetic_within (orNone_noPanic _)) fun aWithPrecision ha => ?_
  refine Within.bind check_within fun _ _ => ?_
  refine Within.bind check_within fun _ _ => ?_
  obtain ⟨-, rfl⟩ := checkedMul_eq_some.mp ha
  refine Within.pure ⟨congrArg DexStable.nextPoolId ht, ⟨hzero, hmax⟩, fun base => ?_⟩
  exact ⟨rfl, hrate, List.length_replicate, rfl⟩

omit [DexStableConfig AccountId CurrencyId] in
private theorem insertPool_governs [DecidableEq CurrencyId] (hs : Γ.Fits s) {l : PoolLayout}
    {pool : StablePool AccountId CurrencyId} (hf : pool.Fits Γ l) (hr : l.ramp.Sound Γ.now)
    (hb : ∀ b, l.base = some b → b < s.nextPoolId) :
    Γ.Governs (· = s) (insertPool pool s.nextPoolId) := by
  have hnew : Γ s.nextPoolId = none := by
    cases hl : Γ s.nextPoolId with
    | none => rfl
    | some l' => exact absurd (hs.below _ l' hl) (lt_irrefl _)
  refine Triple.bind (Q := fun _ t => ∃ lp, t = { s with lpCurrencies := lp })
    (Triple.modify ?_) fun _ => Within.get_bind ?_
  · rintro t rfl
    exact ⟨_, rfl⟩
  rintro t ⟨lp, rfl⟩
  refine Within.bind (arithmetic_within (orNone_noPanic _)) fun nextPoolId hnext => ?_
  obtain ⟨-, rfl⟩ := checkedAdd_eq_some.mp hnext
  refine Triple.bind
    (Q := fun _ t => ∃ lp, t = { s with lpCurrencies := lp, nextPoolId := s.nextPoolId + 1 })
    (Triple.modify ?_) fun _ => ?_
  · rintro t ⟨lp, rfl⟩
    exact ⟨lp, rfl⟩
  refine Within.get_bind fun t ht => Within.bind check_within fun _ _ => ?_
  refine Triple.modify ?_
  rintro t ⟨lp, rfl⟩
  refine ⟨_, hs.set (fun l' hl' => ?_) hf hb (Nat.lt_succ_self _) (Nat.le_succ _),
    Layout.evolves_set_new hnew hr⟩
  rw [hnew] at hl'
  cases hl'

/-- A new base pool is laid out. -/
theorem createBasePool_governs [DecidableEq CurrencyId] (hs : Γ.Fits s) :
    Γ.Governs (· = s) (createBasePool origin currencyIds currencyDecimals a fee adminFee receiver
      symbol : StableCall AccountId CurrencyId Tokens Unit) := by
  refine Within.bind ensureRoot_within fun _ _ => Within.bind innerCreateBasePool_within ?_
  rintro ⟨pool, poolId⟩ ⟨rfl, ⟨hzero, hmax⟩, hf⟩
  exact insertPool_governs hs (hf none) (newRamp_sound hzero hmax) nofun

omit [DexStableConfig AccountId CurrencyId] in
/-- Looking for a pool does not panic. -/
theorem findPool_within {e : StableError} :
    Within (· ≠ StableFault.panic) (· = s) (findPool id e) fun pool => s.pools id = some pool := by
  refine Within.get_bind ?_
  rintro t rfl
  exact Within.ofOption (fun _ => nofun) fun _ h => h

/-- The pool whose liquidity a meta pool holds is stored. -/
theorem createMetaPool_governs [DecidableEq CurrencyId]
    [WithdrawableCurrency Tokens AccountId CurrencyId] (hs : Γ.Fits s) :
    Γ.Governs (· = s) (createMetaPool origin currencyIds currencyDecimals a fee adminFee receiver
      symbol : StableCall AccountId CurrencyId Tokens Unit) := by
  refine Within.bind ensureRoot_within fun _ _ => ?_
  refine Within.bind (Within.ofOption (fun _ => nofun) fun _ h => h) fun currency _ => ?_
  refine Within.get_bind fun t ht => ?_
  subst ht
  refine Within.bind (Within.ofOption (fun _ => nofun) fun _ h => h) fun basePoolId _ => ?_
  refine Within.bind innerCreateBasePool_within ?_
  rintro ⟨info, poolId⟩ ⟨rfl, ⟨hzero, hmax⟩, hf⟩
  refine Within.bind findPool_within fun basePool hp => ?_
  obtain ⟨l, hl, hfit⟩ := hs.layout_of_pool hp
  refine Within.bind (arithmetic_within (getPoolVirtualPrice_noPanic hs hfit)) fun price _ => ?_
  refine insertPool_governs (l := ⟨currencyIds.length, some basePoolId, newRamp a⟩) hs ?_
    (newRamp_sound hzero hmax) ?_
  · exact ⟨hf (some basePoolId), rfl, ⟨l, hl, hfit.info_fits.currencyIds⟩,
      hs.now.trans_le hs.now_le⟩
  · intro b hb
    cases hb
    exact hs.below _ l hl

end Creation

end Interbtc.DexStable
