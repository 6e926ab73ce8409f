import Interbtc.DexStable.Lifecycle

/-!
# The coefficient of the pools

As a function of the time the coefficient of a stored pool moves in one direction from one end of
its ramp to the other, within the bounds for all coefficients, and no call makes it jump.
-/

namespace Interbtc

open Core DexStable MultiCurrency WithdrawableCurrency

variable {AccountId CurrencyId Tokens : Type}

/-- The coefficient of a pool from the start of its ramp on. -/
structure BasePool.Ramps (pool : BasePool AccountId CurrencyId) : Prop where
  bounded : ∀ t, pool.initialATime ≤ t → t ≤ maxSeconds →
    ∃ a, getAPrecise t pool = some a ∧ 0 < a ∧ a < MAX_A * A_PRECISION
  starts : getAPrecise pool.initialATime pool = some pool.initialA
  ends : ∀ t, pool.futureATime ≤ t → getAPrecise t pool = some pool.futureA
  rises : pool.initialA ≤ pool.futureA → ∀ t t' a a', pool.initialATime ≤ t → t ≤ t' →
    t' ≤ maxSeconds → getAPrecise t pool = some a → getAPrecise t' pool = some a' →
    pool.initialA ≤ a ∧ a ≤ a' ∧ a' ≤ pool.futureA
  falls : pool.futureA ≤ pool.initialA → ∀ t t' a a', pool.initialATime ≤ t → t ≤ t' →
    t' ≤ maxSeconds → getAPrecise t pool = some a → getAPrecise t' pool = some a' →
    pool.futureA ≤ a' ∧ a' ≤ a ∧ a ≤ pool.initialA

namespace DexStable

private theorem ramps_of_sound {pool : BasePool AccountId CurrencyId}
    (h : pool.ramp.Sound pool.initialATime) (hstart : pool.initialATime ≤ maxSeconds) :
    pool.Ramps where
  bounded t hstarted ht := by
    have hsound := h.later hstarted
    exact ⟨_, getAPrecise_eq hsound ht, hsound.value_pos, hsound.value_lt⟩
  starts := by
    rw [getAPrecise_eq h hstart]
    exact congrArg some h.value_started
  ends t ht := if_pos ht
  rises hrise t t' a a' hstarted ht ht' ha ha' := by
    rw [getAPrecise_eq (h.later hstarted) (ht.trans ht')] at ha
    rw [getAPrecise_eq (h.later (hstarted.trans ht)) ht'] at ha'
    cases ha
    cases ha'
    exact interpolate_rises hrise ht
  falls hfall t t' a a' hstarted ht ht' ha ha' := by
    rw [getAPrecise_eq (h.later hstarted) (ht.trans ht')] at ha
    rw [getAPrecise_eq (h.later (hstarted.trans ht)) ht'] at ha'
    cases ha
    cases ha'
    exact interpolate_falls hfall ht

variable {Γ : Layout} {s : DexStable AccountId CurrencyId Tokens} {id : ℕ}
  {pool : StablePool AccountId CurrencyId}

private theorem Layout.Fits.sound_of_pool (hs : Γ.Fits s) (hΓ : Γ.Sound)
    (hp : s.pools id = some pool) :
    pool.info.ramp.Sound s.now := by
  obtain ⟨l, hl, hf⟩ := hs.layout_of_pool hp
  rw [hf.info_fits.ramp, hs.now]
  exact hΓ id l hl

private theorem Laid.ramps (h : s.Laid) (hp : s.pools id = some pool) :
    pool.info.initialATime ≤ s.now ∧ pool.info.Ramps := by
  obtain ⟨Γ, hs, hΓ⟩ := h
  have hsound := hs.sound_of_pool hΓ hp
  have hstart : pool.info.initialATime ≤ s.now := hsound.started
  refine ⟨hstart, ramps_of_sound ?_ (hstart.trans (hs.now.trans_le hs.now_le))⟩
  exact ⟨hsound.initialA_pos, hsound.initialA_lt, hsound.futureA_pos, hsound.futureA_lt, le_rfl,
    hsound.moves⟩

variable [DecidableEq AccountId] [DecidableEq CurrencyId]
  [WithdrawableCurrency Tokens AccountId CurrencyId] [DexStableConfig AccountId CurrencyId]
  [LawfulWithdrawableCurrency Tokens] {x : StableStep AccountId CurrencyId Tokens}

/-- A call does not remove a pool, and does not change its coefficient at the time of the call. -/
theorem Laid.continuous (h : s.Laid) (ho : s.InOrder x) (hp : s.pools id = some pool) :
    ∃ pool', (s.step x).pools id = some pool' ∧
      getAPrecise x.now pool'.info = getAPrecise x.now pool.info := by
  obtain ⟨Γ, hs, hΓ⟩ := h.within ho
  obtain ⟨Γ', hs', hevolves⟩ : ∃ Γ' : Layout, Γ'.Fits (s.step x) ∧ Γ.Evolves Γ' :=
    dispatch_commit hs hΓ x.free_le
  obtain ⟨l, hl, hf⟩ := hs.layout_of_pool hp
  obtain ⟨r, hr, hl'⟩ := hevolves.kept id l hl
  obtain ⟨pool', hp', hf'⟩ := hs'.pool_of_layout hl'
  have hnow : Γ.now = x.now := hs.now.symm
  have hnow' : (s.step x).now = x.now := hs'.now.trans (hevolves.now.trans hnow)
  have hsound : pool.info.ramp.Sound x.now := hs.sound_of_pool hΓ hp
  have hsound' : pool'.info.ramp.Sound x.now :=
    hnow' ▸ hs'.sound_of_pool (hevolves.sound hΓ) hp'
  refine ⟨pool', hp', ?_⟩
  rw [getAPrecise_eq hsound x.now_le, getAPrecise_eq hsound' x.now_le, hf.info_fits.ramp,
    hf'.info_fits.ramp, ← hnow]
  exact congrArg some hr.value_eq

/-- In every state that a run reaches the coefficients of the pools move as their ramps say, and
no call makes one of them jump. -/
theorem aPrecise_ramps {tokens : Tokens} {now : ℕ}
    {steps : List (StableStep AccountId CurrencyId Tokens)} (hnow : now ≤ maxSeconds)
    (h : Meets step InOrder (genesis tokens now) steps) :
    (∀ id pool, (run step (genesis tokens now) steps).pools id = some pool →
      pool.info.initialATime ≤ (run step (genesis tokens now) steps).now ∧ pool.info.Ramps) ∧
    ∀ x id pool, (run step (genesis tokens now) steps).InOrder x →
      (run step (genesis tokens now) steps).pools id = some pool →
      ∃ pool', ((run step (genesis tokens now) steps).step x).pools id = some pool' ∧
        getAPrecise x.now pool'.info = getAPrecise x.now pool.info :=
  ⟨fun _ _ hp => (run_laid hnow h).ramps hp, fun _ _ _ ho hp => (run_laid hnow h).continuous ho hp⟩

namespace Sample

/-- The coefficient of the first pool is to rise from 10 to 100, and is stopped on the way. -/
def ramping : List Step :=
  twoPools ++
    [at' 100000 (by decide) after pooled .root (.rampA 0 100 300000),
      at' 200000 (by decide) after pooled .root (.stopRampA 0)]

/-- A pool whose ramp is stopped on the way. -/
theorem aPrecise_ramps_ramping :
    (run DexStable.step start ramping).pools 0 ≠ none ∧
    ∀ pool, (run DexStable.step start ramping).pools 0 = some pool →
      pool.info.Ramps ∧ pool.info.initialA = 5500 := by
  have hrun : ((run DexStable.step start ramping).pools 0).map (·.info.initialA) = some 5500 := by
    decide +kernel
  refine ⟨fun hn => ?_, fun pool hp => ⟨?_, ?_⟩⟩
  · rw [hn] at hrun
    cases hrun
  · exact ((aPrecise_ramps (by decide) (by decide +kernel :
      Meets DexStable.step InOrder start ramping)).1 0 pool hp).2
  · rw [hp] at hrun
    exact Option.some.inj hrun

end Sample

end DexStable

end Interbtc
