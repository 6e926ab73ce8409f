import Interbtc.Core.Interpolation
import Interbtc.DexStable.Calls

/-!
# The ramp of the coefficient

The coefficient of a pool moves from one value to another over a time. A new ramp starts where the
old one is when it is set, and to stop a ramp keeps the value that it has reached.
-/

namespace Interbtc.DexStable

open Core DexStable MultiCurrency WithdrawableCurrency

variable {AccountId CurrencyId Tokens : Type} {now t : ℕ} {r r' : Ramp}

/-! ## Values of a ramp -/

/-- The coefficient at a time. -/
def Ramp.value (r : Ramp) (t : ℕ) : ℕ :=
  interpolate r.initialA r.futureA r.initialATime r.futureATime t

/-- The ends of a ramp are coefficients, and it has started. -/
structure Ramp.Sound (r : Ramp) (now : ℕ) : Prop where
  initialA_pos : 0 < r.initialA
  initialA_lt : r.initialA < MAX_A * A_PRECISION
  futureA_pos : 0 < r.futureA
  futureA_lt : r.futureA < MAX_A * A_PRECISION
  started : r.initialATime ≤ now
  moves : r.initialATime < r.futureATime ∨ r.initialA = r.futureA

/-- A ramp stays sound as time passes. -/
theorem Ramp.Sound.later (h : r.Sound now) (ht : now ≤ t) : r.Sound t :=
  ⟨h.initialA_pos, h.initialA_lt, h.futureA_pos, h.futureA_lt, h.started.trans ht, h.moves⟩

/-- The amplification is never zero. -/
theorem Ramp.Sound.value_pos (h : r.Sound now) : 0 < r.value t :=
  (Nat.lt_min.mpr ⟨h.initialA_pos, h.futureA_pos⟩).trans_le interpolate_mem.1

/-- The amplification stays below its bound. -/
theorem Ramp.Sound.value_lt (h : r.Sound now) : r.value t < MAX_A * A_PRECISION :=
  interpolate_mem.2.trans_lt (max_lt h.initialA_lt h.futureA_lt)

/-- A ramp starts at its first value. -/
theorem Ramp.Sound.value_started (h : r.Sound now) : r.value r.initialATime = r.initialA :=
  interpolate_start h.moves

/-- What a ramp has gone fits in 256 bits. -/
theorem way_le_maxU256 {d t₀ : ℕ} (hd : d ≤ MAX_A * A_PRECISION) (ht : t ≤ maxSeconds) :
    d * (t - t₀) ≤ maxU256 :=
  calc d * (t - t₀) ≤ MAX_A * A_PRECISION * maxSeconds :=
        Nat.mul_le_mul hd ((Nat.sub_le t t₀).trans ht)
    _ ≤ maxU256 := by decide

/-- The coefficient of a pool is the value of its ramp. -/
theorem getAPrecise_eq {pool : BasePool AccountId CurrencyId} (h : pool.ramp.Sound t)
    (ht : t ≤ maxSeconds) : getAPrecise t pool = some (pool.ramp.value t) := by
  have hi : pool.initialA < MAX_A * A_PRECISION := h.initialA_lt
  have hf : pool.futureA < MAX_A * A_PRECISION := h.futureA_lt
  have hstart : pool.initialATime ≤ t := h.started
  have hlt : pool.ramp.value t ≤ maxBalance := h.value_lt.le.trans (by decide)
  have hmax : maxBalance ≤ maxU256 := by decide
  unfold getAPrecise
  by_cases hend : pool.futureATime ≤ t
  · rw [if_pos hend]
    exact congrArg some (interpolate_of_le hend).symm
  have hend' : t < pool.futureATime := not_le.mp hend
  have hspan : pool.futureATime - pool.initialATime ≠ 0 := by omega
  have hvalue := @interpolate_of_lt pool.initialA pool.futureA pool.initialATime
    pool.futureATime t hend'
  rw [if_neg hend]
  by_cases hrise : pool.initialA < pool.futureA
  · rw [if_pos hrise.le] at hvalue
    have hway := @way_le_maxU256 t (pool.futureA - pool.initialA) pool.initialATime (by omega) ht
    rw [if_pos hrise, checkedSub_eq_some.mpr ⟨hrise.le, rfl⟩,
      checkedSub_eq_some.mpr ⟨hstart, rfl⟩,
      checkedSub_eq_some.mpr ⟨hstart.trans hend'.le, rfl⟩]
    refine Option.bind_eq_some_iff.mpr ⟨_, rfl, ?_⟩
    refine Option.bind_eq_some_iff.mpr ⟨_, rfl, ?_⟩
    refine Option.bind_eq_some_iff.mpr ⟨_, checkedMul_eq_some.mpr ⟨hway, rfl⟩, ?_⟩
    refine Option.bind_eq_some_iff.mpr ⟨_, rfl, ?_⟩
    refine Option.bind_eq_some_iff.mpr ⟨_, checkedDiv_eq_some.mpr ⟨hspan, rfl⟩, ?_⟩
    refine Option.bind_eq_some_iff.mpr ⟨_, checkedAdd_eq_some.mpr ⟨?_, rfl⟩, ?_⟩
    · rw [← hvalue]
      exact hlt.trans hmax
    · rw [← hvalue]
      exact tryInto_eq_some.mpr ⟨hlt, rfl⟩
  · have hfall : pool.futureA ≤ pool.initialA := not_lt.mp hrise
    have hway := @way_le_maxU256 t (pool.initialA - pool.futureA) pool.initialATime (by omega) ht
    have hgone : (pool.initialA - pool.futureA) * (t - pool.initialATime) /
        (pool.futureATime - pool.initialATime) ≤ pool.initialA :=
      (way_le hend').trans (Nat.sub_le _ _)
    replace hvalue : pool.ramp.value t = pool.initialA - (pool.initialA - pool.futureA) *
        (t - pool.initialATime) / (pool.futureATime - pool.initialATime) := by
      refine hvalue.trans ?_
      split
      · obtain heq : pool.initialA = pool.futureA := by omega
        rw [heq]
        simp
      · rfl
    rw [if_neg hrise, checkedSub_eq_some.mpr ⟨hfall, rfl⟩,
      checkedSub_eq_some.mpr ⟨hstart, rfl⟩,
      checkedSub_eq_some.mpr ⟨hstart.trans hend'.le, rfl⟩]
    refine Option.bind_eq_some_iff.mpr ⟨_, rfl, ?_⟩
    refine Option.bind_eq_some_iff.mpr ⟨_, rfl, ?_⟩
    refine Option.bind_eq_some_iff.mpr ⟨_, checkedMul_eq_some.mpr ⟨hway, rfl⟩, ?_⟩
    refine Option.bind_eq_some_iff.mpr ⟨_, rfl, ?_⟩
    refine Option.bind_eq_some_iff.mpr ⟨_, checkedDiv_eq_some.mpr ⟨hspan, rfl⟩, ?_⟩
    refine Option.bind_eq_some_iff.mpr ⟨_, checkedSub_eq_some.mpr ⟨hgone, rfl⟩, ?_⟩
    rw [← hvalue]
    exact tryInto_eq_some.mpr ⟨hlt, rfl⟩

/-! ## Steps of a ramp -/

/-- What a call does to a ramp: nothing, a new ramp from where the old one is, or an end to it. -/
inductive Ramp.Step (now : ℕ) : Ramp → Ramp → Prop
  | keep (r : Ramp) : Step now r r
  | ramp (r : Ramp) {futureA futureATime : ℕ} (hpos : 0 < futureA)
      (hlt : futureA < MAX_A * A_PRECISION) (htime : now < futureATime) :
      Step now r ⟨r.value now, futureA, now, futureATime⟩
  | stop (r : Ramp) : Step now r ⟨r.value now, r.value now, now, now⟩

/-- A ramp that is started or stopped is sound. -/
theorem Ramp.Step.sound (h : Ramp.Step now r r') (hr : r.Sound now) : r'.Sound now := by
  cases h with
  | keep => exact hr
  | ramp hpos hlt htime => exact ⟨hr.value_pos, hr.value_lt, hpos, hlt, le_rfl, .inl htime⟩
  | stop => exact ⟨hr.value_pos, hr.value_lt, hr.value_pos, hr.value_lt, le_rfl, .inr rfl⟩

/-- The value does not jump at a call. -/
theorem Ramp.Step.value_eq (h : Ramp.Step now r r') :
    r'.value now = r.value now := by
  cases h with
  | keep => rfl
  | ramp hpos hlt htime => exact interpolate_start (.inl htime)
  | stop => exact interpolate_start (.inr rfl)

end Interbtc.DexStable
