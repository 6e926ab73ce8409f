import Interbtc.Escrow.Future

/-!
# When the total supply is the sum of the balances

Slope changes are unsigned, so the end of a lock is never scheduled and its slope stays in
the last point. The total supply is the sum of the balances as long as the locks run out
together, within a block, and none is extended.
-/

namespace Interbtc

open Core

namespace EscrowConfig

variable {cfg : EscrowConfig} {slopeChanges : ℕ → ℕ} {now target tI fuel epoch : ℕ} {p : Point}
  {history : ℕ → Point}

private theorem strideTo_of_zero (cfg : EscrowConfig) (target tI : ℕ)
    (hzero : ∀ e, slopeChanges e = 0)
    (hslope : p.slope ≤ maxBalance) :
    (cfg.strideTo slopeChanges target tI p).slope = p.slope := by
  have hchange : (cfg.stride slopeChanges target tI).2 = 0 := by
    unfold stride
    dsimp only
    split
    · rfl
    · exact hzero _
  rw [strideTo, hchange]
  exact saturatingAdd_zero hslope

/-- Without slope changes the supply falls along one line. -/
theorem extrapolate_of_zero (hzero : ∀ e, slopeChanges e = 0) (hslope : p.slope ≤ maxBalance)
    (hts : tI ≤ p.ts) (hle : p.ts ≤ target) (hlt : p.ts < tI + cfg.span)
    (hmax : target ≤ maxBlockNumber) (hfits : cfg.Fits slopeChanges target fuel tI p)
    (hfuel : target - tI ≤ fuel) :
    cfg.extrapolate slopeChanges target fuel tI p = p.bias - p.slope * (target - p.ts) := by
  induction fuel generalizing tI p with
  | zero =>
    rw [extrapolate_of_le (by omega), show target - p.ts = 0 by omega, Nat.mul_zero, Nat.sub_zero]
  | succ fuel ih =>
    by_cases hbefore : tI < target
    · obtain ⟨hproduct, hrest⟩ := hfits hbefore
      have hqslope := strideTo_of_zero cfg target tI hzero hslope
      have hqts : (cfg.strideTo slopeChanges target tI p).ts =
          (cfg.stride slopeChanges target tI).1 := rfl
      have hqbias : (cfg.strideTo slopeChanges target tI p).bias =
          p.bias - p.slope * ((cfg.strideTo slopeChanges target tI p).ts - p.ts) := by
        rw [hqts, ← wrappingMul_of_le hproduct]
        rfl
      rw [extrapolate_succ, if_pos hbefore]
      dsimp only
      by_cases harrive : (cfg.strideTo slopeChanges target tI p).ts = target
      · rw [if_pos harrive, hqbias, harrive]
      · rw [if_neg harrive]
        rcases stride_cases cfg slopeChanges tI hmax with
          ⟨-, -, h⟩ | ⟨hspan, h⟩ | ⟨-, -, h⟩ <;> rw [h] at hqts <;> dsimp only at hqts
        · exact absurd hqts harrive
        · have hpos := cfg.span_pos
          rw [ih (by omega) le_rfl (by omega) (by omega) (hrest harrive) (by omega), hqbias,
            hqslope, Nat.sub_sub, ← Nat.mul_add]
          congr 2
          omega
        · exact absurd hqts harrive
    · rw [extrapolate_of_le (by omega), show target - p.ts = 0 by omega, Nat.mul_zero, Nat.sub_zero]

private theorem fillHistory_of_zero (hzero : ∀ e, slopeChanges e = 0)
    (hslope : p.slope ≤ maxBalance) :
    (cfg.fillHistory slopeChanges now fuel tI epoch p history).2.1.slope = p.slope := by
  induction fuel generalizing tI epoch p history with
  | zero => rfl
  | succ fuel ih =>
    have hqslope := strideTo_of_zero cfg now tI hzero hslope
    rw [fillHistory_succ]
    by_cases hbefore : tI < now
    · rw [if_pos hbefore]
      dsimp only
      split
      · exact hqslope
      · rw [ih (by omega)]
        exact hqslope
    · rw [if_neg hbefore]

end EscrowConfig

namespace Escrow

/-- Two lines fall together: the sum of the parts above zero is the part above zero of the sum,
if one of them reaches zero within a block of the other. -/
theorem lines_add {P S Δ E : ℕ} (hlow : S * (E - 1) ≤ P) (hhigh : P ≤ S * (E + 1)) (x : ℕ) :
    P + Δ * E - (S + Δ) * x = P - S * x + Δ * (E - x) := by
  rw [Nat.add_mul]
  rcases Nat.lt_trichotomy x E with hlt | rfl | hlt
  · have hS : S * x ≤ S * (E - 1) := Nat.mul_le_mul_left _ (by omega)
    have hΔ : Δ * (E - x) = Δ * E - Δ * x := Nat.mul_sub _ _ _
    have hle : Δ * x ≤ Δ * E := Nat.mul_le_mul_left _ hlt.le
    omega
  · rw [Nat.sub_self, Nat.mul_zero]
    omega
  · have hS : S * (E + 1) ≤ S * x := Nat.mul_le_mul_left _ (by omega)
    have hle : Δ * E ≤ Δ * x := Nat.mul_le_mul_left _ hlt.le
    rw [Nat.sub_eq_zero_of_le hlt.le, Nat.mul_zero]
    omega

variable {AccountId CurrencyId : Type} [DecidableEq AccountId] [DecidableEq CurrencyId]
  [Fintype AccountId] {cfg : EscrowConfig} {s s' : Escrow AccountId CurrencyId FixedI128}
  {who : AccountId} {l : LockedBalance} {op : Op AccountId} {height : ℕ}

/-- The voting power of all locks at a height. -/
def lockedPower (cfg : EscrowConfig) (s : Escrow AccountId CurrencyId FixedI128) (height : ℕ) :
    ℕ :=
  ∑ u, (s.locked u).slope cfg * ((s.locked u).endHeight - height)

/-- No lock is extended, and a lock is created only with an end within a block of the height at
which the voting power of the locks, falling by the slope of the last point, runs out. -/
def Op.Aligned (cfg : EscrowConfig) (s : Escrow AccountId CurrencyId FixedI128) :
    Op AccountId → Prop
  | .createLock free who amount unlockHeight =>
    (Escrow.createLock cfg free who amount unlockHeight).succeeds s = true →
      s.lastPoint.slope * (cfg.roundHeight unlockHeight - s.height - 1) ≤
          s.lockedPower cfg s.height ∧
        s.lockedPower cfg s.height ≤
          s.lastPoint.slope * (cfg.roundHeight unlockHeight - s.height + 1)
  | .increaseUnlockHeight free who unlockHeight =>
    (Escrow.increaseUnlockHeight cfg free who unlockHeight).succeeds s = false
  | _ => True

instance (s : Escrow AccountId CurrencyId FixedI128) : DecidablePred (Op.Aligned cfg s)
  | .createLock free who amount unlockHeight =>
    inferInstanceAs (Decidable ((Escrow.createLock cfg free who amount unlockHeight).succeeds s = true →
      s.lastPoint.slope * (cfg.roundHeight unlockHeight - s.height - 1) ≤
          s.lockedPower cfg s.height ∧
        s.lockedPower cfg s.height ≤
          s.lastPoint.slope * (cfg.roundHeight unlockHeight - s.height + 1)))
  | .increaseUnlockHeight free who unlockHeight =>
    inferInstanceAs (Decidable
      ((Escrow.increaseUnlockHeight cfg free who unlockHeight).succeeds s = false))
  | .toBlock .. | .increaseAmount .. | .withdraw .. | .setAccountLimit .. | .setAccountBlock ..
  | .updateUserStake .. => inferInstanceAs (Decidable True)

/-- The last point falls as all locks together do. -/
structure Additive (cfg : EscrowConfig) (s : Escrow AccountId CurrencyId FixedI128) : Prop where
  unchanged : ∀ e, s.slopeChanges e = 0
  supply : ∀ height, s.lastPoint.ts ≤ height →
    s.lastPoint.bias - s.lastPoint.slope * (height - s.lastPoint.ts) = s.lockedPower cfg height
  low : ∀ u, (s.locked u).endHeight = 0 ∨ cfg.maxPeriod ≤ (s.locked u).amount

omit [DecidableEq AccountId] [DecidableEq CurrencyId] in
private theorem Additive.default : Additive cfg
    (Escrow.default : Escrow AccountId CurrencyId FixedI128) where
  unchanged _ := rfl
  supply height _ := by
    have hzero : (Escrow.default : Escrow AccountId CurrencyId FixedI128).lockedPower cfg height = 0 := by
      refine Finset.sum_eq_zero fun u _ => ?_
      change 0 / cfg.maxPeriod * _ = 0
      rw [Nat.zero_div, Nat.zero_mul]
    rw [hzero]
    exact Nat.zero_sub _
  low _ := .inl rfl

/-! ## The locks and the supply -/

omit [DecidableEq AccountId] [DecidableEq CurrencyId] in
private theorem lockedPower_eq_balances (hs : Pointed cfg s) (hle : s.height ≤ height) :
    s.lockedPower cfg height = ∑ u, s.balanceAt u height :=
  Finset.sum_congr rfl fun u _ => (hs.balanceAt u height hle).symm

omit [DecidableEq AccountId] [DecidableEq CurrencyId] in
private theorem lockedPower_le (hs : Sound cfg s) (hle : s.height ≤ height) :
    s.lockedPower cfg height ≤ maxPower := by
  rw [lockedPower_eq_balances hs.pointed hle]
  exact (Finset.sum_le_sum fun u _ => Nat.sub_le _ _).trans hs.paced.total

omit [DecidableEq CurrencyId] in
private theorem lockedPower_update (cfg : EscrowConfig)
    (hlocked : s'.locked = Function.update s.locked who l) (height : ℕ) :
    s'.lockedPower cfg height +
        (s.locked who).slope cfg * ((s.locked who).endHeight - height) =
      s.lockedPower cfg height + l.slope cfg * (l.endHeight - height) := by
  rw [lockedPower, hlocked]
  exact sum_update_add (fun _ l => l.slope cfg * (l.endHeight - height)) s.locked who l

omit [DecidableEq CurrencyId] in
/-- The voting power falls less from the height at which a lock ends. -/
theorem lockedPower_kink (who : AccountId) {e : ℕ} (he : (s.locked who).endHeight = e + 1) :
    2 * s.lockedPower cfg (e + 1) + (s.locked who).slope cfg ≤
      s.lockedPower cfg e + s.lockedPower cfg (e + 2) := by
  have hone : (s.locked who).slope cfg =
      ∑ u, if u = who then (s.locked u).slope cfg else 0 := by
    rw [Finset.sum_ite_eq' Finset.univ who fun u => (s.locked u).slope cfg,
      if_pos (Finset.mem_univ who)]
  rw [hone, lockedPower, lockedPower, lockedPower, Finset.mul_sum, ← Finset.sum_add_distrib,
    ← Finset.sum_add_distrib]
  refine Finset.sum_le_sum fun u _ => ?_
  by_cases hu : u = who
  · subst hu
    rw [if_pos rfl, he, Nat.sub_self, Nat.sub_eq_zero_of_le (Nat.le_succ _),
      show e + 1 - e = 1 by omega]
    omega
  · rw [if_neg hu, Nat.add_zero, ← Nat.mul_add, Nat.mul_left_comm]
    exact Nat.mul_le_mul_left _ (by omega)

/-! ## Runs -/

omit [DecidableEq AccountId] [DecidableEq CurrencyId] in
private theorem lockedPower_later (ha : Additive cfg s) (hs : Sound cfg s) (x : ℕ) :
    s.lockedPower cfg (s.height + x) = s.lockedPower cfg s.height - s.lastPoint.slope * x := by
  have hts := hs.paced.ts_le
  rw [← ha.supply _ hts, ← ha.supply _ (by omega), Nat.sub_sub, ← Nat.mul_add]
  congr 2
  omega

omit [DecidableEq AccountId] [DecidableEq CurrencyId] in
/-- The history is filled up to the voting power of the locks. -/
private theorem filled_eq (ha : Additive cfg s) (hs : Sound cfg s) :
    s.filled cfg = ⟨s.lockedPower cfg s.height, s.lastPoint.slope, s.height⟩ := by
  have hts := hs.paced.ts_le
  have hbias : (s.filled cfg).bias = s.lockedPower cfg s.height := by
    rw [← ha.supply _ hts, filled, EscrowConfig.fillHistory_bias]
    exact EscrowConfig.extrapolate_of_zero ha.unchanged hs.paced.slope_lt_maxBalance.le
      (cfg.roundHeight_le _) hts (cfg.lt_roundHeight_add _) hs.paced.height_le
      (hs.paced.fits hs.paced.height_le) (by omega)
  have hslope : (s.filled cfg).slope = s.lastPoint.slope :=
    EscrowConfig.fillHistory_of_zero ha.unchanged hs.paced.slope_lt_maxBalance.le
  rw [← hbias, ← hslope, ← hs.paced.filled_spec.1]

omit [DecidableEq CurrencyId] in
/-- Where a lock lasts, the voting power runs out when that lock ends, or falls further. -/
private theorem slope_eq_zero_or (ha : Additive cfg s) (hs : Sound cfg s)
    (hend : s.height < (s.locked who).endHeight) : (s.locked who).slope cfg = 0 ∨
      s.lastPoint.slope * ((s.locked who).endHeight - s.height - 1) ≤
          s.lockedPower cfg s.height ∧
        s.lockedPower cfg s.height ≤
          s.lastPoint.slope * ((s.locked who).endHeight - s.height + 1) := by
  obtain ⟨y, hy⟩ : ∃ y, (s.locked who).endHeight = s.height + y + 1 :=
    ⟨(s.locked who).endHeight - s.height - 1, by omega⟩
  have hkink : 2 * s.lockedPower cfg (s.height + y + 1) + (s.locked who).slope cfg ≤
      s.lockedPower cfg (s.height + y) + s.lockedPower cfg (s.height + y + 2) :=
    lockedPower_kink who hy
  rw [show s.height + y + 1 = s.height + (y + 1) by omega,
    show s.height + y + 2 = s.height + (y + 2) by omega, lockedPower_later ha hs,
    lockedPower_later ha hs, lockedPower_later ha hs, Nat.mul_add, Nat.mul_add] at hkink
  rw [show (s.locked who).endHeight - s.height - 1 = y by omega,
    show (s.locked who).endHeight - s.height + 1 = y + 2 by omega, Nat.mul_add]
  omega

omit [DecidableEq CurrencyId] in
/-- A lock is replaced by one with the same end that holds no less, or by a new one. -/
theorem Additive.relock (ha : Additive cfg s) (hs : Sound cfg s) (hs' : Sound cfg s')
    (hl : l.Valid cfg s.height) (hslope : (s.locked who).slope cfg ≤ l.slope cfg)
    (hend : (s.locked who).endHeight = l.endHeight ∨ (s.locked who).slope cfg = 0)
    (hcond : (s.locked who).slope cfg < l.slope cfg → s.height < l.endHeight ∧
      s.lastPoint.slope * (l.endHeight - s.height - 1) ≤ s.lockedPower cfg s.height ∧
        s.lockedPower cfg s.height ≤ s.lastPoint.slope * (l.endHeight - s.height + 1))
    (hlow : l.endHeight = 0 ∨ cfg.maxPeriod ≤ l.amount)
    (hheight : s'.height = s.height) (hlocked : s'.locked = Function.update s.locked who l)
    (hlast : s'.lastPoint = (checkpoint cfg who (s.locked who) l s).lastPoint)
    (hchanges : s'.slopeChanges = (checkpoint cfg who (s.locked who) l s).slopeChanges) :
    Additive cfg s' := by
  obtain ⟨Δ, hΔ⟩ := Nat.le.dest hslope
  have hpower : ∀ height, s'.lockedPower cfg height =
      s.lockedPower cfg height + Δ * (l.endHeight - height) := by
    intro height
    have h := lockedPower_update cfg hlocked height
    rw [← hΔ, Nat.add_mul] at h
    rcases hend with hend | hzero
    · rw [hend] at h
      omega
    · rw [hzero, Nat.zero_mul] at h
      omega
  have hpoint : s'.lastPoint = ⟨s.lockedPower cfg s.height + Δ * (l.endHeight - s.height),
      s.lastPoint.slope + Δ, s.height⟩ := by
    have hbias : (l.point cfg s.height).bias - ((s.locked who).point cfg s.height).bias =
        Δ * (l.endHeight - s.height) := by
      rw [LockedBalance.point_bias hl, LockedBalance.point_bias (hs.pointed.valid who), ← hΔ,
        Nat.add_mul]
      rcases hend with hend | hzero
      · rw [hend]
        omega
      · rw [hzero, Nat.zero_mul]
        omega
    have hdelta : (l.point cfg s.height).slope - ((s.locked who).point cfg s.height).slope = Δ := by
      rw [LockedBalance.point_slope, LockedBalance.point_slope]
      by_cases hgrow : (s.locked who).slope cfg < l.slope cfg
      · rw [if_pos (hcond hgrow).1]
        rcases hend with hend | hzero
        · rw [if_pos (hend ▸ (hcond hgrow).1)]
          omega
        · rw [hzero, ite_self]
          omega
      · rcases hend with hend | hzero
        · rw [hend]
          split <;> omega
        · split <;> omega
    rw [checkpoint_lastPoint, filled_eq ha hs, hbias, hdelta] at hlast
    have hfit := lockedPower_le hs' hheight.le
    have hmax : maxPower ≤ maxBalance := by decide
    rw [hpower] at hfit
    rw [hlast, saturatingAdd_of_le (hfit.trans hmax), saturatingAdd_of_lt]
    have hlt := hs'.paced.slope_lt_maxBalance
    rwa [hlast] at hlt
  refine ⟨fun e => ?_, fun height hle => ?_, fun u => ?_⟩
  · rw [hchanges, checkpoint_slopeChanges, oldChange, ha.unchanged, ha.unchanged, saturatingAdd]
    split_ifs <;> omega
  · rw [hpoint] at hle ⊢
    obtain ⟨x, rfl⟩ := Nat.le.dest hle
    rw [hpower, lockedPower_later ha hs, Nat.add_sub_cancel_left, ← Nat.sub_sub]
    rcases Nat.eq_zero_or_pos Δ with rfl | hpos
    · rw [Nat.zero_mul, Nat.zero_mul, Nat.add_zero, Nat.add_zero, Nat.add_zero]
    · obtain ⟨-, hfrom, hto⟩ := hcond (by omega)
      exact lines_add hfrom hto x
  · rw [hlocked]
    by_cases hu : u = who
    · rwa [hu, Function.update_self]
    · rw [Function.update_of_ne hu]
      exact ha.low u

omit [DecidableEq CurrencyId] in
/-- A lock that has ended is removed. -/
theorem Additive.unlock (ha : Additive cfg s) (hs : Sound cfg s)
    (hend : (s.locked who).endHeight ≤ s.height)
    (hlocked : s'.locked = Function.update s.locked who .default)
    (hlast : s'.lastPoint = (checkpoint cfg who (s.locked who) .default s).lastPoint)
    (hchanges : s'.slopeChanges = (checkpoint cfg who (s.locked who) .default s).slopeChanges) :
    Additive cfg s' := by
  obtain ⟨-, hbias, hslope⟩ := hs.paced.filled_spec
  have hpoint : LockedBalance.default.point cfg s.height = .default :=
    if_neg fun h => Nat.not_lt_zero _ h.1
  have hpower : ∀ height, s.height ≤ height →
      s'.lockedPower cfg height = s.lockedPower cfg height := by
    intro height hle
    have h := lockedPower_update cfg hlocked height
    rw [Nat.sub_eq_zero_of_le (hend.trans hle), Nat.mul_zero] at h
    rw [← Nat.add_zero (s'.lockedPower cfg height), h]
    simp [LockedBalance.default]
  rw [checkpoint_lastPoint, hpoint, Point.default, Nat.zero_sub, Nat.zero_sub,
    saturatingAdd_zero hbias, saturatingAdd_zero hslope] at hlast
  refine ⟨fun e => ?_, fun height hle => ?_, fun u => ?_⟩
  · rw [hchanges, checkpoint_slopeChanges, if_neg fun h => Nat.not_lt_zero _ h.1,
      if_neg fun h => absurd h.1 (Nat.not_lt.mpr hend)]
    exact ha.unchanged e
  · rw [hlast, filled_eq ha hs] at hle ⊢
    obtain ⟨x, rfl⟩ := Nat.le.dest hle
    rw [hpower _ hle, lockedPower_later ha hs, Nat.add_sub_cancel_left]
  · rw [hlocked]
    by_cases hu : u = who
    · rw [hu, Function.update_self]
      exact .inl rfl
    · rw [Function.update_of_ne hu]
      exact ha.low u

private theorem Additive.moves (ha : Additive cfg s) (hs : Sound cfg s) (h : Moves cfg s op s')
    (hsucceeds : (op.call cfg).succeeds s = true) (haligned : op.Aligned cfg s) :
    Additive cfg s' := by
  have hs' := hs.moves h
  cases h with
  | toBlock height hle hmax => exact ⟨ha.unchanged, ha.supply, ha.low⟩
  | settle op limits blocks => exact ⟨ha.unchanged, ha.supply, ha.low⟩
  | @relock op who l h hlow hfree r hr =>
    have hvalid := h.valid hs.pointed
    cases h with
    | createLock free who amount unlockHeight hold hfuture hbound =>
      have hzero : (s.locked who).slope cfg = 0 := by
        rw [LockedBalance.slope, hold, Nat.zero_div]
      exact ha.relock hs hs' hvalid (hzero.le.trans (Nat.zero_le _)) (.inr hzero)
        (fun _ => ⟨hfuture, haligned hsucceeds⟩) (.inr hlow) rfl rfl rfl rfl
    | increaseAmount free who amount hend =>
      have hle : (s.locked who).amount ≤ saturatingAdd (s.locked who).amount amount :=
        le_min (Nat.le_add_right _ _) (hs.pointed.valid who).amount_le
      refine ha.relock hs hs' hvalid (Nat.div_le_div_right hle) (.inl rfl)
        (fun hgrow => ⟨hend, ?_⟩) (.inr hlow) rfl rfl rfl rfl
      refine (slope_eq_zero_or ha hs hend).resolve_left fun hzero => ?_
      have hamount := (ha.low who).resolve_left (by omega)
      rw [hzero] at hgrow
      have hperiod : 0 < cfg.maxPeriod := by
        refine Nat.pos_of_ne_zero fun h => ?_
        rw [LockedBalance.slope, h, Nat.div_zero] at hgrow
        exact Nat.lt_irrefl _ hgrow
      have hpos := Nat.div_pos hamount hperiod
      rw [LockedBalance.slope] at hzero
      omega
    | increaseUnlockHeight free who unlockHeight hend hincrease hbound =>
      exact absurd (hsucceeds.symm.trans haligned) (by decide)
    | updateUserStake free who =>
      have hlock : saturatingAdd (s.locked who).amount 0 = (s.locked who).amount :=
        saturatingAdd_zero (hs.pointed.valid who).amount_le
      have hslope : (⟨saturatingAdd (s.locked who).amount 0, (s.locked who).endHeight⟩ :
          LockedBalance).slope cfg = (s.locked who).slope cfg := by
        rw [LockedBalance.slope, hlock, LockedBalance.slope]
      exact ha.relock hs hs' hvalid hslope.ge (.inl rfl)
        (fun hgrow => absurd (hslope ▸ hgrow) (Nat.lt_irrefl _)) (.inr hlow) rfl rfl rfl rfl
  | withdraw who hend hr =>
    exact ha.unlock hs hend rfl rfl rfl

private theorem Additive.step (ha : Additive cfg s) (hs : Sound cfg s)
    (haligned : op.Aligned cfg s) :
    Additive cfg (Escrow.step cfg s op) := by
  rcases step_moves s op with h | ⟨hsucceeds, h⟩
  · rwa [h]
  · exact ha.moves hs h hsucceeds haligned

omit [DecidableEq AccountId] [DecidableEq CurrencyId] in
private theorem Additive.totalSupply_eq (ha : Additive cfg s) (hs : Sound cfg s)
    (hle : s.height ≤ height) (hmax : height ≤ maxBlockNumber) :
    s.totalSupply cfg height = ∑ u, s.balanceAt u height := by
  have hts := hs.paced.ts_le.trans hle
  rw [totalSupply, supplyAt, EscrowConfig.extrapolate_of_zero ha.unchanged
    hs.paced.slope_lt_maxBalance.le (cfg.roundHeight_le _) hts (cfg.lt_roundHeight_add _) hmax
    (hs.paced.fits hmax) (by omega), ha.supply height hts, lockedPower_eq_balances hs.pointed hle]

/-- In a run in which no lock is extended, and every lock is created to end within a block of the
height at which the voting power runs out, the total supply at the current and every later height
is the sum of the balances at that height. -/
theorem totalSupply_eq_sum (cfg : EscrowConfig) (ops : List (Op AccountId)) :
    Meets (Escrow.step cfg) (fun s op => op.Aligned cfg s)
        (Escrow.default : Escrow AccountId CurrencyId FixedI128) ops →
      let s : Escrow AccountId CurrencyId FixedI128 :=
        run (Escrow.step cfg) Escrow.default ops
      ∀ height, s.height ≤ height → height ≤ maxBlockNumber →
        s.totalSupply cfg height = ∑ u, s.balanceAt u height := by
  intro hmeets s height hle hmax
  have hstep : ∀ (s : Escrow AccountId CurrencyId FixedI128) (op : Op AccountId),
      Additive cfg s ∧ Sound cfg s → op.Aligned cfg s →
        Additive cfg (Escrow.step cfg s op) ∧ Sound cfg (Escrow.step cfg s op) :=
    fun s op hs hop => ⟨hs.1.step hs.2 hop, hs.2.step op⟩
  have h : Additive cfg s ∧ Sound cfg s := run_invariant hstep ⟨.default, .default⟩ hmeets
  exact h.1.totalSupply_eq h.2 hle hmax

/-- Two locks that end together. -/
def alignedLocks : List (Op (Fin 2)) :=
  [.toBlock 5, .createLock (fun _ => 1500) 0 1000 60, .toBlock 12,
    .createLock (fun _ => 1500) 1 600 60, .increaseAmount (fun _ => 1500) 0 200, .toBlock 33]

/-- Two locks that end together meet the condition. -/
theorem totalSupply_eq_sum_alignedLocks :
    let s : Escrow (Fin 2) Unit FixedI128 := run (Escrow.step mockConfig) Escrow.default alignedLocks
    s.totalSupply mockConfig 50 = ∑ u, s.balanceAt u 50 :=
  totalSupply_eq_sum mockConfig alignedLocks (by decide +kernel) 50 (by decide +kernel) (by decide)

/-- The end of the first of two locks is never scheduled, and the voting power that is left after
it falls too fast. -/
theorem totalSupply_ne_sum :
    let s : Escrow (Fin 2) Unit FixedI128 := run (Escrow.step mockConfig) Escrow.default twoLocks
    s.height = 33 ∧ s.totalSupply mockConfig 50 = 0 ∧ ∑ u, s.balanceAt u 50 = 100 := by
  decide +kernel

end Escrow

end Interbtc
