import Interbtc.Escrow.Staked
import Interbtc.Escrow.Walk

/-!
# No walk overflows

Locks that end at one height of the grid have at most the staked voting power as slopes,
and so have the changes scheduled there. The slope of the last point therefore grows by a
bounded amount with each span, and its products with numbers of blocks fit in a balance.
-/

namespace Interbtc

open Core

namespace EscrowConfig

variable {cfg : EscrowConfig} {slopeChanges : ℕ → ℕ} {now target tI fuel epoch K : ℕ} {p : Point}
  {history : ℕ → Point}

/-- The slope grows by at most `K` at each height of the grid that is passed. -/
theorem strideTo_slope_le (hgrid : cfg.roundHeight tI = tI) (hts : p.ts < tI + cfg.span)
    (hlt : tI < target) (hmax : target ≤ maxBlockNumber)
    (hchanges : ∀ e, p.ts < e → slopeChanges e ≤ K)
    (hoff : ∀ e, cfg.roundHeight e ≠ e → slopeChanges e = 0) :
    (cfg.strideTo slopeChanges target tI p).slope + K * (tI / cfg.span) ≤
      p.slope + K * ((cfg.strideTo slopeChanges target tI p).ts / cfg.span) := by
  have hslope : (cfg.strideTo slopeChanges target tI p).slope ≤
      p.slope + (cfg.stride slopeChanges target tI).2 := min_le_left _ _
  have hqts : (cfg.strideTo slopeChanges target tI p).ts =
      (cfg.stride slopeChanges target tI).1 := rfl
  rw [hqts]
  rcases stride_cases cfg slopeChanges tI hmax with
    ⟨-, -, h⟩ | ⟨-, h⟩ | ⟨hbelow, -, h⟩ <;> rw [h] at hslope ⊢ <;> dsimp only at hslope ⊢
  · have := Nat.mul_le_mul_left K (Nat.div_le_div_right (c := cfg.span) hlt.le)
    omega
  · have hK := hchanges (tI + cfg.span) hts
    rw [Nat.add_div_right _ cfg.span_pos, Nat.mul_succ]
    omega
  · have hzero : slopeChanges target = 0 := by
      refine hoff target ?_
      rw [roundHeight_eq hgrid hlt.le hbelow]
      omega
    have := Nat.mul_le_mul_left K (Nat.div_le_div_right (c := cfg.span) hlt.le)
    omega

private theorem fillHistory_slope_le (fuel epoch : ℕ) (history : ℕ → Point)
    (hgrid : cfg.roundHeight tI = tI) (htI : tI ≤ p.ts) (hts : p.ts < tI + cfg.span)
    (hnow : p.ts ≤ now) (hmax : now ≤ maxBlockNumber)
    (hchanges : ∀ e, p.ts < e → slopeChanges e ≤ K)
    (hoff : ∀ e, cfg.roundHeight e ≠ e → slopeChanges e = 0) :
    (cfg.fillHistory slopeChanges now fuel tI epoch p history).2.1.slope + K * (tI / cfg.span) ≤
      p.slope + K * (now / cfg.span) := by
  induction fuel generalizing tI epoch p history with
  | zero =>
    have := Nat.mul_le_mul_left K (Nat.div_le_div_right (c := cfg.span) (htI.trans hnow))
    change p.slope + _ ≤ _
    omega
  | succ fuel ih =>
    by_cases hlt : tI < now
    · have hone := strideTo_slope_le hgrid hts hlt hmax hchanges hoff
      have hqts : (cfg.strideTo slopeChanges now tI p).ts =
          (cfg.stride slopeChanges now tI).1 := rfl
      rw [fillHistory_succ, if_pos hlt]
      dsimp only
      by_cases harrive : (cfg.strideTo slopeChanges now tI p).ts = now
      · rw [if_pos harrive]
        rwa [harrive] at hone
      · rw [if_neg harrive]
        rcases stride_cases cfg slopeChanges tI hmax with
          ⟨-, -, h⟩ | ⟨hspan, h⟩ | ⟨-, -, h⟩ <;> rw [h] at hqts <;> dsimp only at hqts
        · exact absurd hqts harrive
        · have hgrid' : cfg.roundHeight (cfg.strideTo slopeChanges now tI p).ts =
              (cfg.strideTo slopeChanges now tI p).ts := by
            rw [hqts]
            exact roundHeight_add_span hgrid
          have hpos := cfg.span_pos
          have hrest := ih (min (epoch + 1) maxNonce) (Function.update history
            (min (epoch + 1) maxNonce) (cfg.strideTo slopeChanges now tI p)) hgrid' le_rfl
            (by omega) (by omega) fun e he => hchanges e (by omega)
          omega
        · exact absurd hqts harrive
    · have := Nat.mul_le_mul_left K (Nat.div_le_div_right (c := cfg.span) (htI.trans hnow))
      rw [fillHistory_of_le (by omega)]
      change p.slope + _ ≤ _
      omega

/-- Slopes that grow by a bounded amount with each span do not overflow. -/
theorem fits_of_slope_le (hK : 3 * K * maxBlockNumber ≤ maxBalance)
    (hgrid : cfg.roundHeight tI = tI) (htI : tI ≤ p.ts) (hts : p.ts < tI + cfg.span)
    (hmax : target ≤ maxBlockNumber) (hslope : p.slope ≤ 2 * K * (tI / cfg.span) + K)
    (hchanges : ∀ e, p.ts < e → slopeChanges e ≤ K) :
    cfg.Fits slopeChanges target fuel tI p := by
  induction fuel generalizing tI p with
  | zero => trivial
  | succ fuel ih =>
    intro hlt
    have hqts : (cfg.strideTo slopeChanges target tI p).ts =
        (cfg.stride slopeChanges target tI).1 := rfl
    have hle : (cfg.stride slopeChanges target tI).1 ≤ target ∧
        (cfg.stride slopeChanges target tI).1 ≤ tI + cfg.span := by
      rcases stride_cases cfg slopeChanges tI hmax with
        ⟨h', -, h⟩ | ⟨h', h⟩ | ⟨h', -, h⟩ <;> rw [h] <;> dsimp only <;> omega
    constructor
    · set d := (cfg.stride slopeChanges target tI).1 - p.ts with hd
      calc p.slope * d ≤ (2 * K * (tI / cfg.span) + K) * d := Nat.mul_le_mul_right _ hslope
        _ = 2 * K * (tI / cfg.span * d) + K * d := by ring
        _ ≤ 2 * K * (tI / cfg.span * cfg.span) + K * maxBlockNumber := by
          refine Nat.add_le_add (Nat.mul_le_mul_left _ (Nat.mul_le_mul_left _ ?_))
            (Nat.mul_le_mul_left _ ?_) <;> omega
        _ ≤ 2 * K * maxBlockNumber + K * maxBlockNumber := by
          have hround := roundHeight_le cfg tI
          rw [roundHeight] at hround
          exact Nat.add_le_add_right (Nat.mul_le_mul_left _ (by omega)) _
        _ = 3 * K * maxBlockNumber := by ring
        _ ≤ maxBalance := hK
    · intro hbeyond
      rcases stride_cases cfg slopeChanges tI hmax with
        ⟨-, -, h⟩ | ⟨hspan, h⟩ | ⟨-, -, h⟩ <;> rw [h] at hqts <;> dsimp only at hqts
      · exact absurd hqts hbeyond
      · have hgrid' : cfg.roundHeight (cfg.strideTo slopeChanges target tI p).ts =
            (cfg.strideTo slopeChanges target tI p).ts := by
          rw [hqts]
          exact roundHeight_add_span hgrid
        have hpos := cfg.span_pos
        refine ih hgrid' le_rfl (by omega) ?_ fun e he => hchanges e (by omega)
        have hone : (cfg.strideTo slopeChanges target tI p).slope ≤
            p.slope + slopeChanges (tI + cfg.span) := by
          have hmin : (cfg.strideTo slopeChanges target tI p).slope ≤
              p.slope + (cfg.stride slopeChanges target tI).2 := min_le_left _ _
          rwa [h] at hmin
        have hchange := hchanges (tI + cfg.span) hts
        rw [hqts, Nat.add_div_right _ cfg.span_pos, Nat.mul_succ]
        omega
      · exact absurd hqts hbeyond

end EscrowConfig

namespace Escrow

variable {AccountId CurrencyId F : Type} [DecidableEq AccountId] {cfg : EscrowConfig}
  {s s' : Escrow AccountId CurrencyId F} {who : AccountId} {l : LockedBalance} {e : ℕ}

/-! ## What a checkpoint writes -/

/-- The point to which the history is filled up by a checkpoint. -/
def filled (cfg : EscrowConfig) (s : Escrow AccountId CurrencyId F) : Point :=
  (cfg.fillHistory s.slopeChanges s.height (s.height + 1) (cfg.roundHeight s.lastPoint.ts) s.epoch
    s.lastPoint s.pointHistory).2.1

/-- The last point is moved on to now, and counts the new lock in place of the old. -/
theorem checkpoint_lastPoint {old new : LockedBalance} :
    (checkpoint cfg who old new s).lastPoint =
      { bias := saturatingAdd (s.filled cfg).bias
          ((new.point cfg s.height).bias - (old.point cfg s.height).bias)
        slope := saturatingAdd (s.filled cfg).slope
          ((new.point cfg s.height).slope - (old.point cfg s.height).slope)
        ts := (s.filled cfg).ts } := by
  simp [checkpoint, checkpointUser, scheduleSlopes, checkpointHistory, lastPoint, filled]

/-- The slope change at the old end after a checkpoint. -/
def oldChange (cfg : EscrowConfig) (old new : LockedBalance)
    (s : Escrow AccountId CurrencyId F) : ℕ :=
  if new.endHeight = old.endHeight then
    saturatingAdd (s.slopeChanges old.endHeight) (old.slope cfg) - new.slope cfg
  else saturatingAdd (s.slopeChanges old.endHeight) (old.slope cfg)

/-- The slope changes at the end of the new lock, where it is later than the old. -/
theorem checkpoint_slopeChanges {old new : LockedBalance} (e : ℕ) :
    (checkpoint cfg who old new s).slopeChanges e =
      if s.height < new.endHeight ∧ old.endHeight < new.endHeight ∧ e = new.endHeight then
        s.slopeChanges e - new.slope cfg
      else if s.height < old.endHeight ∧ e = old.endHeight then s.oldChange cfg old new
      else s.slopeChanges e := by
  have hold : s.height < old.endHeight → (old.point cfg s.height).slope = old.slope cfg :=
    fun h => by rw [LockedBalance.point_slope, if_pos h]
  have hnew : s.height < new.endHeight → (new.point cfg s.height).slope = new.slope cfg :=
    fun h => by rw [LockedBalance.point_slope, if_pos h]
  change (scheduleSlopes old new (old.point cfg s.height) (new.point cfg s.height)
    s).slopeChanges e = _
  simp only [scheduleSlopes, oldChange, ite_apply, Function.update_apply]
  by_cases hn : s.height < new.endHeight ∧ old.endHeight < new.endHeight
  · have hne : new.endHeight ≠ old.endHeight := by omega
    have hpos : new.endHeight ≠ 0 := by omega
    by_cases he : e = new.endHeight
    · simp only [he, hn, hne, hpos, hnew hn.1, ne_eq, not_false_eq_true, and_self, if_true, if_false]
    · by_cases ho : s.height < old.endHeight
      · simp only [he, hn, hne, ho, hold ho, and_self, and_false, true_and, if_true, if_false]
      · simp only [he, hn, ho, and_self, and_false, false_and, if_true, if_false]
  · have hn' : ¬(s.height < new.endHeight ∧ old.endHeight < new.endHeight ∧
        e = new.endHeight) := fun h => hn ⟨h.1, h.2.1⟩
    simp only [hn, hn', if_false]
    by_cases ho : s.height < old.endHeight
    · by_cases hsame : new.endHeight = old.endHeight
      · simp only [ho, hsame, hold ho, hnew (hsame ▸ ho), true_and, if_true]
      · simp only [ho, hsame, hold ho, true_and, if_true, if_false]
    · simp only [ho, false_and, if_false]

/-- Only a lock that gets another end adds to a slope change, at its old end. -/
theorem checkpoint_slopeChanges_le (who : AccountId) {old new : LockedBalance}
    (hslope : s.height < old.endHeight → old.slope cfg ≤ new.slope cfg) (e : ℕ) :
    (checkpoint cfg who old new s).slopeChanges e ≤ s.slopeChanges e +
      if e = old.endHeight ∧ s.height < e ∧ new.endHeight ≠ e then old.slope cfg else 0 := by
  rw [checkpoint_slopeChanges]
  by_cases hn : s.height < new.endHeight ∧ old.endHeight < new.endHeight ∧ e = new.endHeight
  · rw [if_pos hn]
    omega
  · rw [if_neg hn]
    by_cases ho : s.height < old.endHeight ∧ e = old.endHeight
    · obtain ⟨hlt, rfl⟩ := ho
      have hle : saturatingAdd (s.slopeChanges old.endHeight) (old.slope cfg) ≤
          s.slopeChanges old.endHeight + old.slope cfg := min_le_left _ _
      have hslope' := hslope hlt
      rw [if_pos ⟨hlt, rfl⟩, oldChange]
      by_cases hsame : new.endHeight = old.endHeight
      · rw [if_pos hsame, if_neg fun h => h.2.2 hsame]
        omega
      · rw [if_neg hsame, if_pos ⟨rfl, hlt, hsame⟩]
        exact hle
    · rw [if_neg ho]
      exact Nat.le_add_right _ _

/-! ## The invariant -/

variable [Fintype AccountId]

/-- The slopes of the locks that last beyond a height. -/
def slopeBeyond (cfg : EscrowConfig) (s : Escrow AccountId CurrencyId F) (height : ℕ) : ℕ :=
  ∑ u, if height < (s.locked u).endHeight then (s.locked u).slope cfg else 0

/-- Slope changes are covered by locks that last longer, and the slope of the last point by what
each span can have added to it. -/
structure Paced (cfg : EscrowConfig) (s : Escrow AccountId CurrencyId F) : Prop where
  height_le : s.height ≤ maxBlockNumber
  ts_le : s.lastPoint.ts ≤ s.height
  bias_le : s.lastPoint.bias ≤ maxBalance
  grid : ∀ u, cfg.roundHeight (s.locked u).endHeight = (s.locked u).endHeight
  offGrid : ∀ e, cfg.roundHeight e ≠ e → s.slopeChanges e = 0
  weight : ∀ u, s.lastPoint.ts < (s.locked u).endHeight →
    (s.locked u).slope cfg ≤ (s.userPoint u).bias
  total : ∑ u, (s.userPoint u).bias ≤ maxPower
  changes : ∀ e, s.lastPoint.ts < e → s.slopeChanges e ≤ s.slopeBeyond cfg e
  slope_le : s.lastPoint.slope ≤
    2 * maxPower * (s.lastPoint.ts / cfg.span) + s.slopeBeyond cfg s.lastPoint.ts

namespace Paced

omit [DecidableEq AccountId] in
private theorem slopeBeyond_le (hs : Paced cfg s) (he : s.lastPoint.ts ≤ e) :
    s.slopeBeyond cfg e ≤ maxPower := by
  refine (Finset.sum_le_sum fun u _ => ?_).trans hs.total
  split
  · exact hs.weight u (by omega)
  · exact Nat.zero_le _

omit [DecidableEq AccountId] in
/-- A slope change is at most all the power there can be. -/
theorem changes_le (hs : Paced cfg s) (he : s.lastPoint.ts < e) :
    s.slopeChanges e ≤ maxPower :=
  (hs.changes e he).trans (hs.slopeBeyond_le he.le)

omit [DecidableEq AccountId] in
/-- The slope of the last point is in range. -/
theorem slope_lt_maxBalance (hs : Paced cfg s) : s.lastPoint.slope < maxBalance := by
  have hbeyond := hs.slopeBeyond_le (e := s.lastPoint.ts) le_rfl
  have hslope := hs.slope_le
  have hts : s.lastPoint.ts / cfg.span ≤ maxBlockNumber :=
    (Nat.div_le_self _ _).trans (hs.ts_le.trans hs.height_le)
  have hmul := Nat.mul_le_mul_left (2 * maxPower) hts
  have hmax : 2 * maxPower * maxBlockNumber + maxPower < maxBalance := by decide
  omega

omit [DecidableEq AccountId] in
/-- No walk from the last point overflows. -/
theorem fits (hs : Paced cfg s) {target fuel : ℕ} (hmax : target ≤ maxBlockNumber) :
    cfg.Fits s.slopeChanges target fuel (cfg.roundHeight s.lastPoint.ts) s.lastPoint := by
  refine EscrowConfig.fits_of_slope_le (K := maxPower) (by decide) (cfg.roundHeight_roundHeight _)
    (cfg.roundHeight_le _) (cfg.lt_roundHeight_add _) hmax ?_ fun e he => hs.changes_le he
  have hdiv : cfg.roundHeight s.lastPoint.ts / cfg.span = s.lastPoint.ts / cfg.span :=
    Nat.mul_div_cancel _ cfg.span_pos
  have hbeyond := hs.slopeBeyond_le (e := s.lastPoint.ts) le_rfl
  have hslope := hs.slope_le
  rw [hdiv]
  omega

omit [DecidableEq AccountId] in
/-- The point to which the history is filled up is made for the current height. -/
theorem filled_spec (hs : Paced cfg s) : (s.filled cfg).ts = s.height ∧
    (s.filled cfg).bias ≤ maxBalance ∧ (s.filled cfg).slope ≤ maxBalance :=
  EscrowConfig.fillHistory_spec hs.height_le (by omega) (cfg.roundHeight_le _) hs.ts_le hs.bias_le
    hs.slope_lt_maxBalance.le

omit [DecidableEq AccountId] in
private theorem filled_slope_le (hs : Paced cfg s) :
    (s.filled cfg).slope + maxPower * (s.lastPoint.ts / cfg.span) ≤
      s.lastPoint.slope + maxPower * (s.height / cfg.span) := by
  have h := EscrowConfig.fillHistory_slope_le (s.height + 1) s.epoch s.pointHistory
    (cfg.roundHeight_roundHeight _) (cfg.roundHeight_le _) (cfg.lt_roundHeight_add _) hs.ts_le
    hs.height_le (fun e he => hs.changes_le he) hs.offGrid
  have hdiv : cfg.roundHeight s.lastPoint.ts / cfg.span = s.lastPoint.ts / cfg.span :=
    Nat.mul_div_cancel _ cfg.span_pos
  rwa [hdiv] at h

omit [DecidableEq AccountId] in
/-- No lock ends between the last point and the current height, unless a span does. -/
theorem slopeBeyond_eq (hs : Paced cfg s)
    (h : s.lastPoint.ts / cfg.span = s.height / cfg.span) :
    s.slopeBeyond cfg s.height = s.slopeBeyond cfg s.lastPoint.ts := by
  refine Finset.sum_congr rfl fun u _ => ?_
  have hts := hs.ts_le
  have hgrid := hs.grid u
  have hiff : s.height < (s.locked u).endHeight ↔ s.lastPoint.ts < (s.locked u).endHeight := by
    refine ⟨fun hlt => by omega, fun hlt => ?_⟩
    by_contra hle
    rw [EscrowConfig.roundHeight] at hgrid
    have h₁ : s.lastPoint.ts / cfg.span < (s.locked u).endHeight / cfg.span := by
      rwa [Nat.div_lt_iff_lt_mul cfg.span_pos, hgrid]
    have h₂ := Nat.div_le_div_right (c := cfg.span) (Nat.le_of_not_lt hle)
    omega
  simp only [hiff]

end Paced

private theorem slopeBeyond_update (cfg : EscrowConfig)
    (hlocked : s'.locked = Function.update s.locked who l) (e : ℕ) :
    s'.slopeBeyond cfg e +
        (if e < (s.locked who).endHeight then (s.locked who).slope cfg else 0) =
      s.slopeBeyond cfg e + if e < l.endHeight then l.slope cfg else 0 := by
  rw [slopeBeyond, hlocked]
  exact sum_update_add (fun _ l => if e < l.endHeight then l.slope cfg else 0) s.locked who l

/-- A checkpoint with a lock that holds no less and ends no earlier while the old one lasts. -/
theorem Paced.relock (hs : Paced cfg s) (who : AccountId) (l : LockedBalance)
    (hl : cfg.roundHeight l.endHeight = l.endHeight)
    (hslope : s.height < (s.locked who).endHeight → (s.locked who).slope cfg ≤ l.slope cfg)
    (hend : s.height < (s.locked who).endHeight →
      (s.locked who).endHeight ≤ l.endHeight ∨ (s.locked who).slope cfg = 0)
    (hheight : s'.height = s.height) (hlocked : s'.locked = Function.update s.locked who l)
    (hlast : s'.lastPoint = (checkpoint cfg who (s.locked who) l s).lastPoint)
    (hchanges : s'.slopeChanges = (checkpoint cfg who (s.locked who) l s).slopeChanges)
    (hpoint : ∀ u, u ≠ who → s'.userPoint u = s.userPoint u)
    (hbias : s.height < l.endHeight → l.slope cfg ≤ (s'.userPoint who).bias)
    (htotal : ∑ u, (s'.userPoint u).bias ≤ maxPower) : Paced cfg s' := by
  obtain ⟨hts, hfbias, hfslope⟩ := hs.filled_spec
  have hlast' : s'.lastPoint.ts = s.height := by rw [hlast, checkpoint_lastPoint, hts]
  have hterm : ∀ e, s.height ≤ e →
      (if e < (s.locked who).endHeight then (s.locked who).slope cfg else 0) ≤
        if e < l.endHeight then l.slope cfg else 0 := by
    intro e he
    by_cases hlt : e < (s.locked who).endHeight
    · rw [if_pos hlt]
      rcases hend (by omega) with hle | hzero
      · rw [if_pos (by omega)]
        exact hslope (by omega)
      · rw [hzero]
        exact Nat.zero_le _
    · rw [if_neg hlt]
      exact Nat.zero_le _
  refine ⟨?_, ?_, ?_, fun u => ?_, fun e he => ?_, fun u hu => ?_, htotal, fun e he => ?_, ?_⟩
  · rw [hheight]
    exact hs.height_le
  · rw [hlast', hheight]
  · rw [hlast, checkpoint_lastPoint]
    exact saturatingAdd_le _ _
  · rw [hlocked]
    by_cases hu : u = who
    · rwa [hu, Function.update_self]
    · rw [Function.update_of_ne hu]
      exact hs.grid u
  · rw [hchanges, checkpoint_slopeChanges]
    have hold : e ≠ (s.locked who).endHeight := fun h => he (h ▸ hs.grid who)
    have hnew : e ≠ l.endHeight := fun h => he (h ▸ hl)
    rw [if_neg fun h => hnew h.2.2, if_neg fun h => hold h.2]
    exact hs.offGrid e he
  · rw [hlast'] at hu
    rw [hlocked] at hu ⊢
    by_cases hwho : u = who
    · rw [hwho, Function.update_self] at hu ⊢
      exact hbias hu
    · rw [Function.update_of_ne hwho] at hu ⊢
      rw [hpoint u hwho]
      exact hs.weight u (by have := hs.ts_le; omega)
  · rw [hlast'] at he
    have hupdate := slopeBeyond_update cfg hlocked e
    have hle := checkpoint_slopeChanges_le who hslope e
    have hold := hs.changes e (by have := hs.ts_le; omega)
    have hmono := hterm e he.le
    rw [hchanges]
    by_cases hmoved : e = (s.locked who).endHeight ∧ s.height < e ∧ l.endHeight ≠ e
    · rw [if_pos hmoved] at hle
      have hact := hslope (by omega)
      rw [if_neg (by omega)] at hupdate
      rcases hend (by omega) with hle' | hzero
      · rw [if_pos (by omega)] at hupdate
        omega
      · omega
    · rw [if_neg hmoved] at hle
      omega
  · have hupdate := slopeBeyond_update cfg hlocked s.height
    have hmono := hterm s.height le_rfl
    have hfill := hs.filled_slope_le
    have hslope₀ := hs.slope_le
    have hsat : s'.lastPoint.slope ≤ (s.filled cfg).slope +
        ((l.point cfg s.height).slope - ((s.locked who).point cfg s.height).slope) := by
      rw [hlast, checkpoint_lastPoint]
      exact min_le_left _ _
    rw [LockedBalance.point_slope, LockedBalance.point_slope] at hsat
    rw [hlast']
    rw [Nat.mul_assoc] at hslope₀ ⊢
    have hdiv := Nat.div_le_div_right (c := cfg.span) hs.ts_le
    rcases Nat.eq_or_lt_of_le hdiv with heq | hlt
    · have hbeyond := hs.slopeBeyond_eq heq
      rw [heq] at hfill hslope₀
      omega
    · have hbeyond := hs.slopeBeyond_le (e := s.lastPoint.ts) le_rfl
      have hmul := Nat.mul_le_mul_left maxPower (Nat.succ_le_of_lt hlt)
      rw [Nat.mul_succ] at hmul
      omega

end Escrow

end Interbtc
