import Interbtc.Escrow.Pallet

/-!
# Walks over the grid of spans

The history is filled up to the current height by one loop, and the supply at a later
height is predicted by another. A walk that pauses at a height in between arrives at the
same supply, as long as no product of a slope and a number of blocks overflows.
-/

namespace Interbtc.EscrowConfig

open Core

variable {cfg : EscrowConfig} {slopeChanges : ℕ → ℕ} {now target tI fuel epoch : ℕ} {p : Point}
  {history : ℕ → Point}

/-! ## The grid -/

/-- A span starts at or before its heights. -/
theorem roundHeight_le (cfg : EscrowConfig) (height : ℕ) : cfg.roundHeight height ≤ height :=
  Nat.div_mul_le_self _ _

/-- A span ends after its heights. -/
theorem lt_roundHeight_add (cfg : EscrowConfig) (height : ℕ) :
    height < cfg.roundHeight height + cfg.span := by
  have h := Nat.lt_div_mul_add cfg.span_pos (a := height)
  rwa [roundHeight]

/-- The heights of one span have one start. -/
theorem roundHeight_eq {height : ℕ} (hgrid : cfg.roundHeight tI = tI) (hle : tI ≤ height)
    (hlt : height < tI + cfg.span) : cfg.roundHeight height = tI := by
  have hdiv : height / cfg.span = tI / cfg.span := by
    rw [roundHeight] at hgrid
    refine Nat.div_eq_of_lt_le ?_ ?_
    · rwa [hgrid]
    · rw [Nat.add_mul, Nat.one_mul, hgrid]
      exact hlt
  rw [roundHeight, hdiv]
  exact hgrid

/-- A span starts where the one before ends. -/
theorem roundHeight_add_span (hgrid : cfg.roundHeight tI = tI) :
    cfg.roundHeight (tI + cfg.span) = tI + cfg.span := by
  rw [roundHeight] at hgrid ⊢
  rw [Nat.add_div_right _ cfg.span_pos, Nat.succ_mul, hgrid]

/-- A rounded height stays as it is. -/
@[simp] theorem roundHeight_roundHeight (height : ℕ) :
    cfg.roundHeight (cfg.roundHeight height) = cfg.roundHeight height := by
  rw [roundHeight, roundHeight, Nat.mul_div_cancel _ cfg.span_pos]

/-- A stride goes to the next height on the grid, or to the target before it. -/
theorem stride_cases (cfg : EscrowConfig) (slopeChanges : ℕ → ℕ) (tI : ℕ)
    (hmax : target ≤ maxBlockNumber) :
    (target < tI + cfg.span ∧ target < maxBlockNumber ∧
      cfg.stride slopeChanges target tI = (target, 0)) ∨
    (tI + cfg.span ≤ target ∧
      cfg.stride slopeChanges target tI = (tI + cfg.span, slopeChanges (tI + cfg.span))) ∨
    (target < tI + cfg.span ∧ target = maxBlockNumber ∧
      cfg.stride slopeChanges target tI = (target, slopeChanges target)) := by
  unfold stride
  have hspan := cfg.span_pos
  by_cases h₁ : tI + cfg.span ≤ target
  · rw [min_eq_left (by omega), if_neg (by omega)]
    exact .inr (.inl ⟨h₁, rfl⟩)
  · by_cases h₂ : target = maxBlockNumber
    · rw [min_eq_right (by omega), if_neg (by omega), h₂]
      exact .inr (.inr ⟨by omega, rfl, rfl⟩)
    · rw [if_pos (by omega)]
      exact .inl ⟨by omega, by omega, rfl⟩

/-! ## One step of each loop -/

/-- The last point after a stride. -/
def strideTo (cfg : EscrowConfig) (slopeChanges : ℕ → ℕ) (target tI : ℕ) (p : Point) : Point where
  bias := p.bias - wrappingMul p.slope ((cfg.stride slopeChanges target tI).1 - p.ts)
  slope := saturatingAdd p.slope (cfg.stride slopeChanges target tI).2
  ts := (cfg.stride slopeChanges target tI).1

/-- A round strides to the next span, until the target is reached. -/
theorem extrapolate_succ : cfg.extrapolate slopeChanges target (fuel + 1) tI p =
    if tI < target then
      let q := cfg.strideTo slopeChanges target tI p
      if q.ts = target then q.bias else cfg.extrapolate slopeChanges target fuel q.ts q
    else p.bias := rfl

/-- A round strides to the next span and stores its point, until now is reached. -/
theorem fillHistory_succ :
    cfg.fillHistory slopeChanges now (fuel + 1) tI epoch p history =
      if tI < now then
        let q := cfg.strideTo slopeChanges now tI p
        let epoch := min (epoch + 1) maxNonce
        if q.ts = now then (epoch, q, history)
        else cfg.fillHistory slopeChanges now fuel q.ts epoch q (Function.update history epoch q)
      else (epoch, p, history) := rfl

/-- At the target the walk ends. -/
theorem extrapolate_of_le (h : target ≤ tI) :
    cfg.extrapolate slopeChanges target fuel tI p = p.bias := by
  cases fuel with
  | zero => rfl
  | succ fuel => rw [extrapolate_succ, if_neg (Nat.not_lt.mpr h)]

/-- The last point of the history does not depend on what it is stored in. -/
theorem fillHistory_of_le (h : now ≤ tI) :
    cfg.fillHistory slopeChanges now fuel tI epoch p history = (epoch, p, history) := by
  cases fuel with
  | zero => rfl
  | succ fuel => rw [fillHistory_succ, if_neg (Nat.not_lt.mpr h)]

/-- A stride that does not arrive has moved. -/
theorem lt_strideTo_ts (cfg : EscrowConfig) (slopeChanges : ℕ → ℕ) (p : Point)
    (hmax : target ≤ maxBlockNumber) (hlt : tI < target) :
    tI < (cfg.strideTo slopeChanges target tI p).ts := by
  have hspan := cfg.span_pos
  have hts : (cfg.strideTo slopeChanges target tI p).ts =
      (cfg.stride slopeChanges target tI).1 := rfl
  rcases stride_cases cfg slopeChanges tI hmax with ⟨-, -, h⟩ | ⟨-, h⟩ | ⟨-, -, h⟩ <;>
    rw [hts, h]
  · exact hlt
  · exact Nat.lt_add_of_pos_right hspan
  · exact hlt

/-- Enough fuel is as good as more. -/
theorem extrapolate_fuel (hmax : target ≤ maxBlockNumber) {fuel' : ℕ} (h : target - tI ≤ fuel)
    (h' : target - tI ≤ fuel') : cfg.extrapolate slopeChanges target fuel tI p =
      cfg.extrapolate slopeChanges target fuel' tI p := by
  induction fuel generalizing tI p fuel' with
  | zero => rw [extrapolate_of_le (by omega), extrapolate_of_le (by omega)]
  | succ fuel ih =>
    by_cases hlt : tI < target
    · obtain ⟨fuel', rfl⟩ : ∃ n, fuel' = n + 1 := ⟨fuel' - 1, by omega⟩
      have hts := lt_strideTo_ts cfg slopeChanges p hmax hlt
      rw [extrapolate_succ, extrapolate_succ, if_pos hlt, if_pos hlt]
      dsimp only
      split
      · rfl
      · exact ih (by omega) (by omega)
    · rw [extrapolate_of_le (by omega), extrapolate_of_le (by omega)]

/-! ## Overflow -/

/-- No product of a slope and a number of blocks overflows on the walk to a height. -/
def Fits (cfg : EscrowConfig) (slopeChanges : ℕ → ℕ) (target : ℕ) : (fuel tI : ℕ) → Point → Prop
  | 0, _, _ => True
  | fuel + 1, tI, p =>
    tI < target →
      p.slope * ((cfg.stride slopeChanges target tI).1 - p.ts) ≤ maxBalance ∧
        ((cfg.strideTo slopeChanges target tI p).ts ≠ target →
          Fits cfg slopeChanges target fuel (cfg.strideTo slopeChanges target tI p).ts
            (cfg.strideTo slopeChanges target tI p))

instance Fits.decidable (cfg : EscrowConfig) (slopeChanges : ℕ → ℕ) (target : ℕ) :
    ∀ fuel tI p, Decidable (cfg.Fits slopeChanges target fuel tI p)
  | 0, _, _ => inferInstanceAs (Decidable True)
  | fuel + 1, tI, p =>
    have := Fits.decidable cfg slopeChanges target fuel
      (cfg.strideTo slopeChanges target tI p).ts (cfg.strideTo slopeChanges target tI p)
    inferInstanceAs (Decidable (tI < target →
      p.slope * ((cfg.stride slopeChanges target tI).1 - p.ts) ≤ maxBalance ∧
        ((cfg.strideTo slopeChanges target tI p).ts ≠ target →
          cfg.Fits slopeChanges target fuel (cfg.strideTo slopeChanges target tI p).ts
            (cfg.strideTo slopeChanges target tI p))))

/-! ## A pause -/

/-- A pause within a stride changes nothing but the height of the point. -/
theorem strideTo_pause (hts : p.ts ≤ now) (hle : now ≤ (cfg.stride slopeChanges target tI).1)
    (hfits : p.slope * ((cfg.stride slopeChanges target tI).1 - p.ts) ≤ maxBalance) :
    cfg.strideTo slopeChanges target tI
        { bias := p.bias - wrappingMul p.slope (now - p.ts), slope := p.slope, ts := now } =
      cfg.strideTo slopeChanges target tI p := by
  set n := (cfg.stride slopeChanges target tI).1 with hn
  have hsplit : p.slope * (n - p.ts) = p.slope * (now - p.ts) + p.slope * (n - now) := by
    rw [← Nat.mul_add]
    congr 1
    omega
  have h₁ : wrappingMul p.slope (now - p.ts) = p.slope * (now - p.ts) :=
    wrappingMul_of_le (by omega)
  have h₂ : wrappingMul p.slope (n - now) = p.slope * (n - now) := wrappingMul_of_le (by omega)
  have h₃ : wrappingMul p.slope (n - p.ts) = p.slope * (n - p.ts) := wrappingMul_of_le hfits
  simp only [strideTo, ← hn, h₁, h₂, h₃]
  congr 1
  omega

/-- The last point that the history is filled up to. -/
theorem fillHistory_spec (hmax : now ≤ maxBlockNumber) (hfuel : now - tI ≤ fuel)
    (hts : tI ≤ p.ts) (hle : p.ts ≤ now) (hbias : p.bias ≤ maxBalance)
    (hslope : p.slope ≤ maxBalance) :
    (cfg.fillHistory slopeChanges now fuel tI epoch p history).2.1.ts = now ∧
      (cfg.fillHistory slopeChanges now fuel tI epoch p history).2.1.bias ≤ maxBalance ∧
      (cfg.fillHistory slopeChanges now fuel tI epoch p history).2.1.slope ≤ maxBalance := by
  induction fuel generalizing tI epoch p history with
  | zero =>
    have hnow : now ≤ p.ts := by omega
    rw [fillHistory_of_le (by omega)]
    exact ⟨Nat.le_antisymm hle hnow, hbias, hslope⟩
  | succ fuel ih =>
    by_cases hlt : tI < now
    · have hmoved := lt_strideTo_ts cfg slopeChanges p hmax hlt
      have hqbias : (cfg.strideTo slopeChanges now tI p).bias ≤ maxBalance :=
        (Nat.sub_le _ _).trans hbias
      have hqslope : (cfg.strideTo slopeChanges now tI p).slope ≤ maxBalance :=
        saturatingAdd_le _ _
      have hqts : (cfg.strideTo slopeChanges now tI p).ts ≤ now := by
        have hts : (cfg.strideTo slopeChanges now tI p).ts =
            (cfg.stride slopeChanges now tI).1 := rfl
        rcases stride_cases cfg slopeChanges tI hmax with ⟨-, -, h⟩ | ⟨h', h⟩ | ⟨-, -, h⟩ <;>
          rw [hts, h]
        exact h'
      rw [fillHistory_succ, if_pos hlt]
      dsimp only
      split
      · exact ⟨‹_›, hqbias, hqslope⟩
      · exact ih (by omega) le_rfl hqts hqbias hqslope
    · have hnow : now ≤ p.ts := by omega
      rw [fillHistory_of_le (by omega)]
      exact ⟨Nat.le_antisymm hle hnow, hbias, hslope⟩

/-- Both loops arrive at the same supply. -/
theorem fillHistory_bias : (cfg.fillHistory slopeChanges now fuel tI epoch p history).2.1.bias =
    cfg.extrapolate slopeChanges now fuel tI p := by
  induction fuel generalizing tI epoch p history with
  | zero => rfl
  | succ fuel ih =>
    rw [fillHistory_succ, extrapolate_succ]
    by_cases hlt : tI < now
    · rw [if_pos hlt, if_pos hlt]
      dsimp only
      split
      · rfl
      · exact ih
    · rw [if_neg hlt, if_neg hlt]

/-- Filling the history up to a height before the target does not change the supply that is
predicted for the target. The induction is on the strides that are stored. -/
theorem extrapolate_fillHistory {fuel' fuel'' : ℕ} (hgrid : cfg.roundHeight tI = tI)
    (hts : tI ≤ p.ts) (hlt : p.ts < tI + cfg.span) (hnow : p.ts ≤ now) (hle : now ≤ target)
    (hmax : target ≤ maxBlockNumber) (hslope : p.slope ≤ maxBalance)
    (hfits : cfg.Fits slopeChanges target fuel' tI p) (hfuel : now - tI ≤ fuel)
    (hfuel' : target - tI ≤ fuel') (hfuel'' : target - cfg.roundHeight now ≤ fuel'') :
    cfg.extrapolate slopeChanges target fuel'' (cfg.roundHeight now)
        (cfg.fillHistory slopeChanges now fuel tI epoch p history).2.1 =
      cfg.extrapolate slopeChanges target fuel' tI p := by
  induction fuel generalizing tI epoch p history fuel' with
  | zero =>
    have htI : now = tI := by omega
    subst htI
    rw [hgrid] at hfuel'' ⊢
    exact extrapolate_fuel hmax hfuel'' hfuel'
  | succ fuel ih =>
    by_cases hbefore : tI < now
    swap
    · have htI : now = tI := by omega
      subst htI
      rw [hgrid] at hfuel'' ⊢
      rw [fillHistory_of_le le_rfl]
      exact extrapolate_fuel hmax hfuel'' hfuel'
    obtain ⟨fuel', rfl⟩ : ∃ n, fuel' = n + 1 := ⟨fuel' - 1, by omega⟩
    have htarget : tI < target := by omega
    obtain ⟨hproduct, hrest⟩ := hfits htarget
    rw [fillHistory_succ, if_pos hbefore]
    dsimp only
    rcases stride_cases cfg slopeChanges tI (hle.trans hmax) with
      ⟨hbelow, hlast, hstride⟩ | ⟨hspan, hstride⟩ | ⟨hbelow, hlast, hstride⟩
    · -- The history ends within a stride, which the prediction resumes.
      have hround := roundHeight_eq hgrid hbefore.le hbelow
      have hq : cfg.strideTo slopeChanges now tI p =
          { bias := p.bias - wrappingMul p.slope (now - p.ts), slope := p.slope, ts := now } := by
        rw [strideTo, hstride]
        simp [saturatingAdd, hslope]
      have hlater : now ≤ (cfg.stride slopeChanges target tI).1 := by
        rcases stride_cases cfg slopeChanges tI hmax with
          ⟨-, -, h⟩ | ⟨h', h⟩ | ⟨-, -, h⟩ <;> rw [h]
        · exact hle
        · exact hbelow.le
        · exact hle
      rw [hq, if_pos rfl, hround]
      rw [hround] at hfuel''
      rw [extrapolate_fuel hmax hfuel'' hfuel', extrapolate_succ, extrapolate_succ,
        strideTo_pause hnow hlater hproduct, if_pos htarget, if_pos htarget]
    · -- The history takes a whole stride, and so does the prediction.
      have hstride' : cfg.stride slopeChanges target tI = cfg.stride slopeChanges now tI := by
        rcases stride_cases cfg slopeChanges tI hmax with
          ⟨h, -, -⟩ | ⟨-, h⟩ | ⟨h, -, -⟩
        · omega
        · rw [h, hstride]
        · omega
      have hq : cfg.strideTo slopeChanges target tI p = cfg.strideTo slopeChanges now tI p := by
        rw [strideTo, hstride']
        rfl
      have hqts : (cfg.strideTo slopeChanges now tI p).ts = tI + cfg.span := by
        rw [strideTo, hstride]
      rw [extrapolate_succ, if_pos htarget, hq]
      rw [hq] at hrest
      dsimp only
      by_cases harrive : (cfg.strideTo slopeChanges now tI p).ts = now
      · have hround : cfg.roundHeight now = now := by
          rw [← harrive, hqts]
          exact roundHeight_add_span hgrid
        rw [if_pos harrive, hround]
        rw [hround] at hfuel''
        split
        · exact extrapolate_of_le (by omega)
        · rw [harrive]
          exact extrapolate_fuel hmax hfuel'' (by omega)
      · have hbeyond : (cfg.strideTo slopeChanges now tI p).ts ≠ target := by omega
        rw [if_neg harrive, if_neg hbeyond]
        have hgrid' : cfg.roundHeight (cfg.strideTo slopeChanges now tI p).ts =
            (cfg.strideTo slopeChanges now tI p).ts := by
          rw [hqts]
          exact roundHeight_add_span hgrid
        have hspan := cfg.span_pos
        exact ih hgrid' le_rfl (by omega) (by omega) (saturatingAdd_le _ _) (hrest hbeyond)
          (by omega) (by omega)
    · -- Both walks end at the last block there is.
      have hsame : target = now := by omega
      subst hsame
      have hround := roundHeight_eq hgrid hbefore.le hbelow
      have hqts : (cfg.strideTo slopeChanges target tI p).ts = target := by
        rw [strideTo, hstride]
      rw [if_pos hqts, hround, extrapolate_succ, if_pos hbefore]
      dsimp only
      rw [if_pos hqts]
      rw [hround] at hfuel''
      obtain ⟨fuel'', rfl⟩ : ∃ n, fuel'' = n + 1 := ⟨fuel'' - 1, by omega⟩
      have hqts' : (cfg.strideTo slopeChanges target tI
          (cfg.strideTo slopeChanges target tI p)).ts = target := by
        rw [strideTo, hstride]
      rw [extrapolate_succ, if_pos hbefore]
      dsimp only
      rw [if_pos hqts']
      have hzero : (cfg.stride slopeChanges target tI).1 -
          (cfg.strideTo slopeChanges target tI p).ts = 0 := by
        rw [hqts, hstride]
        exact Nat.sub_self _
      rw [strideTo, hzero, wrappingMul, Nat.mul_zero, Nat.zero_mod, Nat.sub_zero]

end Interbtc.EscrowConfig
