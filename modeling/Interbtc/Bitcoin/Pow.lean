import Interbtc.Bitcoin.Types
import Mathlib.Tactic.Ring

/-!
# The difficulty of a new period

A target is adjusted by the time the last period took, which counts as at least a quarter
and at most four times the two weeks it should have taken.
-/

namespace Interbtc

open Core

/-- Two weeks in seconds. -/
def targetTimespan : ℕ := 14 * 24 * 60 * 60

/-- A target changes by this factor at most. -/
def targetTimespanDivisor : ℕ := 4

/-- The unrounded maximum target. -/
def unroundedMaxTarget : ℕ := 2 ^ 224 - 1

/-- The target after a period, scaled by the time it took. -/
def calculateNextWorkRequired (previousTarget firstBlockTime lastBlockTime : ℕ) :
    Except BitcoinError ℕ := do
  let actualTimespan := lastBlockTime - firstBlockTime
  let actualTimespan :=
    if actualTimespan < targetTimespan / targetTimespanDivisor then
      targetTimespan / targetTimespanDivisor
    else actualTimespan
  let actualTimespan :=
    if actualTimespan > targetTimespan * targetTimespanDivisor then
      targetTimespan * targetTimespanDivisor
    else actualTimespan
  -- The product of 256-bit numbers panics where it overflows.
  let target ← if previousTarget * actualTimespan < 2 ^ 256
    then pure (previousTarget * actualTimespan) else throw .arithmeticOverflow
  let target := target / targetTimespan
  okOr .invalidCompact (getCompact (if target > unroundedMaxTarget then unroundedMaxTarget
    else target))

/-! ## The rule -/

/-- The time a period took, as far as it counts. -/
def countedTimespan (first last : ℕ) : ℤ :=
  max (targetTimespan / 4) (min (targetTimespan * 4) ((last : ℤ) - first))

/-- The target after a period: the old target scaled by the time the period took, at most the
maximum, and rounded to what can be stored. -/
def adjustedTarget (target first last : ℕ) : ℕ :=
  compactRound (min (target * (countedTimespan first last).toNat / targetTimespan)
    unroundedMaxTarget)

variable {previousTarget firstBlockTime lastBlockTime : ℕ}

private theorem timespan_eq (firstBlockTime lastBlockTime : ℕ) :
    (if (if lastBlockTime - firstBlockTime < targetTimespan / targetTimespanDivisor then
          targetTimespan / targetTimespanDivisor else lastBlockTime - firstBlockTime) >
        targetTimespan * targetTimespanDivisor then targetTimespan * targetTimespanDivisor
      else if lastBlockTime - firstBlockTime < targetTimespan / targetTimespanDivisor then
        targetTimespan / targetTimespanDivisor else lastBlockTime - firstBlockTime) =
      (countedTimespan firstBlockTime lastBlockTime).toNat := by
  unfold countedTimespan targetTimespan targetTimespanDivisor
  split_ifs <;> omega

/-- The code computes the adjusted target, unless the product with the timespan overflows. -/
theorem calculateNextWorkRequired_of_fits
    (hfits : previousTarget * (countedTimespan firstBlockTime lastBlockTime).toNat < 2 ^ 256) :
    ∃ bits, calculateNextWorkRequired previousTarget firstBlockTime lastBlockTime = .ok bits ∧
      setCompact bits = some (adjustedTarget previousTarget firstBlockTime lastBlockTime) := by
  have hmax : min (previousTarget * (countedTimespan firstBlockTime lastBlockTime).toNat /
      targetTimespan) unroundedMaxTarget < 2 ^ 256 :=
    (min_le_right _ _).trans_lt (by decide)
  obtain ⟨bits, hbits, hset⟩ := Option.bind_eq_some_iff.mp (setCompact_getCompact hmax)
  refine ⟨bits, ?_, hset⟩
  unfold calculateNextWorkRequired
  dsimp only
  rw [timespan_eq, if_pos hfits]
  change okOr _ (getCompact _) = _
  rw [okOr_eq_ok, ← hbits]
  congr 1
  split <;> omega

/-- A product beyond 256 bits is an overflow. -/
theorem calculateNextWorkRequired_of_not_fits
    (hfits : ¬previousTarget * (countedTimespan firstBlockTime lastBlockTime).toNat < 2 ^ 256) :
    calculateNextWorkRequired previousTarget firstBlockTime lastBlockTime =
      .error .arithmeticOverflow := by
  unfold calculateNextWorkRequired
  dsimp only
  rw [timespan_eq, if_neg hfits]
  rfl

private theorem countedTimespan_bounds (first last : ℕ) :
    targetTimespan / 4 ≤ (countedTimespan first last).toNat ∧
      (countedTimespan first last).toNat ≤ targetTimespan * 4 := by
  unfold countedTimespan targetTimespan
  omega

/-- The adjusted target is at most four times the old one and at most the maximum. It is at least
a quarter of the old one, unless that is above the maximum. -/
theorem adjustedTarget_bounds (target first last : ℕ) :
    compactRound (min (target / 4) unroundedMaxTarget) ≤ adjustedTarget target first last ∧
      adjustedTarget target first last ≤ target * 4 ∧
      adjustedTarget target first last ≤ unroundedMaxTarget := by
  obtain ⟨hlow, hhigh⟩ := countedTimespan_bounds first last
  have hround := compactRound_le
    (min (target * (countedTimespan first last).toNat / targetTimespan) unroundedMaxTarget)
  refine ⟨compactRound_mono (min_le_min ?_ le_rfl), hround.trans ((min_le_left _ _).trans ?_),
    hround.trans (min_le_right _ _)⟩
  · calc target / 4 = target * (targetTimespan / 4) / (4 * (targetTimespan / 4)) :=
          (Nat.mul_div_mul_right _ _ (by decide)).symm
      _ ≤ target * (countedTimespan first last).toNat / targetTimespan :=
          Nat.div_le_div_right (Nat.mul_le_mul_left _ hlow)
  · refine Nat.div_le_of_le_mul ?_
    calc target * (countedTimespan first last).toNat ≤ target * (targetTimespan * 4) :=
          Nat.mul_le_mul_left _ hhigh
      _ = targetTimespan * (target * 4) := by ring

/-- The codec loses the low bits of a number and nothing else, the decoder refuses what is negative
or too large, and a retarget is the rule as long as its product fits. -/
theorem compact_targets :
    (∀ x < 2 ^ 256, ∃ bits y, getCompact x = some bits ∧ setCompact bits = some y ∧ y ≤ x ∧
      getCompact y = some bits ∧ numBits y = numBits x ∧
      ∀ i, numBits x ≤ i + 16 → y.testBit i = x.testBit i) ∧
    (∀ bits : UInt32, setCompact bits.toNat = none ↔
      (compactSign bits.toNat ∧ compactMagnitude bits.toNat ≠ 0) ∨
        2 ^ 256 ≤ compactMagnitude bits.toNat) ∧
    ∀ target first last,
      (target ≤ unroundedMaxTarget →
        target * (countedTimespan first last).toNat < 2 ^ 256) ∧
      (target * (countedTimespan first last).toNat < 2 ^ 256 →
        ∃ bits next, calculateNextWorkRequired target first last = .ok bits ∧
          setCompact bits = some next ∧ next = adjustedTarget target first last ∧
          compactRound (min (target / 4) unroundedMaxTarget) ≤ next ∧ next ≤ target * 4 ∧
          next ≤ unroundedMaxTarget) := by
  refine ⟨fun x hx => ?_, fun bits => ?_, fun target first last => ⟨fun hmax => ?_, fun hfits => ?_⟩⟩
  · obtain ⟨bits, hbits, hset⟩ := Option.bind_eq_some_iff.mp (setCompact_getCompact hx)
    refine ⟨bits, _, hbits, hset, compactRound_le x, ?_, numBits_compactRound x, fun i hi => ?_⟩
    · rw [getCompact_compactRound hx, hbits]
    · refine testBit_compactRound ?_
      unfold droppedBytes
      omega
  · rw [setCompact_eq_ite]
    split
    · exact iff_of_true rfl ‹_›
    · exact iff_of_false nofun ‹_›
  · exact (Nat.mul_le_mul hmax (countedTimespan_bounds first last).2).trans_lt (by decide)
  · obtain ⟨bits, hbits, hset⟩ := calculateNextWorkRequired_of_fits hfits
    exact ⟨bits, _, hbits, hset, rfl, adjustedTarget_bounds target first last⟩

/-- Above the maximum a quarter of the old target is cut off, and a product can overflow. -/
theorem retarget_above_maximum :
    (∃ bits next, calculateNextWorkRequired (2 ^ 230) 0 0 = .ok bits ∧
      setCompact bits = some next ∧ next < compactRound (2 ^ 230 / 4)) ∧
    calculateNextWorkRequired (2 ^ 255) 0 targetTimespan = .error .arithmeticOverflow :=
  ⟨⟨0x1d00ffff, 0xffff * 2 ^ 208, by decide +kernel⟩, by decide +kernel⟩

example : calculateNextWorkRequired (0xffff * 2 ^ 208) 1261130161 1262152739 = .ok 0x1d00d86a := by
  decide +kernel

end Interbtc
