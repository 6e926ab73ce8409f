import Interbtc.Currency.Amount
import Mathlib.Algebra.Order.Ring.Nat
import Mathlib.Tactic.Ring

/-!
# Points of voting power

Voting power is a line that falls from a bias by a slope with each block. Balances are
128-bit and heights 32-bit unsigned numbers.
-/

namespace Interbtc

/-! ## Unsigned machine arithmetic -/

/-- The largest block number. -/
def maxBlockNumber : ℕ := 2 ^ 32 - 1

/-- The largest index of a history. -/
def maxNonce : ℕ := 2 ^ 32 - 1

/-- The sum, cut at the largest balance. -/
def saturatingAdd (a b : ℕ) : ℕ := min (a + b) maxBalance

/-- The product, cut at the largest balance. -/
def saturatingMul (a b : ℕ) : ℕ := min (a * b) maxBalance

/-- The plain product of two balances. -/
def wrappingMul (a b : ℕ) : ℕ := a * b % 2 ^ 128

/-- A cut sum is in range. -/
theorem saturatingAdd_le (a b : ℕ) : saturatingAdd a b ≤ maxBalance := min_le_right _ _

/-- A sum in range is not cut. -/
theorem saturatingAdd_of_le {a b : ℕ} (h : a + b ≤ maxBalance) : saturatingAdd a b = a + b :=
  min_eq_left h

/-- A sum below the bound was not cut. -/
theorem saturatingAdd_of_lt {a b : ℕ} (h : saturatingAdd a b < maxBalance) :
    saturatingAdd a b = a + b := by
  rw [saturatingAdd] at h ⊢
  omega

/-- Adding nothing does not saturate. -/
@[simp] theorem saturatingAdd_zero {a : ℕ} (h : a ≤ maxBalance) : saturatingAdd a 0 = a :=
  min_eq_left h

private theorem saturatingMul_of_le {a b : ℕ} (h : a * b ≤ maxBalance) : saturatingMul a b = a *
    b :=
  min_eq_left h

/-- A product in range does not wrap. -/
theorem wrappingMul_of_le {a b : ℕ} (h : a * b ≤ maxBalance) : wrappingMul a b = a * b := by
  refine Nat.mod_eq_of_lt (lt_of_le_of_lt h ?_)
  decide

/-! ## Points -/

/-- The heights all future unlocks are rounded to, and the longest lock. -/
structure EscrowConfig where
  span : ℕ
  maxPeriod : ℕ
  span_pos : 0 < span

/-- A voting power at a height, and how fast it falls. -/
structure Point where
  bias : ℕ
  slope : ℕ
  ts : ℕ
  deriving DecidableEq

namespace Point

/-- No power at all. -/
def default : Point := ⟨0, 0, 0⟩

/-- The point of an amount that is locked from one height to another. -/
def new (amount startHeight endHeight maxPeriod : ℕ) : Point :=
  let heightDiff := endHeight - startHeight
  let slope := amount / maxPeriod
  { bias := saturatingMul slope heightDiff, slope := slope, ts := startHeight }

/-- The balance at a later height, falling since the start height. -/
def balanceAt (p : Point) (height : ℕ) : ℕ := p.bias - saturatingMul p.slope (height - p.ts)

/-- The balance at a later height, rising since the start height. -/
def reverseBalanceAt (p : Point) (endHeight now : ℕ) : ℕ :=
  p.bias - saturatingMul p.slope (endHeight - now)

/-- The default point has no balance. -/
@[simp] theorem default_balanceAt (height : ℕ) : default.balanceAt height = 0 := Nat.zero_sub _

end Point

/-- The amount an account has locked and the height at which it is free again. -/
structure LockedBalance where
  amount : ℕ
  endHeight : ℕ
  deriving DecidableEq

namespace LockedBalance

/-- Nothing is locked. -/
def default : LockedBalance := ⟨0, 0⟩

variable (l : LockedBalance) {cfg : EscrowConfig} {now height : ℕ}

/-- The point of a lock, if it holds something and has not expired. -/
def point (cfg : EscrowConfig) (now : ℕ) : Point :=
  if now < l.endHeight ∧ 0 < l.amount then .new l.amount now l.endHeight cfg.maxPeriod
  else .default

/-- What a lock adds to the voting power with each block that is left. -/
def slope (cfg : EscrowConfig) : ℕ := l.amount / cfg.maxPeriod

/-- A lock that a call has accepted. -/
structure Valid (cfg : EscrowConfig) (now : ℕ) : Prop where
  amount_le : l.amount ≤ maxBalance
  endHeight_le : l.endHeight ≤ now + cfg.maxPeriod

variable {l}

/-- What is not locked is valid. -/
theorem Valid.default : Valid .default cfg now := ⟨Nat.zero_le _, Nat.zero_le _⟩

/-- A lock stays valid as time passes. -/
theorem Valid.mono (h : l.Valid cfg now) (hle : now ≤ height) : l.Valid cfg height :=
  ⟨h.amount_le, h.endHeight_le.trans (Nat.add_le_add_right hle _)⟩

private theorem Valid.power_le (h : l.Valid cfg now) (hle : now ≤ height) :
    l.slope cfg * (l.endHeight - height) ≤ l.amount :=
  calc l.slope cfg * (l.endHeight - height) ≤ l.slope cfg * cfg.maxPeriod :=
        Nat.mul_le_mul_left _ (by have := h.endHeight_le; omega)
    _ ≤ l.amount := Nat.div_mul_le_self _ _

/-- The power of a lock falls until its end. -/
theorem point_slope : (l.point cfg now).slope = if now < l.endHeight then l.slope cfg else 0 := by
  unfold point
  by_cases hend : now < l.endHeight
  · by_cases hamount : 0 < l.amount
    · rw [if_pos ⟨hend, hamount⟩, if_pos hend]
      rfl
    · rw [if_neg fun h => hamount h.2, if_pos hend, slope, Nat.eq_zero_of_not_pos hamount,
        Nat.zero_div]
      rfl
  · rw [if_neg fun h => hend h.1, if_neg hend]
    rfl

/-- The power of a lock is its slope times what is left. -/
theorem point_bias (h : l.Valid cfg now) :
    (l.point cfg now).bias = l.slope cfg * (l.endHeight - now) := by
  have hle := (h.power_le le_rfl).trans h.amount_le
  unfold point
  by_cases hcond : now < l.endHeight ∧ 0 < l.amount
  · rw [if_pos hcond]
    exact saturatingMul_of_le hle
  · rw [if_neg hcond]
    by_cases hend : now < l.endHeight
    · have hamount : l.amount = 0 := Nat.eq_zero_of_not_pos fun hpos => hcond ⟨hend, hpos⟩
      rw [slope, hamount, Nat.zero_div, Nat.zero_mul]
      rfl
    · rw [Nat.sub_eq_zero_of_le (Nat.le_of_not_lt hend), Nat.mul_zero]
      rfl

/-- A new point holds its bias. -/
theorem point_balanceAt_self (l : LockedBalance) (cfg : EscrowConfig) (now : ℕ) :
    (l.point cfg now).balanceAt now = (l.point cfg now).bias := by
  unfold point
  split
  · simp [Point.balanceAt, Point.new, saturatingMul]
  · exact Point.default_balanceAt now

/-- The balance of a point depends on the lock it was made for only. -/
theorem point_balanceAt (h : l.Valid cfg now) (hle : now ≤ height) :
    (l.point cfg now).balanceAt height = l.slope cfg * (l.endHeight - height) := by
  have hbias := point_bias h
  have hmax := (h.power_le le_rfl).trans h.amount_le
  by_cases hcond : now < l.endHeight ∧ 0 < l.amount
  · have hts : (l.point cfg now).ts = now := by rw [point, if_pos hcond]; rfl
    rw [Point.balanceAt, hbias, point_slope, if_pos hcond.1, hts, saturatingMul]
    have hsplit : l.slope cfg * (l.endHeight - height) =
        l.slope cfg * (l.endHeight - now) - l.slope cfg * (height - now) := by
      rw [← Nat.mul_sub]
      congr 1
      omega
    omega
  · have hzero : l.slope cfg * (l.endHeight - height) = 0 := by
      by_cases hend : now < l.endHeight
      · have hamount : l.amount = 0 := Nat.eq_zero_of_not_pos fun hpos => hcond ⟨hend, hpos⟩
        rw [slope, hamount, Nat.zero_div, Nat.zero_mul]
      · rw [Nat.sub_eq_zero_of_le (by omega), Nat.mul_zero]
    rw [point, if_neg hcond, hzero, Point.default_balanceAt]

end LockedBalance

end Interbtc
