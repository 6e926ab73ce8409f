import Interbtc.Core.Run
import Mathlib.Algebra.Order.Field.Basic
import Mathlib.Tactic.FieldSimp
import Mathlib.Tactic.Positivity
import Mathlib.Tactic.Ring

/-!
# Premiums that close a gap

A debtor has to hold a cover for each unit of its debt. Those who take units over are paid a
share of what these are worth, up to the premium after which nothing is missing. Premiums are
promised first and paid later, from what the debtor holds.
-/

namespace Core.Premium

/-- What a unit of debt is worth, the share of it that is paid, and the cover it needs. -/
structure Terms where
  rate : ℚ
  fee : ℚ
  cover : ℚ
  rate_nonneg : 0 ≤ rate
  fee_nonneg : 0 ≤ fee
  fee_lt_cover : fee < cover

/-- What a debtor owes, holds and has promised. -/
structure Position where
  debt : ℚ
  holding : ℚ
  promised : ℚ
  promised_nonneg : 0 ≤ promised

namespace Terms

variable (t : Terms)

/-- What the debtor lacks to a full cover. -/
def gap (p : Position) : ℚ := t.cover * t.rate * p.debt - p.holding

/-- The premium at which the debt it is paid for closes the gap that the payment leaves. -/
def factor : ℚ := t.fee / (t.cover - t.fee)

/-- The largest premium that can be promised at a position. -/
def maxPremium (p : Position) : ℚ := max 0 (t.gap p) * t.factor

/-- The largest premium if all that is promised were paid. -/
def potential (p : Position) : ℚ := max 0 (t.gap p + p.promised) * t.factor

/-- Units are taken over for a promised premium, or promised premiums are paid. -/
inductive Move : ℚ → Position → Position → Prop
  | take {p p' : Position} {premium taken relieved : ℚ} (hle : taken ≤ relieved)
      (hshare : premium ≤ taken * t.rate * t.fee) (hmax : premium ≤ t.maxPremium p)
      (hdebt : p'.debt = p.debt - relieved) (hholding : p'.holding = p.holding)
      (hpromised : p'.promised ≤ p.promised + premium) : Move premium p p'
  | pay {p p' : Position} (hdebt : p'.debt = p.debt)
      (hpaid : p'.promised - p'.holding ≤ p.promised - p.holding) : Move 0 p p'

variable {t} {p p' : Position} {premium taken relieved : ℚ}

/-- What covers a token exceeds its fee. -/
theorem cover_sub_fee_pos : 0 < t.cover - t.fee := sub_pos.mpr t.fee_lt_cover

/-- What covers a token is not negative. -/
theorem cover_nonneg : 0 ≤ t.cover := t.fee_nonneg.trans t.fee_lt_cover.le

/-- The part of a gap that is paid as premium is not negative. -/
theorem factor_nonneg : 0 ≤ t.factor := div_nonneg t.fee_nonneg cover_sub_fee_pos.le

/-- The factor is the fixed point of paying premiums on premiums. -/
theorem one_add_factor : t.fee * (1 + t.factor) = t.cover * t.factor := by
  have := cover_sub_fee_pos (t := t)
  rw [factor]
  field_simp
  ring

/-- The potential is not negative. -/
theorem potential_nonneg : 0 ≤ t.potential p := mul_nonneg (le_max_left _ _) factor_nonneg

/-- The largest premium is within the potential. -/
theorem maxPremium_le_potential : t.maxPremium p ≤ t.potential p :=
  mul_le_mul_of_nonneg_right
    (max_le_max le_rfl (le_add_of_nonneg_right p.promised_nonneg)) factor_nonneg

/-- Where nothing is promised the potential is the largest premium. -/
theorem potential_of_promised_eq_zero (h : p.promised = 0) : t.potential p = t.maxPremium p := by
  rw [potential, h, add_zero, maxPremium]

/-- A premium takes at least as much from what could still be promised. -/
theorem Move.potential_le (h : t.Move premium p p') : premium + t.potential p' ≤ t.potential p := by
  cases h with
  | @take _ _ _ taken relieved hle hshare hmax hdebt hholding hpromised =>
    rcases le_total (t.gap p' + p'.promised) 0 with hgap | hgap
    · rw [potential, max_eq_left hgap, zero_mul, add_zero]
      exact hmax.trans maxPremium_le_potential
    · have hfactor := factor_nonneg (t := t)
      have hrelieved : t.cover * t.rate * taken ≤ t.cover * t.rate * relieved :=
        mul_le_mul_of_nonneg_left hle (mul_nonneg cover_nonneg t.rate_nonneg)
      have hgap' : t.gap p' + p'.promised ≤
          t.gap p + p.promised + premium - t.cover * t.rate * taken := by
        rw [gap, gap, hdebt, hholding]
        linarith
      have hpremium : premium * (1 + t.factor) ≤ t.cover * t.rate * taken * t.factor := calc
        premium * (1 + t.factor) ≤ taken * t.rate * t.fee * (1 + t.factor) :=
          mul_le_mul_of_nonneg_right hshare (by positivity)
        _ = taken * t.rate * (t.fee * (1 + t.factor)) := by ring
        _ = t.cover * t.rate * taken * t.factor := by rw [one_add_factor]; ring
      calc premium + t.potential p'
          = premium + (t.gap p' + p'.promised) * t.factor := by rw [potential, max_eq_right hgap]
        _ ≤ premium + (t.gap p + p.promised + premium - t.cover * t.rate * taken) * t.factor :=
          add_le_add_right (mul_le_mul_of_nonneg_right hgap' hfactor) _
        _ ≤ (t.gap p + p.promised) * t.factor := by linarith
        _ ≤ t.potential p := mul_le_mul_of_nonneg_right (le_max_right _ _) hfactor
  | pay hdebt hpaid =>
    rw [zero_add]
    refine mul_le_mul_of_nonneg_right (max_le_max le_rfl ?_) factor_nonneg
    rw [gap, gap, hdebt]
    linarith

/-- Taking over, for the largest premium, units that are worth it closes the gap, and leaves in
excess the cover of the units that are relieved without a premium. -/
theorem gap_of_maxPremium (hfee : 0 < t.fee) (hshare : premium = taken * t.rate * t.fee)
    (hmax : premium = t.gap p * t.factor) (hdebt : p'.debt = p.debt - relieved)
    (hholding : p'.holding = p.holding - premium) :
    t.gap p' = -(t.cover * t.rate * (relieved - taken)) := by
  have hpos := cover_sub_fee_pos (t := t)
  have hgap : t.gap p = taken * t.rate * (t.cover - t.fee) := by
    have h : t.gap p * t.fee = taken * t.rate * (t.cover - t.fee) * t.fee := calc
      t.gap p * t.fee = t.gap p * t.factor * (t.cover - t.fee) := by
        rw [factor]
        field_simp
      _ = taken * t.rate * (t.cover - t.fee) * t.fee := by
        rw [← hmax, hshare]
        ring
    exact mul_right_cancel₀ hfee.ne' h
  have hnext : t.gap p' = t.gap p - t.cover * t.rate * relieved + premium := by
    rw [gap, gap, hdebt, hholding]
    ring
  rw [hnext, hgap, hshare]
  ring

end Terms

/-! ## Runs -/

section

variable {σ ο : Type} {step : σ → ο → σ} {cond : σ → ο → Prop} {t : Terms}

/-- Over a run of moves, what is promised stays within the potential at the start. -/
theorem accrue_le_potential (inv : σ → Prop) (premium : σ → ο → ℚ) (position : σ → Position)
    (hinv : ∀ s o, inv s → cond s o → inv (step s o))
    (hstep : ∀ s o, inv s → cond s o →
      t.Move (premium s o) (position s) (position (step s o)))
    {s : σ} {ops : List ο} (hs : inv s) (h : Meets step cond s ops) :
    accrue step premium s ops + t.potential (position (run step s ops)) ≤
      t.potential (position s) := by
  induction ops generalizing s with
  | nil => rw [accrue, run_nil, zero_add]
  | cons o ops ih =>
    have hfirst := (hstep s o hs h.1).potential_le
    have hrest := ih (hinv s o hs h.1) h.2
    rw [accrue, run_cons]
    linarith

end

end Core.Premium
