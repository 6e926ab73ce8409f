import Interbtc.Core.SquareRoot
import Interbtc.Democracy.Types
import Mathlib.Algebra.Order.Field.Rat
import Mathlib.Tactic.NormNum

/-!
# Thresholds and further votes

A threshold compares the votes in proportion to integer square roots. A further vote raises the
turnout as well, whose root grows in steps: a small vote at such a step can turn the outcome
against itself, where the root counts for the other side.
-/

namespace Interbtc.Democracy

open Core

/-! ## The comparison -/

private theorem compareRationals_iff_div {n₁ d₁ n₂ d₂ : ℕ} (h₁ : 0 < d₁) (h₂ : 0 < d₂) :
    compareRationals n₁ d₁ n₂ d₂ = true ↔ (n₁ : ℚ) / d₁ < n₂ / d₂ := by
  have hd₁ : (0 : ℚ) < d₁ := Nat.cast_pos.mpr h₁
  have hd₂ : (0 : ℚ) < d₂ := Nat.cast_pos.mpr h₂
  rw [compareRationals_iff h₁ h₂, div_lt_div_iff₀ hd₁ hd₂]
  exact_mod_cast Iff.rfl

/-! ## Proportions

Votes `n` against and `a` for are compared in proportion to a smaller root `t` and a larger root
`e`. With `k` further votes the roots become `t'` and `e'`. -/

section Proportions

variable {n a k t t' e e' : ℕ}

private theorem lt_for_smaller (h : n * e < a * t) (hte : t ≤ e) (ht : t ≤ t')
    (he : e' = e ∨ e' = t') :
    n * e' < (a + k) * t' := by
  rcases he with rfl | rfl
  · exact h.trans_le (Nat.mul_le_mul (Nat.le_add_right a k) ht)
  · have hpos : 0 < t := Nat.pos_of_mul_pos_left (Nat.zero_lt_of_lt h)
    have hlt : n < a := lt_of_mul_lt_mul_right (h.trans_le (Nat.mul_le_mul_left a hte)) e.zero_le
    exact Nat.mul_lt_mul_of_pos_right (hlt.trans_le (Nat.le_add_right a k)) (hpos.trans_le ht)

private theorem lt_for_larger (h : n * t < a * e) (he : e ≤ e') (hte : t' ≤ e')
    (hk : e = t ∨ n * t' ≤ n * t + k * e) : n * t' < (a + k) * e' := by
  rcases hk with rfl | hk
  · have hpos : 0 < e := Nat.pos_of_mul_pos_left (Nat.zero_lt_of_lt h)
    have hlt : n < a := lt_of_mul_lt_mul_right h e.zero_le
    exact (Nat.mul_le_mul_left n hte).trans_lt
      (Nat.mul_lt_mul_of_pos_right (hlt.trans_le (Nat.le_add_right a k)) (hpos.trans_le he))
  · calc n * t' ≤ n * t + k * e := hk
      _ < a * e + k * e := Nat.add_lt_add_right h _
      _ = (a + k) * e := (Nat.add_mul a k e).symm
      _ ≤ (a + k) * e' := Nat.mul_le_mul_left _ he

private theorem lt_of_against_smaller (h : (n + k) * t' < a * e') (hpos : 0 < t) (hte : t ≤ e)
    (ht : t ≤ t') (he : e' = e ∨ e' = t') : n * t < a * e := by
  rcases he with rfl | rfl
  · exact (Nat.mul_le_mul (Nat.le_add_right n k) ht).trans_lt h
  · have hlt : n + k < a := lt_of_mul_lt_mul_right h e'.zero_le
    exact (Nat.mul_lt_mul_of_pos_right ((Nat.le_add_right n k).trans_lt hlt) hpos).trans_le
      (Nat.mul_le_mul_left a hte)

private theorem lt_of_against_larger (h : (n + k) * e' < a * t') (hpos : 0 < t) (he : e ≤ e')
    (hte : t' ≤ e') (hk : e = t ∨ a * t' ≤ a * t + k * e) : n * e < a * t := by
  rcases hk with rfl | hk
  · have hlt : n + k < a :=
      lt_of_mul_lt_mul_right (h.trans_le (Nat.mul_le_mul_left a hte)) e'.zero_le
    exact Nat.mul_lt_mul_of_pos_right ((Nat.le_add_right n k).trans_lt hlt) hpos
  · refine Nat.lt_of_add_lt_add_right (n := k * e) ?_
    calc n * e + k * e = (n + k) * e := (Nat.add_mul n k e).symm
      _ ≤ (n + k) * e' := Nat.mul_le_mul_left _ he
      _ < a * t' := h
      _ ≤ a * t + k * e := hk

end Proportions

namespace VoteThreshold

/-- The root of the electorate, which is at least the turnout. -/
def electorateRoot (tally : Tally) (electorate : ℕ) : ℕ := Nat.sqrt (max electorate tally.turnout)

/-- What a threshold asks of a tally: votes against are outnumbered, in proportion to the roots of
the turnout and of the electorate. -/
def Passes (threshold : VoteThreshold) (tally : Tally) (electorate : ℕ) : Prop :=
  0 < tally.turnout ∧
    match threshold with
    | .superMajorityApprove => (tally.nays : ℚ) / Nat.sqrt tally.turnout <
        tally.ayes / electorateRoot tally electorate
    | .superMajorityAgainst => (tally.nays : ℚ) / electorateRoot tally electorate <
        tally.ayes / Nat.sqrt tally.turnout
    | .simpleMajority => tally.nays < tally.ayes

variable {tally : Tally} {electorate : ℕ}

private theorem turnoutRoot_le : Nat.sqrt tally.turnout ≤ electorateRoot tally electorate :=
  Nat.sqrt_le_sqrt (le_max_right _ _)

/-- Without a turnout nothing is approved. -/
theorem approved_iff_of_pos (threshold : VoteThreshold) :
    threshold.approved tally electorate = true ↔ 0 < tally.turnout ∧
      match threshold with
      | .superMajorityApprove => tally.nays * electorateRoot tally electorate <
          tally.ayes * Nat.sqrt tally.turnout
      | .superMajorityAgainst => tally.nays * Nat.sqrt tally.turnout <
          tally.ayes * electorateRoot tally electorate
      | .simpleMajority => tally.nays < tally.ayes := by
  have hle := @turnoutRoot_le tally electorate
  unfold approved
  change (if Nat.sqrt tally.turnout = 0 ∨ electorateRoot tally electorate = 0 then _ else _) = _ ↔ _
  rcases Nat.eq_zero_or_pos tally.turnout with hzero | hpos
  · rw [if_pos (.inl (by rw [hzero]; rfl)), hzero]
    exact iff_of_false Bool.false_ne_true fun h => lt_irrefl _ h.1
  · have hroot : 0 < Nat.sqrt tally.turnout := Nat.sqrt_pos.mpr hpos
    rw [if_neg (by omega)]
    cases threshold with
    | superMajorityApprove =>
      exact (compareRationals_iff hroot (hroot.trans_le hle)).trans (and_iff_right hpos).symm
    | superMajorityAgainst =>
      exact (compareRationals_iff (hroot.trans_le hle) hroot).trans (and_iff_right hpos).symm
    | simpleMajority => exact decide_eq_true_iff.trans (and_iff_right hpos).symm

/-- A threshold decides what it stands for. -/
theorem approved_iff (threshold : VoteThreshold) :
    threshold.approved tally electorate = true ↔ threshold.Passes tally electorate := by
  rw [approved_iff_of_pos]
  refine and_congr_right fun hpos => ?_
  have hroot : 0 < Nat.sqrt tally.turnout := Nat.sqrt_pos.mpr hpos
  have hroot' := hroot.trans_le (@turnoutRoot_le tally electorate)
  cases threshold with
  | superMajorityApprove =>
    exact (compareRationals_iff hroot hroot').symm.trans (compareRationals_iff_div hroot hroot')
  | superMajorityAgainst =>
    exact (compareRationals_iff hroot' hroot).symm.trans (compareRationals_iff_div hroot' hroot)
  | simpleMajority => exact Iff.rfl

/-! ## Further votes -/

/-- The tally with a further vote. -/
def voted (tally : Tally) (aye : Bool) (k : ℕ) : Tally := tally + .ofVote ⟨aye, k⟩

/-- The growth of the root of the turnout does not outweigh the vote: the electorate has the same
root, or those who are opposed are few for the growth. They are few for every vote that is large
compared with the root. -/
def RootsKeep (tally : Tally) (electorate opposed k : ℕ) : Prop :=
  electorateRoot tally electorate = Nat.sqrt tally.turnout ∨
  opposed * (Nat.sqrt (tally.turnout + k) - Nat.sqrt tally.turnout) ≤
    k * electorateRoot tally electorate ∨
  (opposed ≤ tally.turnout ∧ 2 * Nat.sqrt tally.turnout + 2 ≤ k)

/-- The vote cannot turn the outcome against itself. A vote against needs a turnout of the votes
that were counted for; and each vote needs the roots to keep up where the root of the turnout
counts for the other side. -/
def Steady (threshold : VoteThreshold) (tally : Tally) (electorate : ℕ) (vote : Vote) : Prop :=
  match vote.aye, threshold with
  | true, .superMajorityAgainst => RootsKeep tally electorate tally.nays vote.balance
  | true, _ => True
  | false, .superMajorityApprove => (tally.turnout = 0 → tally.ayes = 0) ∧
      RootsKeep tally electorate tally.ayes vote.balance
  | false, _ => tally.turnout = 0 → tally.ayes = 0

section Votes

variable {k : ℕ} {aye : Bool}

private theorem voted_turnout : (voted tally aye k).turnout = tally.turnout + k := rfl

private theorem turnoutRoot_le_voted :
    Nat.sqrt tally.turnout ≤ Nat.sqrt (voted tally aye k).turnout := sqrt_le_sqrt_add

private theorem electorateRoot_le_voted :
    electorateRoot tally electorate ≤ electorateRoot (voted tally aye k) electorate :=
  Nat.sqrt_le_sqrt (max_le_max le_rfl (Nat.le_add_right _ _))

/-- The root of the electorate stays, or it is the one of the turnout. -/
theorem electorateRoot_voted :
    electorateRoot (voted tally aye k) electorate = electorateRoot tally electorate ∨
      electorateRoot (voted tally aye k) electorate = Nat.sqrt (voted tally aye k).turnout := by
  unfold electorateRoot
  rw [voted_turnout]
  rcases Nat.le_total electorate (tally.turnout + k) with h | h
  · right
    rw [max_eq_right h]
  · left
    rw [max_eq_left h, max_eq_left ((Nat.le_add_right _ _).trans h)]

/-- Where the roots keep up, the vote outweighs the growth of the root of the turnout. -/
theorem RootsKeep.outweighs {opposed : ℕ} (h : RootsKeep tally electorate opposed k) :
    electorateRoot tally electorate = Nat.sqrt tally.turnout ∨
      opposed * Nat.sqrt (tally.turnout + k) ≤
        opposed * Nat.sqrt tally.turnout + k * electorateRoot tally electorate := by
  have hroot : electorateRoot tally electorate = Nat.sqrt tally.turnout ∨
      Nat.sqrt tally.turnout < electorateRoot tally electorate :=
    turnoutRoot_le.eq_or_lt.imp_left Eq.symm
  rcases hroot with heq | hlt
  · exact .inl heq
  right
  have hkeep : opposed * (Nat.sqrt (tally.turnout + k) - Nat.sqrt tally.turnout) ≤
      k * electorateRoot tally electorate := by
    rcases h with heq | hle | ⟨hopposed, hk⟩
    · exact absurd heq hlt.ne'
    · exact hle
    · exact mul_sqrt_growth_le hopposed hlt hk
  obtain ⟨d, hd⟩ := Nat.exists_eq_add_of_le (@sqrt_le_sqrt_add tally.turnout k)
  rw [hd, Nat.add_sub_cancel_left] at hkeep
  rw [hd, Nat.mul_add]
  exact Nat.add_le_add_left hkeep _

/-- A vote for keeps an approval. -/
theorem approved_voted_aye {threshold : VoteThreshold}
    (hsteady : threshold.Steady tally electorate ⟨true, k⟩)
    (h : threshold.approved tally electorate = true) :
    threshold.approved (voted tally true k) electorate = true := by
  rw [approved_iff_of_pos] at h ⊢
  obtain ⟨hpos, h⟩ := h
  refine ⟨hpos.trans_le (Nat.le_add_right _ _), ?_⟩
  cases threshold with
  | simpleMajority => exact Nat.lt_of_lt_of_le h (Nat.le_add_right _ _)
  | superMajorityApprove =>
    exact lt_for_smaller h turnoutRoot_le turnoutRoot_le_voted electorateRoot_voted
  | superMajorityAgainst =>
    exact lt_for_larger h electorateRoot_le_voted turnoutRoot_le (RootsKeep.outweighs hsteady)

/-- A vote against keeps a rejection. -/
theorem approved_of_voted_nay {threshold : VoteThreshold}
    (hsteady : threshold.Steady tally electorate ⟨false, k⟩)
    (h : threshold.approved (voted tally false k) electorate = true) :
    threshold.approved tally electorate = true := by
  rw [approved_iff_of_pos] at h ⊢
  obtain ⟨-, h⟩ := h
  have hzero : tally.turnout = 0 → tally.ayes = 0 := by
    cases threshold with
    | simpleMajority => exact hsteady
    | superMajorityApprove => exact hsteady.1
    | superMajorityAgainst => exact hsteady
  have hayes : 0 < tally.ayes := by
    cases threshold with
    | simpleMajority => exact Nat.zero_lt_of_lt h
    | superMajorityApprove => exact Nat.pos_of_mul_pos_right (Nat.zero_lt_of_lt h)
    | superMajorityAgainst => exact Nat.pos_of_mul_pos_right (Nat.zero_lt_of_lt h)
  have hpos : 0 < tally.turnout := Nat.pos_of_ne_zero fun h₀ => hayes.ne' (hzero h₀)
  have hroot : 0 < Nat.sqrt tally.turnout := Nat.sqrt_pos.mpr hpos
  refine ⟨hpos, ?_⟩
  cases threshold with
  | simpleMajority => exact (Nat.le_add_right _ _).trans_lt h
  | superMajorityApprove =>
    exact lt_of_against_larger h hroot electorateRoot_le_voted turnoutRoot_le
      (RootsKeep.outweighs hsteady.2)
  | superMajorityAgainst =>
    exact lt_of_against_smaller h hroot turnoutRoot_le turnoutRoot_le_voted electorateRoot_voted

end Votes

end VoteThreshold

/-- The comparison of fractions and the thresholds are exact, and a vote that is steady under the
threshold does not turn the outcome against itself. -/
theorem thresholds_exact_steady :
    (∀ n₁ d₁ n₂ d₂ : ℕ, 0 < d₁ → 0 < d₂ →
      (compareRationals n₁ d₁ n₂ d₂ = true ↔ (n₁ : ℚ) / d₁ < n₂ / d₂)) ∧
    (∀ (threshold : VoteThreshold) (tally : Tally) (electorate : ℕ),
      threshold.approved tally electorate = true ↔ threshold.Passes tally electorate) ∧
    ∀ (threshold : VoteThreshold) (tally tally' : Tally) (electorate : ℕ) (vote : Vote),
      tally.add vote = some tally' → threshold.Steady tally electorate vote →
        (vote.aye = true → threshold.approved tally electorate = true →
          threshold.approved tally' electorate = true) ∧
        (vote.aye = false → threshold.approved tally electorate = false →
          threshold.approved tally' electorate = false) := by
  refine ⟨fun _ _ _ _ => compareRationals_iff_div, fun threshold _ _ => threshold.approved_iff, ?_⟩
  rintro threshold tally tally' electorate ⟨aye, k⟩ hadd hsteady
  obtain rfl := Tally.add_eq_some hadd
  constructor
  · rintro rfl h
    exact VoteThreshold.approved_voted_aye hsteady h
  · rintro rfl h
    by_contra hturned
    rw [Bool.not_eq_false] at hturned
    rw [VoteThreshold.approved_of_voted_nay hsteady hturned] at h
    cases h

/-- A single vote for lifts the root of the turnout from three to four and turns an approval, and
a single vote against turns a rejection. -/
theorem votes_turn :
    (VoteThreshold.superMajorityAgainst.approved ⟨6, 9, 15⟩ 25 = true ∧
      (⟨6, 9, 15⟩ : Tally).add ⟨true, 1⟩ = some ⟨7, 9, 16⟩ ∧
      VoteThreshold.superMajorityAgainst.approved ⟨7, 9, 16⟩ 25 = false) ∧
    (VoteThreshold.superMajorityApprove.approved ⟨9, 6, 15⟩ 25 = false ∧
      (⟨9, 6, 15⟩ : Tally).add ⟨false, 1⟩ = some ⟨9, 7, 16⟩ ∧
      VoteThreshold.superMajorityApprove.approved ⟨9, 7, 16⟩ 25 = true) := by
  decide +kernel

/-- Eight votes are enough at a root of three. -/
theorem thresholds_exact_steady_eight :
    VoteThreshold.superMajorityAgainst.approved ⟨14, 9, 23⟩ 25 = true :=
  (thresholds_exact_steady.2.2 .superMajorityAgainst ⟨6, 9, 15⟩ ⟨14, 9, 23⟩ 25 ⟨true, 8⟩
    (by decide +kernel) (.inr (.inr (by decide +kernel)))).1 rfl (by decide +kernel)

end Interbtc.Democracy
