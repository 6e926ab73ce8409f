import Interbtc.Core.Checked
import Interbtc.Core.OrderedMap
import Mathlib.Algebra.Group.Defs
import Mathlib.Tactic.Ring

/-!
# Votes, tallies and thresholds

A vote is for or against, with a balance. The votes of a referendum are counted in a tally,
which votes are added to and removed from.
-/

namespace Interbtc.Democracy

open Core

/-- The largest balance. -/
def maxU128 : ℕ := 2 ^ 128 - 1

/-- A balance of 128 bits. -/
abbrev Balance : Type := {n : ℕ // n ≤ maxU128}

/-- The largest index, and the largest block number. -/
def maxU32 : ℕ := 2 ^ 32 - 1

/-- The largest number of seconds. -/
def maxU64 : ℕ := 2 ^ 64 - 1

/-- A standard vote, one-way (approve or reject). -/
structure Vote where
  aye : Bool
  balance : ℕ
  deriving DecidableEq

/-- Info regarding an ongoing referendum. -/
@[ext] structure Tally where
  /-- The number of aye votes. -/
  ayes : ℕ
  /-- The number of nay votes. -/
  nays : ℕ
  /-- The amount of funds currently expressing its opinion. -/
  turnout : ℕ
  deriving DecidableEq

/-- The votes of a voter, in the order of the referendum index, where they are searched. -/
abbrev Voting : Type := OrderedMap ℕ Vote

namespace Tally

/-- Add an account's vote into the tally. -/
def add (tally : Tally) (vote : Vote) : Option Tally := do
  let turnout ← checkedAdd maxU128 tally.turnout vote.balance
  if vote.aye then
    let ayes ← checkedAdd maxU128 tally.ayes vote.balance
    some { tally with turnout := turnout, ayes := ayes }
  else
    let nays ← checkedAdd maxU128 tally.nays vote.balance
    some { tally with turnout := turnout, nays := nays }

/-- Remove an account's vote from the tally. -/
def remove (tally : Tally) (vote : Vote) : Option Tally := do
  let turnout ← checkedSub tally.turnout vote.balance
  if vote.aye then
    let ayes ← checkedSub tally.ayes vote.balance
    some { tally with turnout := turnout, ayes := ayes }
  else
    let nays ← checkedSub tally.nays vote.balance
    some { tally with turnout := turnout, nays := nays }

/-! Tallies are added up in each of their three numbers. -/

instance : Zero Tally := ⟨⟨0, 0, 0⟩⟩

instance : Add Tally := ⟨fun s t => ⟨s.ayes + t.ayes, s.nays + t.nays, s.turnout + t.turnout⟩⟩

variable {s t : Tally}

@[simp] theorem zero_ayes : (0 : Tally).ayes = 0 := rfl

@[simp] theorem zero_nays : (0 : Tally).nays = 0 := rfl

@[simp] theorem zero_turnout : (0 : Tally).turnout = 0 := rfl

@[simp] theorem add_ayes : (s + t).ayes = s.ayes + t.ayes := rfl

@[simp] theorem add_nays : (s + t).nays = s.nays + t.nays := rfl

@[simp] theorem add_turnout : (s + t).turnout = s.turnout + t.turnout := rfl

instance : AddCommMonoid Tally where
  add_assoc _ _ _ := Tally.ext (Nat.add_assoc _ _ _) (Nat.add_assoc _ _ _) (Nat.add_assoc _ _ _)
  zero_add _ := Tally.ext (Nat.zero_add _) (Nat.zero_add _) (Nat.zero_add _)
  add_zero _ := Tally.ext (Nat.add_zero _) (Nat.add_zero _) (Nat.add_zero _)
  add_comm _ _ := Tally.ext (Nat.add_comm _ _) (Nat.add_comm _ _) (Nat.add_comm _ _)
  nsmul := nsmulRec

instance : IsRightCancelAdd Tally where
  add_right_cancel _ _ _ h := Tally.ext
    (Nat.add_right_cancel (congrArg ayes h)) (Nat.add_right_cancel (congrArg nays h))
    (Nat.add_right_cancel (congrArg turnout h))

/-- The tally of a single vote. -/
def ofVote (vote : Vote) : Tally where
  ayes := if vote.aye then vote.balance else 0
  nays := if vote.aye then 0 else vote.balance
  turnout := vote.balance

variable {vote : Vote}

/-- A vote is added as long as it fits. -/
theorem add_eq_some (h : s.add vote = some t) : t = s + ofVote vote := by
  obtain ⟨aye, balance⟩ := vote
  cases aye with
  | true =>
    simp only [add, if_true, Option.bind_eq_bind, Option.bind_eq_some_iff, checkedAdd_eq_some,
      Option.some.injEq] at h
    obtain ⟨_, ⟨_, rfl⟩, _, ⟨_, rfl⟩, rfl⟩ := h
    rfl
  | false =>
    simp only [add, Bool.false_eq_true, if_false, Option.bind_eq_bind, Option.bind_eq_some_iff,
      checkedAdd_eq_some, Option.some.injEq] at h
    obtain ⟨_, ⟨_, rfl⟩, _, ⟨_, rfl⟩, rfl⟩ := h
    rfl

/-- A vote that is removed had been added. -/
theorem remove_eq_some (h : s.remove vote = some t) : s = t + ofVote vote := by
  obtain ⟨aye, balance⟩ := vote
  cases aye with
  | true =>
    simp only [remove, if_true, Option.bind_eq_bind, Option.bind_eq_some_iff, checkedSub_eq_some,
      Option.some.injEq] at h
    obtain ⟨_, ⟨hturnout, rfl⟩, _, ⟨hayes, rfl⟩, rfl⟩ := h
    exact Tally.ext (Nat.sub_add_cancel hayes).symm rfl (Nat.sub_add_cancel hturnout).symm
  | false =>
    simp only [remove, Bool.false_eq_true, if_false, Option.bind_eq_bind, Option.bind_eq_some_iff,
      checkedSub_eq_some, Option.some.injEq] at h
    obtain ⟨_, ⟨hturnout, rfl⟩, _, ⟨hnays, rfl⟩, rfl⟩ := h
    exact Tally.ext rfl (Nat.sub_add_cancel hnays).symm (Nat.sub_add_cancel hturnout).symm

/-- A vote that was counted can be removed. -/
theorem remove_add : (t + ofVote vote).remove vote = some t := by
  obtain ⟨aye, balance⟩ := vote
  cases aye with
  | true => simp [remove, ofVote, checkedSub]
  | false => simp [remove, ofVote, checkedSub]

end Tally

/-! ## Thresholds -/

/-- A means of determining if a vote is past pass threshold. -/
inductive VoteThreshold
  | superMajorityApprove
  | superMajorityAgainst
  | simpleMajority
  deriving DecidableEq

/-- Return `true` iff `n₁ / d₁ < n₂ / d₂`. `d₁` and `d₂` may not be zero. -/
def compareRationals (n₁ d₁ n₂ d₂ : ℕ) : Bool :=
  if n₁ / d₁ < n₂ / d₂ then true
  else if n₂ / d₂ < n₁ / d₁ then false
  else if n₂ % d₂ = 0 then false
  else if n₁ % d₁ = 0 then true
  else if d₁ = 0 ∨ d₂ = 0 then false
  else compareRationals d₂ (n₂ % d₂) d₁ (n₁ % d₁)
termination_by d₁ + d₂
decreasing_by
  have h₁ : n₁ % d₁ < d₁ := Nat.mod_lt _ (by omega)
  have h₂ : n₂ % d₂ < d₂ := Nat.mod_lt _ (by omega)
  omega

/-- Fractions with different whole parts compare as these. -/
theorem compare_wholes {n₁ d₁ n₂ d₂ : ℕ} (h₁ : 0 < d₁) (h : n₁ / d₁ < n₂ / d₂) :
    n₁ * d₂ < n₂ * d₁ := by
  have hlt : n₁ < d₁ * (n₁ / d₁ + 1) := Nat.lt_mul_div_succ n₁ h₁
  have hle : d₂ * (n₂ / d₂) ≤ n₂ := Nat.mul_div_le n₂ d₂
  have hd₂ : 0 < d₂ := by
    rcases Nat.eq_zero_or_pos d₂ with rfl | hpos
    · rw [Nat.div_zero] at h
      exact absurd h (Nat.not_lt_zero _)
    · exact hpos
  calc n₁ * d₂ < d₁ * (n₁ / d₁ + 1) * d₂ := Nat.mul_lt_mul_of_pos_right hlt hd₂
    _ ≤ d₁ * (n₂ / d₂) * d₂ := Nat.mul_le_mul_right _ (Nat.mul_le_mul_left _ h)
    _ = d₂ * (n₂ / d₂) * d₁ := by ring
    _ ≤ n₂ * d₁ := Nat.mul_le_mul_right _ hle

/-- Fractions with the same whole part compare as their rests. -/
theorem compare_rests {n₁ d₁ n₂ d₂ : ℕ} (h : n₁ / d₁ = n₂ / d₂) :
    n₁ * d₂ < n₂ * d₁ ↔ n₁ % d₁ * d₂ < n₂ % d₂ * d₁ := by
  have hn₁ : n₁ * d₂ = d₁ * d₂ * (n₁ / d₁) + n₁ % d₁ * d₂ := by
    conv_lhs => rw [← Nat.div_add_mod n₁ d₁]
    ring
  have hn₂ : n₂ * d₁ = d₁ * d₂ * (n₁ / d₁) + n₂ % d₂ * d₁ := by
    conv_lhs => rw [← Nat.div_add_mod n₂ d₂, ← h]
    ring
  rw [hn₁, hn₂, Nat.add_lt_add_iff_left]

/-- The comparison of the whole parts, and then of the inverses of the rests, is the one of
the fractions. -/
theorem compareRationals_iff {n₁ d₁ n₂ d₂ : ℕ} (h₁ : 0 < d₁) (h₂ : 0 < d₂) :
    compareRationals n₁ d₁ n₂ d₂ = true ↔ n₁ * d₂ < n₂ * d₁ := by
  induction n₁, d₁, n₂, d₂ using compareRationals.induct with
  | case1 n₁ d₁ n₂ d₂ hlt =>
    unfold compareRationals
    rw [if_pos hlt]
    exact iff_of_true rfl (compare_wholes h₁ hlt)
  | case2 n₁ d₁ n₂ d₂ hle hlt =>
    unfold compareRationals
    rw [if_neg hle, if_pos hlt]
    exact iff_of_false Bool.false_ne_true (compare_wholes h₂ hlt).not_gt
  | case3 n₁ d₁ n₂ d₂ hle hge hzero =>
    unfold compareRationals
    rw [if_neg hle, if_neg hge, if_pos hzero, compare_rests (by omega), hzero]
    simp
  | case4 n₁ d₁ n₂ d₂ hle hge hrest hzero =>
    unfold compareRationals
    rw [if_neg hle, if_neg hge, if_neg hrest, if_pos hzero, compare_rests (by omega), hzero,
      Nat.zero_mul]
    exact iff_of_true rfl (Nat.mul_pos (Nat.pos_of_ne_zero hrest) h₁)
  | case5 n₁ d₁ n₂ d₂ hle hge hrest hrest' hnone => omega
  | case6 n₁ d₁ n₂ d₂ hle hge hrest hrest' hnone ih =>
    unfold compareRationals
    have hrests : n₁ * d₂ < n₂ * d₁ ↔ n₁ % d₁ * d₂ < n₂ % d₂ * d₁ := compare_rests (by omega)
    rw [if_neg hle, if_neg hge, if_neg hrest, if_neg hrest', if_neg hnone,
      ih (Nat.pos_of_ne_zero hrest) (Nat.pos_of_ne_zero hrest'), hrests, Nat.mul_comm d₂,
      Nat.mul_comm d₁]

/-- Whether a tally passes a threshold, which compares square roots. -/
def VoteThreshold.approved (threshold : VoteThreshold) (tally : Tally) (electorate : ℕ) : Bool :=
  let sqrtVoters := Nat.sqrt tally.turnout
  -- the electorate can be less than the sum of votes, since voting power decays
  let sqrtElectorate := Nat.sqrt (max electorate tally.turnout)
  if sqrtVoters = 0 ∨ sqrtElectorate = 0 then false
  else
    match threshold with
    | .superMajorityApprove => compareRationals tally.nays sqrtVoters tally.ayes sqrtElectorate
    | .superMajorityAgainst => compareRationals tally.nays sqrtElectorate tally.ayes sqrtVoters
    | .simpleMajority => decide (tally.ayes > tally.nays)

/-! ## Referenda -/

/-- What is known of an ongoing referendum. -/
structure ReferendumStatus (Proposal : Type) where
  /-- When voting on this referendum will end. -/
  endBlock : ℕ
  /-- The proposal being voted on. -/
  proposal : Proposal
  /-- The thresholding mechanism to determine whether it passed. -/
  threshold : VoteThreshold
  /-- The delay (in blocks) to wait after a successful referendum before deploying. -/
  delay : ℕ
  /-- The current tally of votes in this referendum. -/
  tally : Tally
  deriving DecidableEq

/-- Info regarding a referendum, present or past. -/
inductive ReferendumInfo (Proposal : Type)
  | ongoing (status : ReferendumStatus Proposal)
  | finished (approved : Bool) (endBlock : ℕ)
  deriving DecidableEq

end Interbtc.Democracy
