import Interbtc.Core.FixedPoint
import Interbtc.Core.Sums

/-!
# Rewards by share

A pool of stakes that earn a reward in one currency. A distribution raises one number,
the reward per token, and a tally for each account keeps what it has earned when its
stake changes. Products and quotients may be rounded.
-/

namespace Core

/-- The stakes of one pool, and its rewards in one currency. -/
@[ext] structure ShareLedger (ι : Type) where
  total : ℚ
  stake : ι → ℚ
  perToken : ℚ
  tally : ι → ℚ

namespace ShareLedger

variable {ι : Type} [DecidableEq ι] (rd : Rounding) (L : ShareLedger ι)

/-- The pool nobody has staked in. -/
def empty : ShareLedger ι := ⟨0, fun _ => 0, 0, fun _ => 0⟩

/-- A deposit: the stake grows, and what was paid per token before does not count for it. -/
def deposit (i : ι) (a : ℚ) : ShareLedger ι where
  total := L.total + a
  stake := Function.update L.stake i (L.stake i + a)
  perToken := L.perToken
  tally := Function.update L.tally i (L.tally i + rd.round (L.perToken * a))

/-- A withdrawal: the stake falls, and its part of the tally with it. -/
def withdraw (i : ι) (a : ℚ) : ShareLedger ι where
  total := L.total - a
  stake := Function.update L.stake i (L.stake i - a)
  perToken := L.perToken
  tally := Function.update L.tally i (L.tally i - rd.round (L.perToken * a))

/-- Spread a reward over the stakes. -/
def spread (x : ℚ) : ShareLedger ι :=
  { L with perToken := L.perToken + rd.round (x / L.total) }

/-- Restart the tally of an account whose reward is paid out. -/
def claim (i : ι) : ShareLedger ι :=
  { L with tally := Function.update L.tally i (rd.round (L.stake i * L.perToken)) }

/-- What an account has earned and not claimed, the product not rounded. -/
def pending (i : ι) : ℚ := L.stake i * L.perToken - L.tally i

/-- What an account is paid. -/
def payable (i : ι) : ℤ := truncate (rd.round (L.stake i * L.perToken) - L.tally i)

/-- What the rounding of its product keeps from an account. -/
def withheld (i : ι) : ℚ := L.stake i * L.perToken - rd.round (L.stake i * L.perToken)

/-- The stakes are non-negative and add up, and rewards have only been added. -/
structure Sound [Fintype ι] (L : ShareLedger ι) : Prop where
  stake_nonneg : ∀ i, 0 ≤ L.stake i
  total_eq : L.total = ∑ i, L.stake i
  perToken_nonneg : 0 ≤ L.perToken

/-- What an operation does to a pool, with the reward it spreads and the reward it pays. -/
inductive Step (rd : Rounding) (L : ShareLedger ι) : ShareLedger ι → ℚ → ℚ → Prop
  | stay : Step rd L L 0 0
  | deposit (i : ι) (a : ℚ) (ha : 0 ≤ a) : Step rd L (L.deposit rd i a) 0 0
  | withdraw (i : ι) (a : ℚ) (ha : 0 ≤ a) (hle : a ≤ L.stake i) :
      Step rd L (L.withdraw rd i a) 0 0
  | spread (x : ℚ) (hx : 0 ≤ x) (htotal : L.total ≠ 0) : Step rd L (L.spread rd x) x 0
  | claim (i : ι) : Step rd L (L.claim rd i) 0 (L.payable rd i)

variable {rd L} {L' : ShareLedger ι} {i : ι} {spread paid : ℚ}

/-! ## Stakes -/

omit [DecidableEq ι] in
/-- The empty ledger is sound. -/
theorem Sound.empty [Fintype ι] : Sound (ShareLedger.empty : ShareLedger ι) where
  stake_nonneg _ := le_rfl
  total_eq := by simp [ShareLedger.empty]
  perToken_nonneg := le_rfl

omit [DecidableEq ι] in
/-- The total of the stakes is not negative. -/
theorem Sound.total_nonneg [Fintype ι] (h : Sound L) : 0 ≤ L.total := by
  rw [h.total_eq]
  exact Finset.sum_nonneg fun i _ => h.stake_nonneg i

/-- Every step keeps a ledger sound. -/
theorem Step.sound [Fintype ι] (h : Step rd L L' spread paid) (hL : Sound L) : Sound L' := by
  cases h with
  | stay => exact hL
  | deposit i a ha =>
    refine ⟨fun j => ?_, ?_, hL.perToken_nonneg⟩
    · by_cases hj : j = i
      · subst hj
        simp only [ShareLedger.deposit, Function.update_self]
        exact add_nonneg (hL.stake_nonneg j) ha
      · simpa [ShareLedger.deposit, hj] using hL.stake_nonneg j
    · have hsum := sum_update (fun _ x => x) L.stake i (L.stake i + a)
      simp only [ShareLedger.deposit]
      rw [hsum, hL.total_eq]
      ring
  | withdraw i a ha hle =>
    refine ⟨fun j => ?_, ?_, hL.perToken_nonneg⟩
    · by_cases hj : j = i
      · subst hj
        simpa [ShareLedger.withdraw] using hle
      · simpa [ShareLedger.withdraw, hj] using hL.stake_nonneg j
    · have hsum := sum_update (fun _ x => x) L.stake i (L.stake i - a)
      simp only [ShareLedger.withdraw]
      rw [hsum, hL.total_eq]
      ring
  | spread x hx htotal =>
    refine ⟨hL.stake_nonneg, hL.total_eq, ?_⟩
    exact add_nonneg hL.perToken_nonneg (rd.round_nonneg (div_nonneg hx hL.total_nonneg))
  | claim i => exact ⟨hL.stake_nonneg, hL.total_eq, hL.perToken_nonneg⟩

/-! ## Solvency -/

/-- What has to be kept for the accounts: what each is owed, or what rounding withholds of it. -/
def reserve [Fintype ι] (rd : Rounding) (L : ShareLedger ι) : ℚ :=
  ∑ i, max (L.pending i) (L.withheld rd i)

omit [DecidableEq ι] in
/-- The empty ledger has nothing to pay. -/
theorem reserve_empty [Fintype ι] : reserve rd (empty : ShareLedger ι) = 0 := by
  simp [reserve, pending, withheld, empty]

omit [DecidableEq ι] in
/-- What all holders could claim is within the reserve. -/
theorem sum_pending_le [Fintype ι] : ∑ i, L.pending i ≤ reserve rd L :=
  Finset.sum_le_sum fun _ _ => le_max_left _ _

/-- A change of one account that costs at most one rounding step. -/
private theorem reserve_le_of_one [Fintype ι] {c : ℚ}
    (hoff : ∀ j, j ≠ i → L'.pending j = L.pending j ∧ L'.withheld rd j = L.withheld rd j)
    (hone : max (L'.pending i) (L'.withheld rd i) ≤ max (L.pending i) (L.withheld rd i) + c) :
    reserve rd L' ≤ reserve rd L + c := by
  have hsum : ∑ j, max (L'.pending j) (L'.withheld rd j) =
      ∑ j, max (L.pending j) (L.withheld rd j) - max (L.pending i) (L.withheld rd i) +
        max (L'.pending i) (L'.withheld rd i) :=
    sum_of_eq_off i fun j hj => by rw [(hoff j hj).1, (hoff j hj).2]
  rw [reserve, reserve, hsum]
  linarith

private theorem reserve_deposit_le [Fintype ι] (rd : Rounding) (hL : Sound L) {a : ℚ} (ha : 0 ≤ a) :
    reserve rd (L.deposit rd i a) ≤ reserve rd L + rd.ulp := by
  have hr := hL.perToken_nonneg
  have hs : 0 ≤ L.stake i * L.perToken := mul_nonneg (hL.stake_nonneg i) hr
  have hra : 0 ≤ L.perToken * a := mul_nonneg hr ha
  refine reserve_le_of_one (i := i) (fun j hj => ?_) ?_
  · simp [pending, withheld, deposit, hj]
  · have hsplit : (L.stake i + a) * L.perToken = L.stake i * L.perToken + L.perToken * a := by ring
    have h₁ := rd.le_round_add hra
    have h₂ := rd.round_add_le hs hra
    simp only [pending, withheld, deposit, Function.update_self, hsplit]
    refine max_le ?_ ?_
    · linarith [le_max_left (L.stake i * L.perToken - L.tally i)
        (L.stake i * L.perToken - rd.round (L.stake i * L.perToken))]
    · linarith [le_max_right (L.stake i * L.perToken - L.tally i)
        (L.stake i * L.perToken - rd.round (L.stake i * L.perToken))]

private theorem reserve_withdraw_le [Fintype ι] (rd : Rounding) (hL : Sound L) {a : ℚ} (ha : 0 ≤ a)
    (hle : a ≤ L.stake i) : reserve rd (L.withdraw rd i a) ≤ reserve rd L + rd.ulp := by
  have hr := hL.perToken_nonneg
  have hs : 0 ≤ (L.stake i - a) * L.perToken := mul_nonneg (sub_nonneg.mpr hle) hr
  have hra : 0 ≤ L.perToken * a := mul_nonneg hr ha
  refine reserve_le_of_one (i := i) (fun j hj => ?_) ?_
  · simp [pending, withheld, withdraw, hj]
  · have hsplit : L.stake i * L.perToken = (L.stake i - a) * L.perToken + L.perToken * a := by ring
    have h₁ := rd.round_le hra
    have h₂ := rd.round_add_ge hs hra
    rw [← hsplit] at h₂
    simp only [pending, withheld, withdraw, Function.update_self]
    refine max_le ?_ ?_
    · linarith [le_max_left (L.stake i * L.perToken - L.tally i)
        (L.stake i * L.perToken - rd.round (L.stake i * L.perToken)), rd.ulp_nonneg]
    · linarith [le_max_right (L.stake i * L.perToken - L.tally i)
        (L.stake i * L.perToken - rd.round (L.stake i * L.perToken))]

omit [DecidableEq ι] in
/-- A reward of `x` adds at most `x` to what has to be kept. -/
private theorem reserve_spread_le [Fintype ι] (rd : Rounding) (hL : Sound L) {x : ℚ} (hx : 0 ≤ x)
    (htotal : L.total ≠ 0) : reserve rd (L.spread rd x) ≤ reserve rd L + x := by
  have hpos : 0 < L.total := lt_of_le_of_ne hL.total_nonneg htotal.symm
  set δ := rd.round (x / L.total) with hδ
  have hδ₀ : 0 ≤ δ := rd.round_nonneg (div_nonneg hx hpos.le)
  have hδ₁ : L.total * δ ≤ x := by
    have := rd.round_le (div_nonneg hx hpos.le)
    rwa [le_div_iff₀ hpos, mul_comm] at this
  have hgrow : ∀ j, max ((L.spread rd x).pending j) ((L.spread rd x).withheld rd j) ≤
      max (L.pending j) (L.withheld rd j) + L.stake j * δ := by
    intro j
    have hs := hL.stake_nonneg j
    have hmono : rd.round (L.stake j * L.perToken) ≤ rd.round (L.stake j * (L.perToken + δ)) :=
      rd.round_mono (mul_nonneg hs hL.perToken_nonneg) (by gcongr; linarith)
    simp only [pending, withheld, ShareLedger.spread, ← hδ]
    rw [mul_add] at hmono ⊢
    refine max_le ?_ ?_
    · linarith [le_max_left (L.stake j * L.perToken - L.tally j)
        (L.stake j * L.perToken - rd.round (L.stake j * L.perToken))]
    · linarith [le_max_right (L.stake j * L.perToken - L.tally j)
        (L.stake j * L.perToken - rd.round (L.stake j * L.perToken))]
  have hsum := Finset.sum_le_sum fun j (_ : j ∈ Finset.univ) => hgrow j
  rw [Finset.sum_add_distrib, ← Finset.sum_mul, ← hL.total_eq] at hsum
  exact hsum.trans (add_le_add_right hδ₁ _)

private theorem truncate_le_pos (q : ℚ) : (truncate q : ℚ) ≤ max q 0 := by
  rcases le_total 0 q with h | h
  · exact (truncate_le h).trans (le_max_left _ _)
  · exact (by exact_mod_cast truncate_nonpos h : (truncate q : ℚ) ≤ 0).trans (le_max_right _ _)

private theorem reserve_claim_le [Fintype ι] (rd : Rounding) :
    reserve rd (L.claim rd i) ≤ reserve rd L + -(L.payable rd i : ℚ) := by
  refine reserve_le_of_one (i := i) (fun j hj => ?_) ?_
  · simp [pending, withheld, claim, hj]
  · have htrunc := truncate_le_pos (rd.round (L.stake i * L.perToken) - L.tally i)
    simp only [pending, withheld, claim, payable, Function.update_self, max_self]
    rcases max_cases (rd.round (L.stake i * L.perToken) - L.tally i) 0 with ⟨h, -⟩ | ⟨h, -⟩
    · rw [h] at htrunc
      linarith [le_max_left (L.stake i * L.perToken - L.tally i)
        (L.stake i * L.perToken - rd.round (L.stake i * L.perToken))]
    · rw [h] at htrunc
      linarith [le_max_right (L.stake i * L.perToken - L.tally i)
        (L.stake i * L.perToken - rd.round (L.stake i * L.perToken))]

omit [DecidableEq ι] in
/-- What an account is paid is kept for it. -/
theorem Sound.payable_le_reserve [Fintype ι] (hL : Sound L) (rd : Rounding) (i : ι) :
    (L.payable rd i : ℚ) ≤ reserve rd L := by
  have hround : ∀ j, rd.round (L.stake j * L.perToken) ≤ L.stake j * L.perToken := fun j =>
    rd.round_le (mul_nonneg (hL.stake_nonneg j) hL.perToken_nonneg)
  have hpaid := truncate_le_pos (rd.round (L.stake i * L.perToken) - L.tally i)
  have hone : (L.payable rd i : ℚ) ≤ max (L.pending i) (L.withheld rd i) := by
    refine hpaid.trans (max_le_max ?_ ?_)
    · exact sub_le_sub_right (hround i) _
    · exact sub_nonneg.mpr (hround i)
  refine hone.trans (Finset.single_le_sum (f := fun j => max (L.pending j) (L.withheld rd j))
    (fun j _ => ?_) (Finset.mem_univ i))
  exact le_max_of_le_right (sub_nonneg.mpr (hround j))

/-- What is kept and paid grows by what is spread and by at most one rounding step. -/
theorem Step.reserve_le [Fintype ι] (h : Step rd L L' spread paid) (hL : Sound L) :
    reserve rd L' + paid ≤ reserve rd L + spread + rd.ulp := by
  have hulp := rd.ulp_nonneg
  cases h with
  | stay => linarith
  | deposit i a ha => linarith [reserve_deposit_le rd (i := i) hL ha]
  | withdraw i a ha hle => linarith [reserve_withdraw_le rd hL ha hle]
  | spread x hx htotal => linarith [reserve_spread_le rd hL hx htotal]
  | claim i => linarith [reserve_claim_le rd (L := L) (i := i)]

/-! ## Exact arithmetic -/

/-- A deposit changes no pending reward. -/
theorem pending_deposit (a : ℚ) (j : ι) : (L.deposit .exact i a).pending j = L.pending j := by
  by_cases hj : j = i
  · subst hj
    simp only [pending, deposit, Function.update_self, Rounding.exact_round]
    ring
  · simp [pending, deposit, hj]

/-- A withdrawal changes no pending reward. -/
theorem pending_withdraw (a : ℚ) (j : ι) : (L.withdraw .exact i a).pending j = L.pending j := by
  by_cases hj : j = i
  · subst hj
    simp only [pending, withdraw, Function.update_self, Rounding.exact_round]
    ring
  · simp [pending, withdraw, hj]

omit [DecidableEq ι] in
/-- A reward is spread in proportion to the stakes. -/
theorem pending_spread (x : ℚ) (j : ι) :
    (L.spread .exact x).pending j = L.pending j + x * (L.stake j / L.total) := by
  simp only [pending, ShareLedger.spread, Rounding.exact_round]
  ring

/-- A claim takes what is pending, and from its holder only. -/
theorem pending_claim (j : ι) :
    (L.claim .exact i).pending j = if j = i then 0 else L.pending j := by
  by_cases hj : j = i
  · subst hj
    simp [pending, claim]
  · simp [pending, claim, hj]

end ShareLedger

end Core
