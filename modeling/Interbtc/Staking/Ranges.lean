import Interbtc.Staking.Steps

/-!
# When a withdrawal stays in range

Every figure a withdrawal computes has to fit the number type. Over a type whose
checked operations fail exactly outside a range, these figures and the comparison
with the current stake decide whether a withdrawal from an older pool succeeds.
-/

namespace Interbtc

open Core FixedPointNumber LawfulFixedPoint RangedFixedPoint

variable {AccountId CurrencyId F : Type} [FixedPointNumber F] [LawfulFixedPoint F]
  [RangedFixedPoint F]

namespace Pool

variable {p : Pool AccountId CurrencyId F} {n : AccountId} {a : F} {c : CurrencyId}

/-- The figures of bringing a nominator up to date fit. -/
structure SettlesInRange (p : Pool AccountId CurrencyId F) (n : AccountId) : Prop where
  product : Fits F ((rounding F).round (p.ledger.stake n * p.ledger.perToken))
  pending : Fits F (p.ledger.pending (rounding F) n)
  total : Fits F (p.ledger.total - p.ledger.pending (rounding F) n)
  settled : Fits F (p.ledger.settled (rounding F) n)
  tally : Fits F ((rounding F).round (p.ledger.settled (rounding F) n * p.ledger.perToken))

/-- The reward of `a` in one currency, which leaves the tally with the stake. -/
def tallied (p : Pool AccountId CurrencyId F) (c : CurrencyId) (a : F) : ℚ :=
  (rounding F).round (toRat (p.rewardPerToken c) * toRat a)

/-- The tallies of a withdrawal fit. A currency that is listed twice is taken off twice. -/
def TalliesInRange [DecidableEq CurrencyId] (currencies : List CurrencyId)
    (p : Pool AccountId CurrencyId F) (n : AccountId) (a : F) : Prop :=
  ∀ c ∈ currencies, Fits F (p.tallied c a) ∧
    ∀ k : ℕ, k ≤ currencies.count c → 0 < k →
      Fits F (toRat (p.rewardTally c n) - k * p.tallied c a)

instance [DecidableEq CurrencyId] [DecidablePred (Fits F)] (currencies : List CurrencyId)
    (p : Pool AccountId CurrencyId F) (n : AccountId) (a : F) :
    Decidable (p.TalliesInRange currencies n a) :=
  inferInstanceAs (Decidable (∀ c ∈ currencies, Fits F (p.tallied c a) ∧
    ∀ k : ℕ, k ≤ currencies.count c → 0 < k →
      Fits F (toRat (p.rewardTally c n) - k * p.tallied c a)))

/-- The figures of taking `a` from the stake of a nominator fit. -/
structure WithdrawsInRange [DecidableEq CurrencyId] (currencies : List CurrencyId)
    (p : Pool AccountId CurrencyId F) (n : AccountId) (a : F) : Prop where
  stake : Fits F (p.ledger.stake n - toRat a)
  total : Fits F (p.ledger.total - toRat a)
  current : Fits F (p.ledger.current - toRat a)
  product : Fits F ((rounding F).round (p.ledger.perToken * toRat a))
  tally : Fits F (p.ledger.tally n - (rounding F).round (p.ledger.perToken * toRat a))
  rewards : p.TalliesInRange currencies n a

variable [DecidableEq AccountId]

private theorem applySlash_succeeds_iff :
    (applySlash n).succeeds p = true ↔ p.SettlesInRange n := by
  simp only [Call.succeeds_iff, applySlash, Call.run_bind_eq_ok, Call.run_get_eq_ok,
    Call.run_ofExcept_eq_ok, run_checkedSubMut_eq_ok, Call.run_ofOption_eq_ok,
    Call.run_modify_eq_ok, Call.run_pure_eq_ok]
  constructor
  · rintro ⟨_, _, _, _, ⟨rfl, rfl⟩, t, _, ⟨ht, rfl⟩, total, _, ⟨htotal, rfl⟩, stake, _,
      ⟨hstake, rfl⟩, tally, _, ⟨htally, rfl⟩, _⟩
    have ht' : toRat t = p.ledger.pending (rounding F) n := computeAmountToSlash_eq_ok ht
    obtain ⟨m, hm, hsub⟩ := except_bind_eq_ok.mp ht
    have hpending := exists_checkedSub_iff.mp ⟨t, okOr_eq_ok.mp hsub⟩
    have htotal' := exists_checkedSub_iff.mp ⟨total, htotal⟩
    have hstake' := exists_checkedSub_iff.mp ⟨stake, hstake⟩
    have htally' := exists_checkedMul_iff.mp ⟨tally, htally⟩
    rw [toRat_mul (okOr_eq_ok.mp hm)] at hpending
    rw [ht'] at htotal' hstake'
    rw [toRat_sub hstake, ht'] at htally'
    exact ⟨exists_checkedMul_iff.mp ⟨m, okOr_eq_ok.mp hm⟩, hpending, htotal', hstake', htally'⟩
  · intro h
    obtain ⟨m, hm⟩ := exists_checkedMul_iff.mpr h.product
    obtain ⟨t, ht⟩ : ∃ t, checkedSub m (p.slashTally n) = some t := by
      rw [exists_checkedSub_iff, toRat_mul hm]
      exact h.pending
    have hslash : computeAmountToSlash (p.stake n) p.slashPerToken (p.slashTally n) = .ok t :=
      except_bind_eq_ok.mpr ⟨m, okOr_eq_ok.mpr hm, okOr_eq_ok.mpr ht⟩
    have ht' : toRat t = p.ledger.pending (rounding F) n := computeAmountToSlash_eq_ok hslash
    obtain ⟨total, htotal⟩ : ∃ total, checkedSub p.totalStake t = some total := by
      rw [exists_checkedSub_iff, ht']
      exact h.total
    obtain ⟨stake, hstake⟩ : ∃ stake, checkedSub (p.stake n) t = some stake := by
      rw [exists_checkedSub_iff, ht']
      exact h.settled
    obtain ⟨tally, htally⟩ : ∃ tally, checkedMul stake p.slashPerToken = some tally := by
      rw [exists_checkedMul_iff, toRat_sub hstake, ht']
      exact h.tally
    exact ⟨stake, _, p, p, ⟨rfl, rfl⟩, t, p, ⟨hslash, rfl⟩, total, _, ⟨htotal, rfl⟩, stake, _,
      ⟨hstake, rfl⟩, tally, _, ⟨htally, rfl⟩, ⟨⟩, _, rfl, rfl, rfl⟩

variable [DecidableEq CurrencyId] {currencies : List CurrencyId}

private theorem subRewardTally_succeeds_iff : (subRewardTally n a c).succeeds p = true ↔
    Fits F (p.tallied c a) ∧ Fits F (toRat (p.rewardTally c n) - p.tallied c a) := by
  simp only [Call.succeeds_iff, subRewardTally, Call.run_bind_eq_ok, Call.run_get_eq_ok,
    run_checkedSubMut_eq_ok, Call.run_ofOption_eq_ok, Call.run_pure_eq_ok]
  constructor
  · rintro ⟨_, _, _, _, ⟨rfl, rfl⟩, x, _, ⟨hx, rfl⟩, y, _, ⟨hy, rfl⟩, _⟩
    have hy' := exists_checkedSub_iff.mp ⟨y, hy⟩
    rw [toRat_mul hx] at hy'
    exact ⟨exists_checkedMul_iff.mp ⟨x, hx⟩, hy'⟩
  · rintro ⟨hproduct, htally⟩
    obtain ⟨x, hx⟩ := exists_checkedMul_iff.mpr hproduct
    obtain ⟨y, hy⟩ : ∃ y, checkedSub (p.rewardTally c n) x = some y := by
      rw [exists_checkedSub_iff, toRat_mul hx]
      exact htally
    exact ⟨(), _, p, p, ⟨rfl, rfl⟩, x, p, ⟨hx, rfl⟩, y, _, ⟨hy, rfl⟩, trivial, rfl⟩

omit [RangedFixedPoint F] in
private theorem tallied_of_run {u : Unit} {p' : Pool AccountId CurrencyId F}
    (h : (subRewardTally n a c).run p = .ok u p') (d : CurrencyId) :
    p'.tallied d a = p.tallied d a ∧ toRat (p'.rewardTally d n) =
      toRat (p.rewardTally d n) - if d = c then p.tallied c a else 0 := by
  obtain ⟨-, hself, hother⟩ := run_subRewardTally h
  by_cases hd : d = c
  · subst hd
    have hper : toRat (p'.rewardPerToken d) = toRat (p.rewardPerToken d) :=
      congrArg RewardLedger.perToken hself
    have htally := congrFun (congrArg RewardLedger.tally hself) n
    rw [if_pos rfl]
    refine ⟨by rw [tallied, hper, tallied], htally.trans ?_⟩
    simp [RewardLedger.withdraw, rewards, tallied]
  · have hper : toRat (p'.rewardPerToken d) = toRat (p.rewardPerToken d) :=
      congrArg RewardLedger.perToken (hother d hd)
    have htally := congrFun (congrArg RewardLedger.tally (hother d hd)) n
    rw [if_neg hd, sub_zero]
    exact ⟨by rw [tallied, hper, tallied], htally⟩

/-- Taking the first currency off leaves one multiple less to take off. -/
private theorem talliesInRange_cons {u : Unit} {p' : Pool AccountId CurrencyId F}
    (h : (subRewardTally n a c).run p = .ok u p') :
    p.TalliesInRange (c :: currencies) n a ↔
      (Fits F (p.tallied c a) ∧ Fits F (toRat (p.rewardTally c n) - p.tallied c a)) ∧
        p'.TalliesInRange currencies n a := by
  have hp' := tallied_of_run h
  constructor
  · intro hall
    obtain ⟨hproduct, htally⟩ := hall c List.mem_cons_self
    refine ⟨⟨hproduct, by simpa using htally 1 (by simp) one_pos⟩, fun d hd => ?_⟩
    obtain ⟨hproduct, htally⟩ := hall d (List.mem_cons_of_mem c hd)
    rw [(hp' d).1, (hp' d).2]
    refine ⟨hproduct, fun k hk hpos => ?_⟩
    by_cases hdc : d = c
    · subst hdc
      have := htally (k + 1) (by simpa using hk) k.succ_pos
      rw [if_pos rfl, sub_sub]
      rwa [Nat.cast_succ, add_mul, one_mul, add_comm] at this
    · rw [if_neg hdc, sub_zero]
      exact htally k (hk.trans List.count_le_count_cons) hpos
  · rintro ⟨⟨hproduct, hfirst⟩, hall⟩ d hd
    by_cases hdc : d = c
    · subst hdc
      refine ⟨hproduct, fun k hk hpos => ?_⟩
      rcases Nat.lt_or_ge 1 k with hlt | hle
      · obtain ⟨j, rfl⟩ : ∃ j, k = j + 1 := ⟨k - 1, by omega⟩
        have hj : j ≤ currencies.count d := by simpa using hk
        have hmem : d ∈ currencies := List.count_pos_iff.mp (by omega)
        have := (hall d hmem).2 j hj (by omega)
        rw [(hp' d).1, (hp' d).2, if_pos rfl, sub_sub] at this
        rwa [Nat.cast_succ, add_mul, one_mul, add_comm]
      · obtain rfl : k = 1 := by omega
        simpa using hfirst
    · obtain ⟨hproduct, htally⟩ := hall d (List.mem_of_ne_of_mem hdc hd)
      rw [(hp' d).1] at hproduct
      refine ⟨hproduct, fun k hk hpos => ?_⟩
      have := htally k (by rwa [List.count_cons_of_ne (Ne.symm hdc)] at hk) hpos
      rwa [(hp' d).1, (hp' d).2, if_neg hdc, sub_zero] at this

private theorem forM_subRewardTally_succeeds_iff :
    (currencies.forM (subRewardTally n a)).succeeds p = true ↔
      p.TalliesInRange currencies n a := by
  induction currencies generalizing p with
  | nil => simp [Call.succeeds_iff, TalliesInRange]
  | cons c currencies ih =>
    rw [Call.succeeds_iff]
    constructor
    · rintro ⟨u, p₂, h⟩
      obtain ⟨_, p₁, h₁, h₂⟩ := Call.run_bind_eq_ok.mp h
      rw [talliesInRange_cons h₁, ← subRewardTally_succeeds_iff, ← ih, Call.succeeds_iff,
        Call.succeeds_iff]
      exact ⟨⟨_, _, h₁⟩, _, _, h₂⟩
    · intro h
      have hfirst := h c List.mem_cons_self
      obtain ⟨_, p₁, h₁⟩ := Call.succeeds_iff.mp (subRewardTally_succeeds_iff.mpr
        ⟨hfirst.1, by simpa using hfirst.2 1 (by simp) one_pos⟩)
      obtain ⟨u, p₂, h₂⟩ := Call.succeeds_iff.mp (ih.mpr ((talliesInRange_cons h₁).mp h).2)
      exact ⟨u, p₂, Call.run_bind_eq_ok.mpr ⟨_, p₁, h₁, h₂⟩⟩

private theorem removeStake_succeeds_iff :
    (removeStake currencies n a).succeeds p = true ↔ p.WithdrawsInRange currencies n a := by
  have htallies : ∀ q : Pool AccountId CurrencyId F, q.rewardPerToken = p.rewardPerToken →
      q.rewardTally = p.rewardTally → ((∃ u q', (currencies.forM (subRewardTally n a)).run q =
        .ok u q') ↔ p.TalliesInRange currencies n a) := by
    intro q hper htally
    rw [← Call.succeeds_iff, forM_subRewardTally_succeeds_iff]
    simp only [TalliesInRange, tallied, hper, htally]
  simp only [Call.succeeds_iff, removeStake, Call.run_bind_eq_ok, Call.run_get_eq_ok,
    run_checkedSubMut_eq_ok, Call.run_ofOption_eq_ok, Call.run_ite_eq_ok, Call.run_modify_eq_ok,
    Call.run_pure_eq_ok]
  constructor
  · rintro ⟨u, _, stake, _, ⟨hstake, rfl⟩, total, _, ⟨htotal, rfl⟩, current, _, ⟨hcurrent, rfl⟩,
      _, p₁, hif, _, _, ⟨rfl, rfl⟩, m, _, ⟨hm, rfl⟩, tally, _, ⟨htally, rfl⟩, h⟩
    have hm' : checkedMul p.slashPerToken a = some m := by
      rcases hif with ⟨-, rfl⟩ | ⟨-, -, rfl⟩ <;> exact hm
    have htally' : checkedSub (p.slashTally n) m = some tally := by
      rcases hif with ⟨-, rfl⟩ | ⟨-, -, rfl⟩ <;> exact htally
    have hfits := exists_checkedSub_iff.mp ⟨tally, htally'⟩
    rw [toRat_mul hm'] at hfits
    refine ⟨exists_checkedSub_iff.mp ⟨stake, hstake⟩, exists_checkedSub_iff.mp ⟨total, htotal⟩,
      exists_checkedSub_iff.mp ⟨current, hcurrent⟩, exists_checkedMul_iff.mp ⟨m, hm'⟩, hfits,
      (htallies _ ?_ ?_).mp ⟨u, _, h⟩⟩
    · rcases hif with ⟨-, rfl⟩ | ⟨-, -, rfl⟩ <;> rfl
    · rcases hif with ⟨-, rfl⟩ | ⟨-, -, rfl⟩ <;> rfl
  · intro h
    obtain ⟨stake, hstake⟩ := exists_checkedSub_iff.mpr h.stake
    obtain ⟨total, htotal⟩ := exists_checkedSub_iff.mpr h.total
    obtain ⟨current, hcurrent⟩ := exists_checkedSub_iff.mpr h.current
    obtain ⟨m, hm⟩ := exists_checkedMul_iff.mpr h.product
    obtain ⟨tally, htally⟩ : ∃ tally, checkedSub (p.slashTally n) m = some tally := by
      rw [exists_checkedSub_iff, toRat_mul hm]
      exact h.tally
    by_cases hzero : total = 0
    · obtain ⟨u, p₁, h₁⟩ := (htallies ((SlashTally n).set tally (TotalCurrentStake.set 0
        (TotalCurrentStake.set current (TotalStake.set total ((Stake n).set stake p)))))
        rfl rfl).mpr h.rewards
      exact ⟨u, p₁, stake, _, ⟨hstake, rfl⟩, total, _, ⟨htotal, rfl⟩, current, _,
        ⟨hcurrent, rfl⟩, (), _, .inl ⟨hzero, rfl⟩, _, _, ⟨rfl, rfl⟩, m, _, ⟨hm, rfl⟩, tally, _,
        ⟨htally, rfl⟩, h₁⟩
    · obtain ⟨u, p₁, h₁⟩ := (htallies ((SlashTally n).set tally
        (TotalCurrentStake.set current (TotalStake.set total ((Stake n).set stake p))))
        rfl rfl).mpr h.rewards
      exact ⟨u, p₁, stake, _, ⟨hstake, rfl⟩, total, _, ⟨htotal, rfl⟩, current, _,
        ⟨hcurrent, rfl⟩, (), _, .inr ⟨hzero, trivial, rfl⟩, _, _, ⟨rfl, rfl⟩, m, _, ⟨hm, rfl⟩,
        tally, _, ⟨htally, rfl⟩, h₁⟩

end Pool

namespace Staking

variable [DecidableEq AccountId] [DecidableEq CurrencyId] {v : VaultId AccountId CurrencyId}
  {n : AccountId} {i : ℕ} {a : F} {s : Staking AccountId CurrencyId F}

/-- The stake in the current pool, as the pallet computes it, is at least `a`. -/
def HoldsCurrently (s : Staking AccountId CurrencyId F) (v : VaultId AccountId CurrencyId)
    (n : AccountId) (a : F) : Prop :=
  ∃ b, s.computePreciseStakeAtIndex (s.nonce v) v n = .ok b ∧ a ≤ b

/-- The figures of a withdrawal of `a` from the pool of nonce `i` fit. -/
def WithdrawsInRange (native : CurrencyId) (s : Staking AccountId CurrencyId F)
    (v : VaultId AccountId CurrencyId) (i : ℕ) (n : AccountId) (a : F) : Prop :=
  (s.pool v (s.nonce v)).SettlesInRange n ∧
    (a ≠ 0 → (s.pool v i).WithdrawsInRange (rewardCurrencies native v) n a)

private theorem applySlash_succeeds_iff :
    (applySlash v n).succeeds s = true ↔ (s.pool v (s.nonce v)).SettlesInRange n := by
  have hzoom : (applySlash v n).succeeds s = (Pool.applySlash n).succeeds (s.pool v (s.nonce v)) :=
    Lens.zoom_succeeds
  rw [hzoom, Pool.applySlash_succeeds_iff]

omit [LawfulFixedPoint F] [RangedFixedPoint F] in
/-- What the comparison of a withdrawal reads is the precise stake before the clamp at zero. -/
private theorem holdsCurrently_iff {x : F} {s' : Staking AccountId CurrencyId F}
    (h : (applySlash v n).run s = .ok x s') (ha : 0 ≤ a) (hne : a ≠ 0) :
    s.HoldsCurrently v n a ↔ ¬ x < a := by
  simp only [applySlash, Call.run_bind_eq_ok, Call.run_get_eq_ok, Lens.run_zoom_eq_ok] at h
  obtain ⟨_, _, ⟨rfl, rfl⟩, q, h, rfl⟩ := h
  have hprecise : s.computePreciseStakeAtIndex (s.nonce v) v n = .ok (max 0 x) :=
    Pool.computePreciseStake_of_applySlash h
  have hpos : ¬ a ≤ 0 := fun hle => hne (le_antisymm hle ha)
  rw [HoldsCurrently, hprecise, not_lt]
  simp [hpos]

/-- A withdrawal from an older pool succeeds exactly when its figures fit and its amount is at
most the stake in the current pool. -/
theorem withdrawStake_succeeds_iff (native : CurrencyId) (hi : i ≠ s.nonce v) (ha : 0 ≤ a) :
    (withdrawStake native v n a (some i)).succeeds s = true ↔
      s.WithdrawsInRange native v i n a ∧ (a = 0 ∨ s.HoldsCurrently v n a) := by
  have hpool : ∀ q, (s.setPool v (s.nonce v) q).pool v i = s.pool v i := by
    intro q
    rw [setPool_pool, if_neg fun h => hi h.2]
  rw [WithdrawsInRange, ← applySlash_succeeds_iff, ← Pool.removeStake_succeeds_iff,
    Call.succeeds_iff, Call.succeeds_iff, Call.succeeds_iff]
  simp only [withdrawStake, Call.run_bind_eq_ok, Call.run_get_eq_ok, Call.run_ite_eq_ok,
    Call.run_pure_eq_ok, Call.run_throw_eq_ok, and_false, false_or, Option.getD_some]
  constructor
  · rintro ⟨u, s', _, _, ⟨rfl, rfl⟩, x, s₁, happly, h⟩
    refine ⟨⟨⟨x, s₁, happly⟩, fun hne => ?_⟩, ?_⟩
    · obtain ⟨q, rfl, -, -⟩ := run_applySlash happly
      rcases h with ⟨hzero, -⟩ | ⟨-, -, h⟩
      · exact absurd hzero hne
      · obtain ⟨r, hr, rfl⟩ := Lens.run_zoom_eq_ok.mp h
        exact ⟨u, r, hpool q ▸ hr⟩
    · rcases h with ⟨hzero, -⟩ | ⟨hne, hle, -⟩
      · exact .inl hzero
      · exact .inr ((holdsCurrently_iff happly ha hne).mpr hle)
  · rintro ⟨⟨⟨x, s₁, happly⟩, hrem⟩, h⟩
    by_cases hzero : a = 0
    · exact ⟨(), s₁, s, s, ⟨rfl, rfl⟩, x, s₁, happly, .inl ⟨hzero, trivial, rfl⟩⟩
    · obtain ⟨q, rfl, -, -⟩ := id (run_applySlash happly)
      obtain ⟨u, r, hr⟩ := hrem hzero
      refine ⟨u, (s.setPool v (s.nonce v) q).setPool v i r, s, s, ⟨rfl, rfl⟩, x, _, happly,
        .inr ⟨hzero, ?_, ?_⟩⟩
      · exact (holdsCurrently_iff happly ha hzero).mp (h.resolve_left hzero)
      · rw [← hpool q] at hr
        exact Lens.run_zoom_eq_ok.mpr ⟨r, hr, rfl⟩

end Staking

end Interbtc
