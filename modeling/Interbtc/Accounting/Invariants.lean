import Interbtc.Accounting.Books

/-!
# What holds of the books

Four properties that every change preserves: the supply is what the vaults and the
pools have issued; the open redeems are counted and can be served; the open issues are
counted; and what a vault asks to be replaced can still be replaced. Taking over the
tokens of a cancelled request and recovering a vault preserve the last two only
conditionally.
-/

namespace Interbtc.Books

open Core

variable {V P C H : Type} [DecidableEq V] [DecidableEq P] [DecidableEq C] [DecidableEq H]
  {pair : V → P} {wrapped : P → C} {b b' : Books V P C H} {v w : V} {x : ℕ}

/-! ## The supply is backed -/

section Backed

variable [Fintype V] [Fintype P] (pair wrapped)

/-- The tokens of one currency that a family of counters holds. -/
def backing (f : V ⊕ P → ℕ) (c : C) : ℕ :=
  ∑ k, if denomination pair wrapped k = c then f k else 0

/-- The supply of a wrapped currency is what was issued in it. -/
def Backed (c : C) (b : Books V P C H) : Prop := b.supply c = backing pair wrapped b.issued c

variable {pair wrapped}

omit [DecidableEq V] [DecidableEq P] in
private theorem le_backing (f : V ⊕ P → ℕ) (k : V ⊕ P) :
    f k ≤ backing pair wrapped f (denomination pair wrapped k) := by
  have hle := Finset.single_le_sum
    (f := fun j => if denomination pair wrapped j = denomination pair wrapped k then f j else 0)
    (fun _ _ => Nat.zero_le _) (Finset.mem_univ k)
  rwa [if_pos rfl] at hle

private theorem backing_bump (f : V ⊕ P → ℕ) (k : V ⊕ P) (x : ℕ) :
    backing pair wrapped (bump f k x) =
      bump (backing pair wrapped f) (denomination pair wrapped k) x := by
  funext c
  have hsum := sum_update_add (fun j n => if denomination pair wrapped j = c then n else 0) f k
    (f k + x)
  rw [← bump_eq_update] at hsum
  unfold backing
  simp only [bump] at hsum ⊢
  by_cases hc : denomination pair wrapped k = c
  · simp only [hc, if_true] at hsum ⊢
    omega
  · simp only [hc, Ne.symm hc, if_false] at hsum ⊢
    omega

private theorem backing_drop {f : V ⊕ P → ℕ} {k : V ⊕ P} {x : ℕ} (hle : x ≤ f k) :
    backing pair wrapped (drop f k x) =
      drop (backing pair wrapped f) (denomination pair wrapped k) x := by
  have hf : bump (drop f k x) k x = f := by
    funext j
    simp only [bump, drop]
    split
    · rename_i hj
      subst hj
      omega
    · omega
  have hb : backing pair wrapped (bump (drop f k x) k x) = _ := backing_bump _ _ _
  rw [hf] at hb
  rw [hb]
  funext c
  simp only [drop, bump]
  split <;> omega

private theorem backing_move {f : V ⊕ P → ℕ} {k j : V ⊕ P} {x : ℕ} (hle : x ≤ f k)
    (hd : denomination pair wrapped k = denomination pair wrapped j) :
    backing pair wrapped (bump (drop f k x) j x) = backing pair wrapped f := by
  rw [backing_bump, backing_drop hle, hd]
  have hk : x ≤ backing pair wrapped f (denomination pair wrapped k) := hle.trans (le_backing f k)
  rw [hd] at hk
  funext c
  simp only [bump, drop]
  split
  · rename_i h
    subst h
    omega
  · omega

omit [DecidableEq V] [DecidableEq P] [DecidableEq C] [Fintype V] [Fintype P] in
private theorem denomination_home (b : Counters V P) (v : V) :
    denomination pair wrapped (b.home pair v) = wrapped (pair v) := by
  unfold Counters.home
  split <;> rfl

/-- Every step keeps the supply backed. -/
theorem Step.backed {c : C} (hstep : Step pair wrapped b b') (hb : b.Backed pair wrapped c) :
    b'.Backed pair wrapped c := by
  unfold Backed at hb
  cases hstep with
  | openIssue | closeIssue | openRedeem | releaseRedeem | setToBeReplaced | openReplace
  | releaseReplace => exact hb
  | mint v x hmax =>
    change bump b.supply _ x c = backing pair wrapped (bump b.issued _ x) c
    rw [backing_bump, denomination_home, bump, bump, hb]
  | settleRedeem h v x hopen hle hissued =>
    change drop b.supply _ x c = backing pair wrapped (drop b.issued _ x) c
    rw [backing_drop hissued, denomination_home, drop, drop, hb]
  | selfRedeem v x hactive hle =>
    change drop b.supply _ x c = backing pair wrapped (drop b.issued _ x) c
    rw [backing_drop (by omega), drop, drop, hb]
    rfl
  | liquidationRedeem p x hle =>
    change drop b.supply _ x c = backing pair wrapped (drop b.issued _ x) c
    rw [backing_drop (by omega), drop, drop, hb]
    rfl
  | settleReplace h v w x hopen hpair hold hissued hnew hmax =>
    change b.supply c = backing pair wrapped (bump (drop b.issued _ x) _ x) c
    rw [backing_move hissued (by rw [denomination_home, denomination_home, hpair]), hb]
  | liquidate v hactive hreplaced hmax =>
    change b.supply c = backing pair wrapped (drop (bump b.issued _ _) _ _) c
    rw [backing_drop (by simp [bump]), backing_bump, hb]
    exact (Nat.add_sub_cancel _ _).symm

omit [DecidableEq H] in
/-- Handing tokens over keeps the supply backed. -/
theorem TakeOver.backed {c : C} (h : TakeOver pair wrapped b v w x b')
    (hb : b.Backed pair wrapped c) : b'.Backed pair wrapped c := by
  have hle := h.enough
  rw [h.books]
  change b.supply c = backing pair wrapped (bump (drop b.issued _ x) _ x) c
  rw [backing_move (k := .inl v) (j := .inl w) (by omega) h.currency]
  exact hb

omit [DecidableEq P] [DecidableEq H] in
/-- A recovery keeps the supply backed. -/
theorem Recovery.backed {c : C} (h : Recovery b v b') (hb : b.Backed pair wrapped c) :
    b'.Backed pair wrapped c := by
  rw [h.books]
  exact hb

end Backed

/-! ## The open redeems are counted and can be served -/

section Orderly

variable [Fintype V] [Fintype H]

/-- What a vault has to redeem for open requests, those of users and those of new vaults. -/
def redeemDue (b : Books V P C H) (v : V) : ℕ :=
  due Obligation.owes b.redeems v + due Handover.owesOld b.replaces v

/-- What the liquidated vaults of a pool have to redeem. -/
def pooledToBeRedeemed (pair : V → P) (c : Counters V P) (p : P) : ℕ :=
  pooled c.isLiquidated pair (fun v => c.toBeRedeemed (.inl v)) p

variable (pair) in
/-- The tokens to be redeemed are at least those of the open requests, and the vaults and
pools that have to redeem them have issued them. -/
structure Orderly (b : Books V P C H) : Prop where
  cleared : ∀ v, b.isLiquidated v = true → b.toBeReplaced v = 0
  counted : ∀ v, b.redeemDue v ≤ b.toBeRedeemed (.inl v)
  pooled : ∀ p, pooledToBeRedeemed pair b.toCounters p ≤ b.toBeRedeemed (.inr p)
  redeemable : ∀ v, b.isLiquidated v = false → b.toBeRedeemed (.inl v) ≤ b.issued (.inl v)
  pool_redeemable : ∀ p, b.toBeRedeemed (.inr p) ≤ b.issued (.inr p)
  bounded : ∀ k, b.issued k ≤ maxBalance

/-! ### One change -/

variable (pair) in
private theorem pooledToBeRedeemed_add (c : Counters V P) (hv : c.isLiquidated v = false) (p : P) :
    pooledToBeRedeemed pair (c.addToBeRedeemed (.inl v) x) p = pooledToBeRedeemed pair c p := by
  refine pooled_congr (fun u hu => ?_) p
  have huv : u ≠ v := by
    rintro rfl
    exact Bool.false_ne_true (hv.symm.trans hu)
  simp [huv]

variable (pair) in
private theorem pooledToBeRedeemed_sub (c : Counters V P) (hle : x ≤ c.toBeRedeemed (.inl v))
    (p : P) :
    pooledToBeRedeemed pair (c.subToBeRedeemed pair v x) p +
        (if c.isLiquidated v ∧ pair v = p then x else 0) = pooledToBeRedeemed pair c p := by
  have hsum : Core.pooled c.isLiquidated pair
      (fun u => (c.subToBeRedeemed pair v x).toBeRedeemed (.inl u)) p + _ =
        pooledToBeRedeemed pair c p + _ :=
    pooled_of_eq_off (v := v) (fun u hu => by simp [hu]) p
  change Core.pooled c.isLiquidated pair _ p + _ = _
  simp only [Counters.subToBeRedeemed_inl, if_true] at hsum ⊢
  by_cases hv : c.isLiquidated v ∧ pair v = p
  · simp only [if_pos hv] at hsum ⊢
    omega
  · simp only [if_neg hv] at hsum ⊢
    omega

private theorem step_cleared (hstep : Step pair wrapped b b') (hb : b.Orderly pair) :
    ∀ v, b'.isLiquidated v = true → b'.toBeReplaced v = 0 := by
  intro u hu
  cases hstep with
  | openIssue | closeIssue | mint | releaseRedeem | settleRedeem | liquidationRedeem
  | releaseReplace | settleReplace => exact hb.cleared u hu
  | openRedeem h v x hactive hle =>
    have hz := hb.cleared u hu
    simp only [Counters.setToBeReplaced, Function.update_apply]
    split
    · rename_i huv
      subst huv
      omega
    · exact hz
  | selfRedeem v x hactive hle =>
    have hz := hb.cleared u hu
    simp only [Counters.setToBeReplaced, Function.update_apply]
    split
    · rename_i huv
      subst huv
      omega
    · exact hz
  | setToBeReplaced v x hle =>
    have hz := hb.cleared u hu
    simp only [Counters.setToBeReplaced, Function.update_apply]
    split
    · rename_i huv
      subst huv
      rcases hle with hle | ⟨hactive, -⟩
      · omega
      · exact absurd (hactive.symm.trans hu) Bool.false_ne_true
    · exact hz
  | openReplace h v w x hold hnew hreplaced hle =>
    have hz := hb.cleared u hu
    simp only [Counters.setToBeReplaced, Counters.addToBeRedeemed, Counters.addToBeIssued,
      Function.update_apply]
    split
    · rename_i huv
      subst huv
      omega
    · exact hz
  | liquidate v hactive hreplaced hmax =>
    rcases eq_or_ne u v with rfl | huv
    · exact hreplaced
    · change Function.update b.isLiquidated v true u = true at hu
      rw [Function.update_of_ne huv] at hu
      exact hb.cleared u hu

private theorem step_counted (hstep : Step pair wrapped b b') (hb : b.Orderly pair) :
    ∀ v, b'.redeemDue v ≤ b'.toBeRedeemed (.inl v) := by
  intro u
  have hu := hb.counted u
  cases hstep with
  | openIssue | closeIssue | mint | selfRedeem | liquidationRedeem | setToBeReplaced => exact hu
  | openRedeem h v x hactive hle =>
    have hd : due Obligation.owes (Function.update b.redeems h (some ⟨v, x⟩)) u ≤ _ :=
      due_open_le u
    simp only [redeemDue, Obligation.owes, Counters.setToBeReplaced,
      Counters.addToBeRedeemed_inl, eq_comm (a := u)] at hu hd ⊢
    omega
  | releaseRedeem h v x hopen hle =>
    have hd := due_close Obligation.owes hopen u
    simp only [redeemDue, Obligation.owes, Counters.subToBeRedeemed_inl, eq_comm (a := u)]
      at hu hd ⊢
    omega
  | settleRedeem h v x hopen hle hissued =>
    have hd := due_close Obligation.owes hopen u
    simp only [redeemDue, Obligation.owes, Counters.subIssued, Counters.subToBeRedeemed_inl,
      eq_comm (a := u)] at hu hd ⊢
    omega
  | openReplace h v w x hold hnew hreplaced hle =>
    have hd : due Handover.owesOld (Function.update b.replaces h (some ⟨v, w, x⟩)) u ≤ _ :=
      due_open_le u
    simp only [redeemDue, Handover.owesOld, Counters.addToBeIssued,
      Counters.addToBeRedeemed_inl, eq_comm (a := u)] at hu hd ⊢
    change _ ≤ b.toBeRedeemed (.inl u) + _
    omega
  | releaseReplace h v w x hopen hold hnew =>
    have hd := due_close Handover.owesOld hopen u
    simp only [redeemDue, Handover.owesOld, Counters.subToBeIssued,
      Counters.subToBeRedeemed_inl, eq_comm (a := u)] at hu hd ⊢
    omega
  | settleReplace h v w x hopen hpair hold hissued hnew hmax =>
    have hd := due_close Handover.owesOld hopen u
    simp only [redeemDue, Handover.owesOld, Counters.subToBeIssued, Counters.addIssued,
      Counters.subIssued, Counters.subToBeRedeemed_inl, eq_comm (a := u)] at hu hd ⊢
    omega
  | liquidate v hactive hreplaced hmax =>
    simpa only [redeemDue, Counters.liquidate_toBeRedeemed_inl] using hu

private theorem step_pooled (hstep : Step pair wrapped b b') (hb : b.Orderly pair) :
    ∀ p, pooledToBeRedeemed pair b'.toCounters p ≤ b'.toBeRedeemed (.inr p) := by
  intro p
  have hp := hb.pooled p
  cases hstep with
  | openIssue | closeIssue | mint | selfRedeem | liquidationRedeem | setToBeReplaced => exact hp
  | openRedeem h v x hactive hle =>
    have ha := pooledToBeRedeemed_add pair (x := x) b.toCounters hactive p
    simp only [Counters.setToBeReplaced, Counters.addToBeRedeemed_inr]
    exact ha.trans_le hp
  | releaseRedeem h v x hopen hle =>
    have ha := pooledToBeRedeemed_sub pair b.toCounters hle p
    simp only [Counters.subToBeRedeemed_inr]
    omega
  | settleRedeem h v x hopen hle hissued =>
    have ha := pooledToBeRedeemed_sub pair b.toCounters hle p
    simp only [Counters.subIssued, Counters.subToBeRedeemed_inr]
    change pooledToBeRedeemed pair (b.subToBeRedeemed pair v x) p ≤ _
    omega
  | openReplace h v w x hold hnew hreplaced hle =>
    have ha := pooledToBeRedeemed_add pair (x := x) b.toCounters hold p
    simp only [Counters.setToBeReplaced, Counters.addToBeIssued, Counters.addToBeRedeemed_inr]
    exact ha.trans_le hp
  | releaseReplace h v w x hopen hold hnew =>
    have ha := pooledToBeRedeemed_sub pair b.toCounters hold p
    simp only [Counters.subToBeIssued, Counters.subToBeRedeemed_inr]
    change pooledToBeRedeemed pair (b.subToBeRedeemed pair v x) p ≤ _
    omega
  | settleReplace h v w x hopen hpair hold hissued hnew hmax =>
    have ha := pooledToBeRedeemed_sub pair b.toCounters hold p
    simp only [Counters.subToBeIssued, Counters.addIssued, Counters.subIssued,
      Counters.subToBeRedeemed_inr]
    change pooledToBeRedeemed pair (b.subToBeRedeemed pair v x) p ≤ _
    omega
  | liquidate v hactive hreplaced hmax =>
    have hj : pooledToBeRedeemed pair (b.toCounters.liquidate pair v) p =
        pooledToBeRedeemed pair b.toCounters p +
          if pair v = p then b.toBeRedeemed (.inl v) else 0 := by
      unfold pooledToBeRedeemed
      simp only [Counters.liquidate_toBeRedeemed_inl]
      exact pooled_join hactive p
    simp only [Counters.liquidate_toBeRedeemed_inr]
    omega

private theorem step_redeemable (hstep : Step pair wrapped b b') (hb : b.Orderly pair) :
    ∀ v, b'.isLiquidated v = false → b'.toBeRedeemed (.inl v) ≤ b'.issued (.inl v) := by
  intro u hu
  cases hstep with
  | openIssue | closeIssue | setToBeReplaced => exact hb.redeemable u hu
  | mint v x hmax =>
    have := hb.redeemable u hu
    simp only [Counters.addIssued, bump]
    omega
  | openRedeem h v x hactive hle =>
    have := hb.redeemable u hu
    simp only [Counters.setToBeReplaced, Counters.addToBeRedeemed_inl]
    change _ ≤ b.issued (.inl u)
    split
    · rename_i huv
      subst huv
      omega
    · omega
  | releaseRedeem h v x hopen hle =>
    have := hb.redeemable u hu
    simp only [Counters.subToBeRedeemed_inl]
    change _ ≤ b.issued (.inl u)
    omega
  | settleRedeem h v x hopen hle hissued =>
    have := hb.redeemable u hu
    change (b.subToBeRedeemed pair v x).toBeRedeemed (.inl u) ≤ drop b.issued _ x (.inl u)
    change b.isLiquidated u = false at hu
    rcases eq_or_ne u v with rfl | huv
    · simp only [Counters.subToBeRedeemed_inl, Counters.drop_home_inl, hu, and_self, if_true]
      omega
    · simp only [Counters.subToBeRedeemed_inl, Counters.drop_home_inl, huv, and_false, if_false]
      omega
  | selfRedeem v x hactive hle =>
    have := hb.redeemable u hu
    simp only [Counters.setToBeReplaced, Counters.subIssued, drop, Sum.inl.injEq]
    split
    · rename_i huv
      subst huv
      omega
    · exact this
  | liquidationRedeem p x hle =>
    have := hb.redeemable u hu
    simpa only [Counters.subIssued, drop, reduceCtorEq, if_false, Nat.sub_zero] using this
  | openReplace h v w x hold hnew hreplaced hle =>
    have := hb.redeemable u hu
    simp only [Counters.setToBeReplaced, Counters.addToBeIssued, Counters.addToBeRedeemed_inl]
    change _ ≤ b.issued (.inl u)
    split
    · rename_i huv
      subst huv
      omega
    · omega
  | releaseReplace h v w x hopen hold hnew =>
    have := hb.redeemable u hu
    simp only [Counters.subToBeIssued, Counters.subToBeRedeemed_inl]
    change _ ≤ b.issued (.inl u)
    omega
  | settleReplace h v w x hopen hpair hold hissued hnew hmax =>
    have := hb.redeemable u hu
    change (b.subToBeRedeemed pair v x).toBeRedeemed (.inl u) ≤
      bump (drop b.issued (b.home pair v) x) (b.home pair w) x (.inl u)
    change b.isLiquidated u = false at hu
    rcases eq_or_ne u v with rfl | huv
    · simp only [Counters.subToBeRedeemed_inl, Counters.bump_home_inl, Counters.drop_home_inl,
        hu, and_self, if_true]
      omega
    · simp only [Counters.subToBeRedeemed_inl, Counters.bump_home_inl, Counters.drop_home_inl,
        huv, and_false, if_false]
      omega
  | liquidate v hactive hreplaced hmax =>
    change Function.update b.isLiquidated v true u = false at hu
    have huv : u ≠ v := by
      rintro rfl
      rw [Function.update_self] at hu
      exact Bool.false_ne_true hu.symm
    rw [Function.update_of_ne huv] at hu
    have := hb.redeemable u hu
    simpa only [Counters.liquidate_toBeRedeemed_inl, Counters.liquidate_issued_inl, huv,
      if_false] using this

private theorem step_pool_redeemable (hstep : Step pair wrapped b b') (hb : b.Orderly pair) :
    ∀ p, b'.toBeRedeemed (.inr p) ≤ b'.issued (.inr p) := by
  intro p
  have hp := hb.pool_redeemable p
  cases hstep with
  | openIssue | closeIssue | setToBeReplaced => exact hp
  | mint v x hmax =>
    simp only [Counters.addIssued, bump]
    omega
  | openRedeem h v x hactive hle =>
    simp only [Counters.setToBeReplaced, Counters.addToBeRedeemed_inr]
    exact hp
  | releaseRedeem h v x hopen hle =>
    simp only [Counters.subToBeRedeemed_inr]
    change _ ≤ b.issued (.inr p)
    omega
  | settleRedeem h v x hopen hle hissued =>
    change (b.subToBeRedeemed pair v x).toBeRedeemed (.inr p) ≤ drop b.issued _ x (.inr p)
    simp only [Counters.subToBeRedeemed_inr, Counters.drop_home_inr]
    omega
  | selfRedeem v x hactive hle =>
    simpa only [Counters.setToBeReplaced, Counters.subIssued, drop, reduceCtorEq, if_false,
      Nat.sub_zero] using hp
  | liquidationRedeem q x hle =>
    simp only [Counters.subIssued, drop, Sum.inr.injEq]
    split
    · rename_i hpq
      subst hpq
      omega
    · exact hp
  | openReplace h v w x hold hnew hreplaced hle =>
    simp only [Counters.setToBeReplaced, Counters.addToBeIssued, Counters.addToBeRedeemed_inr]
    exact hp
  | releaseReplace h v w x hopen hold hnew =>
    simp only [Counters.subToBeIssued, Counters.subToBeRedeemed_inr]
    change _ ≤ b.issued (.inr p)
    omega
  | settleReplace h v w x hopen hpair hold hissued hnew hmax =>
    change (b.subToBeRedeemed pair v x).toBeRedeemed (.inr p) ≤
      bump (drop b.issued (b.home pair v) x) (b.home pair w) x (.inr p)
    simp only [Counters.subToBeRedeemed_inr, Counters.bump_home_inr, Counters.drop_home_inr]
    omega
  | liquidate v hactive hreplaced hmax =>
    have := hb.redeemable v hactive
    simp only [Counters.liquidate_toBeRedeemed_inr, Counters.liquidate_issued_inr]
    split <;> omega

private theorem step_bounded (hstep : Step pair wrapped b b') (hb : b.Orderly pair) :
    ∀ k, b'.issued k ≤ maxBalance := by
  intro k
  have hk := hb.bounded k
  cases hstep with
  | openIssue | closeIssue | setToBeReplaced | openRedeem | releaseRedeem | openReplace
  | releaseReplace => exact hk
  | mint v x hmax =>
    simp only [Counters.addIssued, bump]
    split
    · rename_i hkv
      rwa [hkv]
    · exact hk
  | settleRedeem | selfRedeem | liquidationRedeem => exact (Nat.sub_le _ _).trans hk
  | settleReplace h v w x hopen hpair hold hissued hnew hmax =>
    change bump (drop b.issued (b.home pair v) x) (b.home pair w) x k ≤ maxBalance
    rw [bump_eq_update, Function.update_apply]
    split
    · exact hmax
    · exact (Nat.sub_le _ _).trans hk
  | liquidate v hactive hreplaced hmax =>
    cases k with
    | inl u =>
      simp only [Counters.liquidate_issued_inl]
      split
      · exact Nat.zero_le _
      · exact hk
    | inr p =>
      simp only [Counters.liquidate_issued_inr]
      split
      · rename_i hp
        rwa [← hp]
      · exact hk

/-- Every change of the books keeps them orderly. -/
theorem Step.orderly (hstep : Step pair wrapped b b') (hb : b.Orderly pair) :
    b'.Orderly pair where
  cleared := step_cleared hstep hb
  counted := step_counted hstep hb
  pooled := step_pooled hstep hb
  redeemable := step_redeemable hstep hb
  pool_redeemable := step_pool_redeemable hstep hb
  bounded := step_bounded hstep hb

omit [DecidableEq C] [DecidableEq H] in
/-- Handing tokens over keeps the books orderly. -/
theorem TakeOver.orderly (h : TakeOver pair wrapped b v w x b') (hb : b.Orderly pair) :
    b'.Orderly pair := by
  obtain ⟨hold, hnew, hne, -, hcovered, hmax, rfl⟩ := h
  constructor
  case cleared => exact hb.cleared
  case counted => exact hb.counted
  case pooled => exact hb.pooled
  case redeemable =>
    intro u hu
    have := hb.redeemable u hu
    change b.toBeRedeemed (.inl u) ≤ bump (drop b.issued (.inl v) x) (.inl w) x (.inl u)
    rcases eq_or_ne u v with rfl | huv
    · simp only [bump, drop, if_true]
      omega
    · simp only [bump, drop, Sum.inl.injEq, huv, if_false]
      omega
  case pool_redeemable =>
    intro p
    simpa [bump, drop, Counters.addIssued, Counters.subIssued] using hb.pool_redeemable p
  case bounded =>
    intro k
    have hk := hb.bounded k
    change bump (drop b.issued (.inl v) x) (.inl w) x k ≤ maxBalance
    rw [bump_eq_update, Function.update_apply]
    split
    · have hd : drop b.issued (.inl v) x (.inl w) ≤ b.issued (.inl w) := Nat.sub_le _ _
      omega
    · exact (Nat.sub_le _ _).trans hk

omit [DecidableEq C] [DecidableEq H] in
/-- A recovery keeps the books orderly. -/
theorem Recovery.orderly (h : Recovery b v b') (hb : b.Orderly pair) : b'.Orderly pair := by
  obtain ⟨hliquidated, hredeemed, rfl⟩ := h
  constructor
  case cleared =>
    intro u hu
    change Function.update b.isLiquidated v false u = true at hu
    rcases eq_or_ne u v with rfl | huv
    · exact hb.cleared u hliquidated
    · rw [Function.update_of_ne huv] at hu
      exact hb.cleared u hu
  case counted => exact hb.counted
  case pooled =>
    intro p
    have hl : pooledToBeRedeemed pair (b.toCounters.recover v) p + _ =
      pooledToBeRedeemed pair b.toCounters p := pooled_leave hliquidated p
    have hp := hb.pooled p
    change pooledToBeRedeemed pair (b.toCounters.recover v) p ≤ b.toBeRedeemed (.inr p)
    omega
  case redeemable =>
    intro u hu
    change Function.update b.isLiquidated v false u = false at hu
    change b.toBeRedeemed (.inl u) ≤ b.issued (.inl u)
    rcases eq_or_ne u v with rfl | huv
    · omega
    · rw [Function.update_of_ne huv] at hu
      exact hb.redeemable u hu
  case pool_redeemable => exact hb.pool_redeemable
  case bounded => exact hb.bounded

end Orderly

/-! ## Tokens to be replaced can be replaced -/

/-- What an active vault has to redeem and asks to be replaced, it has issued. -/
def Replaceable (b : Books V P C H) : Prop :=
  ∀ v, b.isLiquidated v = false →
    b.toBeRedeemed (.inl v) + b.toBeReplaced v ≤ b.issued (.inl v)

/-- Every step keeps what is to be replaced replaceable. -/
theorem Step.replaceable (hstep : Step pair wrapped b b') (hb : b.Replaceable) :
    b'.Replaceable := by
  intro u hu
  cases hstep with
  | openIssue | closeIssue | liquidationRedeem => exact hb u hu
  | mint v x hmax =>
    have := hb u hu
    simp only [Counters.addIssued, bump]
    omega
  | openRedeem h v x hactive hle =>
    have := hb u hu
    simp only [Counters.setToBeReplaced, Counters.addToBeRedeemed_inl, Function.update_apply]
    change _ ≤ b.issued (.inl u)
    split
    · rename_i huv
      subst huv
      omega
    · exact this
  | releaseRedeem h v x hopen hle =>
    have := hb u hu
    simp only [Counters.subToBeRedeemed_inl]
    change _ + b.toBeReplaced u ≤ b.issued (.inl u)
    omega
  | settleRedeem h v x hopen hle hissued =>
    have := hb u hu
    change (b.subToBeRedeemed pair v x).toBeRedeemed (.inl u) + b.toBeReplaced u ≤
      drop b.issued _ x (.inl u)
    change b.isLiquidated u = false at hu
    rcases eq_or_ne u v with rfl | huv
    · simp only [Counters.subToBeRedeemed_inl, Counters.drop_home_inl, hu, and_self, if_true]
      omega
    · simpa only [Counters.subToBeRedeemed_inl, Counters.drop_home_inl, huv, and_false, if_false,
        Nat.sub_zero] using this
  | selfRedeem v x hactive hle =>
    have := hb u hu
    simp only [Counters.setToBeReplaced, Counters.subIssued, drop, Sum.inl.injEq,
      Function.update_apply]
    split
    · rename_i huv
      subst huv
      omega
    · exact this
  | setToBeReplaced v x hle =>
    have := hb u hu
    simp only [Counters.setToBeReplaced, Function.update_apply]
    split
    · rename_i huv
      subst huv
      omega
    · exact this
  | openReplace h v w x hold hnew hreplaced hle =>
    have := hb u hu
    simp only [Counters.setToBeReplaced, Counters.addToBeIssued, Counters.addToBeRedeemed_inl]
    change _ + Function.update b.toBeReplaced v _ u ≤ b.issued (.inl u)
    rw [Function.update_apply]
    split
    · rename_i huv
      subst huv
      omega
    · exact this
  | releaseReplace h v w x hopen hold hnew =>
    have := hb u hu
    simp only [Counters.subToBeIssued, Counters.subToBeRedeemed_inl]
    change _ + b.toBeReplaced u ≤ b.issued (.inl u)
    omega
  | settleReplace h v w x hopen hpair hold hissued hnew hmax =>
    have := hb u hu
    change (b.subToBeRedeemed pair v x).toBeRedeemed (.inl u) + b.toBeReplaced u ≤
      bump (drop b.issued (b.home pair v) x) (b.home pair w) x (.inl u)
    change b.isLiquidated u = false at hu
    rcases eq_or_ne u v with rfl | huv
    · simp only [Counters.subToBeRedeemed_inl, Counters.bump_home_inl, Counters.drop_home_inl,
        hu, and_self, if_true]
      omega
    · simp only [Counters.subToBeRedeemed_inl, Counters.bump_home_inl, Counters.drop_home_inl,
        huv, and_false, if_false]
      omega
  | liquidate v hactive hreplaced hmax =>
    change Function.update b.isLiquidated v true u = false at hu
    have huv : u ≠ v := by
      rintro rfl
      rw [Function.update_self] at hu
      exact Bool.false_ne_true hu.symm
    rw [Function.update_of_ne huv] at hu
    simp only [Counters.liquidate_toBeRedeemed_inl, Counters.liquidate_issued_inl, huv, if_false]
    exact hb u hu

omit [DecidableEq C] [DecidableEq H] in
/-- A take-over leaves tokens to replace only if there are enough that nobody else has been
promised. -/
theorem TakeOver.replaceable (h : TakeOver pair wrapped b v w x b') (hb : b.Replaceable)
    (hx : b.toBeRedeemed (.inl v) + b.toBeReplaced v + x ≤ b.issued (.inl v)) :
    b'.Replaceable := by
  obtain ⟨hold, hnew, hne, -, hcovered, hmax, rfl⟩ := h
  intro u hu
  have := hb u hu
  change b.toBeRedeemed (.inl u) + b.toBeReplaced u ≤
    bump (drop b.issued (.inl v) x) (.inl w) x (.inl u)
  rcases eq_or_ne u v with rfl | huv
  · simp only [bump, drop, if_true]
    omega
  · simp only [bump, drop, Sum.inl.injEq, huv, if_false]
    omega

omit [DecidableEq C] [DecidableEq H] in
/-- A recovery keeps what is to be replaced replaceable. -/
theorem Recovery.replaceable [Fintype V] [Fintype H] (h : Recovery b v b') (ho : b.Orderly pair)
    (hb : b.Replaceable) : b'.Replaceable := by
  obtain ⟨hliquidated, hredeemed, rfl⟩ := h
  intro u hu
  change Function.update b.isLiquidated v false u = false at hu
  change b.toBeRedeemed (.inl u) + b.toBeReplaced u ≤ b.issued (.inl u)
  rcases eq_or_ne u v with rfl | huv
  · have := ho.cleared u hliquidated
    omega
  · rw [Function.update_of_ne huv] at hu
    exact hb u hu

/-! ## The open issues are counted -/

section Covered

variable [Fintype V] [Fintype H]

/-- What a vault has to issue for open requests, those of users and those of old vaults. -/
def issueDue (b : Books V P C H) (v : V) : ℕ :=
  due Obligation.owes b.issues v + due Handover.owesNew b.replaces v

/-- Counters of vaults and pools cover what is due of each vault, where it is counted. -/
structure Covers (pair : V → P) (liquidated : V → Bool) (d : V → ℕ) (t : V ⊕ P → ℕ) :
    Prop where
  active : ∀ v, liquidated v = false → d v ≤ t (.inl v)
  pooled : ∀ p, Core.pooled liquidated pair d p ≤ t (.inr p)

variable {c : Counters V P} {d d' : V → ℕ} {t : V ⊕ P → ℕ}

private theorem Covers.open (h : Covers pair c.isLiquidated d t) (hv : c.isLiquidated v = false)
    (hd : ∀ u, d' u ≤ d u + if v = u then x else 0) :
    Covers pair c.isLiquidated d' (bump t (.inl v) x) where
  active u hu := by
    have := h.active u hu
    have := hd u
    simp only [bump, Sum.inl.injEq, eq_comm (a := u)]
    omega
  pooled p := by
    refine (pooled_mono (fun u hu => ?_) p).trans (le_trans (h.pooled p) (Nat.le_add_right _ _))
    have huv : v ≠ u := by
      rintro rfl
      exact Bool.false_ne_true (hv.symm.trans hu)
    simpa only [huv, if_false, add_zero] using hd u

private theorem Covers.close (h : Covers pair c.isLiquidated d t)
    (hd : ∀ u, d' u + (if v = u then x else 0) = d u) :
    Covers pair c.isLiquidated d' (drop t (c.home pair v) x) where
  active u hu := by
    have := h.active u hu
    have := hd u
    rcases eq_or_ne u v with rfl | huv
    · simp only [Counters.drop_home_inl, hu, and_self, if_true] at *
      omega
    · simp only [Counters.drop_home_inl, huv, and_false, if_false] at *
      omega
  pooled p := by
    have hp := h.pooled p
    have hoff : Core.pooled c.isLiquidated pair d' p + _ = Core.pooled c.isLiquidated pair d p + _ :=
      pooled_of_eq_off (v := v) (fun u hu => by
        have := hd u
        simpa only [hu.symm, if_false, add_zero] using this) p
    have := hd v
    simp only [Counters.drop_home_inr, if_true] at this ⊢
    by_cases hv : c.isLiquidated v = true ∧ pair v = p
    · simp only [if_pos hv] at hoff ⊢
      omega
    · simp only [if_neg hv] at hoff ⊢
      omega

variable (pair) in
/-- The tokens to be issued are at least those of the open requests, with the vault or, if it
is liquidated, with its pool. -/
def Covered (b : Books V P C H) : Prop := Covers pair b.isLiquidated b.issueDue b.toBeIssued

/-- Every step keeps what is to be issued covered. -/
theorem Step.covered (hstep : Step pair wrapped b b') (hb : b.Covered pair) : b'.Covered pair := by
  cases hstep with
  | mint | openRedeem | releaseRedeem | settleRedeem | selfRedeem | liquidationRedeem
  | setToBeReplaced => exact ⟨hb.active, hb.pooled⟩
  | openIssue h v x hactive =>
    change Covers pair b.isLiquidated _ (bump b.toBeIssued (.inl v) x)
    refine hb.open hactive fun u => ?_
    have hd : due Obligation.owes (Function.update b.issues h (some ⟨v, x⟩)) u ≤ _ :=
      due_open_le u
    simp only [issueDue, Obligation.owes] at hd ⊢
    omega
  | closeIssue h v x hopen hle =>
    change Covers pair b.isLiquidated _ (drop b.toBeIssued (b.home pair v) x)
    refine hb.close fun u => ?_
    have hd := due_close Obligation.owes hopen u
    simp only [issueDue, Obligation.owes] at hd ⊢
    omega
  | openReplace h v w x hold hnew hreplaced hle =>
    change Covers pair b.isLiquidated _ (bump b.toBeIssued (.inl w) x)
    refine hb.open hnew fun u => ?_
    have hd : due Handover.owesNew (Function.update b.replaces h (some ⟨v, w, x⟩)) u ≤ _ :=
      due_open_le u
    simp only [issueDue, Handover.owesNew] at hd ⊢
    omega
  | releaseReplace h v w x hopen hold hnew =>
    change Covers pair b.isLiquidated _ (drop b.toBeIssued (b.home pair w) x)
    refine hb.close fun u => ?_
    have hd := due_close Handover.owesNew hopen u
    simp only [issueDue, Handover.owesNew] at hd ⊢
    omega
  | settleReplace h v w x hopen hpair hold hissued hnew hmax =>
    change Covers pair b.isLiquidated _ (drop b.toBeIssued (b.home pair w) x)
    refine hb.close fun u => ?_
    have hd := due_close Handover.owesNew hopen u
    simp only [issueDue, Handover.owesNew] at hd ⊢
    omega
  | liquidate v hactive hreplaced hmax =>
    constructor
    · intro u hu
      change Function.update b.isLiquidated v true u = false at hu
      have huv : u ≠ v := by
        rintro rfl
        rw [Function.update_self] at hu
        exact Bool.false_ne_true hu.symm
      rw [Function.update_of_ne huv] at hu
      simp only [Counters.liquidate_toBeIssued_inl, huv, if_false]
      exact hb.active u hu
    · intro p
      have hp := hb.pooled p
      have hv := hb.active v hactive
      have hj : Core.pooled (Function.update b.isLiquidated v true) pair b.issueDue p = _ :=
        pooled_join hactive p
      simp only [Counters.liquidate_toBeIssued_inr]
      change Core.pooled (Function.update b.isLiquidated v true) pair b.issueDue p ≤ _
      split at hj <;> simp only [*, if_true, if_false] at * <;> omega

omit [DecidableEq C] [DecidableEq H] in
/-- Handing tokens over keeps what is to be issued covered. -/
theorem TakeOver.covered (h : TakeOver pair wrapped b v w x b') (hb : b.Covered pair) :
    b'.Covered pair := by
  obtain ⟨-, -, -, -, -, -, rfl⟩ := h
  exact ⟨hb.active, hb.pooled⟩

omit [DecidableEq C] [DecidableEq H] in
/-- A recovered vault counts its tokens to be issued from nothing: nothing may be due. -/
theorem Recovery.covered (h : Recovery b v b') (hb : b.Covered pair) (hdue : b.issueDue v = 0) :
    b'.Covered pair := by
  obtain ⟨hliquidated, hredeemed, rfl⟩ := h
  constructor
  · intro u hu
    change Function.update b.isLiquidated v false u = false at hu
    change b.issueDue u ≤ b.toBeIssued (.inl u)
    rcases eq_or_ne u v with rfl | huv
    · omega
    · rw [Function.update_of_ne huv] at hu
      exact hb.active u hu
  · intro p
    have hl : Core.pooled (Function.update b.isLiquidated v false) pair b.issueDue p + _ = _ :=
      pooled_leave hliquidated p
    have hp := hb.pooled p
    change Core.pooled (Function.update b.isLiquidated v false) pair b.issueDue p ≤
      b.toBeIssued (.inr p)
    omega

end Covered

end Interbtc.Books
