import Interbtc.Staking.Conservation
import Interbtc.Staking.Ranges

/-!
# Leaving a refunded pool

A forced refund leaves the nominators' stake under an older nonce. Withdrawing it
is allowed up to the stake in the *current* pool, so a nominator who holds nothing
there cannot leave. Where everybody can, the old pool is drained to what
truncating each stake leaves.
-/

namespace Interbtc.Staking

open Core FixedPointNumber LawfulFixedPoint RangedFixedPoint
open Core.FixedI128 (whole)

variable {AccountId CurrencyId F : Type} [DecidableEq AccountId] [DecidableEq CurrencyId]
  [FixedPointNumber F] [LawfulFixedPoint F] {native : CurrencyId}
  {v : VaultId AccountId CurrencyId} {n m : AccountId} {s s' : Staking AccountId CurrencyId F}
  {i : ℕ} {amount : AccountId → {a : F // 0 ≤ a}} {ns : List AccountId}

/-- Each of the listed nominators withdraws its amount from the pool of nonce `i`. -/
def exits (v : VaultId AccountId CurrencyId) (i : ℕ) (amount : AccountId → {a : F // 0 ≤ a})
    (ns : List AccountId) : List (Op AccountId CurrencyId F) :=
  ns.map fun n => .withdrawStake v n (amount n) (some i)

omit [DecidableEq AccountId] [DecidableEq CurrencyId] [LawfulFixedPoint F] in
@[simp] private theorem exits_nil : exits v i amount [] = [] := rfl

omit [DecidableEq AccountId] [DecidableEq CurrencyId] [LawfulFixedPoint F] in
@[simp] private theorem exits_cons : exits v i amount (n :: ns) =
    .withdrawStake v n (amount n) (some i) :: exits v i amount ns := rfl

/-- The call of the operation succeeds. -/
def Op.Succeeds (native : CurrencyId) (s : Staking AccountId CurrencyId F)
    (op : Op AccountId CurrencyId F) : Prop :=
  (op.call native).succeeds s = true

/-- The figures of a withdrawal that names a nonce fit. -/
def Op.InRange [RangedFixedPoint F] (native : CurrencyId) (s : Staking AccountId CurrencyId F) :
    Op AccountId CurrencyId F → Prop
  | .withdrawStake v n amount (some i) => s.WithdrawsInRange native v i n amount.1
  | _ => True

/-! ## What an exit leaves alone -/

/-- Nothing that decides the stake of `m` differs between the pools. -/
private def SameHolding (p p' : Pool AccountId CurrencyId F) (m : AccountId) : Prop :=
  p'.ledger.perToken = p.ledger.perToken ∧ p'.ledger.stake m = p.ledger.stake m ∧
    p'.ledger.tally m = p.ledger.tally m

omit [DecidableEq AccountId] [DecidableEq CurrencyId] in
private theorem SameHolding.settled {p p' : Pool AccountId CurrencyId F}
    (h : SameHolding p p' m) :
    p'.ledger.settled (rounding F) m = p.ledger.settled (rounding F) m := by
  rw [StakeLedger.settled, StakeLedger.pending, h.1, h.2.1, h.2.2]
  rfl

omit [DecidableEq AccountId] [DecidableEq CurrencyId] in
private theorem SameHolding.computePreciseStake {p p' : Pool AccountId CurrencyId F}
    (h : SameHolding p p' m) : p'.computePreciseStake m = p.computePreciseStake m := by
  have hper : p'.slashPerToken = p.slashPerToken := toRat_inj.mp h.1
  have hstake : p'.stake m = p.stake m := toRat_inj.mp h.2.1
  have htally : p'.slashTally m = p.slashTally m := toRat_inj.mp h.2.2
  rw [Pool.computePreciseStake, Pool.computePreciseStake, hper, hstake, htally]

/-- A withdrawal changes the entries of its nominator only, in every pool. -/
private theorem step_withdrawStake (native : CurrencyId) (amount : {a : F // 0 ≤ a})
    (index : Option ℕ) :
    (step native s (.withdrawStake v n amount index)).nonce = s.nonce ∧
      ∀ w j m, m ≠ n →
        SameHolding (s.pool w j)
          ((step native s (.withdrawStake v n amount index)).pool w j) m := by
  have hset : ∀ (t : Staking AccountId CurrencyId F) w k q,
      (∀ m, m ≠ n → SameHolding (t.pool w k) q m) →
      ∀ w' j m, m ≠ n → SameHolding (t.pool w' j) ((t.setPool w k q).pool w' j) m := by
    intro t w k q hq w' j m hm
    rw [setPool_pool]
    split
    · rename_i h
      rw [h.1, h.2]
      exact hq m hm
    · exact ⟨rfl, rfl, rfl⟩
  unfold step
  rcases (Op.call native (.withdrawStake v n amount index)).commit_cases s with ⟨_, h⟩ | ⟨-, h⟩
  · generalize (Op.call native (.withdrawStake v n amount index)).commit s = s' at h ⊢
    obtain ⟨q, hq, hcase⟩ := run_withdrawStake h
    have happly := hset s v (s.nonce v) q fun m hm => by
      rw [SameHolding, hq.1]
      simp [StakeLedger.apply, hm]
    rcases hcase with ⟨-, rfl⟩ | ⟨-, -, p, r, rfl, rfl, hl, -⟩
    · exact ⟨rfl, happly⟩
    · refine ⟨rfl, fun w j m hm => ?_⟩
      have hremove := hset (s.setPool v (s.nonce v) q) v (index.getD (s.nonce v)) r
        (fun m hm => by
          rw [SameHolding, hl]
          simp [StakeLedger.withdraw, hm]) w j m hm
      obtain ⟨h₁, h₂, h₃⟩ := happly w j m hm
      obtain ⟨h₁', h₂', h₃'⟩ := hremove
      exact ⟨h₁'.trans h₁, h₂'.trans h₂, h₃'.trans h₃⟩
  · rw [h]
    exact ⟨rfl, fun _ _ _ _ => ⟨rfl, rfl, rfl⟩⟩

private theorem run_exits (native : CurrencyId) (ns : List AccountId) :
    (run (step native) s (exits v i amount ns)).nonce = s.nonce ∧
      ∀ w j m, m ∉ ns →
        SameHolding (s.pool w j) ((run (step native) s (exits v i amount ns)).pool w j) m := by
  induction ns generalizing s with
  | nil =>
    rw [exits_nil, run_nil]
    exact ⟨rfl, fun _ _ _ _ => ⟨rfl, rfl, rfl⟩⟩
  | cons n ns ih =>
    obtain ⟨hnonce, hsame⟩ :=
      step_withdrawStake (s := s) (v := v) (n := n) native (amount n) (some i)
    obtain ⟨hnonce', hsame'⟩ := ih (s := step native s (.withdrawStake v n (amount n) (some i)))
    rw [exits_cons, run_cons]
    refine ⟨hnonce'.trans hnonce, fun w j m hm => ?_⟩
    obtain ⟨hn, hns⟩ := not_or.mp (List.mem_cons.not.mp hm)
    obtain ⟨h₁, h₂, h₃⟩ := hsame w j m hn
    obtain ⟨h₁', h₂', h₃'⟩ := hsame' w j m hns
    exact ⟨h₁'.trans h₁, h₂'.trans h₂, h₃'.trans h₃⟩

/-! ## When everybody can leave -/

private theorem holdsCurrently_of_step {a : F} (hm : m ≠ n) :
    (step native s (.withdrawStake v n (amount n) (some i))).HoldsCurrently v m a ↔
      s.HoldsCurrently v m a := by
  obtain ⟨hnonce, hsame⟩ := step_withdrawStake (s := s) (v := v) (n := n) native (amount n) (some i)
  rw [HoldsCurrently, HoldsCurrently, hnonce, computePreciseStakeAtIndex,
    (hsame v (s.nonce v) m hm).computePreciseStake]
  rfl

variable [RangedFixedPoint F]

/-- The exits of different nominators do not disturb each other's stake in the current pool. -/
private theorem exits_succeed_iff (hi : i ≠ s.nonce v) (hns : ns.Nodup) :
    Meets (step native) (Op.Succeeds native) s (exits v i amount ns) ↔
      Meets (step native) (Op.InRange native) s (exits v i amount ns) ∧
        ∀ n ∈ ns, (amount n).1 = 0 ∨ s.HoldsCurrently v n (amount n).1 := by
  induction ns generalizing s with
  | nil => simp [exits, Meets]
  | cons n ns ih =>
    obtain ⟨hn, hns⟩ := List.nodup_cons.mp hns
    obtain ⟨hnonce, -⟩ := step_withdrawStake (s := s) (v := v) (n := n) native (amount n) (some i)
    have hhead : Op.Succeeds native s (.withdrawStake v n (amount n) (some i)) ↔
        s.WithdrawsInRange native v i n (amount n).1 ∧
          ((amount n).1 = 0 ∨ s.HoldsCurrently v n (amount n).1) :=
      withdrawStake_succeeds_iff native hi (amount n).2
    have htail := ih (s := step native s (.withdrawStake v n (amount n) (some i)))
      (by rwa [hnonce]) hns
    have hholds : (∀ m ∈ ns, (amount m).1 = 0 ∨
        (step native s (.withdrawStake v n (amount n) (some i))).HoldsCurrently v m (amount m).1) ↔
        ∀ m ∈ ns, (amount m).1 = 0 ∨ s.HoldsCurrently v m (amount m).1 := by
      refine forall₂_congr fun m hm => or_congr_right ?_
      exact holdsCurrently_of_step fun h => hn (h ▸ hm)
    rw [hholds] at htail
    rw [List.forall_mem_cons]
    rw [exits_cons, Meets, Meets, hhead, htail, and_and_and_comm]
    rfl

/-! ## What is left in the pool -/

variable [Fintype AccountId]

omit [RangedFixedPoint F] in
/-- An exit leaves what its amount leaves of the stake, up to one rounding step. -/
private theorem settled_exit (hi : i ≠ s.nonce v) (hcov : Covered s)
    (hstored : toRat (amount n).1 ≤ (s.pool v i).ledger.stake n)
    (h : Op.Succeeds native s (.withdrawStake v n (amount n) (some i))) :
    |((step native s (.withdrawStake v n (amount n) (some i))).pool v i).ledger.settled
        (rounding F) n - ((s.pool v i).ledger.settled (rounding F) n - toRat (amount n).1)| ≤
      (rounding F).ulp := by
  have hrun := Call.run_eq_ok_commit h
  change (withdrawStake native v n (amount n).1 (some i)).run s = .ok () (step native s _) at hrun
  generalize step native s (.withdrawStake v n (amount n) (some i)) = s' at hrun ⊢
  obtain ⟨q, -, ⟨hzero, rfl⟩ | ⟨-, -, p, r, rfl, rfl, hl, -⟩⟩ := run_withdrawStake hrun
  · rw [setPool_pool, if_neg fun h => hi h.2, hzero, toRat_zero, sub_zero, sub_self, abs_zero]
    exact (rounding F).ulp_nonneg
  · rw [Option.getD_some, setPool_pool, if_neg fun h => hi h.2] at hl
    rw [Option.getD_some, setPool_pool_self, hl]
    have hp := StakeLedger.pending_withdraw_mem (rounding F) (hcov v i).perToken_nonneg
      (toRat_nonneg.mpr (amount n).2) hstored
    have hstake : ((s.pool v i).ledger.withdraw (rounding F) n (toRat (amount n).1)).stake n =
        (s.pool v i).ledger.stake n - toRat (amount n).1 := Function.update_self ..
    rw [StakeLedger.settled, hstake, StakeLedger.settled, abs_le]
    constructor <;> linarith [(rounding F).ulp_nonneg]

omit [RangedFixedPoint F] [Fintype AccountId] in
/-- Exits that take no more than is stored, and than is left after the slash, are sound. -/
private theorem exits_sound (native : CurrencyId) (hns : ns.Nodup)
    (h : ∀ n ∈ ns, toRat (amount n).1 ≤ (s.pool v i).ledger.stake n ∧
      toRat (amount n).1 ≤ (s.pool v i).ledger.settled (rounding F) n) :
    Meets (step native) Op.Sound s (exits v i amount ns) := by
  induction ns generalizing s with
  | nil => trivial
  | cons n ns ih =>
    obtain ⟨hn, hns⟩ := List.nodup_cons.mp hns
    obtain ⟨-, hsame⟩ := step_withdrawStake (s := s) (v := v) (n := n) native (amount n) (some i)
    refine ⟨⟨.inr (.inr (h n List.mem_cons_self)), trivial⟩, ih hns fun m hm => ?_⟩
    have hm' := hsame v i m fun h => hn (h ▸ hm)
    rw [hm'.2.1, hm'.settled]
    exact h m (List.mem_cons_of_mem n hm)

omit [RangedFixedPoint F] in
private theorem settled_exits (hi : i ≠ s.nonce v) (hcov : Covered s) (hns : ns.Nodup)
    (hstored : ∀ n ∈ ns, toRat (amount n).1 ≤ (s.pool v i).ledger.stake n)
    (hsound : Meets (step native) Op.Sound s (exits v i amount ns))
    (h : Meets (step native) (Op.Succeeds native) s (exits v i amount ns)) :
    ∀ n ∈ ns, |((run (step native) s (exits v i amount ns)).pool v i).ledger.settled
        (rounding F) n - ((s.pool v i).ledger.settled (rounding F) n - toRat (amount n).1)| ≤
      (rounding F).ulp := by
  induction ns generalizing s with
  | nil => exact fun _ hm => absurd hm List.not_mem_nil
  | cons n ns ih =>
    obtain ⟨hn, hns⟩ := List.nodup_cons.mp hns
    obtain ⟨hnonce, hsame⟩ :=
      step_withdrawStake (s := s) (v := v) (n := n) native (amount n) (some i)
    have hfirst := settled_exit hi hcov (hstored n List.mem_cons_self) h.1
    have hrest : SameHolding ((step native s (.withdrawStake v n (amount n) (some i))).pool v i)
        ((run (step native) (step native s (.withdrawStake v n (amount n) (some i)))
          (exits v i amount ns)).pool v i) n :=
      (run_exits native ns).2 v i n hn
    intro m hm
    rw [exits_cons, run_cons]
    rcases List.mem_cons.mp hm with rfl | hm
    · rw [hrest.settled]
      exact hfirst
    · have hm' := hsame v i m fun h => hn (h ▸ hm)
      have := ih (by rwa [hnonce]) (hcov.step hsound.1.1 hsound.1.2) hns (fun k hk => by
        rw [(hsame v i k fun h => hn (h ▸ hk)).2.1]
        exact hstored k (List.mem_cons_of_mem n hk)) hsound.2 h.2 m hm
      rwa [hm'.settled] at this

omit [RangedFixedPoint F] in
/-- What the exits leave of the slash-adjusted stakes, once the stakes are truncated. -/
private theorem abs_sum_settled_le (hi : i ≠ s.nonce v) (hcov : Covered s) (hns : ns.Nodup)
    (hstored : ∀ n ∈ ns, toRat (amount n).1 ≤ (s.pool v i).ledger.stake n)
    (hwhole : ∀ n ∈ ns, toRat (amount n).1 = ⌊(s.pool v i).ledger.settled (rounding F) n⌋)
    (hout : ∀ n ∉ ns, ⌊(s.pool v i).ledger.settled (rounding F) n⌋ = 0)
    (hsound : Meets (step native) Op.Sound s (exits v i amount ns))
    (h : Meets (step native) (Op.Succeeds native) s (exits v i amount ns)) :
    |∑ n, ((run (step native) s (exits v i amount ns)).pool v i).ledger.settled (rounding F) n -
        ∑ n, Int.fract ((s.pool v i).ledger.settled (rounding F) n)| ≤
      (rounding F).ulp * ns.length := by
  have hterm : ∀ n, |((run (step native) s (exits v i amount ns)).pool v i).ledger.settled
      (rounding F) n - Int.fract ((s.pool v i).ledger.settled (rounding F) n)| ≤
      if n ∈ ns then (rounding F).ulp else 0 := by
    intro n
    split
    · rename_i hn
      have := settled_exits hi hcov hns hstored hsound h n hn
      rwa [hwhole n hn] at this
    · rename_i hn
      rw [((run_exits native ns).2 v i n hn).settled, Int.fract, hout n hn]
      simp
  rw [← Finset.sum_sub_distrib]
  calc |∑ n, (((run (step native) s (exits v i amount ns)).pool v i).ledger.settled
          (rounding F) n - Int.fract ((s.pool v i).ledger.settled (rounding F) n))|
      ≤ ∑ n, if n ∈ ns then (rounding F).ulp else 0 :=
        (Finset.abs_sum_le_sum_abs _ _).trans (Finset.sum_le_sum fun n _ => hterm n)
    _ = (rounding F).ulp * ns.toFinset.card := by
        rw [← Finset.sum_filter, Finset.sum_const, nsmul_eq_mul, mul_comm]
        congr 3
        ext n
        simp
    _ = (rounding F).ulp * ns.length := by rw [List.toFinset_card_of_nodup hns]

/-- Consider the pool of a nonce that is not the current one. In every state a nominator can
withdraw an amount from it exactly when the figures of the withdrawal fit and the amount is zero
or at most the stake in the current pool. After a run whose slashes can be borne and whose
withdrawals stay within their pools, let each of a list of nominators withdraw the truncated
stake, which is at most the stored one: all of them can exactly when their figures fit and each
truncated stake is zero or at most the stake in the current pool, and then the pool is left with
the fractions of a token, up to rounding. -/
theorem old_pool_exit_iff (native : CurrencyId) (v : VaultId AccountId CurrencyId) (i : ℕ) :
    (∀ (s : Staking AccountId CurrencyId F) (n : AccountId) (amount : {a : F // 0 ≤ a}),
        i ≠ s.nonce v →
        ((withdrawStake native v n amount.1 (some i)).succeeds s = true ↔
          s.WithdrawsInRange native v i n amount.1 ∧
            (amount.1 = 0 ∨ s.HoldsCurrently v n amount.1))) ∧
      ∀ ops : List (Op AccountId CurrencyId F), Meets (step native) Op.Sound default ops →
        ∀ s, s = run (step native) default ops → i ≠ s.nonce v →
        ∀ (precise : AccountId → F) (stake : AccountId → ℤ) (amount : AccountId → {a : F // 0 ≤ a})
          (ns : List AccountId), ns.Nodup →
        (∀ n, s.computePreciseStakeAtIndex i v n = .ok (precise n)) →
        (∀ n, s.computeStakeAtIndex i v n = .ok (stake n)) →
        (∀ n ∈ ns, checkedFromInteger (stake n) = some (amount n).1 ∧
          (amount n).1 ≤ (s.pool v i).stake n) →
        (∀ n ∉ ns, stake n = 0) →
        (Meets (step native) (Op.Succeeds native) s (exits v i amount ns) ↔
          Meets (step native) (Op.InRange native) s (exits v i amount ns) ∧
            ∀ n ∈ ns, (amount n).1 = 0 ∨ s.HoldsCurrently v n (amount n).1) ∧
          (Meets (step native) (Op.Succeeds native) s (exits v i amount ns) →
            |toRat ((run (step native) s (exits v i amount ns)).pool v i).totalCurrentStake -
                ∑ n, Int.fract (toRat (precise n))| ≤
              (rounding F).ulp *
                (roundingBudget native v i default (ops ++ exits v i amount ns) + ns.length)) := by
  refine ⟨fun s n amount hi => withdrawStake_succeeds_iff native hi amount.2, ?_⟩
  intro ops hops s hs hi precise stake amount ns hns hprecise hstake hamount hout
  refine ⟨exits_succeed_iff hi hns, fun hsucc => ?_⟩
  have hcov : Covered s := hs ▸ covered_run hops .default
  have hsettled : ∀ n, toRat (precise n) = (s.pool v i).ledger.settled (rounding F) n := by
    intro n
    rw [Pool.toRat_computePreciseStake (hprecise n), max_eq_right ((hcov v i).settled_nonneg n)]
  have hfloor : ∀ n, stake n = ⌊(s.pool v i).ledger.settled (rounding F) n⌋ := by
    intro n
    rw [Pool.computeStake_eq_ok (hstake n), max_eq_right ((hcov v i).settled_nonneg n),
      truncate_of_nonneg ((hcov v i).settled_nonneg n)]
  have hwhole : ∀ n ∈ ns, toRat (amount n).1 =
      ⌊(s.pool v i).ledger.settled (rounding F) n⌋ := by
    intro n hn
    rw [toRat_fromInteger (hamount n hn).1, hfloor]
  have hstored : ∀ n ∈ ns, toRat (amount n).1 ≤ (s.pool v i).ledger.stake n := fun n hn =>
    toRat_le_iff.mpr (hamount n hn).2
  have hsound : Meets (step native) Op.Sound s (exits v i amount ns) :=
    exits_sound native hns fun n hn => ⟨hstored n hn, hwhole n hn ▸ Int.floor_le _⟩
  have hleft := abs_sum_settled_le hi hcov hns hstored hwhole
    (fun n hn => hfloor n ▸ hout n hn) hsound hsucc
  have hdrift := abs_drift_le (v := v) (i := i)
    (Meets.append_iff.mpr ⟨hops, hs ▸ hsound⟩ : Meets (step native) Op.Sound default
      (ops ++ exits v i amount ns))
  rw [run_append, ← hs, StakeLedger.drift] at hdrift
  have hcurrent : ((run (step native) s (exits v i amount ns)).pool v i).ledger.current =
    toRat ((run (step native) s (exits v i amount ns)).pool v i).totalCurrentStake := rfl
  rw [hcurrent] at hdrift
  simp only [hsettled]
  rw [mul_add]
  rw [abs_le] at hdrift hleft ⊢
  constructor <;> linarith

/-! ## Runs of one vault -/

/-- The figures of withdrawing the nominator's `100` from the refunded pool fit. -/
private theorem refunded_inRange : (run (step 2) default refundedOps).WithdrawsInRange
    2 soleVault 0 1 (whole 100).1 := by
  refine ⟨⟨?_, ?_, ?_, ?_, ?_⟩, fun _ => ⟨?_, ?_, ?_, ?_, ?_, ?_⟩⟩ <;> decide +kernel

/-- The nominator holds `300` in the current pool, so the refunded `100` can be withdrawn, and
nothing is left of them. -/
theorem old_pool_exit_iff_renominated :
    (withdrawStake 2 soleVault 1 (whole 100).1 (some 0)).succeeds
        (run (step 2) default refundedOps) = true ∧
      Meets (step 2) (Op.Succeeds 2) (run (step 2) default refundedOps)
        (exits soleVault 0 (fun _ => whole 100) [1]) ∧
      |toRat ((run (step 2) (run (step 2) default refundedOps)
            (exits soleVault 0 (fun _ => whole 100) [1])).pool soleVault 0).totalCurrentStake -
          ∑ n : Fin 2, Int.fract (toRat (if n = 0 then whole 0 else whole 100).1)| ≤
        (rounding FixedI128).ulp * (roundingBudget 2 soleVault 0 default
          (refundedOps ++ exits soleVault 0 (fun _ => whole 100) [1]) + 1) := by
  have hholds : (run (step 2) default refundedOps).HoldsCurrently soleVault 1 (whole 100).1 :=
    ⟨(whole 300).1, by decide +kernel, by decide +kernel⟩
  obtain ⟨hone, hall⟩ := old_pool_exit_iff (F := FixedI128) 2 soleVault 0
  obtain ⟨hiff, hleft⟩ := hall refundedOps (by decide +kernel) _ rfl (by decide +kernel)
    (fun n => (if n = 0 then whole 0 else whole 100).1) (fun n => if n = 0 then 0 else 100)
    (fun _ => whole 100) [1] (by decide) (by decide +kernel) (by decide +kernel)
    (by decide +kernel) (by decide +kernel)
  have hexits : Meets (step 2) (Op.Succeeds 2) (run (step 2) default refundedOps)
      (exits soleVault 0 (fun _ => whole 100) [1]) :=
    hiff.mpr ⟨⟨refunded_inRange, trivial⟩, fun n hn => .inr (List.mem_singleton.mp hn ▸ hholds)⟩
  refine ⟨?_, hexits, ?_⟩
  · exact (hone _ 1 (whole 100) (by decide +kernel)).mpr ⟨refunded_inRange, .inr hholds⟩
  · exact_mod_cast hleft hexits

/-- A nominator who holds nothing in the current pool cannot withdraw the refunded `100`. -/
theorem refunded_stake_is_locked :
    (run (step 2) default (refundedOps.take 3)).computeStakeAtIndex 0 soleVault 1 = .ok 100 ∧
      (withdrawStake 2 soleVault 1 (whole 100).1 (some 0)).succeeds
        (run (step 2) default (refundedOps.take 3)) = false := by
  constructor
  · decide +kernel
  · decide +kernel

/-- Two distributions over a small stake make the reward of one token so large that the reward
of `17014118346` tokens no longer fits. -/
def richOps : List (Op (Fin 2) (Fin 3) FixedI128) :=
  [.depositStake soleVault 0 (whole 1), .distributeReward 1 soleVault (whole 10000000000),
    .depositStake soleVault 1 (whole 17014118346),
    .distributeReward 1 soleVault (whole 1000000000), .forceRefund soleVault,
    .depositStake soleVault 1 (whole 17014118346)]

/-- The nominator holds the refunded amount in the current pool, yet the withdrawal overflows. -/
example : (withdrawStake 2 soleVault 1 (whole 17014118346).1 (some 0)).error?
    (run (step 2) default richOps) = some (.arithmetic .overflow) := by
  decide +kernel

end Interbtc.Staking
