import Interbtc.Core.Sums
import Interbtc.Escrow.VotingPower
import Interbtc.Reward.Steps

/-!
# The staked voting power

Every change of a lock stakes the voting power of the account anew, so the reward pool
holds the bias of each account's last point. Its total is a 128-bit fixed-point number,
which bounds the voting power of all accounts together.
-/

namespace Interbtc.Escrow

open Core FixedPointNumber LawfulFixedPoint

variable {AccountId CurrencyId : Type} [DecidableEq AccountId] [DecidableEq CurrencyId]
  {cfg : EscrowConfig} {s s' : Escrow AccountId CurrencyId FixedI128} {who u : AccountId}
  {l : LockedBalance} {r r' : Rewards Unit AccountId CurrencyId FixedI128} {m n power : ℕ}

/-! ## The stake of one account -/

/-- The pool `r'` is `r` with another stake of one account, a whole number. -/
structure StakeSet (who : AccountId) (power : ℕ)
    (r r' : Rewards Unit AccountId CurrencyId FixedI128) : Prop where
  stake : ∀ u, (r'.stake () u).inner =
    if u = who then (power : ℤ) * FixedI128.DIV else (r.stake () u).inner
  total : (r'.totalStake ()).inner =
    (r.totalStake ()).inner - (r.stake () who).inner + power * FixedI128.DIV

private theorem inner_of_checkedAdd {a b c : FixedI128} (h : checkedAdd a b = some c) :
    c.inner = a.inner + b.inner :=
  FixedI128.inner_of_ofInner h

private theorem inner_of_checkedSub {a b c : FixedI128} (h : checkedSub a b = some c) :
    c.inner = a.inner - b.inner :=
  FixedI128.inner_of_ofInner h

private theorem inner_of_toFixed {a : FixedI128} (h : toFixed n = some a) :
    a.inner = n * FixedI128.DIV := by
  rw [toFixed] at h
  have hrat := toRat_fromInteger h
  have hD : (FixedI128.DIV : ℚ) ≠ 0 := by exact_mod_cast FixedI128.DIV_pos.ne'
  change (a.inner : ℚ) / FixedI128.DIV = _ at hrat
  rw [div_eq_iff hD] at hrat
  exact_mod_cast hrat

private theorem run_withdrawAllStake (hm : (r.stake () who).inner = m * FixedI128.DIV)
    (h : (Rewards.withdrawAllStake () who).run r = .ok n r') : StakeSet who 0 r r' := by
  simp only [Rewards.withdrawAllStake, Rewards.withdrawStake, Call.run_bind_eq_ok,
    Call.run_get_eq_ok, Call.run_ofExcept_eq_ok, Call.run_ofOption_eq_ok,
    Call.run_pure_eq_ok] at h
  obtain ⟨_, _, ⟨rfl, rfl⟩, k, _, ⟨hk, rfl⟩, _, _, ⟨a, _, ⟨ha, rfl⟩, hrun⟩, -, rfl⟩ := h
  have hD : (FixedI128.DIV : ℚ) ≠ 0 := by exact_mod_cast FixedI128.DIV_pos.ne'
  have hkm : (k : ℤ) = m := by
    have hget := Rewards.getStake_eq_ok hk
    have hrat : toRat (r.stake () who) = ((m : ℤ) : ℚ) := by
      change ((r.stake () who).inner : ℚ) / FixedI128.DIV = _
      rw [hm]
      push_cast
      field_simp
    rwa [hrat, truncate_intCast] at hget
  have ha' := inner_of_toFixed ha
  obtain ⟨x, y, hx, hy, hstake, htotal⟩ := Rewards.run_withdrawStakeFixed_stake hrun
  have hx' := inner_of_checkedSub hx
  have hy' := inner_of_checkedSub hy
  rw [hm, ha', hkm, sub_self] at hx'
  refine ⟨fun u => ?_, ?_⟩
  · rw [hstake, Function.update_self]
    by_cases hu : u = who
    · rw [hu, Function.update_self, if_pos rfl, hx', Nat.cast_zero, zero_mul]
    · rw [Function.update_of_ne hu, if_neg hu]
  · rw [htotal, Function.update_self, hy', ha', hkm, hm, Nat.cast_zero, zero_mul, add_zero]

private theorem run_restakes (hm : (r.stake () who).inner = m * FixedI128.DIV)
    (h : Restakes who power r r') : StakeSet who power r r' := by
  obtain ⟨n, r₁, hwithdraw, hdeposit⟩ := h
  have hfirst := run_withdrawAllStake hm hwithdraw
  simp only [Rewards.depositStake, Call.run_bind_eq_ok, Call.run_ofOption_eq_ok] at hdeposit
  obtain ⟨a, _, ⟨ha, rfl⟩, hrun⟩ := hdeposit
  have ha' := inner_of_toFixed ha
  obtain ⟨x, y, hx, hy, hstake, htotal⟩ := Rewards.run_depositStakeFixed_stake hrun
  have hx' := inner_of_checkedAdd hx
  have hy' := inner_of_checkedAdd hy
  rw [hfirst.stake, if_pos rfl, Nat.cast_zero, zero_mul, zero_add, ha'] at hx'
  refine ⟨fun u => ?_, ?_⟩
  · rw [hstake, Function.update_self]
    by_cases hu : u = who
    · rw [hu, Function.update_self, if_pos rfl, hx']
    · rw [Function.update_of_ne hu, if_neg hu, hfirst.stake, if_neg hu]
  · rw [htotal, Function.update_self, hy', ha', hfirst.total, Nat.cast_zero, zero_mul, add_zero]

/-! ## All stakes -/

variable [Fintype AccountId]

/-- The pool holds the bias of every account's last point. -/
structure Staked (s : Escrow AccountId CurrencyId FixedI128) : Prop where
  stake : ∀ u, (s.rewards.stake () u).inner = (s.userPoint u).bias * FixedI128.DIV
  total : (s.rewards.totalStake ()).inner = ∑ u, (s.rewards.stake () u).inner

omit [DecidableEq AccountId] [DecidableEq CurrencyId] in
/-- Nothing is staked at first. -/
theorem Staked.default : Staked (default : Escrow AccountId CurrencyId FixedI128) where
  stake u := by
    change (0 : ℤ) = ((0 : ℕ) : ℤ) * FixedI128.DIV
    simp
  total := by
    change (0 : ℤ) = ∑ _u : AccountId, (0 : ℤ)
    simp

omit [DecidableEq CurrencyId] in
private theorem Staked.set (hs : Staked s) (hr : StakeSet who power s.rewards s'.rewards)
    (hpoint : ∀ u, (s'.userPoint u).bias = if u = who then power else (s.userPoint u).bias) :
    Staked s' where
  stake u := by
    rw [hr.stake, hpoint]
    split
    · rfl
    · exact hs.stake u
  total := by
    have hsum : ∑ u, (s'.rewards.stake () u).inner = ∑ u, (s.rewards.stake () u).inner -
        (s.rewards.stake () who).inner + (s'.rewards.stake () who).inner :=
      sum_of_eq_off who fun u hu => by rw [hr.stake, if_neg hu]
    rw [hr.total, hs.total, hsum, hr.stake, if_pos rfl]

/-- Every move keeps the stakes in step with the locks. -/
theorem Staked.moves {op : Op AccountId} (hs : Staked s) (h : Moves cfg s op s') : Staked s' := by
  cases h with
  | toBlock height hle hmax => exact ⟨hs.stake, hs.total⟩
  | settle op limits blocks => exact ⟨hs.stake, hs.total⟩
  | @relock op who l h hlow hfree r hr =>
    refine hs.set (run_restakes (hs.stake who) hr) fun u => ?_
    change ((checkpoint cfg who (s.locked who) l (s.setLocked who l)).userPoint u).bias = _
    rw [checkpoint_userPoint]
    split
    · rw [LockedBalance.point_balanceAt_self]
      rfl
    · rfl
  | withdraw who hend hr =>
    refine hs.set (run_withdrawAllStake (hs.stake who) hr) fun u => ?_
    by_cases hu : u = who
    · subst hu
      rw [if_pos rfl]
      simp [userPoint, Point.default]
    · rw [if_neg hu]
      simp [userPoint, checkpoint, checkpointUser, hu, setLocked, scheduleSlopes,
        checkpointHistory]

/-- The most that can be staked. -/
def maxPower : ℕ := (2 ^ 127 - 1) / FixedI128.DIV

omit [DecidableEq AccountId] [DecidableEq CurrencyId] in
/-- The voting power of all accounts together, each as of its last checkpoint. -/
theorem Staked.sum_bias_le (hs : Staked s) : ∑ u, (s.userPoint u).bias ≤ maxPower := by
  have htotal := hs.total
  simp only [hs.stake, ← Finset.sum_mul] at htotal
  have hlt := (s.rewards.totalStake ()).upper
  rw [htotal] at hlt
  rw [maxPower, Nat.le_div_iff_mul_le FixedI128.DIV_pos]
  have hlt' : (∑ u, (s.userPoint u).bias) * FixedI128.DIV < 2 ^ 127 := by exact_mod_cast hlt
  omega

end Interbtc.Escrow
