import Interbtc.Escrow.Steps

/-!
# Voting power depends on the lock only

Every checkpoint of an account writes the point of its new lock. The point was made for a
lock that ends within the longest period, so nothing in it is saturated, and the balance
read from it later is that of the lock at that height.
-/

namespace Interbtc.Escrow

open Core

variable {AccountId CurrencyId F : Type} [DecidableEq AccountId] {cfg : EscrowConfig}
  {s s' : Escrow AccountId CurrencyId F} {who : AccountId} {l : LockedBalance}

/-- Every lock is valid, and its account's last point was made for it. -/
structure Pointed (cfg : EscrowConfig) (s : Escrow AccountId CurrencyId F) : Prop where
  valid : ∀ u, (s.locked u).Valid cfg s.height
  balanceAt : ∀ u h, s.height ≤ h →
    s.balanceAt u h = (s.locked u).slope cfg * ((s.locked u).endHeight - h)

omit [DecidableEq AccountId] in
/-- The points are those of no locks at first. -/
theorem Pointed.default [Zero F] : Pointed cfg (default : Escrow AccountId CurrencyId F) where
  valid _ := .default
  balanceAt u h _ := by
    simp [Escrow.balanceAt, userPoint, Escrow.default, LockedBalance.default]

omit [DecidableEq AccountId] in
private theorem Pointed.toBlock (hs : Pointed cfg s) {height : ℕ} (hle : s.height ≤ height) :
    Pointed cfg { s with height := height } where
  valid u := (hs.valid u).mono hle
  balanceAt u h hh := hs.balanceAt u h (hle.trans hh)

/-- A checkpoint with a valid lock. -/
theorem Pointed.relock (hs : Pointed cfg s) (hl : l.Valid cfg s.height)
    (hlocked : s'.locked = Function.update s.locked who l) (hheight : s'.height = s.height)
    (hpoint : ∀ u h, s'.balanceAt u h =
      if u = who then (l.point cfg s.height).balanceAt h else s.balanceAt u h) :
    Pointed cfg s' where
  valid u := by
    rw [hlocked, hheight]
    by_cases hu : u = who
    · rwa [hu, Function.update_self]
    · rw [Function.update_of_ne hu]
      exact hs.valid u
  balanceAt u h hh := by
    rw [hheight] at hh
    rw [hlocked, hpoint]
    by_cases hu : u = who
    · rw [if_pos hu, hu, Function.update_self]
      exact LockedBalance.point_balanceAt hl hh
    · rw [if_neg hu, Function.update_of_ne hu]
      exact hs.balanceAt u h hh

omit [DecidableEq AccountId] in
/-- A lock that is written is valid. -/
theorem Relocks.valid {op : Op AccountId} (hs : Pointed cfg s) (h : Relocks cfg s op who l) :
    l.Valid cfg s.height := by
  cases h with
  | createLock free who amount unlockHeight hold hfuture hmax =>
    exact ⟨saturatingAdd_le _ _, hmax⟩
  | increaseAmount free who amount hend =>
    exact ⟨saturatingAdd_le _ _, (hs.valid who).endHeight_le⟩
  | increaseUnlockHeight free who unlockHeight hend hincrease hmax =>
    exact ⟨saturatingAdd_le _ _, hmax⟩
  | updateUserStake free who => exact ⟨saturatingAdd_le _ _, (hs.valid who).endHeight_le⟩

variable [DecidableEq CurrencyId] [FixedPointNumber F]

/-- Every move keeps the points in step with the locks. -/
theorem Pointed.moves {op : Op AccountId} (hs : Pointed cfg s) (h : Moves cfg s op s') :
    Pointed cfg s' := by
  cases h with
  | toBlock height hle hmax => exact hs.toBlock hle
  | settle op limits blocks => exact ⟨hs.valid, hs.balanceAt⟩
  | @relock op who l h hlow hfree r hr =>
    refine hs.relock (h.valid hs) rfl rfl fun u height => ?_
    change ((checkpoint cfg who (s.locked who) l (s.setLocked who l)).userPoint u).balanceAt
      height = _
    rw [checkpoint_userPoint]
    split <;> rfl
  | withdraw who hend hr =>
    refine hs.relock .default rfl rfl fun u height => ?_
    by_cases hu : u = who
    · subst hu
      simp [Escrow.balanceAt, userPoint, LockedBalance.point, LockedBalance.default]
    · rw [if_neg hu]
      simp [Escrow.balanceAt, userPoint, checkpoint, checkpointUser, hu, setLocked,
        scheduleSlopes, checkpointHistory]

private theorem Pointed.step (hs : Pointed cfg s) (op : Op AccountId) :
    Pointed cfg (Escrow.step cfg s op) := by
  rcases step_moves s op with h | ⟨-, h⟩
  · rwa [h]
  · exact hs.moves h

private theorem Pointed.run (hs : Pointed cfg s) (ops : List (Op AccountId)) :
    Pointed cfg (Core.run (Escrow.step cfg) s ops) :=
  run_preserves (fun _ op h => h.step op) hs ops

/-- After any run, the voting power of an account at the current height or any later one is the
slope of its lock times the blocks that are left of it then. -/
theorem balanceAt_of_lock (cfg : EscrowConfig) (ops : List (Op AccountId)) (who : AccountId)
    (later : ℕ) :
    let s : Escrow AccountId CurrencyId F := run (step cfg) default ops
    s.balanceAt who (s.height + later) = (s.locked who).amount / cfg.maxPeriod *
      ((s.locked who).endHeight - (s.height + later)) :=
  Pointed.balanceAt (Pointed.run Pointed.default ops) who _ (Nat.le_add_right _ _)

end Interbtc.Escrow
