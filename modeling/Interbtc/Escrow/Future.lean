import Interbtc.Escrow.Pace

/-!
# A checkpoint does not change the future

A checkpoint that changes no lock only fills up the history. The supply predicted from the
new last point is the supply predicted from the old one, since no product overflows on the
way.
-/

namespace Interbtc.Escrow

open Core

variable {AccountId CurrencyId : Type} [DecidableEq AccountId] [DecidableEq CurrencyId]
  [Fintype AccountId] {cfg : EscrowConfig} {s s' : Escrow AccountId CurrencyId FixedI128}
  {who : AccountId} {l : LockedBalance} {op : Op AccountId}

/-! ## Runs -/

/-- The points match the locks, their biases are staked, and no walk overflows. -/
structure Sound (cfg : EscrowConfig) (s : Escrow AccountId CurrencyId FixedI128) : Prop where
  pointed : Pointed cfg s
  staked : Staked s
  paced : Paced cfg s

omit [DecidableEq AccountId] [DecidableEq CurrencyId] in
/-- The escrow is sound at first. -/
theorem Sound.default : Sound cfg (default : Escrow AccountId CurrencyId FixedI128) where
  pointed := .default
  staked := .default
  paced := by
    refine ⟨Nat.zero_le _, le_rfl, Nat.zero_le _, fun _ => ?_, fun _ _ => rfl, fun _ h => ?_, ?_,
      fun _ _ => Nat.zero_le _, Nat.zero_le _⟩
    · change 0 / cfg.span * cfg.span = 0
      rw [Nat.zero_div, Nat.zero_mul]
    · exact absurd h (Nat.not_lt_zero _)
    · exact Staked.default.sum_bias_le

omit [DecidableEq AccountId] [DecidableEq CurrencyId] in
/-- The lock of an accepted call holds no less than the old one, and ends no earlier. -/
private theorem relocks_grows (hs : Sound cfg s) (h : Relocks cfg s op who l) :
    cfg.roundHeight l.endHeight = l.endHeight ∧
      (s.locked who).slope cfg ≤ l.slope cfg ∧
      ((s.locked who).endHeight ≤ l.endHeight ∨ (s.locked who).slope cfg = 0) := by
  have hmax := (hs.pointed.valid who).amount_le
  have hle : ∀ amount, (s.locked who).amount ≤ saturatingAdd (s.locked who).amount amount :=
    fun amount => le_min (Nat.le_add_right _ _) hmax
  cases h with
  | createLock free who amount unlockHeight hold hfuture hbound =>
    have hzero : (s.locked who).slope cfg = 0 := by
      rw [LockedBalance.slope, hold, Nat.zero_div]
    exact ⟨cfg.roundHeight_roundHeight _, hzero.le.trans (Nat.zero_le _), .inr hzero⟩
  | increaseAmount free who amount hend =>
    exact ⟨hs.paced.grid who, Nat.div_le_div_right (hle amount), .inl le_rfl⟩
  | increaseUnlockHeight free who unlockHeight hend hincrease hbound =>
    exact ⟨cfg.roundHeight_roundHeight _, Nat.div_le_div_right (hle 0), .inl hincrease.le⟩
  | updateUserStake free who =>
    exact ⟨hs.paced.grid who, Nat.div_le_div_right (hle 0), .inl le_rfl⟩

/-- Every move keeps the escrow sound. -/
theorem Sound.moves (hs : Sound cfg s) (h : Moves cfg s op s') : Sound cfg s' := by
  have hpointed := hs.pointed.moves h
  have hstaked := hs.staked.moves h
  refine ⟨hpointed, hstaked, ?_⟩
  have hpaced := hs.paced
  cases h with
  | toBlock height hle hmax =>
    exact ⟨hmax, hpaced.ts_le.trans hle, hpaced.bias_le, hpaced.grid, hpaced.offGrid,
      hpaced.weight, hpaced.total, hpaced.changes, hpaced.slope_le⟩
  | settle op limits blocks =>
    exact ⟨hpaced.height_le, hpaced.ts_le, hpaced.bias_le, hpaced.grid, hpaced.offGrid,
      hpaced.weight, hpaced.total, hpaced.changes, hpaced.slope_le⟩
  | @relock op who l h hlow hfree r hr =>
    obtain ⟨hgrid, hslope, hend⟩ := relocks_grows hs h
    refine hpaced.relock who l hgrid (fun _ => hslope) (fun _ => hend) rfl rfl rfl rfl
      (fun u hu => ?_) (fun hlast => ?_) hstaked.sum_bias_le
    · change (checkpoint cfg who (s.locked who) l (s.setLocked who l)).userPoint u = _
      rw [checkpoint_userPoint, if_neg hu]
      rfl
    · change _ ≤ ((checkpoint cfg who (s.locked who) l (s.setLocked who l)).userPoint who).bias
      rw [checkpoint_userPoint, if_pos rfl]
      change _ ≤ (l.point cfg s.height).bias
      rw [LockedBalance.point_bias (h.valid hs.pointed)]
      exact Nat.le_mul_of_pos_right _ (by omega)
  | withdraw who hend hr =>
    refine hpaced.relock who .default ?_ (fun h => absurd hend (Nat.not_le.mpr h))
      (fun h => absurd hend (Nat.not_le.mpr h)) rfl rfl rfl rfl (fun u hu => ?_)
      (fun h => absurd h (Nat.not_lt_zero _)) hstaked.sum_bias_le
    · change 0 / cfg.span * cfg.span = 0
      rw [Nat.zero_div, Nat.zero_mul]
    · simp [userPoint, checkpoint, checkpointUser, hu, setLocked, scheduleSlopes,
        checkpointHistory]

/-- Every call keeps the escrow sound. -/
theorem Sound.step (hs : Sound cfg s) (op : Op AccountId) : Sound cfg (Escrow.step cfg s op) := by
  rcases step_moves s op with h | ⟨-, h⟩
  · rwa [h]
  · exact hs.moves h

private theorem Sound.run (hs : Sound cfg s) (ops : List (Op AccountId)) :
    Sound cfg (Core.run (Escrow.step cfg) s ops) :=
  run_preserves (fun _ op h => h.step op) hs ops

/-! ## Checkpoints without a change -/

omit [DecidableEq CurrencyId] in
/-- A checkpoint of the same lock leaves the scheduled slope changes alone. -/
private theorem slopeChanges_same (hs : Sound cfg s) (who : AccountId) :
    (checkpoint cfg who (s.locked who) (s.locked who) s).slopeChanges = s.slopeChanges := by
  funext e
  rw [checkpoint_slopeChanges, if_neg fun h => Nat.lt_irrefl _ h.2.1]
  by_cases he : s.height < (s.locked who).endHeight ∧ e = (s.locked who).endHeight
  · obtain ⟨hlt, rfl⟩ := he
    have hts := hs.paced.ts_le
    have hweight : (s.locked who).slope cfg ≤ maxPower :=
      (hs.paced.weight who (by omega)).trans
        ((Finset.single_le_sum (fun u _ => Nat.zero_le _) (Finset.mem_univ who)).trans
          hs.paced.total)
    have hchange := hs.paced.changes_le (e := (s.locked who).endHeight) (by omega)
    have hmax : 2 * maxPower ≤ maxBalance := by decide
    rw [if_pos ⟨hlt, rfl⟩, oldChange, if_pos rfl, saturatingAdd_of_le (by omega)]
    omega
  · rw [if_neg he]

omit [DecidableEq CurrencyId] in
/-- A checkpoint of the same lock stores the point to which the history is filled up. -/
private theorem lastPoint_same (hs : Sound cfg s) (who : AccountId) :
    (checkpoint cfg who (s.locked who) (s.locked who) s).lastPoint = s.filled cfg := by
  obtain ⟨-, hbias, hslope⟩ := hs.paced.filled_spec
  rw [checkpoint_lastPoint, Nat.sub_self, Nat.sub_self, saturatingAdd_zero hbias,
    saturatingAdd_zero hslope]

omit [DecidableEq CurrencyId] in
private theorem totalSupply_same (hs : Sound cfg s) (who : AccountId) {height : ℕ}
    (hle : s.height ≤ height) (hmax : height ≤ maxBlockNumber) :
    (checkpoint cfg who (s.locked who) (s.locked who) s).totalSupply cfg height =
      s.totalSupply cfg height := by
  have hts := hs.paced.filled_spec.1
  rw [totalSupply, supplyAt, lastPoint_same hs, slopeChanges_same hs, hts]
  exact EscrowConfig.extrapolate_fillHistory (cfg.roundHeight_roundHeight _)
    (cfg.roundHeight_le _) (cfg.lt_roundHeight_add _) hs.paced.ts_le hle hmax
    hs.paced.slope_lt_maxBalance.le (hs.paced.fits hmax) (by omega) (by omega) (by omega)

private theorem updateUserStake_same (hs : Sound cfg s) {free : AccountId → ℕ}
    (h : Moves cfg s (.updateUserStake free who) s') {height : ℕ} (hle : s.height ≤ height)
    (hmax : height ≤ maxBlockNumber) : s'.height = s.height ∧ s'.locked = s.locked ∧
      s'.totalSupply cfg height = s.totalSupply cfg height := by
  cases h with
  | settle op limits blocks => exact ⟨rfl, rfl, rfl⟩
  | relock h hlow hfree hr =>
    cases h with
    | updateUserStake free who =>
      have hlock : (⟨saturatingAdd (s.locked who).amount 0, (s.locked who).endHeight⟩ :
          LockedBalance) = s.locked who := by
        rw [saturatingAdd_zero (hs.pointed.valid who).amount_le]
      refine ⟨rfl, ?_, ?_⟩
      · change Function.update s.locked who _ = s.locked
        rw [hlock, Function.update_eq_self]
      · rw [hlock]
        exact totalSupply_same hs who hle hmax

/-- After any run, updating the stake of any account at the current height leaves the total supply
and every balance at the current and every later height unchanged, and the supply to which the
history is filled up is the supply predicted from the last checkpoint. -/
theorem update_keeps_future (cfg : EscrowConfig) (ops : List (Op AccountId))
    (free : AccountId → ℕ) (who : AccountId) (height : ℕ) :
    let s : Escrow AccountId CurrencyId FixedI128 := run (step cfg) default ops
    let s' := step cfg s (.updateUserStake free who)
    s.height ≤ height → height ≤ maxBlockNumber →
      s'.totalSupply cfg height = s.totalSupply cfg height ∧
        (∀ u, s'.balanceAt u height = s.balanceAt u height) ∧
        (s.filled cfg).bias = s.totalSupply cfg s.height := by
  intro s s' hle hmax
  have hs : Sound cfg s := Sound.run Sound.default ops
  have hs' : Sound cfg s' := hs.step _
  have hsame : s'.height = s.height ∧ s'.locked = s.locked ∧
      s'.totalSupply cfg height = s.totalSupply cfg height := by
    rcases step_moves s (.updateUserStake free who) with h | ⟨-, h⟩
    · rw [show s' = s from h]
      exact ⟨rfl, rfl, rfl⟩
    · exact updateUserStake_same hs h hle hmax
  refine ⟨hsame.2.2, fun u => ?_, EscrowConfig.fillHistory_bias⟩
  rw [hs.pointed.balanceAt u height hle, hs'.pointed.balanceAt u height (by omega), hsame.2.1]

/-- The span and the longest period of the pallet's test runtime. -/
def mockConfig : EscrowConfig := ⟨10, 100, by decide⟩

/-- Two accounts lock the same amount until different heights. -/
def twoLocks : List (Op (Fin 2)) :=
  [.toBlock 5, .createLock (fun _ => 1000) 0 1000 20, .createLock (fun _ => 1000) 1 1000 60,
    .toBlock 33]

/-- Two locks of different ends. -/
theorem update_keeps_future_twoLocks :
    let s : Escrow (Fin 2) Unit FixedI128 := run (step mockConfig) default twoLocks
    let s' := step mockConfig s (.updateUserStake (fun _ => 1000) 0)
    s'.totalSupply mockConfig 50 = s.totalSupply mockConfig 50 ∧
      (∀ u, s'.balanceAt u 50 = s.balanceAt u 50) ∧
      (s.filled mockConfig).bias = s.totalSupply mockConfig s.height :=
  update_keeps_future mockConfig twoLocks (fun _ => 1000) 0 50 (by decide +kernel) (by decide)

end Interbtc.Escrow
