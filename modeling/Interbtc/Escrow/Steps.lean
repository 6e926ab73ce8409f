import Interbtc.Escrow.Pallet

/-!
# What one call on the escrow pallet does

A successful call replaces one lock and records it with a checkpoint. The lock is valid:
it ends at most the longest period after the current height.
-/

namespace Interbtc.Escrow

open Core

variable {AccountId CurrencyId F : Type} [DecidableEq AccountId] {cfg : EscrowConfig}
  {s s' : Escrow AccountId CurrencyId F} {who u : AccountId} {old new l : LockedBalance}

/-! ## What a checkpoint leaves alone -/

/-- The last point of the account is the point of its new lock. -/
theorem checkpoint_userPoint (u : AccountId) : (checkpoint cfg who old new s).userPoint u =
    if u = who then new.point cfg s.height else s.userPoint u := by
  by_cases hu : u = who
  · subst hu
    simp [checkpoint, checkpointUser, userPoint]
  · simp [checkpoint, checkpointUser, userPoint, hu, scheduleSlopes, checkpointHistory]

/-- The state with one lock replaced. -/
def setLocked (who : AccountId) (l : LockedBalance) (s : Escrow AccountId CurrencyId F) :
    Escrow AccountId CurrencyId F :=
  { s with lock := Function.update s.lock who l.amount, locked := Function.update s.locked who l }

/-! ## Calls -/

variable [DecidableEq CurrencyId] [FixedPointNumber F] {free : AccountId → ℕ}
  {amount unlockHeight : ℕ} {x : Unit}

/-- An account's stake in the reward pool is withdrawn and another one deposited. -/
def Restakes (who : AccountId) (power : ℕ) (r r' : Rewards Unit AccountId CurrencyId F) : Prop :=
  ∃ n r₁, (Rewards.withdrawAllStake () who).run r = .ok n r₁ ∧
    (Rewards.depositStake () who power).run r₁ = .ok () r'

private theorem run_depositFor
    (h : (depositFor cfg free who amount unlockHeight).run s = .ok x s') :
    ∃ l r, l.amount = saturatingAdd (s.locked who).amount amount ∧
      l.endHeight = (if 0 < unlockHeight then unlockHeight else (s.locked who).endHeight) ∧
      cfg.maxPeriod ≤ l.amount ∧ l.amount ≤ s.getFreeBalance free who ∧
      Restakes who ((l.point cfg s.height).balanceAt s.height) s.rewards r ∧
      s' = { checkpoint cfg who (s.locked who) l (s.setLocked who l) with rewards := r } := by
  simp only [depositFor, Call.run_bind_eq_ok, Call.run_get_eq_ok, Call.run_ensure_eq_ok,
    Call.run_modify_eq_ok] at h
  obtain ⟨_, _, ⟨rfl, rfl⟩, _, _, ⟨hlow, rfl⟩, _, _, ⟨hfree, rfl⟩, _, _, rfl, _, _, rfl,
    n, _, hwithdraw, _, _, ⟨rfl, rfl⟩, hdeposit⟩ := h
  obtain ⟨r, hr, rfl⟩ := Lens.run_zoom_eq_ok.mp hwithdraw
  obtain ⟨r', hr', rfl⟩ := Lens.run_zoom_eq_ok.mp hdeposit
  refine ⟨_, r', rfl, rfl, hlow, hfree, ⟨n, r, hr, ?_⟩, rfl⟩
  rw [← hr']
  congr 2
  change _ = ((checkpoint cfg who _ _ (s.setLocked who _)).userPoint who).balanceAt s.height
  rw [checkpoint_userPoint, if_pos rfl]
  rfl

private theorem run_removeLock (h : (removeLock cfg who).run s = .ok x s') :
    (s.locked who).endHeight ≤ s.height ∧
      ∃ r n, (Rewards.withdrawAllStake () who).run s.rewards = .ok n r ∧
        s' = { checkpoint cfg who (s.locked who) .default (s.setLocked who .default) with
          rewards := r
          userPointHistory := Function.update
            (checkpoint cfg who (s.locked who) .default
              (s.setLocked who .default)).userPointHistory
            who fun _ => .default } := by
  simp only [removeLock, Call.run_bind_eq_ok, Call.run_get_eq_ok, Call.run_ensure_eq_ok,
    Call.run_modify_eq_ok] at h
  obtain ⟨_, _, ⟨rfl, rfl⟩, _, _, rfl, _, _, ⟨hend, rfl⟩, n, _, hwithdraw, _, _, rfl, rfl⟩ := h
  obtain ⟨r, hr, rfl⟩ := Lens.run_zoom_eq_ok.mp hwithdraw
  exact ⟨hend, r, n, hr, rfl⟩

/-! ## Operations -/

/-- A block height that is reached, or a call together with the free balances that the currency
pallet reports during it. -/
inductive Op (AccountId : Type)
  | toBlock (height : ℕ)
  | createLock (free : AccountId → ℕ) (who : AccountId) (amount unlockHeight : ℕ)
  | increaseAmount (free : AccountId → ℕ) (who : AccountId) (amount : ℕ)
  | increaseUnlockHeight (free : AccountId → ℕ) (who : AccountId) (unlockHeight : ℕ)
  | withdraw (who : AccountId)
  | setAccountLimit (who : AccountId) (start endHeight : ℕ)
  | setAccountBlock (who : AccountId)
  | updateUserStake (free : AccountId → ℕ) (targetUser : AccountId)

/-- What each call does. -/
def Op.call (cfg : EscrowConfig) :
    Op AccountId → Call DispatchError (Escrow AccountId CurrencyId F) Unit
  | .toBlock height => modify fun s =>
    if s.height ≤ height ∧ height ≤ maxBlockNumber then { s with height := height } else s
  | .createLock free who amount unlockHeight => Escrow.createLock cfg free who amount unlockHeight
  | .increaseAmount free who amount => Escrow.increaseAmount cfg free who amount
  | .increaseUnlockHeight free who unlockHeight =>
    Escrow.increaseUnlockHeight cfg free who unlockHeight
  | .withdraw who => Escrow.withdraw cfg who
  | .setAccountLimit who start endHeight => Escrow.setAccountLimit who start endHeight
  | .setAccountBlock who => Escrow.setAccountBlock who
  | .updateUserStake free targetUser => Escrow.updateUserStake cfg free targetUser

/-- One operation as a transaction: a failed one changes nothing. -/
def step (cfg : EscrowConfig) (s : Escrow AccountId CurrencyId F) (op : Op AccountId) :
    Escrow AccountId CurrencyId F :=
  (op.call cfg).commit s

/-- The free balances that are reported during a call. -/
def Op.balances : Op AccountId → AccountId → ℕ
  | .createLock free _ _ _ | .increaseAmount free _ _ | .increaseUnlockHeight free _ _
  | .updateUserStake free _ => free
  | .toBlock _ | .withdraw _ | .setAccountLimit _ _ _ | .setAccountBlock _ => fun _ => 0

/-- The lock that an accepted call makes. -/
inductive Relocks (cfg : EscrowConfig) (s : Escrow AccountId CurrencyId F) :
    Op AccountId → AccountId → LockedBalance → Prop
  | createLock (free : AccountId → ℕ) (who : AccountId) (amount unlockHeight : ℕ)
      (hold : (s.locked who).amount = 0)
      (hfuture : s.height < cfg.roundHeight unlockHeight)
      (hmax : cfg.roundHeight unlockHeight ≤ s.height + cfg.maxPeriod) :
      Relocks cfg s (.createLock free who amount unlockHeight) who
        ⟨saturatingAdd 0 amount, cfg.roundHeight unlockHeight⟩
  | increaseAmount (free : AccountId → ℕ) (who : AccountId) (amount : ℕ)
      (hend : s.height < (s.locked who).endHeight) :
      Relocks cfg s (.increaseAmount free who amount) who
        ⟨saturatingAdd (s.locked who).amount amount, (s.locked who).endHeight⟩
  | increaseUnlockHeight (free : AccountId → ℕ) (who : AccountId) (unlockHeight : ℕ)
      (hend : s.height < (s.locked who).endHeight)
      (hincrease : (s.locked who).endHeight < cfg.roundHeight unlockHeight)
      (hmax : cfg.roundHeight unlockHeight ≤ s.height + cfg.maxPeriod) :
      Relocks cfg s (.increaseUnlockHeight free who unlockHeight) who
        ⟨saturatingAdd (s.locked who).amount 0, cfg.roundHeight unlockHeight⟩
  | updateUserStake (free : AccountId → ℕ) (who : AccountId) :
      Relocks cfg s (.updateUserStake free who) who
        ⟨saturatingAdd (s.locked who).amount 0, (s.locked who).endHeight⟩

/-- What a successful operation does: it changes the height or the settings of an account, or it
makes a checkpoint with one lock replaced or removed. -/
inductive Moves (cfg : EscrowConfig) (s : Escrow AccountId CurrencyId F) :
    Op AccountId → Escrow AccountId CurrencyId F → Prop
  | toBlock (height : ℕ) (hle : s.height ≤ height) (hmax : height ≤ maxBlockNumber) :
      Moves cfg s (.toBlock height) { s with height := height }
  | settle (op : Op AccountId) (limits : AccountId → Option (ℕ × ℕ)) (blocks : AccountId → Bool) :
      Moves cfg s op { s with limits := limits, blocks := blocks }
  | relock {op : Op AccountId} {who : AccountId} {l : LockedBalance} (h : Relocks cfg s op who l)
      (hlow : cfg.maxPeriod ≤ l.amount) (hfree : l.amount ≤ s.getFreeBalance op.balances who)
      {r : Rewards Unit AccountId CurrencyId F}
      (hr : Restakes who ((l.point cfg s.height).balanceAt s.height) s.rewards r) :
      Moves cfg s op
        { checkpoint cfg who (s.locked who) l (s.setLocked who l) with rewards := r }
  | withdraw (who : AccountId) (hend : (s.locked who).endHeight ≤ s.height)
      {r : Rewards Unit AccountId CurrencyId F} {n : ℕ}
      (hr : (Rewards.withdrawAllStake () who).run s.rewards = .ok n r) :
      Moves cfg s (.withdraw who)
        { checkpoint cfg who (s.locked who) .default (s.setLocked who .default) with
          rewards := r
          userPointHistory := Function.update
            (checkpoint cfg who (s.locked who) .default
              (s.setLocked who .default)).userPointHistory
            who fun _ => .default }

private theorem moves_of_run {op : Op AccountId}
    (h : (op.call cfg).run s = .ok x s') : Moves cfg s op s' := by
  cases op with
  | toBlock height =>
    simp only [Op.call, Call.run_modify_eq_ok] at h
    subst h
    split
    · rename_i hle
      exact .toBlock height hle.1 hle.2
    · exact .settle _ s.limits s.blocks
  | createLock free who amount unlockHeight =>
    simp only [Op.call, createLock, Call.run_bind_eq_ok, Call.run_get_eq_ok,
      Call.run_ensure_eq_ok] at h
    obtain ⟨_, _, ⟨rfl, rfl⟩, _, _, ⟨-, rfl⟩, _, _, ⟨hold, rfl⟩, _, _, ⟨hfuture, rfl⟩,
      _, _, ⟨hmax, rfl⟩, h⟩ := h
    obtain ⟨⟨a, e⟩, r, ha, he, hlow, hfree, hr, rfl⟩ := run_depositFor h
    rw [hold] at ha
    rw [if_pos (Nat.zero_lt_of_lt hfuture)] at he
    dsimp only at ha he
    subst ha he
    exact .relock (.createLock free who amount unlockHeight hold hfuture
      (hmax.trans (min_le_left _ _))) hlow hfree hr
  | increaseAmount free who amount =>
    simp only [Op.call, increaseAmount, Call.run_bind_eq_ok, Call.run_get_eq_ok,
      Call.run_ensure_eq_ok] at h
    obtain ⟨_, _, ⟨rfl, rfl⟩, _, _, ⟨-, rfl⟩, _, _, ⟨-, rfl⟩, _, _, ⟨hend, rfl⟩, h⟩ := h
    obtain ⟨⟨a, e⟩, r, rfl, rfl, hlow, hfree, hr, rfl⟩ := run_depositFor h
    exact .relock (.increaseAmount free who amount hend) hlow hfree hr
  | increaseUnlockHeight free who unlockHeight =>
    simp only [Op.call, increaseUnlockHeight, Call.run_bind_eq_ok, Call.run_get_eq_ok,
      Call.run_ensure_eq_ok] at h
    obtain ⟨_, _, ⟨rfl, rfl⟩, _, _, ⟨hend, rfl⟩, _, _, ⟨-, rfl⟩, _, _, ⟨hincrease, rfl⟩,
      _, _, ⟨hmax, rfl⟩, h⟩ := h
    obtain ⟨⟨a, e⟩, r, rfl, he, hlow, hfree, hr, rfl⟩ := run_depositFor h
    rw [if_pos (Nat.zero_lt_of_lt hincrease)] at he
    dsimp only at he
    subst he
    exact .relock (.increaseUnlockHeight free who unlockHeight hend hincrease
      (hmax.trans (min_le_left _ _))) hlow hfree hr
  | withdraw who =>
    obtain ⟨hend, r, n, hr, rfl⟩ := run_removeLock h
    exact .withdraw who hend hr
  | setAccountLimit who start endHeight =>
    simp only [Op.call, setAccountLimit, Call.run_modify_eq_ok] at h
    subst h
    exact .settle _ _ s.blocks
  | setAccountBlock who =>
    simp only [Op.call, setAccountBlock, Call.run_modify_eq_ok] at h
    subst h
    exact .settle _ s.limits _
  | updateUserStake free who =>
    obtain ⟨⟨a, e⟩, r, rfl, rfl, hlow, hfree, hr, rfl⟩ := run_depositFor h
    exact .relock (.updateUserStake free who) hlow hfree hr

/-- A call moves the escrow, or leaves it as it was. -/
theorem step_moves (s : Escrow AccountId CurrencyId F) (op : Op AccountId) :
    step cfg s op = s ∨ ((op.call cfg).succeeds s = true ∧ Moves cfg s op (step cfg s op)) := by
  rcases (op.call cfg).commit_cases s with ⟨_, h⟩ | ⟨-, h⟩
  · exact .inr ⟨Call.succeeds_iff.mpr ⟨_, _, h⟩, moves_of_run h⟩
  · exact .inl h

end Interbtc.Escrow
