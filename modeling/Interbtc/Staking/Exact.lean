import Interbtc.Core.SlashOrder
import Interbtc.Staking.Conservation

/-!
# Staking without rounding

Over the rationals no checked operation overflows, so a call fails only where
the pallet itself refuses it.
-/

namespace Interbtc

open Core FixedPointNumber LawfulFixedPoint

section Entries

variable {σ : Type}

/-- Exact additions do not fail. -/
theorem checkedAddMut_neverFails (entry : Lens σ ℚ) (amount : ℚ) :
    (checkedAddMut entry amount).NeverFails := fun _ =>
  ⟨_, _, run_checkedAddMut_eq_ok.mpr ⟨rfl, rfl⟩⟩

/-- Exact subtractions do not fail. -/
theorem checkedSubMut_neverFails (entry : Lens σ ℚ) (amount : ℚ) :
    (checkedSubMut entry amount).NeverFails := fun _ =>
  ⟨_, _, run_checkedSubMut_eq_ok.mpr ⟨rfl, rfl⟩⟩

end Entries

variable {AccountId CurrencyId : Type} [DecidableEq AccountId] [DecidableEq CurrencyId]

namespace Pool

variable {p : Pool AccountId CurrencyId ℚ} {n : AccountId} {c : CurrencyId} {a : ℚ}
  {currencies : List CurrencyId}

omit [DecidableEq CurrencyId] in
private theorem applySlash_neverFails (n : AccountId) :
    (applySlash n : Call DispatchError (Pool AccountId CurrencyId ℚ) ℚ).NeverFails :=
  fun _ => ⟨_, _, rfl⟩

private theorem addStake_neverFails : (addStake currencies n a).NeverFails :=
  .bind (checkedAddMut_neverFails _ _) fun _ => .bind (checkedAddMut_neverFails _ _) fun _ =>
    .bind (checkedAddMut_neverFails _ _) fun _ => .bind .get fun _ =>
      .bind (.pure _) fun _ => .bind (checkedAddMut_neverFails _ _) fun _ =>
        .forM (fun _ => .bind .get fun _ => .bind (.pure _) fun _ =>
          .bind (checkedAddMut_neverFails _ _) fun _ => .pure _) _

private theorem claimReward_neverFails : (claimReward c n :
    Call DispatchError (Pool AccountId CurrencyId ℚ) ℤ).NeverFails :=
  fun _ => ⟨_, _, rfl⟩

omit [DecidableEq AccountId] in
private theorem increaseRewards_neverFails : (increaseRewards c a :
    Call DispatchError (Pool AccountId CurrencyId ℚ) ℚ).NeverFails := by
  intro p
  by_cases h : p.totalCurrentStake = 0
  · refine ⟨0, p, ?_⟩
    simp only [increaseRewards, Call.run_bind_eq_ok, Call.run_get_eq_ok, Call.run_ite_eq_ok,
      Call.run_pure_eq_ok]
    exact ⟨p, p, ⟨rfl, rfl⟩, .inl ⟨h, trivial, rfl⟩⟩
  · obtain ⟨r, p', hr⟩ := checkedAddMut_neverFails (RewardPerToken c)
      (a / p.totalCurrentStake) p
    refine ⟨a, p', ?_⟩
    simp only [increaseRewards, Call.run_bind_eq_ok, Call.run_get_eq_ok, Call.run_ite_eq_ok,
      Call.run_pure_eq_ok, Call.run_ofOption_eq_ok]
    exact ⟨p, p, ⟨rfl, rfl⟩, .inr ⟨h, _, p, ⟨if_neg h, rfl⟩, r, p', hr, trivial, rfl⟩⟩

omit [DecidableEq AccountId] in
private theorem distributeReward_neverFails : (distributeReward c a :
    Call DispatchError (Pool AccountId CurrencyId ℚ) ℚ).NeverFails :=
  .bind increaseRewards_neverFails fun _ => .ite (.pure _)
    (.bind (checkedAddMut_neverFails _ _) fun _ => .pure _)

omit [DecidableEq AccountId] in
/-- A slash is refused only where there is no stake to slash. -/
theorem slashStake_succeeds (currencies : List CurrencyId) (a : ℚ) (htotal : p.totalStake ≠ 0) :
    ∃ u p', (slashStake currencies a).run p = .ok u p' := by
  by_cases ha : a = 0
  · refine ⟨(), p, ?_⟩
    simp only [slashStake, Call.run_bind_eq_ok, Call.run_get_eq_ok, Call.run_ite_eq_ok,
      Call.run_pure_eq_ok]
    exact ⟨p, p, ⟨rfl, rfl⟩, .inl ⟨ha, trivial, rfl⟩⟩
  · obtain ⟨k, p₁, h₁⟩ := checkedAddMut_neverFails SlashPerToken (a / p.totalStake) p
    obtain ⟨t, p₂, h₂⟩ := checkedSubMut_neverFails TotalCurrentStake a p₁
    obtain ⟨u, p₃, h₃⟩ := Call.NeverFails.forM (f := replenishRewards a)
      (fun c => .bind .get fun _ => .bind (.pure _) fun _ =>
        .bind increaseRewards_neverFails fun _ => .pure _) currencies p₂
    refine ⟨u, p₃, ?_⟩
    simp only [slashStake, Call.run_bind_eq_ok, Call.run_get_eq_ok, Call.run_ite_eq_ok,
      Call.run_pure_eq_ok, Call.run_ofOption_eq_ok]
    exact ⟨p, p, ⟨rfl, rfl⟩, .inr ⟨ha, .inr ⟨htotal, _, p, ⟨if_neg htotal, rfl⟩, k, p₁, h₁, t, p₂,
      h₂, h₃⟩⟩⟩

end Pool

namespace Staking

variable {native : CurrencyId} {v : VaultId AccountId CurrencyId} {n : AccountId}
  {s : Staking AccountId CurrencyId ℚ}

omit [DecidableEq CurrencyId] in
/-- The stakes of a vault's current pool. -/
abbrev currentLedger (s : Staking AccountId CurrencyId ℚ) (v : VaultId AccountId CurrencyId) :
    StakeLedger AccountId :=
  (s.pool v (s.nonce v)).ledger

private theorem applySlash_neverFails : (applySlash v n :
    Call DispatchError (Staking AccountId CurrencyId ℚ) ℚ).NeverFails := by
  intro s
  obtain ⟨a, s', h⟩ := Lens.zoom_neverFails (l := poolAt v (s.nonce v))
    (Pool.applySlash_neverFails n) s
  exact ⟨a, s', Call.run_bind_eq_ok.mpr ⟨s, s, rfl, h⟩⟩

/-- Deposits do not fail. -/
theorem depositStake_neverFails (native : CurrencyId) (v : VaultId AccountId CurrencyId)
    (n : AccountId) (a : ℚ) : (depositStake native v n a).NeverFails :=
  .bind .get fun _ => .bind applySlash_neverFails fun _ =>
    Lens.zoom_neverFails Pool.addStake_neverFails

/-- Distributions do not fail. -/
theorem distributeReward_neverFails (c : CurrencyId) (v : VaultId AccountId CurrencyId) (a : ℚ) :
    (distributeReward c v a :
    Call DispatchError (Staking AccountId CurrencyId ℚ) ℚ).NeverFails :=
  .bind .get fun _ => Lens.zoom_neverFails Pool.distributeReward_neverFails

/-- Withdrawals of rewards do not fail. -/
theorem withdrawReward_neverFails (index : Option ℕ) (c : CurrencyId)
    (v : VaultId AccountId CurrencyId) (n : AccountId) :
    (withdrawReward index c v n :
      Call DispatchError (Staking AccountId CurrencyId ℚ) ℤ).NeverFails :=
  .bind .get fun _ => .bind applySlash_neverFails fun _ =>
    Lens.zoom_neverFails Pool.claimReward_neverFails

end Staking

end Interbtc
