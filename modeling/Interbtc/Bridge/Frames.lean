import Interbtc.Bridge.Collateral

/-!
# What the reward and staking pools leave alone

Rewards only move free balances, and the pools only their own storage: whatever is
distributed, staked or slashed, the registry, the requests and the reserved balances stay.
-/

namespace Interbtc

open Core MultiCurrency

variable {AccountId CurrencyId H256 F Tokens : Type} [DecidableEq AccountId]
  [DecidableEq CurrencyId] [DecidableEq H256] [FixedPointNumber F]
  [MultiCurrency Tokens AccountId CurrencyId] [LawfulMultiCurrency Tokens]
  [CurrencyConfig CurrencyId] [AccountConfig AccountId]

/-- What distributing rewards and changing stakes leaves alone. -/
structure Outside (AccountId CurrencyId H256 : Type) where
  registry : VaultRegistry AccountId CurrencyId
  nomination : Nomination AccountId CurrencyId
  commission : VaultId AccountId CurrencyId → Option FixedU128
  issueRequests : H256 → Option (IssueRequest AccountId CurrencyId)
  redeemRequests : H256 → Option (RedeemRequest AccountId CurrencyId)
  replaceRequests : H256 → Option (ReplaceRequest AccountId CurrencyId)
  issuance : CurrencyId → ℕ
  reserved : AccountId → CurrencyId → ℕ
  frozen : AccountId → CurrencyId → ℕ

namespace Chain

/-- What a call that stays in the pools leaves alone. -/
def outside (s : Chain AccountId CurrencyId H256 F Tokens) : Outside AccountId CurrencyId H256 where
  registry := s.registry
  nomination := s.nomination
  commission := s.commission
  issueRequests := s.issueRequests
  redeemRequests := s.redeemRequests
  replaceRequests := s.replaceRequests
  issuance := totalIssuance s.tokens
  reserved a c := (balances s.tokens a c).reserved
  frozen a c := (balances s.tokens a c).frozen

variable {env : Env AccountId CurrencyId H256} {vaultId : VaultId AccountId CurrencyId}
  {nominatorId : AccountId} {currencyId : CurrencyId} {amount : Amount CurrencyId}
  {maybeAmount : Option (Amount CurrencyId)} {index : Option ℕ}

/-! ## Transfers -/

omit [CurrencyConfig CurrencyId] [AccountConfig AccountId] in
/-- A write to one balance that keeps a field keeps it everywhere. -/
theorem modify_field {α : Type} (g : AccountData → α) (f : AccountData → AccountData)
    (hf : ∀ d, g (f d) = g d) (b : Balances AccountId CurrencyId) (a a' : AccountId)
    (c c' : CurrencyId) : g ((Balances.modify a c f b) a' c') = g (b a' c') := by
  unfold Balances.modify
  rcases eq_or_ne a' a with rfl | ha
  · rcases eq_or_ne c' c with rfl | hc
    · simp [hf]
    · simp [hc]
  · simp [ha]

/-- A call on the chain leaves alone what is outside of the pools. -/
abbrev StaysInPools {α : Type} (x : ChainCall AccountId CurrencyId H256 F Tokens α) : Prop :=
  Keeps outside x

omit [DecidableEq H256] [FixedPointNumber F] [CurrencyConfig CurrencyId] [AccountConfig AccountId]
  in
private theorem transfer_staysInPools (x : Amount CurrencyId) (a b : AccountId) :
    StaysInPools (onTokens (x.transfer a b) : ChainCall AccountId CurrencyId H256 F Tokens _) := by
  intro s u s' h
  obtain ⟨t, ht, rfl⟩ := Lens.run_zoom_eq_ok.mp h
  obtain ⟨hissuance, hbalances⟩ := Amount.run_transfer ht
  change outside { s with tokens := t } = outside s
  unfold outside
  congr 1
  · rw [hbalances]
    split
    · rfl
    · funext a' c'
      exact (modify_field AccountData.reserved (AccountData.credit x.amount) (fun _ => rfl)
        _ b a' _ c').trans (modify_field _ (AccountData.debit x.amount) (fun _ => rfl) _ a a' _ c')
  · rw [hbalances]
    split
    · rfl
    · funext a' c'
      exact (modify_field AccountData.frozen (AccountData.credit x.amount) (fun _ => rfl)
        _ b a' _ c').trans (modify_field _ (AccountData.debit x.amount) (fun _ => rfl) _ a a' _ c')

/-! ## Rewards -/

omit [DecidableEq AccountId] [DecidableEq H256] [LawfulMultiCurrency Tokens]
  [AccountConfig AccountId] in
private theorem distribute_staysInPools :
    StaysInPools (distribute amount : ChainCall AccountId CurrencyId H256 F Tokens _) := by
  refine .bind (Frames.attempt (.zoom fun _ _ => rfl)).ok fun r => ?_
  cases r <;> exact .pure _

section

omit [DecidableEq H256]

/-- Distributing rewards stays in the pools. -/
theorem distributeRewards_staysInPools :
    StaysInPools (distributeRewards amount : ChainCall AccountId CurrencyId H256 F Tokens _) :=
  .bind distribute_staysInPools fun _ => .ite (.pure _) (transfer_staysInPools _ _ _)

private theorem distributeVaultRewards_staysInPools :
    StaysInPools (distributeVaultRewards vaultId currencyId :
      ChainCall AccountId CurrencyId H256 F Tokens _) :=
  .bind (.zoom fun _ _ => rfl) fun _ => .bind (.zoom fun _ _ => rfl) fun _ =>
    .bind (.zoom fun _ _ => rfl) fun _ => .bind .get fun _ => .bind (.ofExcept _) fun _ =>
      .bind (transfer_staysInPools _ _ _) fun _ => .bind (.ofExcept _) fun _ =>
        .zoom fun _ _ => rfl

private theorem distributeAllVaultRewards_staysInPools :
    StaysInPools (distributeAllVaultRewards vaultId :
      ChainCall AccountId CurrencyId H256 F Tokens _) :=
  .bind distributeVaultRewards_staysInPools fun _ => distributeVaultRewards_staysInPools

/-- Withdrawing rewards stays in the pools. -/
theorem withdrawVaultRewards_staysInPools :
    StaysInPools (withdrawVaultRewards vaultId nominatorId index currencyId :
      ChainCall AccountId CurrencyId H256 F Tokens _) :=
  .bind distributeVaultRewards_staysInPools fun _ => .bind (.zoom fun _ _ => rfl) fun _ =>
    transfer_staysInPools _ _ _

end

/-! ## Stakes -/

omit [DecidableEq AccountId] [DecidableEq H256] [LawfulMultiCurrency Tokens]
  [AccountConfig AccountId] in
/-- Updating the stake of a currency changes pools only. -/
theorem updateCapacityStake_frames :
    Frames outside (updateCapacityStake env currencyId :
      ChainCall AccountId CurrencyId H256 F Tokens _) :=
  .bind .get fun _ => .bind (.ofExcept _) fun _ => .bind (.ofExcept _) fun _ =>
    .zoom fun _ _ => rfl

section

omit [DecidableEq H256] [LawfulMultiCurrency Tokens] [AccountConfig AccountId]

private theorem updateRewardStake_staysInPools :
    StaysInPools (updateRewardStake env vaultId :
      ChainCall AccountId CurrencyId H256 F Tokens _) :=
  .bind .get fun _ => .bind (.ofExcept _) fun _ =>
    .bind (.ite (.bind (.ofExcept _) fun _ => .bind (.ofExcept _) fun _ => .ofExcept _)
      (.pure _)) fun _ =>
      .bind (.zoom fun _ _ => rfl) fun _ => updateCapacityStake_frames.ok

private theorem withdrawStake_staysInPools :
    StaysInPools (withdrawStake vaultId nominatorId maybeAmount index :
      ChainCall AccountId CurrencyId H256 F Tokens _) := by
  cases maybeAmount with
  | none => exact .bind (.zoom fun _ _ => rfl) fun _ => .pure _
  | some x => exact .bind (.zoom fun _ _ => rfl) fun _ => .pure _

end

section

omit [DecidableEq H256]

/-- A deposit into the pools stays in them. -/
theorem depositPoolCollateral_staysInPools :
    StaysInPools (depositPoolCollateral env vaultId nominatorId amount :
      ChainCall AccountId CurrencyId H256 F Tokens _) :=
  .bind distributeAllVaultRewards_staysInPools fun _ => .bind (.zoom fun _ _ => rfl) fun _ =>
    updateRewardStake_staysInPools

/-- A withdrawal from the pools stays in them. -/
theorem withdrawPoolCollateral_staysInPools :
    StaysInPools (withdrawPoolCollateral env vaultId nominatorId maybeAmount index :
      ChainCall AccountId CurrencyId H256 F Tokens _) :=
  .bind distributeAllVaultRewards_staysInPools fun _ => .bind withdrawStake_staysInPools fun _ =>
    .bind updateRewardStake_staysInPools fun _ => .pure _

/-- A slash of the pools stays in them. -/
theorem slashPoolCollateral_staysInPools :
    StaysInPools (slashPoolCollateral env vaultId amount :
      ChainCall AccountId CurrencyId H256 F Tokens _) :=
  .bind distributeAllVaultRewards_staysInPools fun _ => .bind (.zoom fun _ _ => rfl) fun _ =>
    updateRewardStake_staysInPools

/-- Refunding nominators stays in the pools. -/
theorem kickNominators_staysInPools :
    StaysInPools (kickNominators env vaultId :
      ChainCall AccountId CurrencyId H256 F Tokens _) :=
  .bind distributeAllVaultRewards_staysInPools fun _ => .bind (.zoom fun _ _ => rfl) fun _ =>
    .bind updateRewardStake_staysInPools fun _ => .pure _

/-- A change of the settings of a vault stays in the pools. -/
theorem onVaultSettingsChange_staysInPools :
    StaysInPools (onVaultSettingsChange env vaultId :
      ChainCall AccountId CurrencyId H256 F Tokens _) :=
  .bind distributeAllVaultRewards_staysInPools fun _ => updateRewardStake_staysInPools

end

end Chain

end Interbtc
