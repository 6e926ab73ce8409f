import Interbtc.Core.Run
import Interbtc.Currency.Tokens
import Interbtc.Reward.Api

/-!
# Annuities

The balance of an account is paid out over a period. In each block a part of it is distributed to
the stakers of a reward pool. Stakers of the escrow withdraw their rewards from the account, while
rewards of the vaults are moved to the account of the fees first.
-/

namespace Interbtc

open Core MultiCurrency RewardsApi

/-- Errors of the pallet. -/
inductive AnnuityError
  | badOrigin
  | unsupported
  | dispatch (e : DispatchError)
  deriving DecidableEq, Repr

/-- What one instance of the pallet is configured with. -/
structure AnnuityConfig (AccountId CurrencyId : Type) where
  accountId : AccountId
  feeAccountId : AccountId
  nativeCurrencyId : CurrencyId
  wrappedCurrencyId : CurrencyId
  emissionPeriod : ℕ
  account_ne_fee : accountId ≠ feeAccountId

/-- Who has a key; nobody has one of the pallets' accounts. -/
abbrev AnnuityConfig.Signer {AccountId CurrencyId : Type}
    (cfg : AnnuityConfig AccountId CurrencyId) : Type :=
  {who : AccountId // who ≠ cfg.accountId ∧ who ≠ cfg.feeAccountId}

/-- Who calls. -/
inductive AnnuityOrigin {AccountId CurrencyId : Type} (cfg : AnnuityConfig AccountId CurrencyId)
  | root
  | signed (who : cfg.Signer)

/-- The token balances, the reward pool and the rewards of a block. -/
structure Annuity (Tokens Pools : Type) where
  tokens : Tokens
  rewards : Pools
  rewardPerBlock : ℕ
  rewardPerWrapped : Option ℕ

/-- A call of the pallet. -/
abbrev AnnuityCall (Tokens Pools α : Type) : Type := Call AnnuityError (Annuity Tokens Pools) α

/-- How rewards are distributed in a block, and how they are withdrawn. -/
structure BlockRewardProvider (AccountId Tokens Pools : Type) where
  distributeBlockReward : AccountId → ℕ → AnnuityCall Tokens Pools Unit
  withdrawReward : AccountId → AnnuityCall Tokens Pools ℕ

namespace Annuity

variable {AccountId CurrencyId StakeId Tokens Pools α : Type}

/-- The token balances. -/
def tokensLens : Lens (Annuity Tokens Pools) Tokens where
  get s := s.tokens
  set x s := { s with tokens := x }

/-- The reward pools. -/
def rewardsLens : Lens (Annuity Tokens Pools) Pools where
  get s := s.rewards
  set x s := { s with rewards := x }

/-- A call on the token balances. -/
def withTokens (x : Call TokensError Tokens α) : AnnuityCall Tokens Pools α :=
  Call.mapError (fun e => .dispatch (.tokens e)) (tokensLens.zoom x)

/-- A call on the reward pool. -/
def withRewards (x : Call DispatchError Pools α) : AnnuityCall Tokens Pools α :=
  Call.mapError .dispatch (rewardsLens.zoom x)

variable [MultiCurrency Tokens AccountId CurrencyId] (cfg : AnnuityConfig AccountId CurrencyId)

/-! ## The runtime's providers -/

/-- Rewards of the escrow stay on the account of the annuity until they are withdrawn. -/
def escrowBlockRewardProvider [RewardsApi Pools Unit AccountId CurrencyId] :
    BlockRewardProvider AccountId Tokens Pools where
  distributeBlockReward _ amount := withRewards (distributeReward () cfg.nativeCurrencyId amount)
  withdrawReward who := withRewards (withdrawReward () who cfg.nativeCurrencyId)

/-- Rewards of the vaults are moved to the account of the fees. -/
def vaultBlockRewardProvider [RewardsApi Pools Unit CurrencyId CurrencyId] :
    BlockRewardProvider AccountId Tokens Pools where
  distributeBlockReward source amount := do
    withTokens (transfer cfg.nativeCurrencyId source cfg.feeAccountId amount)
    withRewards (distributeReward () cfg.nativeCurrencyId amount)
  withdrawReward _ := throw .unsupported

/-! ## The pallet -/

/-- The reward of a block, bounded by the supply of wrapped tokens where that is set. -/
def minRewardPerBlock (s : Annuity Tokens Pools) : ℕ :=
  match s.rewardPerWrapped with
  | some rewardPerWrapped =>
    min s.rewardPerBlock
      (min (rewardPerWrapped * totalIssuance s.tokens cfg.wrappedCurrencyId) maxBalance)
  | none => s.rewardPerBlock

/-- The reward of a block is distributed. -/
def beginBlock (provider : BlockRewardProvider AccountId Tokens Pools) :
    AnnuityCall Tokens Pools Unit := do
  let s ← get
  provider.distributeBlockReward cfg.accountId (s.minRewardPerBlock cfg)

/-- The hook only prints the error of a block. It is no transaction. -/
def onInitialize (provider : BlockRewardProvider AccountId Tokens Pools) :
    AnnuityCall Tokens Pools Unit := do
  let _ ← (beginBlock cfg provider).attempt

/-- No period gives no reward. -/
def updateRewardPerBlock : AnnuityCall Tokens Pools Unit :=
  modify fun s =>
    let data := balances s.tokens cfg.accountId cfg.nativeCurrencyId
    { s with rewardPerBlock := (data.free + data.reserved) / cfg.emissionPeriod }

variable {cfg}

/-- Only the root may call. -/
def ensureRoot (origin : AnnuityOrigin cfg) : AnnuityCall Tokens Pools Unit :=
  match origin with
  | .root => pure ()
  | .signed _ => throw .badOrigin

/-- Only an account may call. -/
def ensureSigned (origin : AnnuityOrigin cfg) : AnnuityCall Tokens Pools cfg.Signer :=
  match origin with
  | .root => throw .badOrigin
  | .signed who => pure who

/-- Withdraw rewards, and pay them from the account of the pallet. -/
def withdrawRewards (provider : BlockRewardProvider AccountId Tokens Pools)
    (origin : AnnuityOrigin cfg) : AnnuityCall Tokens Pools Unit := do
  let dest ← ensureSigned origin
  let value ← provider.withdrawReward dest.1
  withTokens (transfer cfg.nativeCurrencyId cfg.accountId dest.1 value)

/-- Set the reward of a block anew for a period. -/
def updateRewards (origin : AnnuityOrigin cfg) : AnnuityCall Tokens Pools Unit := do
  ensureRoot origin
  updateRewardPerBlock cfg

/-- Bound the reward of a block by the supply of wrapped tokens. -/
def setRewardPerWrapped (origin : AnnuityOrigin cfg) (rewardPerWrapped : ℕ) :
    AnnuityCall Tokens Pools Unit := do
  ensureRoot origin
  modify fun s => { s with rewardPerWrapped := some rewardPerWrapped }

/-- The hook and the calls of the pallet, changes of the stakes, and what else moves tokens. -/
inductive Op (StakeId : Type) {AccountId CurrencyId : Type}
    (cfg : AnnuityConfig AccountId CurrencyId)
  | onInitialize
  | withdrawRewards (origin : AnnuityOrigin cfg)
  | updateRewards (origin : AnnuityOrigin cfg)
  | setRewardPerWrapped (origin : AnnuityOrigin cfg) (rewardPerWrapped : ℕ)
  | depositStake (stakeId : StakeId) (amount : ℕ)
  | withdrawStake (stakeId : StakeId) (amount : ℕ)
  | transfer (who : cfg.Signer) (dest : AccountId) (currencyId : CurrencyId) (amount : ℕ)
  | mint (dest : AccountId) (currencyId : CurrencyId) (amount : ℕ)

/-- What each call does. -/
def dispatch [RewardsApi Pools Unit StakeId CurrencyId]
    (provider : BlockRewardProvider AccountId Tokens Pools) :
    Op StakeId cfg → AnnuityCall Tokens Pools Unit
  | .onInitialize => onInitialize cfg provider
  | .withdrawRewards origin => withdrawRewards provider origin
  | .updateRewards origin => updateRewards origin
  | .setRewardPerWrapped origin rewardPerWrapped => setRewardPerWrapped origin rewardPerWrapped
  | .depositStake stakeId amount => withRewards (RewardsApi.depositStake () stakeId amount)
  | .withdrawStake stakeId amount => withRewards (RewardsApi.withdrawStake () stakeId amount)
  | .transfer who dest currencyId amount =>
    withTokens (MultiCurrency.transfer currencyId who.1 dest amount)
  | .mint dest currencyId amount => withTokens (MultiCurrency.deposit currencyId dest amount)

/-- One operation as a transaction; the hook never fails. -/
def step [RewardsApi Pools Unit StakeId CurrencyId]
    (provider : BlockRewardProvider AccountId Tokens Pools) (s : Annuity Tokens Pools)
    (op : Op StakeId cfg) : Annuity Tokens Pools :=
  (dispatch provider op).commit s

/-! ## Parts of the storage -/

section Parts

variable {s s' : Annuity Tokens Pools} {a : α} {e : AnnuityError}

/-- A call on the balances changes nothing else. -/
theorem run_withTokens {x : Call TokensError Tokens α} :
    (withTokens x : AnnuityCall Tokens Pools α).run s = .ok a s' ↔
      ∃ t, x.run s.tokens = .ok a t ∧ { s with tokens := t } = s' := by
  rw [withTokens, Call.run_mapError_eq_ok, Lens.run_zoom_eq_ok]
  rfl

/-- A call on the pools changes nothing else. -/
theorem run_withRewards {x : Call DispatchError Pools α} :
    (withRewards x : AnnuityCall Tokens Pools α).run s = .ok a s' ↔
      ∃ r, x.run s.rewards = .ok a r ∧ { s with rewards := r } = s' := by
  rw [withRewards, Call.run_mapError_eq_ok, Lens.run_zoom_eq_ok]
  rfl

/-- A call on the pools that fails changes nothing else. -/
theorem run_withRewards_error {x : Call DispatchError Pools α}
    (h : (withRewards x : AnnuityCall Tokens Pools α).run s = .error e s') :
    ∃ e' r, x.run s.rewards = .error e' r ∧ { s with rewards := r } = s' := by
  obtain ⟨e', h, -⟩ := Call.run_mapError_eq_error.mp h
  obtain ⟨r, h, hr⟩ := Lens.run_zoom_eq_error.mp h
  exact ⟨e', r, h, hr⟩

omit [MultiCurrency Tokens AccountId CurrencyId] in
/-- Only the root passes. -/
theorem run_ensureRoot {origin : AnnuityOrigin cfg}
    {u : Unit} : (ensureRoot origin : AnnuityCall Tokens Pools Unit).run s = .ok u s' ↔
      origin = .root ∧ s = s' := by
  cases origin with
  | root => simp only [ensureRoot, Call.run_pure_eq_ok, true_and]
  | signed who => simp only [ensureRoot, Call.run_throw_eq_ok, reduceCtorEq, false_and]

omit [MultiCurrency Tokens AccountId CurrencyId] in
/-- Only an account passes. -/
theorem run_ensureSigned {origin : AnnuityOrigin cfg}
    {who : cfg.Signer} : (ensureSigned origin : AnnuityCall Tokens Pools _).run s = .ok who s' ↔
      origin = .signed who ∧ s = s' := by
  cases origin with
  | root => simp only [ensureSigned, Call.run_throw_eq_ok, reduceCtorEq, false_and]
  | signed w => simp only [ensureSigned, Call.run_pure_eq_ok, AnnuityOrigin.signed.injEq]

/-- The reward of a block is never above the one that is set. -/
theorem minRewardPerBlock_le : s.minRewardPerBlock cfg ≤ s.rewardPerBlock := by
  unfold minRewardPerBlock
  split
  · exact Nat.min_le_left _ _
  · exact le_rfl

end Parts

end Annuity

end Interbtc
