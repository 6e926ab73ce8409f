import Interbtc.Accounting.Calls
import Interbtc.Bridge.Dispatch
import Interbtc.Bridge.Frames

/-!
# What the books are read from

The counters, the issuance and the requests. Moving funds, rewards and collateral leaves
them alone.
-/

namespace Interbtc

open Core MultiCurrency

/-! ## Registry calls that count nothing -/

namespace VaultRegistry

variable {AccountId CurrencyId H256 : Type} [DecidableEq AccountId] [DecidableEq CurrencyId]
  {env : Env AccountId CurrencyId H256} {vaultId : VaultId AccountId CurrencyId}
  {currencyPair : VaultCurrencyPair CurrencyId} {amount : Amount CurrencyId}

/-- Writing the field changes neither a counter nor the status. -/
structure Uncounted (field : Lens Vault ℕ) : Prop where
  isLiquidated : ∀ n d, (field.set n d).isLiquidated = d.isLiquidated
  toBeIssued : ∀ n d, (field.set n d).toBeIssuedTokens = d.toBeIssuedTokens
  issued : ∀ n d, (field.set n d).issuedTokens = d.issuedTokens
  toBeRedeemed : ∀ n d, (field.set n d).toBeRedeemedTokens = d.toBeRedeemedTokens
  toBeReplaced : ∀ n d, (field.set n d).toBeReplacedTokens = d.toBeReplacedTokens

private theorem replaceCollateral_uncounted : Uncounted Vault.ReplaceCollateral :=
  ⟨fun _ _ => rfl, fun _ _ => rfl, fun _ _ => rfl, fun _ _ => rfl, fun _ _ => rfl⟩

private theorem activeReplaceCollateral_uncounted : Uncounted Vault.ActiveReplaceCollateral :=
  ⟨fun _ _ => rfl, fun _ _ => rfl, fun _ _ => rfl, fun _ _ => rfl, fun _ _ => rfl⟩

/-- Collateral of open redeem requests is not counted. -/
theorem liquidatedCollateral_uncounted : Uncounted Vault.LiquidatedCollateral :=
  ⟨fun _ _ => rfl, fun _ _ => rfl, fun _ _ => rfl, fun _ _ => rfl, fun _ _ => rfl⟩

variable {v v' : RichVault AccountId CurrencyId} {s s' : VaultRegistry AccountId CurrencyId}
  {field : Lens Vault ℕ}

private theorem run_increaseUntagged : (v.increaseUntagged field amount).run s = .ok v' s' ↔
    field.get v.data + amount.amount ≤ maxBalance ∧
      v' = ⟨v.id, field.set (field.get v.data + amount.amount) v.data⟩ ∧
      s' = s.setVault v.id (field.set (field.get v.data + amount.amount) v.data) := by
  simp only [RichVault.increaseUntagged, Call.run_bind_eq_ok, Call.run_ensure_eq_ok]
  constructor
  · rintro ⟨_, _, ⟨hle, rfl⟩, h⟩
    exact ⟨hle, RichVault.run_update h⟩
  · rintro ⟨hle, rfl, rfl⟩
    exact ⟨(), s, ⟨hle, rfl⟩, rfl⟩

/-- A field of a vault falls to zero at most. -/
theorem run_decreaseUntagged : (v.decreaseUntagged field amount).run s = .ok v' s' ↔
    amount.amount ≤ field.get v.data ∧
      v' = ⟨v.id, field.set (field.get v.data - amount.amount) v.data⟩ ∧
      s' = s.setVault v.id (field.set (field.get v.data - amount.amount) v.data) := by
  simp only [RichVault.decreaseUntagged, Call.run_bind_eq_ok, Call.run_ensure_eq_ok]
  constructor
  · rintro ⟨_, _, ⟨hle, rfl⟩, h⟩
    exact ⟨hle, RichVault.run_update h⟩
  · rintro ⟨hle, rfl, rfl⟩
    exact ⟨(), s, ⟨hle, rfl⟩, rfl⟩

/-- Writing a field that is not counted changes no counter. -/
theorem counters_setUncounted (hf : Uncounted field) (hc : v.Current s) (n : ℕ) :
    (s.setVault v.id (field.set n v.data)).counters = s.counters :=
  (counters_update hc (f := field.set n) ⟨hf.isLiquidated n _, hf.toBeIssued n _, hf.issued n _,
    hf.toBeRedeemed n _, hf.toBeReplaced n _⟩ (RichVault.update_succeeds _ s)).1

/-- Raising a field that is not counted changes no counter. -/
theorem run_increaseUncounted (hf : Uncounted field) (hc : v.Current s)
    (h : (v.increaseUntagged field amount).run s = .ok v' s') :
    v'.id = v.id ∧ v'.Current s' ∧ s'.counters = s.counters := by
  obtain ⟨-, rfl, rfl⟩ := run_increaseUntagged.mp h
  exact ⟨rfl, RichVault.current_setVault _, counters_setUncounted hf hc _⟩

/-- Lowering a field that is not counted changes no counter. -/
theorem run_decreaseUncounted (hf : Uncounted field) (hc : v.Current s)
    (h : (v.decreaseUntagged field amount).run s = .ok v' s') :
    v'.id = v.id ∧ v'.Current s' ∧ s'.counters = s.counters := by
  obtain ⟨-, rfl, rfl⟩ := run_decreaseUntagged.mp h
  exact ⟨rfl, RichVault.current_setVault _, counters_setUncounted hf hc _⟩

/-! ### Collateral -/

section

omit [DecidableEq AccountId]

private theorem setTotalUserVaultCollateral_counters (n : ℕ) :
    Keeps counters (setTotalUserVaultCollateral currencyPair n :
      RegistryCall AccountId CurrencyId Unit) :=
  .modify fun _ => rfl

private theorem tryIncreaseTotalBackingCollateral_counters :
    Keeps counters (tryIncreaseTotalBackingCollateral env currencyPair amount) :=
  .bind .get fun _ => .bind (.ofExcept _) fun _ => .bind (.ofExcept _) fun _ =>
    .bind (.ofExcept _) fun _ => .bind (.ensure _ _) fun _ =>
      setTotalUserVaultCollateral_counters _

/-- Total collateral is not counted. -/
theorem decreaseTotalBackingCollateral_counters :
    Keeps counters (decreaseTotalBackingCollateral currencyPair amount :
      RegistryCall AccountId CurrencyId Unit) :=
  .bind .get fun _ => .bind (.ofExcept _) fun _ => setTotalUserVaultCollateral_counters _

private theorem tryIncreaseTotalBackingCollateral_vaults :
    Keeps vaults (tryIncreaseTotalBackingCollateral env currencyPair amount) :=
  .bind .get fun _ => .bind (.ofExcept _) fun _ => .bind (.ofExcept _) fun _ =>
    .bind (.ofExcept _) fun _ => .bind (.ensure _ _) fun _ => .modify fun _ => rfl

/-- Total collateral is not stored in vaults. -/
theorem decreaseTotalBackingCollateral_vaults :
    Keeps vaults (decreaseTotalBackingCollateral currencyPair amount :
      RegistryCall AccountId CurrencyId Unit) :=
  .bind .get fun _ => .bind (.ofExcept _) fun _ => .modify fun _ => rfl

/-- The collateral of a liquidation vault is not a counter. -/
theorem counters_setCollateral (p : VaultCurrencyPair CurrencyId) (n : ℕ) :
    (s.setLiquidationVault p (SystemVault.Collateral.set n (s.liquidationVault p))).counters =
      s.counters := by
  refine counters_eq_of_vaults rfl fun q => ?_
  rcases eq_or_ne q p with rfl | hq
  · simp [setLiquidationVault, SystemVault.Collateral]
  · simp [setLiquidationVault, hq]

private theorem increaseCollateral_counters :
    Keeps counters (do
      let s ← get
      let _ ← (s.getRichLiquidationVault currencyPair).increaseCollateral amount :
      RegistryCall AccountId CurrencyId Unit) := by
  intro s u s' h
  simp only [Call.run_bind_eq_ok, Call.run_get_eq_ok, Call.run_pure_eq_ok] at h
  obtain ⟨_, _, ⟨rfl, rfl⟩, _, _, h, -, rfl⟩ := h
  obtain ⟨-, -, -, rfl⟩ := RichSystemVault.run_increase.mp h
  exact counters_setCollateral _ _

private theorem decreaseCollateral_counters :
    Keeps counters (do
      let s ← get
      let _ ← (s.getRichLiquidationVault currencyPair).decreaseCollateral amount
      decreaseTotalBackingCollateral currencyPair amount :
      RegistryCall AccountId CurrencyId Unit) := by
  intro s u s' h
  simp only [Call.run_bind_eq_ok, Call.run_get_eq_ok] at h
  obtain ⟨_, _, ⟨rfl, rfl⟩, _, t, h, h'⟩ := h
  obtain ⟨-, -, -, rfl⟩ := RichSystemVault.run_decrease.mp h
  rw [decreaseTotalBackingCollateral_counters _ _ _ h']
  exact counters_setCollateral _ _

end

/-- A vault is read and one of its uncounted fields is increased. -/
theorem increase_counters {read : VaultRegistry AccountId CurrencyId →
    Except DispatchError (RichVault AccountId CurrencyId)}
    (hread : ∀ s v, read s = .ok v → v.Current s) (hf : Uncounted field) :
    Keeps counters (do let v ← Call.reads read; let _ ← v.increaseUntagged field amount) := by
  intro s u s' h
  simp only [Call.run_bind_eq_ok, Call.run_reads_eq_ok, Call.run_pure_eq_ok] at h
  obtain ⟨v, _, ⟨hv, rfl⟩, _, _, h, -, rfl⟩ := h
  exact (run_increaseUncounted hf (hread _ _ hv) h).2.2

private theorem decrease_counters {read : VaultRegistry AccountId CurrencyId →
    Except DispatchError (RichVault AccountId CurrencyId)}
    (hread : ∀ s v, read s = .ok v → v.Current s) (hf : Uncounted field) :
    Keeps counters (do let v ← Call.reads read; let _ ← v.decreaseUntagged field amount) := by
  intro s u s' h
  simp only [Call.run_bind_eq_ok, Call.run_reads_eq_ok, Call.run_pure_eq_ok] at h
  obtain ⟨v, _, ⟨hv, rfl⟩, _, _, h, -, rfl⟩ := h
  exact (run_decreaseUncounted hf (hread _ _ hv) h).2.2

section

omit [DecidableEq AccountId] [DecidableEq CurrencyId]

private theorem rich_current (s : VaultRegistry AccountId CurrencyId)
    (v : RichVault AccountId CurrencyId)
    (h : s.getRichVaultFromId vaultId = .ok v) : v.Current s :=
  (getRichVaultFromId_eq_ok.mp h).2

private theorem active_current (s : VaultRegistry AccountId CurrencyId)
    (v : RichVault AccountId CurrencyId) (h : s.getActiveRichVaultFromId vaultId = .ok v) :
    v.Current s :=
  (getActiveRichVaultFromId_eq_ok.mp h).2.1

end

/-- Collateral of open redeem requests is not counted. -/
theorem decreaseLiquidatedCollateral_counters :
    Keeps counters (decreaseLiquidatedCollateral vaultId amount) :=
  decrease_counters rich_current liquidatedCollateral_uncounted

/-! ### Settings -/

/-- Bans are not counted. -/
theorem banVault_counters : Keeps counters (banVault env vaultId) := by
  intro s u s' h
  simp only [banVault, Call.run_bind_eq_ok, Call.run_reads_eq_ok, Call.run_pure_eq_ok] at h
  obtain ⟨v, _, ⟨hv, rfl⟩, _, _, h, -, rfl⟩ := h
  exact (counters_update (active_current _ _ hv) ⟨rfl, rfl, rfl, rfl, rfl⟩ h).1

/-- Thresholds are not counted. -/
theorem setCustomSecureThreshold_counters {threshold : Option FixedU128} :
    Keeps counters (do
      let vault ← Call.reads (·.getRichVaultFromId vaultId)
      let _ ← vault.setCustomSecureThreshold threshold) := by
  intro s u s' h
  simp only [Call.run_bind_eq_ok, Call.run_reads_eq_ok, Call.run_pure_eq_ok] at h
  obtain ⟨v, _, ⟨hv, rfl⟩, _, _, h, -, rfl⟩ := h
  exact (counters_update (rich_current _ _ hv) ⟨rfl, rfl, rfl, rfl, rfl⟩ h).1

/-- Whether a vault accepts issue requests is not counted. -/
theorem setAcceptNewIssues_counters {accept : Bool} :
    Keeps counters (do
      let vault ← Call.reads (·.getActiveRichVaultFromId vaultId)
      let _ ← vault.setAcceptNewIssues accept) := by
  intro s u s' h
  simp only [Call.run_bind_eq_ok, Call.run_reads_eq_ok, Call.run_pure_eq_ok] at h
  obtain ⟨v, _, ⟨hv, rfl⟩, _, _, h, -, rfl⟩ := h
  obtain ⟨rfl, hc, hl⟩ := getActiveRichVaultFromId_eq_ok.mp hv
  exact (counters_update hc ⟨by rw [hl]; rfl, rfl, rfl, rfl, rfl⟩ h).1

/-- A new vault counts nothing. -/
theorem counters_register (h : s.vaults vaultId = none) :
    (s.setVault vaultId Vault.new).counters = s.counters := by
  rw [counters_setVault]
  ext1 <;>
    exact Function.update_eq_self_iff.mpr (by simp [counters, h, Vault.new, Vault.isLiquidated])

end VaultRegistry

/-! ## The records of the chain -/

section

variable {AccountId CurrencyId : Type}

/-- What an issue request that is still open owes. -/
def IssueRequest.obligation (r : IssueRequest AccountId CurrencyId) :
    Option (Obligation (VaultId AccountId CurrencyId)) :=
  if r.status = .pending then some ⟨r.vault, r.amount + r.fee⟩ else none

/-- What the vault of an open redeem request burns. -/
def RedeemRequest.obligation (r : RedeemRequest AccountId CurrencyId) :
    Option (Obligation (VaultId AccountId CurrencyId)) :=
  if r.status = .pending then some ⟨r.vault, r.amountBtc + r.transferFeeBtc⟩ else none

/-- What an open replace request moves. -/
def ReplaceRequest.handover (r : ReplaceRequest AccountId CurrencyId) :
    Option (Handover (VaultId AccountId CurrencyId)) :=
  if r.status = .pending then some ⟨r.oldVault, r.newVault, r.amount⟩ else none

end

/-- What the books are read from. -/
structure Records (AccountId CurrencyId H256 : Type) where
  counters : Counters (VaultId AccountId CurrencyId) (VaultCurrencyPair CurrencyId)
  supply : CurrencyId → ℕ
  issueRequests : H256 → Option (IssueRequest AccountId CurrencyId)
  redeemRequests : H256 → Option (RedeemRequest AccountId CurrencyId)
  replaceRequests : H256 → Option (ReplaceRequest AccountId CurrencyId)

/-- The books as they are recorded. -/
def Records.books {AccountId CurrencyId H256 : Type} (r : Records AccountId CurrencyId H256) :
    Books (VaultId AccountId CurrencyId) (VaultCurrencyPair CurrencyId) CurrencyId H256 where
  toCounters := r.counters
  supply := r.supply
  issues h := (r.issueRequests h).bind IssueRequest.obligation
  redeems h := (r.redeemRequests h).bind RedeemRequest.obligation
  replaces h := (r.replaceRequests h).bind ReplaceRequest.handover

namespace Chain

variable {AccountId CurrencyId H256 F Tokens : Type} [DecidableEq AccountId]
  [DecidableEq CurrencyId] [DecidableEq H256] [FixedPointNumber F]
  [MultiCurrency Tokens AccountId CurrencyId] [LawfulMultiCurrency Tokens]
  [CurrencyConfig CurrencyId] [AccountConfig AccountId]

/-- What a chain has recorded. -/
def records (s : Chain AccountId CurrencyId H256 F Tokens) : Records AccountId CurrencyId H256 where
  counters := s.registry.counters
  supply := totalIssuance s.tokens
  issueRequests := s.issueRequests
  redeemRequests := s.redeemRequests
  replaceRequests := s.replaceRequests

/-- The books of a chain. -/
def books (s : Chain AccountId CurrencyId H256 F Tokens) :
    Books (VaultId AccountId CurrencyId) (VaultCurrencyPair CurrencyId) CurrencyId H256 :=
  s.records.books

variable {env : Env AccountId CurrencyId H256} {vaultId : VaultId AccountId CurrencyId}
  {nominatorId : AccountId} {amount : Amount CurrencyId}
  {source target : CurrencySource AccountId CurrencyId}

/-- A call records nothing. -/
abbrev RecordsNothing {α : Type} (x : ChainCall AccountId CurrencyId H256 F Tokens α) : Prop :=
  Keeps records x

section

omit [DecidableEq AccountId] [DecidableEq CurrencyId] [DecidableEq H256] [FixedPointNumber F]
  [LawfulMultiCurrency Tokens] [CurrencyConfig CurrencyId] [AccountConfig AccountId]

/-- A call that stays in the pools records nothing. -/
theorem StaysInPools.recordsNothing {α : Type}
    {x : ChainCall AccountId CurrencyId H256 F Tokens α} (h : StaysInPools x) :
    RecordsNothing x := by
  intro s a s' hrun
  exact congrArg (fun o : Outside AccountId CurrencyId H256 =>
    (⟨o.registry.counters, o.issuance, o.issueRequests, o.redeemRequests, o.replaceRequests⟩ :
      Records AccountId CurrencyId H256)) (h s a s' hrun)

/-- A call on the registry that changes no counter records nothing. -/
theorem onRegistry_recordsNothing {α : Type} {x : RegistryCall AccountId CurrencyId α}
    (h : Keeps VaultRegistry.counters x) :
    RecordsNothing (onRegistry x : ChainCall AccountId CurrencyId H256 F Tokens α) := by
  refine Keeps.zoom_of h fun s t ht => ?_
  change records { s with registry := t } = records s
  unfold records
  congr 1

private theorem onTokens_recordsNothing {α : Type} {x : Call DispatchError Tokens α}
    (h : Keeps (totalIssuance : Tokens → CurrencyId → ℕ) x) :
    RecordsNothing (onTokens x : ChainCall AccountId CurrencyId H256 F Tokens α) := by
  refine Keeps.zoom_of h fun s t ht => ?_
  change records { s with tokens := t } = records s
  unfold records
  congr 1

end

section

omit [DecidableEq H256] [FixedPointNumber F] [CurrencyConfig CurrencyId] [AccountConfig AccountId]

/-- A transfer records nothing. -/
theorem transfer_recordsNothing (x : Amount CurrencyId) (a b : AccountId) :
    RecordsNothing (onTokens (x.transfer a b) : ChainCall AccountId CurrencyId H256 F Tokens _) :=
  onTokens_recordsNothing fun _ _ _ h => (Amount.run_transfer h).1

/-- Locking records nothing. -/
theorem lockOn_recordsNothing (x : Amount CurrencyId) (a : AccountId) :
    RecordsNothing (onTokens (x.lockOn a) : ChainCall AccountId CurrencyId H256 F Tokens _) :=
  onTokens_recordsNothing fun _ _ _ h => (Amount.run_lockOn h).1

/-- Unlocking records nothing. -/
theorem unlockOn_recordsNothing (x : Amount CurrencyId) (a : AccountId) :
    RecordsNothing (onTokens (x.unlockOn a) : ChainCall AccountId CurrencyId H256 F Tokens _) :=
  onTokens_recordsNothing fun _ _ _ h => (Amount.run_unlockOn h).1

end

/-! ### Moving funds -/

section

omit [DecidableEq H256]

/-- A deposit of collateral records nothing. -/
theorem depositCollateral_recordsNothing {n : ℕ} :
    RecordsNothing (depositCollateral env vaultId nominatorId n :
      ChainCall AccountId CurrencyId H256 F Tokens _) := by
  refine .bind (.ite (.pure ()) (.bind ?_ fun _ => transfer_recordsNothing _ _ _)) fun _ =>
    .bind depositPoolCollateral_staysInPools.recordsNothing fun _ =>
      .bind (lockOn_recordsNothing _ _) fun _ =>
        onRegistry_recordsNothing VaultRegistry.tryIncreaseTotalBackingCollateral_counters
  exact .bind .get fun _ => .bind (.ofExcept _) fun _ => .bind (.ofExcept _) fun _ =>
    .bind (.ensure _ _) fun _ => .bind (.ensure _ _) fun _ => .bind (.ofExcept _) fun _ =>
      .ensure _ _

/-- A deposit writes no vault. -/
theorem depositCollateral_vaults {n : ℕ} :
    Keeps (fun s => s.registry.vaults) (depositCollateral env vaultId nominatorId n :
      ChainCall AccountId CurrencyId H256 F Tokens _) := by
  refine .bind (.ite (.pure ()) (.bind ?_ fun _ => .zoom fun _ _ => rfl)) fun _ =>
    .bind (depositPoolCollateral_staysInPools.comp fun o => o.registry.vaults) fun _ =>
      .bind (.zoom fun _ _ => rfl) fun _ =>
        .zoom_of VaultRegistry.tryIncreaseTotalBackingCollateral_vaults fun _ _ h => h
  exact .bind .get fun _ => .bind (.ofExcept _) fun _ => .bind (.ofExcept _) fun _ =>
    .bind (.ensure _ _) fun _ => .bind (.ensure _ _) fun _ => .bind (.ofExcept _) fun _ =>
      .ensure _ _

private theorem slashBackingCollateral_recordsNothing :
    RecordsNothing (slashBackingCollateral env vaultId amount :
      ChainCall AccountId CurrencyId H256 F Tokens _) :=
  .bind (unlockOn_recordsNothing _ _) fun _ =>
    .bind (onRegistry_recordsNothing VaultRegistry.decreaseTotalBackingCollateral_counters)
      fun _ => slashPoolCollateral_staysInPools.recordsNothing

private theorem takeFunds_recordsNothing :
    RecordsNothing (takeFunds env source amount :
      ChainCall AccountId CurrencyId H256 F Tokens _) := by
  cases source with
  | collateral v => exact .bind (.ensure _ _) fun _ => slashBackingCollateral_recordsNothing
  | availableReplaceCollateral v =>
    exact .bind (onRegistry_recordsNothing (VaultRegistry.decrease_counters
      VaultRegistry.active_current VaultRegistry.replaceCollateral_uncounted)) fun _ =>
        unlockOn_recordsNothing _ _
  | activeReplaceCollateral v =>
    exact .bind (onRegistry_recordsNothing (VaultRegistry.decrease_counters
      VaultRegistry.rich_current VaultRegistry.activeReplaceCollateral_uncounted)) fun _ =>
        unlockOn_recordsNothing _ _
  | userGriefing a => exact unlockOn_recordsNothing _ _
  | freeBalance a => exact .pure ()
  | liquidatedCollateral v =>
    exact .bind (onRegistry_recordsNothing
      VaultRegistry.decreaseTotalBackingCollateral_counters) fun _ => unlockOn_recordsNothing _ _
  | liquidationVault p =>
    exact .bind (onRegistry_recordsNothing VaultRegistry.decreaseCollateral_counters) fun _ =>
      unlockOn_recordsNothing _ _

private theorem putFunds_recordsNothing :
    RecordsNothing (putFunds env target amount :
      ChainCall AccountId CurrencyId H256 F Tokens _) := by
  cases target with
  | collateral v => exact .bind (.ensure _ _) fun _ => depositCollateral_recordsNothing
  | availableReplaceCollateral v =>
    exact .bind (onRegistry_recordsNothing (VaultRegistry.increase_counters
      VaultRegistry.active_current VaultRegistry.replaceCollateral_uncounted)) fun _ =>
        lockOn_recordsNothing _ _
  | activeReplaceCollateral v =>
    exact .bind (onRegistry_recordsNothing (VaultRegistry.increase_counters
      VaultRegistry.rich_current VaultRegistry.activeReplaceCollateral_uncounted)) fun _ =>
        lockOn_recordsNothing _ _
  | userGriefing a => exact lockOn_recordsNothing _ _
  | freeBalance a => exact .pure ()
  | liquidatedCollateral v =>
    exact .bind (onRegistry_recordsNothing
      VaultRegistry.tryIncreaseTotalBackingCollateral_counters) fun _ => lockOn_recordsNothing _ _
  | liquidationVault p =>
    exact .bind (onRegistry_recordsNothing (.bind
      VaultRegistry.tryIncreaseTotalBackingCollateral_counters fun _ =>
        VaultRegistry.increaseCollateral_counters)) fun _ => lockOn_recordsNothing _ _

/-- Moving collateral records nothing. -/
theorem transferFunds_recordsNothing :
    RecordsNothing (transferFunds env source target amount :
      ChainCall AccountId CurrencyId H256 F Tokens _) :=
  .bind takeFunds_recordsNothing fun _ => .bind (transfer_recordsNothing _ _ _) fun _ =>
    putFunds_recordsNothing

/-- Moving what there is of some collateral records nothing. -/
theorem transferFundsSaturated_recordsNothing :
    RecordsNothing (transferFundsSaturated env source target amount :
      ChainCall AccountId CurrencyId H256 F Tokens _) :=
  .bind .get fun _ => .bind (.ofExcept _) fun _ => .bind (.ofExcept _) fun _ =>
    .bind transferFunds_recordsNothing fun _ => .pure _

/-- A forced withdrawal of collateral records nothing. -/
theorem forceWithdrawCollateral_recordsNothing :
    RecordsNothing (forceWithdrawCollateral env vaultId amount :
      ChainCall AccountId CurrencyId H256 F Tokens _) :=
  .bind (unlockOn_recordsNothing _ _) fun _ =>
    .bind (onRegistry_recordsNothing VaultRegistry.decreaseTotalBackingCollateral_counters)
      fun _ => .bind withdrawPoolCollateral_staysInPools.recordsNothing fun _ => .pure _

end

omit [DecidableEq H256] [LawfulMultiCurrency Tokens] in
/-- Moving collateral of a liquidated vault writes no vault. -/
theorem transferFunds_vaults {currencyPair : VaultCurrencyPair CurrencyId} :
    Keeps (fun s => s.registry.vaults) (transferFunds env (.liquidatedCollateral vaultId)
      (.liquidationVault currencyPair) amount :
        ChainCall AccountId CurrencyId H256 F Tokens _) := by
  have htokens {α : Type} (x : Call DispatchError Tokens α) : Keeps (fun s => s.registry.vaults)
      (onTokens x : ChainCall AccountId CurrencyId H256 F Tokens α) := .zoom fun _ _ => rfl
  refine .bind (.bind (.zoom_of VaultRegistry.decreaseTotalBackingCollateral_vaults
    fun _ _ h => h) fun _ => htokens _) fun _ => .bind (htokens _) fun _ =>
      .bind (.zoom_of (g := VaultRegistry.vaults) ?_ fun _ _ h => h) fun _ => htokens _
  refine .bind VaultRegistry.tryIncreaseTotalBackingCollateral_vaults fun _ => .bind .get fun s =>
    .bind ?_ fun _ => .pure _
  intro r _ r' h
  obtain ⟨-, -, -, rfl⟩ := RichSystemVault.run_increase.mp h
  rfl

end Chain

end Interbtc
