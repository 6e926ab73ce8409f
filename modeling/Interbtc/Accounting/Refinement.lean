import Interbtc.Accounting.Issuing
import Interbtc.Accounting.Redeeming
import Interbtc.Accounting.Replacing

/-!
# The chain keeps the books

Every dispatched call changes the books step by step, except that executing a cancelled
replace takes tokens over and that a vault can be recovered.
-/

namespace Interbtc.Chain

open Core MultiCurrency

variable {AccountId CurrencyId H256 F Tokens : Type} [DecidableEq AccountId]
  [DecidableEq CurrencyId] [DecidableEq H256] [FixedPointNumber F]
  [MultiCurrency Tokens AccountId CurrencyId] [LawfulMultiCurrency Tokens]
  [CurrencyConfig CurrencyId] [AccountConfig AccountId]
  {s s' : Chain AccountId CurrencyId H256 F Tokens} {env : Env AccountId CurrencyId H256}
  {op : Op AccountId CurrencyId H256} {d : Dispatch AccountId CurrencyId H256} {u : Unit}

/-! ## Calls that do not touch the books -/

section

omit [DecidableEq H256]

private theorem withdrawCollateral_recordsNothing {vaultId : VaultId AccountId CurrencyId}
    {nominatorId : AccountId} {amount index : Option ℕ} :
    RecordsNothing (withdrawCollateral env vaultId nominatorId amount index :
      ChainCall AccountId CurrencyId H256 F Tokens _) := by
  refine .bind .get fun s => .bind (.ite ?_ (.pure _)) fun _ =>
    .bind withdrawPoolCollateral_staysInPools.recordsNothing fun _ =>
      .bind (unlockOn_recordsNothing _ _) fun _ => .bind (transfer_recordsNothing _ _ _) fun _ =>
        onRegistry_recordsNothing VaultRegistry.decreaseTotalBackingCollateral_counters
  exact .bind .get fun _ => .bind (.ofExcept _) fun _ => .bind (.ensure _ _) fun _ =>
    .ite (.pure _) (.bind (.ensure _ _) fun _ => .ensure _ _)

private theorem optOutOfNomination_recordsNothing {vaultId : VaultId AccountId CurrencyId} :
    RecordsNothing (optOutOfNomination env vaultId :
      ChainCall AccountId CurrencyId H256 F Tokens _) :=
  .bind .get fun _ => .bind (.ensure _ _) fun _ => .bind (.ofExcept _) fun _ =>
    .bind (.ofExcept _) fun _ => .bind (.ensure _ _) fun _ =>
      .bind kickNominators_staysInPools.recordsNothing fun _ =>
        .bind (onRegistry_recordsNothing VaultRegistry.decreaseTotalBackingCollateral_counters)
          fun _ => .modify fun _ => rfl

private theorem registerVault_recordsNothing {vaultId : VaultId AccountId CurrencyId}
    {collateral : ℕ} :
    RecordsNothing (registerVault env vaultId collateral :
      ChainCall AccountId CurrencyId H256 F Tokens _) := by
  refine .bind (.ensure _ _) fun _ => .bind (.ensure _ _) fun _ => .bind (.ensure _ _) fun _ =>
    .bind (.ensure _ _) fun _ => .bind (.ensure _ _) fun _ => .bind (.ofExcept _) fun _ =>
      .bind (.ofExcept _) fun _ => .bind (.ensure _ _) fun _ =>
        .bind (onRegistry_recordsNothing ?_) fun _ => depositCollateral_recordsNothing
  intro r u r' h
  simp only [Call.run_bind_eq_ok, Call.run_get_eq_ok, Call.run_ensure_eq_ok, Call.run_set_eq_ok,
    and_assoc, exists_and_left, exists_eq_left', exists_const] at h
  obtain ⟨hnew, rfl⟩ := h
  exact VaultRegistry.counters_register (Option.isNone_iff_eq_none.mp hnew)

end

/-! ## Dispatched calls -/

omit [FixedPointNumber F] [LawfulMultiCurrency Tokens] [CurrencyConfig CurrencyId]
  [AccountConfig AccountId] in
private theorem Continues.valid (h : Continues s s') (hvalid : s.ReplacesValid) :
    s'.ReplacesValid := by
  intro id r hr
  rw [h.replaces] at hr
  exact hvalid id r hr

/-- A call that was dispatched has changed the books in one of three ways. -/
inductive Change (s : Chain AccountId CurrencyId H256 F Tokens) (op : Op AccountId CurrencyId H256)
    (s' : Chain AccountId CurrencyId H256 F Tokens) : Prop
  | steps (h : Books.Steps pairOf wrappedOf s.books s'.books)
  | takeOver (id : H256) (payment : BtcAddress → ℕ → H256 → Except DispatchError Unit)
      (r : ReplaceRequest AccountId CurrencyId) (hop : op = .executeReplace id payment)
      (hr : s.replaceRequests id = some r) (hs : r.status = .cancelled)
      (h : s.books.TakeOver pairOf wrappedOf r.oldVault r.newVault r.amount s'.books)
  | recovery (v : VaultId AccountId CurrencyId) (hop : op = .recoverVaultId v)
      (h : s.books.Recovery v s'.books)

private theorem dispatch_books (hvalid : s.ReplacesValid) (h : (dispatch env op).run s = .ok u s') :
    s'.ReplacesValid ∧ Change s op s' := by
  have hcontinues (hc : Continues s s') : s'.ReplacesValid ∧ Change s op s' :=
    ⟨hc.valid hvalid, .steps hc.steps⟩
  have hnothing (hk : RecordsNothing (dispatch env op : ChainCall AccountId CurrencyId H256 F Tokens _)) :
      s'.ReplacesValid ∧ Change s op s' := hcontinues (.of_records (hk _ _ _ h))
  cases op with
  | transfer => exact hnothing (transfer_recordsNothing _ _ _)
  | onExchangeRateChange =>
    exact hnothing (StaysInPools.recordsNothing
      (.bind (Frames.attempt updateCapacityStake_frames).ok fun _ => .pure _))
  | registerVault => exact hnothing registerVault_recordsNothing
  | acceptNewIssues =>
    exact hnothing (.bind (onRegistry_recordsNothing VaultRegistry.setAcceptNewIssues_counters)
      fun _ => onVaultSettingsChange_staysInPools.recordsNothing)
  | setCustomSecureThreshold v threshold =>
    refine hnothing (.bind ?_ fun _ =>
      .bind (onRegistry_recordsNothing VaultRegistry.setCustomSecureThreshold_counters) fun _ =>
        onVaultSettingsChange_staysInPools.recordsNothing)
    cases threshold with
    | none => exact .pure _
    | some t => exact .bind (.ofOption _ _) fun _ => .ensure _ _
  | reportUndercollateralizedVault => exact hcontinues (reportUndercollateralizedVault_books h)
  | recoverVaultId v =>
    obtain ⟨hr, hreplaces⟩ := recoverVaultId_books h
    exact ⟨fun id r hid => hvalid id r (hreplaces ▸ hid), .recovery v rfl hr⟩
  | optInToNomination =>
    exact hnothing (.bind .get fun _ => .bind (.ensure _ _) fun _ => .bind (.ensure _ _) fun _ =>
      .bind (.ensure _ _) fun _ => .modify fun _ => rfl)
  | optOutOfNomination => exact hnothing optOutOfNomination_recordsNothing
  | depositCollateral => exact hnothing depositCollateral_recordsNothing
  | withdrawCollateral => exact hnothing withdrawCollateral_recordsNothing
  | setNominationLimit => exact hnothing (.modify fun _ => rfl)
  | setCommission =>
    exact hnothing (.bind .get fun _ => .bind (.ensure _ _) fun _ => .bind (.ensure _ _) fun _ =>
      .modify fun _ => rfl)
  | withdrawRewards =>
    exact hnothing (.bind withdrawVaultRewards_staysInPools.recordsNothing fun _ =>
      withdrawVaultRewards_staysInPools.recordsNothing)
  | requestIssue => exact hcontinues (requestIssue_books h)
  | executeIssue => exact hcontinues (executeIssue_books h)
  | cancelIssue => exact hcontinues (cancelIssue_books h)
  | requestRedeem => exact hcontinues (requestRedeem_books h)
  | liquidationRedeem => exact hcontinues (liquidationRedeem_books h)
  | executeRedeem => exact hcontinues (executeRedeem_books h)
  | cancelRedeem => exact hcontinues (cancelRedeem_books h)
  | mintTokensForReimbursedRedeem => exact hcontinues (mintTokensForReimbursedRedeem_books h)
  | selfRedeem => exact hcontinues (selfRedeem_books h)
  | requestReplace => exact hcontinues (requestReplace_books h)
  | withdrawReplace => exact hcontinues (withdrawReplace_books h)
  | acceptReplace =>
    obtain ⟨hsteps, hvalid'⟩ := acceptReplace_books hvalid h
    exact ⟨hvalid', .steps hsteps⟩
  | executeReplace id payment =>
    obtain ⟨hvalid', r, hr, ⟨-, hsteps⟩ | ⟨hs, htake⟩⟩ := executeReplace_books hvalid h
    · exact ⟨hvalid', .steps hsteps⟩
    · exact ⟨hvalid', .takeOver id payment r rfl hr hs htake⟩
  | cancelReplace =>
    obtain ⟨hsteps, hvalid'⟩ := cancelReplace_books hvalid h
    exact ⟨hvalid', .steps hsteps⟩

/-- A call that fails changes nothing. -/
theorem step_books (hvalid : s.ReplacesValid) (d : Dispatch AccountId CurrencyId H256) :
    (step s d).ReplacesValid ∧ Change s d.2 (step s d) := by
  obtain ⟨u, h⟩ | ⟨-, hs⟩ := Call.commit_cases (dispatch d.1 d.2) s
  · exact dispatch_books hvalid h
  · have hsame : step s d = s := hs
    rw [hsame]
    exact ⟨hvalid, .steps .refl⟩

omit [DecidableEq AccountId] [DecidableEq CurrencyId] [DecidableEq H256]
  [MultiCurrency Tokens AccountId CurrencyId] [LawfulMultiCurrency Tokens]
  [CurrencyConfig CurrencyId] [AccountConfig AccountId] in
/-- At first there are no replace requests. -/
theorem genesis_valid (tokens : Tokens) :
    (genesis tokens : Chain AccountId CurrencyId H256 F Tokens).ReplacesValid := by
  rintro id r ⟨⟩

end Interbtc.Chain
