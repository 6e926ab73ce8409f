import Interbtc.Accounting.Invariants
import Interbtc.Accounting.Refinement

/-!
# Tokens to be issued cover the open requests

The tokens to be issued by a vault, or by the liquidation vault once it is liquidated, are
at least those of the open requests, so that these can be executed or cancelled. A
recovered vault starts from nothing while its open requests stay with the liquidation
vault: recovery keeps the cover only where nothing is open.
-/

namespace Interbtc

open Core MultiCurrency

/-- The vault that a call recovers. -/
def Op.recoveredVault {AccountId CurrencyId H256 : Type} :
    Op AccountId CurrencyId H256 → Option (VaultId AccountId CurrencyId)
  | .recoverVaultId vaultId => some vaultId
  | _ => none

namespace Chain

variable {AccountId CurrencyId H256 F Tokens : Type} [DecidableEq AccountId]
  [DecidableEq CurrencyId] [DecidableEq H256] [FixedPointNumber F]
  [MultiCurrency Tokens AccountId CurrencyId] [CurrencyConfig CurrencyId]
  [AccountConfig AccountId] {s s' : Chain AccountId CurrencyId H256 F Tokens}
  {d : Dispatch AccountId CurrencyId H256} {v : VaultId AccountId CurrencyId} {vault : Vault}

/-! ## What is due -/

section Due

variable [Fintype H256]

/-- What a vault has to issue for the pending requests of users. -/
def pendingIssues (s : Chain AccountId CurrencyId H256 F Tokens)
    (v : VaultId AccountId CurrencyId) : ℕ :=
  ∑ issueId, (s.issueRequests issueId).elim 0 fun r =>
    if r.status = .pending ∧ r.vault = v then r.amount + r.fee else 0

/-- What a vault has to issue for the pending replace requests it has accepted. -/
def pendingAcceptedReplaces (s : Chain AccountId CurrencyId H256 F Tokens)
    (v : VaultId AccountId CurrencyId) : ℕ :=
  ∑ replaceId, (s.replaceRequests replaceId).elim 0 fun r =>
    if r.status = .pending ∧ r.newVault = v then r.amount else 0

/-- What the open requests will issue. -/
def pendingToBeIssued (s : Chain AccountId CurrencyId H256 F Tokens)
    (v : VaultId AccountId CurrencyId) : ℕ :=
  s.pendingIssues v + s.pendingAcceptedReplaces v

omit [DecidableEq H256] [FixedPointNumber F] [CurrencyConfig CurrencyId] [AccountConfig AccountId]
  in
private theorem issueDue_eq [Fintype AccountId] [Fintype CurrencyId] :
    s.books.issueDue = s.pendingToBeIssued := by
  funext v
  refine congrArg₂ (· + ·) (Finset.sum_congr rfl fun id _ => ?_)
    (Finset.sum_congr rfl fun id _ => ?_)
  · change ((s.issueRequests id).bind IssueRequest.obligation).elim 0 _ = _
    cases s.issueRequests id with
    | none => rfl
    | some r =>
      simp only [Option.bind_some, IssueRequest.obligation, Option.elim_some]
      by_cases hs : r.status = .pending <;> simp [hs, Obligation.owes]
  · change ((s.replaceRequests id).bind ReplaceRequest.handover).elim 0 _ = _
    cases s.replaceRequests id with
    | none => rfl
    | some r =>
      simp only [Option.bind_some, ReplaceRequest.handover, Option.elim_some]
      by_cases hs : r.status = .pending <;> simp [hs, Handover.owesNew]

/-- A vault is recovered only when it has nothing to issue. -/
def RecoversIdle (s : Chain AccountId CurrencyId H256 F Tokens)
    (d : Dispatch AccountId CurrencyId H256) : Prop :=
  ∀ v ∈ d.2.recoveredVault, ∀ vault ∈ s.registry.vaults v,
    vault.isLiquidated = true → vault.toBeRedeemedTokens = 0 → s.pendingToBeIssued v = 0

instance (s : Chain AccountId CurrencyId H256 F Tokens) (d : Dispatch AccountId CurrencyId H256) :
    Decidable (s.RecoversIdle d) :=
  inferInstanceAs (Decidable (∀ v ∈ d.2.recoveredVault, _))

end Due

/-- The tokens to be issued by the active vaults and by the liquidation vaults are at least
those of the pending requests. -/
structure IssuesCovered [Fintype AccountId] [Fintype CurrencyId] [Fintype H256]
    (s : Chain AccountId CurrencyId H256 F Tokens) : Prop where
  active : ∀ v vault, s.registry.vaults v = some vault → vault.isLiquidated = false →
    s.pendingToBeIssued v ≤ vault.toBeIssuedTokens
  liquidated : ∀ p, ∑ v : VaultId AccountId CurrencyId,
    (if (s.registry.vaults v).elim false Vault.isLiquidated = true ∧ v.currencies = p then
      s.pendingToBeIssued v else 0) ≤ (s.registry.liquidationVault p).toBeIssuedTokens

/-- A pending issue request is executed with the exact payment, or cancelled after its period,
without an arithmetic underflow. -/
structure SettlesIssues (s : Chain AccountId CurrencyId H256 F Tokens) : Prop where
  executes : ∀ (env : Env AccountId CurrencyId H256) (executor : AccountId) (issueId : H256)
    (payment : BtcAddress → Except DispatchError ℕ) (r : IssueRequest AccountId CurrencyId),
    s.issueRequests issueId = some r → r.status = .pending →
    payment r.btcAddress = .ok (r.amount + r.fee) →
    (executeIssue env executor issueId payment).error? s ≠ some (.arithmetic .underflow)
  cancels : ∀ (env : Env AccountId CurrencyId H256) (canceller : AccountId) (issueId : H256)
    (r : IssueRequest AccountId CurrencyId),
    s.issueRequests issueId = some r → r.status = .pending →
    env.hasRequestExpired r.opentime r.btcHeight (max env.issuePeriod r.period) = .ok true →
    (cancelIssue env canceller issueId).error? s ≠ some (.arithmetic .underflow)

/-! ## The cover is kept -/

section Runs

variable [LawfulMultiCurrency Tokens] [Fintype AccountId] [Fintype CurrencyId] [Fintype H256]

/-- What holds in every state of a run that recovers idle vaults only. -/
structure Covering (s : Chain AccountId CurrencyId H256 F Tokens) : Prop where
  valid : s.ReplacesValid
  covered : s.books.Covered pairOf

omit [DecidableEq H256] [CurrencyConfig CurrencyId] [AccountConfig AccountId]
  [LawfulMultiCurrency Tokens] in
/-- At first nothing is to be issued. -/
theorem genesis_covering (tokens : Tokens) :
    (genesis tokens : Chain AccountId CurrencyId H256 F Tokens).Covering where
  valid := genesis_valid tokens
  covered :=
    { active := fun _ _ => (Nat.add_eq_zero_iff.mpr ⟨due_empty _, due_empty _⟩).le
      pooled := fun _ => (pooled_none _).le }

/-- A call that recovers idle vaults only keeps what is to be issued covered. -/
theorem step_covering (hs : s.Covering) (hidle : s.RecoversIdle d) : (step s d).Covering := by
  obtain ⟨hvalid, hchange⟩ := step_books hs.valid d
  refine ⟨hvalid, ?_⟩
  cases hchange with
  | steps h => exact h.preserves Books.Step.covered hs.covered
  | takeOver id payment r hop hr hc h => exact h.covered hs.covered
  | recovery v hop h =>
    refine h.covered hs.covered ?_
    rw [issueDue_eq]
    have hliquidated : (s.registry.vaults v).elim false Vault.isLiquidated = true := h.liquidated
    have hredeemed : (s.registry.vaults v).elim 0 Vault.toBeRedeemedTokens = 0 := h.redeemed
    cases hv : s.registry.vaults v with
    | none =>
      rw [hv] at hliquidated
      exact absurd hliquidated Bool.false_ne_true
    | some vault =>
      rw [hv] at hliquidated hredeemed
      exact hidle v (by rw [hop]; rfl) vault hv hliquidated hredeemed

section

omit [DecidableEq H256] [FixedPointNumber F] [CurrencyConfig CurrencyId] [AccountConfig AccountId]
  [LawfulMultiCurrency Tokens]

private theorem Covering.issuesCovered (hs : s.Covering) : s.IssuesCovered where
  active v vault hv hactive := by
    have h := hs.covered.active v
      (by simp [books, Records.books, records, VaultRegistry.counters, hv, hactive])
    rw [issueDue_eq] at h
    simpa [books, Records.books, records, VaultRegistry.counters, hv] using h
  liquidated p := by
    have h := hs.covered.pooled p
    rw [issueDue_eq] at h
    exact h

/-- A pending request is counted where its vault counts the tokens to be issued. -/
theorem Covering.enough {issueId : H256} {r : IssueRequest AccountId CurrencyId} (hs : s.Covering)
    (hr : s.issueRequests issueId = some r) (hp : r.status = .pending) :
    r.amount + r.fee ≤
      s.registry.counters.toBeIssued (s.registry.counters.home pairOf r.vault) := by
  have hopen : s.books.issues issueId = some ⟨r.vault, r.amount + r.fee⟩ := by
    change (s.issueRequests issueId).bind IssueRequest.obligation = _
    rw [hr, Option.bind_some, IssueRequest.obligation, if_pos hp]
  have howes := owes_le_due Obligation.owes hopen r.vault
  simp only [Obligation.owes, if_true] at howes
  have hdue : r.amount + r.fee ≤ s.books.issueDue r.vault := howes.trans (Nat.le_add_right _ _)
  cases hl : s.registry.counters.isLiquidated r.vault with
  | false =>
    rw [Counters.home_of_active _ hl]
    exact hdue.trans (hs.covered.active r.vault hl)
  | true =>
    rw [Counters.home_of_liquidated _ hl]
    exact (hdue.trans (le_pooled hl)).trans (hs.covered.pooled (pairOf r.vault))

end

end Runs

/-! ## Settling without an underflow -/

section Settling

variable [LawfulMultiCurrency Tokens] {env : Env AccountId CurrencyId H256}
  {x y : Amount CurrencyId} {a b : AccountId}
  {issueId : H256} {issue : IssueRequest AccountId CurrencyId}

/-- Any error but an arithmetic underflow. -/
def NoUnderflow (e : DispatchError) : Prop := e ≠ .arithmetic .underflow

section

omit [CurrencyConfig CurrencyId]

private theorem checkedAdd_noUnderflow (e : DispatchError) (h : x.checkedAdd y = .error e) :
    NoUnderflow e := by
  rcases Amount.checkedAdd_eq_error.mp h with ⟨-, rfl⟩ | ⟨-, -, rfl⟩ <;> exact nofun

end

section

omit [DecidableEq AccountId] [DecidableEq CurrencyId] [DecidableEq H256] [FixedPointNumber F]
  [CurrencyConfig CurrencyId] [AccountConfig AccountId] [LawfulMultiCurrency Tokens]

private theorem unlockOn_noUnderflow : RaisesOnly NoUnderflow (onTokens (x.unlockOn a)) s :=
  .zoom (.get_bind (.bind (.of_neverFails fun _ => ⟨_, _, rfl⟩) fun _ _ _ =>
    .ensure fun _ => nofun))

private theorem transfer_noUnderflow : RaisesOnly NoUnderflow (onTokens (x.transfer a b)) s :=
  .zoom (.mapError fun _ => nofun)

private theorem mintTo_noUnderflow : RaisesOnly NoUnderflow (onTokens (x.mintTo a)) s :=
  .zoom (.mapError fun _ => nofun)

end

section

omit [DecidableEq AccountId] [DecidableEq H256] [LawfulMultiCurrency Tokens]

private theorem distributeRewards_noUnderflow : RaisesOnly NoUnderflow (distributeRewards x) s := by
  refine .bind (.of_neverFails (.bind (Call.attempt_neverFails _) fun r => ?_)) fun _ _ _ =>
    .ite (fun _ => .pure _) fun _ => transfer_noUnderflow
  cases r with
  | ok _ => exact .pure _
  | error _ => exact .pure _

end

section

omit [DecidableEq AccountId] [DecidableEq CurrencyId] [CurrencyConfig CurrencyId]
  [AccountConfig AccountId]

private theorem getRichVaultFromId_noUnderflow {r : VaultRegistry AccountId CurrencyId}
    (e : DispatchError) (h : r.getRichVaultFromId v = .error e) : NoUnderflow e := by
  simp only [VaultRegistry.getRichVaultFromId, VaultRegistry.getVaultFromId, except_bind_eq_error,
    except_pure_eq_error, and_false, exists_false, or_false, okOr_eq_error] at h
  obtain ⟨-, rfl⟩ := h
  rintro ⟨⟩

end

section

omit [CurrencyConfig CurrencyId] [AccountConfig AccountId]

private theorem increaseIssued_noUnderflow {r : VaultRegistry AccountId CurrencyId}
    {w : RichVault AccountId CurrencyId} : RaisesOnly NoUnderflow (w.increaseIssued x) r :=
  .ite (fun _ => .get_bind (.bind (.ofExcept_bind checkedAdd_noUnderflow fun _ _ =>
      .of_neverFails fun _ => ⟨_, _, rfl⟩) fun _ _ _ => .pure _))
    fun _ => .ofExcept_bind checkedAdd_noUnderflow fun _ _ => .of_neverFails fun _ => ⟨_, _, rfl⟩

private theorem decreaseToBeIssuedTokens_noUnderflow {r : VaultRegistry AccountId CurrencyId}
    (hcur : v.wrappedCurrency = x.currencyId)
    (hle : x.amount ≤ r.counters.toBeIssued (r.counters.home pairOf v)) :
    RaisesOnly NoUnderflow (VaultRegistry.decreaseToBeIssuedTokens v x) r := by
  refine .reads_bind getRichVaultFromId_noUnderflow fun w hw => .bind (.of_succeeds ?_)
    fun _ _ _ => .pure _
  obtain ⟨rfl, hc⟩ := VaultRegistry.getRichVaultFromId_eq_ok.mp hw
  exact (RichVault.decreaseToBeIssued_succeeds hc).mpr ⟨hcur, by rwa [← hc.home]⟩

private theorem issueTokens_noUnderflow {r : VaultRegistry AccountId CurrencyId}
    (hcur : v.wrappedCurrency = x.currencyId)
    (hle : x.amount ≤ r.counters.toBeIssued (r.counters.home pairOf v)) :
    RaisesOnly NoUnderflow (VaultRegistry.issueTokens v x) r := by
  refine .reads_bind getRichVaultFromId_noUnderflow fun w hw => .bind (.bind (.of_succeeds ?_)
    fun _ _ _ => increaseIssued_noUnderflow) fun _ _ _ => .pure _
  obtain ⟨rfl, hc⟩ := VaultRegistry.getRichVaultFromId_eq_ok.mp hw
  exact (RichVault.decreaseToBeIssued_succeeds hc).mpr ⟨hcur, by rwa [← hc.home]⟩

end

section

omit [LawfulMultiCurrency Tokens]

/-- With the exact payment nothing is adjusted. -/
theorem executePendingIssue_exact {executor : AccountId} :
    (executePendingIssue env executor issueId issue x x :
      ChainCall AccountId CurrencyId H256 F Tokens _) = (do
        onTokens (issue.griefing.unlockOn issue.requester)
        return issue) := by
  simp [executePendingIssue, Amount.lt_self, Amount.gt_self, Call.ofExcept]

end

private theorem executeIssue_noUnderflow {executor : AccountId}
    {payment : BtcAddress → Except DispatchError ℕ}
    (hr : s.issueRequests issueId = some issue) (hp : issue.status = .pending)
    (hpaid : payment issue.btcAddress = .ok (issue.amount + issue.fee))
    (hle : issue.amount + issue.fee ≤
      s.registry.counters.toBeIssued (s.registry.counters.home pairOf issue.vault)) :
    RaisesOnly NoUnderflow (executeIssue env executor issueId payment) s := by
  have hget : s.getIssueRequestFromId issueId = .ok issue :=
    getIssueRequestFromId_eq_ok.mpr ⟨hr, by simp [hp]⟩
  refine .reads_bind (fun e h => ?_) fun r h => ?_
  · cases hget.symm.trans h
  obtain rfl : issue = r := Except.ok.inj (hget.symm.trans h)
  refine .ofExcept_bind (fun e h => ?_) fun n h => ?_
  · cases hpaid.symm.trans h
  obtain rfl : _ = n := Except.ok.inj (hpaid.symm.trans h)
  refine .ofExcept_bind checkedAdd_noUnderflow fun total htotal => ?_
  obtain ⟨-, -, rfl⟩ := Amount.checkedAdd_eq_ok.mp htotal
  rw [hp]
  refine .bind (x := executePendingIssue env executor issueId issue
    ⟨issue.amount + issue.fee, issue.vault.wrappedCurrency⟩
    ⟨issue.amount + issue.fee, issue.vault.wrappedCurrency⟩) ?_ fun r s₁ h₁ => ?_
  · rw [executePendingIssue_exact]
    exact .bind unlockOn_noUnderflow fun _ _ _ => .pure _
  rw [executePendingIssue_exact] at h₁
  simp only [Call.run_bind_eq_ok, Call.run_pure_eq_ok] at h₁
  obtain ⟨_, s₂, hunlock, rfl, rfl⟩ := h₁
  have hcounters := congrArg Records.counters (unlockOn_recordsNothing _ _ _ _ _ hunlock)
  refine .ofExcept_bind checkedAdd_noUnderflow fun total htotal => ?_
  obtain ⟨-, -, rfl⟩ := Amount.checkedAdd_eq_ok.mp htotal
  refine .bind (.zoom (issueTokens_noUnderflow rfl ?_)) fun _ _ _ =>
    .bind mintTo_noUnderflow fun _ _ _ => .bind mintTo_noUnderflow fun _ _ _ =>
      .bind distributeRewards_noUnderflow fun _ _ _ => .of_neverFails (.modify _)
  change s₂.registry.counters = s.registry.counters at hcounters
  change _ ≤ s₂.registry.counters.toBeIssued (s₂.registry.counters.home pairOf _)
  rw [hcounters]
  exact hle

private theorem cancelIssue_noUnderflow {canceller : AccountId}
    (hr : s.issueRequests issueId = some issue) (hp : issue.status = .pending)
    (hexpired : env.hasRequestExpired issue.opentime issue.btcHeight
      (max env.issuePeriod issue.period) = .ok true)
    (hle : issue.amount + issue.fee ≤
      s.registry.counters.toBeIssued (s.registry.counters.home pairOf issue.vault)) :
    RaisesOnly NoUnderflow (cancelIssue env canceller issueId) s := by
  have hget : s.getPendingIssue issueId = .ok issue := getPendingIssue_eq_ok.mpr ⟨hr, hp⟩
  refine .reads_bind (fun e h => ?_) fun r h => ?_
  · cases hget.symm.trans h
  obtain rfl : issue = r := Except.ok.inj (hget.symm.trans h)
  -- nothing is released early, so all of the griefing collateral is slashed
  refine .bind (.ofExcept_bind (fun e h => ?_) fun b h => ?_) fun slashed s₁ h₁ => ?_
  · cases hexpired.symm.trans h
  · obtain rfl : true = b := Except.ok.inj (hexpired.symm.trans h)
    exact .pure _
  refine .reads_bind (fun e h => ?_) fun liquidated hl => ?_
  · simp only [VaultRegistry.isVaultLiquidated, VaultRegistry.getVaultFromId,
      except_bind_eq_error, except_pure_eq_error, and_false, exists_false, or_false,
      okOr_eq_error] at h
    obtain ⟨-, rfl⟩ := h
    rintro ⟨⟩
  refine .bind (.ite (fun _ => unlockOn_noUnderflow) fun _ => .bind unlockOn_noUnderflow
    fun _ _ _ => .bind transfer_noUnderflow fun _ _ _ => .pure _) fun _ s₂ h₂ => ?_
  have hkeep : s₂.records = s₁.records :=
    Keeps.ite (unlockOn_recordsNothing _ _) transferFunds_recordsNothing _ _ _ h₂
  have hcounters : s₂.registry.counters = s.registry.counters :=
    congrArg Records.counters
      (hkeep.trans (slashedGriefingCollateral_recordsNothing _ _ _ h₁))
  refine .ofExcept_bind checkedAdd_noUnderflow fun total htotal => ?_
  obtain ⟨-, -, rfl⟩ := Amount.checkedAdd_eq_ok.mp htotal
  refine .bind (.zoom (decreaseToBeIssuedTokens_noUnderflow rfl ?_)) fun _ _ _ =>
    .of_neverFails (.modify _)
  change _ ≤ s₂.registry.counters.toBeIssued (s₂.registry.counters.home pairOf _)
  rw [hcounters]
  exact hle

end Settling

/-! ## Every run -/

section

variable [LawfulMultiCurrency Tokens] [Fintype AccountId] [Fintype CurrencyId] [Fintype H256]

private theorem Covering.settlesIssues (hs : s.Covering) : s.SettlesIssues where
  executes _ _ _ _ _ hr hp hpaid :=
    (executeIssue_noUnderflow hr hp hpaid (hs.enough hr hp)).error?_ne
  cancels _ _ _ _ hr hp hexpired :=
    (cancelIssue_noUnderflow hr hp hexpired (hs.enough hr hp)).error?_ne

/-- In a run that recovers idle vaults only, the tokens to be issued cover the pending requests,
and each of these can be settled without an underflow. -/
theorem toBeIssued_stays_covered {tokens : Tokens}
    {calls : List (Dispatch AccountId CurrencyId H256)}
    (h : Meets step RecoversIdle (genesis tokens : Chain AccountId CurrencyId H256 F Tokens)
      calls) :
    (run step (genesis tokens : Chain AccountId CurrencyId H256 F Tokens)
        calls).IssuesCovered ∧
      (run step (genesis tokens : Chain AccountId CurrencyId H256 F Tokens)
        calls).SettlesIssues := by
  have hs := run_invariant (fun _ _ => step_covering) (genesis_covering tokens) h
  exact ⟨hs.issuesCovered, hs.settlesIssues⟩

end

end Chain

/-! ## A vault is recovered too early -/

namespace Sample

/-- The first vault is liquidated while 50 tokens are to be issued. -/
def liquidatedIssuing : List Dispatch :=
  issued ++
    [({ env with secureId := 1 }, .requestIssue .carol 50 vaultA .intr),
      ({ env with exchangeRate := fun _ => some (rate 100) },
        .reportUndercollateralizedVault vaultA)]

/-- The vault is recovered while its issue request is pending. -/
def recoveredEarly : List Dispatch := liquidatedIssuing ++ [(env, .recoverVaultId vaultA)]

/-- Until then the request is covered and can be settled. -/
theorem liquidatedIssuing_covered : (run Chain.step start liquidatedIssuing).IssuesCovered ∧
    (run Chain.step start liquidatedIssuing).SettlesIssues :=
  Chain.toBeIssued_stays_covered (by decide +kernel)

/-- The request that is still pending. -/
def openIssue : IssueRequest Account Currency where
  vault := vaultA
  opentime := 0
  period := 10
  griefingCollateral := 0
  griefingCurrency := .intr
  amount := 50
  fee := 0
  requester := .carol
  btcAddress := .p2pkh 1
  btcHeight := 0
  status := .pending

/-- The pending request can be neither executed nor cancelled. -/
theorem recoveredEarly_uncovered : ¬ (run Chain.step start recoveredEarly).IssuesCovered ∧
    ¬ (run Chain.step start recoveredEarly).SettlesIssues ∧
    (Chain.executeIssue env .carol 1 fun _ => .ok 50).error?
      (run Chain.step start recoveredEarly) = some (.arithmetic .underflow) ∧
    (Chain.cancelIssue (envAt 50) .carol 1).error?
      (run Chain.step start recoveredEarly) = some (.arithmetic .underflow) := by
  have hvault : (run Chain.step start recoveredEarly).registry.vaults vaultA =
      some Vault.new := by decide +kernel
  have hdue : (run Chain.step start recoveredEarly).pendingToBeIssued vaultA = 50 := by
    decide +kernel
  have hexecute : (Chain.executeIssue env .carol 1 fun _ => .ok 50).error?
      (run Chain.step start recoveredEarly) = some (.arithmetic .underflow) := by decide +kernel
  refine ⟨fun h => ?_, fun h => ?_, hexecute, by decide +kernel⟩
  · have := h.active vaultA _ hvault rfl
    rw [hdue] at this
    exact absurd this (by decide)
  · have hrequest : (run Chain.step start recoveredEarly).issueRequests 1 = some openIssue := by
      decide +kernel
    exact h.executes env .carol 1 (fun _ => .ok 50) openIssue hrequest rfl rfl hexecute

end Sample

end Interbtc
