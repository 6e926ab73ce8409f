import Interbtc.Accounting.Effects

/-!
# Issuing in the books

A request opens an obligation, and its execution or cancellation closes it. What was paid
is minted: a payment that differs from the request has changed the request first.
-/

namespace Interbtc

open Core MultiCurrency

private theorem bump_bump {K : Type} [DecidableEq K] (f : K → ℕ) (k : K) (x y : ℕ) :
    bump (bump f k x) k y = bump f k (x + y) := by
  funext j
  simp only [bump]
  split <;> omega

/-- Adding nothing changes nothing. -/
theorem bump_zero {K : Type} [DecidableEq K] (f : K → ℕ) (k : K) : bump f k 0 = f := by
  funext j
  simp [bump]

/-- All of a request: what the requester and the fee pool get. -/
def IssueRequest.total {AccountId CurrencyId : Type} (r : IssueRequest AccountId CurrencyId) : ℕ :=
  r.amount + r.fee

namespace Chain

variable {AccountId CurrencyId H256 F Tokens : Type} [DecidableEq AccountId]
  [DecidableEq CurrencyId] [DecidableEq H256] [FixedPointNumber F]
  [MultiCurrency Tokens AccountId CurrencyId] [LawfulMultiCurrency Tokens]
  [CurrencyConfig CurrencyId] [AccountConfig AccountId]
  {s s' : Chain AccountId CurrencyId H256 F Tokens} {env : Env AccountId CurrencyId H256}
  {vaultId : VaultId AccountId CurrencyId} {x y z : Amount CurrencyId} {a : AccountId}
  {issueId : H256} {issue issue' : IssueRequest AccountId CurrencyId} {u : Unit}

/-! ## Requests -/

section

omit [DecidableEq AccountId] [DecidableEq CurrencyId] [DecidableEq H256] [FixedPointNumber F]
  [MultiCurrency Tokens AccountId CurrencyId] [LawfulMultiCurrency Tokens]
  [CurrencyConfig CurrencyId] [AccountConfig AccountId]

/-- Issue requests can be read until they are completed. -/
theorem getIssueRequestFromId_eq_ok : s.getIssueRequestFromId issueId = .ok issue ↔
    s.issueRequests issueId = some issue ∧ issue.status ≠ .completed := by
  simp only [getIssueRequestFromId, except_bind_eq_ok, okOr_eq_ok]
  constructor
  · rintro ⟨r, hr, h⟩
    cases hs : r.status <;> rw [hs] at h <;> cases h
    all_goals exact ⟨hr, by simp [hs]⟩
  · rintro ⟨hr, hs⟩
    refine ⟨issue, hr, ?_⟩
    cases h : issue.status
    · rfl
    · exact absurd h hs
    · rfl

/-- Pending issue requests can be read as such. -/
theorem getPendingIssue_eq_ok : s.getPendingIssue issueId = .ok issue ↔
    s.issueRequests issueId = some issue ∧ issue.status = .pending := by
  simp only [getPendingIssue, except_bind_eq_ok, okOr_eq_ok]
  constructor
  · rintro ⟨r, hr, h⟩
    cases hs : r.status <;> rw [hs] at h <;> cases h
    exact ⟨hr, hs⟩
  · rintro ⟨hr, hs⟩
    exact ⟨issue, hr, by rw [hs]; rfl⟩

end

omit [DecidableEq AccountId] [DecidableEq CurrencyId] [DecidableEq H256] [FixedPointNumber F]
  [LawfulMultiCurrency Tokens] [CurrencyConfig CurrencyId] [AccountConfig AccountId] in
private theorem books_issues_of_pending (hr : s.issueRequests issueId = some issue)
    (hs : issue.status = .pending) :
    s.books.issues issueId = some ⟨issue.vault, issue.total⟩ := by
  change (s.issueRequests issueId).bind IssueRequest.obligation = _
  rw [hr, Option.bind_some, IssueRequest.obligation, if_pos hs]
  rfl

omit [DecidableEq AccountId] [DecidableEq CurrencyId] [FixedPointNumber F]
  [LawfulMultiCurrency Tokens] [CurrencyConfig CurrencyId] [AccountConfig AccountId] in
private theorem run_setIssueStatus {status : IssueRequestStatus}
    (h : (setIssueStatus issueId status : ChainCall AccountId CurrencyId H256 F Tokens _).run s =
      .ok u s') :
    s'.records = s.records.setIssue issueId
      ((s.issueRequests issueId).map fun r => { r with status := status }) := by
  simp only [setIssueStatus, mutateIssueRequest, Call.run_modify_eq_ok] at h
  rw [← h]
  rfl

omit [DecidableEq AccountId] [DecidableEq CurrencyId] [CurrencyConfig CurrencyId]
  [AccountConfig AccountId] in
private theorem obligation_of_ne_pending {status : IssueRequestStatus} (hs : status ≠ .pending)
    (q : Option (IssueRequest AccountId CurrencyId)) :
    (q.map fun r => { r with status := status }).bind IssueRequest.obligation = none := by
  cases q with
  | none => rfl
  | some r => exact if_neg hs

omit [DecidableEq AccountId] [FixedPointNumber F] [LawfulMultiCurrency Tokens]
  [CurrencyConfig CurrencyId] [AccountConfig AccountId] in
/-- A request is written with another amount, for the same vault. -/
theorem run_setIssueAmount (h : (setIssueAmount env issueId issue x).run s = .ok issue' s') :
    issue'.vault = issue.vault ∧ issue'.total = x.amount ∧
      ∃ q, s'.records = s.records.setIssue issueId q := by
  simp only [setIssueAmount, mutateIssueRequest, Call.run_bind_eq_ok, Call.run_ofExcept_eq_ok,
    Call.run_modify_eq_ok, Call.run_pure_eq_ok, Amount.checkedSub_eq_ok] at h
  obtain ⟨fee, _, ⟨-, rfl⟩, _, _, ⟨⟨-, hle, rfl⟩, rfl⟩, _, _, rfl, rfl, rfl⟩ := h
  refine ⟨rfl, ?_, _, rfl⟩
  change x.amount - fee.amount + fee.amount = x.amount
  exact Nat.sub_add_cancel hle

omit [AccountConfig AccountId] in
/-- A request for new tokens opens an obligation of the vault. -/
theorem requestIssue_books {requester : AccountId} {n : ℕ} {griefingCurrency : CurrencyId}
    (h : (requestIssue env requester n vaultId griefingCurrency).run s = .ok u s') :
    Continues s s' := by
  simp only [requestIssue, Call.run_bind_eq_ok, Call.run_get_eq_ok, Call.run_ofExcept_eq_ok,
    Call.run_ensure_eq_ok, Call.run_reads_eq_ok, Call.run_modify_eq_ok, Amount.checkedSub_eq_ok,
    and_assoc, exists_and_left, exists_eq_left', exists_const] at h
  obtain ⟨_, -, -, _, -, -, _, -, _, -, _, -, _, s₁, hlock, _, -, -, _, s₂, hinc, fee, -, -, hle,
    _, -, _, -, hs'⟩ := h
  have hrec := lockOn_recordsNothing _ _ _ _ _ hlock
  have hct : s₁.registry.counters = s.registry.counters := congrArg Records.counters hrec
  obtain ⟨hl, hrec₂⟩ := run_tryIncreaseToBeIssuedTokens hinc
  rw [hct] at hl hrec₂
  rw [hrec] at hrec₂
  have hrec' : s'.records = s₂.records.setIssue env.secureId (s'.issueRequests env.secureId) := by
    rw [← hs']
    simp [records, Records.setIssue]
  have hopen : (s'.issueRequests env.secureId).bind IssueRequest.obligation =
      some ⟨vaultId, n⟩ := by
    rw [← hs', ← Nat.sub_add_cancel hle]
    simp [IssueRequest.obligation]
  have hbooks : s'.books = { s.books with
      toCounters := s.registry.counters.addToBeIssued (.inl vaultId) n
      issues := Function.update s.books.issues env.secureId (some ⟨vaultId, n⟩) } := by
    rw [books, hrec', Records.books_setIssue, hopen, hrec₂]
    rfl
  refine ⟨?_, (congrArg Records.replaceRequests hrec').trans
    (congrArg Records.replaceRequests hrec₂)⟩
  rw [hbooks]
  exact .single (.openIssue s.books env.secureId vaultId n hl)

/-! ## Execution -/

private theorem run_decreaseIssueAmount {r : IssueRequest AccountId CurrencyId × Amount CurrencyId}
    (h : (decreaseIssueAmount env issueId issue x y).run s = .ok r s') :
    x.amount ≤ y.amount ∧ y.amount - x.amount ≤
        s.registry.counters.toBeIssued (s.registry.counters.home pairOf issue.vault) ∧
      r.1.vault = issue.vault ∧ r.1.total = x.amount ∧
      ∃ q, s'.records = (s.records.setCounters (s.registry.counters.subToBeIssued
        (s.registry.counters.home pairOf issue.vault) (y.amount - x.amount))).setIssue issueId q := by
  simp only [decreaseIssueAmount, Call.run_bind_eq_ok, Call.run_ofExcept_eq_ok,
    Call.run_pure_eq_ok, Amount.checkedSub_eq_ok, and_assoc, exists_and_left,
    exists_eq_left'] at h
  obtain ⟨-, hle, _, s₁, hdec, _, -, -, -, _, s₂, hfunds, _, s₃, hset, rfl, rfl⟩ := h
  obtain ⟨hrun, hrec₁⟩ := run_onRegistry hdec
  obtain ⟨-, -, hcount, hct⟩ := VaultRegistry.run_decreaseToBeIssuedTokens hrun
  obtain ⟨hvault, htotal, q, hrec₃⟩ := run_setIssueAmount hset
  rw [transferFunds_recordsNothing _ _ _ hfunds, hrec₁, hct] at hrec₃
  exact ⟨hle, hcount, hvault, htotal, q, hrec₃⟩

omit [LawfulMultiCurrency Tokens] [AccountConfig AccountId] in
private theorem run_tryIncreaseIssueAmount
    (h : (tryIncreaseIssueAmount env issueId issue x y).run s = .ok issue' s')
    (hy : issue.total = y.amount) :
    issue'.vault = issue.vault ∧ ∃ n q, issue'.total = y.amount + n ∧
      (n = 0 ∨ s.registry.counters.isLiquidated issue.vault = false) ∧
      s'.records = (s.records.setCounters
        (s.registry.counters.addToBeIssued (.inl issue.vault) n)).setIssue issueId q := by
  simp only [tryIncreaseIssueAmount, Call.run_bind_eq_ok, Call.run_ofExcept_eq_ok,
    Call.run_reads_eq_ok, and_assoc, exists_and_left, exists_eq_left'] at h
  obtain ⟨_, -, _, -, extra, -, r, s₁, hattempt, h⟩ := h
  obtain ⟨_, rfl, hrun⟩ | ⟨e, rfl, hrun⟩ := Call.run_attempt_eq_ok.mp hattempt
  · simp only [Call.run_bind_eq_ok, Call.run_ofExcept_eq_ok, Amount.checkedAdd_eq_ok, and_assoc,
      exists_and_left, exists_eq_left'] at h
    obtain ⟨-, -, hset⟩ := h
    obtain ⟨hvault, htotal, q, hrec⟩ := run_setIssueAmount hset
    obtain ⟨hl, hrec₁⟩ := run_tryIncreaseToBeIssuedTokens hrun
    rw [hrec₁] at hrec
    exact ⟨hvault, extra.amount, q, htotal, .inr hl, hrec⟩
  · obtain ⟨rfl, rfl⟩ := Call.run_pure_eq_ok.mp h
    have hs : s₁ = s := tryIncreaseToBeIssuedTokens_keepsOnError _ _ _ hrun
    refine ⟨rfl, 0, s.issueRequests issueId, hy, .inl rfl, ?_⟩
    rw [hs]
    simp [Records.setCounters, Records.setIssue, Counters.addToBeIssued, records, bump_zero]

/-- A request and what its vault has to issue have changed by the same amount. -/
def ChangesAlike (s : Chain AccountId CurrencyId H256 F Tokens) (issueId : H256)
    (issue issue' : IssueRequest AccountId CurrencyId)
    (r : Records AccountId CurrencyId H256) : Prop :=
  issue'.vault = issue.vault ∧ ∃ c q,
    r = (s.records.setCounters { s.registry.counters with toBeIssued := c }).setIssue issueId q ∧
    (issue'.total ≤ c (s.registry.counters.home pairOf issue.vault) →
      issue.total ≤ s.registry.counters.toBeIssued (s.registry.counters.home pairOf issue.vault)) ∧
    drop c (s.registry.counters.home pairOf issue.vault) issue'.total =
      drop s.registry.counters.toBeIssued (s.registry.counters.home pairOf issue.vault) issue.total

omit [FixedPointNumber F] [LawfulMultiCurrency Tokens] [CurrencyConfig CurrencyId]
  [AccountConfig AccountId] in
private theorem ChangesAlike.same : ChangesAlike s issueId issue issue s.records :=
  ⟨rfl, s.registry.counters.toBeIssued, s.issueRequests issueId,
    by simp [Records.setCounters, Records.setIssue, records], fun h => h, rfl⟩

private theorem ChangesAlike.of_decrease {r : IssueRequest AccountId CurrencyId × Amount CurrencyId}
    (h : (decreaseIssueAmount env issueId issue x y).run s = .ok r s')
    (hy : issue.total = y.amount) : ChangesAlike s issueId issue r.1 s'.records := by
  obtain ⟨hle, hcount, hvault, htotal, q, hrec⟩ := run_decreaseIssueAmount h
  refine ⟨hvault, _, q, hrec, ?_, ?_⟩
  · simp only [drop, if_true]
    omega
  · rw [drop_drop, htotal, hy, Nat.sub_add_cancel hle]

section

omit [LawfulMultiCurrency Tokens] [AccountConfig AccountId]

private theorem ChangesAlike.of_increase
    (h : (tryIncreaseIssueAmount env issueId issue x y).run s = .ok issue' s')
    (hy : issue.total = y.amount) : ChangesAlike s issueId issue issue' s'.records := by
  obtain ⟨hvault, n, q, htotal, hactive, hrec⟩ := run_tryIncreaseIssueAmount h hy
  refine ⟨hvault, _, q, hrec, ?_⟩
  rcases hactive with rfl | hl
  · rw [bump_zero, htotal, hy]
    exact ⟨fun h => h, rfl⟩
  · rw [Counters.home_of_active pairOf hl, htotal, hy, add_comm y.amount n, drop_bump]
    simp only [bump, if_true]
    exact ⟨by omega, trivial⟩

/-- A cancelled request is issued anew: the vault first gets as much to issue as was paid. -/
theorem run_executeCancelledIssue {executor : AccountId}
    (h : (executeCancelledIssue env executor issueId issue x y).run s = .ok issue' s')
    (hy : issue.total = y.amount) :
    issue'.vault = issue.vault ∧ s.registry.counters.isLiquidated issue.vault = false ∧ ∃ q,
      s'.records = (s.records.setCounters
        (s.registry.counters.addToBeIssued (.inl issue.vault) issue'.total)).setIssue issueId q := by
  simp only [executeCancelledIssue, Call.run_bind_eq_ok, Call.run_ofExcept_eq_ok,
    Call.run_ite_eq_ok, Call.run_ensure_eq_ok, Call.run_pure_eq_ok, Call.run_reads_eq_ok,
    Amount.ne, Amount.eq, except_bind_eq_ok, except_pure_eq_ok, Amount.ensureSameCurrency_eq_ok,
    and_assoc, exists_and_left, exists_eq_left', exists_const] at h
  obtain ⟨_, -, _, s₁, hinc, _, -, s₂, hless, -, h⟩ := h
  obtain ⟨hl, hrec⟩ := run_tryIncreaseToBeIssuedTokens hinc
  have hs : s₁ = s₂ := by
    obtain ⟨-, -, hs⟩ | ⟨-, -, hs⟩ := hless
    · exact hs
    · exact hs
  subst hs
  obtain ⟨-, hset⟩ | ⟨heq, rfl, rfl⟩ := h
  · obtain ⟨hvault, htotal, q, hrec'⟩ := run_setIssueAmount hset
    rw [hrec, ← htotal] at hrec'
    exact ⟨hvault, hl, q, hrec'⟩
  · have hxy : x.amount = y.amount := by simpa using heq
    refine ⟨rfl, hl, s₁.issueRequests issueId, ?_⟩
    rw [hrec, hy, ← hxy]
    have hissue : s₁.issueRequests = s.issueRequests := congrArg Records.issueRequests hrec
    rw [hissue]
    simp [Records.setIssue, Records.setCounters, records]

end

private theorem run_executePendingIssue {executor : AccountId}
    (h : (executePendingIssue env executor issueId issue x y).run s = .ok issue' s')
    (hy : issue.total = y.amount) : ChangesAlike s issueId issue issue' s'.records := by
  simp only [executePendingIssue, Call.run_bind_eq_ok, Call.run_ofExcept_eq_ok,
    Call.run_ite_eq_ok, Call.run_ensure_eq_ok, Call.run_pure_eq_ok, Call.run_reads_eq_ok,
    and_assoc, exists_and_left, exists_eq_left', exists_const] at h
  obtain ⟨_, -, r, s₁, h, _, s₂, hunlock, rfl, rfl⟩ := h
  have hkeep := unlockOn_recordsNothing _ _ _ _ _ hunlock
  rw [hkeep]
  obtain ⟨-, -, hdec⟩ | ⟨-, _, -, q, s₂, hinc, rfl, rfl⟩ := h
  · exact .of_decrease hdec hy
  · obtain ⟨-, _, -, ⟨-, rfl, rfl⟩ | ⟨-, hinc⟩⟩ | ⟨-, rfl, rfl⟩ := hinc
    · exact .same
    · exact .of_increase hinc hy
    · exact .same

/-- What was paid for a request is minted, and the request is closed. -/
theorem executeIssue_books {executor : AccountId} {payment : BtcAddress → Except DispatchError ℕ}
    (h : (executeIssue env executor issueId payment).run s = .ok u s') :
    Continues s s' := by
  simp only [executeIssue, Call.run_bind_eq_ok, Call.run_ofExcept_eq_ok, Call.run_reads_eq_ok,
    getIssueRequestFromId_eq_ok, Amount.checkedAdd_eq_ok, and_assoc, exists_and_left,
    exists_eq_left'] at h
  obtain ⟨issue, hissue, hstatus, _, -, -, -, issue', s₁, hexec, -, -, _, s₂, htokens, _, s₃, hmint,
    _, s₄, hfee, _, s₅, hdist, hset⟩ := h
  obtain ⟨hrun, hrec₂⟩ := run_onRegistry htokens
  obtain ⟨-, -, hle, hmax, hct⟩ := VaultRegistry.run_issueTokens hrun
  have hrec : s'.records = (((s₁.records.setCounters s₂.registry.counters).addSupply
      issue'.vault.wrappedCurrency issue'.total).setIssue issueId
        ((s₅.issueRequests issueId).map fun r => { r with status := .completed })) := by
    rw [run_setIssueStatus hset, distributeRewards_staysInPools.recordsNothing _ _ _ hdist,
      run_mintTo hfee, run_mintTo hmint, hrec₂]
    simp only [Records.addSupply, Records.setIssue, Records.setCounters, IssueRequest.amountIssued,
      IssueRequest.feeIssued, bump_bump, IssueRequest.total]
  have hnone := obligation_of_ne_pending (show IssueRequestStatus.completed ≠ .pending by decide)
    (s₅.issueRequests issueId)
  change issue'.total ≤ _ at hle
  change _ + issue'.total ≤ maxBalance at hmax
  change _ = (s₁.registry.counters.subToBeIssued _ issue'.total).addIssued _ issue'.total at hct
  rw [hct] at hrec
  cases hs : issue.status with
  | completed => exact absurd hs hstatus
  | pending =>
    rw [hs] at hexec
    obtain ⟨hvault, c, q, hrec₁, hcovered, hdrop⟩ := run_executePendingIssue hexec rfl
    have hct₁ : s₁.registry.counters = { s.registry.counters with toBeIssued := c } :=
      congrArg Records.counters hrec₁
    rw [hct₁, hvault] at hle hmax
    have hbooks : s'.books = { s.books with
        toCounters := (s.registry.counters.subToBeIssued
          (s.registry.counters.home pairOf issue.vault) issue.total).addIssued
            (s.registry.counters.home pairOf issue.vault) issue'.total
        supply := bump s.books.supply issue.vault.wrappedCurrency issue'.total
        issues := Function.update s.books.issues issueId none } := by
      rw [books, hrec, Records.books_setIssue, hnone, hct₁, hvault, hrec₁]
      simp only [Records.books_addSupply, Records.books_setCounters, Records.books_setIssue,
        Function.update_idem, Counters.subToBeIssued, Counters.addIssued]
      rw [← hdrop]
      rfl
    refine ⟨?_, (congrArg Records.replaceRequests hrec).trans
      (congrArg Records.replaceRequests hrec₁)⟩
    rw [hbooks]
    exact .tail (.single (.closeIssue s.books issueId issue.vault issue.total
      (books_issues_of_pending hissue hs) (hcovered hle))) (.mint _ issue.vault issue'.total hmax)
  | cancelled =>
    rw [hs] at hexec
    obtain ⟨hvault, hl, q, hrec₁⟩ := run_executeCancelledIssue hexec rfl
    have hct₁ : s₁.registry.counters =
        s.registry.counters.addToBeIssued (.inl issue.vault) issue'.total :=
      congrArg Records.counters hrec₁
    have hhome : (s.registry.counters.addToBeIssued (.inl issue.vault) issue'.total).home pairOf
        issue.vault = .inl issue.vault := Counters.home_of_active pairOf hl
    rw [hct₁, hvault, hhome] at hmax
    have hclosed : s.books.issues issueId = none := by
      change (s.issueRequests issueId).bind IssueRequest.obligation = none
      rw [hissue]
      exact if_neg (by rw [hs]; decide)
    have hbooks : s'.books = { s.books with
        toCounters := s.registry.counters.addIssued (.inl issue.vault) issue'.total
        supply := bump s.books.supply issue.vault.wrappedCurrency issue'.total } := by
      have hback : drop (bump s.registry.counters.toBeIssued (.inl issue.vault) issue'.total)
          (.inl issue.vault) issue'.total = s.registry.counters.toBeIssued :=
        (drop_bump _ _ issue'.total 0).trans (drop_zero _ _)
      rw [books, hrec, Records.books_setIssue, hnone, hct₁, hvault, hhome, hrec₁]
      simp only [Records.books_addSupply, Records.books_setCounters, Records.books_setIssue,
        Function.update_idem, Counters.subToBeIssued, Counters.addIssued, Counters.addToBeIssued,
        hback]
      rw [Function.update_eq_self_iff.mpr hclosed.symm]
      rfl
    refine ⟨?_, (congrArg Records.replaceRequests hrec).trans
      (congrArg Records.replaceRequests hrec₁)⟩
    rw [hbooks]
    have hmint : _ → Books.Step pairOf wrappedOf s.books _ :=
      Books.Step.mint s.books issue.vault issue'.total
    rw [show s.books.home pairOf issue.vault = _ from Counters.home_of_active pairOf hl] at hmint
    exact .single (hmint hmax)

/-! ## Cancellation -/

omit [DecidableEq H256] [FixedPointNumber F] [CurrencyConfig CurrencyId] [AccountConfig AccountId]
  in
/-- Slashing the griefing collateral of a request records nothing. -/
theorem slashedGriefingCollateral_recordsNothing {canceller : AccountId} :
    RecordsNothing (slashedGriefingCollateral env canceller issue :
      ChainCall AccountId CurrencyId H256 F Tokens _) :=
  .bind (.ofExcept _) fun _ => .ite (.pure _) (.ite (.bind (.ofExcept _) fun _ =>
    .bind (.ofExcept _) fun _ => .bind (.ofExcept _) fun _ =>
      .bind (unlockOn_recordsNothing _ _) fun _ => .pure _) (.throw _))

/-- A cancelled request owes nothing any more. -/
theorem cancelIssue_books {canceller : AccountId}
    (h : (cancelIssue env canceller issueId).run s = .ok u s') :
    Continues s s' := by
  simp only [cancelIssue, Call.run_bind_eq_ok, Call.run_ofExcept_eq_ok, Call.run_reads_eq_ok,
    Call.run_ite_eq_ok, getPendingIssue_eq_ok, Amount.checkedAdd_eq_ok, and_assoc,
    exists_and_left, exists_eq_left'] at h
  obtain ⟨issue, hissue, hs, toSlash, s₁, hslash, _, -, _, s₂, hmove, -, -, _, s₃, hdec, hset⟩ := h
  have hkeep₁ : s₁.records = s.records := slashedGriefingCollateral_recordsNothing _ _ _ hslash
  have hkeep₂ : s₂.records = s.records := by
    obtain ⟨-, hunlock⟩ | ⟨-, hfunds⟩ := hmove
    · rw [unlockOn_recordsNothing _ _ _ _ _ hunlock, hkeep₁]
    · rw [transferFunds_recordsNothing _ _ _ hfunds, hkeep₁]
  have hct₂ : s₂.registry.counters = s.registry.counters := congrArg Records.counters hkeep₂
  obtain ⟨hrun, hrec₃⟩ := run_onRegistry hdec
  obtain ⟨-, -, hle, hct₃⟩ := VaultRegistry.run_decreaseToBeIssuedTokens hrun
  rw [hct₂] at hle hct₃
  have hrec := run_setIssueStatus hset
  rw [hrec₃, hct₃, hkeep₂] at hrec
  have hbooks : s'.books = { s.books with
      toCounters := s.registry.counters.subToBeIssued
        (s.registry.counters.home pairOf issue.vault) issue.total
      issues := Function.update s.books.issues issueId none } := by
    rw [books, hrec, Records.books_setIssue, obligation_of_ne_pending (by decide)]
    rfl
  refine ⟨?_, congrArg Records.replaceRequests hrec⟩
  rw [hbooks]
  exact .single (.closeIssue s.books issueId issue.vault issue.total
    (books_issues_of_pending hissue hs) hle)

end Chain

end Interbtc
