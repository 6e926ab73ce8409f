import Interbtc.Accounting.Coverage

/-!
# Issues that are paid

A pending issue request that is paid in full is executed, and everything that was asked
for is minted. When more is paid, the vault is asked how much of the surplus it can
back: a vault that takes no new issues answers in its collateral currency, and the call
fails.
-/

namespace Interbtc.Chain

open Core MultiCurrency

variable {AccountId CurrencyId H256 F Tokens : Type} [DecidableEq AccountId]
  [DecidableEq CurrencyId] [DecidableEq H256] [FixedPointNumber F]
  [MultiCurrency Tokens AccountId CurrencyId] [LawfulMultiCurrency Tokens]
  [CurrencyConfig CurrencyId] [AccountConfig AccountId]
  {s s' : Chain AccountId CurrencyId H256 F Tokens} {env : Env AccountId CurrencyId H256}
  {v : VaultId AccountId CurrencyId} {vault : Vault} {x y z : Amount CurrencyId} {n : ℕ}
  {issueId : H256} {issue issue' : IssueRequest AccountId CurrencyId}

/-! ## The surplus -/

/-- What a vault takes of a surplus: as much as it says it can back. -/
def AcceptsSurplus (env : Env AccountId CurrencyId H256)
    (s : Chain AccountId CurrencyId H256 F Tokens) (v : VaultId AccountId CurrencyId)
    (vault : Vault) (surplus accepted : ℕ) : Prop :=
  if surplus = 0 then accepted = 0 else
    ∃ issuable, getIssuableTokensFromVault env s v = .ok issuable ∧
      issuable.currencyId = v.wrappedCurrency ∧
      accepted = if vault.toBeIssuedTokens + min surplus issuable.amount ≤ maxBalance then
        min surplus issuable.amount else 0

section

omit [DecidableEq AccountId] [DecidableEq H256] [MultiCurrency Tokens AccountId CurrencyId]
  [LawfulMultiCurrency Tokens] [AccountConfig AccountId]

private theorem AcceptsSurplus.unique {m m' : ℕ} (h : AcceptsSurplus env s v vault n m)
    (h' : AcceptsSurplus env s v vault n m') : m = m' := by
  unfold AcceptsSurplus at h h'
  by_cases hn : n = 0
  · rw [if_pos hn] at h h'
    exact h.trans h'.symm
  · rw [if_neg hn] at h h'
    obtain ⟨z, hz, -, rfl⟩ := h
    obtain ⟨z', hz', -, rfl⟩ := h'
    obtain rfl := Except.ok.inj (hz.symm.trans hz')
    rfl

private theorem getIssuableTokensFromVault_eq_ok (hv : s.registry.vaults v = some vault)
    (hactive : vault.isLiquidated = false) :
    getIssuableTokensFromVault env s v = .ok z ↔
      if vault.acceptsNewIssues = true then issuableTokens env s ⟨v, vault⟩ = .ok z
      else .zero v.collateralCurrency = z := by
  have hget : s.registry.getActiveRichVaultFromId v = .ok ⟨v, vault⟩ :=
    VaultRegistry.getActiveRichVaultFromId_eq_ok.mpr ⟨rfl, hv, hactive⟩
  simp only [getIssuableTokensFromVault, except_bind_eq_ok, hget, Except.ok.injEq,
    exists_eq_left', except_ite_eq_ok, except_pure_eq_ok]
  by_cases h : vault.acceptsNewIssues = true <;> simp [h]

end

section

omit [DecidableEq H256] [MultiCurrency Tokens AccountId CurrencyId] [LawfulMultiCurrency Tokens]
  [AccountConfig AccountId]

private theorem tryIncreaseToBeIssuedTokens_succeeds_iff (hv : s.registry.vaults v = some vault)
    (hactive : vault.isLiquidated = false) (hx : v.wrappedCurrency = x.currencyId) :
    (tryIncreaseToBeIssuedTokens env v x).succeeds s = true ↔
      (∃ z, issuableTokens env s ⟨v, vault⟩ = .ok z ∧ z.currencyId = x.currencyId ∧
        x.amount ≤ z.amount) ∧ vault.toBeIssuedTokens + x.amount ≤ maxBalance := by
  have hc : (⟨v, vault⟩ : RichVault AccountId CurrencyId).Current s.registry := hv
  have hget : s.registry.getActiveRichVaultFromId v = .ok ⟨v, vault⟩ :=
    VaultRegistry.getActiveRichVaultFromId_eq_ok.mpr ⟨rfl, hc, hactive⟩
  have hincrease := RichVault.increaseToBeIssued_succeeds (x := x) hc
  rw [hc.toBeIssued] at hincrease
  simp only [Call.succeeds_iff, tryIncreaseToBeIssuedTokens, Call.run_bind_eq_ok,
    Call.run_get_eq_ok, Call.run_ofExcept_eq_ok, hget, Except.ok.injEq, Call.run_ensure_eq_ok,
    Amount.ge_eq_ok, and_assoc, exists_and_left, exists_eq_left']
  constructor
  · rintro ⟨_, _, z, hz, hcur, hle, _, h⟩
    obtain ⟨t, ht, rfl⟩ := Lens.run_zoom_eq_ok.mp h
    obtain ⟨_, _, h, -⟩ := Call.run_bind_eq_ok.mp ht
    exact ⟨⟨z, hz, hcur, of_decide_eq_true hle⟩,
      (hincrease.mp (Call.succeeds_iff.mpr ⟨_, _, h⟩)).2.2⟩
  · rintro ⟨⟨z, hz, hcur, hle⟩, hmax⟩
    obtain ⟨w, t, h⟩ := Call.succeeds_iff.mp (hincrease.mpr ⟨hactive, hx, hmax⟩)
    exact ⟨(), _, z, hz, hcur, decide_eq_true hle, (), Lens.run_zoom_eq_ok.mpr
      ⟨t, Call.run_bind_eq_ok.mpr ⟨w, t, h, rfl⟩, rfl⟩⟩

/-- The vault reserves what it says it can back, unless its counter overflows. -/
theorem attempt_accepts (hv : s.registry.vaults v = some vault)
    (hactive : vault.isLiquidated = false)
    (hz : getIssuableTokensFromVault env s v = .ok z) (hcur : z.currencyId = v.wrappedCurrency) :
    (tryIncreaseToBeIssuedTokens env v ⟨min n z.amount, v.wrappedCurrency⟩).succeeds s = true ∧
        vault.toBeIssuedTokens + min n z.amount ≤ maxBalance ∨
      (tryIncreaseToBeIssuedTokens env v ⟨min n z.amount, v.wrappedCurrency⟩).succeeds s = false ∧
        (min n z.amount = 0 ∨ ¬ vault.toBeIssuedTokens + min n z.amount ≤ maxBalance) := by
  have hiff : (tryIncreaseToBeIssuedTokens env v ⟨min n z.amount, v.wrappedCurrency⟩).succeeds s =
      true ↔ _ := tryIncreaseToBeIssuedTokens_succeeds_iff hv hactive rfl
  rw [getIssuableTokensFromVault_eq_ok hv hactive] at hz
  cases h : (tryIncreaseToBeIssuedTokens env v ⟨min n z.amount, v.wrappedCurrency⟩).succeeds s with
  | true => exact .inl ⟨rfl, (hiff.mp h).2⟩
  | false =>
    refine .inr ⟨rfl, ?_⟩
    by_cases haccepts : vault.acceptsNewIssues = true
    · rw [if_pos haccepts] at hz
      refine .inr fun hmax => ?_
      rw [hiff.mpr ⟨⟨z, hz, hcur, Nat.min_le_right _ _⟩, hmax⟩] at h
      cases h
    · rw [if_neg haccepts] at hz
      obtain rfl : _ = z := hz
      exact .inl (Nat.min_zero n)

private theorem tryIncreaseToBeIssuedTokens_tokens :
    Keeps tokens (tryIncreaseToBeIssuedTokens env v x :
      ChainCall AccountId CurrencyId H256 F Tokens _) :=
  .bind .get fun _ => .bind (.ofExcept _) fun _ => .bind (.ofExcept _) fun _ =>
    .bind (.ofExcept _) fun _ => .bind (.ensure _ _) fun _ => .zoom fun _ _ => rfl

end

/-- The request keeps its parties and its griefing collateral. -/
def SameParties (issue issue' : IssueRequest AccountId CurrencyId) : Prop :=
  issue'.vault = issue.vault ∧ issue'.requester = issue.requester ∧ issue'.griefing = issue.griefing

section

omit [DecidableEq AccountId] [FixedPointNumber F] [MultiCurrency Tokens AccountId CurrencyId]
  [LawfulMultiCurrency Tokens] [CurrencyConfig CurrencyId] [AccountConfig AccountId]

private theorem setIssueAmount_sameParties
    (h : (setIssueAmount env issueId issue x).run s = .ok issue' s') :
    SameParties issue issue' ∧ s'.tokens = s.tokens ∧ s'.registry = s.registry := by
  simp only [setIssueAmount, mutateIssueRequest, Call.run_bind_eq_ok, Call.run_ofExcept_eq_ok,
    Call.run_modify_eq_ok, Call.run_pure_eq_ok, and_assoc, exists_and_left, exists_eq_left'] at h
  obtain ⟨fee, -, _, -, rfl, _, rfl⟩ := h
  exact ⟨⟨rfl, rfl, rfl⟩, rfl, rfl⟩

/-- The fee is a part of what was transferred. -/
theorem setIssueAmount_succeeds (hx : x.currencyId = issue.vault.wrappedCurrency)
    (hmax : x.amount ≤ maxBalance) :
    (setIssueAmount env issueId issue x).succeeds s = true := by
  obtain ⟨fee, hfee, h⟩ := Amount.checkedRoundedMul_le .nearestPrefUp env.issueFee.2 hmax
  refine Call.succeeds_bind_of_ok (Call.run_ofExcept_eq_ok.mpr ⟨h, rfl⟩) ?_
  exact Call.succeeds_bind_of_ok (Call.run_ofExcept_eq_ok.mpr
    ⟨Amount.checkedSub_eq_ok.mpr ⟨hx, hfee, rfl⟩, rfl⟩) rfl

end

section

omit [LawfulMultiCurrency Tokens] [AccountConfig AccountId]

private theorem run_tryIncreaseIssueAmount_accepts (hv : s.registry.vaults issue.vault = some vault)
    (hactive : vault.isLiquidated = false) (hlt : y.amount < x.amount)
    (hx : x.currencyId = issue.vault.wrappedCurrency) (hy : issue.total = y.amount)
    (h : (tryIncreaseIssueAmount env issueId issue x y).run s = .ok issue' s') :
    SameParties issue issue' ∧ s'.tokens = s.tokens ∧ ∃ accepted,
      AcceptsSurplus env s issue.vault vault (x.amount - y.amount) accepted ∧
      issue'.total = y.amount + accepted ∧ s'.registry.rest = s.registry.rest ∧
      s'.registry.counters = s.registry.counters.addToBeIssued (.inl issue.vault) accepted := by
  simp only [tryIncreaseIssueAmount, Call.run_bind_eq_ok, Call.run_ofExcept_eq_ok,
    Call.run_reads_eq_ok, Amount.checkedSub_eq_ok, Amount.min_eq_ok, and_assoc, exists_and_left,
    exists_eq_left'] at h
  obtain ⟨hxy, -, z, hz, hcur, r, s₁, hattempt, h⟩ := h
  have hpos : x.amount - y.amount ≠ 0 := by omega
  rw [hx] at hcur hattempt h
  have haccepts := attempt_accepts (n := x.amount - y.amount) hv hactive hz hcur.symm
  obtain ⟨_, rfl, hrun⟩ | ⟨e, rfl, hrun⟩ := Call.run_attempt_eq_ok.mp hattempt
  · have hmax := haccepts.resolve_right fun hf =>
      Bool.false_ne_true (hf.1.symm.trans (Call.succeeds_iff.mpr ⟨_, _, hrun⟩))
    simp only [Call.run_bind_eq_ok, Call.run_ofExcept_eq_ok, Amount.checkedAdd_eq_ok, and_assoc,
      exists_and_left, exists_eq_left'] at h
    obtain ⟨-, -, hset⟩ := h
    obtain ⟨hsame, htokens, hregistry⟩ := setIssueAmount_sameParties hset
    obtain ⟨-, htotal, q, hrec⟩ := run_setIssueAmount hset
    obtain ⟨-, hrec₁⟩ := run_tryIncreaseToBeIssuedTokens hrun
    refine ⟨hsame, htokens.trans (tryIncreaseToBeIssuedTokens_tokens _ _ _ hrun), _, ?_, htotal,
      ?_, ?_⟩
    · rw [AcceptsSurplus, if_neg hpos]
      exact ⟨z, hz, hcur.symm, (if_pos hmax.2).symm⟩
    · rw [hregistry]
      exact tryIncreaseToBeIssuedTokens_rest _ _ _ hrun
    · have := congrArg Records.counters hrec
      rw [hrec₁] at this
      exact this
  · obtain ⟨rfl, rfl⟩ := Call.run_pure_eq_ok.mp h
    have hs : s₁ = s := tryIncreaseToBeIssuedTokens_keepsOnError _ _ _ hrun
    subst hs
    have hzero := haccepts.resolve_left fun ht => by
      obtain ⟨a, t, ht⟩ := Call.succeeds_iff.mp ht.1
      cases hrun.symm.trans ht
    refine ⟨⟨rfl, rfl, rfl⟩, rfl, 0, ?_, hy, rfl, ?_⟩
    · rw [AcceptsSurplus, if_neg hpos]
      refine ⟨z, hz, hcur.symm, ?_⟩
      rcases hzero.2 with h | h
      · rw [h, ite_self]
      · rw [if_neg h]
    · rw [Counters.addToBeIssued, bump_zero]

end

section

omit [MultiCurrency Tokens AccountId CurrencyId] [LawfulMultiCurrency Tokens]
  [AccountConfig AccountId]

private theorem tryIncreaseIssueAmount_succeeds (hv : s.registry.vaults issue.vault = some vault)
    (hactive : vault.isLiquidated = false) (hlt : y.amount < x.amount)
    (hx : x.currencyId = issue.vault.wrappedCurrency) (hxy : x.currencyId = y.currencyId)
    (haccepts : AcceptsSurplus env s issue.vault vault (x.amount - y.amount) n)
    (hmax : y.amount + n ≤ maxBalance) :
    (tryIncreaseIssueAmount env issueId issue x y).succeeds s = true := by
  rw [AcceptsSurplus, if_neg (by omega)] at haccepts
  obtain ⟨z, hz, hcur, rfl⟩ := haccepts
  have hattempt := attempt_accepts (n := x.amount - y.amount) hv hactive hz hcur
  refine Call.succeeds_bind_of_ok (Call.run_ofExcept_eq_ok.mpr
    ⟨Amount.checkedSub_eq_ok.mpr ⟨hxy, hlt.le, rfl⟩, rfl⟩) ?_
  refine Call.succeeds_bind_of_ok (Call.run_reads_eq_ok.mpr ⟨hz, rfl⟩) ?_
  refine Call.succeeds_bind_of_ok (Call.run_ofExcept_eq_ok.mpr
    ⟨Amount.min_eq_ok.mpr ⟨hx.trans hcur.symm, rfl⟩, rfl⟩) ?_
  obtain ⟨r, s₁, hrun⟩ := Call.attempt_neverFails (tryIncreaseToBeIssuedTokens env issue.vault
    ⟨Nat.min (x.amount - y.amount) z.amount, x.currencyId⟩) s
  refine Call.succeeds_bind_of_ok hrun ?_
  obtain ⟨_, rfl, hok⟩ | ⟨e, rfl, -⟩ := Call.run_attempt_eq_ok.mp hrun
  · have hreserved := hattempt.resolve_right fun hf => by
      rw [← hx] at hf
      exact Bool.false_ne_true (hf.1.symm.trans (Call.succeeds_iff.mpr ⟨_, _, hok⟩))
    rw [if_pos hreserved.2] at hmax
    refine Call.succeeds_bind_of_ok (Call.run_ofExcept_eq_ok.mpr
      ⟨Amount.checkedAdd_eq_ok.mpr ⟨hxy.symm, hmax, rfl⟩, rfl⟩) ?_
    exact setIssueAmount_succeeds (hxy.symm.trans hx) hmax
  · rfl

end

/-! ## Execution -/

private theorem run_executePendingIssue_paid {executor : AccountId}
    (hv : s.registry.vaults issue.vault = some vault) (hactive : vault.isLiquidated = false)
    (hle : y.amount ≤ x.amount) (hx : x.currencyId = issue.vault.wrappedCurrency)
    (hy : issue.total = y.amount)
    (h : (executePendingIssue env executor issueId issue x y).run s = .ok issue' s') :
    SameParties issue issue' ∧
      issue.griefingCollateral ≤
        (MultiCurrency.balances s.tokens issue.requester issue.griefingCurrency).reserved ∧
      totalIssuance s'.tokens = totalIssuance s.tokens ∧
      MultiCurrency.balances s'.tokens = Balances.modify issue.requester issue.griefingCurrency
        (·.release issue.griefingCollateral) (MultiCurrency.balances s.tokens) ∧
      ∃ accepted, AcceptsSurplus env s issue.vault vault (x.amount - y.amount) accepted ∧
        issue'.total = y.amount + accepted ∧ s'.registry.rest = s.registry.rest ∧
        s'.registry.counters =
          s.registry.counters.addToBeIssued (.inl issue.vault) accepted := by
  simp only [executePendingIssue, Call.run_bind_eq_ok, Call.run_ofExcept_eq_ok,
    Call.run_ite_eq_ok, Call.run_ensure_eq_ok, Call.run_pure_eq_ok, Call.run_reads_eq_ok,
    Amount.lt_eq_ok, Amount.gt_eq_ok, VaultRegistry.isVaultLiquidated_eq_ok, hv,
    Option.some.injEq, and_assoc, exists_and_left, exists_eq_left', exists_const] at h
  obtain ⟨hxy, r, s₁, hbody, _, s₂, hunlock, rfl, rfl⟩ := h
  obtain ⟨t, ht, rfl⟩ := Lens.run_zoom_eq_ok.mp hunlock
  have hreserved := Amount.unlockOn_succeeds_iff.mp (Call.succeeds_iff.mpr ⟨_, _, ht⟩)
  obtain ⟨hissuance, hbalances⟩ := Amount.run_unlockOn ht
  obtain ⟨hless, -⟩ | ⟨-, hbody⟩ := hbody
  · exact absurd (of_decide_eq_true hless) (by omega)
  obtain ⟨-, issue', s₂, hsurplus, rfl, rfl⟩ := hbody
  have hkey : SameParties issue issue' ∧ s₂.tokens = s.tokens ∧ ∃ accepted,
      AcceptsSurplus env s issue.vault vault (x.amount - y.amount) accepted ∧
      issue'.total = y.amount + accepted ∧ s₂.registry.rest = s.registry.rest ∧
      s₂.registry.counters = s.registry.counters.addToBeIssued (.inl issue.vault) accepted := by
    obtain ⟨hmore, ⟨hl, -⟩ | ⟨-, hrun⟩⟩ | ⟨hmore, rfl, rfl⟩ := hsurplus
    · exact absurd hl (Bool.eq_false_iff.mp hactive)
    · exact run_tryIncreaseIssueAmount_accepts hv hactive (of_decide_eq_true hmore) hx hy hrun
    · have hnone : x.amount - y.amount = 0 := by
        have := of_decide_eq_false (Bool.eq_false_iff.mpr hmore)
        omega
      refine ⟨⟨rfl, rfl, rfl⟩, rfl, 0, ?_, hy, rfl, ?_⟩
      · rw [AcceptsSurplus, if_pos hnone]
      · rw [Counters.addToBeIssued, bump_zero]
  obtain ⟨⟨hvault, hrequester, hgriefing⟩, htokens, haccepted⟩ := hkey
  change _ = totalIssuance s₂.tokens at hissuance
  change _ = Balances.modify _ _ _ (MultiCurrency.balances s₂.tokens) at hbalances
  change _ ≤ (MultiCurrency.balances s₂.tokens _ _).reserved at hreserved
  rw [htokens] at hissuance hbalances hreserved
  simp only [hgriefing, hrequester] at hbalances hreserved
  exact ⟨⟨hvault, hrequester, hgriefing⟩, hreserved, hissuance, hbalances, haccepted⟩

private theorem executePendingIssue_paid_succeeds {executor : AccountId}
    (hv : s.registry.vaults issue.vault = some vault) (hactive : vault.isLiquidated = false)
    (hle : y.amount ≤ x.amount) (hx : x.currencyId = issue.vault.wrappedCurrency)
    (hxy : x.currencyId = y.currencyId) (hy : issue.total = y.amount)
    (haccepts : AcceptsSurplus env s issue.vault vault (x.amount - y.amount) n)
    (hmax : y.amount + n ≤ maxBalance)
    (hreserved : issue.griefingCollateral ≤
      (MultiCurrency.balances s.tokens issue.requester issue.griefingCurrency).reserved) :
    (executePendingIssue env executor issueId issue x y).succeeds s = true := by
  have hless : x.lt y = .ok false := Amount.lt_eq_ok.mpr ⟨hxy, decide_eq_false (by omega)⟩
  have hmore : x.gt y = .ok (decide (y.amount < x.amount)) := Amount.gt_eq_ok.mpr ⟨hxy, rfl⟩
  have hliquidated : s.registry.isVaultLiquidated issue.vault = .ok false :=
    VaultRegistry.isVaultLiquidated_eq_ok.mpr ⟨vault, hv, hactive⟩
  obtain ⟨issue', s₁, hrun, ⟨-, hrequester, hgriefing⟩, htokens⟩ : ∃ issue' s₁,
      (if y.amount < x.amount then
        tryIncreaseIssueAmount env issueId issue x y else pure issue).run s = .ok issue' s₁ ∧
      SameParties issue issue' ∧ s₁.tokens = s.tokens := by
    by_cases hlt : y.amount < x.amount
    · obtain ⟨issue', s₁, hrun⟩ := Call.succeeds_iff.mp
        (tryIncreaseIssueAmount_succeeds hv hactive hlt hx hxy haccepts hmax)
      obtain ⟨hsame, htokens, -⟩ :=
        run_tryIncreaseIssueAmount_accepts hv hactive hlt hx hy hrun
      exact ⟨issue', s₁, by rwa [if_pos hlt], hsame, htokens⟩
    · exact ⟨issue, s, by rw [if_neg hlt]; rfl, ⟨rfl, rfl, rfl⟩, rfl⟩
  obtain ⟨_, t, hunlock⟩ := Call.succeeds_iff.mp
    ((Amount.unlockOn_succeeds_iff (x := issue.griefing) (a := issue.requester)).mpr hreserved)
  simp only [Call.succeeds_iff, executePendingIssue, Call.run_bind_eq_ok, Call.run_ofExcept_eq_ok,
    hless, hmore, Call.run_ite_eq_ok, Call.run_reads_eq_ok, hliquidated, Call.run_pure_eq_ok,
    Except.ok.injEq, and_assoc, exists_and_left, exists_eq_left', Bool.false_eq_true, false_and,
    not_false_eq_true, true_and, false_or, decide_eq_true_eq]
  refine ⟨issue', { s₁ with tokens := t }, (issue', issue'.griefing), s₁,
    ⟨issue', s₁, ?_, rfl, rfl⟩, (), { s₁ with tokens := t }, ?_, rfl, rfl⟩
  · simpa only [Call.run_ite_eq_ok, Call.run_pure_eq_ok] using hrun
  · simp only [hgriefing, hrequester]
    exact Lens.run_zoom_eq_ok.mpr ⟨t, by rw [← htokens] at hunlock; exact hunlock, rfl⟩

/-! ## Paid requests -/

/-- The call succeeds, and at least what was asked for is minted for the requester and for the
fee pool. -/
def HonoursIssue (env : Env AccountId CurrencyId H256)
    (s : Chain AccountId CurrencyId H256 F Tokens) (executor : AccountId) (issueId : H256)
    (payment : BtcAddress → Except DispatchError ℕ) (r : IssueRequest AccountId CurrencyId) :
    Prop :=
  ∃ s' amount fee, (executeIssue env executor issueId payment).run s = .ok () s' ∧
    r.amount + r.fee ≤ amount + fee ∧
    totalIssuance s'.tokens r.vault.wrappedCurrency =
      totalIssuance s.tokens r.vault.wrappedCurrency + (amount + fee) ∧
    MultiCurrency.balances s'.tokens =
      Balances.modify AccountConfig.feePool r.vault.wrappedCurrency (·.credit fee)
        (Balances.modify r.requester r.vault.wrappedCurrency (·.credit amount)
          (Balances.modify r.requester r.griefingCurrency (·.release r.griefingCollateral)
            (MultiCurrency.balances s.tokens)))

/-- The griefing collateral is still reserved, the vault can say what it takes of a surplus, and
the new tokens fit into the balances. -/
def CanHonourIssue (env : Env AccountId CurrencyId H256)
    (s : Chain AccountId CurrencyId H256 F Tokens) (vault : Vault)
    (r : IssueRequest AccountId CurrencyId) (paid : ℕ) : Prop :=
  r.griefingCollateral ≤
      (MultiCurrency.balances s.tokens r.requester r.griefingCurrency).reserved ∧
    ∃ accepted,
      AcceptsSurplus env s r.vault vault (paid - (r.amount + r.fee)) accepted ∧
      vault.issuedTokens + (r.amount + r.fee + accepted) ≤ maxBalance ∧
      (r.amount + r.fee + accepted = 0 ∨
        totalIssuance s.tokens r.vault.wrappedCurrency + (r.amount + r.fee + accepted) ≤
          maxBalance)

section

omit [DecidableEq H256]

/-- Rewards that cannot be distributed are swept from the fee pool to the fee pool. -/
theorem distributeRewards_succeeds : (distributeRewards x).succeeds s = true := by
  have hdistribute : (distribute x : ChainCall AccountId CurrencyId H256 F Tokens _).NeverFails :=
    .bind (Call.attempt_neverFails _) fun r => by cases r <;> exact .pure _
  obtain ⟨r, s₁, h⟩ := hdistribute s
  refine Call.succeeds_bind_of_ok h ?_
  by_cases hz : r.isZero
  · rw [if_pos hz]
    rfl
  · rw [if_neg hz, onTokens, Lens.zoom_succeeds]
    exact Amount.transfer_succeeds_iff.mpr (.inl rfl)

private theorem distributeRewards_balances :
    Keeps (fun s => MultiCurrency.balances s.tokens)
      (distributeRewards x : ChainCall AccountId CurrencyId H256 F Tokens _) := by
  refine .bind (.bind (Frames.attempt (.zoom fun _ _ => rfl)).ok fun r => ?_) fun _ =>
    .ite (.pure _) ?_
  · cases r <;> exact .pure _
  · intro s u s' h
    obtain ⟨t, ht, rfl⟩ := Lens.run_zoom_eq_ok.mp h
    exact (Amount.run_transfer ht).2.trans (if_pos rfl)

end

private theorem run_executeIssue_paid {executor : AccountId}
    {payment : BtcAddress → Except DispatchError ℕ}
    (hr : s.issueRequests issueId = some issue) (hp : issue.status = .pending)
    (hv : s.registry.vaults issue.vault = some vault) (hactive : vault.isLiquidated = false)
    (hpaid : payment issue.btcAddress = .ok n) (hle : issue.amount + issue.fee ≤ n)
    (h : (executeIssue env executor issueId payment).run s = .ok () s') :
    HonoursIssue env s executor issueId payment issue ∧ CanHonourIssue env s vault issue n := by
  have hrun := h
  simp only [executeIssue, Call.run_bind_eq_ok, Call.run_ofExcept_eq_ok, Call.run_reads_eq_ok,
    getIssueRequestFromId_eq_ok, Amount.checkedAdd_eq_ok, hr, Option.some.injEq, and_assoc,
    exists_and_left, exists_eq_left', hpaid, Except.ok.injEq, hp] at h
  obtain ⟨-, -, -, r, s₁, hexec, -, -, _, s₂, hissue, _, s₃, hmint, _, s₄, hfee, _, s₅, hdist,
    hset⟩ := h
  obtain ⟨⟨hvault, hrequester, -⟩, hreserved, hsupply₁, hbalances₁, accepted, haccepts, htotal, -,
    hcounters⟩ := run_executePendingIssue_paid hv hactive hle rfl rfl hexec
  have htotal : r.amount + r.fee = issue.amount + issue.fee + accepted := htotal
  obtain ⟨registry, hissueTokens, rfl⟩ := Lens.run_zoom_eq_ok.mp hissue
  obtain ⟨t₃, hmintTo, rfl⟩ := Lens.run_zoom_eq_ok.mp hmint
  obtain ⟨t₄, hfeeTo, rfl⟩ := Lens.run_zoom_eq_ok.mp hfee
  obtain rfl := Call.run_modify_eq_ok.mp hset
  -- what is minted fits
  obtain ⟨-, -, -, hmax, -⟩ := VaultRegistry.run_issueTokens hissueTokens
  have hhome : s₁.registry.counters.home pairOf r.vault = .inl issue.vault := by
    rw [hvault, hcounters, Counters.home_of_active]
    exact (RichVault.Current.isLiquidated (v := ⟨issue.vault, vault⟩) hv).trans hactive
  have hissued : s₁.registry.counters.issued (.inl issue.vault) = vault.issuedTokens := by
    rw [hcounters]
    exact RichVault.Current.issued (v := ⟨issue.vault, vault⟩) hv
  have hfits := Amount.mintTo_succeeds_iff.mp (Call.succeeds_iff.mpr ⟨_, _, hmintTo⟩)
  have hfits' := Amount.mintTo_succeeds_iff.mp (Call.succeeds_iff.mpr ⟨_, _, hfeeTo⟩)
  obtain ⟨hsupply₃, hbalances₃⟩ := Amount.run_mintTo hmintTo
  obtain ⟨hsupply₄, hbalances₄⟩ := Amount.run_mintTo hfeeTo
  have hdist₁ := congrArg Outside.issuance (distributeRewards_staysInPools _ _ _ hdist)
  have hdist₂ := distributeRewards_balances _ _ _ hdist
  change totalIssuance t₃ = Function.update (totalIssuance s₁.tokens) r.vault.wrappedCurrency
    (totalIssuance s₁.tokens r.vault.wrappedCurrency + r.amount) at hsupply₃
  change totalIssuance t₄ = Function.update (totalIssuance t₃) r.vault.wrappedCurrency
    (totalIssuance t₃ r.vault.wrappedCurrency + r.fee) at hsupply₄
  change _ = Balances.modify r.requester r.vault.wrappedCurrency _
    (MultiCurrency.balances s₁.tokens) at hbalances₃
  change _ = Balances.modify AccountConfig.feePool r.vault.wrappedCurrency _
    (MultiCurrency.balances t₃) at hbalances₄
  change _ = totalIssuance t₄ at hdist₁
  change _ = MultiCurrency.balances t₄ at hdist₂
  change r.amount = 0 ∨ totalIssuance s₁.tokens r.vault.wrappedCurrency + r.amount ≤ _ at hfits
  change r.fee = 0 ∨ totalIssuance t₃ r.vault.wrappedCurrency + r.fee ≤ _ at hfits'
  change s₁.registry.counters.issued (s₁.registry.counters.home pairOf r.vault) +
    (r.amount + r.fee) ≤ maxBalance at hmax
  rw [hhome, hissued] at hmax
  rw [hsupply₃, hsupply₁, Function.update_self] at hfits' hsupply₄
  rw [hsupply₁] at hfits hsupply₃
  rw [hvault] at hfits hfits' hsupply₄ hsupply₃ hbalances₃ hbalances₄
  refine ⟨⟨_, r.amount, r.fee, hrun, by omega, ?_, ?_⟩, hreserved, accepted, haccepts, by omega,
    by omega⟩
  · change totalIssuance s₅.tokens _ = _
    rw [show totalIssuance s₅.tokens = _ from hdist₁, hsupply₄, Function.update_self]
    omega
  · change MultiCurrency.balances s₅.tokens = _
    rw [hbalances₃, hrequester, hbalances₁] at hbalances₄
    exact hdist₂.trans hbalances₄

private theorem executeIssue_paid_succeeds {executor : AccountId}
    {payment : BtcAddress → Except DispatchError ℕ}
    (hr : s.issueRequests issueId = some issue) (hp : issue.status = .pending)
    (hv : s.registry.vaults issue.vault = some vault) (hactive : vault.isLiquidated = false)
    (hpaid : payment issue.btcAddress = .ok n) (hle : issue.amount + issue.fee ≤ n)
    (hdue : issue.amount + issue.fee ≤ vault.toBeIssuedTokens)
    (h : CanHonourIssue env s vault issue n) :
    (executeIssue env executor issueId payment).succeeds s = true := by
  obtain ⟨hreserved, accepted, haccepts, hissued, hsupply⟩ := h
  have hget : s.getIssueRequestFromId issueId = .ok issue :=
    getIssueRequestFromId_eq_ok.mpr ⟨hr, by simp [hp]⟩
  have htotal : issue.amountIssued.checkedAdd issue.feeIssued =
      .ok ⟨issue.amount + issue.fee, issue.vault.wrappedCurrency⟩ :=
    Amount.checkedAdd_eq_ok.mpr ⟨rfl, by
      change issue.amount + issue.fee ≤ maxBalance
      omega, rfl⟩
  refine Call.succeeds_bind_of_ok (Call.run_reads_eq_ok.mpr ⟨hget, rfl⟩) ?_
  refine Call.succeeds_bind_of_ok (Call.run_ofExcept_eq_ok.mpr ⟨hpaid, rfl⟩) ?_
  refine Call.succeeds_bind_of_ok (Call.run_ofExcept_eq_ok.mpr ⟨htotal, rfl⟩) ?_
  rw [hp]
  have hpending : (executePendingIssue env executor issueId issue
      ⟨n, issue.vault.wrappedCurrency⟩
      ⟨issue.amount + issue.fee, issue.vault.wrappedCurrency⟩).succeeds s = true :=
    executePendingIssue_paid_succeeds hv hactive hle rfl rfl rfl haccepts
      (by simp only; omega) hreserved
  obtain ⟨r, s₁, hexec⟩ := Call.succeeds_iff.mp hpending
  obtain ⟨⟨hvault, hrequester, -⟩, -, hsupply₁, -, accepted', haccepts', htotal', hrest,
    hcounters⟩ :=
    run_executePendingIssue_paid hv hactive hle rfl rfl hexec
  obtain rfl := haccepts.unique haccepts'
  have htotal' : r.amount + r.fee = issue.amount + issue.fee + accepted := htotal'
  refine Call.succeeds_bind_of_ok hexec ?_
  refine Call.succeeds_bind_of_ok (Call.run_ofExcept_eq_ok.mpr
    ⟨Amount.checkedAdd_eq_ok.mpr ⟨rfl, by
      change r.amount + r.fee ≤ maxBalance
      omega, rfl⟩, rfl⟩) ?_
  -- the tokens to be issued were increased by what is issued on top
  have hc : (⟨issue.vault, vault⟩ : RichVault AccountId CurrencyId).Current s.registry := hv
  obtain ⟨vault', hv', -⟩ := VaultRegistry.vault_of_rest hrest hv
  have hhome : s₁.registry.counters.home pairOf issue.vault = .inl issue.vault := by
    rw [hcounters, Counters.home_of_active]
    exact hc.isLiquidated.trans hactive
  refine Call.succeeds_bind ?_ fun _ s₂ h₂ => ?_
  · rw [onRegistry, Lens.zoom_succeeds, hvault]
    refine VaultRegistry.issueTokens_succeeds hv' (congrArg VaultId.wrappedCurrency hvault).symm
      ?_ ?_
    · change r.amount + r.fee ≤
        s₁.registry.counters.toBeIssued (s₁.registry.counters.home pairOf issue.vault)
      have hdue' : s.registry.counters.toBeIssued (.inl issue.vault) = vault.toBeIssuedTokens :=
        hc.toBeIssued
      rw [hhome, hcounters]
      simp only [Counters.addToBeIssued, bump, if_true]
      omega
    · change s₁.registry.counters.issued (s₁.registry.counters.home pairOf issue.vault) +
        (r.amount + r.fee) ≤ maxBalance
      have hissued' : s.registry.counters.issued (.inl issue.vault) = vault.issuedTokens :=
        hc.issued
      rw [hhome, hcounters]
      change s.registry.counters.issued (.inl issue.vault) + _ ≤ _
      omega
  obtain ⟨registry, -, rfl⟩ := Lens.run_zoom_eq_ok.mp h₂
  refine Call.succeeds_bind ?_ fun _ s₃ h₃ => ?_
  · rw [onTokens, Lens.zoom_succeeds, Amount.mintTo_succeeds_iff]
    change r.amount = 0 ∨ totalIssuance s₁.tokens r.vault.wrappedCurrency + r.amount ≤ _
    rw [hsupply₁, hvault]
    omega
  obtain ⟨t₃, hmint, rfl⟩ := Lens.run_zoom_eq_ok.mp h₃
  obtain ⟨hsupply₃, -⟩ := Amount.run_mintTo hmint
  refine Call.succeeds_bind ?_ fun _ s₄ _ =>
    Call.succeeds_bind distributeRewards_succeeds fun _ _ _ => rfl
  rw [onTokens, Lens.zoom_succeeds, Amount.mintTo_succeeds_iff]
  change totalIssuance t₃ = Function.update (totalIssuance s₁.tokens) r.vault.wrappedCurrency
    (totalIssuance s₁.tokens r.vault.wrappedCurrency + r.amount) at hsupply₃
  change r.fee = 0 ∨ totalIssuance t₃ r.vault.wrappedCurrency + r.fee ≤ _
  rw [hsupply₃, hsupply₁, Function.update_self, hvault]
  omega

private theorem honoursIssue_iff {executor : AccountId}
    {payment : BtcAddress → Except DispatchError ℕ}
    (hr : s.issueRequests issueId = some issue) (hp : issue.status = .pending)
    (hv : s.registry.vaults issue.vault = some vault) (hactive : vault.isLiquidated = false)
    (hpaid : payment issue.btcAddress = .ok n) (hle : issue.amount + issue.fee ≤ n)
    (hdue : issue.amount + issue.fee ≤ vault.toBeIssuedTokens) :
    HonoursIssue env s executor issueId payment issue ↔ CanHonourIssue env s vault issue n := by
  constructor
  · rintro ⟨s', amount, fee, h, -⟩
    exact (run_executeIssue_paid hr hp hv hactive hpaid hle h).2
  · intro h
    have hsucceeds : (executeIssue env executor issueId payment).succeeds s = true :=
      executeIssue_paid_succeeds hr hp hv hactive hpaid hle hdue h
    obtain ⟨_, s', hrun⟩ := Call.succeeds_iff.mp hsucceeds
    exact (run_executeIssue_paid hr hp hv hactive hpaid hle hrun).1

/-- In every state that is reached recovering idle vaults only, a pending request of an active
vault that is paid in full is honoured exactly if the griefing collateral is still reserved, the
vault can say what it takes of a surplus, and the tokens fit into the balances. -/
theorem paid_issue_honoured_iff [Fintype AccountId] [Fintype CurrencyId] [Fintype H256]
    {tokens : Tokens} {calls : List (Dispatch AccountId CurrencyId H256)}
    (h : Meets step RecoversIdle (genesis tokens : Chain AccountId CurrencyId H256 F Tokens) calls)
    (hr : (run step (genesis tokens : Chain AccountId CurrencyId H256 F Tokens)
      calls).issueRequests issueId = some issue)
    (hp : issue.status = .pending)
    (hv : (run step (genesis tokens : Chain AccountId CurrencyId H256 F Tokens)
      calls).registry.vaults issue.vault = some vault)
    (hactive : vault.isLiquidated = false) (env : Env AccountId CurrencyId H256)
    (executor : AccountId) {payment : BtcAddress → Except DispatchError ℕ}
    (hpaid : payment issue.btcAddress = .ok n) (hle : issue.amount + issue.fee ≤ n) :
    HonoursIssue env (run step (genesis tokens : Chain AccountId CurrencyId H256 F Tokens) calls)
        executor issueId payment issue ↔
      CanHonourIssue env (run step (genesis tokens : Chain AccountId CurrencyId H256 F Tokens)
        calls) vault issue n := by
  have hs := run_invariant (fun _ _ => step_covering) (genesis_covering tokens) h
  refine honoursIssue_iff hr hp hv hactive hpaid hle ?_
  have henough := hs.enough hr hp
  have hc : (⟨issue.vault, vault⟩ : RichVault AccountId CurrencyId).Current _ := hv
  rw [Counters.home_of_active _ (hc.isLiquidated.trans hactive)] at henough
  exact henough.trans hc.toBeIssued.le

end Interbtc.Chain

/-! ## A vault that takes no new issues -/

namespace Interbtc.Sample

open Core

/-- A second issue is requested. -/
def issuePending : List Dispatch :=
  issued ++ [({ env with secureId := 1 }, .requestIssue .carol 50 vaultA .intr)]

/-- The vault stops accepting issues while one is pending. -/
def issuePendingClosed : List Dispatch := issuePending ++ [(env, .acceptNewIssues vaultA false)]

/-- An overpaid issue is executed. -/
theorem issuePending_honoured :
    Chain.HonoursIssue env (run Chain.step start issuePending) .carol 1 (fun _ => .ok 60)
      openIssue := by
  have hvault : (run Chain.step start issuePending).registry.vaults vaultA =
      some { Vault.new with toBeIssuedTokens := 50, issuedTokens := 100 } := by decide +kernel
  have hissuable : Chain.getIssuableTokensFromVault env (run Chain.step start issuePending) vaultA =
      .ok ⟨350, .ibtc⟩ := by decide +kernel
  have hsupply : (run Chain.step start issuePending).tokens.issuance .ibtc = 100 := by
    decide +kernel
  refine (Chain.paid_issue_honoured_iff (by decide +kernel) (by decide +kernel) rfl hvault rfl env
    .carol rfl (by decide)).mpr ⟨Nat.zero_le _, 10, ?_, by decide, ?_⟩
  · exact ⟨_, hissuable, rfl, by decide⟩
  · refine .inr ?_
    change (run Chain.step start issuePending).tokens.issuance .ibtc + _ ≤ _
    rw [hsupply]
    decide

/-- An overpaid request fails when its vault has stopped taking new issues. -/
theorem issuePendingClosed_fails :
    ¬ Chain.HonoursIssue env (run Chain.step start issuePendingClosed) .carol 1
        (fun _ => .ok 60) openIssue ∧
      (run Chain.step start issuePendingClosed).issueRequests 1 = some openIssue ∧
      (Chain.executeIssue env .carol 1 fun _ => .ok 60).error?
        (run Chain.step start issuePendingClosed) = some (.currency .invalidCurrency) := by
  have herror : (Chain.executeIssue env .carol 1 fun _ => .ok 60).error?
      (run Chain.step start issuePendingClosed) = some (.currency .invalidCurrency) := by
    decide +kernel
  refine ⟨?_, by decide +kernel, herror⟩
  rintro ⟨s', _, _, h, -⟩
  cases herror.symm.trans (Call.error?_of_ok h)

end Interbtc.Sample
