import Interbtc.Accounting.Effects

/-!
# Replacing and liquidating in the books

An accepted request takes tokens from the old vault and gives as many to the new one to
issue. When a cancelled one is executed after all, nothing has reserved its tokens.
-/

namespace Interbtc

open Core MultiCurrency

/-- A replace request is between two vaults with the same wrapped currency. -/
def ReplaceRequest.Valid {AccountId CurrencyId : Type} (r : ReplaceRequest AccountId CurrencyId) :
    Prop :=
  r.oldVault ≠ r.newVault ∧ r.oldVault.wrappedCurrency = r.newVault.wrappedCurrency

namespace Chain

variable {AccountId CurrencyId H256 F Tokens : Type} [DecidableEq AccountId]
  [DecidableEq CurrencyId] [DecidableEq H256] [FixedPointNumber F]
  [MultiCurrency Tokens AccountId CurrencyId] [LawfulMultiCurrency Tokens]
  [CurrencyConfig CurrencyId] [AccountConfig AccountId]
  {s s' : Chain AccountId CurrencyId H256 F Tokens} {env : Env AccountId CurrencyId H256}
  {vaultId oldVaultId newVaultId : VaultId AccountId CurrencyId} {x y z : Amount CurrencyId}
  {replaceId : H256} {replace : ReplaceRequest AccountId CurrencyId} {u : Unit}

/-! ## Requests -/

section

omit [DecidableEq AccountId] [DecidableEq CurrencyId] [DecidableEq H256] [FixedPointNumber F]
  [MultiCurrency Tokens AccountId CurrencyId] [LawfulMultiCurrency Tokens]
  [CurrencyConfig CurrencyId] [AccountConfig AccountId]

private theorem getOpenReplaceRequest_eq_ok : s.getOpenReplaceRequest replaceId = .ok replace ↔
    s.replaceRequests replaceId = some replace ∧ replace.status = .pending := by
  simp only [getOpenReplaceRequest, except_bind_eq_ok, okOr_eq_ok]
  constructor
  · rintro ⟨r, hr, h⟩
    cases hs : r.status <;> rw [hs] at h <;> cases h
    exact ⟨hr, hs⟩
  · rintro ⟨hr, hs⟩
    exact ⟨replace, hr, by rw [hs]; rfl⟩

private theorem getOpenOrCancelledReplaceRequest_eq_ok :
    s.getOpenOrCancelledReplaceRequest replaceId = .ok replace ↔
      s.replaceRequests replaceId = some replace ∧ replace.status ≠ .completed := by
  simp only [getOpenOrCancelledReplaceRequest, except_bind_eq_ok, okOr_eq_ok]
  constructor
  · rintro ⟨r, hr, h⟩
    cases hs : r.status <;> rw [hs] at h <;> cases h
    all_goals exact ⟨hr, by simp [hs]⟩
  · rintro ⟨hr, hs⟩
    refine ⟨replace, hr, ?_⟩
    cases h : replace.status
    · rfl
    · exact absurd h hs
    · rfl

end

omit [DecidableEq AccountId] [DecidableEq CurrencyId] [DecidableEq H256] [FixedPointNumber F]
  [LawfulMultiCurrency Tokens] [CurrencyConfig CurrencyId] [AccountConfig AccountId] in
private theorem books_replaces_of_pending (hr : s.replaceRequests replaceId = some replace)
    (hs : replace.status = .pending) :
    s.books.replaces replaceId = some ⟨replace.oldVault, replace.newVault, replace.amount⟩ := by
  change (s.replaceRequests replaceId).bind ReplaceRequest.handover = _
  rw [hr, Option.bind_some, ReplaceRequest.handover, if_pos hs]

omit [DecidableEq AccountId] [DecidableEq CurrencyId] [FixedPointNumber F]
  [LawfulMultiCurrency Tokens] [CurrencyConfig CurrencyId] [AccountConfig AccountId] in
private theorem run_setReplaceStatus {status : ReplaceRequestStatus}
    (h : (setReplaceStatus replaceId status : ChainCall AccountId CurrencyId H256 F Tokens _).run s =
      .ok u s') :
    s'.records = s.records.setReplace replaceId
      ((s.replaceRequests replaceId).map fun r => { r with status := status }) := by
  simp only [setReplaceStatus, Call.run_modify_eq_ok] at h
  rw [← h]
  rfl

omit [DecidableEq AccountId] [DecidableEq CurrencyId] [CurrencyConfig CurrencyId]
  [AccountConfig AccountId] in
private theorem handover_of_ne_pending {status : ReplaceRequestStatus} (hs : status ≠ .pending)
    (q : Option (ReplaceRequest AccountId CurrencyId)) :
    (q.map fun r => { r with status := status }).bind ReplaceRequest.handover = none := by
  cases q with
  | none => rfl
  | some r => exact if_neg hs

/-- Asking for a replacement is a step of the books. -/
theorem requestReplace_books {n : ℕ} (h : (requestReplace env vaultId n).run s = .ok u s') :
    Continues s s' := by
  simp only [requestReplace, Call.run_bind_eq_ok, Call.run_get_eq_ok, Call.run_ofExcept_eq_ok,
    Call.run_ensure_eq_ok, and_assoc, exists_and_left, exists_eq_left', exists_const] at h
  obtain ⟨_, -, -, _, -, x, -, -, _, s₁, hinc, _, -, -, _, -, _, -, hfunds⟩ := h
  obtain ⟨hrun, hrec₁⟩ := run_onRegistry hinc
  obtain ⟨hl, -, -, hle, -, hct⟩ := VaultRegistry.run_tryIncreaseToBeReplacedTokens hrun
  have hrec := transferFunds_recordsNothing _ _ _ hfunds
  rw [hrec₁, hct] at hrec
  have hbooks : s'.books = { s.books with
      toCounters := s.registry.counters.setToBeReplaced vaultId
        (s.registry.counters.toBeReplaced vaultId + x.amount) } := by
    rw [books, hrec]
    rfl
  refine ⟨?_, congrArg Records.replaceRequests hrec⟩
  rw [hbooks]
  refine .single (.setToBeReplaced s.books vaultId _ (.inr ⟨hl, ?_⟩))
  change s.registry.counters.toBeRedeemed (.inl vaultId) + _ ≤ s.registry.counters.issued _
  omega

/-- Taking back a replace request is a step of the books. -/
theorem withdrawReplace_books {n : ℕ} (h : (withdrawReplace env vaultId n).run s = .ok u s') :
    Continues s s' := by
  simp only [withdrawReplace, Call.run_bind_eq_ok, Call.run_ensure_eq_ok] at h
  obtain ⟨_, s₁, hwithdraw, -, rfl⟩ := h
  obtain ⟨-, hrec⟩ := run_withdrawReplaceRequest hwithdraw
  have hbooks : s₁.books = { s.books with
      toCounters := s.registry.counters.setToBeReplaced vaultId
        (s.registry.counters.toBeReplaced vaultId - n) } := by
    rw [books, hrec]
    rfl
  refine ⟨?_, congrArg Records.replaceRequests hrec⟩
  rw [hbooks]
  exact .single (.setToBeReplaced s.books vaultId _ (.inl (Nat.sub_le _ _)))

/-! ## Acceptance -/

/-- An accepted request has reserved its tokens with both vaults. -/
theorem run_acceptReplace {n collateral : ℕ} {btcAddress : BtcAddress}
    (h : (acceptReplace env oldVaultId newVaultId n collateral btcAddress).run s = .ok u s') :
    ∃ r : ReplaceRequest AccountId CurrencyId, r.Valid ∧ r.status = .pending ∧
      r.oldVault = oldVaultId ∧ r.newVault = newVaultId ∧
      s.registry.counters.isLiquidated oldVaultId = false ∧
      s.registry.counters.isLiquidated newVaultId = false ∧
      r.amount ≤ s.registry.counters.toBeReplaced oldVaultId ∧
      s.registry.counters.toBeRedeemed (.inl oldVaultId) + r.amount ≤
        s.registry.counters.issued (.inl oldVaultId) ∧
      s'.records = (s.records.setCounters (((s.registry.counters.setToBeReplaced oldVaultId
        (s.registry.counters.toBeReplaced oldVaultId - r.amount)).addToBeRedeemed
          (.inl oldVaultId) r.amount).addToBeIssued (.inl newVaultId) r.amount)).setReplace
            env.secureId (some r) := by
  simp only [acceptReplace, Call.run_bind_eq_ok, Call.run_ofExcept_eq_ok, Call.run_ensure_eq_ok,
    Call.run_reads_eq_ok, Call.run_modify_eq_ok, and_assoc, exists_and_left, exists_eq_left',
    exists_const] at h
  obtain ⟨hne, hcur, _, -, ⟨y, z⟩, s₁, hdec, _, -, -, added, -, _, s₂, hdeposit, _, s₃, haccept,
    _, s₄, hfunds, hs'⟩ := h
  obtain ⟨hrun, hrec₁⟩ := run_onRegistry hdec
  obtain ⟨d, -, -, hy, -, hd, -, hct₁⟩ := VaultRegistry.run_decreaseToBeReplacedTokens hrun
  have hrec₂ : s₂.records = s₁.records := depositCollateral_recordsNothing _ _ _ hdeposit
  have hct₂ : s₂.registry.counters = s₁.registry.counters := congrArg Records.counters hrec₂
  obtain ⟨hold, hnew, -, hle, hrec₃⟩ := run_acceptReplaceTokens haccept
  have hrec₄ := transferFunds_recordsNothing _ _ _ hfunds
  rw [hct₂, hct₁] at hold hnew hle hrec₃
  have hyle : y.amount ≤ s.registry.counters.toBeReplaced oldVaultId := by
    rw [hy, ← hd]
    exact Nat.min_le_right _ _
  have hsub : d.toBeReplacedTokens - n = s.registry.counters.toBeReplaced oldVaultId - y.amount := by
    rw [hy, ← hd]
    change _ = d.toBeReplacedTokens - min n d.toBeReplacedTokens
    omega
  refine ⟨{ oldVault := oldVaultId, newVault := newVaultId, acceptTime := env.activeBlockNumber,
            collateral := added.amount, btcAddress := btcAddress, griefingCollateral := z.amount,
            amount := y.amount, period := env.replacePeriod, btcHeight := env.bestBlockHeight,
            status := .pending }, ⟨hne, hcur⟩, rfl, rfl, rfl, hold, hnew, hyle, hle, ?_⟩
  have hrec' : s'.records = s₄.records.setReplace env.secureId
      (s'.replaceRequests env.secureId) := by
    rw [← hs']
    simp [records, Records.setReplace]
  rw [hrec', hrec₄, hrec₃, hrec₂, hrec₁, hct₁, hsub, ← hs']
  simp only [Function.update_self]
  rfl

/-- The stored replace requests are valid. -/
def ReplacesValid (s : Chain AccountId CurrencyId H256 F Tokens) : Prop :=
  ∀ id r, s.replaceRequests id = some r → r.Valid

omit [DecidableEq AccountId] [DecidableEq CurrencyId] [FixedPointNumber F]
  [MultiCurrency Tokens AccountId CurrencyId] [LawfulMultiCurrency Tokens]
  [CurrencyConfig CurrencyId] [AccountConfig AccountId] in
private theorem ReplacesValid.update (hvalid : s.ReplacesValid) (replaceId : H256)
    (q : ReplaceRequest AccountId CurrencyId) (hq : q.Valid)
    (h : s'.replaceRequests = Function.update s.replaceRequests replaceId (some q)) :
    s'.ReplacesValid := by
  intro id r hr
  rw [h] at hr
  rcases eq_or_ne id replaceId with rfl | hid
  · rw [Function.update_self] at hr
    exact Option.some.inj hr ▸ hq
  · rw [Function.update_of_ne hid] at hr
    exact hvalid id r hr

/-- Accepting a replacement is a step of the books. -/
theorem acceptReplace_books {n collateral : ℕ} {btcAddress : BtcAddress}
    (hvalid : s.ReplacesValid)
    (h : (acceptReplace env oldVaultId newVaultId n collateral btcAddress).run s = .ok u s') :
    Books.Steps pairOf wrappedOf s.books s'.books ∧ s'.ReplacesValid := by
  obtain ⟨r, hr, hs, rfl, rfl, hold, hnew, hreplaced, hle, hrec⟩ := run_acceptReplace h
  refine ⟨?_, hvalid.update env.secureId r hr (congrArg Records.replaceRequests hrec)⟩
  have hopen : (some r).bind ReplaceRequest.handover =
      some ⟨r.oldVault, r.newVault, r.amount⟩ := if_pos hs
  have hbooks : s'.books = { s.books with
      toCounters := ((s.registry.counters.setToBeReplaced r.oldVault
        (s.registry.counters.toBeReplaced r.oldVault - r.amount)).addToBeRedeemed
          (.inl r.oldVault) r.amount).addToBeIssued (.inl r.newVault) r.amount
      replaces := Function.update s.books.replaces env.secureId
        (some ⟨r.oldVault, r.newVault, r.amount⟩) } := by
    rw [books, hrec, Records.books_setReplace, hopen]
    rfl
  rw [hbooks]
  exact .single (.openReplace s.books env.secureId r.oldVault r.newVault r.amount hold hnew
    hreplaced hle)

/-! ## Execution and cancellation -/

/-- A replace moves issued tokens: those reserved for an open request, and for a cancelled one
any that the old vault does not have to redeem. -/
theorem executeReplace_books {payment : BtcAddress → ℕ → H256 → Except DispatchError Unit}
    (hvalid : s.ReplacesValid) (h : (executeReplace env replaceId payment).run s = .ok u s') :
    s'.ReplacesValid ∧ ∃ r, s.replaceRequests replaceId = some r ∧
      (r.status = .pending ∧ Books.Steps pairOf wrappedOf s.books s'.books ∨
        r.status = .cancelled ∧
          s.books.TakeOver pairOf wrappedOf r.oldVault r.newVault r.amount s'.books) := by
  simp only [executeReplace, Call.run_bind_eq_ok, Call.run_ofExcept_eq_ok, Call.run_reads_eq_ok,
    getOpenOrCancelledReplaceRequest_eq_ok, and_assoc, exists_and_left, exists_eq_left'] at h
  obtain ⟨r, hr, hs, _, -, _, s₁, haccept, _, s₂, hreplace, hset⟩ := h
  obtain ⟨hne, hcur⟩ := hvalid replaceId r hr
  obtain ⟨hle, hissued, hnew, hmax, hrec₂⟩ := run_replaceTokens hne hreplace
  have hrec := run_setReplaceStatus hset
  rw [show r.amountReplaced.amount = r.amount from rfl] at hle hissued hnew hmax hrec₂
  have hreplaces : s₂.replaceRequests = s.replaceRequests := by
    have hkeep : s₁.replaceRequests = s.replaceRequests := by
      cases hstatus : r.status with
      | completed => exact absurd hstatus hs
      | pending =>
        rw [hstatus] at haccept
        exact congrArg Records.replaceRequests (transferFunds_recordsNothing _ _ _ haccept)
      | cancelled =>
        rw [hstatus] at haccept
        obtain ⟨-, -, -, -, hrec₁⟩ := run_acceptReplaceTokens haccept
        exact congrArg Records.replaceRequests hrec₁
    exact (congrArg Records.replaceRequests hrec₂).trans hkeep
  refine ⟨hvalid.update replaceId { r with status := .completed } ⟨hne, hcur⟩ ?_, r, hr, ?_⟩
  · refine (congrArg Records.replaceRequests hrec).trans ?_
    change Function.update s₂.replaceRequests replaceId _ = _
    rw [hreplaces, hr]
    rfl
  cases hstatus : r.status with
  | completed => exact absurd hstatus hs
  | pending =>
    rw [hstatus] at haccept
    have hrec₁ : s₁.records = s.records := transferFunds_recordsNothing _ _ _ haccept
    have hct₁ : s₁.registry.counters = s.registry.counters := congrArg Records.counters hrec₁
    rw [hct₁] at hle hissued hnew hmax hrec₂
    rw [hrec₁] at hrec₂
    refine .inl ⟨rfl, ?_⟩
    have hbooks : s'.books = { s.books with
        toCounters := (((s.books.subToBeRedeemed pairOf r.oldVault r.amount).subIssued
          (s.books.home pairOf r.oldVault) r.amount).subToBeIssued
            (s.books.home pairOf r.newVault) r.amount).addIssued
              (s.books.home pairOf r.newVault) r.amount
        replaces := Function.update s.books.replaces replaceId none } := by
      rw [books, hrec, Records.books_setReplace, handover_of_ne_pending (by decide), hrec₂]
      rfl
    rw [hbooks]
    exact .single (.settleReplace s.books replaceId r.oldVault r.newVault r.amount
      (books_replaces_of_pending hr hstatus) hcur hle hissued hnew hmax)
  | cancelled =>
    rw [hstatus] at haccept
    obtain ⟨hold, hnewl, -, henough, hrec₁⟩ := run_acceptReplaceTokens haccept
    change _ = s.records.setCounters ((s.registry.counters.addToBeRedeemed _ r.amount).addToBeIssued
      _ r.amount) at hrec₁
    change _ + r.amount ≤ _ at henough
    have hct₁ : s₁.registry.counters =
        (s.registry.counters.addToBeRedeemed (.inl r.oldVault) r.amount).addToBeIssued
          (.inl r.newVault) r.amount := congrArg Records.counters hrec₁
    have hho : ((s.registry.counters.addToBeRedeemed (.inl r.oldVault) r.amount).addToBeIssued
        (.inl r.newVault) r.amount).home pairOf r.oldVault = .inl r.oldVault :=
      Counters.home_of_active pairOf hold
    have hhn : ((s.registry.counters.addToBeRedeemed (.inl r.oldVault) r.amount).addToBeIssued
        (.inl r.newVault) r.amount).home pairOf r.newVault = .inl r.newVault :=
      Counters.home_of_active pairOf hnewl
    rw [hct₁, hho, hhn] at hmax hrec₂
    have hclosed : s.books.replaces replaceId = none := by
      change (s.replaceRequests replaceId).bind ReplaceRequest.handover = none
      rw [hr]
      exact if_neg (by rw [hstatus]; decide)
    refine .inr ⟨rfl, ⟨hold, hnewl, hne, hcur, henough, ?_, ?_⟩⟩
    · change drop s.registry.counters.issued (.inl r.oldVault) r.amount (.inl r.newVault) +
        r.amount ≤ maxBalance at hmax
      change s.registry.counters.issued (.inl r.newVault) + r.amount ≤ maxBalance
      simpa [drop, hne.symm] using hmax
    · have hback₁ : drop (bump s.registry.counters.toBeRedeemed (.inl r.oldVault) r.amount)
          (.inl r.oldVault) r.amount = s.registry.counters.toBeRedeemed :=
        (drop_bump _ _ r.amount 0).trans (drop_zero _ _)
      have hback₂ : drop (bump s.registry.counters.toBeIssued (.inl r.newVault) r.amount)
          (.inl r.newVault) r.amount = s.registry.counters.toBeIssued :=
        (drop_bump _ _ r.amount 0).trans (drop_zero _ _)
      rw [books, hrec, Records.books_setReplace, handover_of_ne_pending (by decide), hrec₂, hrec₁]
      simp only [Records.books_setCounters, Counters.subToBeRedeemed, Counters.addToBeRedeemed,
        Counters.subIssued, Counters.addToBeIssued, Counters.subToBeIssued, Counters.addIssued,
        hold, hback₁, hback₂, Bool.false_eq_true, if_false]
      rw [Function.update_eq_self_iff.mpr hclosed.symm]
      rfl

omit [DecidableEq H256] in
private theorem releaseAddedCollateral_recordsNothing :
    RecordsNothing (releaseAddedCollateral env vaultId x :
      ChainCall AccountId CurrencyId H256 F Tokens _) :=
  .bind (.reads _) fun _ => .ite (.pure _) (.bind (.reads _) fun _ =>
    .ite forceWithdrawCollateral_recordsNothing (.pure _))

/-- What a cancelled request has reserved is free again. -/
theorem cancelReplace_books (hvalid : s.ReplacesValid)
    (h : (cancelReplace env replaceId).run s = .ok u s') :
    Books.Steps pairOf wrappedOf s.books s'.books ∧ s'.ReplacesValid := by
  simp only [cancelReplace, Call.run_bind_eq_ok, Call.run_ofExcept_eq_ok, Call.run_reads_eq_ok,
    Call.run_ensure_eq_ok, getOpenReplaceRequest_eq_ok, and_assoc, exists_and_left,
    exists_eq_left', exists_const] at h
  obtain ⟨r, hr, hs, _, -, -, _, s₁, hcancel, _, s₂, hfunds, _, s₃, hrelease, hset⟩ := h
  obtain ⟨hne, hcur⟩ := hvalid replaceId r hr
  obtain ⟨hle, hnew, hrec₁⟩ := run_cancelReplaceTokens hne hcancel
  have hrec₃ : s₃.records = s₁.records :=
    (releaseAddedCollateral_recordsNothing _ _ _ hrelease).trans
      (transferFunds_recordsNothing _ _ _ hfunds)
  have hrec := run_setReplaceStatus hset
  rw [hrec₃, hrec₁] at hrec
  have hreplaces : s₃.replaceRequests = s.replaceRequests :=
    congrArg Records.replaceRequests (hrec₃.trans hrec₁)
  refine ⟨?_, hvalid.update replaceId { r with status := .cancelled } ⟨hne, hcur⟩ ?_⟩
  rotate_left
  · refine (congrArg Records.replaceRequests hrec).trans ?_
    rw [hreplaces, hr]
    rfl
  have hbooks : s'.books = { s.books with
      toCounters := (s.registry.counters.subToBeRedeemed pairOf r.oldVault r.amount).subToBeIssued
        (s.registry.counters.home pairOf r.newVault) r.amount
      replaces := Function.update s.books.replaces replaceId none } := by
    rw [books, hrec, Records.books_setReplace, handover_of_ne_pending (by decide)]
    rfl
  rw [hbooks]
  exact .single (.releaseReplace s.books replaceId r.oldVault r.newVault r.amount
    (books_replaces_of_pending hr hs) hle hnew)

/-! ## Liquidation and recovery -/

/-- Reporting a vault is a step of the books. -/
theorem reportUndercollateralizedVault_books
    (h : (reportUndercollateralizedVault env vaultId).run s = .ok u s') :
    Continues s s' := by
  simp only [reportUndercollateralizedVault, liquidateVault, Call.run_bind_eq_ok,
    Call.run_get_eq_ok, Call.run_ofExcept_eq_ok, Call.run_ofOption_eq_ok, Call.run_ite_eq_ok,
    Call.run_throw_eq_ok, and_false, or_false,
    VaultRegistry.getActiveRichVaultFromId_eq_ok, and_assoc, exists_and_left,
    exists_eq_left'] at h
  obtain ⟨_, -, _, -, _, -, -, vault, rfl, hc, hl, _, -, h⟩ := h
  obtain ⟨hmax, hrec⟩ := run_liquidate hc h
  have hl' : s.registry.counters.isLiquidated vault.id = false := by rw [hc.isLiquidated, hl]
  have hbooks : s'.books = { s.books with
      toCounters := (s.registry.counters.setToBeReplaced vault.id 0).liquidate pairOf
        vault.id } := by
    rw [books, hrec]
    rfl
  refine ⟨?_, congrArg Records.replaceRequests hrec⟩
  rw [hbooks]
  refine .tail (.single (.setToBeReplaced s.books vault.id 0 (.inl (Nat.zero_le _))))
    (.liquidate _ vault.id hl' ?_ hmax)
  exact Function.update_self ..

omit [DecidableEq H256] [FixedPointNumber F] [LawfulMultiCurrency Tokens]
  [CurrencyConfig CurrencyId] [AccountConfig AccountId] in
/-- Recovering a vault is a recovery of the books. -/
theorem recoverVaultId_books
    (h : (recoverVaultId vaultId : ChainCall AccountId CurrencyId H256 F Tokens _).run s = .ok u s') :
    s.books.Recovery vaultId s'.books ∧ s'.replaceRequests = s.replaceRequests := by
  obtain ⟨hrun, hrec⟩ := run_onRegistry h
  refine ⟨?_, congrArg Records.replaceRequests hrec⟩
  simp only [Call.run_bind_eq_ok, Call.run_reads_eq_ok, Call.run_ensure_eq_ok, Call.run_pure_eq_ok,
    VaultRegistry.isVaultLiquidated_eq_ok, VaultRegistry.getRichVaultFromId_eq_ok, and_assoc,
    exists_and_left, exists_eq_left', exists_const] at hrun
  obtain ⟨_, ⟨d, hd, hl⟩, rfl, v, rfl, hc, hz, _, _, hupdate, -, hr⟩ := hrun
  obtain ⟨-, hr'⟩ := RichVault.run_update hupdate
  have hvd : v.data = d := Option.some.inj (hc.symm.trans hd)
  refine ⟨hc.isLiquidated.trans (hvd ▸ hl), hc.toBeRedeemed.trans hz, ?_⟩
  have hct : s'.registry.counters = s.registry.counters.recover v.id := by
    rw [← hr, hr', VaultRegistry.counters_setVault]
    ext1
    · rfl
    · exact Function.update_eq_self_iff.mpr hc.toBeIssued.symm
    · exact Function.update_eq_self_iff.mpr hc.issued.symm
    · exact Function.update_eq_self_iff.mpr hc.toBeRedeemed.symm
    · exact Function.update_eq_self_iff.mpr hc.toBeReplaced.symm
  rw [books, hrec, hct]
  rfl

end Chain

end Interbtc
