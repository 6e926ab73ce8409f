import Interbtc.Accounting.Effects

/-!
# Redeeming in the books

A request opens an obligation. Its execution burns the tokens, and so does a cancellation
that pays the redeemer in collateral, unless the vault can back the tokens it gets instead.
-/

namespace Interbtc

open Core MultiCurrency

/-- The tokens of a request that the vault burns. -/
def RedeemRequest.burned {AccountId CurrencyId : Type} (r : RedeemRequest AccountId CurrencyId) :
    ℕ :=
  r.amountBtc + r.transferFeeBtc

namespace Chain

variable {AccountId CurrencyId H256 F Tokens : Type} [DecidableEq AccountId]
  [DecidableEq CurrencyId] [DecidableEq H256] [FixedPointNumber F]
  [MultiCurrency Tokens AccountId CurrencyId] [LawfulMultiCurrency Tokens]
  [CurrencyConfig CurrencyId] [AccountConfig AccountId]
  {s s' : Chain AccountId CurrencyId H256 F Tokens} {env : Env AccountId CurrencyId H256}
  {vaultId : VaultId AccountId CurrencyId} {x y z : Amount CurrencyId} {a : AccountId}
  {redeemId : H256} {redeem : RedeemRequest AccountId CurrencyId} {u : Unit}

/-! ## Requests -/

omit [DecidableEq AccountId] [DecidableEq CurrencyId] [DecidableEq H256] [FixedPointNumber F]
  [MultiCurrency Tokens AccountId CurrencyId] [LawfulMultiCurrency Tokens]
  [CurrencyConfig CurrencyId] [AccountConfig AccountId] in
/-- Pending redeem requests can be read as such. -/
theorem getOpenRedeemRequestFromId_eq_ok : s.getOpenRedeemRequestFromId redeemId = .ok redeem ↔
    s.redeemRequests redeemId = some redeem ∧ redeem.status = .pending := by
  simp only [getOpenRedeemRequestFromId, except_bind_eq_ok, okOr_eq_ok]
  constructor
  · rintro ⟨r, hr, h⟩
    cases hs : r.status <;> rw [hs] at h <;> cases h
    exact ⟨hr, hs⟩
  · rintro ⟨hr, hs⟩
    exact ⟨redeem, hr, by rw [hs]; rfl⟩

omit [DecidableEq AccountId] [DecidableEq CurrencyId] [DecidableEq H256] [FixedPointNumber F]
  [LawfulMultiCurrency Tokens] [CurrencyConfig CurrencyId] [AccountConfig AccountId] in
private theorem books_redeems_of_pending (hr : s.redeemRequests redeemId = some redeem)
    (hs : redeem.status = .pending) :
    s.books.redeems redeemId = some ⟨redeem.vault, redeem.burned⟩ := by
  change (s.redeemRequests redeemId).bind RedeemRequest.obligation = _
  rw [hr, Option.bind_some, RedeemRequest.obligation, if_pos hs]
  rfl

omit [DecidableEq AccountId] [DecidableEq CurrencyId] [FixedPointNumber F]
  [LawfulMultiCurrency Tokens] [CurrencyConfig CurrencyId] [AccountConfig AccountId] in
/-- The status of a redeem request is written. -/
theorem run_setRedeemStatus {status : RedeemRequestStatus}
    (h : (setRedeemStatus redeemId status : ChainCall AccountId CurrencyId H256 F Tokens _).run s =
      .ok u s') :
    s'.records = s.records.setRedeem redeemId
      ((s.redeemRequests redeemId).map fun r => { r with status := status }) := by
  simp only [setRedeemStatus, Call.run_modify_eq_ok] at h
  rw [← h]
  rfl

omit [DecidableEq AccountId] [DecidableEq CurrencyId] [CurrencyConfig CurrencyId]
  [AccountConfig AccountId] in
private theorem redeem_obligation_of_ne_pending {status : RedeemRequestStatus}
    (hs : status ≠ .pending)
    (q : Option (RedeemRequest AccountId CurrencyId)) :
    (q.map fun r => { r with status := status }).bind RedeemRequest.obligation = none := by
  cases q with
  | none => rfl
  | some r => exact if_neg hs

/-- A redeem request opens an obligation, and its tokens need not be replaced any more. -/
theorem requestRedeem_books {redeemer : AccountId} {n : ℕ} {btcAddress : BtcAddress}
    (h : (requestRedeem env redeemer n btcAddress vaultId).run s = .ok u s') :
    Continues s s' := by
  simp only [requestRedeem, Call.run_bind_eq_ok, Call.run_get_eq_ok, Call.run_ofExcept_eq_ok,
    Call.run_ensure_eq_ok, Call.run_modify_eq_ok, Call.run_mapError_eq_ok, Call.run_ite_eq_ok,
    Call.run_pure_eq_ok, Amount.checkedSub_eq_ok, and_assoc, exists_and_left, exists_eq_left',
    exists_const] at h
  obtain ⟨_, -, _, -, -, -, fee, s₀, hfee, inclusion, -, -, hle, -, hle', _, -, _, -, -, premium, -,
    _, s₁, hinc, _, s₂, hlock, _, s₃, hrelease, hs'⟩ := h
  have hs₀ : s = s₀ := by
    obtain ⟨-, -, hs⟩ | ⟨-, -, hs⟩ := hfee
    · exact hs
    · exact hs
  subst hs₀
  obtain ⟨hrun, hrec₁⟩ := run_onRegistry hinc
  obtain ⟨-, hl, hcovered, -, hct₁⟩ := VaultRegistry.run_tryIncreaseToBeRedeemedTokens hrun
  have hrec₂ := lockOn_recordsNothing _ _ _ _ _ hlock
  have hct₂ : s₂.registry.counters = s₁.registry.counters := congrArg Records.counters hrec₂
  have hrec₃ := run_releaseReplaceCollateral hrelease
  rw [hct₂, hrec₂, hrec₁, hct₁] at hrec₃
  have hrec' : s'.records = s₃.records.setRedeem env.secureId (s'.redeemRequests env.secureId) := by
    rw [← hs']
    simp [records, Records.setRedeem]
  have hopen : (s'.redeemRequests env.secureId).bind RedeemRequest.obligation =
      some ⟨vaultId, n - fee.amount⟩ := by
    rw [← hs', ← Nat.sub_add_cancel hle']
    simp [RedeemRequest.obligation]
  have hbooks : s'.books = { s.books with
      toCounters := (s.registry.counters.addToBeRedeemed (.inl vaultId)
        (n - fee.amount)).setToBeReplaced vaultId
          (s.registry.counters.toBeReplaced vaultId - (n - fee.amount))
      redeems := Function.update s.books.redeems env.secureId
        (some ⟨vaultId, n - fee.amount⟩) } := by
    rw [books, hrec', Records.books_setRedeem, hopen, hrec₃]
    rfl
  refine ⟨?_, (congrArg Records.replaceRequests hrec').trans
    (congrArg Records.replaceRequests hrec₃)⟩
  rw [hbooks]
  exact .single (.openRedeem s.books env.secureId vaultId (n - fee.amount) hl hcovered)

/-! ## Redeeming without a request -/

/-- A vault that redeems its own tokens has fewer issued, and none of them to replace. -/
theorem selfRedeem_books {n : ℕ} (h : (selfRedeem env vaultId n).run s = .ok u s') :
    Continues s s' := by
  simp only [selfRedeem, Call.run_bind_eq_ok, Call.run_get_eq_ok, Call.run_ofExcept_eq_ok,
    Call.run_ensure_eq_ok, Call.run_mapError_eq_ok, Call.run_ite_eq_ok, Call.run_pure_eq_ok,
    Amount.checkedSub_eq_ok, and_assoc, exists_and_left, exists_eq_left', exists_const] at h
  obtain ⟨_, -, -, _, -, _, -, _, -, fee, s₀, hfee, -, hle, _, s₁, hlock, _, s₂, hburn, _, s₃,
    htransfer, _, s₄, hdist, _, s₅, hinc, _, s₆, hredeem, hrelease⟩ := h
  have hs₀ : s = s₀ := by
    obtain ⟨-, -, hs⟩ | ⟨-, -, hs⟩ := hfee
    · exact hs
    · exact hs
  subst hs₀
  have hrec₄ : s₄.records = s.records.subSupply vaultId.wrappedCurrency (n - fee.amount) := by
    rw [distributeRewards_staysInPools.recordsNothing _ _ _ hdist,
      transfer_recordsNothing _ _ _ _ _ _ htransfer, run_burnFrom hburn,
      lockOn_recordsNothing _ _ _ _ _ hlock]
  have hct₄ : s₄.registry.counters = s.registry.counters := congrArg Records.counters hrec₄
  obtain ⟨hrun, hrec₅⟩ := run_onRegistry hinc
  obtain ⟨-, hl, hcovered, -, hct₅⟩ := VaultRegistry.run_tryIncreaseToBeRedeemedTokens hrun
  rw [hct₄] at hl hcovered hct₅
  obtain ⟨-, -, -, hrec₆⟩ := run_redeemTokens hredeem
  have hhome : (s.registry.counters.addToBeRedeemed (.inl vaultId) (n - fee.amount)).home pairOf
      vaultId = .inl vaultId := Counters.home_of_active pairOf hl
  rw [hct₅, hhome] at hrec₆
  have hct₆ := congrArg Records.counters hrec₆
  change s₆.registry.counters = _ at hct₆
  have hrec' := run_releaseReplaceCollateral hrelease
  rw [hct₆, hrec₆, hrec₅, hrec₄] at hrec'
  have hback : drop (bump s.registry.counters.toBeRedeemed (.inl vaultId) (n - fee.amount))
      (.inl vaultId) (n - fee.amount) = s.registry.counters.toBeRedeemed :=
    (drop_bump _ _ _ 0).trans (drop_zero _ _)
  have hbooks : s'.books = { s.books with
      toCounters := (s.registry.counters.subIssued (.inl vaultId)
        (n - fee.amount)).setToBeReplaced vaultId
          (s.registry.counters.toBeReplaced vaultId - (n - fee.amount))
      supply := drop s.books.supply vaultId.wrappedCurrency (n - fee.amount) } := by
    rw [books, hrec']
    simp only [Counters.subToBeRedeemed, Counters.addToBeRedeemed, hl, hback, Bool.false_eq_true,
      if_false]
    rfl
  refine ⟨?_, congrArg Records.replaceRequests hrec'⟩
  rw [hbooks]
  exact .single (.selfRedeem s.books vaultId (n - fee.amount) hl hcovered)

/-- Redeeming from a liquidation vault is a step of the books. -/
theorem liquidationRedeem_books {redeemer : AccountId} {p : VaultCurrencyPair CurrencyId} {n : ℕ}
    (h : (liquidationRedeem env redeemer p n).run s = .ok u s') :
    Continues s s' := by
  simp only [liquidationRedeem, Call.run_bind_eq_ok, Call.run_ofExcept_eq_ok,
    Call.run_ensure_eq_ok, Call.run_reads_eq_ok, and_assoc, exists_and_left, exists_eq_left',
    exists_const] at h
  obtain ⟨_, -, _, -, -, _, s₁, hlock, _, s₂, hburn, hredeem⟩ := h
  have hrec₂ : s₂.records = s.records.subSupply p.wrapped n := by
    rw [run_burnFrom hburn, lockOn_recordsNothing _ _ _ _ _ hlock]
  have hct₂ : s₂.registry.counters = s.registry.counters := congrArg Records.counters hrec₂
  obtain ⟨hle, hrec⟩ := run_redeemTokensLiquidation hredeem
  rw [hct₂] at hle hrec
  rw [hrec₂] at hrec
  have hbooks : s'.books = { s.books with
      toCounters := s.registry.counters.subIssued (.inr p) n
      supply := drop s.books.supply p.wrapped n } := by
    rw [books, hrec]
    rfl
  refine ⟨?_, congrArg Records.replaceRequests hrec⟩
  rw [hbooks]
  exact .single (.liquidationRedeem s.books p n hle)

/-! ## Execution and cancellation -/

omit [DecidableEq H256] in
/-- Taking the fee of a redeem request records nothing. -/
theorem takeRedeemFee_recordsNothing :
    RecordsNothing (takeRedeemFee redeem : ChainCall AccountId CurrencyId H256 F Tokens _) :=
  .bind (unlockOn_recordsNothing _ _) fun _ => .bind (transfer_recordsNothing _ _ _) fun _ =>
    distributeRewards_staysInPools.recordsNothing

section

omit [FixedPointNumber F] [LawfulMultiCurrency Tokens] [CurrencyConfig CurrencyId]
  [AccountConfig AccountId]

/-- The tokens of a request are burned, and it is closed. -/
theorem settle_books {status : RedeemRequestStatus} (hstatus : status ≠ .pending)
    (hr : s.redeemRequests redeemId = some redeem) (hs : redeem.status = .pending)
    {q : Option (RedeemRequest AccountId CurrencyId)}
    (hle : redeem.burned ≤ s.registry.counters.toBeRedeemed (.inl redeem.vault))
    (hissued : redeem.burned ≤
      s.registry.counters.issued (s.registry.counters.home pairOf redeem.vault))
    (hrec : s'.records = (((s.records.subSupply redeem.vault.wrappedCurrency
      redeem.burned).setCounters ((s.registry.counters.subToBeRedeemed pairOf redeem.vault
        redeem.burned).subIssued (s.registry.counters.home pairOf redeem.vault)
          redeem.burned)).setRedeem redeemId (q.map fun r => { r with status := status }))) :
    Continues s s' := by
  have hbooks : s'.books = { s.books with
      toCounters := (s.registry.counters.subToBeRedeemed pairOf redeem.vault
        redeem.burned).subIssued (s.registry.counters.home pairOf redeem.vault) redeem.burned
      supply := drop s.books.supply redeem.vault.wrappedCurrency redeem.burned
      redeems := Function.update s.books.redeems redeemId none } := by
    rw [books, hrec, Records.books_setRedeem, redeem_obligation_of_ne_pending hstatus]
    rfl
  refine ⟨?_, congrArg Records.replaceRequests hrec⟩
  rw [hbooks]
  exact .single (.settleRedeem s.books redeemId redeem.vault redeem.burned
    (books_redeems_of_pending hr hs) hle hissued)

/-- The tokens of a request stay, and it is closed. -/
theorem release_books {status : RedeemRequestStatus} (hstatus : status ≠ .pending)
    (hr : s.redeemRequests redeemId = some redeem) (hs : redeem.status = .pending)
    {q : Option (RedeemRequest AccountId CurrencyId)}
    (hle : redeem.burned ≤ s.registry.counters.toBeRedeemed (.inl redeem.vault))
    (hrec : s'.records = ((s.records.setCounters (s.registry.counters.subToBeRedeemed pairOf
      redeem.vault redeem.burned)).setRedeem redeemId
        (q.map fun r => { r with status := status }))) :
    Continues s s' := by
  have hbooks : s'.books = { s.books with
      toCounters := s.registry.counters.subToBeRedeemed pairOf redeem.vault redeem.burned
      redeems := Function.update s.books.redeems redeemId none } := by
    rw [books, hrec, Records.books_setRedeem, redeem_obligation_of_ne_pending hstatus]
    rfl
  refine ⟨?_, congrArg Records.replaceRequests hrec⟩
  rw [hbooks]
  exact .single (.releaseRedeem s.books redeemId redeem.vault redeem.burned
    (books_redeems_of_pending hr hs) hle)

end

/-- Executing a redeem request is a step of the books. -/
theorem executeRedeem_books {payment : BtcAddress → ℕ → H256 → Except DispatchError Unit}
    (h : (executeRedeem env redeemId payment).run s = .ok u s') :
    Continues s s' := by
  simp only [executeRedeem, Call.run_bind_eq_ok, Call.run_ofExcept_eq_ok, Call.run_reads_eq_ok,
    getOpenRedeemRequestFromId_eq_ok, Amount.checkedAdd_eq_ok, and_assoc, exists_and_left,
    exists_eq_left'] at h
  obtain ⟨redeem, hr, hs, _, -, -, -, _, s₁, hburn, _, s₂, hfee, _, s₃, htokens, hset⟩ := h
  have hrec₂ : s₂.records = s.records.subSupply redeem.vault.wrappedCurrency redeem.burned := by
    rw [takeRedeemFee_recordsNothing _ _ _ hfee, run_burnFrom hburn]
    rfl
  have hct₂ : s₂.registry.counters = s.registry.counters := congrArg Records.counters hrec₂
  obtain ⟨-, hle, hissued, hrec₃⟩ := run_redeemTokens htokens
  rw [hct₂, hrec₂] at hrec₃
  rw [hct₂] at hle hissued
  exact settle_books (show RedeemRequestStatus.completed ≠ .pending by decide) hr hs hle hissued
    ((run_setRedeemStatus hset).trans (by rw [hrec₃]; rfl))

omit [DecidableEq H256] [CurrencyConfig CurrencyId] [AccountConfig AccountId] in
private theorem banVault_keepsOnError : KeepsOnError id (VaultRegistry.banVault env vaultId) :=
  .bind (.reads _) fun _ => .of_neverFails (.bind (.bind (.modify _) fun _ => .pure _)
    fun _ => .pure _)

omit [DecidableEq H256] in
private theorem slashForCancelledRedeem_recordsNothing {vault : Vault} {reimburse : Bool} :
    RecordsNothing (slashForCancelledRedeem env vault redeem x y reimburse :
      ChainCall AccountId CurrencyId H256 F Tokens _) := by
  refine .ite (.bind .get fun s => .bind (.ofExcept _) fun _ => .bind (.ofExcept _) fun _ =>
    .bind (onRegistry_recordsNothing VaultRegistry.decreaseLiquidatedCollateral_counters) fun _ =>
      transferFunds_recordsNothing) ?_
  refine .bind (.ofExcept _) fun _ => .bind (.ite (.ofExcept _) (.pure _)) fun _ =>
    .bind transferFundsSaturated_recordsNothing fun _ =>
      .bind (Keeps.attempt (onRegistry_recordsNothing VaultRegistry.banVault_counters) ?_)
        fun _ => .pure _
  refine KeepsOnError.zoom banVault_keepsOnError ?_
  rintro s t rfl
  rfl

/-- A cancelled request is either settled, when the redeemer was paid in collateral and the
tokens are burned, or released. -/
theorem cancelRedeem_books {redeemer : AccountId} {reimburse : Bool}
    (h : (cancelRedeem env redeemer redeemId reimburse).run s = .ok u s') :
    Continues s s' := by
  simp only [cancelRedeem, Call.run_bind_eq_ok, Call.run_ofExcept_eq_ok, Call.run_reads_eq_ok,
    Call.run_ensure_eq_ok, Call.run_ite_eq_ok, getOpenRedeemRequestFromId_eq_ok,
    Amount.checkedAdd_eq_ok, and_assoc, exists_and_left, exists_eq_left', exists_const] at h
  obtain ⟨redeem, hr, hs, -, _, -, -, vault, -, -, -, _, -, _, s₁, hslash, h⟩ := h
  have hrec₁ := slashForCancelledRedeem_recordsNothing _ _ _ hslash
  have hct₁ : s₁.registry.counters = s.registry.counters := congrArg Records.counters hrec₁
  obtain ⟨-, h⟩ | ⟨-, h⟩ := h
  · simp only [reimburseRedeem, Call.run_bind_eq_ok, Call.run_reads_eq_ok, Call.run_ite_eq_ok,
      and_assoc, exists_and_left, exists_eq_left'] at h
    obtain ⟨_, s₂, hfee, h⟩ := h
    have hrec₂ : s₂.records = s.records := (takeRedeemFee_recordsNothing _ _ _ hfee).trans hrec₁
    have hct₂ : s₂.registry.counters = s.registry.counters := congrArg Records.counters hrec₂
    have hburned {status : RedeemRequestStatus} (hstatus : status ≠ .pending)
        {s₃ s₄ : Chain AccountId CurrencyId H256 F Tokens} {u₁ u₂ u₃ : Unit}
        (hburn : (onTokens (Amount.burnFrom ⟨redeem.btcToSend.amount + redeem.transferFee.amount,
          redeem.btcToSend.currencyId⟩ redeem.redeemer)).run s₂ = .ok u₁ s₃)
        (hdec : (onRegistry (VaultRegistry.decreaseTokens redeem.vault
          ⟨redeem.btcToSend.amount + redeem.transferFee.amount,
            redeem.btcToSend.currencyId⟩)).run s₃ = .ok u₂ s₄)
        (hset : (setRedeemStatus redeemId status).run s₄ = .ok u₃ s') :
        Continues s s' := by
      have hrec₃ := run_burnFrom hburn
      rw [hrec₂] at hrec₃
      have hct₃ : s₃.registry.counters = s.registry.counters := congrArg Records.counters hrec₃
      obtain ⟨hrun, hrec₄⟩ := run_onRegistry hdec
      obtain ⟨-, -, hle, hissued, hct₄⟩ := VaultRegistry.run_decreaseTokens hrun
      rw [hct₃] at hle hissued hct₄
      exact settle_books hstatus hr hs hle hissued
        ((run_setRedeemStatus hset).trans (by rw [hrec₄, hct₄, hrec₃]; rfl))
    obtain ⟨-, _, s₃, hburn, _, s₄, hdec, hset⟩ | ⟨-, _, -, h⟩ := h
    · exact hburned (by decide) hburn hdec hset
    · obtain ⟨-, _, s₃, hburn, _, s₄, hdec, hset⟩ | ⟨-, _, s₃, hunlock, _, s₄, htransfer, _, s₅,
        hdec, hset⟩ := h
      · exact hburned (by decide) hburn hdec hset
      · have hrec₄ : s₄.records = s.records := by
          rw [transfer_recordsNothing _ _ _ _ _ _ htransfer, unlockOn_recordsNothing _ _ _ _ _ hunlock,
            hrec₂]
        have hct₄ : s₄.registry.counters = s.registry.counters := congrArg Records.counters hrec₄
        obtain ⟨hrun, hrec₅⟩ := run_onRegistry hdec
        obtain ⟨-, -, hle, hct₅⟩ := VaultRegistry.run_decreaseToBeRedeemedTokens hrun
        rw [hct₄] at hle hct₅
        exact release_books (show RedeemRequestStatus.reimbursed true ≠ .pending by decide) hr hs hle
          ((run_setRedeemStatus hset).trans (by rw [hrec₅, hct₅, hrec₄]; rfl))
  · simp only [retryRedeem, Call.run_bind_eq_ok, Call.run_ofExcept_eq_ok, and_assoc,
      exists_and_left, exists_eq_left'] at h
    obtain ⟨_, -, _, -, _, s₂, hunlock, _, s₃, hdec, hset⟩ := h
    have hrec₂ : s₂.records = s.records := (unlockOn_recordsNothing _ _ _ _ _ hunlock).trans hrec₁
    have hct₂ : s₂.registry.counters = s.registry.counters := congrArg Records.counters hrec₂
    obtain ⟨hrun, hrec₃⟩ := run_onRegistry hdec
    obtain ⟨-, -, hle, hct₃⟩ := VaultRegistry.run_decreaseToBeRedeemedTokens hrun
    rw [hct₂] at hle hct₃
    exact release_books (show RedeemRequestStatus.retried ≠ .pending by decide) hr hs hle
      ((run_setRedeemStatus hset).trans (by rw [hrec₃, hct₃, hrec₂]; rfl))

omit [AccountConfig AccountId] in
/-- The tokens that were burned for a reimbursed redeem are minted for the vault. -/
theorem mintTokensForReimbursedRedeem_books
    (h : (mintTokensForReimbursedRedeem env vaultId redeemId).run s = .ok u s') :
    Continues s s' := by
  simp only [mintTokensForReimbursedRedeem, Call.run_bind_eq_ok, Call.run_get_eq_ok,
    Call.run_ofOption_eq_ok, Call.run_ofExcept_eq_ok, Call.run_ensure_eq_ok,
    Amount.checkedAdd_eq_ok, and_assoc, exists_and_left, exists_eq_left', exists_const] at h
  obtain ⟨redeem, hr, hs, rfl, -, -, _, s₁, hinc, _, s₂, hissue, _, s₃, hmint, hset⟩ := h
  obtain ⟨hl, hrec₁⟩ := run_tryIncreaseToBeIssuedTokens hinc
  have hct₁ := congrArg Records.counters hrec₁
  change s₁.registry.counters = _ at hct₁
  obtain ⟨hrun, hrec₂⟩ := run_onRegistry hissue
  obtain ⟨-, -, -, hmax, hct₂⟩ := VaultRegistry.run_issueTokens hrun
  have hhome : (s.registry.counters.addToBeIssued (.inl redeem.vault) redeem.burned).home pairOf
      redeem.vault = .inl redeem.vault := Counters.home_of_active pairOf hl
  change _ = s.records.setCounters (s.registry.counters.addToBeIssued _ redeem.burned) at hrec₁
  change _ = s.registry.counters.addToBeIssued _ redeem.burned at hct₁
  change _ + redeem.burned ≤ maxBalance at hmax
  change _ = (s₁.registry.counters.subToBeIssued _ redeem.burned).addIssued _ redeem.burned at hct₂
  rw [hct₁, hhome] at hmax hct₂
  have hclosed : s.books.redeems redeemId = none := by
    change (s.redeemRequests redeemId).bind RedeemRequest.obligation = none
    rw [hr]
    exact if_neg (by rw [hs]; decide)
  have hback : drop (bump s.registry.counters.toBeIssued (.inl redeem.vault) redeem.burned)
      (.inl redeem.vault) redeem.burned = s.registry.counters.toBeIssued :=
    (drop_bump _ _ redeem.burned 0).trans (drop_zero _ _)
  have hrec := run_setRedeemStatus hset
  rw [run_mintTo hmint, hrec₂, hct₂, hrec₁] at hrec
  have hbooks : s'.books = { s.books with
      toCounters := s.registry.counters.addIssued (.inl redeem.vault) redeem.burned
      supply := bump s.books.supply redeem.vault.wrappedCurrency redeem.burned } := by
    rw [books, hrec, Records.books_setRedeem, redeem_obligation_of_ne_pending (by decide)]
    simp only [Counters.subToBeIssued, Counters.addIssued, Counters.addToBeIssued, hback,
      Records.books_addSupply, Records.books_setCounters]
    rw [Function.update_eq_self_iff.mpr hclosed.symm]
    rfl
  refine ⟨?_, congrArg Records.replaceRequests hrec⟩
  rw [hbooks]
  have hstep : _ → Books.Step pairOf wrappedOf s.books _ :=
    Books.Step.mint s.books redeem.vault redeem.burned
  rw [show s.books.home pairOf redeem.vault = _ from Counters.home_of_active pairOf hl] at hstep
  exact .single (hstep hmax)

end Chain

end Interbtc
