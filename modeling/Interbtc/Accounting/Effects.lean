import Interbtc.Accounting.Records

/-!
# Calls of the bridge in the books

What the calls that the requests are made of do to the records.
-/

namespace Interbtc

open Core MultiCurrency

variable {AccountId CurrencyId H256 F Tokens : Type} [DecidableEq AccountId]
  [DecidableEq CurrencyId] [DecidableEq H256]

/-! ## Writes to the records -/

namespace Records

variable (r : Records AccountId CurrencyId H256)

/-- Other counters. -/
def setCounters
    (c : Counters (VaultId AccountId CurrencyId) (VaultCurrencyPair CurrencyId)) :
    Records AccountId CurrencyId H256 :=
  { r with counters := c }

/-- More of a wrapped currency. -/
def addSupply (c : CurrencyId) (x : ℕ) : Records AccountId CurrencyId H256 :=
  { r with supply := bump r.supply c x }

/-- Less of a wrapped currency. -/
def subSupply (c : CurrencyId) (x : ℕ) : Records AccountId CurrencyId H256 :=
  { r with supply := drop r.supply c x }

/-- Another issue request at an id. -/
def setIssue (h : H256) (q : Option (IssueRequest AccountId CurrencyId)) :
    Records AccountId CurrencyId H256 :=
  { r with issueRequests := Function.update r.issueRequests h q }

/-- Another redeem request at an id. -/
def setRedeem (h : H256) (q : Option (RedeemRequest AccountId CurrencyId)) :
    Records AccountId CurrencyId H256 :=
  { r with redeemRequests := Function.update r.redeemRequests h q }

/-- Another replace request at an id. -/
def setReplace (h : H256) (q : Option (ReplaceRequest AccountId CurrencyId)) :
    Records AccountId CurrencyId H256 :=
  { r with replaceRequests := Function.update r.replaceRequests h q }

private theorem bind_update {α β : Type} (f : H256 → Option α) (g : α → Option β) (h : H256)
    (q : Option α) :
    (fun j => (Function.update f h q j).bind g) =
      Function.update (fun j => (f j).bind g) h (q.bind g) := by
  funext j
  rcases eq_or_ne j h with rfl | hj
  · simp
  · simp [hj]

variable {r}

section

omit [DecidableEq AccountId] [DecidableEq CurrencyId] [DecidableEq H256]

theorem books_setCounters
    (c : Counters (VaultId AccountId CurrencyId) (VaultCurrencyPair CurrencyId)) :
    (r.setCounters c).books = { r.books with toCounters := c } := rfl

end

section

omit [DecidableEq AccountId] [DecidableEq H256]

theorem books_addSupply (c : CurrencyId) (x : ℕ) :
    (r.addSupply c x).books = { r.books with supply := bump r.books.supply c x } := rfl

theorem books_subSupply (c : CurrencyId) (x : ℕ) :
    (r.subSupply c x).books = { r.books with supply := drop r.books.supply c x } := rfl

end

section

omit [DecidableEq AccountId] [DecidableEq CurrencyId]

/-- The books list what a request still asks for. -/
theorem books_setIssue (h : H256) (q : Option (IssueRequest AccountId CurrencyId)) :
    (r.setIssue h q).books =
      { r.books with
        issues := Function.update r.books.issues h (q.bind IssueRequest.obligation) } := by
  simp only [books, setIssue, bind_update]

/-- The books list what a request still asks for. -/
theorem books_setRedeem (h : H256) (q : Option (RedeemRequest AccountId CurrencyId)) :
    (r.setRedeem h q).books =
      { r.books with
        redeems := Function.update r.books.redeems h (q.bind RedeemRequest.obligation) } := by
  simp only [books, setRedeem, bind_update]

/-- The books list what a request still hands over. -/
theorem books_setReplace (h : H256) (q : Option (ReplaceRequest AccountId CurrencyId)) :
    (r.setReplace h q).books =
      { r.books with
        replaces := Function.update r.books.replaces h (q.bind ReplaceRequest.handover) } := by
  simp only [books, setReplace, bind_update]

end

end Records

namespace Chain

variable [FixedPointNumber F] [MultiCurrency Tokens AccountId CurrencyId]
  [LawfulMultiCurrency Tokens] [CurrencyConfig CurrencyId] [AccountConfig AccountId]
  {s s' : Chain AccountId CurrencyId H256 F Tokens} {env : Env AccountId CurrencyId H256}
  {vaultId v w : VaultId AccountId CurrencyId} {x y z : Amount CurrencyId} {a : AccountId}
  {u : Unit}

/-- The books have changed step by step, and the replace requests stay. -/
structure Continues (s s' : Chain AccountId CurrencyId H256 F Tokens) : Prop where
  steps : Books.Steps pairOf wrappedOf s.books s'.books
  replaces : s'.replaceRequests = s.replaceRequests

omit [FixedPointNumber F] [LawfulMultiCurrency Tokens] [CurrencyConfig CurrencyId]
  [AccountConfig AccountId] in
/-- Where the records stay the same nothing happens in the books. -/
theorem Continues.of_records (h : s'.records = s.records) : Continues s s' where
  steps := by
    rw [show s'.books = s.books from congrArg Records.books h]
  replaces := congrArg Records.replaceRequests h

/-! ## Tokens and registry -/

omit [DecidableEq AccountId] [DecidableEq CurrencyId] [DecidableEq H256] [FixedPointNumber F]
  [LawfulMultiCurrency Tokens] [CurrencyConfig CurrencyId] [AccountConfig AccountId] in
/-- A call on the registry writes its counters to the records. -/
theorem run_onRegistry {α : Type} {f : RegistryCall AccountId CurrencyId α} {r : α}
    (h : (onRegistry f).run s = .ok r s') :
    f.run s.registry = .ok r s'.registry ∧
      s'.records = s.records.setCounters s'.registry.counters := by
  obtain ⟨t, ht, rfl⟩ := Lens.run_zoom_eq_ok.mp h
  exact ⟨ht, rfl⟩

section

omit [DecidableEq H256] [FixedPointNumber F] [CurrencyConfig CurrencyId] [AccountConfig AccountId]

/-- Burning lowers the supply. -/
theorem run_burnFrom (h : (onTokens (x.burnFrom a)).run s = .ok u s') :
    s'.records = s.records.subSupply x.currencyId x.amount := by
  obtain ⟨t, ht, rfl⟩ := Lens.run_zoom_eq_ok.mp h
  obtain ⟨-, hissuance, -⟩ := Amount.run_burnFrom ht
  change Records.mk _ (totalIssuance t) _ _ _ = Records.mk _ (drop (totalIssuance s.tokens) _ _) _ _ _
  rw [hissuance, drop_eq_update]
  rfl

/-- Minting raises the supply. -/
theorem run_mintTo (h : (onTokens (x.mintTo a)).run s = .ok u s') :
    s'.records = s.records.addSupply x.currencyId x.amount := by
  obtain ⟨t, ht, rfl⟩ := Lens.run_zoom_eq_ok.mp h
  obtain ⟨hissuance, -⟩ := Amount.run_mintTo ht
  change Records.mk _ (totalIssuance t) _ _ _ = Records.mk _ (bump (totalIssuance s.tokens) _ _) _ _ _
  rw [hissuance, bump_eq_update]
  rfl

end

/-! ## Issuing -/

omit [DecidableEq H256] [LawfulMultiCurrency Tokens] [AccountConfig AccountId] in
/-- More is to be issued by an active vault. -/
theorem run_tryIncreaseToBeIssuedTokens
    (h : (tryIncreaseToBeIssuedTokens env vaultId x).run s = .ok u s') :
    s.registry.counters.isLiquidated vaultId = false ∧
      s'.records = s.records.setCounters
        (s.registry.counters.addToBeIssued (.inl vaultId) x.amount) := by
  simp only [tryIncreaseToBeIssuedTokens, Call.run_bind_eq_ok, Call.run_get_eq_ok,
    Call.run_ofExcept_eq_ok, Call.run_ensure_eq_ok,
    VaultRegistry.getActiveRichVaultFromId_eq_ok] at h
  obtain ⟨_, _, ⟨rfl, rfl⟩, v, _, ⟨⟨rfl, hc, hl⟩, rfl⟩, _, _, ⟨-, rfl⟩, _, _, ⟨-, rfl⟩, _, _,
    ⟨-, rfl⟩, h⟩ := h
  obtain ⟨hrun, hrec⟩ := run_onRegistry h
  simp only [RichVault.requestIssueTokens, Call.run_bind_eq_ok, Call.run_pure_eq_ok] at hrun
  obtain ⟨_, _, hrun, -, rfl⟩ := hrun
  obtain ⟨-, -, -, hcounters⟩ := RichVault.run_increaseToBeIssued hc hrun
  rw [hc.isLiquidated, hrec, hcounters]
  exact ⟨hl, rfl⟩

section

omit [DecidableEq H256] [MultiCurrency Tokens AccountId CurrencyId] [LawfulMultiCurrency Tokens]
  [AccountConfig AccountId]

/-- Asking for more to be issued changes nothing but counters. -/
theorem tryIncreaseToBeIssuedTokens_rest :
    Keeps (fun s => s.registry.rest) (tryIncreaseToBeIssuedTokens env vaultId x :
      ChainCall AccountId CurrencyId H256 F Tokens _) := by
  intro s _ s' h
  simp only [tryIncreaseToBeIssuedTokens, Call.run_bind_eq_ok, Call.run_get_eq_ok,
    Call.run_ofExcept_eq_ok, Call.run_ensure_eq_ok, VaultRegistry.getActiveRichVaultFromId_eq_ok,
    and_assoc, exists_and_left, exists_eq_left', exists_const] at h
  obtain ⟨w, -, hc, -, _, -, _, -, -, h⟩ := h
  obtain ⟨t, ht, rfl⟩ := Lens.run_zoom_eq_ok.mp h
  obtain ⟨_, _, hincrease, h⟩ := Call.run_bind_eq_ok.mp ht
  obtain ⟨-, rfl⟩ := Call.run_pure_eq_ok.mp h
  exact (RichVault.run_increaseToBeIssued hc hincrease).1.rest hc

/-- Where more cannot be issued nothing changed. -/
theorem tryIncreaseToBeIssuedTokens_keepsOnError :
    KeepsOnError id (tryIncreaseToBeIssuedTokens env vaultId x :
      ChainCall AccountId CurrencyId H256 F Tokens _) := by
  refine .bind .get fun _ => .bind (.ofExcept _) fun v => .bind (.ofExcept _) fun _ =>
    .bind (.ofExcept _) fun _ => .bind (.ensure _ _) fun _ => ?_
  refine KeepsOnError.zoom (g := id) (.bind_neverFails ?_ fun _ => .pure _) ?_
  · exact .bind (.ensure _ _) fun _ => .bind (.ofExcept _) fun _ =>
      .of_neverFails (.bind (.modify _) fun _ => .pure _)
  · rintro s t rfl
    rfl

end

/-! ## Redeeming -/

section

omit [DecidableEq H256]

/-- Redeemed tokens are no longer to be replaced. -/
theorem run_releaseReplaceCollateral
    (h : (releaseReplaceCollateral env vaultId x).run s = .ok u s') :
    s'.records = s.records.setCounters (s.registry.counters.setToBeReplaced vaultId
      (s.registry.counters.toBeReplaced vaultId - x.amount)) := by
  simp only [releaseReplaceCollateral, Call.run_bind_eq_ok] at h
  obtain ⟨⟨y, z⟩, t, h, hrest⟩ := h
  obtain ⟨hrun, hrec⟩ := run_onRegistry h
  obtain ⟨d, -, -, -, -, hd, -, hcounters⟩ := VaultRegistry.run_decreaseToBeReplacedTokens hrun
  have hkeep : s'.records = t.records := by
    simp only [Call.run_ite_eq_ok, Call.run_pure_eq_ok] at hrest
    obtain ⟨-, -, rfl⟩ | ⟨-, hrest⟩ := hrest
    · rfl
    · exact transferFunds_recordsNothing _ _ _ hrest
  rw [hkeep, hrec, hcounters, hd]

/-- A vault takes back what it asked to be replaced, and no more. -/
theorem run_withdrawReplaceRequest
    (h : (withdrawReplaceRequest env vaultId x).run s = .ok y s') :
    y = ⟨min x.amount (s.registry.counters.toBeReplaced vaultId), vaultId.wrappedCurrency⟩ ∧
    s'.records = s.records.setCounters (s.registry.counters.setToBeReplaced vaultId
      (s.registry.counters.toBeReplaced vaultId - x.amount)) := by
  simp only [withdrawReplaceRequest, Call.run_bind_eq_ok, Call.run_pure_eq_ok] at h
  obtain ⟨⟨y', z⟩, t, h, _, _, hrest, rfl, rfl⟩ := h
  obtain ⟨hrun, hrec⟩ := run_onRegistry h
  obtain ⟨d, -, -, hy, -, hd, -, hcounters⟩ := VaultRegistry.run_decreaseToBeReplacedTokens hrun
  rw [transferFunds_recordsNothing _ _ _ hrest, hrec, hcounters, hy, hd]
  exact ⟨rfl, rfl⟩

/-- What was to be redeemed is no longer issued, where the vault is counted. -/
theorem run_redeemTokens (h : (redeemTokens env vaultId x y a).run s = .ok u s') :
    vaultId.wrappedCurrency = x.currencyId ∧
      x.amount ≤ s.registry.counters.toBeRedeemed (.inl vaultId) ∧
      x.amount ≤ s.registry.counters.issued (s.registry.counters.home pairOf vaultId) ∧
      s'.records = s.records.setCounters
        ((s.registry.counters.subToBeRedeemed pairOf vaultId x.amount).subIssued
          (s.registry.counters.home pairOf vaultId) x.amount) := by
  simp only [redeemTokens, Call.run_bind_eq_ok, Call.run_get_eq_ok, Call.run_ofExcept_eq_ok,
    VaultRegistry.getRichVaultFromId_eq_ok] at h
  obtain ⟨_, _, ⟨rfl, rfl⟩, v, _, ⟨⟨rfl, hc⟩, rfl⟩, v', t, h, hrest⟩ := h
  obtain ⟨hrun, hrec⟩ := run_onRegistry h
  obtain ⟨he, hcur, hle, hissued, hcounters⟩ := RichVault.run_executeRedeemTokens hc hrun
  have hkeep : s'.records = t.records := by
    simp only [Call.run_ite_eq_ok, Call.run_bind_eq_ok, Call.run_ofExcept_eq_ok,
      Call.run_pure_eq_ok] at hrest
    obtain ⟨-, q, _, ⟨-, rfl⟩, _, t₁, h₁, h₂⟩ | ⟨-, ⟨-, -, rfl⟩ | ⟨-, h₁⟩⟩ := hrest
    · obtain ⟨hrun₁, hrec₁⟩ := run_onRegistry h₁
      simp only [Call.run_bind_eq_ok, Call.run_pure_eq_ok] at hrun₁
      obtain ⟨_, r, hr₁, _, _, hr₂, -, hr⟩ := hrun₁
      have hv : v'.Current r := by
        rw [RichVault.Current, VaultRegistry.decreaseTotalBackingCollateral_vaults _ _ _ hr₁]
        exact he.current
      rw [unlockOn_recordsNothing _ _ _ _ _ h₂, hrec₁, ← hr,
        (VaultRegistry.run_decreaseUncounted VaultRegistry.liquidatedCollateral_uncounted hv
          hr₂).2.2, VaultRegistry.decreaseTotalBackingCollateral_counters _ _ _ hr₁]
      rfl
    · rfl
    · exact transferFunds_recordsNothing _ _ _ h₁
  rw [hkeep, hrec, hcounters, hc.home]
  exact ⟨hcur, hle, hissued, rfl⟩

/-- A pool redeems what it has issued and is not to redeem already. -/
theorem run_redeemTokensLiquidation {c : CurrencyId}
    (h : (redeemTokensLiquidation env c a x).run s = .ok u s') :
    s.registry.counters.toBeRedeemed (.inr ⟨c, x.currencyId⟩) + x.amount ≤
        s.registry.counters.issued (.inr ⟨c, x.currencyId⟩) ∧
      s'.records = s.records.setCounters
        (s.registry.counters.subIssued (.inr ⟨c, x.currencyId⟩) x.amount) := by
  simp only [redeemTokensLiquidation, RichSystemVault.redeemableTokens, Call.run_bind_eq_ok,
    Call.run_get_eq_ok, Call.run_ofExcept_eq_ok, Call.run_ensure_eq_ok, Amount.checkedSub_eq_ok,
    Amount.ge_eq_ok, and_assoc, exists_and_left, exists_eq_left', exists_const] at h
  obtain ⟨-, hle, -, hge, _, -, _, -, _, -, _, t, ht, h⟩ := h
  have hkeep := transferFunds_recordsNothing _ _ _ ht
  have hcounters : t.registry.counters = s.registry.counters := congrArg Records.counters hkeep
  obtain ⟨hrun, hrec⟩ := run_onRegistry h
  simp only [RichSystemVault.burnIssued, RichSystemVault.decreaseIssued, Call.run_bind_eq_ok,
    Call.run_get_eq_ok, Call.run_pure_eq_ok] at hrun
  obtain ⟨_, _, ⟨rfl, rfl⟩, _, _, hrun, -, hr⟩ := hrun
  obtain ⟨-, -, -, hr'⟩ := RichSystemVault.run_decrease.mp hrun
  have hge := of_decide_eq_true hge
  constructor
  · change (s.registry.liquidationVault ⟨c, x.currencyId⟩).toBeRedeemedTokens + x.amount ≤
      (s.registry.liquidationVault ⟨c, x.currencyId⟩).issuedTokens
    change (s.registry.liquidationVault ⟨c, x.currencyId⟩).toBeRedeemedTokens ≤
      (s.registry.liquidationVault ⟨c, x.currencyId⟩).issuedTokens at hle
    change x.amount ≤ (s.registry.liquidationVault ⟨c, x.currencyId⟩).issuedTokens -
      (s.registry.liquidationVault ⟨c, x.currencyId⟩).toBeRedeemedTokens at hge
    omega
  · rw [hrec, hkeep, ← hr, hr', ← hcounters, Counters.subIssued, drop_eq_update]
    congr 1
    exact RichSystemVault.counters_setIssued _ _

end

/-! ## Replacing -/

omit [DecidableEq H256] [LawfulMultiCurrency Tokens] [AccountConfig AccountId] in
/-- Two active vaults agree that one redeems what the other issues. -/
theorem run_acceptReplaceTokens (h : (acceptReplaceTokens env v w x).run s = .ok u s') :
    s.registry.counters.isLiquidated v = false ∧ s.registry.counters.isLiquidated w = false ∧
      v.wrappedCurrency = x.currencyId ∧
      s.registry.counters.toBeRedeemed (.inl v) + x.amount ≤ s.registry.counters.issued (.inl v) ∧
      s'.records = s.records.setCounters
        ((s.registry.counters.addToBeRedeemed (.inl v) x.amount).addToBeIssued (.inl w)
          x.amount) := by
  simp only [acceptReplaceTokens, Call.run_bind_eq_ok] at h
  obtain ⟨_, t, h₁, h₂⟩ := h
  obtain ⟨hrun, hrec⟩ := run_onRegistry h₁
  obtain ⟨hcur, hl, hle, -, hcounters⟩ := VaultRegistry.run_tryIncreaseToBeRedeemedTokens hrun
  obtain ⟨hw, hrec'⟩ := run_tryIncreaseToBeIssuedTokens h₂
  rw [hcounters] at hw hrec'
  rw [hrec', hrec]
  exact ⟨hl, hw, hcur, hle, rfl⟩

section

omit [DecidableEq H256]

/-- The tokens of a request move from the old vault to the new one. -/
theorem run_replaceTokens (hne : v ≠ w) (h : (replaceTokens env v w x).run s = .ok u s') :
    let c := s.registry.counters
    let c' := (c.subToBeRedeemed pairOf v x.amount).subIssued (c.home pairOf v) x.amount
    x.amount ≤ c.toBeRedeemed (.inl v) ∧ x.amount ≤ c.issued (c.home pairOf v) ∧
      x.amount ≤ c.toBeIssued (c.home pairOf w) ∧
      c'.issued (c.home pairOf w) + x.amount ≤ maxBalance ∧
      s'.records = s.records.setCounters
        ((c'.subToBeIssued (c.home pairOf w) x.amount).addIssued (c.home pairOf w) x.amount) := by
  simp only [replaceTokens, Call.run_bind_eq_ok, Call.run_get_eq_ok, Call.run_ofExcept_eq_ok,
    VaultRegistry.getRichVaultFromId_eq_ok] at h
  obtain ⟨_, _, ⟨rfl, rfl⟩, vo, _, ⟨⟨rfl, hco⟩, rfl⟩, vn, _, ⟨⟨rfl, hcn⟩, rfl⟩, vo', t, h₁, h₂⟩ := h
  have hpre : vo'.id = vo.id ∧ vo'.Current t.registry ∧ vn.Current t.registry ∧
      t.records = s.records := by
    simp only [Call.run_ite_eq_ok, Call.run_bind_eq_ok, Call.run_ofExcept_eq_ok,
      Call.run_pure_eq_ok] at h₁
    obtain ⟨-, q, _, ⟨-, rfl⟩, vo₁, t₁, h₁, _, t₂, hdep, rfl, rfl⟩ | ⟨-, rfl, rfl⟩ := h₁
    · obtain ⟨hrun, hrec⟩ := run_onRegistry h₁
      obtain ⟨-, rfl, hreg⟩ := VaultRegistry.run_decreaseUntagged.mp hrun
      have hout := depositPoolCollateral_staysInPools _ _ _ hdep
      have hreg' : t₂.registry = t₁.registry := congrArg Outside.registry hout
      refine ⟨rfl, ?_, ?_, ?_⟩
      · rw [hreg', hreg]
        exact RichVault.current_setVault _
      · rw [hreg', hreg]
        exact (RichVault.setVault_of_ne _ hne.symm).trans hcn
      · rw [depositPoolCollateral_staysInPools.recordsNothing _ _ _ hdep, hrec, hreg,
          VaultRegistry.counters_setUncounted VaultRegistry.liquidatedCollateral_uncounted hco]
        rfl
    · exact ⟨rfl, hco, hcn, rfl⟩
  obtain ⟨hid, hco', hcn', hrec⟩ := hpre
  have hct : t.registry.counters = s.registry.counters := congrArg Records.counters hrec
  obtain ⟨hrun, hrec'⟩ := run_onRegistry h₂
  simp only [Call.run_bind_eq_ok, Call.run_pure_eq_ok] at hrun
  obtain ⟨vo₂, r, hold, _, _, hnew, -, rfl⟩ := hrun
  obtain ⟨he, -, hle, hissued, hr⟩ := RichVault.run_executeRedeemTokens hco' hold
  have hcn₂ := he.current_of_ne hcn' (by rw [hid]; exact hne.symm)
  obtain ⟨-, -, hle', hmax, hr'⟩ := RichVault.run_executeIssueTokens hcn₂ hnew
  have hhn : vn.home = s.registry.counters.home pairOf vn.id := hcn.home.symm
  have hho : vo'.home = s.registry.counters.home pairOf vo.id := by
    rw [← hco'.home, hct, hid]
  rw [hr, hct, hid, hho] at hr' hmax hle'
  rw [hct, hid] at hle
  rw [hct, hho] at hissued
  rw [hhn] at hr' hmax hle'
  refine ⟨hle, hissued, hle', hmax, ?_⟩
  rw [hrec', hr', hrec]

/-- What two vaults agreed on is given up on both sides. -/
theorem run_cancelReplaceTokens (hne : v ≠ w)
    (h : (cancelReplaceTokens env v w x).run s = .ok u s') :
    let c := s.registry.counters
    x.amount ≤ c.toBeRedeemed (.inl v) ∧ x.amount ≤ c.toBeIssued (c.home pairOf w) ∧
      s'.records = s.records.setCounters
        ((c.subToBeRedeemed pairOf v x.amount).subToBeIssued (c.home pairOf w) x.amount) := by
  simp only [cancelReplaceTokens, Call.run_bind_eq_ok, Call.run_get_eq_ok,
    Call.run_ofExcept_eq_ok, VaultRegistry.getRichVaultFromId_eq_ok] at h
  obtain ⟨_, _, ⟨rfl, rfl⟩, vo, _, ⟨⟨rfl, hco⟩, rfl⟩, vn, _, ⟨⟨rfl, hcn⟩, rfl⟩, vo', t, h₁, h₂⟩ := h
  have hpre : vo'.id = vo.id ∧ vo'.Current t.registry ∧ vn.Current t.registry ∧
      t.records = s.records := by
    simp only [Call.run_ite_eq_ok, Call.run_bind_eq_ok, Call.run_ofExcept_eq_ok,
      Call.run_pure_eq_ok] at h₁
    obtain ⟨-, q, _, ⟨-, rfl⟩, vo₁, t₁, h₁, _, t₂, hmove, rfl, rfl⟩ | ⟨-, rfl, rfl⟩ := h₁
    · obtain ⟨hrun, hrec⟩ := run_onRegistry h₁
      obtain ⟨-, rfl, hreg⟩ := VaultRegistry.run_decreaseUntagged.mp hrun
      have hv : t₂.registry.vaults = t₁.registry.vaults := transferFunds_vaults _ _ _ hmove
      rw [hreg] at hv
      refine ⟨rfl, ?_, ?_, ?_⟩
      · rw [RichVault.Current, hv]
        exact RichVault.current_setVault _
      · rw [RichVault.Current, hv]
        exact (RichVault.setVault_of_ne _ hne.symm).trans hcn
      · rw [transferFunds_recordsNothing _ _ _ hmove, hrec, hreg,
          VaultRegistry.counters_setUncounted VaultRegistry.liquidatedCollateral_uncounted hco]
        rfl
    · exact ⟨rfl, hco, hcn, rfl⟩
  obtain ⟨hid, hco', hcn', hrec⟩ := hpre
  have hct : t.registry.counters = s.registry.counters := congrArg Records.counters hrec
  obtain ⟨hrun, hrec'⟩ := run_onRegistry h₂
  simp only [Call.run_bind_eq_ok, Call.run_pure_eq_ok] at hrun
  obtain ⟨vo₂, r, hold, _, _, hnew, -, rfl⟩ := hrun
  obtain ⟨he, -, hle, hr⟩ := RichVault.run_decreaseToBeRedeemed hco' hold
  have hcn₂ := he.current_of_ne hcn' (by rw [hid]; exact hne.symm)
  obtain ⟨-, -, hle', hr'⟩ := RichVault.run_decreaseToBeIssued hcn₂ hnew
  have hhn : vn.home = s.registry.counters.home pairOf vn.id := hcn.home.symm
  rw [hr, hct, hid] at hr' hle'
  rw [hct, hid] at hle
  rw [hhn] at hr' hle'
  refine ⟨hle, hle', ?_⟩
  rw [hrec', hr', hrec]

end

/-! ## Liquidation -/

section

omit [DecidableEq H256]

private theorem run_slashForToBeRedeemed {vault vault' : RichVault AccountId CurrencyId}
    (hc : vault.Current s.registry)
    (h : (slashForToBeRedeemed env vault x).run s = .ok vault' s') :
    vault'.id = vault.id ∧ vault'.Current s'.registry ∧ s'.records = s.records := by
  simp only [slashForToBeRedeemed, Call.run_bind_eq_ok, Call.run_get_eq_ok,
    Call.run_ofExcept_eq_ok, Call.run_pure_eq_ok] at h
  obtain ⟨_, _, ⟨rfl, rfl⟩, _, _, ⟨-, rfl⟩, _, _, ⟨-, rfl⟩, _, t, h, _, t', hpool, rfl, rfl⟩ := h
  obtain ⟨hrun, hrec⟩ := run_onRegistry h
  obtain ⟨hid, hc', hcounters⟩ :=
    VaultRegistry.run_increaseUncounted VaultRegistry.liquidatedCollateral_uncounted hc hrun
  have hout := withdrawPoolCollateral_staysInPools _ _ _ hpool
  refine ⟨hid, ?_, ?_⟩
  · have hreg : t'.registry = t.registry := congrArg Outside.registry hout
    rw [hreg]
    exact hc'
  · rw [withdrawPoolCollateral_staysInPools.recordsNothing _ _ _ hpool, hrec, hcounters]
    rfl

private theorem slashToLiquidationVault_keeps : 
    Keeps (fun s => (s.records, s.registry.vaults)) (slashToLiquidationVault env vaultId x :
      ChainCall AccountId CurrencyId H256 F Tokens _) := by
  have hpools {α : Type} {f : ChainCall AccountId CurrencyId H256 F Tokens α}
      (hf : StaysInPools f) : Keeps (fun s => (s.records, s.registry.vaults)) f :=
    fun s r s' h => Prod.ext (hf.recordsNothing s r s' h)
      (congrArg (fun o => o.registry.vaults) (hf s r s' h))
  refine .bind .get fun s => .bind (.ofExcept _) fun c => .bind ?_ fun _ => ?_
  · split
    · exact .bind (hpools withdrawPoolCollateral_staysInPools) fun _ =>
        hpools slashPoolCollateral_staysInPools
    · exact .bind (hpools withdrawPoolCollateral_staysInPools) fun _ => .pure _
  · exact fun s r s' h => Prod.ext (transferFunds_recordsNothing s r s' h)
      (transferFunds_vaults s r s' h)

end

omit [CurrencyConfig CurrencyId] [AccountConfig AccountId] in
/-- The pool of a pair adds the tokens of a vault to its own. -/
theorem run_takeOverTokens {p : VaultCurrencyPair CurrencyId}
    {r r' : VaultRegistry AccountId CurrencyId}
    {i t d : Amount CurrencyId}
    (h : (do
      let s ← get
      let liquidationVault := s.getRichLiquidationVault p
      let liquidationVault ← liquidationVault.increaseIssued i
      let liquidationVault ← liquidationVault.increaseToBeIssued t
      let _ ← liquidationVault.increaseToBeRedeemed d :
      RegistryCall AccountId CurrencyId Unit).run r = .ok u r') :
    r'.vaults = r.vaults ∧ r.counters.issued (.inr p) + i.amount ≤ maxBalance ∧
      r'.counters = ((r.counters.addIssued (.inr p) i.amount).addToBeIssued (.inr p)
        t.amount).addToBeRedeemed (.inr p) d.amount := by
  simp only [Call.run_bind_eq_ok, Call.run_get_eq_ok, Call.run_pure_eq_ok] at h
  obtain ⟨_, _, ⟨rfl, rfl⟩, v₁, r₁, h₁, v₂, r₂, h₂, _, _, h₃, -, rfl⟩ := h
  obtain ⟨-, hmax, rfl, rfl⟩ := RichSystemVault.run_increase.mp h₁
  obtain ⟨-, -, rfl, rfl⟩ := RichSystemVault.run_increase.mp h₂
  obtain ⟨-, -, -, rfl⟩ := RichSystemVault.run_increase.mp h₃
  refine ⟨rfl, hmax, ?_⟩
  simp only [VaultRegistry.counters_setLiquidationVault, Counters.addIssued,
    Counters.addToBeIssued, Counters.addToBeRedeemed, bump_eq_update, Function.update_idem]
  rfl

private theorem drop_bump_inl {V P : Type} [DecidableEq V] [DecidableEq P] (f : V ⊕ P → ℕ) (v : V)
    (p : P) :
    drop (bump f (.inr p) (f (.inl v))) (.inl v) (f (.inl v)) =
      Function.update (bump f (.inr p) (f (.inl v))) (.inl v) 0 := by
  rw [drop_eq_update]
  simp [bump]

omit [DecidableEq H256] in
/-- A liquidated vault has handed over its tokens, and has none left to be replaced. -/
theorem run_liquidate {vault : RichVault AccountId CurrencyId} (hc : vault.Current s.registry)
    (h : (liquidate env vault).run s = .ok u s') :
    let c := s.registry.counters.setToBeReplaced vault.id 0
    c.issued (.inr vault.id.currencies) + c.issued (.inl vault.id) ≤ maxBalance ∧
      s'.records = s.records.setCounters (c.liquidate pairOf vault.id) := by
  simp only [liquidate, Call.run_bind_eq_ok, Call.run_get_eq_ok, Call.run_ofExcept_eq_ok,
    Call.run_ofOption_eq_ok, and_assoc, exists_and_left, exists_eq_left'] at h
  obtain ⟨_, -, _, -, _, s₁, h₁, v₁, hread, _, -, _, -, _, -, _, -, v₂, s₂, h₂, _, s₃, h₃,
    _, s₄, h₄, _, s₅, h₅, h₆⟩ := h
  obtain ⟨-, hrec₁⟩ := run_withdrawReplaceRequest h₁
  obtain ⟨hid₁, hc₁⟩ := VaultRegistry.getRichVaultFromId_eq_ok.mp hread
  obtain ⟨hid₂, hc₂, hrec₂⟩ := run_slashForToBeRedeemed hc₁ h₂
  have hkeep := slashToLiquidationVault_keeps _ _ _ h₃
  have hc₃ : v₂.Current s₃.registry := (congrFun (congrArg Prod.snd hkeep) v₂.id).trans hc₂
  have hrec₃ : s₃.records = s₂.records := congrArg Prod.fst hkeep
  obtain ⟨hrun₄, hrec₄⟩ := run_onRegistry h₄
  obtain ⟨hv₄, hmax, hct₄⟩ := run_takeOverTokens hrun₄
  have h₅' : s₅.registry = s₄.registry ∧ s₅.records = s₄.records := by
    obtain ⟨_, -, rfl⟩ := Lens.run_zoom_eq_ok.mp h₅
    exact ⟨rfl, rfl⟩
  have hc₅ : v₂.Current s₅.registry := by
    rw [h₅'.1, RichVault.Current, hv₄]
    exact hc₃
  obtain ⟨hrun₆, hrec₆⟩ := run_onRegistry h₆
  simp only [Call.run_bind_eq_ok, Call.run_pure_eq_ok] at hrun₆
  obtain ⟨_, _, hupdate, -, rfl⟩ := hrun₆
  obtain ⟨-, hs'⟩ := RichVault.run_update hupdate
  have hid : v₂.id = vault.id := hid₂.trans hid₁
  set c := s.registry.counters.setToBeReplaced vault.id 0 with hcdef
  have hct₁ : s₁.records = s.records.setCounters c := by
    rw [hrec₁, hc.toBeReplaced]
    change s.records.setCounters (s.registry.counters.setToBeReplaced vault.id
      (vault.data.toBeReplacedTokens - vault.data.toBeReplacedTokens)) = _
    rw [Nat.sub_self]
  have hct₃ : s₃.records = s.records.setCounters c := hrec₃.trans (hrec₂.trans hct₁)
  have hcounters₃ : s₃.registry.counters = c := congrArg Records.counters hct₃
  rw [hcounters₃] at hmax hct₄
  have hi : v₂.data.issuedTokens = c.issued (.inl vault.id) := by
    rw [← hcounters₃, ← hid, hc₃.issued]
  have ht : v₂.data.toBeIssuedTokens = c.toBeIssued (.inl vault.id) := by
    rw [← hcounters₃, ← hid, hc₃.toBeIssued]
  have hr : v₂.data.toBeRedeemedTokens = c.toBeRedeemed (.inl vault.id) := by
    rw [← hcounters₃, ← hid, hc₃.toBeRedeemed]
  have hp : v₂.data.toBeReplacedTokens = c.toBeReplaced vault.id := by
    rw [← hcounters₃, ← hid, hc₃.toBeReplaced]
  refine ⟨hi ▸ hmax, ?_⟩
  rw [hrec₆, h₅'.2, hrec₄, hct₃, hs', h₅'.1, VaultRegistry.counters_setVault, hct₄, hid]
  refine congrArg (Records.setCounters s.records) ?_
  simp only [RichVault.issuedTokens, RichVault.toBeIssuedTokens, RichVault.toBeRedeemedTokens,
    hi, ht, hr, hp, Counters.addIssued, Counters.addToBeIssued, Counters.addToBeRedeemed,
    Counters.liquidate]
  ext1
  · rfl
  · exact (drop_bump_inl _ _ _).symm
  · exact (drop_bump_inl _ _ _).symm
  · exact Function.update_eq_self_iff.mpr (by simp [bump])
  · exact Function.update_eq_self _ _

end Chain

end Interbtc
