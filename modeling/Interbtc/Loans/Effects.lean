import Interbtc.Loans.Books

/-!
# Moving tokens on the books

What a transfer, a mint, a burn and a lock do to the books, hooks included.
-/

namespace Interbtc.Loans

open Core MultiCurrency

variable {AccountId CurrencyId H256 Tokens : Type} [DecidableEq AccountId]
  [DecidableEq CurrencyId] [MultiCurrency Tokens AccountId CurrencyId]
  [CurrencyConfig CurrencyId] [LoansConfig AccountId CurrencyId]

/-! ## Effects -/

section Effects

variable (x : Amount CurrencyId) (who source destination : AccountId)
  (b : Books AccountId CurrencyId)

/-- The balance of an account in a currency. -/
def account (c : CurrencyId) : AccountData := b.tokens.accounts who c

/-- The issuance of a currency. -/
def issuance (c : CurrencyId) : ℕ := b.tokens.issuance c

/-- Change one balance. -/
def modifyAccount (c : CurrencyId) (f : AccountData → AccountData) : Books AccountId CurrencyId :=
  { b with tokens := { b.tokens with accounts := b.tokens.accounts.modify who c f } }

/-- The books after a transfer. -/
def move : Books AccountId CurrencyId :=
  modifyAccount destination (modifyAccount source b x.currencyId (·.debit x.amount)) x.currencyId
    (·.credit x.amount)

/-- The books after a reservation. -/
def hold : Books AccountId CurrencyId := modifyAccount who b x.currencyId (·.hold x.amount)

/-- The books after a release. -/
def release : Books AccountId CurrencyId := modifyAccount who b x.currencyId (·.release x.amount)

/-- The books with another issuance. -/
def setIssuance (c : CurrencyId) (n : ℕ) : Books AccountId CurrencyId :=
  { b with tokens := { b.tokens with issuance := Function.update b.tokens.issuance c n } }

/-- The books after a mint. -/
def issue : Books AccountId CurrencyId :=
  setIssuance (modifyAccount who b x.currencyId (·.credit x.amount)) x.currencyId
    (issuance b x.currencyId + x.amount)

/-- The books after reserved tokens are burned. -/
def burn : Books AccountId CurrencyId :=
  setIssuance (modifyAccount who b x.currencyId (·.slash x.amount)) x.currencyId
    (issuance b x.currencyId - x.amount)

/-- The books with other collateral deposits. -/
def setDeposits (n : ℕ) : Books AccountId CurrencyId :=
  { b with accountDeposits := update₂ b.accountDeposits x.currencyId who n }

/-- Lock an amount as collateral. -/
def lock : Books AccountId CurrencyId :=
  setDeposits x who (hold x who b) (b.accountDeposits x.currencyId who + x.amount)

/-- Take an amount out of the collateral. -/
def unlock : Books AccountId CurrencyId :=
  setDeposits x who (release x who b) (b.accountDeposits x.currencyId who - x.amount)

/-- What an account receives is locked where its lend tokens are. -/
def receive : Books AccountId CurrencyId :=
  if CurrencyConfig.isLendToken x.currencyId ∧ b.accountDeposits x.currencyId who ≠ 0 then
    lock x who b
  else b

end Effects

/-! ## Reads after an effect -/

section After

variable {x : Amount CurrencyId} {who source destination a : AccountId}
  {b : Books AccountId CurrencyId} {c d : CurrencyId} {f : AccountData → AccountData}

section

omit [CurrencyConfig CurrencyId] [LoansConfig AccountId CurrencyId]

/-- One account changes, in one currency. -/
theorem account_modifyAccount : account a (modifyAccount who b d f) c =
    if a = who ∧ c = d then f (account a b c) else account a b c := by
  unfold account modifyAccount Balances.modify
  by_cases ha : a = who
  · subst ha
    by_cases hc : c = d
    · subst hc
      simp
    · simp [hc]
  · simp [ha]

/-- Two changes of one balance. -/
theorem modifyAccount_modifyAccount {g : AccountData → AccountData} :
    modifyAccount who (modifyAccount who b d f) d g = modifyAccount who b d fun x => g (f x) := by
  unfold modifyAccount Balances.modify
  congr 2
  simp only [Function.update_idem, Function.update_self]

/-- Changes of two accounts. -/
theorem modifyAccount_comm {g : AccountData → AccountData} (h : who ≠ a) :
    modifyAccount who (modifyAccount a b c f) d g = modifyAccount a (modifyAccount who b d g) c f := by
  unfold modifyAccount Balances.modify
  congr 2
  simp only [Function.update_of_ne h, Function.update_of_ne h.symm]
  rw [Function.update_comm h.symm]

/-- Collateral deposits are not balances. -/
@[simp] theorem account_setDeposits {n : ℕ} :
    account a (setDeposits x who b n) c = account a b c := rfl

/-- The deposits of one account change. -/
theorem accountDeposits_setDeposits {n : ℕ} : (setDeposits x who b n).accountDeposits c a =
    if a = who ∧ c = x.currencyId then n else b.accountDeposits c a := by
  unfold setDeposits
  by_cases ha : a = who
  · by_cases hc : c = x.currencyId
    · rw [if_pos ⟨ha, hc⟩, ha, hc]
      exact update₂_self
    · rw [if_neg fun h => hc h.2]
      exact congrFun (update₂_of_ne_left hc) a
  · rw [if_neg fun h => ha h.1]
    exact update₂_of_ne ha

end

section

omit [LoansConfig AccountId CurrencyId]

/-- What another account has does not matter to the receiver. -/
theorem receive_modifyAccount (h : who ≠ a) :
    receive x a (modifyAccount who b d f) = modifyAccount who (receive x a b) d f := by
  unfold receive
  by_cases hcond : CurrencyConfig.isLendToken x.currencyId = true ∧
      b.accountDeposits x.currencyId a ≠ 0
  · rw [if_pos hcond]
    refine (if_pos hcond).trans ?_
    exact congrArg (fun b' => setDeposits x a b' _) (modifyAccount_comm h.symm)
  · rw [if_neg hcond]
    exact if_neg hcond

/-- What neither the balances nor the collateral matter to is left alone by a receipt. -/
theorem receive_eq_of {α : Type} {g : Books AccountId CurrencyId → α}
    (hg : ∀ (b : Books AccountId CurrencyId) t deposits,
      g { b with tokens := t, accountDeposits := deposits } = g b) :
    g (receive x who b) = g b := by
  unfold receive
  split
  · exact hg b (lock x who b).tokens (lock x who b).accountDeposits
  · rfl

end

end After

/-! ## What the calls do -/

variable {env : LoansEnv AccountId CurrencyId H256} [LawfulMultiCurrency Tokens]
  {x : Amount CurrencyId} {who source destination : AccountId}
  {s s' : Loans AccountId CurrencyId Tokens} {u : Unit}

section

omit [CurrencyConfig CurrencyId] [LoansConfig AccountId CurrencyId]

private theorem run_onTokens_transfer (hne : source ≠ destination)
    (h : (onTokens (x.transfer source destination)).run s = .ok u s') :
    (account source s.books x.currencyId).CanWithdraw x.amount ∧
      s'.books = move x source destination s.books := by
  obtain ⟨t, ht, rfl⟩ := Lens.run_zoom_eq_ok.mp h
  obtain ⟨hissuance, hbalances⟩ := Amount.run_transfer ht
  refine ⟨(Amount.transfer_succeeds_iff.mp (Call.succeeds_iff.mpr ⟨_, _, ht⟩)).resolve_left hne, ?_⟩
  rw [if_neg hne] at hbalances
  change books { s with tokens := t } = _
  unfold books
  rw [hissuance, hbalances]
  rfl

/-- A reservation needs free tokens. -/
theorem run_onTokens_lockOn (h : (onTokens (x.lockOn who)).run s = .ok u s') :
    (account who s.books x.currencyId).CanWithdraw x.amount ∧ s'.books = hold x who s.books := by
  obtain ⟨t, ht, rfl⟩ := Lens.run_zoom_eq_ok.mp h
  obtain ⟨hissuance, hbalances⟩ := Amount.run_lockOn ht
  refine ⟨Amount.lockOn_succeeds_iff.mp (Call.succeeds_iff.mpr ⟨_, _, ht⟩), ?_⟩
  change books { s with tokens := t } = _
  unfold books
  rw [hissuance, hbalances]
  rfl

/-- A release needs reserved tokens. -/
theorem run_onTokens_unlockOn (h : (onTokens (x.unlockOn who)).run s = .ok u s') :
    x.amount ≤ (account who s.books x.currencyId).reserved ∧
      s'.books = release x who s.books := by
  obtain ⟨t, ht, rfl⟩ := Lens.run_zoom_eq_ok.mp h
  obtain ⟨hissuance, hbalances⟩ := Amount.run_unlockOn ht
  refine ⟨Amount.unlockOn_succeeds_iff.mp (Call.succeeds_iff.mpr ⟨_, _, ht⟩), ?_⟩
  change books { s with tokens := t } = _
  unfold books
  rw [hissuance, hbalances]
  rfl

private theorem run_onTokens_mintTo (h : (onTokens (x.mintTo who)).run s = .ok u s') :
    s'.books = issue x who s.books := by
  obtain ⟨t, ht, rfl⟩ := Lens.run_zoom_eq_ok.mp h
  obtain ⟨hissuance, hbalances⟩ := Amount.run_mintTo ht
  change books { s with tokens := t } = _
  unfold books
  rw [hissuance, hbalances]
  rfl

private theorem run_onTokens_burnFrom (h : (onTokens (x.burnFrom who)).run s = .ok u s') :
    x.amount ≤ (account who s.books x.currencyId).reserved ∧ s'.books = burn x who s.books := by
  obtain ⟨t, ht, rfl⟩ := Lens.run_zoom_eq_ok.mp h
  obtain ⟨hle, hissuance, hbalances⟩ := Amount.run_burnFrom ht
  refine ⟨hle, ?_⟩
  change books { s with tokens := t } = _
  unfold books
  rw [hissuance, hbalances]
  rfl

end

omit [CurrencyConfig CurrencyId] in
/-- Collateral is reserved and recorded. -/
theorem run_doDepositCollateral (h : (doDepositCollateral who x).run s = .ok u s') :
    (account who s.books x.currencyId).CanWithdraw x.amount ∧ s'.books = lock x who s.books := by
  simp only [doDepositCollateral, Call.run_bind_eq_ok, Call.run_reads_eq_ok,
    Call.run_modify_eq_ok, Amount.checkedAdd_eq_ok] at h
  obtain ⟨_, _, ⟨-, rfl⟩, _, _, ⟨-, rfl⟩, _, s₁, hlock, _, _, ⟨⟨-, -, rfl⟩, rfl⟩, rfl⟩ := h
  obtain ⟨hcan, hbooks⟩ := run_onTokens_lockOn hlock
  refine ⟨hcan, ?_⟩
  change setDeposits x who s₁.books (s₁.books.accountDeposits x.currencyId who + x.amount) = _
  rw [hbooks]
  rfl

omit [CurrencyConfig CurrencyId] [LoansConfig AccountId CurrencyId] [LawfulMultiCurrency Tokens] in
/-- The recorded deposits fall by at most what they are. -/
theorem run_decreaseDeposits (h : (decreaseDeposits x who).run s = .ok u s') :
    x.amount ≤ s.accountDeposits x.currencyId who ∧
      s'.books = setDeposits x who s.books (s.accountDeposits x.currencyId who - x.amount) := by
  simp only [decreaseDeposits, Call.run_bind_eq_ok, Call.run_get_eq_ok, Call.run_ensure_eq_ok,
    Call.run_modify_eq_ok] at h
  obtain ⟨_, _, ⟨rfl, rfl⟩, _, _, ⟨hle, rfl⟩, rfl⟩ := h
  exact ⟨hle, rfl⟩

private theorem run_postReceive (h : (postReceive x who).run s = .ok u s') :
    s'.books = receive x who s.books := by
  simp only [postReceive, lockIfAccountDeposited, Call.run_ite_eq_ok, Call.run_bind_eq_ok,
    Call.run_get_eq_ok, Call.run_pure_eq_ok] at h
  obtain ⟨hlend, _, _, ⟨rfl, rfl⟩, ⟨hzero, -, rfl⟩ | ⟨hzero, hlock⟩⟩ | ⟨hlend, -, rfl⟩ := h
  · exact (if_neg fun hc => hc.2 hzero).symm
  · exact (run_doDepositCollateral hlock).2.trans (if_pos ⟨hlend, hzero⟩).symm
  · exact (if_neg fun hc => hlend hc.1).symm

/-- A transfer moves the amount and locks it where the receiver locks its lend tokens. -/
theorem run_transfer (h : (transfer env x source destination).run s = .ok u s') :
    ((x.amount = 0 ∨ source = destination) ∧ s' = s) ∨
      (x.amount ≠ 0 ∧ source ≠ destination ∧
        (account source s.books x.currencyId).CanWithdraw x.amount ∧
        s'.books = receive x destination (move x source destination s.books)) := by
  simp only [transfer, Call.run_ite_eq_ok, Call.run_bind_eq_ok, Call.run_pure_eq_ok] at h
  obtain ⟨hzero, -, rfl⟩ | ⟨hne, _, s₁, hpre, _, s₂, hmove, hpost⟩ := h
  · exact .inl ⟨hzero, rfl⟩
  · have hzero : x.amount ≠ 0 := fun h => hne (.inl h)
    have hdest : source ≠ destination := fun h => hne (.inr h)
    have hbooks := (settleSuppliers_books _ _).ok _ _ _ hpre
    obtain ⟨hcan, hmoved⟩ := run_onTokens_transfer hdest hmove
    rw [hbooks] at hcan hmoved
    refine .inr ⟨hzero, hdest, hcan, ?_⟩
    rw [run_postReceive hpost, hmoved]

/-- Minted lend tokens are locked where the account locks its lend tokens. -/
theorem run_mintTo (h : (mintTo env x who).run s = .ok u s') :
    (x.amount = 0 ∧ s' = s) ∨
      (x.amount ≠ 0 ∧ s'.books = receive x who (issue x who s.books)) := by
  simp only [mintTo, Call.run_ite_eq_ok, Call.run_bind_eq_ok, Call.run_pure_eq_ok] at h
  obtain ⟨hzero, -, rfl⟩ | ⟨hne, _, s₁, hpre, _, s₂, hmint, hpost⟩ := h
  · exact .inl ⟨hzero, rfl⟩
  · have hbooks := (settleSuppliers_books _ _).ok _ _ _ hpre
    refine .inr ⟨hne, ?_⟩
    rw [run_postReceive hpost, run_onTokens_mintTo hmint, hbooks]

omit [LoansConfig AccountId CurrencyId] in
/-- Reserved tokens are burned. -/
theorem run_burnFrom (h : (burnFrom env x who).run s = .ok u s') :
    (x.amount = 0 ∧ s' = s) ∨ (x.amount ≠ 0 ∧
      x.amount ≤ (account who s.books x.currencyId).reserved ∧
      s'.books = burn x who s.books) := by
  simp only [burnFrom, Call.run_ite_eq_ok, Call.run_bind_eq_ok, Call.run_pure_eq_ok] at h
  obtain ⟨hzero, -, rfl⟩ | ⟨hne, _, s₁, hslash, hburn⟩ := h
  · exact .inl ⟨hzero, rfl⟩
  · have hbooks := (onSlash_books _ _).ok _ _ _ hslash
    have hburned := run_onTokens_burnFrom hburn
    rw [hbooks] at hburned
    exact .inr ⟨hne, hburned⟩

end Interbtc.Loans
