import Interbtc.Currency.Tokens

/-!
# Moving amounts

An amount is transferred, locked, unlocked, burned or minted in the token balances.
-/

namespace Interbtc.Amount

open Core MultiCurrency

variable {AccountId CurrencyId Tokens : Type} [MultiCurrency Tokens AccountId CurrencyId]

/-- Move the amount to another account. -/
def transfer (x : Amount CurrencyId) (source destination : AccountId) :
    Call DispatchError Tokens Unit :=
  (MultiCurrency.transfer x.currencyId source destination x.amount).mapError .tokens

/-- Reserve the amount. -/
def lockOn (x : Amount CurrencyId) (accountId : AccountId) : Call DispatchError Tokens Unit :=
  (MultiCurrency.reserve x.currencyId accountId x.amount).mapError .tokens

/-- Unlock the whole amount, or raise an error. -/
def unlockOn (x : Amount CurrencyId) (accountId : AccountId) : Call DispatchError Tokens Unit := do
  let t ← get
  let result := unreserve x.currencyId accountId x.amount t
  set result.2
  Call.ensure (result.1 = 0) (.tokens .balanceTooLow)

/-- Burn the whole amount of what is reserved, or raise an error. -/
def burnFrom (x : Amount CurrencyId) (accountId : AccountId) : Call DispatchError Tokens Unit := do
  let t ← get
  let result := slashReserved x.currencyId accountId x.amount t
  set result.2
  Call.ensure (result.1 = 0) (.tokens .balanceTooLow)

/-- Create the amount. -/
def mintTo (x : Amount CurrencyId) (accountId : AccountId) : Call DispatchError Tokens Unit :=
  (MultiCurrency.deposit x.currencyId accountId x.amount).mapError .tokens

/-! ## What a successful action does -/

variable [DecidableEq AccountId] [DecidableEq CurrencyId] [LawfulMultiCurrency Tokens]
  {x : Amount CurrencyId} {a b : AccountId} {t t' : Tokens} {u : Unit}

/-- A transfer succeeds if the amount can be withdrawn, or if it goes nowhere. -/
theorem transfer_succeeds_iff : (x.transfer a b).succeeds t = true ↔
    a = b ∨ (balances t a x.currencyId).CanWithdraw x.amount := by
  rw [← LawfulMultiCurrency.transfer_succeeds (b := b), Call.succeeds_iff, Call.succeeds_iff]
  exact exists_congr fun _ => exists_congr fun _ => Call.run_mapError_eq_ok

/-- A transfer debits one account and credits the other, and creates nothing. -/
theorem run_transfer (h : (x.transfer a b).run t = .ok u t') :
    totalIssuance t' = totalIssuance t ∧
      balances t' = if a = b then balances t
        else Balances.modify b x.currencyId (·.credit x.amount)
          (Balances.modify a x.currencyId (·.debit x.amount) (balances t)) :=
  LawfulMultiCurrency.run_transfer _ _ _ _ _ _ (Call.run_mapError_eq_ok.mp h)

/-- What can be withdrawn can be locked. -/
theorem lockOn_succeeds_iff : (x.lockOn a).succeeds t = true ↔
    (balances t a x.currencyId).CanWithdraw x.amount := by
  rw [← LawfulMultiCurrency.reserve_succeeds, Call.succeeds_iff, Call.succeeds_iff]
  exact exists_congr fun _ => exists_congr fun _ => Call.run_mapError_eq_ok

/-- Locking moves free tokens to the reserved ones. -/
theorem run_lockOn (h : (x.lockOn a).run t = .ok u t') :
    totalIssuance t' = totalIssuance t ∧
      balances t' = Balances.modify a x.currencyId (·.hold x.amount) (balances t) :=
  LawfulMultiCurrency.run_reserve _ _ _ _ _ (Call.run_mapError_eq_ok.mp h)

/-- Minting succeeds while the issuance stays in range. -/
theorem mintTo_succeeds_iff : (x.mintTo a).succeeds t = true ↔
    x.amount = 0 ∨ totalIssuance t x.currencyId + x.amount ≤ maxBalance := by
  rw [← LawfulMultiCurrency.deposit_succeeds x.currencyId a, Call.succeeds_iff,
    Call.succeeds_iff]
  exact exists_congr fun _ => exists_congr fun _ => Call.run_mapError_eq_ok

/-- Minting credits an account and raises the issuance. -/
theorem run_mintTo (h : (x.mintTo a).run t = .ok u t') :
    totalIssuance t' = Function.update (totalIssuance t) x.currencyId
        (totalIssuance t x.currencyId + x.amount) ∧
      balances t' = Balances.modify a x.currencyId (·.credit x.amount) (balances t) :=
  LawfulMultiCurrency.run_deposit _ _ _ _ _ (Call.run_mapError_eq_ok.mp h)

/-- What is reserved can be unlocked. -/
theorem unlockOn_succeeds_iff : (x.unlockOn a).succeeds t = true ↔
    x.amount ≤ (balances t a x.currencyId).reserved := by
  simp only [Call.succeeds_iff, unlockOn, Call.run_bind_eq_ok, Call.run_get_eq_ok,
    Call.run_set_eq_ok, Call.run_ensure_eq_ok, (LawfulMultiCurrency.unreserve_eq _ _ _ _).1]
  constructor
  · rintro ⟨_, _, _, _, ⟨rfl, rfl⟩, _, _, rfl, h, _⟩
    omega
  · intro h
    exact ⟨(), _, t, t, ⟨rfl, rfl⟩, ⟨⟩, _, rfl, by omega, rfl⟩

/-- Unlocking moves reserved tokens to the free ones. -/
theorem run_unlockOn (h : (x.unlockOn a).run t = .ok u t') :
    totalIssuance t' = totalIssuance t ∧
      balances t' = Balances.modify a x.currencyId (·.release x.amount) (balances t) := by
  simp only [unlockOn, Call.run_bind_eq_ok, Call.run_get_eq_ok, Call.run_set_eq_ok,
    Call.run_ensure_eq_ok] at h
  obtain ⟨_, _, ⟨rfl, rfl⟩, _, _, rfl, _, rfl⟩ := h
  exact (LawfulMultiCurrency.unreserve_eq _ _ _ _).2

private theorem burnFrom_succeeds_iff : (x.burnFrom a).succeeds t = true ↔
    x.amount ≤ (balances t a x.currencyId).reserved := by
  simp only [Call.succeeds_iff, burnFrom, Call.run_bind_eq_ok, Call.run_get_eq_ok,
    Call.run_set_eq_ok, Call.run_ensure_eq_ok, (LawfulMultiCurrency.slashReserved_eq _ _ _ _).1]
  constructor
  · rintro ⟨_, _, _, _, ⟨rfl, rfl⟩, _, _, rfl, h, _⟩
    omega
  · intro h
    exact ⟨(), _, t, t, ⟨rfl, rfl⟩, ⟨⟩, _, rfl, by omega, rfl⟩

/-- Burning takes reserved tokens and lowers the issuance. -/
theorem run_burnFrom (h : (x.burnFrom a).run t = .ok u t') :
    x.amount ≤ (balances t a x.currencyId).reserved ∧
      totalIssuance t' = Function.update (totalIssuance t) x.currencyId
        (totalIssuance t x.currencyId - x.amount) ∧
      balances t' = Balances.modify a x.currencyId (·.slash x.amount) (balances t) := by
  have hle : x.amount ≤ (balances t a x.currencyId).reserved :=
    burnFrom_succeeds_iff.mp (Call.succeeds_iff.mpr ⟨_, _, h⟩)
  simp only [burnFrom, Call.run_bind_eq_ok, Call.run_get_eq_ok, Call.run_set_eq_ok,
    Call.run_ensure_eq_ok] at h
  obtain ⟨_, _, ⟨rfl, rfl⟩, _, _, rfl, _, rfl⟩ := h
  obtain ⟨_, hissuance, hbalances⟩ :=
    LawfulMultiCurrency.slashReserved_eq x.currencyId a x.amount t
  rw [Nat.min_eq_left hle] at hissuance
  exact ⟨hle, hissuance, hbalances⟩

end Interbtc.Amount
