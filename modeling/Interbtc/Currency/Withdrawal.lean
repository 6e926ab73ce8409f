import Interbtc.Currency.Actions

/-!
# Withdrawals

Some pallets also burn tokens of the free balance of an account.
-/

namespace Interbtc

open Core MultiCurrency

/-- Balances of which free tokens can be burned. -/
class WithdrawableCurrency (Tokens : Type) (AccountId CurrencyId : outParam Type) extends
    MultiCurrency Tokens AccountId CurrencyId where
  withdraw : CurrencyId → AccountId → ℕ → Call TokensError Tokens Unit

open WithdrawableCurrency

/-- What withdrawals do, on top of what transfers and deposits do. -/
class LawfulWithdrawableCurrency (Tokens : Type) {AccountId CurrencyId : Type}
    [DecidableEq AccountId] [DecidableEq CurrencyId]
    [WithdrawableCurrency Tokens AccountId CurrencyId] : Prop extends
    LawfulMultiCurrency Tokens where
  withdraw_succeeds : ∀ (c : CurrencyId) (a : AccountId) (x : ℕ) (t : Tokens),
    (withdraw c a x).succeeds t = true ↔ (balances t a c).CanWithdraw x
  run_withdraw : ∀ (c : CurrencyId) (a : AccountId) (x : ℕ) (t t' : Tokens),
    (withdraw c a x).run t = .ok () t' →
      totalIssuance t' = Function.update (totalIssuance t) c (totalIssuance t c - x) ∧
        balances t' = Balances.modify a c (·.debit x) (balances t)

namespace TokenLedger

variable {AccountId CurrencyId : Type} [DecidableEq AccountId] [DecidableEq CurrencyId]

instance : WithdrawableCurrency (TokenLedger AccountId CurrencyId) AccountId CurrencyId where
  withdraw c a x := do
    let t ← get
    ensureCanWithdraw (t.accounts a c) x
    set { t with
      accounts := t.accounts.modify a c (·.debit x)
      issuance := Function.update t.issuance c (t.issuance c - x) }

instance : LawfulWithdrawableCurrency (TokenLedger AccountId CurrencyId) where
  withdraw_succeeds c a x t := by
    simp only [Call.succeeds_iff, withdraw, balances, Call.run_bind_eq_ok, Call.run_get_eq_ok,
      run_ensureCanWithdraw, Call.run_set_eq_ok]
    constructor
    · rintro ⟨_, _, _, _, ⟨rfl, rfl⟩, _, _, ⟨h, _⟩, _⟩
      exact h
    · intro h
      exact ⟨(), _, t, t, ⟨rfl, rfl⟩, (), t, ⟨h, rfl⟩, rfl⟩
  run_withdraw c a x t t' h := by
    simp only [withdraw, Call.run_bind_eq_ok, Call.run_get_eq_ok, run_ensureCanWithdraw,
      Call.run_set_eq_ok] at h
    obtain ⟨_, _, ⟨rfl, rfl⟩, _, _, ⟨_, rfl⟩, rfl⟩ := h
    exact ⟨rfl, rfl⟩

end TokenLedger

end Interbtc
