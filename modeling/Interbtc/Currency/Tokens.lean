import Interbtc.Currency.Amount
import Mathlib.Algebra.Order.Sub.Basic

/-!
# Token balances

Balances are kept by a third-party pallet. It is a parameter here: the calls the
other pallets make of it, the laws they rely on, and a plain ledger that obeys them.
-/

namespace Interbtc

open Core

/-- What is kept of one account in one currency. -/
structure AccountData where
  free : ℕ
  reserved : ℕ
  /-- The part of the free balance that is locked. -/
  frozen : ℕ
  deriving DecidableEq

namespace AccountData

/-- More free tokens. -/
def credit (x : ℕ) (d : AccountData) : AccountData := { d with free := d.free + x }

/-- Fewer free tokens. -/
def debit (x : ℕ) (d : AccountData) : AccountData := { d with free := d.free - x }

/-- Free tokens become reserved. -/
def hold (x : ℕ) (d : AccountData) : AccountData :=
  { d with free := d.free - x, reserved := d.reserved + x }

/-- Reserved tokens become free, as many as there are. -/
def release (x : ℕ) (d : AccountData) : AccountData :=
  { d with free := d.free + min x d.reserved, reserved := d.reserved - x }

/-- Fewer reserved tokens. -/
def slash (x : ℕ) (d : AccountData) : AccountData := { d with reserved := d.reserved - x }

/-- The free balance may shrink by `x`. -/
def CanWithdraw (x : ℕ) (d : AccountData) : Prop := x = 0 ∨ x + d.frozen ≤ d.free

instance (x : ℕ) (d : AccountData) : Decidable (d.CanWithdraw x) :=
  inferInstanceAs (Decidable (_ ∨ _))

end AccountData

/-- The balances of all accounts. -/
abbrev Balances (AccountId CurrencyId : Type) : Type := AccountId → CurrencyId → AccountData

/-- Change one balance. -/
def Balances.modify {AccountId CurrencyId : Type} [DecidableEq AccountId] [DecidableEq CurrencyId]
    (a : AccountId) (c : CurrencyId) (f : AccountData → AccountData)
    (b : Balances AccountId CurrencyId) : Balances AccountId CurrencyId :=
  Function.update b a (Function.update (b a) c (f (b a c)))

/-- The calls the pallets make of the token balances. The last two return what is missing. -/
class MultiCurrency (Tokens : Type) (AccountId CurrencyId : outParam Type) where
  balances : Tokens → Balances AccountId CurrencyId
  totalIssuance : Tokens → CurrencyId → ℕ
  transfer : CurrencyId → AccountId → AccountId → ℕ → Call TokensError Tokens Unit
  reserve : CurrencyId → AccountId → ℕ → Call TokensError Tokens Unit
  deposit : CurrencyId → AccountId → ℕ → Call TokensError Tokens Unit
  unreserve : CurrencyId → AccountId → ℕ → Tokens → ℕ × Tokens
  slashReserved : CurrencyId → AccountId → ℕ → Tokens → ℕ × Tokens

open MultiCurrency

/-- The documented behaviour of the calls, with no minimum balance for an account to exist. -/
class LawfulMultiCurrency (Tokens : Type) {AccountId CurrencyId : Type} [DecidableEq AccountId]
    [DecidableEq CurrencyId] [MultiCurrency Tokens AccountId CurrencyId] : Prop where
  transfer_succeeds : ∀ (c : CurrencyId) (a b : AccountId) (x : ℕ) (t : Tokens),
    (transfer c a b x).succeeds t = true ↔ a = b ∨ (balances t a c).CanWithdraw x
  run_transfer : ∀ (c : CurrencyId) (a b : AccountId) (x : ℕ) (t t' : Tokens),
    (transfer c a b x).run t = .ok () t' →
      totalIssuance t' = totalIssuance t ∧
        balances t' = if a = b then balances t
          else Balances.modify b c (·.credit x) (Balances.modify a c (·.debit x) (balances t))
  reserve_succeeds : ∀ (c : CurrencyId) (a : AccountId) (x : ℕ) (t : Tokens),
    (reserve c a x).succeeds t = true ↔ (balances t a c).CanWithdraw x
  run_reserve : ∀ (c : CurrencyId) (a : AccountId) (x : ℕ) (t t' : Tokens),
    (reserve c a x).run t = .ok () t' →
      totalIssuance t' = totalIssuance t ∧
        balances t' = Balances.modify a c (·.hold x) (balances t)
  deposit_succeeds : ∀ (c : CurrencyId) (a : AccountId) (x : ℕ) (t : Tokens),
    (deposit c a x).succeeds t = true ↔ x = 0 ∨ totalIssuance t c + x ≤ maxBalance
  run_deposit : ∀ (c : CurrencyId) (a : AccountId) (x : ℕ) (t t' : Tokens),
    (deposit c a x).run t = .ok () t' →
      totalIssuance t' = Function.update (totalIssuance t) c (totalIssuance t c + x) ∧
        balances t' = Balances.modify a c (·.credit x) (balances t)
  unreserve_eq : ∀ (c : CurrencyId) (a : AccountId) (x : ℕ) (t : Tokens),
    (unreserve c a x t).1 = x - (balances t a c).reserved ∧
      totalIssuance (unreserve c a x t).2 = totalIssuance t ∧
        balances (unreserve c a x t).2 = Balances.modify a c (·.release x) (balances t)
  slashReserved_eq : ∀ (c : CurrencyId) (a : AccountId) (x : ℕ) (t : Tokens),
    (slashReserved c a x t).1 = x - (balances t a c).reserved ∧
      totalIssuance (slashReserved c a x t).2 = Function.update (totalIssuance t) c
        (totalIssuance t c - min x (balances t a c).reserved) ∧
      balances (slashReserved c a x t).2 = Balances.modify a c (·.slash x) (balances t)

/-! ## A plain ledger -/

/-- Balances and issuance as two tables. -/
structure TokenLedger (AccountId CurrencyId : Type) where
  accounts : Balances AccountId CurrencyId
  issuance : CurrencyId → ℕ

namespace TokenLedger

variable {AccountId CurrencyId : Type} [DecidableEq AccountId] [DecidableEq CurrencyId]

/-- Raise the error a withdrawal of `x` meets. -/
def ensureCanWithdraw (d : AccountData) (x : ℕ) :
    Call TokensError (TokenLedger AccountId CurrencyId) Unit := do
  Call.ensure (x = 0 ∨ x ≤ d.free) .balanceTooLow
  Call.ensure (d.CanWithdraw x) .liquidityRestrictions

instance : MultiCurrency (TokenLedger AccountId CurrencyId) AccountId CurrencyId where
  balances t := t.accounts
  totalIssuance t := t.issuance
  transfer c a b x := do
    let t ← get
    if a = b then
      return
    else
      ensureCanWithdraw (t.accounts a c) x
      set { t with accounts := (t.accounts.modify a c (·.debit x)).modify b c (·.credit x) }
  reserve c a x := do
    let t ← get
    ensureCanWithdraw (t.accounts a c) x
    set { t with accounts := t.accounts.modify a c (·.hold x) }
  deposit c a x := do
    let t ← get
    Call.ensure (x = 0 ∨ t.issuance c + x ≤ maxBalance) .balanceOverflow
    set { t with
      accounts := t.accounts.modify a c (·.credit x)
      issuance := Function.update t.issuance c (t.issuance c + x) }
  unreserve c a x t :=
    (x - (t.accounts a c).reserved, { t with accounts := t.accounts.modify a c (·.release x) })
  slashReserved c a x t :=
    (x - (t.accounts a c).reserved,
      { accounts := t.accounts.modify a c (·.slash x)
        issuance := Function.update t.issuance c
          (t.issuance c - min x (t.accounts a c).reserved) })

omit [DecidableEq AccountId] [DecidableEq CurrencyId] in
/-- The check of a withdrawal changes nothing. -/
theorem run_ensureCanWithdraw {d : AccountData} {x : ℕ} {u : Unit}
    {t t' : TokenLedger AccountId CurrencyId} :
    (ensureCanWithdraw d x).run t = .ok u t' ↔ d.CanWithdraw x ∧ t = t' := by
  simp only [ensureCanWithdraw, Call.run_bind_eq_ok, Call.run_ensure_eq_ok]
  constructor
  · rintro ⟨_, _, ⟨_, rfl⟩, h⟩
    exact h
  · rintro ⟨h, rfl⟩
    refine ⟨(), t, ⟨h.imp id fun h => ?_, rfl⟩, h, rfl⟩
    omega

instance : LawfulMultiCurrency (TokenLedger AccountId CurrencyId) where
  transfer_succeeds c a b x t := by
    simp only [Call.succeeds_iff, transfer, balances, Call.run_bind_eq_ok, Call.run_get_eq_ok,
      Call.run_ite_eq_ok, Call.run_pure_eq_ok, run_ensureCanWithdraw, Call.run_set_eq_ok]
    constructor
    · rintro ⟨_, _, _, _, ⟨rfl, rfl⟩, ⟨h, _⟩ | ⟨_, _, _, ⟨h, _⟩, _⟩⟩
      · exact .inl h
      · exact .inr h
    · intro h
      by_cases hab : a = b
      · exact ⟨(), t, t, t, ⟨rfl, rfl⟩, .inl ⟨hab, trivial, rfl⟩⟩
      · exact ⟨(), _, t, t, ⟨rfl, rfl⟩, .inr ⟨hab, (), t, ⟨h.resolve_left hab, rfl⟩, rfl⟩⟩
  run_transfer c a b x t t' h := by
    simp only [transfer, Call.run_bind_eq_ok, Call.run_get_eq_ok, Call.run_ite_eq_ok,
      Call.run_pure_eq_ok, run_ensureCanWithdraw, Call.run_set_eq_ok] at h
    obtain ⟨_, _, ⟨rfl, rfl⟩, ⟨hab, _, rfl⟩ | ⟨hab, _, _, ⟨_, rfl⟩, rfl⟩⟩ := h
    · exact ⟨rfl, (if_pos hab).symm⟩
    · exact ⟨rfl, (if_neg hab).symm⟩
  reserve_succeeds c a x t := by
    simp only [Call.succeeds_iff, reserve, balances, Call.run_bind_eq_ok, Call.run_get_eq_ok,
      run_ensureCanWithdraw, Call.run_set_eq_ok]
    constructor
    · rintro ⟨_, _, _, _, ⟨rfl, rfl⟩, _, _, ⟨h, _⟩, _⟩
      exact h
    · intro h
      exact ⟨(), _, t, t, ⟨rfl, rfl⟩, (), t, ⟨h, rfl⟩, rfl⟩
  run_reserve c a x t t' h := by
    simp only [reserve, Call.run_bind_eq_ok, Call.run_get_eq_ok, run_ensureCanWithdraw,
      Call.run_set_eq_ok] at h
    obtain ⟨_, _, ⟨rfl, rfl⟩, _, _, ⟨_, rfl⟩, rfl⟩ := h
    exact ⟨rfl, rfl⟩
  deposit_succeeds c a x t := by
    simp only [Call.succeeds_iff, deposit, totalIssuance, Call.run_bind_eq_ok,
      Call.run_get_eq_ok, Call.run_ensure_eq_ok, Call.run_set_eq_ok]
    constructor
    · rintro ⟨_, _, _, _, ⟨rfl, rfl⟩, _, _, ⟨h, _⟩, _⟩
      exact h
    · intro h
      exact ⟨(), _, t, t, ⟨rfl, rfl⟩, (), t, ⟨h, rfl⟩, rfl⟩
  run_deposit c a x t t' h := by
    simp only [deposit, Call.run_bind_eq_ok, Call.run_get_eq_ok, Call.run_ensure_eq_ok,
      Call.run_set_eq_ok] at h
    obtain ⟨_, _, ⟨rfl, rfl⟩, _, _, ⟨_, rfl⟩, rfl⟩ := h
    exact ⟨rfl, rfl⟩
  unreserve_eq c a x t := ⟨rfl, rfl, rfl⟩
  slashReserved_eq c a x t := ⟨rfl, rfl, rfl⟩

end TokenLedger

end Interbtc
