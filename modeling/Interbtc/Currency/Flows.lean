import Interbtc.Currency.Withdrawal
import Mathlib.Algebra.Group.Pi.Basic
import Mathlib.Tactic.Abel

/-!
# Flows of tokens

What calls do to the free balances is added up as integers: an amount that an account pays to
itself comes to nothing, and nothing is cut off at zero.
-/

namespace Interbtc

open Core MultiCurrency WithdrawableCurrency

variable {AccountId CurrencyId Tokens : Type} [DecidableEq AccountId] [DecidableEq CurrencyId]

/-- Amounts of each currency on each account. -/
abbrev Flow (AccountId CurrencyId : Type) : Type := CurrencyId → AccountId → ℤ

/-- An amount that an account gets. -/
def flow (c : CurrencyId) (who : AccountId) (x : ℕ) : Flow AccountId CurrencyId :=
  fun d w => if d = c ∧ w = who then (x : ℤ) else 0

section Flow

variable {c d : CurrencyId} {who w : AccountId} {x : ℕ}

/-- What flows to an account reaches it. -/
@[simp] theorem flow_self : flow c who x c who = (x : ℤ) := if_pos ⟨rfl, rfl⟩

/-- Nothing flows nowhere. -/
@[simp] theorem flow_zero : flow c who 0 = (0 : Flow AccountId CurrencyId) := by
  funext d w
  exact ite_self 0

/-- A flow changes one currency. -/
theorem flow_of_ne_currency (h : d ≠ c) : flow c who x d w = 0 := if_neg fun h' => h h'.1

/-- A flow changes one account. -/
theorem flow_of_ne (h : w ≠ who) : flow c who x d w = 0 := if_neg fun h' => h h'.2

/-- A flow brings something. -/
theorem flow_nonneg : 0 ≤ flow c who x d w := by
  unfold flow
  split
  · exact Int.natCast_nonneg x
  · exact le_rfl

/-- What a flow brings to its account. -/
theorem flow_at (who : AccountId) : flow c who x d who = if d = c then (x : ℤ) else 0 := by
  simp only [flow, and_true]

/-- Amounts of all currencies that an account gets. -/
def parcel (who : AccountId) (x : CurrencyId → ℕ) : Flow AccountId CurrencyId :=
  fun d w => if w = who then (x d : ℤ) else 0

variable {y z : CurrencyId → ℕ}

omit [DecidableEq CurrencyId] in
/-- An account gets what is in its parcel. -/
@[simp] theorem parcel_self : parcel who y d who = (y d : ℤ) := if_pos rfl

omit [DecidableEq CurrencyId] in
/-- A parcel changes one account. -/
theorem parcel_of_ne (h : w ≠ who) : parcel who y d w = 0 := if_neg h

omit [DecidableEq CurrencyId] in
/-- A parcel brings something. -/
theorem parcel_nonneg : 0 ≤ parcel who y d w := by
  unfold parcel
  split
  · exact Int.natCast_nonneg _
  · exact le_rfl

/-- An amount of one currency. -/
def single (c : CurrencyId) (x : ℕ) : CurrencyId → ℕ := fun d => if d = c then x else 0

/-- A flow is a parcel of one currency. -/
theorem flow_single : flow c who x d who = (single c x d : ℤ) := by
  rw [flow_at, single, Nat.cast_ite, Nat.cast_zero]

/-- A parcel of one currency is a flow. -/
@[simp] theorem parcel_single : parcel who (single c x) = flow c who x := by
  funext d w
  unfold parcel single flow
  by_cases hw : w = who
  · rw [if_pos hw, Nat.cast_ite, Nat.cast_zero]
    simp only [hw, and_true]
  · rw [if_neg hw, if_neg fun h => hw h.2]

omit [DecidableEq CurrencyId] in
/-- Parcels of one account add up. -/
theorem parcel_add : parcel who (y + z) = parcel who y + parcel who z := by
  funext d w
  simp only [parcel, Pi.add_apply, Nat.cast_add]
  split
  · rfl
  · rfl

omit [DecidableEq CurrencyId] in
/-- An empty parcel is no flow. -/
@[simp] theorem parcel_zero : parcel who (0 : CurrencyId → ℕ) = 0 := by
  funext d w
  exact ite_self 0

end Flow

variable [WithdrawableCurrency Tokens AccountId CurrencyId]

/-- The free balances. -/
def held (t : Tokens) : Flow AccountId CurrencyId := fun c who => ((balances t who c).free : ℤ)

/-- The locked parts of the free balances. -/
def frozen (t : Tokens) (c : CurrencyId) (who : AccountId) : ℕ := (balances t who c).frozen

section Modify

variable {b : Balances AccountId CurrencyId} {a who : AccountId} {c d : CurrencyId} {x : ℕ}

omit [WithdrawableCurrency Tokens AccountId CurrencyId] in
/-- Balances are modified at one account and currency. -/
theorem modify_apply (f : AccountData → AccountData) :
    b.modify a c f who d = if d = c ∧ who = a then f (b a c) else b who d := by
  unfold Balances.modify
  rcases eq_or_ne who a with rfl | hwho
  · rw [Function.update_self]
    rcases eq_or_ne d c with rfl | hd
    · rw [Function.update_self, if_pos ⟨rfl, rfl⟩]
    · rw [Function.update_of_ne hd, if_neg fun h => hd h.1]
  · rw [Function.update_of_ne hwho, if_neg fun h => hwho h.2]

omit [WithdrawableCurrency Tokens AccountId CurrencyId] in
private theorem free_credit : (((b.modify a c (·.credit x)) who d).free : ℤ) =
    ((b who d).free : ℤ) + flow c a x d who := by
  rw [modify_apply]
  by_cases h : d = c ∧ who = a
  · obtain ⟨rfl, rfl⟩ := h
    simp only [and_self, ite_true, AccountData.credit, flow_self, Nat.cast_add]
  · simp only [if_neg h, flow, add_zero]

omit [WithdrawableCurrency Tokens AccountId CurrencyId] in
private theorem free_debit (hx : x ≤ (b a c).free) : (((b.modify a c (·.debit x)) who d).free : ℤ) =
    ((b who d).free : ℤ) - flow c a x d who := by
  rw [modify_apply]
  by_cases h : d = c ∧ who = a
  · obtain ⟨rfl, rfl⟩ := h
    simp only [and_self, ite_true, AccountData.debit, flow_self, Nat.cast_sub hx]
  · simp only [if_neg h, flow, sub_zero]

omit [WithdrawableCurrency Tokens AccountId CurrencyId] in
private theorem frozen_credit : ((b.modify a c (·.credit x)) who d).frozen = (b who d).frozen := by
  rw [modify_apply]
  split
  · rename_i h
    rw [h.1, h.2]
    rfl
  · rfl

omit [WithdrawableCurrency Tokens AccountId CurrencyId] in
private theorem frozen_debit : ((b.modify a c (·.debit x)) who d).frozen = (b who d).frozen := by
  rw [modify_apply]
  split
  · rename_i h
    rw [h.1, h.2]
    rfl
  · rfl

end Modify

/-- What can be withdrawn is free. -/
theorem AccountData.CanWithdraw.le_free {d : AccountData} {x : ℕ} (h : d.CanWithdraw x) :
    x ≤ d.free := by
  rcases h with h | h <;> omega

variable [LawfulWithdrawableCurrency Tokens] {t t' : Tokens} {c : CurrencyId} {a b : AccountId}
  {x : ℕ}

/-- A transfer moves tokens from one account to the other. -/
theorem held_transfer (h : (MultiCurrency.transfer c a b x).run t = .ok () t') :
    held t' = held t + flow c b x - flow c a x ∧ totalIssuance t' = totalIssuance t ∧
      frozen t' = frozen t := by
  obtain ⟨hissuance, hbalances⟩ := LawfulMultiCurrency.run_transfer c a b x t t' h
  rcases eq_or_ne a b with rfl | hne
  · rw [if_pos rfl] at hbalances
    refine ⟨?_, hissuance, ?_⟩
    · rw [add_sub_cancel_right]
      funext d w
      simp only [held, hbalances]
    · funext d w
      simp only [frozen, hbalances]
  · rw [if_neg hne] at hbalances
    have hcan := ((LawfulMultiCurrency.transfer_succeeds c a b x t).mp
      (Call.succeeds_iff.mpr ⟨(), t', h⟩)).resolve_left hne
    refine ⟨?_, hissuance, ?_⟩
    · funext d w
      simp only [held, hbalances, free_credit, free_debit hcan.le_free, Pi.add_apply, Pi.sub_apply]
      abel
    · funext d w
      simp only [frozen, hbalances, frozen_credit, frozen_debit]

/-- A deposit brings tokens to an account and raises the issuance. -/
theorem held_deposit (h : (MultiCurrency.deposit c a x).run t = .ok () t') :
    held t' = held t + flow c a x ∧
      totalIssuance t' = Function.update (totalIssuance t) c (totalIssuance t c + x) ∧
      frozen t' = frozen t := by
  obtain ⟨hissuance, hbalances⟩ := LawfulMultiCurrency.run_deposit c a x t t' h
  refine ⟨?_, hissuance, ?_⟩
  · funext d w
    simp only [held, hbalances, free_credit, Pi.add_apply]
  · funext d w
    simp only [frozen, hbalances, frozen_credit]

/-- A withdrawal takes tokens from an account and lowers the issuance. -/
theorem held_withdraw (h : (withdraw c a x).run t = .ok () t') :
    held t' = held t - flow c a x ∧
      totalIssuance t' = Function.update (totalIssuance t) c (totalIssuance t c - x) ∧
      frozen t' = frozen t := by
  obtain ⟨hissuance, hbalances⟩ := LawfulWithdrawableCurrency.run_withdraw c a x t t' h
  have hcan := (LawfulWithdrawableCurrency.withdraw_succeeds c a x t).mp
    (Call.succeeds_iff.mpr ⟨(), t', h⟩)
  refine ⟨?_, hissuance, ?_⟩
  · funext d w
    simp only [held, hbalances, free_debit hcan.le_free, Pi.sub_apply]
  · funext d w
    simp only [frozen, hbalances, frozen_debit]

/-! ## Transfers

Transfers leave alone what is reserved and what is locked. -/

section Transfers

variable {AccountId CurrencyId Tokens : Type} [DecidableEq AccountId] [DecidableEq CurrencyId]
  [MultiCurrency Tokens AccountId CurrencyId] {b : Balances AccountId CurrencyId}
  {c d : CurrencyId} {a who : AccountId} {x : ℕ} {t t' : Tokens}

omit [MultiCurrency Tokens AccountId CurrencyId] in
/-- What a modification keeps at its place it keeps everywhere. -/
theorem modify_keeps {α : Type} (g : AccountData → α) {f : AccountData → AccountData}
    (hf : g (f (b a c)) = g (b a c)) : g (b.modify a c f who d) = g (b who d) := by
  rw [modify_apply]
  split
  · rename_i h
    rw [h.1, h.2, hf]
  · rfl

/-- An amount has moved between the free balances of two accounts. -/
structure Transfers (c : CurrencyId) (a a' : AccountId) (x : ℕ) (t t' : Tokens) : Prop where
  free : ∀ who d, ((balances t' who d).free : ℤ) =
    (balances t who d).free + flow c a' x d who - flow c a x d who
  reserved : ∀ who d, (balances t' who d).reserved = (balances t who d).reserved
  frozen : ∀ who d, (balances t' who d).frozen = (balances t who d).frozen

/-- A transfer that succeeds moves what it says. -/
theorem run_transfer [LawfulMultiCurrency Tokens] {a' : AccountId}
    (h : (transfer c a a' x).run t = .ok () t') : Transfers c a a' x t t' := by
  obtain ⟨-, hbalances⟩ := LawfulMultiCurrency.run_transfer c a a' x t t' h
  by_cases haa' : a = a'
  · subst haa'
    rw [if_pos rfl] at hbalances
    refine ⟨fun who d => ?_, fun who d => by rw [hbalances], fun who d => by rw [hbalances]⟩
    rw [hbalances]
    omega
  · rw [if_neg haa'] at hbalances
    have hcan := ((LawfulMultiCurrency.transfer_succeeds c a a' x t).mp
      (Call.succeeds_iff.mpr ⟨(), t', h⟩)).resolve_left haa'
    have hle : x ≤ (balances t a c).free := by
      rcases hcan with hcan | hcan
      · omega
      · omega
    refine ⟨fun who d => ?_, fun who d => ?_, fun who d => ?_⟩
    · rw [hbalances, free_credit, free_debit hle]
      omega
    · rw [hbalances, modify_keeps AccountData.reserved rfl, modify_keeps AccountData.reserved rfl]
    · rw [hbalances, modify_keeps AccountData.frozen rfl, modify_keeps AccountData.frozen rfl]

/-- Only the payer of a transfer has less than before. -/
theorem Transfers.le_free {a' : AccountId} (h : Transfers c a a' x t t') (who : AccountId)
    (hne : ¬(d = c ∧ who = a)) : (balances t who d).free ≤ (balances t' who d).free := by
  have hfree := h.free who d
  have hin : 0 ≤ flow c a' x d who := flow_nonneg
  have hout : flow c a x d who = 0 := if_neg hne
  omega

/-- Nobody has less after a deposit. -/
theorem le_free_of_deposit [LawfulMultiCurrency Tokens] (h : (deposit c a x).run t = .ok () t')
    (who : AccountId) (d : CurrencyId) : (balances t who d).free ≤ (balances t' who d).free := by
  have hcredit : ((balances t' who d).free : ℤ) = (balances t who d).free + flow c a x d who := by
    rw [(LawfulMultiCurrency.run_deposit _ _ _ _ _ h).2]
    exact free_credit
  have hin : 0 ≤ flow c a x d who := flow_nonneg
  omega

end Transfers

end Interbtc
