import Interbtc.Accounting.Invariants
import Interbtc.Accounting.Refinement

/-!
# The wrapped supply is issued by vaults

What exists of a wrapped token is what the vaults and the liquidation vaults of its
currency have issued.
-/

namespace Interbtc.Chain

open Core MultiCurrency

variable {AccountId CurrencyId H256 F Tokens : Type} [DecidableEq AccountId]
  [DecidableEq CurrencyId] [DecidableEq H256] [FixedPointNumber F]
  [MultiCurrency Tokens AccountId CurrencyId] [LawfulMultiCurrency Tokens]
  [CurrencyConfig CurrencyId] [AccountConfig AccountId]
  [Fintype AccountId] [Fintype CurrencyId]
  {s s' : Chain AccountId CurrencyId H256 F Tokens} {op : Op AccountId CurrencyId H256}
  {c : CurrencyId}

section

omit [FixedPointNumber F] [LawfulMultiCurrency Tokens] [CurrencyConfig CurrencyId]
  [AccountConfig AccountId]

private theorem Change.backed (h : Change s op s') (hb : s.books.Backed pairOf wrappedOf c) :
    s'.books.Backed pairOf wrappedOf c := by
  cases h with
  | steps h => exact h.preserves Books.Step.backed hb
  | takeOver id payment r hop hr hs h => exact h.backed hb
  | recovery v hop h => exact h.backed hb

end

/-- The tokens that the vaults of a wrapped currency have issued. -/
def issuedByVaults (s : Chain AccountId CurrencyId H256 F Tokens) (c : CurrencyId) : ℕ :=
  ∑ v : VaultId AccountId CurrencyId,
    if v.wrappedCurrency = c then (s.registry.vaults v).elim 0 Vault.issuedTokens else 0

/-- The tokens that the liquidation vaults of a wrapped currency have issued. -/
def issuedByLiquidationVaults (s : Chain AccountId CurrencyId H256 F Tokens) (c : CurrencyId) :
    ℕ :=
  ∑ p : VaultCurrencyPair CurrencyId,
    if p.wrapped = c then (s.registry.liquidationVault p).issuedTokens else 0

/-- What all vaults and liquidation vaults have issued. -/
def totalIssued (s : Chain AccountId CurrencyId H256 F Tokens) (c : CurrencyId) : ℕ :=
  s.issuedByVaults c + s.issuedByLiquidationVaults c

section

omit [DecidableEq AccountId] [DecidableEq H256] [FixedPointNumber F] [LawfulMultiCurrency Tokens]
  [CurrencyConfig CurrencyId] [AccountConfig AccountId]

private theorem backing_issued (s : Chain AccountId CurrencyId H256 F Tokens) (c : CurrencyId) :
    Books.backing pairOf wrappedOf s.books.issued c = s.totalIssued c :=
  Fintype.sum_sum_type _

end

section

omit [DecidableEq AccountId] [DecidableEq H256] [LawfulMultiCurrency Tokens]
  [CurrencyConfig CurrencyId] [AccountConfig AccountId]

private theorem genesis_backed {tokens : Tokens} (h : totalIssuance tokens c = 0) :
    (genesis tokens : Chain AccountId CurrencyId H256 F Tokens).books.Backed
      pairOf wrappedOf c := by
  have hissued : (genesis tokens : Chain AccountId CurrencyId H256 F Tokens).issuedByVaults c = 0 :=
    Finset.sum_eq_zero fun v _ => ite_self 0
  have hpools :
      (genesis tokens : Chain AccountId CurrencyId H256 F Tokens).issuedByLiquidationVaults c = 0 :=
    Finset.sum_eq_zero fun p _ => ite_self 0
  unfold Books.Backed
  rw [backing_issued, totalIssued, hissued, hpools]
  exact h

end

/-- Whatever calls are dispatched, in whatever environments, the issuance of a wrapped token
stays what was issued of it. -/
theorem totalIssuance_eq_issued {tokens : Tokens} (h : totalIssuance tokens c = 0)
    (calls : List (Dispatch AccountId CurrencyId H256)) :
    totalIssuance
        (run step (genesis tokens : Chain AccountId CurrencyId H256 F Tokens) calls).tokens c =
      (run step (genesis tokens : Chain AccountId CurrencyId H256 F Tokens) calls).totalIssued c := by
  rw [← backing_issued]
  have hstep (s : Chain AccountId CurrencyId H256 F Tokens)
      (d : Dispatch AccountId CurrencyId H256)
      (hs : s.ReplacesValid ∧ s.books.Backed pairOf wrappedOf c) :
      (step s d).ReplacesValid ∧ (step s d).books.Backed pairOf wrappedOf c :=
    (step_books hs.1 d).imp id (·.backed hs.2)
  exact (run_preserves hstep ⟨genesis_valid tokens, genesis_backed h⟩ calls).2

/-- One issue of 100 tokens is the whole supply. -/
theorem supply_of_one_issue :
    (run step Sample.start Sample.issued).tokens.issuance .ibtc = 100 ∧
      totalIssuance (run step Sample.start Sample.issued).tokens .ibtc =
        (run step Sample.start Sample.issued).totalIssued .ibtc :=
  ⟨by decide +kernel, totalIssuance_eq_issued rfl Sample.issued⟩

end Interbtc.Chain
