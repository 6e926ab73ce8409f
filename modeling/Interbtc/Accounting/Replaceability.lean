import Interbtc.Accounting.Invariants
import Interbtc.Accounting.Refinement

/-!
# Tokens to be replaced are covered

A vault asks for no more tokens to be replaced than it could still redeem. Executing a
cancelled replace request takes tokens without asking whether they are free, and only
then a vault can be left with tokens to be replaced that no vault can accept.
-/

namespace Interbtc

open Core MultiCurrency

/-- The replace request that a call executes. -/
def Op.executedReplace {AccountId CurrencyId H256 : Type} :
    Op AccountId CurrencyId H256 → Option H256
  | .executeReplace replaceId _ => some replaceId
  | _ => none

namespace Chain

variable {AccountId CurrencyId H256 F Tokens : Type} [DecidableEq AccountId]
  [DecidableEq CurrencyId] [DecidableEq H256] [FixedPointNumber F]
  [MultiCurrency Tokens AccountId CurrencyId] [CurrencyConfig CurrencyId]
  [AccountConfig AccountId] {s s' : Chain AccountId CurrencyId H256 F Tokens}
  {d : Dispatch AccountId CurrencyId H256} {v : VaultId AccountId CurrencyId} {vault : Vault}

/-- A cancelled replace request is executed only for tokens that the old vault could still
ask to be replaced. -/
def TakesFreeTokens (s : Chain AccountId CurrencyId H256 F Tokens)
    (d : Dispatch AccountId CurrencyId H256) : Prop :=
  ∀ replaceId ∈ d.2.executedReplace, ∀ r ∈ s.replaceRequests replaceId, r.status = .cancelled →
    ∀ requestable ∈ (s.registry.requestableToBeReplacedTokens r.oldVault).toOption,
      r.amount ≤ requestable.amount

instance (s : Chain AccountId CurrencyId H256 F Tokens) (d : Dispatch AccountId CurrencyId H256) :
    Decidable (s.TakesFreeTokens d) :=
  inferInstanceAs (Decidable (∀ replaceId ∈ d.2.executedReplace, _))

/-- What the active vaults have to redeem and ask to be replaced, they have issued. -/
def ReplacesCovered (s : Chain AccountId CurrencyId H256 F Tokens) : Prop :=
  ∀ v vault, s.registry.vaults v = some vault → vault.isLiquidated = false →
    vault.toBeRedeemedTokens + vault.toBeReplacedTokens ≤ vault.issuedTokens

/-- Once a vault has accepted tokens and deposited its collateral, the old vault can reserve
them, whatever amount was asked for. -/
def AcceptsReplaces (s : Chain AccountId CurrencyId H256 F Tokens) : Prop :=
  ∀ (env : Env AccountId CurrencyId H256) (old new : VaultId AccountId CurrencyId) (vault : Vault)
    (amount collateral used griefing : Amount CurrencyId)
    (s₁ s₂ : Chain AccountId CurrencyId H256 F Tokens),
    s.registry.vaults old = some vault → vault.isLiquidated = false →
    (onRegistry (VaultRegistry.decreaseToBeReplacedTokens old amount)).run s =
      .ok (used, griefing) s₁ →
    (tryDepositCollateral env new collateral).run s₁ = .ok () s₂ →
    (onRegistry (VaultRegistry.tryIncreaseToBeRedeemedTokens old used)).succeeds s₂ = true

variable [LawfulMultiCurrency Tokens] [Fintype AccountId] [Fintype CurrencyId] [Fintype H256]

/-- What holds in every state of a run that takes free tokens only. -/
structure Replacing (s : Chain AccountId CurrencyId H256 F Tokens) : Prop where
  valid : s.ReplacesValid
  orderly : s.books.Orderly pairOf
  replaceable : s.books.Replaceable

section

omit [DecidableEq H256] [CurrencyConfig CurrencyId] [AccountConfig AccountId]
  [LawfulMultiCurrency Tokens]

private theorem genesis_orderly (tokens : Tokens) :
    (genesis tokens : Chain AccountId CurrencyId H256 F Tokens).books.Orderly pairOf where
  cleared _ h := Bool.noConfusion h
  counted _ := (Nat.add_eq_zero_iff.mpr ⟨due_empty _, due_empty _⟩).le
  pooled _ := (pooled_none _).le
  redeemable _ _ := Nat.le_refl _
  pool_redeemable _ := Nat.le_refl _
  bounded k := by cases k <;> exact Nat.zero_le _

private theorem genesis_replacing (tokens : Tokens) :
    (genesis tokens : Chain AccountId CurrencyId H256 F Tokens).Replacing where
  valid := genesis_valid tokens
  orderly := genesis_orderly tokens
  replaceable _ _ := Nat.le_refl _

end

section

omit [FixedPointNumber F] [CurrencyConfig CurrencyId] [AccountConfig AccountId]
  [LawfulMultiCurrency Tokens]

private theorem Change.orderly {op : Op AccountId CurrencyId H256} (h : Change s op s')
    (hb : s.books.Orderly pairOf) : s'.books.Orderly pairOf := by
  cases h with
  | steps h => exact h.preserves Books.Step.orderly hb
  | takeOver id payment r hop hr hs h => exact h.orderly hb
  | recovery v hop h => exact h.orderly hb

end

section

omit [DecidableEq AccountId] [DecidableEq H256] [FixedPointNumber F] [CurrencyConfig CurrencyId]
  [AccountConfig AccountId] [LawfulMultiCurrency Tokens] [Fintype AccountId] [Fintype CurrencyId]
  [Fintype H256]

/-- The tokens taken over are among those that can still be asked to be replaced. -/
theorem TakesFreeTokens.enough {env : Env AccountId CurrencyId H256} {id : H256}
    {payment : BtcAddress → ℕ → H256 → Except DispatchError Unit}
    {r : ReplaceRequest AccountId CurrencyId}
    (h : s.TakesFreeTokens (env, .executeReplace id payment))
    (hr : s.replaceRequests id = some r) (hs : r.status = .cancelled)
    (hactive : s.books.isLiquidated r.oldVault = false)
    (hb : s.books.Replaceable)
    (hle : s.books.toBeRedeemed (.inl r.oldVault) + r.amount ≤ s.books.issued (.inl r.oldVault)) :
    s.books.toBeRedeemed (.inl r.oldVault) + s.books.toBeReplaced r.oldVault + r.amount ≤
      s.books.issued (.inl r.oldVault) := by
  have hcovered := hb r.oldVault hactive
  cases hv : s.registry.vaults r.oldVault with
  | none =>
    simp only [books, Records.books, records, VaultRegistry.counters, hv, Sum.elim_inl,
      Option.elim_none] at hle ⊢
    omega
  | some vault =>
    simp only [books, Records.books, records, VaultRegistry.counters, hv, Sum.elim_inl,
      Option.elim_some] at hactive hcovered hle ⊢
    have hrequestable := VaultRegistry.requestableToBeReplacedTokens_eq_ok.mpr
      ⟨vault, hv, hactive, by omega, by omega, rfl⟩
    have hamount := h id rfl r hr hs _ (by rw [hrequestable]; rfl)
    simp only at hamount
    omega

end

private theorem step_replacing (hs : s.Replacing) (hfree : s.TakesFreeTokens d) :
    (step s d).Replacing := by
  obtain ⟨hvalid, hchange⟩ := step_books hs.valid d
  refine ⟨hvalid, hchange.orderly hs.orderly, ?_⟩
  cases hchange with
  | steps h => exact h.preserves Books.Step.replaceable hs.replaceable
  | takeOver id payment r hop hr hc h =>
    obtain ⟨env, op⟩ := d
    obtain rfl : op = _ := hop
    exact h.replaceable hs.replaceable (hfree.enough hr hc h.old hs.replaceable h.enough)
  | recovery v hop h => exact h.replaceable hs.orderly hs.replaceable

section

omit [DecidableEq H256] [FixedPointNumber F] [CurrencyConfig CurrencyId] [AccountConfig AccountId]
  [LawfulMultiCurrency Tokens]

private theorem Replacing.covered (hs : s.Replacing) : s.ReplacesCovered := by
  intro v vault hv hactive
  have h := hs.replaceable v
    (by simp [books, Records.books, records, VaultRegistry.counters, hv, hactive])
  simpa [books, Records.books, records, VaultRegistry.counters, hv] using h

end

section

omit [DecidableEq H256]

private theorem Replacing.accepts (hs : s.Replacing) : s.AcceptsReplaces := by
  intro env old new vault amount collateral used griefing s₁ s₂ hv hactive h₁ h₂
  have hcovered := hs.covered old vault hv hactive
  obtain ⟨h₁, -⟩ := run_onRegistry h₁
  obtain ⟨d, hd, -, rfl, -, htbp, hrest, hcounters⟩ :=
    VaultRegistry.run_decreaseToBeReplacedTokens h₁
  obtain rfl : vault = d := Option.some.inj (hv.symm.trans hd)
  obtain ⟨d, hd₁, -⟩ := VaultRegistry.vault_of_rest hrest hv
  have hd₂ : s₂.registry.vaults old = some d :=
    (congrFun (depositCollateral_vaults _ _ _ h₂) old).trans hd₁
  -- the counters of the vault are those it had, less what is to be replaced
  have hc : (⟨old, vault⟩ : RichVault AccountId CurrencyId).Current s.registry := hv
  have hc₁ : (⟨old, d⟩ : RichVault AccountId CurrencyId).Current s₁.registry := hd₁
  have hliquidated := hc₁.isLiquidated
  have hissued := hc₁.issued
  have hredeemed := hc₁.toBeRedeemed
  rw [hcounters] at hliquidated hissued hredeemed
  rw [onRegistry, Lens.zoom_succeeds]
  refine VaultRegistry.tryIncreaseToBeRedeemedTokens_succeeds hd₂
    (hliquidated.symm.trans (hc.isLiquidated.trans hactive)) rfl ?_ ?_
  · have h₁ : d.toBeRedeemedTokens = vault.toBeRedeemedTokens :=
      hredeemed.symm.trans hc.toBeRedeemed
    have h₂ : d.issuedTokens = vault.issuedTokens := hissued.symm.trans hc.issued
    change d.toBeRedeemedTokens + min amount.amount vault.toBeReplacedTokens ≤ d.issuedTokens
    rw [h₁, h₂]
    omega
  · have h₂ : d.issuedTokens = s.registry.counters.issued (.inl old) := hissued.symm
    rw [h₂]
    exact hs.orderly.bounded (.inl old)

end

/-- In a run that executes cancelled replace requests only for free tokens, the tokens to be
replaced of every active vault are covered, and a vault that accepts them never fails for
want of tokens to redeem. -/
theorem toBeReplaced_stays_covered {tokens : Tokens}
    {calls : List (Dispatch AccountId CurrencyId H256)}
    (h : Meets step TakesFreeTokens (genesis tokens : Chain AccountId CurrencyId H256 F Tokens)
      calls) :
    (run step (genesis tokens : Chain AccountId CurrencyId H256 F Tokens)
        calls).ReplacesCovered ∧
      (run step (genesis tokens : Chain AccountId CurrencyId H256 F Tokens)
        calls).AcceptsReplaces := by
  have hs := run_invariant (fun _ _ => step_replacing) (genesis_replacing tokens) h
  exact ⟨hs.covered, hs.accepts⟩

end Chain

/-! ## A cancelled request is executed -/

namespace Sample

/-- A request for 60 of the 100 tokens of the first vault is cancelled, and the vault asks for
them to be replaced again. -/
def askedAgain : List Dispatch :=
  issued ++
    [(env, .requestReplace vaultA 100),
      ({ env with secureId := 1 }, .acceptReplace vaultA vaultB 60 0 (.p2pkh 5)),
      (envAt 50, .cancelReplace 1), (envAt 50, .requestReplace vaultA 60)]

/-- The cancelled request is executed all the same. -/
def takenOver : List Dispatch :=
  askedAgain ++ [(envAt 50, .executeReplace 1 fun _ _ _ => .ok ())]

/-- Every step before the take-over meets the condition. -/
theorem askedAgain_covered : (run Chain.step start askedAgain).ReplacesCovered ∧
    (run Chain.step start askedAgain).AcceptsReplaces :=
  Chain.toBeReplaced_stays_covered (by decide +kernel)

/-- 100 tokens are to be replaced of a vault that has issued 40. -/
theorem takenOver_uncovered : ¬ (run Chain.step start takenOver).ReplacesCovered ∧
    (Chain.acceptReplace (envAt 50) vaultA vaultB 100 1000 (.p2pkh 5)).error?
      (run Chain.step start takenOver) = some (.vaultRegistry .insufficientTokensCommitted) := by
  refine ⟨fun h => ?_, by decide +kernel⟩
  have hvault : (run Chain.step start takenOver).registry.vaults vaultA =
      some { Vault.new with issuedTokens := 40, toBeReplacedTokens := 100 } := by decide +kernel
  exact absurd (h vaultA _ hvault rfl) (by decide)

end Sample

end Interbtc
