import Interbtc.DexStable.Lifecycle
import Interbtc.DexStable.Quotes

/-!
# Panics of the stable exchange

In every state that a run reaches, each call and each question panics exactly where an index or a
number of amounts was not checked: in one call, and in two questions.
-/

namespace Interbtc.DexStable

open Core DexStable MultiCurrency WithdrawableCurrency

variable {AccountId CurrencyId Tokens : Type} [DecidableEq AccountId] [DecidableEq CurrencyId]
  [WithdrawableCurrency Tokens AccountId CurrencyId] [DexStableConfig AccountId CurrencyId]

private theorem dispatch_panics_iff [LawfulWithdrawableCurrency Tokens]
    {s : DexStable AccountId CurrencyId Tokens} {origin : StableOrigin AccountId} {blockNumber : ℕ}
    {op : StableOp AccountId CurrencyId} (hs : s.Laid)
    (htokens : ∀ c who, (balances s.tokens who c).free ≤ totalIssuance s.tokens c) :
    (dispatch origin blockNumber op).error? s = some .panic ↔
      s.SwapsOutOfRange origin blockNumber op := by
  obtain ⟨Γ, hfit, hΓ⟩ := hs
  constructor
  · intro hpanic
    by_contra hout
    exact (dispatch_governs hfit hΓ htokens hout).error?_ne rfl hpanic
  · intro hout
    rw [Call.error?, dispatch_panics hout]

/-- What panics after a run. -/
theorem run_panics [LawfulWithdrawableCurrency Tokens] {tokens : Tokens} {now : ℕ}
    {steps : List (StableStep AccountId CurrencyId Tokens)} (hnow : now ≤ maxSeconds)
    (h : Meets step InOrder (genesis tokens now) steps)
    (x : StableStep AccountId CurrencyId Tokens)
    (hx : (run step (genesis tokens now) steps).InOrder x) :
    ((dispatch x.origin x.blockNumber x.op).error?
        ((run step (genesis tokens now) steps).within x.toStableSurroundings) = some .panic ↔
      ((run step (genesis tokens now) steps).within x.toStableSurroundings).SwapsOutOfRange
        x.origin x.blockNumber x.op) ∧
    ∀ q, ((run step (genesis tokens now) steps).within x.toStableSurroundings).Panics q ↔
      ((run step (genesis tokens now) steps).within x.toStableSurroundings).AsksBeyond q := by
  have hlaid := (run_laid hnow h).within hx
  refine ⟨dispatch_panics_iff hlaid x.free_le, fun q => ?_⟩
  obtain ⟨Γ, hs, -⟩ := hlaid
  exact panics_iff hs

namespace Sample

/-- The next call swaps a currency of the base pool, given by its index. -/
def swapFromBase (inIndex : ℕ) : Step :=
  at' 1030 fourth_le after pooled (.signed 0) (.swapPoolFromBase 1 0 inIndex 0 5 0 0 1)

/-- A swap out of the base pool panics at an index out of range. -/
theorem swapFromBase_panics :
    Meets DexStable.step InOrder start (twoPools ++ [swapFromBase 2]) ∧
    (dispatch (.signed 0) 0 (swapFromBase 2).op).error?
      ((run DexStable.step start twoPools).within (swapFromBase 2).toStableSurroundings) =
      some .panic ∧
    getCurrency (run DexStable.step start twoPools) 0 3 = .error .panic ∧
    calculateCurrencyAmount ((run DexStable.step start twoPools).within
      (swapFromBase 2).toStableSurroundings) 1 [1, 1, 1] true = .error .panic := by
  decide +kernel

/-- It does not at an index in range. -/
theorem run_panics_twoPools :
    (dispatch (.signed 0) 0 (swapFromBase 1).op).error?
      ((run DexStable.step start twoPools).within (swapFromBase 1).toStableSurroundings) ≠
      some .panic := by
  intro hpanic
  obtain ⟨basePool, pool, hb, -, -, -, hle⟩ := ((run_panics (by decide)
    (by decide +kernel : Meets DexStable.step InOrder start twoPools) (swapFromBase 1)
    (by decide +kernel)).1.mp hpanic).2.2
  have hlen : ((run DexStable.step start twoPools).pools 0).map (·.info.currencyIds.length) =
      some 2 := by
    decide +kernel
  rw [show (run DexStable.step start twoPools).pools 0 = some basePool from hb] at hlen
  replace hlen : basePool.info.currencyIds.length = 2 := Option.some.inj hlen
  rw [hlen] at hle
  exact absurd hle (by decide)

end Sample

end Interbtc.DexStable
