import Interbtc.Core.Obligations
import Interbtc.Currency.Amount
import Mathlib.Logic.Relation

/-!
# The books of a bridge

What the bridge is for, without collateral, prices or balances: a supply of wrapped
tokens, the vaults that answer for it, and the requests that are still open. A vault
that is liquidated hands its tokens to the pool of its currency pair, and from then on
the pool answers for them.
-/

namespace Interbtc

open Core

/-- Tokens that a vault has to issue or to redeem for an open request. -/
structure Obligation (V : Type) where
  vault : V
  tokens : ℕ

/-- Tokens that an open replace request takes from one vault to another. -/
structure Handover (V : Type) where
  oldVault : V
  newVault : V
  tokens : ℕ

section

variable {V : Type} [DecidableEq V]

/-- What a request asks of a vault. -/
def Obligation.owes (r : Obligation V) (v : V) : ℕ := if r.vault = v then r.tokens else 0

/-- What the old vault has to redeem. -/
def Handover.owesOld (r : Handover V) (v : V) : ℕ := if r.oldVault = v then r.tokens else 0

/-- What the new vault has to issue. -/
def Handover.owesNew (r : Handover V) (v : V) : ℕ := if r.newVault = v then r.tokens else 0

end

/-! ## Counters -/

section

variable {K : Type} [DecidableEq K]

/-- Add `x` to one counter. -/
def bump (f : K → ℕ) (k : K) (x : ℕ) : K → ℕ := fun j => f j + if j = k then x else 0

/-- Take `x` from one counter. -/
def drop (f : K → ℕ) (k : K) (x : ℕ) : K → ℕ := fun j => f j - if j = k then x else 0

/-- Bumping is an update. -/
theorem bump_eq_update (f : K → ℕ) (k : K) (x : ℕ) :
    bump f k x = Function.update f k (f k + x) := by
  funext j
  rcases eq_or_ne j k with rfl | hj
  · simp [bump]
  · simp [bump, hj]

/-- Dropping is an update. -/
theorem drop_eq_update (f : K → ℕ) (k : K) (x : ℕ) :
    drop f k x = Function.update f k (f k - x) := by
  funext j
  rcases eq_or_ne j k with rfl | hj
  · simp [drop]
  · simp [drop, hj]

/-- What was just added comes off first. -/
theorem drop_bump (f : K → ℕ) (k : K) (x y : ℕ) : drop (bump f k x) k (x + y) = drop f k y := by
  funext j
  simp only [drop, bump]
  split <;> omega

/-- Two drops at one place are one. -/
theorem drop_drop (f : K → ℕ) (k : K) (x y : ℕ) : drop (drop f k x) k y = drop f k (x + y) := by
  funext j
  simp only [drop]
  split <;> omega

/-- Dropping nothing changes nothing. -/
theorem drop_zero (f : K → ℕ) (k : K) : drop f k 0 = f := by
  funext j
  simp [drop]

end

/-- The token counters of the vaults and of the pools of liquidated vaults. -/
@[ext] structure Counters (V P : Type) where
  isLiquidated : V → Bool
  toBeIssued : V ⊕ P → ℕ
  issued : V ⊕ P → ℕ
  /-- A liquidated vault keeps its counter, and the pool counts it once more. -/
  toBeRedeemed : V ⊕ P → ℕ
  toBeReplaced : V → ℕ

namespace Counters

variable {V P : Type} [DecidableEq V] [DecidableEq P]

/-- Where the tokens of a vault are counted. -/
def home (pair : V → P) (c : Counters V P) (v : V) : V ⊕ P :=
  if c.isLiquidated v then .inr (pair v) else .inl v

/-- More to be issued at a vault or a pool. -/
def addToBeIssued (c : Counters V P) (k : V ⊕ P) (x : ℕ) : Counters V P :=
  { c with toBeIssued := bump c.toBeIssued k x }

/-- Less to be issued at a vault or a pool. -/
def subToBeIssued (c : Counters V P) (k : V ⊕ P) (x : ℕ) : Counters V P :=
  { c with toBeIssued := drop c.toBeIssued k x }

/-- More issued at a vault or a pool. -/
def addIssued (c : Counters V P) (k : V ⊕ P) (x : ℕ) : Counters V P :=
  { c with issued := bump c.issued k x }

/-- Less issued at a vault or a pool. -/
def subIssued (c : Counters V P) (k : V ⊕ P) (x : ℕ) : Counters V P :=
  { c with issued := drop c.issued k x }

/-- More to be redeemed at a vault or a pool. -/
def addToBeRedeemed (c : Counters V P) (k : V ⊕ P) (x : ℕ) : Counters V P :=
  { c with toBeRedeemed := bump c.toBeRedeemed k x }

/-- Less to be redeemed at a vault, and at its pool if it is liquidated. -/
def subToBeRedeemed (pair : V → P) (c : Counters V P) (v : V) (x : ℕ) : Counters V P :=
  { c with
    toBeRedeemed :=
      if c.isLiquidated v then drop (drop c.toBeRedeemed (.inr (pair v)) x) (.inl v) x
      else drop c.toBeRedeemed (.inl v) x }

/-- Another amount to be replaced at a vault. -/
def setToBeReplaced (c : Counters V P) (v : V) (x : ℕ) : Counters V P :=
  { c with toBeReplaced := Function.update c.toBeReplaced v x }

/-- The pool of the vault takes over its tokens. -/
def liquidate (pair : V → P) (c : Counters V P) (v : V) : Counters V P where
  isLiquidated := Function.update c.isLiquidated v true
  toBeIssued :=
    drop (bump c.toBeIssued (.inr (pair v)) (c.toBeIssued (.inl v))) (.inl v)
      (c.toBeIssued (.inl v))
  issued := drop (bump c.issued (.inr (pair v)) (c.issued (.inl v))) (.inl v) (c.issued (.inl v))
  toBeRedeemed := bump c.toBeRedeemed (.inr (pair v)) (c.toBeRedeemed (.inl v))
  toBeReplaced := c.toBeReplaced

/-- The vault counts its tokens itself again, and the pool keeps those it has. -/
def recover (c : Counters V P) (v : V) : Counters V P :=
  { c with isLiquidated := Function.update c.isLiquidated v false }

variable (pair : V → P) (c : Counters V P) (u v : V) (p : P) (x : ℕ)

omit [DecidableEq V] [DecidableEq P] in
/-- An active vault keeps its own counters. -/
theorem home_of_active {c : Counters V P} {v : V} (h : c.isLiquidated v = false) :
    c.home pair v = .inl v := by
  simp [home, h]

omit [DecidableEq V] [DecidableEq P] in
/-- A liquidated vault is counted by its pool. -/
theorem home_of_liquidated {c : Counters V P} {v : V} (h : c.isLiquidated v = true) :
    c.home pair v = .inr (pair v) := by
  simp [home, h]

section

variable (f : V ⊕ P → ℕ)

@[simp] theorem bump_home_inl :
    bump f (c.home pair v) x (.inl u) =
      f (.inl u) + if c.isLiquidated v = false ∧ u = v then x else 0 := by
  cases hv : c.isLiquidated v <;> simp [bump, home, hv]

@[simp] theorem bump_home_inr :
    bump f (c.home pair v) x (.inr p) =
      f (.inr p) + if c.isLiquidated v = true ∧ pair v = p then x else 0 := by
  cases hv : c.isLiquidated v <;> simp [bump, home, hv, eq_comm]

@[simp] theorem drop_home_inl :
    drop f (c.home pair v) x (.inl u) =
      f (.inl u) - if c.isLiquidated v = false ∧ u = v then x else 0 := by
  cases hv : c.isLiquidated v <;> simp [drop, home, hv]

@[simp] theorem drop_home_inr :
    drop f (c.home pair v) x (.inr p) =
      f (.inr p) - if c.isLiquidated v = true ∧ pair v = p then x else 0 := by
  cases hv : c.isLiquidated v <;> simp [drop, home, hv, eq_comm]

end

@[simp] theorem addToBeRedeemed_inl :
    (c.addToBeRedeemed (.inl v) x).toBeRedeemed (.inl u) =
      c.toBeRedeemed (.inl u) + if u = v then x else 0 := by
  simp [addToBeRedeemed, bump]

@[simp] theorem addToBeRedeemed_inr :
    (c.addToBeRedeemed (.inl v) x).toBeRedeemed (.inr p) = c.toBeRedeemed (.inr p) := by
  simp [addToBeRedeemed, bump]

@[simp] theorem subToBeRedeemed_inl :
    (c.subToBeRedeemed pair v x).toBeRedeemed (.inl u) =
      c.toBeRedeemed (.inl u) - if u = v then x else 0 := by
  unfold subToBeRedeemed
  split <;> simp [drop]

@[simp] theorem subToBeRedeemed_inr :
    (c.subToBeRedeemed pair v x).toBeRedeemed (.inr p) =
      c.toBeRedeemed (.inr p) - if c.isLiquidated v ∧ pair v = p then x else 0 := by
  unfold subToBeRedeemed
  by_cases hv : c.isLiquidated v <;> simp [drop, hv, eq_comm]

@[simp] theorem liquidate_toBeRedeemed_inl :
    (c.liquidate pair v).toBeRedeemed (.inl u) = c.toBeRedeemed (.inl u) := by
  simp [liquidate, bump]

@[simp] theorem liquidate_toBeRedeemed_inr :
    (c.liquidate pair v).toBeRedeemed (.inr p) =
      c.toBeRedeemed (.inr p) + if pair v = p then c.toBeRedeemed (.inl v) else 0 := by
  simp [liquidate, bump, eq_comm]

@[simp] theorem liquidate_toBeIssued_inl :
    (c.liquidate pair v).toBeIssued (.inl u) =
      if u = v then 0 else c.toBeIssued (.inl u) := by
  by_cases hu : u = v <;> simp [liquidate, bump, drop, hu]

@[simp] theorem liquidate_toBeIssued_inr :
    (c.liquidate pair v).toBeIssued (.inr p) =
      c.toBeIssued (.inr p) + if pair v = p then c.toBeIssued (.inl v) else 0 := by
  simp [liquidate, bump, drop, eq_comm]

@[simp] theorem liquidate_issued_inl :
    (c.liquidate pair v).issued (.inl u) = if u = v then 0 else c.issued (.inl u) := by
  by_cases hu : u = v <;> simp [liquidate, bump, drop, hu]

@[simp] theorem liquidate_issued_inr :
    (c.liquidate pair v).issued (.inr p) =
      c.issued (.inr p) + if pair v = p then c.issued (.inl v) else 0 := by
  simp [liquidate, bump, drop, eq_comm]

end Counters

/-! ## Books -/

/-- The counters, the supply of each wrapped currency, and what is still open. -/
@[ext] structure Books (V P C H : Type) extends Counters V P where
  supply : C → ℕ
  issues : H → Option (Obligation V)
  redeems : H → Option (Obligation V)
  replaces : H → Option (Handover V)

namespace Books

variable {V P C H : Type} [DecidableEq V] [DecidableEq P] [DecidableEq C] [DecidableEq H]
  (pair : V → P) (wrapped : P → C)

/-- The currency a counter is kept in. -/
def denomination : V ⊕ P → C := Sum.elim (fun v => wrapped (pair v)) wrapped

/-- What one change does to the books, with what it checks. -/
inductive Step : Books V P C H → Books V P C H → Prop
  | openIssue (b : Books V P C H) (h : H) (v : V) (x : ℕ) (hactive : b.isLiquidated v = false) :
      Step b
        { b with
          toCounters := b.addToBeIssued (.inl v) x
          issues := Function.update b.issues h (some ⟨v, x⟩) }
  | closeIssue (b : Books V P C H) (h : H) (v : V) (x : ℕ) (hopen : b.issues h = some ⟨v, x⟩)
      (hle : x ≤ b.toBeIssued (b.home pair v)) :
      Step b
        { b with
          toCounters := b.subToBeIssued (b.home pair v) x
          issues := Function.update b.issues h none }
  | mint (b : Books V P C H) (v : V) (x : ℕ)
      (hmax : b.issued (b.home pair v) + x ≤ maxBalance) :
      Step b
        { b with
          toCounters := b.addIssued (b.home pair v) x
          supply := bump b.supply (wrapped (pair v)) x }
  | openRedeem (b : Books V P C H) (h : H) (v : V) (x : ℕ) (hactive : b.isLiquidated v = false)
      (hle : b.toBeRedeemed (.inl v) + x ≤ b.issued (.inl v)) :
      Step b
        { b with
          toCounters := (b.addToBeRedeemed (.inl v) x).setToBeReplaced v
            (b.toBeReplaced v - x)
          redeems := Function.update b.redeems h (some ⟨v, x⟩) }
  | releaseRedeem (b : Books V P C H) (h : H) (v : V) (x : ℕ)
      (hopen : b.redeems h = some ⟨v, x⟩) (hle : x ≤ b.toBeRedeemed (.inl v)) :
      Step b
        { b with
          toCounters := b.subToBeRedeemed pair v x
          redeems := Function.update b.redeems h none }
  | settleRedeem (b : Books V P C H) (h : H) (v : V) (x : ℕ)
      (hopen : b.redeems h = some ⟨v, x⟩) (hle : x ≤ b.toBeRedeemed (.inl v))
      (hissued : x ≤ b.issued (b.home pair v)) :
      Step b
        { b with
          toCounters := (b.subToBeRedeemed pair v x).subIssued (b.home pair v) x
          supply := drop b.supply (wrapped (pair v)) x
          redeems := Function.update b.redeems h none }
  | selfRedeem (b : Books V P C H) (v : V) (x : ℕ) (hactive : b.isLiquidated v = false)
      (hle : b.toBeRedeemed (.inl v) + x ≤ b.issued (.inl v)) :
      Step b
        { b with
          toCounters := (b.subIssued (.inl v) x).setToBeReplaced v (b.toBeReplaced v - x)
          supply := drop b.supply (wrapped (pair v)) x }
  | liquidationRedeem (b : Books V P C H) (p : P) (x : ℕ)
      (hle : b.toBeRedeemed (.inr p) + x ≤ b.issued (.inr p)) :
      Step b
        { b with
          toCounters := b.subIssued (.inr p) x
          supply := drop b.supply (wrapped p) x }
  | setToBeReplaced (b : Books V P C H) (v : V) (x : ℕ)
      (hle : x ≤ b.toBeReplaced v ∨ b.isLiquidated v = false ∧
        b.toBeRedeemed (.inl v) + x ≤ b.issued (.inl v)) :
      Step b { b with toCounters := b.toCounters.setToBeReplaced v x }
  | openReplace (b : Books V P C H) (h : H) (v w : V) (x : ℕ)
      (hold : b.isLiquidated v = false) (hnew : b.isLiquidated w = false)
      (hreplaced : x ≤ b.toBeReplaced v)
      (hle : b.toBeRedeemed (.inl v) + x ≤ b.issued (.inl v)) :
      Step b
        { b with
          toCounters := ((b.toCounters.setToBeReplaced v (b.toBeReplaced v - x)).addToBeRedeemed
            (.inl v) x).addToBeIssued (.inl w) x
          replaces := Function.update b.replaces h (some ⟨v, w, x⟩) }
  | releaseReplace (b : Books V P C H) (h : H) (v w : V) (x : ℕ)
      (hopen : b.replaces h = some ⟨v, w, x⟩) (hold : x ≤ b.toBeRedeemed (.inl v))
      (hnew : x ≤ b.toBeIssued (b.home pair w)) :
      Step b
        { b with
          toCounters := (b.subToBeRedeemed pair v x).subToBeIssued (b.home pair w) x
          replaces := Function.update b.replaces h none }
  | settleReplace (b : Books V P C H) (h : H) (v w : V) (x : ℕ)
      (hopen : b.replaces h = some ⟨v, w, x⟩) (hpair : wrapped (pair v) = wrapped (pair w))
      (hold : x ≤ b.toBeRedeemed (.inl v)) (hissued : x ≤ b.issued (b.home pair v))
      (hnew : x ≤ b.toBeIssued (b.home pair w))
      (hmax : (drop b.issued (b.home pair v) x) (b.home pair w) + x ≤ maxBalance) :
      Step b
        { b with
          toCounters := (((b.subToBeRedeemed pair v x).subIssued (b.home pair v) x).subToBeIssued
            (b.home pair w) x).addIssued (b.home pair w) x
          replaces := Function.update b.replaces h none }
  | liquidate (b : Books V P C H) (v : V) (hactive : b.isLiquidated v = false)
      (hreplaced : b.toBeReplaced v = 0)
      (hmax : b.issued (.inr (pair v)) + b.issued (.inl v) ≤ maxBalance) :
      Step b { b with toCounters := b.toCounters.liquidate pair v }

/-- A replace request that was cancelled is executed after all: the issued tokens move
without any of them being reserved. -/
structure TakeOver (b : Books V P C H) (v w : V) (x : ℕ) (b' : Books V P C H) : Prop where
  old : b.isLiquidated v = false
  new : b.isLiquidated w = false
  distinct : v ≠ w
  currency : wrapped (pair v) = wrapped (pair w)
  enough : b.toBeRedeemed (.inl v) + x ≤ b.issued (.inl v)
  bounded : b.issued (.inl w) + x ≤ maxBalance
  books : b' = { b with toCounters := (b.subIssued (.inl v) x).addIssued (.inl w) x }

/-- A liquidated vault without tokens to redeem becomes active again. -/
structure Recovery (b : Books V P C H) (v : V) (b' : Books V P C H) : Prop where
  liquidated : b.isLiquidated v = true
  redeemed : b.toBeRedeemed (.inl v) = 0
  books : b' = { b with toCounters := b.recover v }

/-- Any number of changes, one after the other. -/
abbrev Steps : Books V P C H → Books V P C H → Prop := Relation.ReflTransGen (Step pair wrapped)

/-- What one change preserves, any number of them preserve. -/
theorem Steps.preserves {inv : Books V P C H → Prop} {pair : V → P} {wrapped : P → C}
    {b b' : Books V P C H} (h : Steps pair wrapped b b')
    (hstep : ∀ {b b'}, Step pair wrapped b b' → inv b → inv b') (hb : inv b) : inv b' := by
  induction h with
  | refl => exact hb
  | tail _ h ih => exact hstep h ih

end Books

end Interbtc
