import Interbtc.Loans.Effects

/-!
# The moves of the lending markets

Every call is a chain of a few kinds of moves of the books. What every move preserves, every
call preserves.
-/

namespace Interbtc.Loans

open Core MultiCurrency

variable {AccountId CurrencyId H256 Tokens : Type} [DecidableEq AccountId]
  [DecidableEq CurrencyId] [MultiCurrency Tokens AccountId CurrencyId]
  [CurrencyConfig CurrencyId] [LoansConfig AccountId CurrencyId]

/-- Write a debt and the total of the market. -/
def setDebt (assetId : CurrencyId) (who : AccountId) (debt total : ℕ)
    (b : Books AccountId CurrencyId) : Books AccountId CurrencyId :=
  { b with
    accountBorrows := update₂ b.accountBorrows assetId who ⟨debt, b.borrowIndex assetId⟩
    totalBorrows := Function.update b.totalBorrows assetId total }

/-- One of the accounts that the pallet derives for itself. -/
def IsDerived (CurrencyId : Type) [LoansConfig AccountId CurrencyId] (who : AccountId) : Prop :=
  who = LoansConfig.palletAccount CurrencyId ∨ who = LoansConfig.rewardAccount CurrencyId ∨
    who = LoansConfig.incentiveAccount CurrencyId

/-- What is seized is given away in two parts. -/
def giveAway (x : Amount CurrencyId) (source destination : AccountId)
    (b : Books AccountId CurrencyId) : Books AccountId CurrencyId :=
  if x.amount = 0 ∨ source = destination then b
  else receive x destination (move x source destination b)

/-- The moves of the books. -/
inductive Move (env : LoansEnv AccountId CurrencyId H256) :
    Books AccountId CurrencyId → Books AccountId CurrencyId → Prop
  | still (b : Books AccountId CurrencyId) : Move env b b
  | accrue {b b' : Books AccountId CurrencyId} (a : CurrencyId)
      (h : (accrueInterest env a).run b = .ok () b') : Move env b b'
  | transfer {b : Books AccountId CurrencyId} (x : Amount CurrencyId)
      (source destination : AccountId) (hx : x.amount ≠ 0) (hne : source ≠ destination)
      (hcan : (account source b x.currencyId).CanWithdraw x.amount) :
      Move env b (receive x destination (move x source destination b))
  | mint {b : Books AccountId CurrencyId} (v : Amount CurrencyId) (who : AccountId)
      (hv : v.amount ≠ 0) : Move env b (receive v who (issue v who b))
  | redeem {b b₁ b₂ : Books AccountId CurrencyId} (v : Amount CurrencyId) (who : AccountId)
      (hb₁ : (b.accountDeposits v.currencyId who = 0 ∧ b₁ = b) ∨
        (b.accountDeposits v.currencyId who ≠ 0 ∧
          v.amount ≤ b.accountDeposits v.currencyId who ∧ b₁ = unlock v who b))
      (haccrual : Accrual env b₁ b₂)
      (hcan : (account who b₂ v.currencyId).CanWithdraw v.amount) :
      Move env b (burn v who (hold v who b₂))
  | debt {b : Books AccountId CurrencyId} (a : CurrencyId) (who : AccountId) (current debt total : ℕ)
      (hfresh : Fresh env a b) (hcurrent : b.currentBorrowBalance who a = .ok ⟨current, a⟩)
      (h : (∃ x, (b.markets a).isSome ∧ debt = current + x ∧ total = b.totalBorrows a + x) ∨
        (∃ x ≤ current, debt = current - x ∧ total = b.totalBorrows a - x)) :
      Move env b (setDebt a who debt total b)
  | seize {b : Books AccountId CurrencyId} (x y : Amount CurrencyId) (borrower liquidator : AccountId)
      (hxy : y.currencyId = x.currencyId) (hne : borrower ≠ liquidator)
      (hle : x.amount + y.amount ≤ b.accountDeposits x.currencyId borrower) :
      Move env b (giveAway y borrower (LoansConfig.incentiveAccount CurrencyId)
        (giveAway x borrower liquidator
          (unlock ⟨x.amount + y.amount, x.currencyId⟩ borrower b)))
  | lockAll {b : Books AccountId CurrencyId} (c : CurrencyId) (who : AccountId)
      (hwho : ¬ IsDerived CurrencyId who) (hfree : (account who b c).free ≠ 0)
      (hreserved : (account who b c).reserved = 0) :
      Move env b (lock ⟨(account who b c).free, c⟩ who b)
  | unlockAll {b : Books AccountId CurrencyId} (c : CurrencyId) (who : AccountId)
      (hpos : b.accountDeposits c who ≠ 0) :
      Move env b (unlock ⟨b.accountDeposits c who, c⟩ who b)
  | lockElsewhere {b : Books AccountId CurrencyId} (x : Amount CurrencyId) (who : AccountId)
      (hwho : ¬ IsDerived CurrencyId who)
      (hcan : (account who b x.currencyId).CanWithdraw x.amount) :
      Move env b { hold x who b with
        heldElsewhere := update₂ b.heldElsewhere x.currencyId who
          (b.heldElsewhere x.currencyId who + x.amount) }
  | unlockElsewhere {b : Books AccountId CurrencyId} (x : Amount CurrencyId) (who : AccountId)
      (hwho : ¬ IsDerived CurrencyId who) (hle : x.amount ≤ b.heldElsewhere x.currencyId who) :
      Move env b { release x who b with
        heldElsewhere := update₂ b.heldElsewhere x.currencyId who
          (b.heldElsewhere x.currencyId who - x.amount) }
  | setReserves {b : Books AccountId CurrencyId} (a : CurrencyId) (n : ℕ) :
      Move env b { b with totalReserves := Function.update b.totalReserves a n }
  | addMarket {b : Books AccountId CurrencyId} (a : CurrencyId) (m : Market CurrencyId)
      (hnew : b.markets a = none) (hlend : b.underlyingAssetId m.lendTokenId = none) :
      Move env b { b with
        markets := Function.update b.markets a (some m)
        underlyingAssetId := Function.update b.underlyingAssetId m.lendTokenId (some a)
        exchangeRate := Function.update b.exchangeRate a b.minExchangeRate
        borrowIndex := Function.update b.borrowIndex a .one }
  | setMarket {b : Books AccountId CurrencyId} (a : CurrencyId) (m : Market CurrencyId)
      (hold : (b.markets a).isSome)
      (hlend : b.underlyingAssetId m.lendTokenId = none ∨
        b.underlyingAssetId m.lendTokenId = some a) :
      Move env b { b with
        markets := Function.update b.markets a (some m)
        underlyingAssetId := Function.update b.underlyingAssetId m.lendTokenId (some a) }

variable {env : LoansEnv AccountId CurrencyId H256}

omit [LoansConfig AccountId CurrencyId] in
/-- What neither the balances nor the collateral matter to is left alone by a transfer. -/
theorem giveAway_eq_of {α : Type} {g : Books AccountId CurrencyId → α} {x : Amount CurrencyId}
    {source destination : AccountId} {b : Books AccountId CurrencyId}
    (hg : ∀ (b : Books AccountId CurrencyId) t deposits,
      g { b with tokens := t, accountDeposits := deposits } = g b) :
    g (giveAway x source destination b) = g b := by
  unfold giveAway
  split
  · rfl
  · exact (receive_eq_of hg).trans (hg b _ b.accountDeposits)

/-- What a move does to what is kept for the markets: interest accrues, or a debt, the reserves
or a market is written. -/
theorem Move.market_cases {α : Type} {g : Books AccountId CurrencyId → α}
    {b b' : Books AccountId CurrencyId}
    (hg : ∀ (b : Books AccountId CurrencyId) t deposits held,
      g { b with tokens := t, accountDeposits := deposits, heldElsewhere := held } = g b)
    (h : Move env b b') :
    (∃ b₁ b₂, g b₁ = g b ∧ Accrual env b₁ b₂ ∧ g b' = g b₂) ∨
    (∃ a who current debt total, Fresh env a b ∧
      b.currentBorrowBalance who a = .ok ⟨current, a⟩ ∧
      ((∃ x, (b.markets a).isSome ∧ debt = current + x ∧ total = b.totalBorrows a + x) ∨
        (∃ x ≤ current, debt = current - x ∧ total = b.totalBorrows a - x)) ∧
      b' = setDebt a who debt total b) ∨
    (∃ a n, b' = { b with totalReserves := Function.update b.totalReserves a n }) ∨
    (∃ a m, b.markets a = none ∧ b' = { b with
      markets := Function.update b.markets a (some m)
      underlyingAssetId := Function.update b.underlyingAssetId m.lendTokenId (some a)
      exchangeRate := Function.update b.exchangeRate a b.minExchangeRate
      borrowIndex := Function.update b.borrowIndex a .one }) ∨
    (∃ a m, (b.markets a).isSome ∧ b' = { b with
      markets := Function.update b.markets a (some m)
      underlyingAssetId := Function.update b.underlyingAssetId m.lendTokenId (some a) }) := by
  have hsame {b b' : Books AccountId CurrencyId} (h : g b' = g b) :
      ∃ b₁ b₂, g b₁ = g b ∧ Accrual env b₁ b₂ ∧ g b' = g b₂ := ⟨b, b, rfl, .refl _, h⟩
  have hreceive {x : Amount CurrencyId} {who : AccountId} {b : Books AccountId CurrencyId} :
      g (receive x who b) = g b := receive_eq_of fun b t deposits => hg b t deposits b.heldElsewhere
  have hgive {x : Amount CurrencyId} {source destination : AccountId}
      {b : Books AccountId CurrencyId} : g (giveAway x source destination b) = g b :=
    giveAway_eq_of fun b t deposits => hg b t deposits b.heldElsewhere
  have hburn {x : Amount CurrencyId} {who : AccountId} {b : Books AccountId CurrencyId} :
      g (burn x who (hold x who b)) = g b := hg b _ b.accountDeposits b.heldElsewhere
  cases h with
  | still => exact .inl (hsame rfl)
  | accrue a h => exact .inl ⟨b, b', rfl, .single ⟨a, h⟩, rfl⟩
  | transfer x source destination =>
    exact .inl (hsame (hreceive.trans (hg b _ b.accountDeposits b.heldElsewhere)))
  | mint v who => exact .inl (hsame (hreceive.trans (hg b _ b.accountDeposits b.heldElsewhere)))
  | redeem v who hb₁ haccrual hcan =>
    refine .inl ⟨_, _, ?_, haccrual, hburn⟩
    obtain ⟨-, rfl⟩ | ⟨-, -, rfl⟩ := hb₁
    · rfl
    · exact hg b _ _ b.heldElsewhere
  | debt a who current debt total hfresh hcurrent h =>
    exact .inr (.inl ⟨a, who, current, debt, total, hfresh, hcurrent, h, rfl⟩)
  | seize x y borrower liquidator =>
    exact .inl (hsame (hgive.trans (hgive.trans (hg b _ _ b.heldElsewhere))))
  | lockAll c who => exact .inl (hsame (hg b _ _ b.heldElsewhere))
  | unlockAll c who => exact .inl (hsame (hg b _ _ b.heldElsewhere))
  | lockElsewhere x who => exact .inl (hsame (hg b _ b.accountDeposits _))
  | unlockElsewhere x who => exact .inl (hsame (hg b _ b.accountDeposits _))
  | setReserves a n => exact .inr (.inr (.inl ⟨a, n, rfl⟩))
  | addMarket a m hnew => exact .inr (.inr (.inr (.inl ⟨a, m, hnew, rfl⟩)))
  | setMarket a m hold => exact .inr (.inr (.inr (.inr ⟨a, m, hold, rfl⟩)))

omit [DecidableEq AccountId] [DecidableEq CurrencyId] [CurrencyConfig CurrencyId]
  [LoansConfig AccountId CurrencyId] in
/-- A kind of move that leaves the markets and their lend tokens alone. -/
private theorem Linked.of_setup {b b' : Books AccountId CurrencyId}
    (h : (b'.markets, b'.underlyingAssetId) = (b.markets, b.underlyingAssetId))
    (hb : Linked b) : Linked b' := by
  obtain ⟨hmarkets, hlend⟩ := Prod.mk.inj h
  intro a m hm
  rw [hmarkets] at hm
  rw [hlend]
  exact hb a m hm

omit [DecidableEq AccountId] [CurrencyConfig CurrencyId] [LoansConfig AccountId CurrencyId] in
/-- A market that is written is linked to a lend token that no other market has. -/
private theorem Linked.set {b : Books AccountId CurrencyId} (hb : Linked b) {a : CurrencyId}
    {m : Market CurrencyId} (hlend : b.underlyingAssetId m.lendTokenId = none ∨
      b.underlyingAssetId m.lendTokenId = some a) (a' : CurrencyId) (m' : Market CurrencyId)
    (hm' : Function.update b.markets a (some m) a' = some m') :
    Function.update b.underlyingAssetId m.lendTokenId (some a) m'.lendTokenId = some a' := by
  rcases eq_or_ne a' a with rfl | ha
  · rw [Function.update_self] at hm'
    obtain rfl := Option.some.inj hm'
    exact Function.update_self _ _ _
  · rw [Function.update_of_ne ha] at hm'
    have hlinked := hb a' m' hm'
    rw [Function.update_of_ne, hlinked]
    intro he
    rw [he] at hlinked
    rcases hlend with h | h
    · cases h.symm.trans hlinked
    · exact ha (Option.some.inj (hlinked.symm.trans h))

/-- Every move keeps the markets linked to their lend tokens. -/
theorem Move.linked {b b' : Books AccountId CurrencyId} (h : Move env b b') (hb : Linked b) :
    Linked b' := by
  have haccrual {b b' : Books AccountId CurrencyId} (h : Accrual env b b') :
      (b'.markets, b'.underlyingAssetId) = (b.markets, b.underlyingAssetId) :=
    h.eq_of (f := fun b => (b.markets, b.underlyingAssetId)) (fun _ _ => rfl) fun _ _ _ => rfl
  cases h with
  | still => exact hb
  | accrue a h => exact hb.of_setup (haccrual (.single ⟨a, h⟩))
  | transfer | mint =>
    exact hb.of_setup (receive_eq_of (g := fun b => (b.markets, b.underlyingAssetId))
      fun _ _ _ => rfl)
  | redeem v who hb₁ h =>
    refine hb.of_setup ((haccrual h).trans ?_)
    obtain ⟨-, rfl⟩ | ⟨-, -, rfl⟩ := hb₁ <;> rfl
  | debt => exact hb
  | seize =>
    exact hb.of_setup (((giveAway_eq_of (g := fun b => (b.markets, b.underlyingAssetId))
      fun _ _ _ => rfl).trans (giveAway_eq_of (g := fun b => (b.markets, b.underlyingAssetId))
      fun _ _ _ => rfl)))
  | lockAll => exact hb
  | unlockAll => exact hb
  | lockElsewhere => exact hb
  | unlockElsewhere => exact hb
  | setReserves => exact hb
  | addMarket a m hnew hlend => exact hb.set (.inl hlend)
  | setMarket a m hold hlend => exact hb.set hlend

end Interbtc.Loans
