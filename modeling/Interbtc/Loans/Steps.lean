import Interbtc.Core.Moves
import Interbtc.Loans.Moves

/-!
# Every call is a chain of moves

The calls of the pallet, from the transfers to the dispatched ones, each as a chain of moves
of the books.
-/

namespace Interbtc.Loans

open Core MultiCurrency

variable {AccountId CurrencyId H256 Tokens : Type} [DecidableEq AccountId]
  [DecidableEq CurrencyId] [MultiCurrency Tokens AccountId CurrencyId]
  [LawfulMultiCurrency Tokens] [CurrencyConfig CurrencyId] [LoansConfig AccountId CurrencyId]

/-- One move of the books, where the markets are linked to their lend tokens. -/
abbrev Moves₁ (env : LoansEnv AccountId CurrencyId H256) (_ : Unit)
    (s s' : Loans AccountId CurrencyId Tokens) : Prop :=
  Linked s.books → Move env s.books s'.books

/-- A call that is a chain of moves of the books. -/
abbrev Moves {α : Type} (env : LoansEnv AccountId CurrencyId H256)
    (x : LoansCall AccountId CurrencyId Tokens α) : Prop :=
  Follows (Moves₁ env) x fun _ => 0

variable {env : LoansEnv AccountId CurrencyId H256} {s s' t : Loans AccountId CurrencyId Tokens}

section

omit [LawfulMultiCurrency Tokens]

/-- What every move preserves, a chain preserves, where the markets are linked. -/
theorem preserves_of_moves {P : Books AccountId CurrencyId → Prop}
    (hP : ∀ b b', Move env b b' → P b → P b') (h : Trail (Moves₁ env) 0 s s')
    (hlinked : Linked s.books) (hs : P s.books) : Linked s'.books ∧ P s'.books := by
  refine h.preserves (P := fun s => Linked s.books ∧ P s.books) ?_ ⟨hlinked, hs⟩
  rintro _ s s' hmove ⟨hlinked, hs⟩
  exact ⟨(hmove hlinked).linked hlinked, hP _ _ (hmove hlinked) hs⟩

private theorem trail_of_books (h : s'.books = s.books) : Trail (Moves₁ env) 0 s s' :=
  .single fun _ => h ▸ .still _

private theorem trail_of_move (h : Linked s.books → Move env s.books s'.books) :
    Trail (Moves₁ env) 0 s s' := .single h

end

/-! ## Calls without moves, and accruals -/

section

omit [LawfulMultiCurrency Tokens]

/-- A call that only settles rewards moves nothing. -/
theorem moves_of_frames {α : Type} {x : LoansCall AccountId CurrencyId Tokens α}
    (hx : Frames books x) : Moves env x :=
  fun s r s' h => trail_of_books (hx.ok s r s' h)

private theorem moves_of_accrues {α : Type} {x : LoansCall AccountId CurrencyId Tokens α}
    (hx : Accrues env x) : Moves env x := by
  intro s r s' h
  refine (hx s r s' h).map id ?_
  rintro _ s s' ⟨a, ha⟩ -
  exact .accrue a (accrueInterest_books ha)

end

/-! ## Tokens -/

private theorem transfer_moves (x : Amount CurrencyId) (source destination : AccountId) :
    Moves env (transfer env x source destination : LoansCall AccountId CurrencyId Tokens _) := by
  intro s u s' h
  obtain ⟨-, rfl⟩ | ⟨hx, hne, hcan, hbooks⟩ := run_transfer h
  · exact .refl _
  · exact trail_of_move fun _ => hbooks ▸ .transfer x source destination hx hne hcan

private theorem mintTo_moves (x : Amount CurrencyId) (who : AccountId) :
    Moves env (mintTo env x who : LoansCall AccountId CurrencyId Tokens _) := by
  intro s u s' h
  obtain ⟨-, rfl⟩ | ⟨hx, hbooks⟩ := run_mintTo h
  · exact .refl _
  · exact trail_of_move fun _ => hbooks ▸ .mint x who hx

/-! ## Lending -/

private theorem doMint_moves (who : AccountId) (x : Amount CurrencyId) :
    Moves env (doMint env who x : LoansCall AccountId CurrencyId Tokens _) :=
  .bind_zero (.reads _) fun _ => .bind_zero (moves_of_frames
      (.bind (.reads _) fun _ => .bind (.reads _) fun _ => .ensure _ _)) fun _ =>
    .bind_zero (moves_of_accrues (accrueInterest_accrues _)) fun _ =>
    .bind_zero (moves_of_frames (updateRewardSupplyIndex_books _)) fun _ =>
    .bind_zero (moves_of_frames (distributeSupplierReward_books _ _)) fun _ =>
    .bind_zero (moves_of_accrues (toLendToken_accrues _)) fun _ => .bind_zero (.ensure _ _) fun _ =>
    .bind_zero (transfer_moves _ _ _) fun _ => mintTo_moves _ _

/-- A withdrawal unlocks collateral that is there, after interest accrued. -/
theorem run_doWithdrawCollateral {who : AccountId} {v : Amount CurrencyId} {u : Unit}
    (h : (doWithdrawCollateral env who v).run s = .ok u s') :
    ∃ s₁ : Loans AccountId CurrencyId Tokens, Accrual env s s₁ ∧
      v.amount ≤ s₁.books.accountDeposits v.currencyId who ∧
      s'.books = unlock v who s₁.books := by
  simp only [doWithdrawCollateral, Call.run_bind_eq_ok, Call.run_reads_eq_ok,
    Call.run_ofExcept_eq_ok, Call.run_ensure_eq_ok] at h
  obtain ⟨_, _, ⟨-, rfl⟩, _, _, ⟨-, rfl⟩, _, s₁, h₁, _, s₂, h₂, _, s₃, h₃, _, _, ⟨-, rfl⟩,
    _, _, ⟨-, rfl⟩, _, _, ⟨-, rfl⟩, _, s₄, hunlock, hdecrease⟩ := h
  have haccrual : Accrual env s s₃ := ((totalCollateralValue_accrues who _ _ _ h₁).trans
    (collateralAmountValue_accrues v _ _ _ h₂)).trans (totalBorrowedValue_accrues who _ _ _ h₃)
  obtain ⟨-, hreleased⟩ := run_onTokens_unlockOn hunlock
  obtain ⟨hle, hdecreased⟩ := run_decreaseDeposits hdecrease
  have hdeposits : s₄.accountDeposits = s₃.accountDeposits :=
    congrArg (fun b : Books AccountId CurrencyId => b.accountDeposits) hreleased
  refine ⟨s₃, haccrual, hdeposits ▸ hle, ?_⟩
  rw [hdecreased, hreleased, hdeposits]
  rfl

omit [CurrencyConfig CurrencyId] in
private theorem Accrual.accountDeposits {b b' : Books AccountId CurrencyId} (h : Accrual env b b') :
    b'.accountDeposits = b.accountDeposits :=
  h.eq_of (f := fun b => b.accountDeposits) (fun _ _ => rfl) fun _ _ _ => rfl

omit [LawfulMultiCurrency Tokens] in
private theorem trail_of_accrual (h : Accrual env s s') : Trail (Moves₁ env) 0 s s' := by
  refine h.map id ?_
  rintro _ s s' ⟨a, ha⟩ -
  exact .accrue a (accrueInterest_books ha)

omit [DecidableEq AccountId] [LawfulMultiCurrency Tokens] in
/-- What is redeemed is something, and there is cash for what it stands for. -/
theorem run_redeemAllowed {who : AccountId} {v : Amount CurrencyId} {u : Unit}
    (h : (redeemAllowed env who v).run s = .ok u s') :
    v.amount ≠ 0 ∧ ∃ w, (toUnderlying env v).run s = .ok w s' ∧
      s'.totalReserves w.currencyId + w.amount ≤ (s'.getTotalCash w.currencyId).amount := by
  simp only [redeemAllowed, ensureEnoughCash, Call.run_bind_eq_ok, Call.run_reads_eq_ok,
    Call.run_ensure_eq_ok, Call.run_ofExcept_eq_ok, Amount.checkedSub_eq_ok,
    Amount.lt_eq_ok] at h
  obtain ⟨_, _, ⟨-, rfl⟩, _, _, ⟨hpos, rfl⟩, _, _, ⟨-, rfl⟩, _, _, ⟨-, rfl⟩, w, s₁, hw, _, _,
    ⟨_, _, ⟨⟨-, hle, rfl⟩, rfl⟩, _, _, ⟨⟨-, rfl⟩, rfl⟩, hshort, rfl⟩, _, _, ⟨-, rfl⟩, _, _,
    ⟨-, rfl⟩, -, rfl⟩ := h
  refine ⟨hpos, w, hw, ?_⟩
  have hcash := of_decide_eq_false hshort
  change s₁.totalReserves w.currencyId ≤ _ at hle
  change ¬ (s₁.getTotalCash w.currencyId).amount - s₁.totalReserves w.currencyId < w.amount at hcash
  omega

private theorem doRedeem_moves (who : AccountId) (u v : Amount CurrencyId) :
    Moves env (doRedeem env who u v : LoansCall AccountId CurrencyId Tokens _) := by
  intro s r s' h
  simp only [doRedeem, Call.run_bind_eq_ok, Call.run_get_eq_ok, Call.run_reads_eq_ok,
    Call.run_ite_eq_ok, Call.run_pure_eq_ok, Call.run_mapError_eq_ok] at h
  obtain ⟨_, _, ⟨rfl, rfl⟩, _, s₁, hwithdraw, _, _, ⟨-, rfl⟩, _, s₂, h₂, _, s₃, h₃, _, s₄, h₄,
    _, s₅, h₅, _, s₆, hlock, _, s₇, hburn, htransfer⟩ := h
  -- interest accrues until the collateral is withdrawn, if there is any
  obtain ⟨s₀, hbefore, hs₁⟩ : ∃ s₀ : Loans AccountId CurrencyId Tokens, Accrual env s s₀ ∧
      ((s₀.books.accountDeposits v.currencyId who = 0 ∧ s₁.books = s₀.books) ∨
        (s₀.books.accountDeposits v.currencyId who ≠ 0 ∧
          v.amount ≤ s₀.books.accountDeposits v.currencyId who ∧
          s₁.books = unlock v who s₀.books)) := by
    obtain ⟨hzero, -, rfl⟩ | ⟨hne, hwithdraw⟩ := hwithdraw
    · exact ⟨_, .refl _, .inl ⟨hzero, rfl⟩⟩
    · obtain ⟨s₀, hbefore, hle, hbooks⟩ := run_doWithdrawCollateral hwithdraw
      refine ⟨s₀, hbefore, .inr ⟨?_, hle, hbooks⟩⟩
      rw [hbefore.books.accountDeposits]
      exact hne
  have haccrual : Accrual env s₁ s₃ :=
    (accrueInterest_accrues _ _ _ _ h₂).trans (redeemAllowed_accrues who v _ _ _ h₃)
  have hbooks₅ : s₅.books = s₃.books :=
    ((distributeSupplierReward_books _ _).ok _ _ _ h₅).trans
      ((updateRewardSupplyIndex_books _).ok _ _ _ h₄)
  obtain ⟨hcan, hheld⟩ := run_onTokens_lockOn hlock
  obtain ⟨hzero, -⟩ | ⟨-, -, hburned⟩ := run_burnFrom hburn
  · exact absurd hzero (run_redeemAllowed h₃).1
  rw [hheld, hbooks₅] at hburned
  rw [hbooks₅] at hcan
  have hmove : Move env s₀.books s₇.books := by
    rw [hburned]
    exact .redeem v who hs₁ haccrual.books hcan
  exact (trail_of_accrual hbefore).trans_zero ((trail_of_move fun _ => hmove).trans_zero
    (transfer_moves _ _ _ _ _ _ htransfer))

/-! ## Borrowing -/

omit [LawfulMultiCurrency Tokens] [CurrencyConfig CurrencyId] [LoansConfig AccountId CurrencyId] in
private theorem run_storeDebt {a : CurrencyId} {who : AccountId} {debt total : ℕ} {u : Unit}
    (h : (storeDebt a who debt total).run s = .ok u s') :
    s'.books = setDebt a who debt total s.books := by
  obtain rfl := Call.run_modify_eq_ok.mp h
  rfl

omit [DecidableEq AccountId] [DecidableEq CurrencyId] [MultiCurrency Tokens AccountId CurrencyId]
  [LawfulMultiCurrency Tokens] [CurrencyConfig CurrencyId] [LoansConfig AccountId CurrencyId] in
private theorem currentBorrowBalance_currency {a : CurrencyId} {who : AccountId}
    {x : Amount CurrencyId}
    (h : s.currentBorrowBalance who a = .ok x) : x.currencyId = a := by
  unfold currentBorrowBalance at h
  dsimp only at h
  split at h
  · exact congrArg Amount.currencyId (Except.ok.inj h).symm
  · simp only [borrowBalanceFromOldAndNewIndex, Amount.checkedRoundedMul, except_bind_eq_ok,
      except_pure_eq_ok] at h
    obtain ⟨_, -, _, -, rfl⟩ := h
    rfl

section

omit [LawfulMultiCurrency Tokens]

/-- The debt that is written after interest accrued, and what was read for it. -/
theorem run_doBorrow {who : AccountId} {x : Amount CurrencyId} {u : Unit}
    (h : (doBorrow env who x).run s = .ok u s') :
    ∃ s₁ s₂ s₃ s₄ : Loans AccountId CurrencyId Tokens, ∃ current,
      (s.markets x.currencyId).isSome ∧ (accrueInterest env x.currencyId).run s = .ok () s₁ ∧
      (borrowAllowed env who x).run s₁ = .ok () s₂ ∧ s₃.books = s₂.books ∧
      s₃.currentBorrowBalance who x.currencyId = .ok ⟨current, x.currencyId⟩ ∧
      s₄.books = setDebt x.currencyId who (current + x.amount)
        (s₃.totalBorrows x.currencyId + x.amount) s₃.books ∧
      (transfer env x (LoansConfig.palletAccount CurrencyId) who).run s₄ = .ok () s' := by
  simp only [doBorrow, Call.run_bind_eq_ok, Call.run_reads_eq_ok, Call.run_ofExcept_eq_ok,
    Amount.checkedAdd_eq_ok] at h
  obtain ⟨_, _, ⟨hactive, rfl⟩, _, s₁, h₁, _, s₂, h₂, _, s₃, h₃, _, s₄, h₄, cur, _, ⟨hcur, rfl⟩,
    _, _, ⟨⟨-, -, rfl⟩, rfl⟩, _, _, ⟨⟨-, -, rfl⟩, rfl⟩, _, s₅, hstore, htransfer⟩ := h
  have hbooks : s₄.books = s₂.books :=
    ((distributeBorrowerReward_books _ _).ok _ _ _ h₄).trans
      ((updateRewardBorrowIndex_books _).ok _ _ _ h₃)
  have hcurrency := currentBorrowBalance_currency hcur
  refine ⟨s₁, s₂, s₄, s₅, cur.amount, ?_, h₁, h₂, hbooks, ?_,
    run_storeDebt hstore, htransfer⟩
  · rw [(ensureActiveMarket_eq_ok.mp hactive).1]
    rfl
  · rw [hcur, ← hcurrency]

/-- The debt that is written for a repayment, and what was read for it. -/
theorem run_doRepayBorrow {who : AccountId} {x : Amount CurrencyId} {u : Unit}
    (h : (doRepayBorrow env who x).run s = .ok u s') :
    ∃ s₁ s₂ s₃ : Loans AccountId CurrencyId Tokens, ∃ current,
      (accrueInterest env x.currencyId).run s = .ok () s₁ ∧
      s₁.currentBorrowBalance who x.currencyId = .ok ⟨current, x.currencyId⟩ ∧
      x.amount ≤ current ∧ s₂.books = s₁.books ∧
      (transfer env x who (LoansConfig.palletAccount CurrencyId)).run s₂ = .ok () s₃ ∧
      s'.books = setDebt x.currencyId who (current - x.amount)
        (s₃.totalBorrows x.currencyId - x.amount) s₃.books := by
  simp only [doRepayBorrow, doRepayBorrowWithAmount, Call.run_bind_eq_ok, Call.run_reads_eq_ok,
    Call.run_ofExcept_eq_ok, Call.run_ensure_eq_ok, Amount.checkedSub_eq_ok,
    Amount.saturatingSub_eq_ok, Amount.lt_eq_ok] at h
  obtain ⟨_, _, ⟨-, rfl⟩, _, s₁, h₁, cur, _, ⟨hcur, rfl⟩, _, _, ⟨-, rfl⟩, _, _, ⟨-, rfl⟩,
    _, s₂, h₂, _, s₃, h₃, _, s₄, htransfer, _, _, ⟨⟨-, hle, rfl⟩, rfl⟩, _, _, ⟨⟨-, rfl⟩, rfl⟩,
    hstore⟩ := h
  have hbooks : s₃.books = s₁.books :=
    ((distributeBorrowerReward_books _ _).ok _ _ _ h₃).trans
      ((updateRewardBorrowIndex_books _).ok _ _ _ h₂)
  have hcurrency := currentBorrowBalance_currency hcur
  refine ⟨s₁, s₃, s₄, cur.amount, h₁, ?_, hle, hbooks, htransfer, run_storeDebt hstore⟩
  rw [hcur, ← hcurrency]

end

private theorem doBorrow_moves (who : AccountId) (x : Amount CurrencyId) :
    Moves env (doBorrow env who x : LoansCall AccountId CurrencyId Tokens _) := by
  intro s u s' h
  obtain ⟨s₁, s₂, s₃, s₄, current, hmarket, h₁, h₂, hbooks, hcur, hdebt, htransfer⟩ :=
    run_doBorrow h
  have haccrual : Accrual env s s₂ :=
    (accrueInterest_accrues _ _ _ _ h₁).trans (borrowAllowed_accrues _ _ _ _ _ h₂)
  have hmarkets : s₃.books.markets = s.markets := by
    rw [hbooks]
    exact haccrual.setup.1
  have hfresh : Fresh env x.currencyId s₃.books := by
    rw [hbooks]
    exact (fresh_accrueInterest h₁).accrual (borrowAllowed_accrues _ _ _ _ _ h₂)
  have hmove : Move env s₃.books s₄.books := by
    rw [hdebt]
    refine .debt x.currencyId who current _ _ hfresh hcur (.inl ⟨x.amount, ?_, rfl, rfl⟩)
    rw [hmarkets]
    exact hmarket
  exact (trail_of_accrual haccrual).trans_zero ((trail_of_books hbooks).trans_zero
    ((trail_of_move fun _ => hmove).trans_zero (transfer_moves _ _ _ _ _ _ htransfer)))

/-- A transfer leaves alone what neither balances nor collateral matter to. -/
theorem transfer_eq_of {α : Type} {g : Books AccountId CurrencyId → α} {x : Amount CurrencyId}
    {source destination : AccountId} {u : Unit}
    (h : (transfer env x source destination).run s = .ok u s')
    (hg : ∀ (b : Books AccountId CurrencyId) t deposits,
      g { b with tokens := t, accountDeposits := deposits } = g b) :
    g s'.books = g s.books := by
  obtain ⟨-, rfl⟩ | ⟨-, -, -, hbooks⟩ := run_transfer h
  · rfl
  · rw [hbooks]
    exact (receive_eq_of hg).trans (hg s.books _ s.books.accountDeposits)

private theorem fresh_transfer {a : CurrencyId} {x : Amount CurrencyId}
    {source destination : AccountId}
    {u : Unit} (h : (transfer env x source destination).run s = .ok u s') :
    Fresh env a s'.books = Fresh env a s.books :=
  transfer_eq_of (g := Fresh env a) h fun _ _ _ => rfl

/-- What a debt is computed from. -/
def debtTerms (a : CurrencyId) (who : AccountId) (b : Books AccountId CurrencyId) :
    BorrowSnapshot × Rate × ℕ :=
  (b.accountBorrows a who, b.borrowIndex a, b.totalBorrows a)

omit [DecidableEq AccountId] [DecidableEq CurrencyId] [CurrencyConfig CurrencyId]
  [LoansConfig AccountId CurrencyId] in
private theorem currentBorrowBalance_congr {a : CurrencyId} {who : AccountId}
    {b b' : Books AccountId CurrencyId} (h : debtTerms a who b' = debtTerms a who b) :
    b'.currentBorrowBalance who a = b.currentBorrowBalance who a := by
  have h₁ : b'.accountBorrows a who = b.accountBorrows a who := congrArg Prod.fst h
  have h₂ : b'.borrowIndex a = b.borrowIndex a := congrArg (·.2.1) h
  unfold currentBorrowBalance
  rw [h₁, h₂]

private theorem doRepayBorrow_moves (who : AccountId) (x : Amount CurrencyId) :
    Moves env (doRepayBorrow env who x : LoansCall AccountId CurrencyId Tokens _) := by
  intro s u s' h
  obtain ⟨s₁, s₂, s₃, current, h₁, hcur, hle, hbooks, htransfer, hdebt⟩ := run_doRepayBorrow h
  have hterms := transfer_eq_of (g := debtTerms x.currencyId who) htransfer fun _ _ _ => rfl
  have hcur₃ : s₃.books.currentBorrowBalance who x.currencyId = .ok ⟨current, x.currencyId⟩ := by
    rw [currentBorrowBalance_congr hterms, hbooks]
    exact hcur
  have hfresh₁ : Fresh env x.currencyId s₁ := fresh_accrueInterest h₁
  have hfresh : Fresh env x.currencyId s₃.books := by
    rw [fresh_transfer htransfer, hbooks]
    exact hfresh₁
  refine (trail_of_accrual (accrueInterest_accrues _ _ _ _ h₁)).trans ((trail_of_books hbooks).trans
    ((transfer_moves _ _ _ _ _ _ htransfer).trans (trail_of_move fun _ => ?_)))
  rw [hdebt]
  exact .debt x.currencyId who current _ _ hfresh hcur₃ (.inr ⟨x.amount, hle, rfl, rfl⟩)

/-! ## Liquidation -/

omit [LawfulMultiCurrency Tokens] in
/-- The debt that is written for a repayment by the liquidator, and what was read for it. -/
theorem run_repayForBorrower {liquidator borrower : AccountId} {x : Amount CurrencyId} {u : Unit}
    (h : (repayForBorrower env liquidator borrower x).run s = .ok u s') :
    ∃ s₁ s₂ : Loans AccountId CurrencyId Tokens, ∃ current, s₁.books = s.books ∧
      (transfer env x liquidator (LoansConfig.palletAccount CurrencyId)).run s₁ = .ok () s₂ ∧
      s₂.currentBorrowBalance borrower x.currencyId = .ok ⟨current, x.currencyId⟩ ∧
      x.amount ≤ current ∧ x.amount ≤ s₂.totalBorrows x.currencyId ∧
      s'.books = setDebt x.currencyId borrower (current - x.amount)
        (s₂.totalBorrows x.currencyId - x.amount) s₂.books := by
  simp only [repayForBorrower, Call.run_bind_eq_ok, Call.run_reads_eq_ok, Call.run_ofExcept_eq_ok,
    Amount.checkedSub_eq_ok] at h
  obtain ⟨_, s₁, h₁, _, s₂, h₂, _, s₃, htransfer, cur, _, ⟨hcur, rfl⟩, _, _, ⟨⟨-, hle, rfl⟩, rfl⟩,
    _, _, ⟨⟨-, htotal, rfl⟩, rfl⟩, hstore⟩ := h
  have hbooks : s₂.books = s.books :=
    ((distributeBorrowerReward_books _ _).ok _ _ _ h₂).trans
      ((updateRewardBorrowIndex_books _).ok _ _ _ h₁)
  have hcurrency := currentBorrowBalance_currency hcur
  refine ⟨s₂, s₃, cur.amount, hbooks, htransfer, ?_, hle, htotal, run_storeDebt hstore⟩
  rw [hcur, ← hcurrency]

private theorem repayForBorrower_moves (liquidator borrower : AccountId) (x : Amount CurrencyId) :
    FollowsFrom (Fresh env x.currencyId) (Moves₁ env) (repayForBorrower env liquidator borrower x :
      LoansCall AccountId CurrencyId Tokens _) fun _ => 0 := by
  intro s u s' hs h
  obtain ⟨s₁, s₂, current, hbooks, htransfer, hcur, hle, -, hdebt⟩ := run_repayForBorrower h
  have hfresh : Fresh env x.currencyId s₂.books := by
    rw [fresh_transfer htransfer, hbooks]
    exact hs
  refine (trail_of_books hbooks).trans ((transfer_moves _ _ _ _ _ _ htransfer).trans
    (trail_of_move fun _ => ?_))
  rw [hdebt]
  exact .debt x.currencyId borrower current _ _ hfresh hcur (.inr ⟨x.amount, hle, rfl, rfl⟩)

private theorem run_transfer_giveAway {x : Amount CurrencyId} {source destination : AccountId}
    {u : Unit}
    (h : (transfer env x source destination).run s = .ok u s') :
    s'.books = giveAway x source destination s.books := by
  obtain ⟨hzero, rfl⟩ | ⟨hx, hne, -, hbooks⟩ := run_transfer h
  · exact (if_pos hzero).symm
  · rw [hbooks]
    exact (if_neg fun h => h.elim hx hne).symm

omit [DecidableEq CurrencyId] [CurrencyConfig CurrencyId] in
private theorem incentiveReserved_currency {m : Market CurrencyId} {x y : Amount CurrencyId}
    (h : incentiveReserved m x = .ok y) : y.currencyId = x.currencyId := by
  simp only [incentiveReserved, except_bind_eq_ok, Amount.checkedDiv_eq_ok,
    except_pure_eq_ok] at h
  obtain ⟨_, ⟨-, -, rfl⟩, rfl⟩ := h
  rfl

/-- The lend tokens that are seized are unlocked, and given away in two parts. -/
theorem run_seizeCollateral {liquidator borrower : AccountId} {x : Amount CurrencyId}
    {m : Market CurrencyId} {u : Unit}
    (h : (seizeCollateral env liquidator borrower x m).run s = .ok u s') :
    ∃ s₁ s₂ : Loans AccountId CurrencyId Tokens, ∃ c v reserved, s₁.books = s.books ∧
      s₁.lendTokenId x.currencyId = .ok c ∧ (toLendToken env x).run s₁ = .ok v s₂ ∧
      v.amount ≤ s₂.accountDeposits c borrower ∧ incentiveReserved m v = .ok reserved ∧
      reserved.amount ≤ v.amount ∧
      (v.currencyId = c → s'.books =
        giveAway reserved borrower (LoansConfig.incentiveAccount CurrencyId)
          (giveAway ⟨v.amount - reserved.amount, v.currencyId⟩ borrower liquidator
            (unlock v borrower s₂.books))) := by
  simp only [seizeCollateral, Call.run_bind_eq_ok, Call.run_reads_eq_ok, Call.run_ofExcept_eq_ok,
    Amount.checkedSub_eq_ok] at h
  obtain ⟨_, s₁, h₁, _, s₂, h₂, _, s₃, h₃, _, s₄, h₄, c, _, ⟨hc, rfl⟩, v, s₅, hv, _, s₆, hdecrease,
    _, s₇, hunlock, reserved, _, ⟨hreserved, rfl⟩, _, _, ⟨⟨-, hle, rfl⟩, rfl⟩, _, s₈, hfirst,
    hsecond⟩ := h
  have hbooks : s₄.books = s.books :=
    ((distributeSupplierReward_books _ _).ok _ _ _ h₄).trans
      (((distributeSupplierReward_books _ _).ok _ _ _ h₃).trans
        (((distributeSupplierReward_books _ _).ok _ _ _ h₂).trans
          ((updateRewardSupplyIndex_books _).ok _ _ _ h₁)))
  obtain ⟨hdeposits, hdecreased⟩ := run_decreaseDeposits hdecrease
  obtain ⟨-, hreleased⟩ := run_onTokens_unlockOn hunlock
  refine ⟨s₄, s₅, c, v, reserved, hbooks, hc, hv, hdeposits, hreserved, hle, ?_⟩
  rintro rfl
  rw [run_transfer_giveAway hsecond, run_transfer_giveAway hfirst, hreleased, hdecreased]
  rfl

private theorem seizeCollateral_moves {liquidator borrower : AccountId}
    (hne : borrower ≠ liquidator)
    (x : Amount CurrencyId) (m : Market CurrencyId) :
    Moves env (seizeCollateral env liquidator borrower x m :
      LoansCall AccountId CurrencyId Tokens _) := by
  intro s u s' h
  obtain ⟨s₁, s₂, c, v, reserved, hbooks, hc, hv, hle, hreserved, hsum, hs'⟩ :=
    run_seizeCollateral h
  have haccrual : Accrual env s₁ s₂ := toLendToken_accrues x _ _ _ hv
  refine (trail_of_books hbooks).trans_zero ((trail_of_accrual haccrual).trans_zero
    (trail_of_move fun hlinked => ?_))
  have hlinked₁ : Linked s₁ := by
    intro a m hm
    rw [← haccrual.setup.1] at hm
    rw [← haccrual.setup.2]
    exact hlinked a m hm
  have hcurrency : v.currencyId = c :=
    Except.ok.inj ((toLendToken_currency hlinked₁ hv).symm.trans hc)
  subst hcurrency
  have hreservedCurrency : reserved.currencyId = v.currencyId := incentiveReserved_currency hreserved
  have hvoucher : (⟨v.amount - reserved.amount + reserved.amount, v.currencyId⟩ :
      Amount CurrencyId) = v := by
    rw [Nat.sub_add_cancel hsum]
  have htotal : v.amount - reserved.amount + reserved.amount ≤
      s₂.books.accountDeposits v.currencyId borrower := (Nat.sub_add_cancel hsum).trans_le hle
  have hmove : Move env s₂.books _ := .seize ⟨v.amount - reserved.amount, v.currencyId⟩ reserved
    borrower liquidator hreservedCurrency hne htotal
  rw [hvoucher] at hmove
  rw [hs' rfl]
  exact hmove

private theorem doLiquidateBorrow_moves (liquidator borrower : AccountId) (x : Amount CurrencyId)
    (a : CurrencyId) :
    FollowsFrom (Fresh env x.currencyId) (Moves₁ env)
      (doLiquidateBorrow env liquidator borrower x a : LoansCall AccountId CurrencyId Tokens _)
      fun _ => 0 := by
  have haccrues {α : Type} {y : LoansCall AccountId CurrencyId Tokens α} (hy : Accrues env y) :
      Maintains (Fresh env x.currencyId) y := fun _ _ _ h hs => hs.accrual (hy _ _ _ h)
  refine .bind_keeps (.reads _) fun _ => .bind_keeps (.reads _) fun _ => .bind_keeps (.reads _)
    fun m => .ensure_bind fun hne _ => ?_
  refine .bind_zero (moves_of_accrues (liquidateBorrowAllowed_accrues _ _ _)) (haccrues
      (liquidateBorrowAllowed_accrues _ _ _)) fun _ =>
    .bind_keeps (.reads _) fun _ => .bind_keeps .get fun _ => .bind_keeps (.ensure _ _) fun _ =>
    .bind_zero (moves_of_accrues (toUnderlying_accrues _)) (haccrues (toUnderlying_accrues _))
      fun _ =>
    .bind_zero (moves_of_accrues (getAssetValue_accrues _)) (haccrues (getAssetValue_accrues _))
      fun _ =>
    .bind_zero (moves_of_accrues (getAssetValue_accrues _)) (haccrues (getAssetValue_accrues _))
      fun _ => ?_
  refine .bind_keeps (.ofExcept _) fun _ => .bind_keeps (.ofExcept _) fun _ =>
    .bind_keeps (.ensure _ _) fun _ =>
    .bind_zero (moves_of_accrues (convertTo_accrues _ _)) (haccrues (convertTo_accrues _ _))
      fun y => ?_
  intro s u s' hs h
  obtain ⟨_, t, hrepay, hseize⟩ := Call.run_bind_eq_ok.mp h
  exact (repayForBorrower_moves _ _ _ s _ t hs hrepay).trans_zero
    (seizeCollateral_moves hne _ _ t _ s' hseize)

/-! ## Governance -/

section

omit [LawfulMultiCurrency Tokens]

private theorem addMarket_moves (a : CurrencyId) (m : Market CurrencyId) :
    Moves env (addMarket a m : LoansCall AccountId CurrencyId Tokens _) := by
  intro s u s' h
  simp only [addMarket, ensureFactors, ensureLendToken, Call.run_bind_eq_ok, Call.run_get_eq_ok,
    Call.run_ensure_eq_ok, Call.run_modify_eq_ok] at h
  obtain ⟨_, _, ⟨rfl, rfl⟩, _, _, ⟨hnew, rfl⟩, _, _, ⟨-, rfl⟩, _, _, ⟨-, rfl⟩, _, _,
    ⟨_, _, ⟨-, rfl⟩, _, _, ⟨-, rfl⟩, _, _, ⟨-, rfl⟩, _, _, ⟨-, rfl⟩, -, rfl⟩, _, _,
    ⟨_, _, ⟨rfl, rfl⟩, _, _, ⟨hlend, rfl⟩, -, rfl⟩, rfl⟩ := h
  exact trail_of_move fun _ => .addMarket a m hnew hlend

/-- A market that changes keeps its lend token, or gets one that stands for no other asset. -/
theorem mutateMarket_moves {a : CurrencyId}
    {cb : Market CurrencyId → Except DispatchError (Market CurrencyId)}
    (hcb : ∀ m m', cb m = .ok m' → m'.lendTokenId = m.lendTokenId) :
    Moves env (mutateMarket a cb : LoansCall AccountId CurrencyId Tokens _) := by
  intro s u s' h
  simp only [mutateMarket, market, Call.run_bind_eq_ok, Call.run_reads_eq_ok,
    Call.run_ofExcept_eq_ok, Call.run_modify_eq_ok, okOr_eq_ok] at h
  obtain ⟨m, _, ⟨hm, rfl⟩, m', _, ⟨hm', rfl⟩, rfl⟩ := h
  refine trail_of_move fun hlinked => ?_
  have hlend : s.books.underlyingAssetId m'.lendTokenId = some a := by
    rw [hcb m m' hm']
    exact hlinked a m hm
  have hmove : Move env s.books _ :=
    .setMarket a m' (Option.isSome_iff_exists.mpr ⟨m, hm⟩) (.inr hlend)
  rw [← hlend, Function.update_eq_self] at hmove
  exact hmove

private theorem forceUpdateMarket_moves (a : CurrencyId) (m : Market CurrencyId) :
    Moves env (forceUpdateMarket a m : LoansCall AccountId CurrencyId Tokens _) := by
  intro s u s' h
  simp only [forceUpdateMarket, mutateMarket, market, Call.run_bind_eq_ok, Call.run_get_eq_ok,
    Call.run_reads_eq_ok, Call.run_ensure_eq_ok, Call.run_ofExcept_eq_ok, Call.run_modify_eq_ok,
    okOr_eq_ok, Except.ok.injEq] at h
  obtain ⟨_, _, ⟨-, rfl⟩, _, _, ⟨rfl, rfl⟩, _, _, ⟨hlend, rfl⟩, _, _, rfl, m₀, _, ⟨hm₀, rfl⟩,
    _, _, ⟨rfl, rfl⟩, rfl⟩ := h
  exact trail_of_move fun _ => .setMarket a m (Option.isSome_iff_exists.mpr ⟨m₀, hm₀⟩) hlend

end

omit [DecidableEq AccountId] [LawfulMultiCurrency Tokens] [CurrencyConfig CurrencyId] in
private theorem updateMarketRewardSpeed_books (a : CurrencyId) (supply borrow : Option ℕ) :
    Frames books (updateMarketRewardSpeed env a supply borrow :
      LoansCall AccountId CurrencyId Tokens _) :=
  .bind (.reads _) fun _ => .bind .get fun _ =>
    .bind (.ite (.bind (updateRewardSupplyIndex_books a) fun _ => .modify fun _ => rfl) (.pure _))
    fun _ => .ite (.bind (updateRewardBorrowIndex_books a) fun _ => .modify fun _ => rfl) (.pure _)

private theorem addReserves_moves (payer : AccountId) (a : CurrencyId) (n : ℕ) :
    Moves env (addReserves env payer a n : LoansCall AccountId CurrencyId Tokens _) :=
  .bind_zero (.reads _) fun _ => .bind_zero (moves_of_accrues (accrueInterest_accrues a)) fun _ =>
    .bind_zero (.ensure _ _) fun _ => .bind_zero (transfer_moves _ _ _) fun _ =>
    .bind_zero (.reads _) fun total => .of_move fun s u s' h _ => by
      obtain rfl := Call.run_modify_eq_ok.mp h
      exact .setReserves a total.amount

private theorem reduceReserves_moves (receiver : AccountId) (a : CurrencyId) (n : ℕ) :
    Moves env (reduceReserves env receiver a n : LoansCall AccountId CurrencyId Tokens _) :=
  .bind_zero (.reads _) fun _ => .bind_zero (moves_of_accrues (accrueInterest_accrues a)) fun _ =>
    .bind_zero (.ensure _ _) fun _ => .bind_zero .get fun _ => .bind_zero (.ensure _ _) fun _ =>
    .bind_zero (.ofExcept _) fun total => .bind_zero (.of_move fun s u s' h _ => by
      obtain rfl := Call.run_modify_eq_ok.mp h
      exact .setReserves a total.amount) fun _ => transfer_moves _ _ _

/-! ## Rewards -/

private theorem payReward_moves (who : AccountId) :
    Moves env (payReward env who : LoansCall AccountId CurrencyId Tokens _) :=
  .bind_zero .get fun _ => .ite (.bind_zero (transfer_moves _ _ _) fun _ =>
    moves_of_frames (.modify fun _ => rfl)) (.pure _)

private theorem claimReward_moves (who : AccountId) :
    Moves env (claimReward env who : LoansCall AccountId CurrencyId Tokens _) :=
  .bind_zero .get fun _ => .bind_zero (moves_of_frames (.forM (fun a =>
    collectMarketReward_books a who) _)) fun _ => payReward_moves who

/-! ## Collateral -/

private theorem depositAllCollateral_moves {who : AccountId} (hwho : ¬ IsDerived CurrencyId who)
    (a : CurrencyId) :
    Moves env (depositAllCollateral who a : LoansCall AccountId CurrencyId Tokens _) := by
  intro s u s' h
  simp only [depositAllCollateral, freeLendTokens, reservedLendTokens, Call.run_bind_eq_ok,
    Call.run_reads_eq_ok, Call.run_ensure_eq_ok, except_bind_eq_ok, except_pure_eq_ok] at h
  obtain ⟨_, _, ⟨⟨c, hc, rfl⟩, rfl⟩, _, _, ⟨hfree, rfl⟩, _, _, ⟨⟨c', hc', rfl⟩, rfl⟩, _, _,
    ⟨hreserved, rfl⟩, hdeposit⟩ := h
  obtain rfl := Except.ok.inj (hc'.symm.trans hc)
  obtain ⟨-, hbooks⟩ := run_doDepositCollateral hdeposit
  refine trail_of_move fun _ => ?_
  rw [hbooks]
  exact .lockAll c' who hwho hfree hreserved

private theorem withdrawAllCollateral_moves (who : AccountId) (a : CurrencyId) :
    Moves env (withdrawAllCollateral env who a : LoansCall AccountId CurrencyId Tokens _) := by
  intro s u s' h
  simp only [withdrawAllCollateral, Call.run_bind_eq_ok, Call.run_reads_eq_ok,
    Call.run_get_eq_ok, Call.run_ensure_eq_ok] at h
  obtain ⟨c, _, ⟨-, rfl⟩, _, _, ⟨rfl, rfl⟩, _, _, ⟨hpos, rfl⟩, hwithdraw⟩ := h
  obtain ⟨s₁, haccrual, -, hbooks⟩ := run_doWithdrawCollateral hwithdraw
  have hdeposits : s₁.books.accountDeposits = s.accountDeposits := haccrual.books.accountDeposits
  have hmove : Move env s₁.books (unlock ⟨s₁.books.accountDeposits c who, c⟩ who s₁.books) :=
    .unlockAll c who (by rw [hdeposits]; exact hpos)
  refine (trail_of_accrual haccrual).trans_zero (trail_of_move fun _ => ?_)
  rw [hbooks]
  rw [hdeposits] at hmove
  exact hmove

private theorem lockElsewhere_moves {who : AccountId} (hwho : ¬ IsDerived CurrencyId who)
    (x : Amount CurrencyId) :
    Moves env (lockElsewhere who x : LoansCall AccountId CurrencyId Tokens _) := by
  intro s u s' h
  simp only [lockElsewhere, Call.run_bind_eq_ok, Call.run_modify_eq_ok] at h
  obtain ⟨_, s₁, hlock, rfl⟩ := h
  obtain ⟨hcan, hbooks⟩ := run_onTokens_lockOn hlock
  refine trail_of_move fun _ => ?_
  change Move env s.books { s₁.books with
    heldElsewhere := update₂ s₁.books.heldElsewhere x.currencyId who
      (s₁.books.heldElsewhere x.currencyId who + x.amount) }
  rw [hbooks]
  exact .lockElsewhere x who hwho hcan

private theorem unlockElsewhere_moves {who : AccountId} (hwho : ¬ IsDerived CurrencyId who)
    (x : Amount CurrencyId) :
    Moves env (unlockElsewhere who x : LoansCall AccountId CurrencyId Tokens _) := by
  intro s u s' h
  simp only [unlockElsewhere, Call.run_bind_eq_ok, Call.run_get_eq_ok, Call.run_ensure_eq_ok,
    Call.run_modify_eq_ok] at h
  obtain ⟨_, _, ⟨rfl, rfl⟩, _, _, ⟨hle, rfl⟩, _, s₁, hunlock, rfl⟩ := h
  obtain ⟨-, hbooks⟩ := run_onTokens_unlockOn hunlock
  refine trail_of_move fun _ => ?_
  change Move env s.books { s₁.books with
    heldElsewhere := update₂ s₁.books.heldElsewhere x.currencyId who
      (s₁.books.heldElsewhere x.currencyId who - x.amount) }
  rw [hbooks]
  exact .unlockElsewhere x who hwho hle

/-! ## Dispatch -/

omit [DecidableEq AccountId] [DecidableEq CurrencyId] [CurrencyConfig CurrencyId] in
private theorem Signer.not_isDerived (who : Signer AccountId CurrencyId) :
    ¬ IsDerived CurrencyId who.val := by
  rintro (h | h | h)
  · exact who.property.1 h
  · exact who.property.2.1 h
  · exact who.property.2.2 h

/-- Every dispatched call is a chain of moves. -/
theorem dispatch_moves (op : Op AccountId CurrencyId) :
    Moves env (dispatch env op : LoansCall AccountId CurrencyId Tokens _) := by
  cases op with
  | addMarket a m => exact addMarket_moves a m
  | activateMarket a =>
    refine mutateMarket_moves fun m m' h => ?_
    split at h
    · cases h
    · obtain rfl := Except.ok.inj h
      rfl
  | updateRateModel a rateModel =>
    refine .bind_zero (.ensure _ _) fun _ => mutateMarket_moves fun m m' h => ?_
    obtain rfl := Except.ok.inj h
    rfl
  | updateMarket a update =>
    refine .bind_zero (.reads _) fun _ => .bind_zero ?_ fun _ => mutateMarket_moves fun m m' h => ?_
    · exact .bind_zero (.ensure _ _) fun _ => .bind_zero (.ensure _ _) fun _ =>
        .bind_zero (.ensure _ _) fun _ => .bind_zero (.ensure _ _) fun _ => .ensure _ _
    · obtain rfl := Except.ok.inj h
      rfl
  | forceUpdateMarket a m => exact forceUpdateMarket_moves a m
  | updateMarketRewardSpeed a supply borrow =>
    exact moves_of_frames (updateMarketRewardSpeed_books a supply borrow)
  | addReserves payer a n => exact addReserves_moves payer a n
  | reduceReserves receiver a n => exact reduceReserves_moves receiver a n
  | reduceIncentiveReserves receiver a n =>
    exact .bind_zero (.ensure _ _) fun _ => .bind_zero (.reads _) fun _ =>
      .bind_zero (moves_of_accrues (accrueInterest_accrues a)) fun _ =>
      .bind_zero (moves_of_accrues (toLendToken_accrues _)) fun _ =>
      .bind_zero (doRedeem_moves _ _ _) fun _ => transfer_moves _ _ _
  | addReward who n => exact .bind_zero (.ensure _ _) fun _ => transfer_moves _ _ _
  | claimReward who => exact claimReward_moves who.val
  | claimRewardForMarket who a =>
    exact .bind_zero (moves_of_frames (collectMarketReward_books a _)) fun _ => payReward_moves _
  | mint who a n => exact .bind_zero (.ensure _ _) fun _ => doMint_moves _ _
  | redeem who a n =>
    exact .bind_zero (.ensure _ _) fun _ =>
      .bind_zero (moves_of_accrues (toLendToken_accrues _)) fun _ => doRedeem_moves _ _ _
  | redeemAll who a =>
    exact .bind_zero (.reads _) fun _ => .bind_zero .get fun _ =>
      .bind_zero (moves_of_accrues (toUnderlying_accrues _)) fun _ => doRedeem_moves _ _ _
  | borrow who a n => exact .bind_zero (.ensure _ _) fun _ => doBorrow_moves _ _
  | repayBorrow who a n => exact .bind_zero (.ensure _ _) fun _ => doRepayBorrow_moves _ _
  | repayBorrowAll who a =>
    exact .bind_zero (.reads _) fun _ =>
      .bind_zero (moves_of_accrues (accrueInterest_accrues a)) fun _ => .bind_zero (.reads _) fun _ =>
      .bind_zero (.ensure _ _) fun _ => doRepayBorrow_moves _ _
  | depositAllCollateral who a =>
    exact depositAllCollateral_moves (Signer.not_isDerived who) a
  | withdrawAllCollateral who a => exact withdrawAllCollateral_moves who.val a
  | liquidateBorrow who borrower a n c =>
    exact FollowsFrom.after (moves_of_accrues (accrueInterest_accrues a))
      (fun _ _ _ h => fresh_accrueInterest h) fun _ =>
      .bind_zero (moves_of_accrues (accrueInterest_accrues c))
        (fun _ _ _ h hs => hs.accrueInterest h) fun _ =>
      .bind_keeps (.ensure _ _) fun _ => doLiquidateBorrow_moves _ _ ⟨n, a⟩ _
  | transfer who destination c n => exact transfer_moves _ _ _
  | lockElsewhere who c n => exact lockElsewhere_moves (Signer.not_isDerived who) _
  | unlockElsewhere who c n => exact unlockElsewhere_moves (Signer.not_isDerived who) _
  | recomputeUnderlyingAmount lendTokens =>
    exact .bind_zero (moves_of_accrues (recomputeUnderlyingAmount_accrues _)) fun _ => .pure _
  | recomputeCollateralAmount underlying =>
    exact .bind_zero (moves_of_accrues (recomputeCollateralAmount_accrues _)) fun _ => .pure _

/-- What every move preserves, every step preserves, where the markets are linked. -/
theorem step_preserves {P : Books AccountId CurrencyId → Prop}
    (hP : ∀ env : LoansEnv AccountId CurrencyId H256, ∀ b b', Move env b b' → P b → P b')
    (d : Dispatch AccountId CurrencyId H256) (hlinked : Linked s.books) (hs : P s.books) :
    Linked (step s d).books ∧ P (step s d).books := by
  obtain ⟨r, hrun⟩ | ⟨-, hsame⟩ := Call.commit_cases (dispatch d.1 d.2) s
  · exact preserves_of_moves (hP d.1) (dispatch_moves d.2 s r _ hrun) hlinked hs
  · rw [step, hsame]
    exact ⟨hlinked, hs⟩

/-- What every move preserves, every run from a state with linked markets preserves. -/
theorem run_preserves_books {P : Books AccountId CurrencyId → Prop}
    (hP : ∀ env : LoansEnv AccountId CurrencyId H256, ∀ b b', Move env b b' → P b → P b')
    (hlinked : Linked s.books) (hs : P s.books) (ops : List (Dispatch AccountId CurrencyId H256)) :
    Linked (run step s ops).books ∧ P (run step s ops).books := by
  have hstep : ∀ (s : Loans AccountId CurrencyId Tokens) (d : Dispatch AccountId CurrencyId H256),
      Linked s.books ∧ P s.books → Linked (step s d).books ∧ P (step s d).books :=
    fun _ d h => step_preserves hP d h.1 h.2
  exact run_preserves hstep ⟨hlinked, hs⟩ ops

omit [DecidableEq AccountId] [DecidableEq CurrencyId] [LawfulMultiCurrency Tokens]
  [CurrencyConfig CurrencyId] [LoansConfig AccountId CurrencyId] in
/-- At first there are no markets, so all of them are linked. -/
theorem linked_genesis (tokens : Tokens) (maxRate minRate : Rate) :
    Linked (genesis tokens maxRate minRate : Loans AccountId CurrencyId Tokens).books := by
  intro a m hm
  cases hm

end Interbtc.Loans
