import Interbtc.Core.IndexedDebts
import Interbtc.Loans.Steps
import Interbtc.Loans.Terms

/-!
# The total of the borrows and the debts

The total of the borrows of a market is at most what is owed exactly, in every run. A debt is
read with its growth rounded down, so it can be read as less than what is owed.
-/

namespace Interbtc.Loans

open Core MultiCurrency IndexedDebts

variable {AccountId CurrencyId H256 Tokens : Type} [DecidableEq AccountId]
  [DecidableEq CurrencyId] [MultiCurrency Tokens AccountId CurrencyId]
  [CurrencyConfig CurrencyId] [LoansConfig AccountId CurrencyId]
  {env : LoansEnv AccountId CurrencyId H256} {a : CurrencyId} {index : Rate}

/-! ## The index of a fresh market -/

/-- What the index of a market is written with. -/
def indexTerms (a : CurrencyId) (s : Loans AccountId CurrencyId Tokens) : ℕ × Bool × Rate :=
  (s.lastAccruedInterestTime a, (s.markets a).isSome, s.borrowIndex a)

/-- A market that is fresh keeps its index. -/
def Stays (env : LoansEnv AccountId CurrencyId H256) (a : CurrencyId)
    (s s' : Loans AccountId CurrencyId Tokens) : Prop :=
  Fresh env a s → (s.markets a).isSome → Fresh env a s' ∧ (s'.markets a).isSome ∧
    s'.borrowIndex a = s.borrowIndex a

namespace Stays

variable {s s' t : Loans AccountId CurrencyId Tokens} {b b' : Books AccountId CurrencyId}

section

omit [DecidableEq AccountId] [DecidableEq CurrencyId] [MultiCurrency Tokens AccountId CurrencyId]
  [CurrencyConfig CurrencyId] [LoansConfig AccountId CurrencyId]

private theorem of_eq (h : indexTerms a s' = indexTerms a s) : Stays env a s s' := by
  simp only [indexTerms, Prod.mk.injEq] at h
  obtain ⟨htime, hmarket, hindex⟩ := h
  intro hfresh hlisted
  unfold Fresh at hfresh ⊢
  rw [htime, hmarket, hindex]
  exact ⟨hfresh, hlisted, rfl⟩

private theorem trans (h : Stays env a s t) (h' : Stays env a t s') : Stays env a s s' := by
  intro hfresh hlisted
  obtain ⟨hfresh, hlisted, hindex⟩ := h hfresh hlisted
  rw [← hindex]
  exact h' hfresh hlisted

end

section

omit [DecidableEq AccountId] [CurrencyConfig CurrencyId]

private theorem of_accrueInterest {c : CurrencyId} (h : (accrueInterest env c).run s = .ok () s') :
    Stays env a s s' := by
  intro hfresh hlisted
  rcases eq_or_ne a c with rfl | hne
  · obtain rfl := hfresh.eq_of_run h
    exact ⟨hfresh, hlisted, rfl⟩
  · refine of_eq (run_accrueInterest_of_ne (f := indexTerms a) ?_ (fun _ => ?_) h) hfresh hlisted
    · simp only [indexTerms, startClock, Function.update_of_ne hne]
    · simp only [indexTerms, storeStatus, Function.update_of_ne hne]

private theorem of_accrual (h : Accrual env s s') : Stays env a s s' :=
  h.preserves (P := Stays env a s) (fun _ _ _ hrun hs => hs.trans (of_accrueInterest hrun))
    (of_eq rfl)

end

private theorem of_move (h : Move env b b') : Stays env a b b' := by
  obtain ⟨b₁, b₂, h₁, haccrual, h₂⟩ | ⟨c, who, current, debt, total, -, -, -, rfl⟩ |
    ⟨c, n, rfl⟩ | ⟨c, m, hnew, rfl⟩ | ⟨c, m, hold, rfl⟩ :=
    h.market_cases (g := indexTerms a) fun _ _ _ _ => rfl
  · exact (of_eq h₁).trans ((of_accrual haccrual).trans (of_eq h₂))
  · exact of_eq rfl
  · exact of_eq rfl
  · intro hfresh hlisted
    have hne : a ≠ c := by
      rintro rfl
      rw [hnew] at hlisted
      cases hlisted
    refine of_eq ?_ hfresh hlisted
    simp only [indexTerms, Function.update_of_ne hne]
  · refine of_eq ?_
    rcases eq_or_ne a c with rfl | hne
    · simp only [indexTerms, Function.update_self, Option.isSome_some, hold]
    · simp only [indexTerms, Function.update_of_ne hne]

private theorem of_trail [LawfulMultiCurrency Tokens] (h : Trail (Moves₁ env) 0 s s')
    (hlinked : Linked s.books) : Linked s'.books ∧ Stays env a s.books s'.books :=
  preserves_of_moves (P := Stays env a s.books) (fun _ _ hmove hs => hs.trans (of_move hmove)) h
    hlinked (of_eq rfl)

end Stays

/-! ## What is owed -/

/-- The debts of a market, as they are kept. -/
def debtsOf (a : CurrencyId) (s : Loans AccountId CurrencyId Tokens) : IndexedDebts AccountId where
  index := (s.borrowIndex a).inner
  total := s.totalBorrows a
  principal who := (s.accountBorrows a who).principal
  since who := (s.accountBorrows a who).borrowIndex.inner

/-- At a borrow index, no debt of the market loses more by the rounding of its growth than it
gains by the rounding of the product. -/
def DebtsUncut (a : CurrencyId) (index : Rate) (s : Loans AccountId CurrencyId Tokens) : Prop :=
  ∀ who, Uncut FixedU128.DIV (s.accountBorrows a who).principal index.inner
    (s.accountBorrows a who).borrowIndex.inner

instance [Fintype AccountId] (s : Loans AccountId CurrencyId Tokens) :
    Decidable (DebtsUncut a index s) := inferInstanceAs (Decidable (∀ _, _))

/-- What the debts of a market are read from. -/
def creditTerms (a : CurrencyId) (s : Loans AccountId CurrencyId Tokens) :
    Bool × Rate × ℕ × (AccountId → BorrowSnapshot) :=
  ((s.markets a).isSome, s.borrowIndex a, s.totalBorrows a, s.accountBorrows a)

/-- The total of the borrows is covered by the debts. -/
structure Owed [Fintype AccountId] (a : CurrencyId) (s : Loans AccountId CurrencyId Tokens) :
    Prop where
  index : (s.markets a).isSome → (s.borrowIndex a).inner ≠ 0
  unlisted : (s.markets a).isSome = false →
    s.totalBorrows a = 0 ∧ ∀ who, (s.accountBorrows a who).principal = 0
  since : ∀ who, (s.accountBorrows a who).principal ≠ 0 →
    (s.accountBorrows a who).borrowIndex.inner ≠ 0
  covered : (debtsOf a s).Covered

namespace Owed

variable [Fintype AccountId] {s s' : Loans AccountId CurrencyId Tokens}
  {b b' : Books AccountId CurrencyId} {who : AccountId}

section

omit [DecidableEq AccountId] [DecidableEq CurrencyId] [MultiCurrency Tokens AccountId CurrencyId]
  [CurrencyConfig CurrencyId] [LoansConfig AccountId CurrencyId]

private theorem congr (h : creditTerms a s' = creditTerms a s) (hs : Owed a s) : Owed a s' := by
  simp only [creditTerms, Prod.mk.injEq] at h
  obtain ⟨hmarket, hindex, htotal, hdebts⟩ := h
  constructor
  · rw [hmarket, hindex]
    exact hs.index
  · rw [hmarket, htotal, hdebts]
    exact hs.unlisted
  · rw [hdebts]
    exact hs.since
  · have hterms : debtsOf a s' = debtsOf a s := by
      unfold debtsOf
      rw [hindex, htotal, hdebts]
    rw [hterms]
    exact hs.covered

/-- A debt that is not cut is read as at least what is owed. -/
theorem exact_le (hs : Owed a s) {n : ℕ} (huncut : DebtsUncut a (s.borrowIndex a) s)
    (hn : s.currentBorrowBalance who a = .ok ⟨n, a⟩) : (debtsOf a s).exact who ≤ n := by
  obtain ⟨hzero, rfl⟩ | ⟨-, hsince, hround⟩ := currentBorrowBalance_amount hn
  · have hprincipal : (s.accountBorrows a who).principal = 0 :=
      hzero.elim id fun h => by_contra fun hne => hs.since who hne h
    simp only [exact, debtsOf, hprincipal, Nat.cast_zero, zero_mul, zero_div, le_refl]
  · exact (huncut who).le FixedU128.DIV_pos.ne' hsince hround

/-- Where no debt is cut, the total is at most the sum of the debts as they are read. -/
theorem totalBorrows_le (hs : Owed a s) (huncut : DebtsUncut a (s.borrowIndex a) s)
    {balance : AccountId → ℕ}
    (hbalance : ∀ who, s.currentBorrowBalance who a = .ok ⟨balance who, a⟩) :
    s.totalBorrows a ≤ ∑ who, balance who := by
  have h : ((s.totalBorrows a : ℕ) : ℚ) ≤ ∑ who, (balance who : ℚ) :=
    le_trans hs.covered (Finset.sum_le_sum fun who _ => hs.exact_le huncut (hbalance who))
  exact_mod_cast h

private theorem covered_of_total_eq_zero (h : s.totalBorrows a = 0) : (debtsOf a s).Covered := by
  have hnonneg : (0 : ℚ) ≤ ∑ who, (debtsOf a s).exact who := Finset.sum_nonneg fun who _ => by
    unfold exact
    positivity
  have htotal : (((debtsOf a s).total : ℕ) : ℚ) = 0 := by
    rw [Nat.cast_eq_zero]
    exact h
  exact htotal.le.trans hnonneg

end

section

omit [DecidableEq AccountId] [DecidableEq CurrencyId] [CurrencyConfig CurrencyId]
  [LoansConfig AccountId CurrencyId]

private theorem genesis (tokens : Tokens) (maxRate minRate : Rate) :
    Owed a (genesis tokens maxRate minRate : Loans AccountId CurrencyId Tokens) where
  index h := by cases h
  unlisted _ := ⟨rfl, fun _ => rfl⟩
  since _ h := absurd rfl h
  covered := covered_of_total_eq_zero rfl

end

/-! ## Moves -/

section

omit [DecidableEq AccountId] [CurrencyConfig CurrencyId]

/-- Interest raises the total by no larger a factor than the debts. -/
theorem storeStatus {now : ℕ} {m : Market CurrencyId} {status : MarketStatus} (hs : Owed a s)
    (h : Grows s a m status) : Owed a (storeStatus a now status s) where
  index _ := by
    have hpos := Nat.pos_of_ne_zero h.index_ne_zero
    have hle := h.index_le
    simp only [Loans.storeStatus, Function.update_self]
    omega
  unlisted hnone := by
    have hsome := h.market
    rw [Option.isSome_eq_false_iff, Option.isNone_iff_eq_none] at hnone
    cases hnone.symm.trans hsome
  since := hs.since
  covered := by
    have hgrow := hs.covered.grow (i := status.borrowIndex.inner) (t := status.totalBorrows)
      h.index_ne_zero (h.totalBorrows ▸ roundedDown_le)
    have hterms : debtsOf a (Loans.storeStatus a now status s) =
        { debtsOf a s with index := status.borrowIndex.inner, total := status.totalBorrows } := by
      simp only [debtsOf, Loans.storeStatus, Function.update_self]
    rw [hterms]
    exact hgrow

end

section

omit [CurrencyConfig CurrencyId] [LoansConfig AccountId CurrencyId]

/-- A debt is written, and the total with it. -/
theorem setDebt {debt total current : ℕ} (hs : Owed a b)
    (huncut : DebtsUncut a (b.borrowIndex a) b)
    (hcurrent : b.currentBorrowBalance who a = .ok ⟨current, a⟩)
    (h : (∃ x, (b.markets a).isSome ∧ debt = current + x ∧ total = b.totalBorrows a + x) ∨
      (∃ x ≤ current, debt = current - x ∧ total = b.totalBorrows a - x)) :
    Owed a (setDebt a who debt total b) := by
  have hexact := hs.exact_le huncut hcurrent
  have hdebts : (Loans.setDebt a who debt total b).accountBorrows a =
      Function.update (b.accountBorrows a) who ⟨debt, b.borrowIndex a⟩ := Function.update_self ..
  have htotal : (Loans.setDebt a who debt total b).totalBorrows a = total :=
    Function.update_self ..
  -- nothing is owed to a market that is not listed
  have hunlisted (hnone : (b.markets a).isSome = false) : debt = 0 ∧ total = 0 := by
    obtain ⟨hzero, hprincipal⟩ := hs.unlisted hnone
    have hcurrent₀ : current = 0 := by
      obtain ⟨-, h⟩ | ⟨hne, -⟩ := currentBorrowBalance_amount hcurrent
      · exact h
      · exact absurd (hprincipal who) hne
    obtain ⟨x, hsome, -⟩ | ⟨x, hx, rfl, rfl⟩ := h
    · rw [hnone] at hsome
      cases hsome
    · omega
  refine ⟨hs.index, fun hnone => ⟨?_, fun j => ?_⟩, fun j hj => ?_, ?_⟩
  · rw [htotal]
    exact (hunlisted hnone).2
  · rw [hdebts]
    rcases eq_or_ne j who with rfl | hne
    · rw [Function.update_self]
      exact (hunlisted hnone).1
    · rw [Function.update_of_ne hne]
      exact (hs.unlisted hnone).2 j
  · rw [hdebts] at hj ⊢
    rcases eq_or_ne j who with rfl | hne
    · rw [Function.update_self] at hj ⊢
      refine hs.index (Bool.of_not_eq_false fun hnone => hj ?_)
      exact (hunlisted hnone).1
    · rw [Function.update_of_ne hne] at hj ⊢
      exact hs.since j hj
  · by_cases hzero : total = 0
    · exact covered_of_total_eq_zero (htotal.trans hzero)
    have hindex : (b.borrowIndex a).inner ≠ 0 :=
      hs.index (Bool.of_not_eq_false fun hnone => hzero (hunlisted hnone).2)
    have hterms : debtsOf a (Loans.setDebt a who debt total b) =
        { debtsOf a b with
          total := total
          principal := Function.update (debtsOf a b).principal who debt
          since := Function.update (debtsOf a b).since who (debtsOf a b).index } := by
      unfold debtsOf
      rw [htotal, hdebts]
      simp only [Function.apply_update (fun _ d => BorrowSnapshot.principal d),
        Function.apply_update (fun _ d => (BorrowSnapshot.borrowIndex d).inner)]
      rfl
    rw [hterms]
    refine hs.covered.write hindex ?_
    change (total : ℚ) - b.totalBorrows a ≤ debt - (debtsOf a b).exact who
    obtain ⟨x, -, rfl, rfl⟩ | ⟨x, hx, rfl, rfl⟩ := h
    · push_cast
      linarith
    · rw [Nat.cast_sub hx, Nat.cast_sub (by omega)]
      linarith

end

end Owed

/-! ## Runs -/

/-- No debt is cut at the index of the market, nor at the index it goes to. -/
structure Kept [Fintype AccountId] (a : CurrencyId) (later : Rate)
    (s : Loans AccountId CurrencyId Tokens) : Prop extends Owed a s where
  uncut : DebtsUncut a (s.borrowIndex a) s
  uncutLater : DebtsUncut a later s

/-- Where a market that is fresh is, its index is the later one. -/
def Toward (env : LoansEnv AccountId CurrencyId H256) (a : CurrencyId) (later : Rate)
    (s : Loans AccountId CurrencyId Tokens) : Prop :=
  Fresh env a s → (s.markets a).isSome → s.borrowIndex a = later

section

omit [DecidableEq AccountId] [DecidableEq CurrencyId] [MultiCurrency Tokens AccountId CurrencyId]
  [CurrencyConfig CurrencyId] [LoansConfig AccountId CurrencyId]

private theorem Stays.toward {later : Rate} {s s' : Loans AccountId CurrencyId Tokens}
    (h : Stays env a s s') (hs' : Toward env a later s') : Toward env a later s := by
  intro hfresh hlisted
  obtain ⟨hfresh', hlisted', hindex⟩ := h hfresh hlisted
  exact hindex.symm.trans (hs' hfresh' hlisted')

end

namespace Kept

variable [Fintype AccountId] {later : Rate} {s s' : Loans AccountId CurrencyId Tokens}
  {b b' : Books AccountId CurrencyId}

section

omit [DecidableEq AccountId] [DecidableEq CurrencyId] [MultiCurrency Tokens AccountId CurrencyId]
  [CurrencyConfig CurrencyId] [LoansConfig AccountId CurrencyId]

private theorem congr (h : creditTerms a s' = creditTerms a s) (hs : Kept a later s) :
    Kept a later s' := by
  have howed := hs.toOwed.congr h
  simp only [creditTerms, Prod.mk.injEq] at h
  obtain ⟨-, hindex, -, hdebts⟩ := h
  refine ⟨howed, ?_, ?_⟩
  · unfold DebtsUncut
    rw [hindex, hdebts]
    exact hs.uncut
  · unfold DebtsUncut
    rw [hdebts]
    exact hs.uncutLater

end

section

omit [DecidableEq AccountId] [CurrencyConfig CurrencyId]

private theorem accrueInterest {c : CurrencyId} (h : (accrueInterest env c).run s = .ok () s')
    (hlater : Toward env a later s') (hs : Kept a later s) : Kept a later s' := by
  rcases ne_or_eq a c with hne | rfl
  · refine hs.congr (run_accrueInterest_of_ne (f := creditTerms a) rfl (fun _ => ?_) h)
    simp only [creditTerms, Loans.storeStatus, Function.update_of_ne hne]
  have hfresh := fresh_accrueInterest h
  obtain ⟨-, rfl⟩ | ⟨-, -, rfl⟩ | ⟨-, hlt, status, hstatus, rfl⟩ := run_accrueInterest.mp h
  · refine hs.congr ?_
    rfl
  · exact hs
  · obtain ⟨m, hgrows⟩ := getMarketStatus_eq_ok hlt hstatus
    have hlisted : ((storeStatus a env.now status s).markets a).isSome :=
      Option.isSome_iff_exists.mpr ⟨m, hgrows.market⟩
    refine ⟨hs.toOwed.storeStatus hgrows, ?_, hs.uncutLater⟩
    rw [hlater hfresh hlisted]
    exact hs.uncutLater

private theorem accrual (h : Accrual env s s') (hlater : Toward env a later s')
    (hs : Kept a later s) :
    Kept a later s' := by
  unfold Accrual at h
  generalize hm : (0 : Unit) = m at h
  clear hm
  induction h with
  | refl => exact hs
  | cons hstep hrest ih =>
    obtain ⟨c, hrun⟩ := hstep
    exact ih hlater (hs.accrueInterest hrun ((Stays.of_accrual hrest).toward hlater))

end

section

omit [CurrencyConfig CurrencyId] [LoansConfig AccountId CurrencyId]

/-- A debt is written at the index of a market that is fresh. -/
theorem setDebt {c : CurrencyId} {who : AccountId} {debt total current : ℕ} (hs : Kept a later b)
    (hfresh : Fresh env c b) (hcurrent : b.currentBorrowBalance who c = .ok ⟨current, c⟩)
    (h : (∃ x, (b.markets c).isSome ∧ debt = current + x ∧ total = b.totalBorrows c + x) ∨
      (∃ x ≤ current, debt = current - x ∧ total = b.totalBorrows c - x))
    (hlater : Toward env a later (setDebt c who debt total b)) :
    Kept a later (setDebt c who debt total b) := by
  rcases ne_or_eq a c with hne | rfl
  · refine hs.congr ?_
    simp only [creditTerms, Loans.setDebt, update₂, Function.update_of_ne hne]
  have howed := hs.toOwed.setDebt hs.uncut hcurrent h
  have hdebts : (Loans.setDebt a who debt total b).accountBorrows a =
      Function.update (b.accountBorrows a) who ⟨debt, b.borrowIndex a⟩ := Function.update_self ..
  refine ⟨howed, fun j => ?_, fun j => ?_⟩
  · rw [hdebts]
    rcases eq_or_ne j who with rfl | hne
    · rw [Function.update_self]
      exact .self
    · rw [Function.update_of_ne hne]
      exact hs.uncut j
  · rw [hdebts]
    rcases eq_or_ne j who with rfl | hne
    · rw [Function.update_self]
      cases hlisted : (b.markets a).isSome with
      | true =>
        rw [← hlater hfresh hlisted]
        exact .self
      | false =>
        have hzero := (howed.unlisted hlisted).2 j
        rw [hdebts, Function.update_self] at hzero
        exact .of_eq_zero hzero
    · rw [Function.update_of_ne hne]
      exact hs.uncutLater j

end

section

omit [DecidableEq AccountId] [CurrencyConfig CurrencyId] [LoansConfig AccountId CurrencyId]

private theorem addMarket {c : CurrencyId} {m : Market CurrencyId} (hs : Kept a later b)
    (hnew : b.markets c = none) : Kept a later { b with
      markets := Function.update b.markets c (some m)
      underlyingAssetId := Function.update b.underlyingAssetId m.lendTokenId (some c)
      exchangeRate := Function.update b.exchangeRate c b.minExchangeRate
      borrowIndex := Function.update b.borrowIndex c .one } := by
  rcases ne_or_eq a c with hne | rfl
  · refine hs.congr ?_
    simp only [creditTerms, Function.update_of_ne hne]
  obtain ⟨htotal, hzero⟩ := hs.unlisted (by rw [hnew]; rfl)
  refine ⟨⟨fun _ => ?_, fun hnone => ?_, hs.since, Owed.covered_of_total_eq_zero htotal⟩,
    fun who => .of_eq_zero (hzero who), fun who => .of_eq_zero (hzero who)⟩
  · simp only [Function.update_self]
    decide
  · simp only [Function.update_self] at hnone
    cases hnone

end

/-- Every move keeps the debts, toward the later index. -/
theorem of_move (h : Move env b b') (hlater : Toward env a later b') (hs : Kept a later b) :
    Kept a later b' := by
  obtain ⟨b₁, b₂, h₁, haccrual, h₂⟩ | ⟨c, who, current, debt, total, hfresh, hcurrent, hwrite, rfl⟩ |
    ⟨c, n, rfl⟩ | ⟨c, m, hnew, rfl⟩ | ⟨c, m, hold, rfl⟩ :=
    h.market_cases (g := fun b => (creditTerms a b, indexTerms a b)) fun _ _ _ _ => rfl
  · rw [Prod.mk.injEq] at h₁ h₂
    exact ((hs.congr h₁.1).accrual haccrual ((Stays.of_eq h₂.2).toward hlater)).congr h₂.1
  · exact hs.setDebt hfresh hcurrent hwrite hlater
  · refine hs.congr ?_
    rfl
  · exact hs.addMarket hnew
  · refine hs.congr ?_
    rcases eq_or_ne a c with rfl | hne
    · simp only [creditTerms, Function.update_self, Option.isSome_some, hold]
    · simp only [creditTerms, Function.update_of_ne hne]

/-- A chain of moves keeps the debts, toward the index that it ends at. -/
theorem of_trail [LawfulMultiCurrency Tokens] (h : Trail (Moves₁ env) 0 s s')
    (hlinked : Linked s.books) (hlater : Toward env a later s'.books) (hs : Kept a later s.books) :
    Kept a later s'.books := by
  generalize hm : (0 : Unit) = m at h
  clear hm
  induction h with
  | refl => exact hs
  | cons hstep hrest ih =>
    have hmove := hstep hlinked
    have hlinked' := hmove.linked hlinked
    exact ih hlinked' hlater (hs.of_move hmove ((Stays.of_trail hrest hlinked').2.toward hlater))

end Kept

section Runs

variable [LawfulMultiCurrency Tokens] [Fintype AccountId]
  {s : Loans AccountId CurrencyId Tokens}

/-- No debt that there was before a step is cut at the index that the step leaves the market
at. -/
def StepUncut (a : CurrencyId) (s : Loans AccountId CurrencyId Tokens)
    (d : Dispatch AccountId CurrencyId H256) : Prop :=
  DebtsUncut a ((step s d).borrowIndex a) s

private theorem step_kept {d : Dispatch AccountId CurrencyId H256} (hlinked : Linked s.books)
    (hs : Kept a (s.borrowIndex a) s.books) (h : StepUncut a s d) :
    Linked (step s d).books ∧ Kept a ((step s d).borrowIndex a) (step s d).books := by
  obtain ⟨r, hrun⟩ | ⟨-, hsame⟩ := Call.commit_cases (dispatch d.1 d.2) s
  · have htrail := dispatch_moves d.2 s r _ hrun
    have hkept : Kept a ((step s d).borrowIndex a) s.books := ⟨hs.toOwed, hs.uncut, h⟩
    exact ⟨(Stays.of_trail (a := a) htrail hlinked).1,
      hkept.of_trail htrail hlinked fun _ _ => rfl⟩
  · rw [step, hsame]
    exact ⟨hlinked, hs⟩

instance (s : Loans AccountId CurrencyId Tokens) (d : Dispatch AccountId CurrencyId H256) :
    Decidable (StepUncut a s d) := inferInstanceAs (Decidable (DebtsUncut _ _ _))

/-- In a run where no debt of a market is ever cut, the total of its borrows is at most the sum
of the debts. -/
theorem run_totalBorrows_le (a : CurrencyId) (tokens : Tokens) (maxRate minRate : Rate)
    (ops : List (Dispatch AccountId CurrencyId H256))
    (h : Meets step (StepUncut a) (genesis tokens maxRate minRate) ops)
    (balance : AccountId → ℕ)
    (hbalance : ∀ who, (run step (genesis tokens maxRate minRate) ops).currentBorrowBalance who a =
      .ok ⟨balance who, a⟩) :
    (run step (genesis tokens maxRate minRate : Loans AccountId CurrencyId Tokens)
      ops).totalBorrows a ≤ ∑ who, balance who := by
  have hstep : ∀ (s : Loans AccountId CurrencyId Tokens) (d : Dispatch AccountId CurrencyId H256),
      Linked s.books ∧ Kept a (s.borrowIndex a) s.books → StepUncut a s d →
      Linked (step s d).books ∧ Kept a ((step s d).borrowIndex a) (step s d).books :=
    fun s d hs hd => step_kept hs.1 hs.2 hd
  have hgenesis : Kept a (FixedU128.zero) (genesis tokens maxRate minRate :
      Loans AccountId CurrencyId Tokens).books :=
    ⟨.genesis (books _).tokens maxRate minRate, fun _ => .of_eq_zero rfl, fun _ => .of_eq_zero rfl⟩
  have hkept := (run_invariant hstep ⟨linked_genesis tokens maxRate minRate, hgenesis⟩ h).2
  exact hkept.totalBorrows_le hkept.uncut hbalance

end Runs

namespace Sample

/-- Alice borrows after interest was accrued once, and it is accrued twice since. -/
def borrowed (amount time₁ time₂ time₃ : ℕ) : Run :=
  listing ++ [(envAt 1000, .mint bob .ibtc (10 * amount)),
    (envAt 1000, .mint alice .dot (10 * amount)), (envAt 1000, .depositAllCollateral alice .dot),
    (envAt time₁, .borrow alice .ibtc amount), (envAt time₂, .mint bob .ibtc 1000),
    (envAt time₃, .mint bob .ibtc 1000)]

/-- What only Alice owes. -/
def owed (amount : ℕ) : Holder → ℕ
  | .alice => amount
  | _ => 0

end Sample

/-- A debt of a thousand units. -/
theorem run_totalBorrows_le_alice :
    Meets step (StepUncut Sample.Asset.ibtc) (Sample.start 100000)
      (Sample.borrowed 1000 2000 3000 4000) ∧
    (run step (Sample.start 100000) (Sample.borrowed 1000 2000 3000 4000)).totalBorrows .ibtc ≤
      ∑ who, Sample.owed 1001 who := by
  have hcond : Meets step (StepUncut Sample.Asset.ibtc) (Sample.start 100000)
    (Sample.borrowed 1000 2000 3000 4000) := by decide +kernel
  refine ⟨hcond, run_totalBorrows_le Sample.Asset.ibtc _ _ _ _ hcond _ fun who => ?_⟩
  cases who <;> decide +kernel

/-- The growth of a large debt is rounded down by more than the total is. -/
theorem sum_debts_lt_totalBorrows : ∃ ops : Sample.Run, ∃ amount : ℕ,
    (∀ who, (run step (Sample.start (10 ^ 26)) ops).currentBorrowBalance who Sample.Asset.ibtc =
      .ok ⟨Sample.owed amount who, .ibtc⟩) ∧
    ∑ who, Sample.owed amount who <
      (run step (Sample.start (10 ^ 26)) ops).totalBorrows .ibtc := by
  refine ⟨Sample.borrowed (10 ^ 24) 2005 3000 4000, 1000001897832847654000000,
    fun who => ?_, by decide +kernel⟩
  cases who <;> decide +kernel

end Interbtc.Loans
