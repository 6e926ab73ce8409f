import Interbtc.Loans.Steps

/-!
# The collateral toggle

An account locks all its lend tokens of a kind or none of them: what is reserved is the
collateral and what other pallets hold, and collateral excludes everything else.
-/

namespace Interbtc.Loans

open Core MultiCurrency

variable {AccountId CurrencyId H256 Tokens : Type} [DecidableEq AccountId]
  [DecidableEq CurrencyId] [MultiCurrency Tokens AccountId CurrencyId]
  [CurrencyConfig CurrencyId] [LoansConfig AccountId CurrencyId]

/-- What an account has of a lend token, beside its collateral and what other pallets hold. -/
structure Toggle (d : AccountData) (collateral held : ℕ) : Prop where
  reserved : d.reserved = collateral + held
  free : collateral ≠ 0 → d.free = 0
  held : collateral ≠ 0 → held = 0

namespace Toggle

variable {d : AccountData} {collateral held x : ℕ}

/-- An account that can give something away has no collateral. -/
theorem collateral_eq_zero (h : Toggle d collateral held) (hcan : d.CanWithdraw x) (hx : x ≠ 0) :
    collateral = 0 := by
  by_contra hc
  have hfree := h.free hc
  have := hcan.resolve_left hx
  omega

private theorem debit (h : Toggle d 0 held) : Toggle (d.debit x) 0 held where
  reserved := h.reserved
  free hc := absurd rfl hc
  held hc := absurd rfl hc

private theorem credit (h : Toggle d 0 held) : Toggle (d.credit x) 0 held where
  reserved := h.reserved
  free hc := absurd rfl hc
  held hc := absurd rfl hc

/-- What an account with collateral receives and locks. -/
theorem credit_hold (h : Toggle d collateral held) (hc : collateral ≠ 0) :
    Toggle ((d.credit x).hold x) (collateral + x) held where
  reserved := by
    have := h.reserved
    change d.reserved + x = collateral + x + held
    omega
  free _ := by
    have := h.free hc
    change d.free + x - x = 0
    omega
  held _ := h.held hc

/-- An account locks all it has, where nothing is reserved. -/
theorem hold_all (h : Toggle d collateral held) (hzero : d.reserved = 0) :
    Toggle (d.hold d.free) (collateral + d.free) held where
  reserved := by
    have := h.reserved
    change d.reserved + d.free = collateral + d.free + held
    omega
  free _ := Nat.sub_self _
  held _ := by
    have := h.reserved
    omega

/-- An account takes back all its collateral. -/
theorem release_all (h : Toggle d collateral held) :
    Toggle (d.release collateral) 0 held where
  reserved := by
    have := h.reserved
    change d.reserved - collateral = 0 + held
    omega
  free hc := absurd rfl hc
  held hc := absurd rfl hc

/-- Lend tokens without collateral are burned. -/
theorem hold_slash (h : Toggle d 0 held) : Toggle ((d.hold x).slash x) 0 held where
  reserved := by
    have := h.reserved
    change d.reserved + x - x = 0 + held
    omega
  free hc := absurd rfl hc
  held hc := absurd rfl hc

/-- Lend tokens are taken out of the collateral and burned. -/
theorem release_hold_slash (h : Toggle d collateral held) (hx : x ≤ collateral)
    (hc : collateral ≠ 0) :
    Toggle (((d.release x).hold x).slash x) (collateral - x) held where
  reserved := by
    have := h.reserved
    change d.reserved - x + x - x = collateral - x + held
    omega
  free _ := by
    have hfree := h.free hc
    have hres := h.reserved
    change d.free + min x d.reserved - x = 0
    omega
  held _ := h.held hc

/-- Lend tokens are taken out of the collateral and given away in two parts. -/
theorem release_debit (h : Toggle d collateral held) (hx : x ≤ collateral) (hc : collateral ≠ 0) :
    Toggle ((d.release x).debit x) (collateral - x) held where
  reserved := by
    have := h.reserved
    change d.reserved - x = collateral - x + held
    omega
  free _ := by
    have hfree := h.free hc
    have hres := h.reserved
    change d.free + min x d.reserved - x = 0
    omega
  held _ := h.held hc

/-- Another pallet reserves what is free. -/
theorem hold_elsewhere (h : Toggle d collateral held) (hcan : d.CanWithdraw x) :
    Toggle (d.hold x) collateral (held + x) where
  reserved := by
    have := h.reserved
    change d.reserved + x = collateral + (held + x)
    omega
  free hc := by
    have := h.free hc
    change d.free - x = 0
    omega
  held hc := by
    have := h.held hc
    by_contra hx
    exact hc (h.collateral_eq_zero hcan (by omega))

/-- Another pallet releases what it reserved. -/
theorem release_elsewhere (h : Toggle d collateral held) (hx : x ≤ held) :
    Toggle (d.release x) collateral (held - x) where
  reserved := by
    have := h.reserved
    change d.reserved - x = collateral + (held - x)
    omega
  free hc := by
    have hfree := h.free hc
    have hheld := h.held hc
    change d.free + min x d.reserved = 0
    omega
  held hc := by
    have := h.held hc
    omega

end Toggle

/-- The toggle of every account, for one lend token. The reserve of the pallet has no
collateral. -/
structure Toggled (c : CurrencyId) (b : Books AccountId CurrencyId) : Prop where
  toggle : ∀ who, Toggle (account who b c) (b.accountDeposits c who) (b.heldElsewhere c who)
  incentive : b.accountDeposits c (LoansConfig.incentiveAccount CurrencyId) = 0

/-- What the toggle depends on. -/
def custody (b : Books AccountId CurrencyId) :
    TokenLedger AccountId CurrencyId × (CurrencyId → AccountId → ℕ) × (CurrencyId → AccountId → ℕ) :=
  (b.tokens, b.accountDeposits, b.heldElsewhere)

section

omit [CurrencyConfig CurrencyId] [LoansConfig AccountId CurrencyId]

private theorem custody_modifyAccount {b b' : Books AccountId CurrencyId} {who : AccountId}
    {d : CurrencyId} {f : AccountData → AccountData} (h : custody b' = custody b) :
    custody (modifyAccount who b' d f) = custody (modifyAccount who b d f) := by
  simp only [custody, Prod.mk.injEq] at h ⊢
  obtain ⟨htokens, hdeposits, hheld⟩ := h
  refine ⟨?_, hdeposits, hheld⟩
  unfold modifyAccount
  rw [htokens]

end

namespace Toggled

variable {c : CurrencyId} {b b' : Books AccountId CurrencyId} {x y : Amount CurrencyId}
  {who source destination : AccountId}

section

omit [DecidableEq AccountId] [DecidableEq CurrencyId] [CurrencyConfig CurrencyId]

private theorem congr (hb : custody b' = custody b) (h : Toggled c b) : Toggled c b' := by
  have htokens : b'.tokens = b.tokens := congrArg Prod.fst hb
  have hdeposits : b'.accountDeposits = b.accountDeposits := congrArg (·.2.1) hb
  have hheld : b'.heldElsewhere = b.heldElsewhere := congrArg (·.2.2) hb
  constructor
  · intro a
    rw [account, htokens, hdeposits, hheld]
    exact h.toggle a
  · rw [hdeposits]
    exact h.incentive

/-- Books that differ at one account only. -/
theorem of_account (h : Toggled c b) (who : AccountId)
    (hoff : ∀ a, a ≠ who → account a b' c = account a b c ∧
      b'.accountDeposits c a = b.accountDeposits c a ∧ b'.heldElsewhere c a = b.heldElsewhere c a)
    (hwho : Toggle (account who b' c) (b'.accountDeposits c who) (b'.heldElsewhere c who))
    (hdeposits : who = LoansConfig.incentiveAccount CurrencyId → b.accountDeposits c who = 0 →
      b'.accountDeposits c who = 0) : Toggled c b' := by
  constructor
  · intro a
    rcases eq_or_ne a who with rfl | ha
    · exact hwho
    · obtain ⟨h₁, h₂, h₃⟩ := hoff a ha
      rw [h₁, h₂, h₃]
      exact h.toggle a
  · rcases eq_or_ne (LoansConfig.incentiveAccount CurrencyId) who with hi | hi
    · rw [hi]
      exact hdeposits hi.symm (hi ▸ h.incentive)
    · rw [(hoff _ hi).2.1]
      exact h.incentive

/-- Books that agree on one lend token. -/
theorem of_same (h : Toggled c b) (hoff : ∀ a, account a b' c = account a b c ∧
    b'.accountDeposits c a = b.accountDeposits c a ∧
      b'.heldElsewhere c a = b.heldElsewhere c a) : Toggled c b' := by
  constructor
  · intro a
    obtain ⟨h₁, h₂, h₃⟩ := hoff a
    rw [h₁, h₂, h₃]
    exact h.toggle a
  · rw [(hoff _).2.1]
    exact h.incentive

private theorem genesis (tokens : Tokens) (maxRate minRate : Rate) :
    Toggled c (genesis tokens maxRate minRate : Loans AccountId CurrencyId Tokens).books where
  toggle _ := ⟨(Nat.zero_add _).symm, fun h => absurd rfl h, fun h => absurd rfl h⟩
  incentive := rfl

end

section

omit [CurrencyConfig CurrencyId]

/-- A change of one account, in the balances of another currency or as the toggle allows. -/
theorem modifyAccount {d : CurrencyId} {f : AccountData → AccountData} (h : Toggled c b)
    (hf : c = d → Toggle (f (account who b c)) (b.accountDeposits c who) (b.heldElsewhere c who)) :
    Toggled c (modifyAccount who b d f) := by
  refine h.of_account who (fun a ha => ⟨?_, rfl, rfl⟩) ?_ fun _ hzero => hzero
  · rw [account_modifyAccount, if_neg fun hc => ha hc.1]
  · rw [account_modifyAccount]
    by_cases hc : c = d
    · rw [if_pos ⟨rfl, hc⟩]
      exact hf hc
    · rw [if_neg fun hc' => hc hc'.2]
      exact h.toggle who

/-- A change of one account and of its collateral. -/
theorem setDeposits {n : ℕ} {f : AccountData → AccountData} (h : Toggled c b)
    (hf : c = x.currencyId → Toggle (f (account who b c)) n (b.heldElsewhere c who))
    (hn : c = x.currencyId → who = LoansConfig.incentiveAccount CurrencyId →
      b.accountDeposits c who = 0 → n = 0) :
    Toggled c (setDeposits x who (Loans.modifyAccount who b x.currencyId f) n) := by
  refine h.of_account who (fun a ha => ⟨?_, ?_, rfl⟩) ?_ fun hi hzero => ?_
  · rw [account_setDeposits, account_modifyAccount, if_neg fun hc => ha hc.1]
  · rw [accountDeposits_setDeposits, if_neg fun hc => ha hc.1]
    rfl
  · rw [account_setDeposits, account_modifyAccount, accountDeposits_setDeposits]
    by_cases hc : c = x.currencyId
    · rw [if_pos ⟨rfl, hc⟩, if_pos ⟨rfl, hc⟩]
      exact hf hc
    · rw [if_neg fun hc' => hc hc'.2, if_neg fun hc' => hc hc'.2]
      exact h.toggle who
  · rw [accountDeposits_setDeposits]
    split
    · rename_i hc
      exact hn hc.2 hi hzero
    · exact hzero

/-- A change of one account and of what other pallets hold there. -/
theorem modifyHeld {n : ℕ} {f : AccountData → AccountData} (h : Toggled c b)
    (hf : c = x.currencyId → Toggle (f (account who b c)) (b.accountDeposits c who) n) :
    Toggled c { Loans.modifyAccount who b x.currencyId f with
      heldElsewhere := update₂ b.heldElsewhere x.currencyId who n } := by
  refine h.of_account who (fun a ha => ⟨?_, rfl, ?_⟩) ?_ fun _ hzero => hzero
  · exact (account_modifyAccount ..).trans (if_neg fun hc => ha hc.1)
  · exact update₂_of_ne ha
  · change Toggle (account who (Loans.modifyAccount who b x.currencyId f) c) _
      (update₂ b.heldElsewhere x.currencyId who n c who)
    rw [account_modifyAccount]
    rcases ne_or_eq c x.currencyId with hc | hc
    · rw [if_neg fun hc' => hc hc'.2, update₂_of_ne_left hc]
      exact h.toggle who
    · rw [if_pos ⟨rfl, hc⟩, ← hc, update₂_self]
      exact hf hc

private theorem debit (h : Toggled c b) (hx : x.amount ≠ 0)
    (hcan : (account source b x.currencyId).CanWithdraw x.amount) :
    Toggled c (Loans.modifyAccount source b x.currencyId (·.debit x.amount)) := by
  refine h.modifyAccount ?_
  rintro rfl
  have hsource := h.toggle source
  have hzero := hsource.collateral_eq_zero hcan hx
  rw [hzero] at hsource ⊢
  exact hsource.debit

end

/-- What is received is locked where the rest is. -/
theorem receive_credit (hlend : CurrencyConfig.isLendToken c = true) (h : Toggled c b) :
    Toggled c (receive x who (Loans.modifyAccount who b x.currencyId (·.credit x.amount))) := by
  unfold receive
  split
  · rename_i hcond
    unfold lock hold
    rw [modifyAccount_modifyAccount]
    refine h.setDeposits ?_ ?_
    · rintro rfl
      exact (h.toggle who).credit_hold hcond.2
    · rintro rfl - hzero
      exact absurd hzero hcond.2
  · rename_i hcond
    refine h.modifyAccount ?_
    rintro rfl
    have hwho := h.toggle who
    have hzero : b.accountDeposits x.currencyId who = 0 := by
      by_contra hne
      exact hcond ⟨hlend, hne⟩
    rw [hzero] at hwho ⊢
    exact hwho.credit

private theorem receive_move (hlend : CurrencyConfig.isLendToken c = true) (h : Toggled c b)
    (hx : x.amount ≠ 0) (hcan : (account source b x.currencyId).CanWithdraw x.amount) :
    Toggled c (receive x destination (move x source destination b)) :=
  (h.debit hx hcan).receive_credit hlend

section

omit [DecidableEq AccountId] [CurrencyConfig CurrencyId]

private theorem setIssuance {d : CurrencyId} {n : ℕ} (h : Toggled c b) : Toggled c
    (setIssuance b d n) :=
  ⟨h.toggle, h.incentive⟩

end

private theorem receive_issue (hlend : CurrencyConfig.isLendToken c = true) (h : Toggled c b) :
    Toggled c (receive x who (issue x who b)) :=
  (h.setIssuance (d := x.currencyId) (n := issuance b x.currencyId + x.amount)).receive_credit hlend

section

omit [CurrencyConfig CurrencyId]

/-- Lend tokens are taken out of the collateral, if there is any, and burned. -/
theorem burn_hold {b₁ b₂ : Books AccountId CurrencyId} (h : Toggled c b)
    (hb₁ : (b.accountDeposits x.currencyId who = 0 ∧ b₁ = b) ∨
      (b.accountDeposits x.currencyId who ≠ 0 ∧
        x.amount ≤ b.accountDeposits x.currencyId who ∧ b₁ = unlock x who b))
    (hb₂ : custody b₂ = custody b₁) : Toggled c (burn x who (hold x who b₂)) := by
  unfold burn hold
  refine Toggled.setIssuance ?_
  rw [modifyAccount_modifyAccount]
  obtain ⟨hzero, rfl⟩ | ⟨hne, hle, rfl⟩ := hb₁
  · refine (h.congr hb₂).modifyAccount ?_
    rintro rfl
    have hwho := (h.congr hb₂).toggle who
    have hzero₂ : b₂.accountDeposits x.currencyId who = 0 :=
      (congrFun (congrFun (congrArg (·.2.1) hb₂) _) _).trans hzero
    rw [hzero₂] at hwho ⊢
    exact hwho.hold_slash
  · refine Toggled.congr (custody_modifyAccount hb₂) ?_
    have hunlock : Loans.modifyAccount who (unlock x who b) x.currencyId
        (fun d => (d.hold x.amount).slash x.amount) =
        Loans.setDeposits x who (Loans.modifyAccount who b x.currencyId
          fun d => ((d.release x.amount).hold x.amount).slash x.amount)
          (b.accountDeposits x.currencyId who - x.amount) :=
      congrArg (fun b' => Loans.setDeposits x who b' _) modifyAccount_modifyAccount
    rw [hunlock]
    refine h.setDeposits ?_ ?_
    · rintro rfl
      exact (h.toggle who).release_hold_slash hle hne
    · rintro rfl - hzero
      exact absurd hzero hne

/-- Collateral is unlocked to be given away. -/
theorem unlock_debit (h : Toggled c b) (hle : x.amount ≤ b.accountDeposits x.currencyId who)
    (hne : b.accountDeposits x.currencyId who ≠ 0) :
    Toggled c (Loans.modifyAccount who (unlock x who b) x.currencyId (·.debit x.amount)) := by
  have hunlock : Loans.modifyAccount who (unlock x who b) x.currencyId (·.debit x.amount) =
      Loans.setDeposits x who (Loans.modifyAccount who b x.currencyId
        fun d => (d.release x.amount).debit x.amount)
        (b.accountDeposits x.currencyId who - x.amount) :=
    congrArg (fun b' => Loans.setDeposits x who b' _) modifyAccount_modifyAccount
  rw [hunlock]
  refine h.setDeposits ?_ ?_
  · rintro rfl
    exact (h.toggle who).release_debit hle hne
  · rintro rfl - hzero
    exact absurd hzero hne

private theorem of_debit_zero {d : CurrencyId}
    (h : Toggled c (Loans.modifyAccount source b d (·.debit 0))) : Toggled c b := by
  refine h.of_same fun a => ⟨?_, rfl, rfl⟩
  rw [account_modifyAccount]
  split <;> rfl

private theorem unlock_of_ne (h : Toggled c b) (hc : c ≠ x.currencyId) : Toggled c
    (unlock x who b) :=
  h.setDeposits (fun he => absurd he hc) fun he _ => absurd he hc

/-- Accruals have no part in the toggle. -/
theorem accrual {env : LoansEnv AccountId CurrencyId H256} (hb : Accrual env b b') :
    custody b' = custody b :=
  hb.eq_of (fun _ _ => rfl) fun _ _ _ => rfl

end

/-- A part of what an account is to give away is transferred. -/
theorem receive_move_part {n : ℕ} (hlend : CurrencyConfig.isLendToken c = true)
    (hne : source ≠ destination)
    (h : Toggled c (Loans.modifyAccount source b x.currencyId (·.debit (x.amount + n)))) :
    Toggled c (Loans.modifyAccount source
      (receive x destination (move x source destination b)) x.currencyId (·.debit n)) := by
  have hb : Loans.modifyAccount source (receive x destination (move x source destination b))
      x.currencyId (·.debit n) =
      receive x destination (Loans.modifyAccount destination (Loans.modifyAccount source b
        x.currencyId (·.debit (x.amount + n))) x.currencyId (·.credit x.amount)) := by
    unfold move
    rw [← receive_modifyAccount hne, modifyAccount_comm hne, modifyAccount_modifyAccount]
    simp only [AccountData.debit, Nat.sub_sub]
  rw [hb]
  exact h.receive_credit hlend

/-- What is to be given away is given away, to another account. -/
theorem giveAway_part {n : ℕ} (hlend : CurrencyConfig.isLendToken c = true)
    (hne : source ≠ destination)
    (h : Toggled c (Loans.modifyAccount source b x.currencyId (·.debit (x.amount + n)))) :
    Toggled c (Loans.modifyAccount source (giveAway x source destination b) x.currencyId
      (·.debit n)) := by
  unfold giveAway
  split
  · rename_i hzero
    rw [hzero.resolve_right hne, Nat.zero_add] at h
    exact h
  · exact h.receive_move_part hlend hne

private theorem giveAway_of_ne (hlend : CurrencyConfig.isLendToken c = true) (h : Toggled c b)
    (hc : c ≠ x.currencyId) : Toggled c (giveAway x source destination b) := by
  unfold giveAway
  split
  · exact h
  · exact (h.modifyAccount fun he => absurd he hc).receive_credit hlend

/-- Seized collateral leaves the borrower for the liquidator and the reserve. -/
theorem seize_giveAway {borrower liquidator : AccountId}
    (hlend : CurrencyConfig.isLendToken c = true) (h : Toggled c b)
    (hxy : y.currencyId = x.currencyId) (hne : borrower ≠ liquidator)
    (hle : x.amount + y.amount ≤ b.accountDeposits x.currencyId borrower) :
    Toggled c (giveAway y borrower (LoansConfig.incentiveAccount CurrencyId)
      (giveAway x borrower liquidator
        (unlock ⟨x.amount + y.amount, x.currencyId⟩ borrower b))) := by
  rcases ne_or_eq c x.currencyId with hc | rfl
  · have hunlock : Toggled c (unlock ⟨x.amount + y.amount, x.currencyId⟩ borrower b) :=
      h.unlock_of_ne hc
    exact (hunlock.giveAway_of_ne hlend hc).giveAway_of_ne hlend (hxy ▸ hc)
  by_cases hzero : b.accountDeposits x.currencyId borrower = 0
  · have hx : x.amount = 0 := by omega
    have hy : y.amount = 0 := by omega
    rw [giveAway, if_pos (.inl hy), giveAway, if_pos (.inl hx), hx, hy]
    refine h.setDeposits (fun _ => h.toggle borrower) fun _ _ hd => ?_
    exact hd
  · have hborrower : borrower ≠ LoansConfig.incentiveAccount CurrencyId := by
      rintro rfl
      exact hzero h.incentive
    have hunlocked : Toggled x.currencyId (Loans.modifyAccount borrower
        (unlock ⟨x.amount + y.amount, x.currencyId⟩ borrower b) x.currencyId
        (·.debit (x.amount + y.amount))) := h.unlock_debit hle hzero
    have hfirst := hunlocked.giveAway_part hlend hne
    rw [← hxy] at hfirst hlend
    have hsecond := giveAway_part (n := 0) hlend hborrower hfirst
    rw [← hxy]
    exact hsecond.of_debit_zero

/-- Every move keeps the toggle. -/
theorem of_move {env : LoansEnv AccountId CurrencyId H256}
    (hlend : CurrencyConfig.isLendToken c = true) (hmove : Move env b b') (h : Toggled c b) :
    Toggled c b' := by
  cases hmove with
  | still => exact h
  | accrue a ha => exact h.congr (accrual (.single ⟨a, ha⟩))
  | transfer x source destination hx _ hcan => exact h.receive_move hlend hx hcan
  | mint v who _ => exact h.receive_issue hlend
  | redeem v who hb₁ haccrual _ => exact h.burn_hold hb₁ (accrual haccrual)
  | debt => exact h.of_same fun _ => ⟨rfl, rfl, rfl⟩
  | seize x y borrower liquidator hxy hne hle => exact h.seize_giveAway hlend hxy hne hle
  | lockAll d who hwho _ hreserved =>
    refine h.setDeposits ?_ fun _ hi _ => absurd (.inr (.inr hi)) hwho
    rintro rfl
    exact (h.toggle who).hold_all hreserved
  | unlockAll d who _ =>
    refine h.setDeposits ?_ fun _ _ _ => ?_
    · rintro rfl
      rw [Nat.sub_self]
      exact (h.toggle who).release_all
    · exact Nat.sub_self _
  | lockElsewhere x who _ hcan =>
    refine h.modifyHeld ?_
    rintro rfl
    exact (h.toggle who).hold_elsewhere hcan
  | unlockElsewhere x who _ hle =>
    refine h.modifyHeld ?_
    rintro rfl
    exact (h.toggle who).release_elsewhere hle
  | setReserves => exact h.of_same fun _ => ⟨rfl, rfl, rfl⟩
  | addMarket => exact h.of_same fun _ => ⟨rfl, rfl, rfl⟩
  | setMarket => exact h.of_same fun _ => ⟨rfl, rfl, rfl⟩

end Toggled

/-- In every run, an account with collateral in a lend token has no free lend tokens of that kind
and nothing else reserved, and what an account without collateral has reserved is what other
pallets reserved. -/
theorem run_collateral_toggle [LawfulMultiCurrency Tokens] {c : CurrencyId}
    (hlend : CurrencyConfig.isLendToken c = true) (tokens : Tokens) (maxRate minRate : Rate)
    (ops : List (Dispatch AccountId CurrencyId H256)) (who : AccountId) :
    let s : Loans AccountId CurrencyId Tokens := run step (genesis tokens maxRate minRate) ops
    (s.accountDeposits c who ≠ 0 → (balances s.tokens who c).free = 0 ∧
      (balances s.tokens who c).reserved = s.accountDeposits c who) ∧
    (s.accountDeposits c who = 0 →
      (balances s.tokens who c).reserved = s.heldElsewhere c who) := by
  intro s
  have hs : Toggled c s.books :=
    (run_preserves_books (fun env b b' hmove h => h.of_move hlend hmove)
      (linked_genesis tokens maxRate minRate) (.genesis tokens maxRate minRate) ops).2
  have hwho : Toggle (balances s.tokens who c) (s.accountDeposits c who) (s.heldElsewhere c who) :=
    hs.toggle who
  refine ⟨fun hc => ⟨hwho.free hc, ?_⟩, fun hc => ?_⟩
  · rw [hwho.reserved, hwho.held hc, Nat.add_zero]
  · rw [hwho.reserved, hc, Nat.zero_add]

/-- Alice locks what she lent, and lends more. -/
theorem run_collateral_toggle_alice :
    let s := run step (Sample.start 1000) (Sample.listing ++
      [(Sample.envAt 1000, .mint Sample.alice .dot 100),
        (Sample.envAt 1000, .depositAllCollateral Sample.alice .dot),
        (Sample.envAt 1000, .mint Sample.alice .dot 10)])
    s.accountDeposits .lendDot .alice = 5500 ∧ (balances s.tokens .alice .lendDot).free = 0 ∧
      (balances s.tokens .alice .lendDot).reserved = s.accountDeposits .lendDot .alice := by
  intro s
  have hdeposits : s.accountDeposits .lendDot .alice = 5500 := by decide +kernel
  refine ⟨hdeposits, (run_collateral_toggle (c := Sample.Asset.lendDot) rfl _ _ _ _ _).1 ?_⟩
  exact ne_of_eq_of_ne hdeposits (by decide)

end Interbtc.Loans
