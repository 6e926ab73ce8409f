import Interbtc.DexStable.Governance

/-!
# Runs of the stable exchange

One call panics, by an index that it does not check. Every other call leaves a storage with a
layout, which evolved from the one before. Between two calls the time goes on and tokens move.
-/

namespace Interbtc

open Core DexStable MultiCurrency WithdrawableCurrency

variable {AccountId CurrencyId Tokens : Type}

namespace DexStable

/-! ## The unchecked index -/

section Unchecked

variable {Γ : Layout} {s : DexStable AccountId CurrencyId Tokens} {who to' : AccountId}
  {poolId basePoolId inIndex outIndex dx minDy : ℕ}

private theorem run_findPool {id : ℕ} {e : StableError} {pool : StablePool AccountId CurrencyId}
    (h : s.pools id = some pool) : (findPool id e).run s = .ok pool s := by
  refine Call.run_bind_eq_ok.mpr ⟨s, s, rfl, ?_⟩
  exact Call.run_ofOption_eq_ok.mpr ⟨h, rfl⟩

variable [DecidableEq CurrencyId]

/-- The index of the currency that comes in is beyond the base pool, on which the meta pool is
built. -/
def SwapsBeyond (s : DexStable AccountId CurrencyId Tokens) (poolId basePoolId inIndex : ℕ) :
    Prop :=
  ∃ basePool pool, s.pools basePoolId = some basePool ∧ s.pools poolId = some (.metaPool pool) ∧
    pool.basePoolId = basePoolId ∧
    (lastIndexOf pool.info.currencyIds basePool.info.lpCurrencyId).isSome ∧
    basePool.info.currencyIds.length ≤ inIndex

variable [WithdrawableCurrency Tokens AccountId CurrencyId]

private theorem innerSwapPoolFromBase_panics (h : s.SwapsBeyond poolId basePoolId inIndex) :
    (innerSwapPoolFromBase who poolId basePoolId inIndex outIndex dx minDy to').run s =
      .error .panic s := by
  obtain ⟨basePool, pool, hb, hp, hid, hlp, hbeyond⟩ := h
  obtain ⟨lpIndex, hlp⟩ := Option.isSome_iff_exists.mp hlp
  refine Call.run_bind_eq_error.mpr (.inr ⟨basePool, s, run_findPool hb, ?_⟩)
  refine Call.run_bind_eq_error.mpr (.inr ⟨_, s, run_findPool hp, ?_⟩)
  refine Call.run_bind_eq_error.mpr (.inr ⟨(), s, Call.run_ensure_eq_ok.mpr ⟨hid, rfl⟩, ?_⟩)
  refine Call.run_bind_eq_error.mpr (.inr ⟨lpIndex, s, ?_, ?_⟩)
  · exact Call.run_ofOption_eq_ok.mpr ⟨hlp, rfl⟩
  refine Call.run_bind_eq_error.mpr (.inl ?_)
  rw [setNth, if_neg]
  · rfl
  · rw [List.length_replicate]
    exact not_lt.mpr hbeyond

private theorem innerSwapPoolFromBase_governs (hs : Γ.Fits s)
    (h : ¬ s.SwapsBeyond poolId basePoolId inIndex) :
    Γ.Governs (· = s)
      (innerSwapPoolFromBase who poolId basePoolId inIndex outIndex dx minDy to') := by
  refine Within.bind findPool_within fun basePool hb => ?_
  refine Within.bind findPool_within fun metaPool hp => ?_
  cases metaPool with
  | base pool => exact Triple.bind (Q := fun _ _ => False) (Triple.throw nofun) fun _ => ⟨nofun, nofun⟩
  | metaPool pool =>
    refine Within.bind check_within fun _ hid => ?_
    refine Within.bind (Within.ofOption (fun _ => nofun) fun _ h => h) fun lpIndex hlp => ?_
    have hin : inIndex < basePool.info.currencyIds.length := by
      by_contra hle
      exact h ⟨basePool, pool, hb, hp, hid, Option.isSome_of_eq_some hlp, not_lt.mp hle⟩
    refine Within.bind (arithmetic_within (setNth_noPanic ?_)) fun baseAmounts _ => ?_
    · rwa [List.length_replicate]
    refine (Layout.Guards.governs (Q := fun _ => True) ?_).mono (fun t ht => ht ▸ hs) fun _ _ h => h
    refine Within.bind innerAddLiquidity_guards fun baseLpAmount _ => ?_
    exact Within.ite (fun _ => innerSwap_guards) fun _ => Within.pure trivial

end Unchecked

/-! ## Dispatched calls -/

section Dispatch

variable {Γ : Layout} {s : DexStable AccountId CurrencyId Tokens} {origin : StableOrigin AccountId}
  {blockNumber : ℕ} {op : StableOp AccountId CurrencyId}

private theorem inTime_governs {α : Type} {deadline : ℕ}
    {f : AccountId → StableCall AccountId CurrencyId Tokens α}
    (hf : ∀ who, origin = .signed who → blockNumber < deadline → Γ.Governs (· = s) (f who)) :
    Γ.Governs (· = s) (inTime origin blockNumber deadline f) := by
  refine Within.bind ensureSigned_within fun who ho => Within.bind check_within fun _ hlt => ?_
  exact Triple.bind (hf who ho hlt) fun _ => Triple.pure fun _ h => h

private theorem Layout.Governs.of_eq {α : Type} {x : StableCall AccountId CurrencyId Tokens α}
    (hx : Γ.Governs Γ.Fits x) (hs : Γ.Fits s) : Γ.Governs (· = s) x :=
  hx.mono (fun _ ht => ht ▸ hs) fun _ _ h => h

variable [DecidableEq CurrencyId]

/-- The call is a swap from a base pool, in time, with an index beyond the currencies of the
base pool. -/
def SwapsOutOfRange (s : DexStable AccountId CurrencyId Tokens) (origin : StableOrigin AccountId)
    (blockNumber : ℕ) : StableOp AccountId CurrencyId → Prop
  | .swapPoolFromBase poolId basePoolId inIndex _ _ _ _ deadline =>
    origin ≠ .root ∧ blockNumber < deadline ∧ s.SwapsBeyond poolId basePoolId inIndex
  | _ => False

variable [WithdrawableCurrency Tokens AccountId CurrencyId] [DexStableConfig AccountId CurrencyId]

/-- A swap out of the base pool panics at an index out of range. -/
theorem dispatch_panics (h : s.SwapsOutOfRange origin blockNumber op) :
    (dispatch origin blockNumber op).run s = .error .panic s := by
  cases op with
  | swapPoolFromBase poolId basePoolId inIndex outIndex dx minDy receiver deadline =>
    obtain ⟨hroot, hlt, hbeyond⟩ := h
    cases origin with
    | root => exact absurd rfl hroot
    | signed who =>
      refine Call.run_bind_eq_error.mpr (.inr ⟨who, s, rfl, ?_⟩)
      refine Call.run_bind_eq_error.mpr (.inr ⟨(), s, Call.run_ensure_eq_ok.mpr ⟨hlt, rfl⟩, ?_⟩)
      exact Call.run_bind_eq_error.mpr (.inl (innerSwapPoolFromBase_panics hbeyond))
  | _ => exact h.elim

variable [DecidableEq AccountId]

/-- Every other call leaves a storage with a layout. -/
theorem dispatch_governs [LawfulWithdrawableCurrency Tokens] (hs : Γ.Fits s) (hΓ : Γ.Sound)
    (htokens : ∀ c who, (balances s.tokens who c).free ≤ totalIssuance s.tokens c)
    (h : ¬ s.SwapsOutOfRange origin blockNumber op) :
    Γ.Governs (· = s) (dispatch origin blockNumber op) := by
  cases op with
  | createBasePool => exact createBasePool_governs hs
  | createMetaPool => exact createMetaPool_governs hs
  | addLiquidity => exact inTime_governs fun _ _ _ => innerAddLiquidity_guards.governs.of_eq hs
  | swap => exact inTime_governs fun _ _ _ => innerSwap_guards.governs.of_eq hs
  | removeLiquidity =>
    exact inTime_governs fun _ _ _ => innerRemoveLiquidity_guards.governs.of_eq hs
  | removeLiquidityOneCurrency =>
    exact inTime_governs fun _ _ _ => innerRemoveLiquidityOneCurrency_guards.governs.of_eq hs
  | removeLiquidityImbalance =>
    refine inTime_governs fun who _ _ => ?_
    refine Triple.mono (P := fun t => Γ.Fits t ∧ t.tokens = s.tokens)
      (innerRemoveLiquidityImbalance_triple fun c => htokens c who) ?_ fun _ t ht => ?_
    · rintro t rfl
      exact ⟨hs, rfl⟩
    · exact ⟨Γ, ht.1, .refl Γ⟩
  | addPoolAndBasePoolLiquidity =>
    exact inTime_governs fun _ _ _ => innerAddPoolAndBasePoolLiquidity_guards.governs.of_eq hs
  | removePoolAndBasePoolLiquidity =>
    exact inTime_governs fun _ _ _ => innerRemovePoolAndBasePoolLiquidity_guards.governs.of_eq hs
  | removePoolAndBasePoolLiquidityOneCurrency =>
    exact inTime_governs fun _ _ _ =>
      innerRemovePoolAndBasePoolLiquidityOneCurrency_guards.governs.of_eq hs
  | swapPoolFromBase =>
    refine inTime_governs fun who ho hlt => innerSwapPoolFromBase_governs hs fun hbeyond => ?_
    refine h ⟨?_, hlt, hbeyond⟩
    rw [ho]
    exact nofun
  | swapPoolToBase => exact inTime_governs fun _ _ _ => innerSwapPoolToBase_guards.governs.of_eq hs
  | swapMetaPoolUnderlying =>
    exact inTime_governs fun _ _ _ => swapMetaPoolUnderlying_guards.governs.of_eq hs
  | updateFeeReceiver => exact updateFeeReceiver_governs.of_eq hs
  | setSwapFee => exact setSwapFee_governs.of_eq hs
  | setAdminFee => exact setAdminFee_governs.of_eq hs
  | rampA => exact (rampA_governs hΓ).of_eq hs
  | stopRampA => exact (stopRampA_governs hΓ).of_eq hs
  | withdrawAdminFee => exact withdrawAdminFee_governs.of_eq hs

/-- A call evolves the layout. -/
theorem dispatch_commit [LawfulWithdrawableCurrency Tokens] (hs : Γ.Fits s) (hΓ : Γ.Sound)
    (htokens : ∀ c who, (balances s.tokens who c).free ≤ totalIssuance s.tokens c) :
    ∃ Γ', Γ'.Fits ((dispatch origin blockNumber op).commit s) ∧ Γ.Evolves Γ' := by
  rcases (dispatch origin blockNumber op).commit_cases s with ⟨a, hrun⟩ | ⟨-, hsame⟩
  · refine (dispatch_governs hs hΓ htokens fun hout => ?_).ok s a _ rfl hrun
    rw [dispatch_panics hout] at hrun
    cases hrun
  · rw [hsame]
    exact ⟨Γ, hs, .refl Γ⟩

end Dispatch

end DexStable

/-! ## Runs -/

section Runs

variable [WithdrawableCurrency Tokens AccountId CurrencyId]

/-- The token balances and the time that a call finds. The tokens that were issued account for
the balances, and the time is kept in milliseconds with 64 bits. -/
structure StableSurroundings (AccountId CurrencyId Tokens : Type)
    [WithdrawableCurrency Tokens AccountId CurrencyId] where
  tokens : Tokens
  now : ℕ
  free_le : ∀ c who, (balances tokens who c).free ≤ totalIssuance tokens c
  now_le : now ≤ maxSeconds

/-- A call in its surroundings. -/
structure StableStep (AccountId CurrencyId Tokens : Type)
    [WithdrawableCurrency Tokens AccountId CurrencyId] extends
    StableSurroundings AccountId CurrencyId Tokens where
  origin : StableOrigin AccountId
  blockNumber : ℕ
  op : StableOp AccountId CurrencyId

namespace DexStable

variable {Γ : Layout} {s : DexStable AccountId CurrencyId Tokens}

/-- The storage has a layout, with ramps that have started. -/
def Laid (s : DexStable AccountId CurrencyId Tokens) : Prop :=
  ∃ Γ : Layout, Γ.Fits s ∧ Γ.Sound

private theorem Layout.Sound.later (hΓ : Γ.Sound) {now : ℕ} (h : Γ.now ≤ now) :
    ({ Γ with now := now } : Layout).Sound :=
  fun id l hl => (hΓ id l hl).later h

omit [WithdrawableCurrency Tokens AccountId CurrencyId] in
private theorem genesis_laid {tokens : Tokens} {now : ℕ} (hnow : now ≤ maxSeconds) :
    (genesis tokens now : DexStable AccountId CurrencyId Tokens).Laid :=
  ⟨⟨fun _ => none, now⟩, ⟨rfl, hnow, fun _ => .none, nofun, nofun⟩, nofun⟩

/-- The storage as a call finds it. -/
def within (s : DexStable AccountId CurrencyId Tokens)
    (w : StableSurroundings AccountId CurrencyId Tokens) : DexStable AccountId CurrencyId Tokens :=
  { s with tokens := w.tokens, now := w.now }

/-- Time does not go back. -/
def InOrder (s : DexStable AccountId CurrencyId Tokens)
    (x : StableStep AccountId CurrencyId Tokens) : Prop :=
  s.now ≤ x.now

instance (x : StableStep AccountId CurrencyId Tokens) : Decidable (s.InOrder x) :=
  inferInstanceAs (Decidable (s.now ≤ x.now))

private theorem Layout.Fits.within (hs : Γ.Fits s)
    (w : StableSurroundings AccountId CurrencyId Tokens) :
    ({ Γ with now := w.now } : Layout).Fits (s.within w) := by
  refine ⟨rfl, w.now_le, fun id => ?_, hs.older, hs.below⟩
  have hrel := hs.pools id
  change Option.Rel _ (s.pools id) (Γ id)
  generalize s.pools id = p, Γ id = o at hrel
  cases hrel with
  | none => exact .none
  | some hp => exact .some (hp.resized fun id l hl => ⟨l, hl, rfl⟩)

/-- The surroundings do not matter for the layout. -/
theorem Laid.within (h : s.Laid) {x : StableStep AccountId CurrencyId Tokens}
    (ho : s.InOrder x) : (s.within x.toStableSurroundings).Laid := by
  obtain ⟨Γ, hs, hΓ⟩ := h
  exact ⟨_, hs.within _, hΓ.later (hs.now ▸ ho)⟩

variable [DecidableEq CurrencyId] [DexStableConfig AccountId CurrencyId]

/-- A call in its surroundings is committed. -/
def step (s : DexStable AccountId CurrencyId Tokens) (x : StableStep AccountId CurrencyId Tokens) :
    DexStable AccountId CurrencyId Tokens :=
  (dispatch x.origin x.blockNumber x.op).commit (s.within x.toStableSurroundings)

variable [DecidableEq AccountId] [LawfulWithdrawableCurrency Tokens]

private theorem Laid.step (h : s.Laid) {x : StableStep AccountId CurrencyId Tokens}
    (ho : s.InOrder x) :
    (s.step x).Laid := by
  obtain ⟨Γ, hs, hΓ⟩ := h.within ho
  obtain ⟨Γ', hs', hevolves⟩ := dispatch_commit hs hΓ x.free_le
  exact ⟨Γ', hs', hevolves.sound hΓ⟩

/-- In every state that a run reaches the storage has a layout. -/
theorem run_laid {tokens : Tokens} {now : ℕ} {steps : List (StableStep AccountId CurrencyId Tokens)}
    (hnow : now ≤ maxSeconds) (h : Meets step InOrder (genesis tokens now) steps) :
    (run step (genesis tokens now) steps).Laid :=
  run_invariant (fun _ _ hs ho => hs.step ho) (genesis_laid hnow) h

end DexStable

end Runs

/-! ## A small exchange -/

namespace DexStable.Sample

/-- Accounts and currencies are numbers; pools use those from a hundred on. -/
instance : DexStableConfig ℕ ℕ where
  poolAccountId id := 100 + id
  poolAccountId_injective _ _ h := Nat.add_left_cancel h
  generateByPoolId id := 100 + id
  validatePooledCurrency currencies := decide currencies.Nodup
  poolCurrencyLimit := 10
  poolCurrencySymbolLimit := 10

/-- The storage of the examples. -/
abbrev Exchange : Type := DexStable ℕ ℕ (TokenLedger ℕ ℕ)

/-- The steps of the examples. -/
abbrev Step : Type := StableStep ℕ ℕ (TokenLedger ℕ ℕ)

/-- The tokens of a trader and of the first pool. -/
def ledger (holdings reserves : ℕ → ℕ) : TokenLedger ℕ ℕ where
  accounts who c := ⟨if who = 0 then holdings c else if who = 100 then reserves c else 0, 0, 0⟩
  issuance c := holdings c + reserves c

/-- Nobody holds more than there is. -/
theorem ledger_free_le (holdings reserves : ℕ → ℕ) (c who : ℕ) :
    (balances (ledger holdings reserves) who c).free ≤ totalIssuance (ledger holdings reserves) c := by
  change (if who = 0 then holdings c else if who = 100 then reserves c else 0) ≤
    holdings c + reserves c
  split
  · exact Nat.le_add_right _ _
  · split
    · exact Nat.le_add_left _ _
    · exact Nat.zero_le _

/-- A call at a time in seconds. -/
def at' (now : ℕ) (hnow : now ≤ 10 ^ 12) (holdings reserves : ℕ → ℕ) (origin : StableOrigin ℕ)
    (op : StableOp ℕ ℕ) : Step where
  tokens := ledger holdings reserves
  now := now
  free_le := ledger_free_le holdings reserves
  now_le := hnow.trans (by decide)
  origin := origin
  blockNumber := 0
  op := op

/-- No pools, and nothing issued. -/
def start : Exchange := genesis (ledger 0 0) 0

/-- What the trader and the pool hold before and after liquidity was added. -/
def before : ℕ → ℕ := fun c => if c < 3 then 1000 else 0

/-- What the trader holds after adding liquidity. -/
def after : ℕ → ℕ := fun c => if c < 2 then 900 else if c = 2 then 1000 else if c = 100 then 200 else 0

/-- What the pool holds then. -/
def pooled : ℕ → ℕ := fun c => if c < 2 then 100 else 0

theorem first_le : 1000 ≤ 10 ^ 12 := by decide

theorem second_le : 1010 ≤ 10 ^ 12 := by decide

theorem third_le : 1020 ≤ 10 ^ 12 := by decide

theorem fourth_le : 1030 ≤ 10 ^ 12 := by decide

/-- A base pool of two currencies, its first liquidity, and a meta pool on it. -/
def twoPools : List Step :=
  [at' 1000 first_le before 0 .root (.createBasePool [0, 1] [18, 18] 10 0 0 1 []),
    at' 1010 second_le before 0 (.signed 0) (.addLiquidity 0 [100, 100] 0 0 1),
    at' 1020 third_le after pooled .root (.createMetaPool [2, 100] [18, 18] 10 0 0 1 [])]

end DexStable.Sample

end Interbtc
