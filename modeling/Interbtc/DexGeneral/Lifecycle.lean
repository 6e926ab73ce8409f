import Interbtc.DexGeneral.Effects

/-!
# What the calls of bootstraps do

Contributions, refunds and rewards move between the accounts and the account that all pairs
share, and each call writes the records of one pair.
-/

namespace Interbtc.DexGeneral

open Core MultiCurrency

variable {AccountId AssetId Tokens : Type} [DecidableEq AccountId] [LinearOrder AssetId]
  [WithdrawableCurrency Tokens AccountId AssetId] [LawfulWithdrawableCurrency Tokens]
  [DexGeneralConfig AccountId AssetId]
  {s s' t : DexGeneral AccountId AssetId Tokens} {asset₀ asset₁ : AssetId} {who : AccountId}
  {u : Unit}

omit [DecidableEq AccountId] [LawfulWithdrawableCurrency Tokens]
  [DexGeneralConfig AccountId AssetId] in
/-- A payment changes the free balances. -/
theorem freeBalance_pays {w : Flow AccountId AssetId} (h : Pays w s t) (asset : AssetId)
    (who : AccountId) :
    (t.freeBalance asset who : ℤ) = s.freeBalance asset who + w asset who := by
  rw [freeBalance_eq_held, freeBalance_eq_held, h.held]
  rfl

/-- An amount that moves from one account to another. -/
def moves (asset : AssetId) (source destination : AccountId) (x : ℕ) : Flow AccountId AssetId :=
  flow asset destination x - flow asset source x

/-- Amounts of both assets of a pair that move from one account to another. -/
def movesBoth (pair : AssetId × AssetId) (source destination : AccountId) (x : ℕ × ℕ) :
    Flow AccountId AssetId :=
  moves pair.1 source destination x.1 + moves pair.2 source destination x.2

/-- The part of the amounts of a pair that is in one asset. -/
def inAsset (pair : AssetId × AssetId) (amounts : ℕ × ℕ) (asset : AssetId) : ℕ :=
  (if asset = pair.1 then amounts.1 else 0) + if asset = pair.2 then amounts.2 else 0

section Moves

variable {source destination w : AccountId} {pair : AssetId × AssetId} {asset : AssetId}

section

omit [DexGeneralConfig AccountId AssetId]

/-- Who is not the source of a move does not lose. -/
theorem moves_nonneg {x : ℕ} {c : AssetId} (h : w ≠ source) :
    0 ≤ moves c source destination x asset w := by
  rw [moves, Pi.sub_apply, Pi.sub_apply, flow_of_ne h, sub_zero]
  exact flow_nonneg

/-- Who is not the source of the moves does not lose. -/
theorem sum_moves_nonneg {ι : Type} {es : List ι} {a : ι → AssetId} {x : ι → ℕ}
    (h : w ≠ source) (asset : AssetId) :
    0 ≤ (es.map fun e => moves (a e) source destination (x e)).sum asset w := by
  induction es with
  | nil => exact le_rfl
  | cons e es ih =>
    rw [List.map_cons, List.sum_cons]
    exact add_nonneg (moves_nonneg h) ih

/-- What one account pays of every entry is the amount of each asset. -/
theorem sum_moves_source {entries : OrderedMap AssetId ℕ} {f : ℕ → ℕ} (hf : f 0 = 0)
    (hne : source ≠ destination) (asset : AssetId) :
    (entries.entries.map fun e => moves e.1 source destination (f e.2)).sum asset source =
      -(f ((entries.lookup asset).getD 0) : ℤ) := by
  have hsum : ∀ es : List (AssetId × ℕ),
      (es.map fun e => moves e.1 source destination (f e.2)).sum asset source =
        -(es.map fun e => if e.1 = asset then (f e.2 : ℤ) else 0).sum := by
    intro es
    induction es with
    | nil => rfl
    | cons e es ih =>
      rw [List.map_cons, List.sum_cons, List.map_cons, List.sum_cons, Pi.add_apply, Pi.add_apply,
        ih, moves, Pi.sub_apply, Pi.sub_apply, flow_of_ne hne, flow_at, neg_add]
      simp only [eq_comm, zero_sub]
  rw [hsum, OrderedMap.sum_entries (fun x => (f x : ℤ))]
  cases entries.lookup asset with
  | none => simp only [Option.elim_none, Option.getD_none, hf, Nat.cast_zero]
  | some x => rfl

/-- Who is not the source of the two moves does not lose. -/
theorem movesBoth_nonneg {x : ℕ × ℕ} (h : w ≠ source) (asset : AssetId) :
    0 ≤ movesBoth pair source destination x asset w :=
  add_nonneg (moves_nonneg h) (moves_nonneg h)

/-- The destination gets both amounts. -/
theorem movesBoth_destination {x : ℕ × ℕ} (hne : destination ≠ source) (asset : AssetId) :
    movesBoth pair source destination x asset destination = (inAsset pair x asset : ℤ) := by
  simp only [movesBoth, Pi.add_apply, moves, Pi.sub_apply, flow_of_ne hne, flow_at, sub_zero,
    inAsset, Nat.cast_add, Nat.cast_ite, Nat.cast_zero]

/-- The source loses both amounts. -/
theorem movesBoth_source {x : ℕ × ℕ} (hne : source ≠ destination) (asset : AssetId) :
    movesBoth pair source destination x asset source = -(inAsset pair x asset : ℤ) := by
  simp only [movesBoth, Pi.add_apply, moves, Pi.sub_apply, flow_of_ne hne, flow_at, zero_sub,
    inAsset, Nat.cast_add, Nat.cast_ite, Nat.cast_zero, neg_add]

end

/-- Amounts of a pair add up in each asset. -/
theorem inAsset_add (pair : AssetId × AssetId) (x y : ℕ × ℕ) (asset : AssetId) :
    inAsset pair (x + y) asset = inAsset pair x asset + inAsset pair y asset := by
  simp only [inAsset, Prod.fst_add, Prod.snd_add]
  split_ifs <;> omega

/-- Nothing of a pair is nothing in each asset. -/
theorem inAsset_zero (pair : AssetId × AssetId) (asset : AssetId) :
    inAsset pair (0, 0) asset = 0 := by
  simp only [inAsset, ite_self, add_zero]

end Moves

omit [DecidableEq AccountId] [LawfulWithdrawableCurrency Tokens]
  [DexGeneralConfig AccountId AssetId] in
private theorem run_forM_pays {β : Type} {f : β → DexGeneralCall AccountId AssetId Tokens Unit}
    {w : β → Flow AccountId AssetId} (hf : ∀ b s s', (f b).run s = .ok () s' → Pays (w b) s s')
    {bs : List β} (h : (bs.forM f).run s = .ok u s') : Pays (bs.map w).sum s s' := by
  induction bs generalizing s with
  | nil =>
    obtain ⟨-, rfl⟩ := Call.run_pure_eq_ok.mp h
    exact .refl s
  | cons b bs ih =>
    obtain ⟨_, t, hb, hbs⟩ := Call.run_bind_eq_ok.mp h
    rw [List.map_cons, List.sum_cons]
    exact (hf b s t hb).trans (ih hbs)

/-! ## Contributions -/

/-- A contribution is moved in and recorded, within the capacity. -/
theorem run_doBootstrapContribute {now amount₀ amount₁ : ℕ}
    (h : (doBootstrapContribute now who asset₀ asset₁ amount₀ amount₁).run s = .ok u s') :
    ∃ params x t, s.pairStatuses (sortAssetId asset₀ asset₁) = .bootstrap params ∧
      now < params.endBlockNumber ∧
      params.accumulatedSupply.1 + x.1 ≤ maxBalance ∧
      params.accumulatedSupply.2 + x.2 ≤ maxBalance ∧
      Pays (movesBoth (sortAssetId asset₀ asset₁) who
        (DexGeneralConfig.bootstrapAccountId AssetId) x) s t ∧
      s' = { t with
        pairStatuses := Function.update s.pairStatuses (sortAssetId asset₀ asset₁)
          (.bootstrap { params with accumulatedSupply := params.accumulatedSupply + x })
        bootstrapPersonalSupply :=
          Function.update s.bootstrapPersonalSupply (sortAssetId asset₀ asset₁)
            (Function.update (s.bootstrapPersonalSupply (sortAssetId asset₀ asset₁)) who
              (some ((s.bootstrapPersonalSupply (sortAssetId asset₀ asset₁) who).getD (0, 0) +
                x))) } := by
  simp only [doBootstrapContribute, setPairStatus, setPersonalSupply, Call.run_bind_eq_ok,
    Call.run_reads_eq_ok, Call.run_ensure_eq_ok, Call.run_get_eq_ok, Call.run_ofOption_eq_ok,
    Call.run_modify_eq_ok, bootstrapPair_eq_ok, checkedAdd_eq_some] at h
  obtain ⟨params, _, ⟨hp, rfl⟩, -, _, ⟨hnow, rfl⟩, x₀, _, ⟨-, rfl⟩, x₁, _, ⟨-, rfl⟩, -, _,
    ⟨-, rfl⟩, _, _, ⟨rfl, rfl⟩, _, _, ⟨⟨-, rfl⟩, rfl⟩, _, _, ⟨⟨-, rfl⟩, rfl⟩, _, s₁, hpay₀, _, s₂,
    hpay₁, _, _, ⟨⟨hle₀, rfl⟩, rfl⟩, _, _, ⟨⟨hle₁, rfl⟩, rfl⟩, -, _, rfl, rfl⟩ := h
  have hpays := (run_transfer hpay₀).1.trans (run_transfer hpay₁).1
  refine ⟨params, (x₀, x₁), s₂, hp, hnow, hle₀, hle₁, hpays, ?_⟩
  rw [hpays.storage]
  rfl

/-! ## End -/

/-- What was contributed is moved to the pair, for liquidity that is shared later. -/
theorem run_doEndBootstrap {now : ℕ}
    (h : (doEndBootstrap now asset₀ asset₁).run s = .ok u s') :
    ∃ params lp t, s.pairStatuses (sortAssetId asset₀ asset₁) = .bootstrap params ∧
      params.endBlockNumber ≤ now ∧
      params.targetSupply.1 ≤ params.accumulatedSupply.1 ∧
      params.targetSupply.2 ≤ params.accumulatedSupply.2 ∧
      s.liquidityPairs (sortAssetId asset₀ asset₁) = some lp ∧
      0 < calculateLiquidity params.accumulatedSupply.1 params.accumulatedSupply.2 0 0 0 ∧
      Pays (movesBoth (sortAssetId asset₀ asset₁) params.pairAccount
          (DexGeneralConfig.subAccount (sortAssetId asset₀ asset₁)) params.accumulatedSupply +
        flow lp (DexGeneralConfig.subAccount (sortAssetId asset₀ asset₁))
          (calculateLiquidity params.accumulatedSupply.1 params.accumulatedSupply.2 0 0 0)) s t ∧
      s' = { t with
        pairStatuses := Function.update s.pairStatuses (sortAssetId asset₀ asset₁)
          (.trading ⟨DexGeneralConfig.subAccount (sortAssetId asset₀ asset₁),
            calculateLiquidity params.accumulatedSupply.1 params.accumulatedSupply.2 0 0 0,
            DEFAULT_FEE_RATE⟩)
        bootstrapEndStatus := Function.update s.bootstrapEndStatus (sortAssetId asset₀ asset₁)
          (.bootstrap params) } := by
  simp only [doEndBootstrap, setPairStatus, Call.run_bind_eq_ok, Call.run_reads_eq_ok,
    Call.run_ensure_eq_ok, Call.run_get_eq_ok, Call.run_ofOption_eq_ok, Call.run_modify_eq_ok,
    bootstrapPair_eq_ok, pairAccountId_fst_snd] at h
  obtain ⟨params, _, ⟨hp, rfl⟩, -, _, ⟨⟨hend, htarget₀, htarget₁⟩, rfl⟩, -, _, ⟨hpos, rfl⟩, _, _,
    ⟨rfl, rfl⟩, lp, _, ⟨hlp, rfl⟩, _, s₁, hpay₀, _, s₂, hpay₁, _, s₃, hmint, -, _, rfl, rfl⟩ := h
  have hpays := ((run_transfer hpay₀).1.trans (run_transfer hpay₁).1).trans (run_deposit hmint)
  refine ⟨params, lp, s₃, hp, hend, htarget₀, htarget₁, hlp, hpos, hpays, ?_⟩
  rw [hpays.storage]

/-! ## Claims -/

private theorem ownerReward_eq_some {share reward total x : ℕ}
    (h : ownerReward share reward total = some x) :
    total ≠ 0 ∧ x = share * reward / total := by
  simp only [ownerReward, Option.bind_eq_bind, Option.bind_eq_some_iff, checkedMul_eq_some,
    checkedDiv_eq_some, tryInto_eq_some] at h
  obtain ⟨_, ⟨-, rfl⟩, _, ⟨hne, rfl⟩, -, rfl⟩ := h
  exact ⟨hne, rfl⟩

/-- The rewards that a claim pays. -/
def rewardFlow (rewards : OrderedMap AssetId ℕ) (holder owner : AccountId) (share total : ℕ) :
    Flow AccountId AssetId :=
  (rewards.entries.map fun e => moves e.1 holder owner (share * e.2 / total)).sum

omit [DexGeneralConfig AccountId AssetId] in
private theorem run_bootstrapDistributeReward {holder : AccountId} {share total : ℕ}
    (h : (bootstrapDistributeReward who holder asset₀ asset₁ share total).run s = .ok u s') :
    Pays (rewardFlow (s.bootstrapRewards (sortAssetId asset₀ asset₁)) holder who share total)
      s s' := by
  rw [bootstrapDistributeReward, Call.run_bind_eq_ok] at h
  obtain ⟨_, _, hget, h⟩ := h
  obtain ⟨rfl, rfl⟩ := Call.run_get_eq_ok.mp hget
  refine run_forM_pays (fun e s s' he => ?_) h
  simp only [Call.run_bind_eq_ok, Call.run_ofOption_eq_ok] at he
  obtain ⟨_, _, ⟨hreward, rfl⟩, hpay⟩ := he
  obtain ⟨-, rfl⟩ := ownerReward_eq_some hreward
  exact (run_transfer hpay).1

/-- A claim pays a share of the liquidity and of the rewards, and is forgotten. -/
theorem run_doBootstrapClaim {now : ℕ} {recipient : AccountId}
    (h : (doBootstrapClaim now who recipient asset₀ asset₁).run s = .ok u s') :
    ∃ p contribution params share lp total t,
      s.pairStatuses (sortAssetId asset₀ asset₁) = .trading p ∧
      s.bootstrapPersonalSupply (sortAssetId asset₀ asset₁) who = some contribution ∧
      s.bootstrapEndStatus (sortAssetId asset₀ asset₁) = .bootstrap params ∧
      bootstrapDisable now params = false ∧
      claimLiquidity contribution params.accumulatedSupply = some share ∧
      s.liquidityPairs (sortAssetId asset₀ asset₁) = some lp ∧
      bootstrapTotalLiquidity params.accumulatedSupply = some total ∧
      Pays (moves lp (DexGeneralConfig.subAccount (sortAssetId asset₀ asset₁)) recipient share +
        rewardFlow (s.bootstrapRewards (sortAssetId asset₀ asset₁)) params.pairAccount who share
          total) s t ∧
      s' = { t with
        bootstrapPersonalSupply :=
          Function.update s.bootstrapPersonalSupply (sortAssetId asset₀ asset₁)
            (Function.update (s.bootstrapPersonalSupply (sortAssetId asset₀ asset₁)) who
              none) } := by
  simp only [doBootstrapClaim, setPersonalSupply, Call.run_bind_eq_ok, Call.run_get_eq_ok,
    Call.run_ensure_eq_ok, Call.run_ofOption_eq_ok, Call.run_ofExcept_eq_ok,
    Call.run_modify_eq_ok, bootstrapEnded_eq_ok, isTrading_eq_true, pairAccountId_fst_snd] at h
  obtain ⟨_, _, ⟨rfl, rfl⟩, -, _, ⟨⟨p, hp⟩, rfl⟩, contribution, _, ⟨hpersonal, rfl⟩, params, _,
    ⟨hended, rfl⟩, -, _, ⟨hdisable, rfl⟩, share, _, ⟨hshare, rfl⟩, lp, _, ⟨hlp, rfl⟩, _, s₁, hpay,
    total, _, ⟨htotal, rfl⟩, _, s₂, hrewards, rfl⟩ := h
  have hpaid := (run_transfer hpay).1
  have hpays := hpaid.trans (run_bootstrapDistributeReward hrewards)
  have hsame : s₁.bootstrapRewards = s.bootstrapRewards := by rw [hpaid.storage]
  rw [sortAssetId_fst_snd, hsame] at hpays
  refine ⟨p, contribution, params, share, lp, total, s₂, hp, hpersonal, hended, hdisable, hshare,
    hlp, htotal, hpays, ?_⟩
  rw [hpays.storage]

/-! ## Refunds -/

/-- The bootstrap has failed and can be created again. -/
def Failed (s : DexGeneral AccountId AssetId Tokens) (now : ℕ) (pair : AssetId × AssetId)
    (params : BootstrapParameter AccountId) : Prop :=
  s.pairStatuses pair = .bootstrap params ∧ bootstrapDisable now params = true

/-- The bootstrap has failed, and the pair was created to trade. -/
def Replaced (s : DexGeneral AccountId AssetId Tokens) (now : ℕ) (pair : AssetId × AssetId)
    (params : BootstrapParameter AccountId) : Prop :=
  (∀ params, s.pairStatuses pair ≠ .bootstrap params) ∧
    s.bootstrapEndStatus pair = .bootstrap params ∧ bootstrapDisable now params = true

section

omit [DecidableEq AccountId] [WithdrawableCurrency Tokens AccountId AssetId]
  [LawfulWithdrawableCurrency Tokens] [DexGeneralConfig AccountId AssetId]

private theorem run_ensureRefundable {now : ℕ} {pair : AssetId × AssetId}
    (h : (ensureRefundable now pair).run s = .ok u s') :
    s = s' ∧ ∃ params, Failed s now pair params ∨ Replaced s now pair params := by
  rw [ensureRefundable, Call.run_bind_eq_ok] at h
  obtain ⟨_, _, hget, h⟩ := h
  obtain ⟨rfl, rfl⟩ := Call.run_get_eq_ok.mp hget
  cases hp : s.pairStatuses pair with
  | bootstrap params =>
    rw [hp] at h
    obtain ⟨hdisable, rfl⟩ := Call.run_ensure_eq_ok.mp h
    exact ⟨rfl, params, .inl ⟨hp, hdisable⟩⟩
  | trading | disable =>
    rw [hp] at h
    cases hended : s.bootstrapEndStatus pair with
    | bootstrap params =>
      rw [hended] at h
      obtain ⟨hdisable, rfl⟩ := Call.run_ensure_eq_ok.mp h
      exact ⟨rfl, params, .inr ⟨fun q hq => (nomatch hp.symm.trans hq), hended, hdisable⟩⟩
    | trading | disable =>
      rw [hended] at h
      exact absurd h Call.run_throw_eq_ok.mp

private theorem run_decreaseAccumulated {pair : AssetId × AssetId} {contribution : ℕ × ℕ}
    (h : (decreaseAccumulated pair contribution).run s = .ok u s') :
    (∃ params, s.pairStatuses pair = .bootstrap params ∧
        contribution ≤ params.accumulatedSupply ∧ s' = { s with
          pairStatuses := Function.update s.pairStatuses pair (.bootstrap { params with
            accumulatedSupply := params.accumulatedSupply - contribution }) }) ∨
      (∀ params, s.pairStatuses pair ≠ .bootstrap params) ∧ s' = s := by
  rw [decreaseAccumulated, Call.run_bind_eq_ok] at h
  obtain ⟨_, _, hget, h⟩ := h
  obtain ⟨rfl, rfl⟩ := Call.run_get_eq_ok.mp hget
  cases hp : s.pairStatuses pair with
  | bootstrap params =>
    rw [hp] at h
    simp only [setPairStatus, Call.run_bind_eq_ok, Call.run_ofOption_eq_ok,
      Call.run_modify_eq_ok, checkedSub_eq_some] at h
    obtain ⟨_, _, ⟨⟨hle₀, rfl⟩, rfl⟩, _, _, ⟨⟨hle₁, rfl⟩, rfl⟩, rfl⟩ := h
    exact .inl ⟨params, rfl, ⟨hle₀, hle₁⟩, rfl⟩
  | trading | disable =>
    rw [hp] at h
    obtain ⟨-, rfl⟩ := Call.run_pure_eq_ok.mp h
    exact .inr ⟨fun _ hq => (nomatch hq), rfl⟩

end

/-- A refund gives back a contribution. Where the bootstrap can still be created again, the
contribution is taken off what was accumulated. -/
theorem run_doBootstrapRefund {now : ℕ}
    (h : (doBootstrapRefund now who asset₀ asset₁).run s = .ok u s') :
    ∃ contribution params t,
      s.bootstrapPersonalSupply (sortAssetId asset₀ asset₁) who = some contribution ∧
      Pays (movesBoth (sortAssetId asset₀ asset₁) (DexGeneralConfig.bootstrapAccountId AssetId) who
        contribution) s t ∧
      (Failed s now (sortAssetId asset₀ asset₁) params ∧
          contribution ≤ params.accumulatedSupply ∧ s' = { t with
            pairStatuses := Function.update s.pairStatuses (sortAssetId asset₀ asset₁)
              (.bootstrap { params with
                accumulatedSupply := params.accumulatedSupply - contribution })
            bootstrapPersonalSupply :=
              Function.update s.bootstrapPersonalSupply (sortAssetId asset₀ asset₁)
                (Function.update (s.bootstrapPersonalSupply (sortAssetId asset₀ asset₁)) who
                  none) } ∨
        Replaced s now (sortAssetId asset₀ asset₁) params ∧ s' = { t with
          bootstrapPersonalSupply :=
            Function.update s.bootstrapPersonalSupply (sortAssetId asset₀ asset₁)
              (Function.update (s.bootstrapPersonalSupply (sortAssetId asset₀ asset₁)) who
                none) }) := by
  simp only [doBootstrapRefund, setPersonalSupply, Call.run_bind_eq_ok, Call.run_get_eq_ok,
    Call.run_ofOption_eq_ok, Call.run_modify_eq_ok] at h
  obtain ⟨_, s₁, hensure, _, _, ⟨rfl, rfl⟩, contribution, _, ⟨hpersonal, rfl⟩, _, s₂, hpay₀, _, s₃,
    hpay₁, _, s₄, hdecrease, rfl⟩ := h
  obtain ⟨rfl, params, hrefundable⟩ := run_ensureRefundable hensure
  have hpays := (run_transfer hpay₀).1.trans (run_transfer hpay₁).1
  have hstatuses : s₃.pairStatuses = s.pairStatuses := by rw [hpays.storage]
  refine ⟨contribution, params, s₃, hpersonal, hpays, ?_⟩
  rcases hrefundable with hfailed | hreplaced
  · obtain ⟨q, hq, hle, rfl⟩ | ⟨hnone, -⟩ := run_decreaseAccumulated hdecrease
    · rw [hstatuses, hfailed.1, PairStatus.bootstrap.injEq] at hq
      subst hq
      refine .inl ⟨hfailed, hle, ?_⟩
      rw [hpays.storage]
    · exact absurd (hstatuses ▸ hfailed.1) (hnone params)
  · obtain ⟨q, hq, -⟩ | ⟨-, rfl⟩ := run_decreaseAccumulated hdecrease
    · exact absurd (hstatuses ▸ hq) (hreplaced.1 q)
    · refine .inr ⟨hreplaced, ?_⟩
      rw [hpays.storage]

/-! ## Creation -/

/-- The records that a bootstrap starts with. -/
def starts (pair : AssetId × AssetId) (params : BootstrapParameter AccountId)
    (rewards : List AssetId) (limits : List (AssetId × ℕ))
    (s : DexGeneral AccountId AssetId Tokens) : DexGeneral AccountId AssetId Tokens :=
  { s with
    bootstrapRewards := Function.update s.bootstrapRewards pair
      (OrderedMap.ofList (rewards.map fun asset => (asset, 0)))
    bootstrapLimits := Function.update s.bootstrapLimits pair (OrderedMap.ofList limits)
    pairStatuses := Function.update s.pairStatuses pair (.bootstrap params) }

/-- No reward of the pair is recorded. -/
def NoRewards (s : DexGeneral AccountId AssetId Tokens) (pair : AssetId × AssetId) : Prop :=
  ∀ e ∈ (s.bootstrapRewards pair).entries, e.2 = 0

omit [DecidableEq AccountId] [WithdrawableCurrency Tokens AccountId AssetId]
  [LawfulWithdrawableCurrency Tokens] [DexGeneralConfig AccountId AssetId] in
private theorem run_ensureNoRewards {pair : AssetId × AssetId} :
    (ensureNoRewards pair).run s = .ok u s' ↔ NoRewards s pair ∧ s = s' := by
  simp only [ensureNoRewards, Call.run_bind_eq_ok, Call.run_get_eq_ok, Call.run_ensure_eq_ok,
    List.all_eq_true, decide_eq_true_eq]
  constructor
  · rintro ⟨_, _, ⟨rfl, rfl⟩, h⟩
    exact h
  · intro h
    exact ⟨s, s, ⟨rfl, rfl⟩, h⟩

section

omit [DecidableEq AccountId] [WithdrawableCurrency Tokens AccountId AssetId]
  [LawfulWithdrawableCurrency Tokens]

private theorem run_setRewardsAndLimits {pair : AssetId × AssetId} {rewards : List AssetId}
    {limits : List (AssetId × ℕ)} {params : BootstrapParameter AccountId} {v : Unit}
    (h : (setRewardsAndLimits pair rewards limits).run s = .ok u t)
    (hset : (setPairStatus pair (.bootstrap params)).run t = .ok v s') :
    s' = starts pair params rewards limits s := by
  simp only [setRewardsAndLimits, Call.run_bind_eq_ok, Call.run_ensure_eq_ok,
    Call.run_modify_eq_ok] at h
  obtain ⟨-, _, ⟨-, rfl⟩, -, _, rfl, -, _, ⟨-, rfl⟩, rfl⟩ := h
  exact (Call.run_modify_eq_ok.mp hset).symm

/-- A bootstrap starts for a pair that is closed, or in place of one that failed. -/
theorem run_bootstrapCreate {now endBlock : ℕ} {target capacity : ℕ × ℕ}
    {rewards : List AssetId} {limits : List (AssetId × ℕ)}
    (h : (bootstrapCreate now asset₀ asset₁ target capacity endBlock rewards limits).run s =
      .ok u s') :
    ∃ params, params.pairAccount = DexGeneralConfig.bootstrapAccountId AssetId ∧
      (s.pairStatuses (sortAssetId asset₀ asset₁) = .disable ∧ params.accumulatedSupply = (0, 0) ∨
        ∃ failed, Failed s now (sortAssetId asset₀ asset₁) failed ∧
          NoRewards s (sortAssetId asset₀ asset₁) ∧
          params.accumulatedSupply = failed.accumulatedSupply) ∧
      s' = starts (sortAssetId asset₀ asset₁) params rewards limits s := by
  rw [bootstrapCreate, Call.run_bind_eq_ok] at h
  obtain ⟨_, _, hget, h⟩ := h
  obtain ⟨rfl, rfl⟩ := Call.run_get_eq_ok.mp hget
  cases hp : s.pairStatuses (sortAssetId asset₀ asset₁) with
  | trading p =>
    rw [hp] at h
    exact absurd h Call.run_throw_eq_ok.mp
  | bootstrap failed =>
    rw [hp] at h
    simp only [Call.run_bind_eq_ok, Call.run_ensure_eq_ok, run_ensureNoRewards] at h
    obtain ⟨_, _, ⟨hdisable, rfl⟩, _, _, ⟨hnone, rfl⟩, _, _, hrecords, hset⟩ := h
    have hstarts := run_setRewardsAndLimits hrecords hset
    refine ⟨_, ?_, .inr ⟨failed, ⟨hp, hdisable⟩, hnone, ?_⟩, hstarts⟩ <;> rfl
  | disable =>
    rw [hp] at h
    obtain ⟨_, _, hrecords, hset⟩ := Call.run_bind_eq_ok.mp h
    have hstarts := run_setRewardsAndLimits hrecords hset
    refine ⟨_, ?_, .inl ⟨rfl, ?_⟩, hstarts⟩ <;> rfl

/-- A bootstrap that collects goes on with other parameters. -/
theorem run_bootstrapUpdate {endBlock : ℕ} {target capacity : ℕ × ℕ}
    {rewards : List AssetId} {limits : List (AssetId × ℕ)}
    (h : (bootstrapUpdate asset₀ asset₁ target capacity endBlock rewards limits).run s =
      .ok u s') :
    ∃ old params, s.pairStatuses (sortAssetId asset₀ asset₁) = .bootstrap old ∧
      NoRewards s (sortAssetId asset₀ asset₁) ∧
      params.pairAccount = DexGeneralConfig.bootstrapAccountId AssetId ∧
      params.accumulatedSupply = old.accumulatedSupply ∧
      s' = starts (sortAssetId asset₀ asset₁) params rewards limits s := by
  rw [bootstrapUpdate, Call.run_bind_eq_ok] at h
  obtain ⟨_, _, hget, h⟩ := h
  obtain ⟨rfl, rfl⟩ := Call.run_get_eq_ok.mp hget
  cases hp : s.pairStatuses (sortAssetId asset₀ asset₁) with
  | trading | disable =>
    rw [hp] at h
    exact absurd h Call.run_throw_eq_ok.mp
  | bootstrap old =>
    rw [hp] at h
    simp only [Call.run_bind_eq_ok, run_ensureNoRewards] at h
    obtain ⟨_, _, ⟨hnone, rfl⟩, _, _, hrecords, hset⟩ := h
    have hstarts := run_setRewardsAndLimits hrecords hset
    refine ⟨old, _, rfl, hnone, ?_, ?_, hstarts⟩ <;> rfl

end

/-! ## Rewards -/

/-- The charges of one asset. -/
def charged (charges : List (AssetId × ℕ)) (asset : AssetId) : ℕ :=
  (charges.map fun charge => if charge.1 = asset then charge.2 else 0).sum

/-- An asset that is not listed is not charged. -/
theorem charged_eq_zero {charges : List (AssetId × ℕ)} {asset : AssetId}
    (h : ∀ charge ∈ charges, charge.1 ≠ asset) :
    charged charges asset = 0 := by
  refine List.sum_eq_zero fun x hx => ?_
  obtain ⟨charge, hcharge, rfl⟩ := List.mem_map.mp hx
  exact if_neg (h charge hcharge)

omit [DexGeneralConfig AccountId AssetId] in
/-- What one account gets of all charges is what is charged of each asset. -/
theorem sum_moves_destination {charges : List (AssetId × ℕ)} {source destination : AccountId}
    (hne : destination ≠ source) (asset : AssetId) :
    (charges.map fun charge => moves charge.1 source destination charge.2).sum asset destination =
      (charged charges asset : ℤ) := by
  induction charges with
  | nil => rfl
  | cons charge charges ih =>
    have hsplit : charged (charge :: charges) asset =
        (if charge.1 = asset then charge.2 else 0) + charged charges asset := by
      rw [charged, List.map_cons, List.sum_cons]
      rfl
    rw [List.map_cons, List.sum_cons, Pi.add_apply, Pi.add_apply, ih, moves, Pi.sub_apply,
      Pi.sub_apply, flow_of_ne hne, flow_at, sub_zero, hsplit, Nat.cast_add, Nat.cast_ite,
      Nat.cast_zero]
    simp only [eq_comm]

private theorem run_chargeRewards {charges : List (AssetId × ℕ)}
    {rewards rewards' : OrderedMap AssetId ℕ}
    (h : (chargeRewards who charges rewards).run s = .ok rewards' s') :
    Pays ((charges.map fun charge => moves charge.1 who
      (DexGeneralConfig.bootstrapAccountId AssetId) charge.2).sum) s s' ∧
    (∀ charge ∈ charges, (rewards.lookup charge.1).isSome) ∧
    (∀ asset, rewards'.lookup asset = (rewards.lookup asset).map (· + charged charges asset)) ∧
    ((∀ asset, (rewards.lookup asset).getD 0 ≤ maxBalance) →
      ∀ asset, (rewards'.lookup asset).getD 0 ≤ maxBalance) := by
  induction charges generalizing s rewards with
  | nil =>
    obtain ⟨rfl, rfl⟩ := Call.run_pure_eq_ok.mp h
    refine ⟨.refl s, fun _ h => absurd h List.not_mem_nil, fun asset => ?_, fun hle => hle⟩
    simp only [charged, List.map_nil, List.sum_nil, add_zero, Option.map_id_fun', id]
  | cons charge charges ih =>
    simp only [chargeRewards, Call.run_bind_eq_ok, Call.run_ofOption_eq_ok,
      checkedAdd_eq_some] at h
    obtain ⟨already, _, ⟨halready, rfl⟩, _, s₁, hpay, _, _, ⟨⟨hfits, rfl⟩, rfl⟩, hrest⟩ := h
    obtain ⟨hpays, hmem, hlookup, hrange⟩ := ih hrest
    refine ⟨?_, fun c hc => ?_, fun asset => ?_, fun hle => hrange fun asset => ?_⟩
    · rw [List.map_cons, List.sum_cons]
      exact (run_transfer hpay).1.trans hpays
    · rcases List.mem_cons.mp hc with rfl | hc
      · rw [halready]
        rfl
      · have := hmem c hc
        rw [OrderedMap.lookup_insert] at this
        by_cases heq : c.1 = charge.1
        · rw [heq, halready]
          rfl
        · rwa [if_neg heq] at this
    · rw [hlookup, OrderedMap.lookup_insert]
      simp only [charged, List.map_cons, List.sum_cons]
      by_cases heq : asset = charge.1
      · subst heq
        rw [if_pos rfl, if_pos rfl, halready, Option.map_some, Option.map_some, add_assoc]
      · rw [if_neg heq, if_neg (Ne.symm heq)]
        simp only [zero_add]
    · rw [OrderedMap.lookup_insert]
      split_ifs
      · exact hfits
      · exact hle asset

/-- Charges are moved in and recorded. -/
theorem run_bootstrapChargeReward {charges : List (AssetId × ℕ)}
    (h : (bootstrapChargeReward who asset₀ asset₁ charges).run s = .ok u s') :
    ∃ rewards t,
      Pays ((charges.map fun charge => moves charge.1 who
        (DexGeneralConfig.bootstrapAccountId AssetId) charge.2).sum) s t ∧
      (∀ charge ∈ charges,
        ((s.bootstrapRewards (sortAssetId asset₀ asset₁)).lookup charge.1).isSome) ∧
      (∀ asset, rewards.lookup asset =
        ((s.bootstrapRewards (sortAssetId asset₀ asset₁)).lookup asset).map
          (· + charged charges asset)) ∧
      ((∀ asset, ((s.bootstrapRewards (sortAssetId asset₀ asset₁)).lookup asset).getD 0 ≤
        maxBalance) → ∀ asset, (rewards.lookup asset).getD 0 ≤ maxBalance) ∧
      s' = { t with
        bootstrapRewards :=
          Function.update s.bootstrapRewards (sortAssetId asset₀ asset₁) rewards } := by
  simp only [bootstrapChargeReward, setRewards, Call.run_bind_eq_ok, Call.run_get_eq_ok,
    Call.run_ensure_eq_ok, Call.run_modify_eq_ok] at h
  obtain ⟨_, _, ⟨rfl, rfl⟩, _, _, ⟨-, rfl⟩, rewards, t, hcharge, rfl⟩ := h
  obtain ⟨hpays, hmem, hlookup, hrange⟩ := run_chargeRewards hcharge
  refine ⟨rewards, t, hpays, hmem, hlookup, hrange, ?_⟩
  rw [hpays.storage]

/-- The recorded rewards are moved out and forgotten. -/
theorem run_bootstrapWithdrawReward {recipient : AccountId}
    (h : (bootstrapWithdrawReward asset₀ asset₁ recipient).run s = .ok u s') :
    ∃ t, Pays (((s.bootstrapRewards (sortAssetId asset₀ asset₁)).entries.map fun e =>
        moves e.1 (DexGeneralConfig.bootstrapAccountId AssetId) recipient e.2).sum) s t ∧
      s' = { t with
        bootstrapRewards := Function.update s.bootstrapRewards (sortAssetId asset₀ asset₁)
          ((s.bootstrapRewards (sortAssetId asset₀ asset₁)).mapValues fun _ => 0) } := by
  simp only [bootstrapWithdrawReward, setRewards, Call.run_bind_eq_ok, Call.run_get_eq_ok,
    Call.run_modify_eq_ok] at h
  obtain ⟨_, _, ⟨rfl, rfl⟩, _, t, hpay, rfl⟩ := h
  have hpays := run_forM_pays (fun e s s' he => (run_transfer he).1) hpay
  refine ⟨t, hpays, ?_⟩
  rw [hpays.storage]

end Interbtc.DexGeneral
