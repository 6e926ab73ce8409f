import Interbtc.DexGeneral.Contributions

/-!
# The account of all bootstraps

All pairs share one account for their contributions and rewards. It has what is owed to the
contributors and what was charged and not yet distributed, as long as the rewards of a pair are
only withdrawn where none of them was distributed.
-/

namespace Interbtc.DexGeneral

open Core MultiCurrency

variable {AccountId AssetId Tokens : Type} [DecidableEq AccountId] [LinearOrder AssetId]
  [WithdrawableCurrency Tokens AccountId AssetId] [LawfulWithdrawableCurrency Tokens]
  [DexGeneralConfig AccountId AssetId] [Fintype AccountId]
  {s s' t : DexGeneral AccountId AssetId Tokens} {pair : AssetId × AssetId}
  {asset₀ asset₁ asset lp : AssetId} {who recipient : AccountId} {now n n' : ℕ} {u : Unit}
  {params : BootstrapParameter AccountId}

/-! ## What is owed -/

/-- What the pair owes its contributors: what was accumulated while it is in bootstrap, and what
was not yet refunded where it trades after a bootstrap that failed. -/
def owed (s : DexGeneral AccountId AssetId Tokens) (pair : AssetId × AssetId) : ℕ × ℕ :=
  match phase s pair with
  | .collecting params => params.accumulatedSupply
  | .failed _ => contributions s pair
  | _ => (0, 0)

/-- The recorded reward of a pair. -/
def recordedReward (s : DexGeneral AccountId AssetId Tokens) (pair : AssetId × AssetId)
    (asset : AssetId) : ℕ :=
  ((s.bootstrapRewards pair).lookup asset).getD 0

/-- What the account of the bootstraps holds. -/
def bootstrapBalance (s : DexGeneral AccountId AssetId Tokens) (asset : AssetId) : ℕ :=
  s.freeBalance asset (DexGeneralConfig.bootstrapAccountId AssetId)

/-! ## The invariant -/

/-- A pair that trades after its bootstrap has the liquidity that can still be claimed, and of each
reward at least the share of that liquidity. -/
structure Settled (s : DexGeneral AccountId AssetId Tokens) (rewards : AssetId → ℤ)
    (pair : AssetId × AssetId) (params : BootstrapParameter AccountId) : Prop where
  account : params.pairAccount = DexGeneralConfig.bootstrapAccountId AssetId
  supply_le : params.accumulatedSupply ≤ (maxBalance, maxBalance)
  contributions_le : contributions s pair ≤ params.accumulatedSupply
  liquidity_pos : 0 < params.liquidity
  claimable_le : claimable s pair params ≤ params.liquidity
  claimable_le_held : ∀ lp, s.liquidityPairs pair = some lp →
    claimable s pair params ≤ s.freeBalance lp (DexGeneralConfig.subAccount pair)
  reward_le : ∀ asset, rewards asset ≤ recordedReward s pair asset
  share_le : ∀ asset, (claimable s pair params : ℤ) * recordedReward s pair asset ≤
    rewards asset * params.liquidity

/-- The records of one pair in a block: before it trades after a bootstrap all recorded rewards are
undistributed. -/
structure PairSound (n : ℕ) (s : DexGeneral AccountId AssetId Tokens) (rewards : AssetId → ℤ)
    (pair : AssetId × AssetId) : Prop where
  recorded_le : ∀ asset, recordedReward s pair asset ≤ maxBalance
  reward_eq : (∀ params, phase s pair ≠ .succeeded params) →
    ∀ asset, rewards asset = recordedReward s pair asset
  closed : phase s pair = .closed → (∀ who, s.bootstrapPersonalSupply pair who = none) ∧
    (∀ asset, (s.bootstrapRewards pair).lookup asset = none) ∧
      ∀ params, s.bootstrapEndStatus pair ≠ .bootstrap params
  collecting : ∀ params, phase s pair = .collecting params →
    params.pairAccount = DexGeneralConfig.bootstrapAccountId AssetId ∧
      params.accumulatedSupply ≤ (maxBalance, maxBalance) ∧
        contributions s pair = params.accumulatedSupply
  failed : ∀ params, phase s pair = .failed params → params.endBlockNumber < n
  succeeded : ∀ params, phase s pair = .succeeded params → Settled s rewards pair params

/-- What is charged and not distributed is given beside the storage. -/
structure Sound [Fintype AssetId] (n : ℕ) (s : DexGeneral AccountId AssetId Tokens)
    (rewards : AssetId × AssetId → AssetId → ℤ) : Prop where
  linked : Linked s
  pairs : ∀ pair, PairSound n s (rewards pair) pair
  solvent : ∀ asset,
    ∑ pair, ((inAsset pair (owed s pair) asset : ℤ) + rewards pair asset) ≤ bootstrapBalance s asset

/-! ## Pairs that a call leaves alone -/

/-- The records of a pair are as they were, and its account has lost none of its liquidity. -/
structure Untouched (s s' : DexGeneral AccountId AssetId Tokens) (pair : AssetId × AssetId) :
    Prop where
  phase : phase s' pair = phase s pair
  ended : s'.bootstrapEndStatus pair = s.bootstrapEndStatus pair
  personal : s'.bootstrapPersonalSupply pair = s.bootstrapPersonalSupply pair
  rewards : s'.bootstrapRewards pair = s.bootstrapRewards pair
  token : s'.liquidityPairs pair = s.liquidityPairs pair
  held : ∀ lp, s.liquidityPairs pair = some lp →
    s.freeBalance lp (DexGeneralConfig.subAccount pair) ≤
      s'.freeBalance lp (DexGeneralConfig.subAccount pair)

namespace Untouched

variable {rewards : AssetId → ℤ}

section

omit [DecidableEq AccountId] [LawfulWithdrawableCurrency Tokens]

private theorem owed_eq (h : Untouched s s' pair) : owed s' pair = owed s pair := by
  simp only [owed, contributions, h.phase, h.personal]

private theorem claimable_eq (h : Untouched s s' pair) (params : BootstrapParameter AccountId) :
    claimable s' pair params = claimable s pair params := by
  rw [claimable, claimable, h.personal]

end

omit [DecidableEq AccountId] [LawfulWithdrawableCurrency Tokens] [Fintype AccountId] in
private theorem recordedReward_eq (h : Untouched s s' pair) (asset : AssetId) :
    recordedReward s' pair asset = recordedReward s pair asset := by
  rw [recordedReward, recordedReward, h.rewards]

section

omit [DecidableEq AccountId] [LawfulWithdrawableCurrency Tokens]

private theorem settled (h : Untouched s s' pair) (hs : Settled s rewards pair params) :
    Settled s' rewards pair params where
  account := hs.account
  supply_le := hs.supply_le
  contributions_le := by
    rw [contributions, h.personal]
    exact hs.contributions_le
  liquidity_pos := hs.liquidity_pos
  claimable_le := by
    rw [h.claimable_eq]
    exact hs.claimable_le
  claimable_le_held lp hlp := by
    rw [h.token] at hlp
    rw [h.claimable_eq]
    exact (hs.claimable_le_held lp hlp).trans (h.held lp hlp)
  reward_le asset := by
    rw [h.recordedReward_eq]
    exact hs.reward_le asset
  share_le asset := by
    rw [h.claimable_eq, h.recordedReward_eq]
    exact hs.share_le asset

private theorem pairSound (h : Untouched s s' pair) (hs : PairSound n s rewards pair) :
    PairSound n s' rewards pair where
  recorded_le asset := by
    rw [h.recordedReward_eq]
    exact hs.recorded_le asset
  reward_eq hphase asset := by
    rw [h.recordedReward_eq]
    rw [h.phase] at hphase
    exact hs.reward_eq hphase asset
  closed hphase := by
    rw [h.personal, h.rewards, h.ended]
    rw [h.phase] at hphase
    exact hs.closed hphase
  collecting params hphase := by
    rw [contributions, h.personal]
    rw [h.phase] at hphase
    exact hs.collecting params hphase
  failed params hphase := hs.failed params (h.phase ▸ hphase)
  succeeded params hphase := h.settled (hs.succeeded params (h.phase ▸ hphase))

end

end Untouched

omit [DecidableEq AccountId] [LawfulWithdrawableCurrency Tokens] in
private theorem PairSound.mono {rewards : AssetId → ℤ} (h : PairSound n s rewards pair)
    (hn : n ≤ n') :
    PairSound n' s rewards pair :=
  { h with failed := fun params hphase => (h.failed params hphase).trans_le hn }

section Phases

variable {rewards : AssetId → ℤ}

omit [DecidableEq AccountId] [LawfulWithdrawableCurrency Tokens]

private theorem PairSound.of_plain (hrange : ∀ asset, recordedReward s pair asset ≤ maxBalance)
    (hphase : phase s pair = .plain)
    (hreward : ∀ asset, rewards asset = recordedReward s pair asset) :
    PairSound n s rewards pair where
  recorded_le := hrange
  reward_eq _ := hreward
  closed h := nomatch hphase.symm.trans h
  collecting _ h := nomatch hphase.symm.trans h
  failed _ h := nomatch hphase.symm.trans h
  succeeded _ h := nomatch hphase.symm.trans h

private theorem PairSound.of_collecting (hrange : ∀ asset, recordedReward s pair asset ≤ maxBalance)
    (hphase : phase s pair = .collecting params)
    (hreward : ∀ asset, rewards asset = recordedReward s pair asset)
    (haccount : params.pairAccount = DexGeneralConfig.bootstrapAccountId AssetId)
    (hle : params.accumulatedSupply ≤ (maxBalance, maxBalance))
    (hsum : contributions s pair = params.accumulatedSupply) : PairSound n s rewards pair where
  recorded_le := hrange
  reward_eq _ := hreward
  closed h := nomatch hphase.symm.trans h
  collecting q h := by
    obtain rfl := Phase.collecting.inj (hphase.symm.trans h)
    exact ⟨haccount, hle, hsum⟩
  failed _ h := nomatch hphase.symm.trans h
  succeeded _ h := nomatch hphase.symm.trans h

private theorem PairSound.of_failed (hrange : ∀ asset, recordedReward s pair asset ≤ maxBalance)
    (hphase : phase s pair = .failed params)
    (hreward : ∀ asset, rewards asset = recordedReward s pair asset)
    (hend : params.endBlockNumber < n) : PairSound n s rewards pair where
  recorded_le := hrange
  reward_eq _ := hreward
  closed h := nomatch hphase.symm.trans h
  collecting _ h := nomatch hphase.symm.trans h
  failed q h := by
    obtain rfl := Phase.failed.inj (hphase.symm.trans h)
    exact hend
  succeeded _ h := nomatch hphase.symm.trans h

private theorem PairSound.of_settled (hrange : ∀ asset, recordedReward s pair asset ≤ maxBalance)
    (hphase : phase s pair = .succeeded params)
    (hsettled : Settled s rewards pair params) : PairSound n s rewards pair where
  recorded_le := hrange
  reward_eq h := absurd hphase (h params)
  closed h := nomatch hphase.symm.trans h
  collecting _ h := nomatch hphase.symm.trans h
  failed _ h := nomatch hphase.symm.trans h
  succeeded q h := by
    obtain rfl := Phase.succeeded.inj (hphase.symm.trans h)
    exact hsettled

private theorem PairSound.reward_of_ne (h : PairSound n s rewards pair) {x : Phase AccountId}
    (hphase : phase s pair = x) (hx : ∀ params, x ≠ .succeeded params) (asset : AssetId) :
    rewards asset = recordedReward s pair asset :=
  h.reward_eq (fun params => hphase ▸ hx params) asset

end Phases

section Rewards

omit [DecidableEq AccountId] [WithdrawableCurrency Tokens AccountId AssetId]
  [LawfulWithdrawableCurrency Tokens] [DexGeneralConfig AccountId AssetId] [Fintype AccountId]

private theorem recordedReward_eq_zero (h : NoRewards s pair) (asset : AssetId) :
    recordedReward s pair asset = 0 := by
  unfold recordedReward
  cases hlookup : (s.bootstrapRewards pair).lookup asset with
  | none => rfl
  | some x => exact h _ (OrderedMap.mem_entries_of_lookup hlookup)

/-- The rewards of a bootstrap start with zero. -/
theorem recordedReward_starts {assets : List AssetId} {limits : List (AssetId × ℕ)}
    (asset : AssetId) : recordedReward (starts pair params assets limits s) pair asset = 0 := by
  change ((Function.update s.bootstrapRewards pair _ pair).lookup asset).getD 0 = 0
  rw [Function.update_self]
  cases hlookup : (OrderedMap.ofList (assets.map fun asset => (asset, 0))).lookup asset with
  | none => rfl
  | some x =>
    obtain ⟨e, he, rfl⟩ := OrderedMap.exists_of_lookup_ofList hlookup
    obtain ⟨_, -, rfl⟩ := List.mem_map.mp he
    rfl

end Rewards

namespace Sound

variable [Fintype AssetId] {rewards : AssetId × AssetId → AssetId → ℤ}

omit [DecidableEq AccountId] [LawfulWithdrawableCurrency Tokens]

/-- An exchange stays sound as time passes. -/
theorem mono (h : Sound n s rewards) (hn : n ≤ n') : Sound n' s rewards :=
  { h with pairs := fun pair => (h.pairs pair).mono hn }

/-- A call that leaves the records alone keeps the exchange sound. -/
theorem of_untouched (h : Sound n s rewards) (hlinked : Linked s')
    (hall : ∀ pair, Untouched s s' pair)
    (hboot : ∀ asset, bootstrapBalance s asset ≤ bootstrapBalance s' asset) :
    Sound n s' rewards where
  linked := hlinked
  pairs pair := (hall pair).pairSound (h.pairs pair)
  solvent asset := by
    have hsum : ∑ pair, ((inAsset pair (owed s' pair) asset : ℤ) + rewards pair asset) =
        ∑ pair, ((inAsset pair (owed s pair) asset : ℤ) + rewards pair asset) :=
      Finset.sum_congr rfl fun pair _ => by rw [(hall pair).owed_eq]
    rw [hsum]
    exact (h.solvent asset).trans (by exact_mod_cast hboot asset)

/-- A call that writes the records of one pair changes what is owed by as much as the account
gets. -/
theorem of_pair (h : Sound n s rewards) (hlinked : Linked s') {pair : AssetId × AssetId}
    {reward : AssetId → ℤ} (hothers : ∀ q, q ≠ pair → Untouched s s' q)
    (hpair : PairSound n s' reward pair)
    (hboot : ∀ asset, (inAsset pair (owed s' pair) asset : ℤ) + reward asset -
      (inAsset pair (owed s pair) asset + rewards pair asset) ≤
        bootstrapBalance s' asset - bootstrapBalance s asset) :
    Sound n s' (Function.update rewards pair reward) where
  linked := hlinked
  pairs q := by
    rcases eq_or_ne q pair with rfl | hne
    · rw [Function.update_self]
      exact hpair
    · rw [Function.update_of_ne hne]
      exact (hothers q hne).pairSound (h.pairs q)
  solvent asset := by
    have hsum : ∑ q, ((inAsset q (owed s' q) asset : ℤ) +
          Function.update rewards pair reward q asset) =
        ∑ q, ((inAsset q (owed s q) asset : ℤ) + rewards q asset) -
            (inAsset pair (owed s pair) asset + rewards pair asset) +
          (inAsset pair (owed s' pair) asset + Function.update rewards pair reward pair asset) :=
      sum_of_eq_off pair fun q hne => by
        rw [(hothers q hne).owed_eq, Function.update_of_ne hne]
    rw [hsum, Function.update_self]
    have := h.solvent asset
    have := hboot asset
    linarith

end Sound

/-! ## Flows -/

section

omit [DecidableEq AccountId] [LawfulWithdrawableCurrency Tokens] [Fintype AccountId]

private theorem Untouched.trans (h : Untouched s t pair) (h' : Untouched t s' pair) :
    Untouched s s' pair where
  phase := h'.phase.trans h.phase
  ended := h'.ended.trans h.ended
  personal := h'.personal.trans h.personal
  rewards := h'.rewards.trans h.rewards
  token := h'.token.trans h.token
  held lp hlp := (h.held lp hlp).trans (h'.held lp (h.token ▸ hlp))

/-- The records of the pair and all tokens are as they were. -/
theorem Untouched.of_records (hstatus : s'.pairStatuses pair = s.pairStatuses pair)
    (hended : s'.bootstrapEndStatus pair = s.bootstrapEndStatus pair)
    (hpersonal : s'.bootstrapPersonalSupply pair = s.bootstrapPersonalSupply pair)
    (hrewards : s'.bootstrapRewards pair = s.bootstrapRewards pair)
    (htoken : s'.liquidityPairs pair = s.liquidityPairs pair) (htokens : s'.tokens = s.tokens) :
    Untouched s s' pair where
  phase := phase_congr hstatus hended
  ended := hended
  personal := hpersonal
  rewards := hrewards
  token := htoken
  held lp _ := by rw [freeBalance, freeBalance, htokens]

private theorem Untouched.of_pays {w : Flow AccountId AssetId} (h : Pays w s t)
    (hw : ∀ lp, s.liquidityPairs pair = some lp → 0 ≤ w lp (DexGeneralConfig.subAccount pair)) :
    Untouched s t pair where
  phase := phase_congr (by rw [h.storage]) (by rw [h.storage])
  ended := by rw [h.storage]
  personal := by rw [h.storage]
  rewards := by rw [h.storage]
  token := by rw [h.storage]
  held lp hlp := by
    have := freeBalance_pays h lp (DexGeneralConfig.subAccount pair)
    have := hw lp hlp
    omega

end

/-! ## Calls that trade -/

section Trading

variable [Fintype AssetId] {rewards : AssetId × AssetId → AssetId → ℤ}

section

omit [DecidableEq AccountId] [LawfulWithdrawableCurrency Tokens]

/-- Payments that take nothing from the pairs keep the exchange sound. -/
theorem sound_of_pays {w : Flow AccountId AssetId} (h : Sound n s rewards) (hpays : Pays w s s')
    (hw : ∀ pair lp, s.liquidityPairs pair = some lp →
      0 ≤ w lp (DexGeneralConfig.subAccount pair))
    (hboot : ∀ asset, 0 ≤ w asset (DexGeneralConfig.bootstrapAccountId AssetId)) :
    Sound n s' rewards := by
  refine h.of_untouched (h.linked.of_tokens hpays.storage) (fun pair => .of_pays hpays (hw pair))
    fun asset => ?_
  have := freeBalance_pays hpays asset (DexGeneralConfig.bootstrapAccountId AssetId)
  have := hboot asset
  unfold bootstrapBalance
  omega

private theorem sound_of_changes {p : PairMetadata AccountId} {supply : ℕ}
    {w : Flow AccountId AssetId}
    (h : Sound n s rewards) (hp : s.pairStatuses pair = .trading p)
    (hs : ChangesLiquidity pair p supply w s s')
    (hw : ∀ q lp, s.liquidityPairs q = some lp → 0 ≤ w lp (DexGeneralConfig.subAccount q))
    (hboot : ∀ asset, 0 ≤ w asset (DexGeneralConfig.bootstrapAccountId AssetId)) :
    Sound n s' rewards := by
  have hfree : ∀ asset who, (s'.freeBalance asset who : ℤ) =
      s.freeBalance asset who + w asset who := by
    intro asset who
    rw [freeBalance_eq_held, freeBalance_eq_held, hs.held]
    rfl
  refine h.of_untouched (h.linked.of_changes hp hs) (fun q => ⟨?_, ?_, ?_, ?_, ?_, ?_⟩)
    fun asset => ?_
  · rcases eq_or_ne q pair with rfl | hne
    · exact phase_of_trades hp hs.status (by rw [hs.storage])
    · refine phase_congr ?_ (by rw [hs.storage])
      rw [hs.storage]
      exact Function.update_of_ne hne _ _
  · rw [hs.storage]
  · rw [hs.storage]
  · rw [hs.storage]
  · rw [hs.storage]
  · intro lp hlp
    have := hfree lp (DexGeneralConfig.subAccount q)
    have := hw q lp hlp
    omega
  · have := hfree asset (DexGeneralConfig.bootstrapAccountId AssetId)
    have := hboot asset
    unfold bootstrapBalance
    omega

/-- A new fee keeps the exchange sound. -/
theorem sound_setExchangeFee {feeRate : ℕ} (h : Sound n s rewards)
    (hrun : (setExchangeFee asset₀ asset₁ feeRate).run s = .ok u s') : Sound n s' rewards := by
  obtain ⟨p, hp, rfl⟩ := run_setExchangeFee hrun
  have hlinked : Linked { s with
      pairStatuses := Function.update s.pairStatuses (sortAssetId asset₀ asset₁)
        (.trading { p with feeRate := feeRate }) } := by
    refine h.linked.of_update rfl rfl fun q hq => ?_
    obtain rfl := PairStatus.trading.inj hq
    exact ⟨h.linked.account _ p hp, h.linked.liquid _ p hp⟩
  refine h.of_untouched hlinked (fun q => ⟨?_, rfl, rfl, rfl, rfl, fun _ _ => le_rfl⟩)
    fun asset => le_rfl
  rcases eq_or_ne q (sortAssetId asset₀ asset₁) with rfl | hne
  · exact phase_of_trades hp (Function.update_self _ _ _) rfl
  · exact phase_congr (Function.update_of_ne hne _ _) rfl

end

omit [WithdrawableCurrency Tokens AccountId AssetId] [LawfulWithdrawableCurrency Tokens]
  [Fintype AccountId] [Fintype AssetId] in
/-- An exchange moves none of the liquidity tokens of a pair from its account. -/
theorem Hop.flow_token (h : Linked s) (hop : Hop AssetId)
    (hlp : s.liquidityPairs pair = some lp) :
    hop.flow lp (DexGeneralConfig.subAccount pair : AccountId) = 0 := by
  rw [Hop.flow, Pi.sub_apply, Pi.sub_apply]
  by_cases haccount : (DexGeneralConfig.subAccount pair : AccountId) =
      pairAccountId hop.input hop.output
  · obtain rfl := DexGeneralConfig.subAccount_injective haccount
    have hin : hop.input ≠ lp := h.ne_of_mem hlp (List.mem_pair.mpr (.inl rfl))
    have hout : hop.output ≠ lp := h.ne_of_mem hlp (List.mem_pair.mpr (.inr rfl))
    rw [flow_of_ne_currency hin.symm, flow_of_ne_currency hout.symm, sub_zero]
  · rw [flow_of_ne haccount, flow_of_ne haccount, sub_zero]

section

omit [Fintype AccountId] [Fintype AssetId]

private theorem Hop.flow_boot (hop : Hop AssetId) :
    hop.flow asset (DexGeneralConfig.bootstrapAccountId AssetId : AccountId) = 0 := by
  have hne : (DexGeneralConfig.bootstrapAccountId AssetId : AccountId) ≠
      pairAccountId hop.input hop.output :=
    (DexGeneralConfig.subAccount_ne_bootstrap _).symm
  rw [Hop.flow, Pi.sub_apply, Pi.sub_apply, flow_of_ne hne, flow_of_ne hne, sub_zero]

private theorem sum_flow_eq_zero {hs : List (Hop AssetId)} {w : AccountId}
    (h : ∀ hop : Hop AssetId, hop.flow asset w = 0) : (hs.map Hop.flow).sum asset w = 0 := by
  induction hs with
  | nil => rfl
  | cons hop hs ih => rw [List.map_cons, List.sum_cons, Pi.add_apply, Pi.add_apply, h, ih, add_zero]

end

omit [LawfulWithdrawableCurrency Tokens] in
/-- A swap keeps the exchange sound. -/
theorem sound_swap {path : List AssetId} (h : Sound n s rewards) (who : Trader AccountId AssetId)
    (hs : Swaps path who.val recipient s s') : Sound n s' rewards := by
  obtain ⟨amounts, first, last, x, y, -, -, hpays⟩ := hs.exists_pays
  refine sound_of_pays h hpays (fun pair lp hlp => ?_) fun asset => ?_
  · rw [Pi.add_apply, Pi.add_apply, Pi.sub_apply, Pi.sub_apply,
      sum_flow_eq_zero fun hop => hop.flow_token h.linked hlp,
      flow_of_ne (who.property.2 pair).symm, sub_zero, zero_add]
    exact flow_nonneg
  · rw [Pi.add_apply, Pi.add_apply, Pi.sub_apply, Pi.sub_apply,
      sum_flow_eq_zero fun hop => hop.flow_boot, flow_of_ne who.property.1.symm, sub_zero,
      zero_add]
    exact flow_nonneg

/-- Adding liquidity keeps the exchange sound. -/
theorem sound_addLiquidity {d₀ d₁ min₀ min₁ : ℕ} (h : Sound n s rewards)
    (who : Trader AccountId AssetId)
    (hrun : (innerAddLiquidity who.val asset₀ asset₁ d₀ d₁ min₀ min₁).run s = .ok u s') :
    Sound n s' rewards := by
  obtain ⟨p, lp, m, amounts, minted, hp, -, -, -, -, -, -, hs⟩ := run_innerAddLiquidity hrun
  refine sound_of_changes h hp hs (fun q lp' _ => ?_) fun asset => ?_
  · simp only [Pi.add_apply, Pi.sub_apply, flow_of_ne (who.property.2 q).symm, sub_zero, add_zero]
    exact add_nonneg (add_nonneg feeFlow_nonneg flow_nonneg) flow_nonneg
  · simp only [Pi.add_apply, Pi.sub_apply, flow_of_ne who.property.1.symm, sub_zero, add_zero]
    exact add_nonneg (add_nonneg feeFlow_nonneg flow_nonneg) flow_nonneg

/-- Removing liquidity keeps the exchange sound. -/
theorem sound_removeLiquidity {liquidity min₀ min₁ : ℕ} (h : Sound n s rewards)
    (who : Trader AccountId AssetId)
    (hrun : (innerRemoveLiquidity who.val asset₀ asset₁ liquidity min₀ min₁ recipient).run s =
      .ok u s') : Sound n s' rewards := by
  obtain ⟨p, lp, m, hp, hlp, -, -, -, hs⟩ := run_innerRemoveLiquidity hrun
  have haccount := h.linked.account _ p hp
  refine sound_of_changes h hp hs (fun q lp' hlp' => ?_) fun asset => ?_
  · -- a pair pays its assets only, and its liquidity token is none of them
    have hpays : ∀ asset ∈ [asset₀, asset₁], ∀ x,
        flow asset p.pairAccount x lp' (DexGeneralConfig.subAccount q) = 0 := by
      intro asset hasset x
      rcases eq_or_ne q (sortAssetId asset₀ asset₁) with rfl | hne
      · exact flow_of_ne_currency (h.linked.ne_of_mem hlp' hasset).symm
      · refine flow_of_ne ?_
        rw [haccount]
        exact fun heq => hne (DexGeneralConfig.subAccount_injective heq)
    simp only [Pi.add_apply, Pi.sub_apply, flow_of_ne (who.property.2 q).symm, sub_zero,
      hpays asset₀ (List.mem_pair.mpr (.inl rfl)), hpays asset₁ (List.mem_pair.mpr (.inr rfl))]
    exact add_nonneg (add_nonneg feeFlow_nonneg flow_nonneg) flow_nonneg
  · have hne : (DexGeneralConfig.bootstrapAccountId AssetId : AccountId) ≠ p.pairAccount := by
      rw [haccount]
      exact (DexGeneralConfig.subAccount_ne_bootstrap _).symm
    simp only [Pi.add_apply, Pi.sub_apply, flow_of_ne who.property.1.symm, flow_of_ne hne, sub_zero]
    exact add_nonneg (add_nonneg feeFlow_nonneg flow_nonneg) flow_nonneg

end Trading

/-! ## Calls of bootstraps -/

section Bootstrap

variable [Fintype AssetId] {rewards : AssetId × AssetId → AssetId → ℤ}

section

omit [DecidableEq AccountId] [LawfulWithdrawableCurrency Tokens]

/-- A call that writes the records of a pair, and keeps what is owed and the rewards. -/
theorem Sound.of_records (h : Sound n s rewards) (hlinked : Linked s')
    (hothers : ∀ q, q ≠ pair → Untouched s s' q) (hpair : PairSound n s' (rewards pair) pair)
    (howed : owed s' pair = owed s pair) (htokens : s'.tokens = s.tokens) : Sound n s' rewards := by
  rw [← Function.update_eq_self pair rewards]
  refine h.of_pair hlinked hothers hpair fun asset => ?_
  rw [howed, bootstrapBalance, bootstrapBalance, freeBalance, freeBalance, htokens]
  simp only [sub_self, le_refl]

/-- A new pair keeps the exchange sound. -/
theorem sound_createPair {feeRate : ℕ} (h : Sound now s rewards)
    (hrun : (createPair now asset₀ asset₁ feeRate).run s = .ok u s') : Sound now s' rewards := by
  have hlinked := linked_createPair h.linked hrun
  obtain ⟨lp, endStatus, -, -, hcases, rfl⟩ := run_createPair hrun
  set pair := sortAssetId asset₀ asset₁
  have hpair := h.pairs pair
  refine h.of_records hlinked (fun q (hne : q ≠ pair) => ?_) ?_ ?_ rfl
  · exact .of_records (Function.update_of_ne hne _ _) (Function.update_of_ne hne _ _) rfl rfl
      (Function.update_of_ne hne _ _) rfl
  all_goals
    rcases hcases with ⟨hp, rfl⟩ | ⟨params, hp, hdisable, rfl⟩
  · have hphase := phase_eq_closed.mpr hp
    refine .of_plain hpair.recorded_le
      (phase_of_plain (Function.update_self _ _ _) fun params => ?_) fun asset => ?_
    · change Function.update s.bootstrapEndStatus pair _ pair ≠ _
      rw [Function.update_self]
      exact (hpair.closed hphase).2.2 params
    · exact hpair.reward_of_ne hphase nofun asset
  · have hphase := phase_eq_collecting.mpr hp
    obtain ⟨hend, hmissed⟩ := bootstrapDisable_eq_true.mp hdisable
    exact .of_failed hpair.recorded_le (phase_eq_failed.mpr ⟨⟨_, Function.update_self _ _ _⟩,
      Function.update_self _ _ _, hmissed⟩) (hpair.reward_of_ne hphase nofun) hend
  · have hphase := phase_eq_closed.mpr hp
    rw [owed, owed, hphase, phase_of_plain (Function.update_self _ _ _) fun params => ?_]
    change Function.update s.bootstrapEndStatus pair _ pair ≠ _
    rw [Function.update_self]
    exact (hpair.closed hphase).2.2 params
  · have hphase := phase_eq_collecting.mpr hp
    obtain ⟨-, hmissed⟩ := bootstrapDisable_eq_true.mp hdisable
    obtain ⟨-, -, hsum⟩ := hpair.collecting params hphase
    rw [owed, owed, hphase, phase_eq_failed.mpr ⟨⟨_, Function.update_self _ _ _⟩,
      Function.update_self _ _ _, hmissed⟩]
    exact hsum

/-- A bootstrap starts with the contributions there are, and with no rewards. -/
theorem sound_of_starts {assets : List AssetId} {limits : List (AssetId × ℕ)}
    (h : Sound n s rewards)
    (haccount : params.pairAccount = DexGeneralConfig.bootstrapAccountId AssetId)
    (hzero : ∀ asset, rewards pair asset = 0)
    (hle : params.accumulatedSupply ≤ (maxBalance, maxBalance))
    (hsum : contributions s pair = params.accumulatedSupply)
    (howed : owed s pair = params.accumulatedSupply)
    (hs : s' = starts pair params assets limits s) : Sound n s' rewards := by
  have hlinked := h.linked.of_starts hs
  obtain rfl := hs
  have hphase : phase (starts pair params assets limits s) pair = .collecting params :=
    phase_eq_collecting.mpr (Function.update_self _ _ _)
  refine h.of_records hlinked (fun q (hne : q ≠ pair) => ?_) ?_ ?_ rfl
  · exact .of_records (Function.update_of_ne hne _ _) rfl rfl (Function.update_of_ne hne _ _) rfl rfl
  · refine .of_collecting (fun asset => ?_) hphase (fun asset => ?_) haccount hle hsum
    · rw [recordedReward_starts]
      exact Nat.zero_le _
    · rw [hzero, recordedReward_starts]
      rfl
  · rw [owed, hphase, howed]

/-- A new bootstrap keeps the exchange sound. -/
theorem sound_bootstrapCreate {endBlock : ℕ} {target capacity : ℕ × ℕ} {assets : List AssetId}
    {limits : List (AssetId × ℕ)} (h : Sound n s rewards)
    (hrun : (bootstrapCreate now asset₀ asset₁ target capacity endBlock assets limits).run s =
      .ok u s') : Sound n s' rewards := by
  obtain ⟨params, haccount, ⟨hp, hacc⟩ | ⟨failed, ⟨hp, -⟩, hnone, hacc⟩, hs⟩ :=
    run_bootstrapCreate hrun
  · have hphase := phase_eq_closed.mpr hp
    have hpair := h.pairs (sortAssetId asset₀ asset₁)
    obtain ⟨hpersonal, hrewards, -⟩ := hpair.closed hphase
    refine sound_of_starts h haccount (fun asset => ?_) ?_ ?_ ?_ hs
    · rw [hpair.reward_of_ne hphase (by rintro _ ⟨⟩), recordedReward, hrewards]
      rfl
    · rw [hacc]
      exact ⟨Nat.zero_le _, Nat.zero_le _⟩
    · rw [hacc, contributions]
      exact Finset.sum_eq_zero fun who _ => by rw [hpersonal]; rfl
    · rw [owed, hphase, hacc]
  · have hphase := phase_eq_collecting.mpr hp
    have hpair := h.pairs (sortAssetId asset₀ asset₁)
    obtain ⟨-, hle, hsum⟩ := hpair.collecting failed hphase
    refine sound_of_starts h haccount (fun asset => ?_) (hacc ▸ hle) (hacc ▸ hsum) ?_ hs
    · rw [hpair.reward_of_ne hphase (by rintro _ ⟨⟩), recordedReward_eq_zero hnone]
      rfl
    · rw [owed, hphase, hacc]

/-- New parameters keep the exchange sound. -/
theorem sound_bootstrapUpdate {endBlock : ℕ} {target capacity : ℕ × ℕ} {assets : List AssetId}
    {limits : List (AssetId × ℕ)} (h : Sound n s rewards)
    (hrun : (bootstrapUpdate asset₀ asset₁ target capacity endBlock assets limits).run s =
      .ok u s') : Sound n s' rewards := by
  obtain ⟨old, params, hp, hnone, haccount, hacc, hs⟩ := run_bootstrapUpdate hrun
  have hphase := phase_eq_collecting.mpr hp
  have hpair := h.pairs (sortAssetId asset₀ asset₁)
  obtain ⟨-, hle, hsum⟩ := hpair.collecting old hphase
  refine sound_of_starts h haccount (fun asset => ?_) (hacc ▸ hle) (hacc ▸ hsum) ?_ hs
  · rw [hpair.reward_of_ne hphase nofun, recordedReward_eq_zero hnone]
    rfl
  · rw [owed, hphase, hacc]

end

omit [DecidableEq AccountId] [LawfulWithdrawableCurrency Tokens] [Fintype AccountId]
  [Fintype AssetId] in
private theorem Untouched.of_paid {w : Flow AccountId AssetId} (hpays : Pays w s t)
    (hw : ∀ lp, 0 ≤ w lp (DexGeneralConfig.subAccount pair))
    (hstatus : s'.pairStatuses pair = s.pairStatuses pair)
    (hended : s'.bootstrapEndStatus pair = s.bootstrapEndStatus pair)
    (hpersonal : s'.bootstrapPersonalSupply pair = s.bootstrapPersonalSupply pair)
    (hrewards : s'.bootstrapRewards pair = s.bootstrapRewards pair)
    (htoken : s'.liquidityPairs pair = s.liquidityPairs pair) (htokens : s'.tokens = t.tokens) :
    Untouched s s' pair := by
  refine (Untouched.of_pays hpays fun lp _ => hw lp).trans (.of_records ?_ ?_ ?_ ?_ ?_ htokens)
  · rw [hstatus, hpays.pairStatuses]
  · rw [hended, hpays.bootstrapEndStatus]
  · rw [hpersonal, hpays.bootstrapPersonalSupply]
  · rw [hrewards, hpays.bootstrapRewards]
  · rw [htoken, hpays.liquidityPairs]

omit [DecidableEq AccountId] [LawfulWithdrawableCurrency Tokens] in
/-- A call that pays, and writes the records of one pair. -/
theorem Sound.of_paid {w : Flow AccountId AssetId} {reward : AssetId → ℤ} (h : Sound n s rewards)
    (hlinked : Linked s') (hpays : Pays w s t) (htokens : s'.tokens = t.tokens)
    (hothers : ∀ q, q ≠ pair → Untouched s s' q) (hpair : PairSound n s' reward pair)
    (hboot : ∀ asset, (inAsset pair (owed s' pair) asset : ℤ) + reward asset -
      (inAsset pair (owed s pair) asset + rewards pair asset) ≤
        w asset (DexGeneralConfig.bootstrapAccountId AssetId)) :
    Sound n s' (Function.update rewards pair reward) := by
  refine h.of_pair hlinked hothers hpair fun asset => ?_
  have hfree := freeBalance_pays hpays asset (DexGeneralConfig.bootstrapAccountId AssetId)
  have hsame : bootstrapBalance s' asset = bootstrapBalance t asset := by
    rw [bootstrapBalance, bootstrapBalance, freeBalance, freeBalance, htokens]
  have := hboot asset
  rw [hsame]
  unfold bootstrapBalance
  linarith

/-- A contribution keeps the exchange sound. -/
theorem sound_bootstrapContribute {amount₀ amount₁ : ℕ} (h : Sound n s rewards)
    (hlinked : Linked s') (who : Trader AccountId AssetId)
    (hrun : (doBootstrapContribute now who.val asset₀ asset₁ amount₀ amount₁).run s = .ok u s') :
    Sound n s' rewards := by
  obtain ⟨params, x, t, hp, -, hle₀, hle₁, hpays, hs⟩ := run_doBootstrapContribute hrun
  set pair := sortAssetId asset₀ asset₁
  have hphase := phase_eq_collecting.mpr hp
  have hpair := h.pairs pair
  obtain ⟨haccount, -, hsum⟩ := hpair.collecting params hphase
  have hphase' : phase s' pair = .collecting { params with
      accumulatedSupply := params.accumulatedSupply + x } := by
    rw [hs]
    exact phase_eq_collecting.mpr (Function.update_self _ _ _)
  have hpersonal : s'.bootstrapPersonalSupply pair =
      Function.update (s.bootstrapPersonalSupply pair) who.val
        (some ((s.bootstrapPersonalSupply pair who.val).getD (0, 0) + x)) := by
    rw [hs]
    exact Function.update_self _ _ _
  have hcontributions : contributions s' pair = contributions s pair + x := by
    have hupdate := contributions_update hpersonal
    rw [Option.getD_some, add_comm ((s.bootstrapPersonalSupply pair who.val).getD (0, 0)),
      ← add_assoc] at hupdate
    exact add_right_cancel hupdate
  have hrecorded : ∀ asset, recordedReward s' pair asset = recordedReward s pair asset := by
    intro asset
    rw [recordedReward, recordedReward, hs]
    rw [hpays.bootstrapRewards]
  rw [← Function.update_eq_self pair rewards]
  refine h.of_paid hlinked hpays (by rw [hs]) (fun q hne => ?_) ?_ fun asset => ?_
  · rw [hs]
    refine .of_paid hpays (fun lp => ?_) (Function.update_of_ne hne _ _)
      (by rw [hpays.bootstrapEndStatus]) (Function.update_of_ne hne _ _)
      (by rw [hpays.bootstrapRewards]) (by rw [hpays.liquidityPairs]) rfl
    exact movesBoth_nonneg (who.property.2 q).symm lp
  · refine .of_collecting (fun asset => ?_) hphase' (fun asset => ?_) haccount ⟨hle₀, hle₁⟩ ?_
    · rw [hrecorded]
      exact hpair.recorded_le asset
    · rw [hpair.reward_of_ne hphase nofun, hrecorded]
    · rw [hcontributions, hsum]
  · rw [movesBoth_destination who.property.1.symm, owed, owed, hphase, hphase', inAsset_add]
    push_cast
    linarith

private theorem sub_add_amounts {x y : ℕ × ℕ} (h : x ≤ y) : y - x + x = y :=
  Prod.ext (Nat.sub_add_cancel h.1) (Nat.sub_add_cancel h.2)

omit [DecidableEq AccountId] [LawfulWithdrawableCurrency Tokens] [Fintype AssetId] in
/-- A bootstrap is only replaced after it failed. -/
theorem PairSound.phase_of_replaced {reward : AssetId → ℤ} (h : PairSound n s reward pair)
    (hreplaced : Replaced s now pair params) : phase s pair = .failed params := by
  obtain ⟨hnot, hended, hdisable⟩ := hreplaced
  obtain ⟨-, hmissed⟩ := bootstrapDisable_eq_true.mp hdisable
  cases hp : s.pairStatuses pair with
  | trading p => exact phase_eq_failed.mpr ⟨⟨p, hp⟩, hended, hmissed⟩
  | bootstrap q => exact absurd hp (hnot q)
  | disable => exact absurd hended ((h.closed (phase_eq_closed.mpr hp)).2.2 params)

/-- A refund keeps the exchange sound. -/
theorem sound_bootstrapRefund (h : Sound now s rewards) (hlinked : Linked s')
    (who : Trader AccountId AssetId)
    (hrun : (doBootstrapRefund now who.val asset₀ asset₁).run s = .ok u s') :
    Sound now s' rewards := by
  obtain ⟨contribution, params, t, hsome, hpays, hcases⟩ := run_doBootstrapRefund hrun
  set pair := sortAssetId asset₀ asset₁
  have hpair := h.pairs pair
  have hpersonal : s'.bootstrapPersonalSupply =
      Function.update s.bootstrapPersonalSupply pair
        (Function.update (s.bootstrapPersonalSupply pair) who.val none) := by
    rcases hcases with ⟨-, -, hs⟩ | ⟨-, hs⟩ <;> rw [hs]
  have hself : s'.bootstrapPersonalSupply pair =
      Function.update (s.bootstrapPersonalSupply pair) who.val none := by
    rw [hpersonal]
    exact Function.update_self _ _ _
  have hcontributions : contributions s' pair + contribution = contributions s pair := by
    have hupdate := contributions_update hself
    rwa [hsome, Option.getD_some, Option.getD_none, Prod.mk_zero_zero, add_zero] at hupdate
  have hothers : ∀ q, q ≠ pair → Untouched s s' q := by
    intro q hne
    have hw : ∀ lp, 0 ≤ movesBoth pair (DexGeneralConfig.bootstrapAccountId AssetId) who.val
        contribution lp (DexGeneralConfig.subAccount q) :=
      movesBoth_nonneg (DexGeneralConfig.subAccount_ne_bootstrap q)
    rcases hcases with ⟨-, -, hs⟩ | ⟨-, hs⟩ <;> rw [hs]
    · exact .of_paid hpays hw (Function.update_of_ne hne _ _) (by rw [hpays.bootstrapEndStatus])
        (Function.update_of_ne hne _ _) (by rw [hpays.bootstrapRewards])
        (by rw [hpays.liquidityPairs]) rfl
    · exact .of_paid hpays hw (by rw [hpays.pairStatuses]) (by rw [hpays.bootstrapEndStatus])
        (Function.update_of_ne hne _ _) (by rw [hpays.bootstrapRewards])
        (by rw [hpays.liquidityPairs]) rfl
  have hrecorded : ∀ asset, recordedReward s' pair asset = recordedReward s pair asset := by
    intro asset
    rw [recordedReward, recordedReward]
    rcases hcases with ⟨-, -, hs⟩ | ⟨-, hs⟩ <;> rw [hs] <;> rw [hpays.bootstrapRewards]
  have htokens : s'.tokens = t.tokens := by
    rcases hcases with ⟨-, -, hs⟩ | ⟨-, hs⟩ <;> rw [hs]
  have hphases : phase s pair = .collecting params ∧ contribution ≤ params.accumulatedSupply ∧
        phase s' pair = .collecting { params with
          accumulatedSupply := params.accumulatedSupply - contribution } ∨
      phase s pair = .failed params ∧ phase s' pair = .failed params := by
    rcases hcases with ⟨⟨hp, -⟩, hle, hs⟩ | ⟨⟨hnot, hended, hdisable⟩, hs⟩
    · refine .inl ⟨phase_eq_collecting.mpr hp, hle, ?_⟩
      rw [hs]
      exact phase_eq_collecting.mpr (Function.update_self _ _ _)
    · have hphase := hpair.phase_of_replaced ⟨hnot, hended, hdisable⟩
      refine .inr ⟨hphase, ?_⟩
      rw [← hphase, hs]
      exact phase_congr (by rw [hpays.pairStatuses]) (by rw [hpays.bootstrapEndStatus])
  have hflow : ∀ asset, movesBoth pair (DexGeneralConfig.bootstrapAccountId AssetId) who.val
      contribution asset (DexGeneralConfig.bootstrapAccountId AssetId) =
        -(inAsset pair contribution asset : ℤ) :=
    movesBoth_source who.property.1.symm
  have hrange : ∀ asset, recordedReward s' pair asset ≤ maxBalance := by
    intro asset
    rw [hrecorded]
    exact hpair.recorded_le asset
  rw [← Function.update_eq_self pair rewards]
  refine h.of_paid hlinked hpays htokens hothers ?_ fun asset => ?_
  all_goals rcases hphases with ⟨hphase, hle, hphase'⟩ | ⟨hphase, hphase'⟩
  · obtain ⟨haccount, hmax, hsum⟩ := hpair.collecting params hphase
    refine .of_collecting hrange hphase' (fun asset => ?_) haccount ?_ ?_
    · rw [hpair.reward_of_ne hphase nofun, hrecorded]
    · exact ⟨(Nat.sub_le _ _).trans hmax.1, (Nat.sub_le _ _).trans hmax.2⟩
    · exact add_right_cancel ((hcontributions.trans hsum).trans (sub_add_amounts hle).symm)
  · refine .of_failed hrange hphase' (fun asset => ?_) (hpair.failed params hphase)
    rw [hpair.reward_of_ne hphase nofun, hrecorded]
  · have hsplit := inAsset_add pair (params.accumulatedSupply - contribution) contribution asset
    rw [sub_add_amounts hle] at hsplit
    rw [hflow, owed, owed, hphase, hphase', hsplit]
    push_cast
    linarith
  · have hsplit := inAsset_add pair (contributions s' pair) contribution asset
    rw [hcontributions] at hsplit
    rw [hflow, owed, owed, hphase, hphase', hsplit]
    push_cast
    linarith

private theorem calculateLiquidity_first {x y r₀ r₁ : ℕ}
    (hpos : 0 < calculateLiquidity x y r₀ r₁ 0) :
    calculateLiquidity x y r₀ r₁ 0 = Nat.sqrt (x * y) := by
  rw [calculateLiquidity, if_pos rfl] at hpos ⊢
  cases hroot : ((checkedMul maxU256 x y).map Nat.sqrt).bind (tryInto maxBalance) with
  | none =>
    rw [hroot] at hpos
    exact absurd hpos (by decide)
  | some l =>
    simp only [Option.bind_eq_some_iff, Option.map_eq_some_iff, checkedMul_eq_some,
      tryInto_eq_some] at hroot
    obtain ⟨_, ⟨_, ⟨-, rfl⟩, rfl⟩, -, rfl⟩ := hroot
    rfl

/-- The end of a bootstrap keeps the exchange sound. -/
theorem sound_bootstrapEnd (h : Sound n s rewards) (hlinked : Linked s')
    (hrun : (bootstrapEnd now asset₀ asset₁).run s = .ok u s') : Sound n s' rewards := by
  obtain ⟨params, lp, t, -, hp, -, htarget₀, htarget₁, hpos, hpays, hs⟩ := run_bootstrapEnd hrun
  set pair := sortAssetId asset₀ asset₁
  have hfirst := calculateLiquidity_first hpos
  rw [hfirst] at hpos hpays
  have hpair := h.pairs pair
  have hphase : phase s pair = .collecting params := phase_eq_collecting.mpr hp
  obtain ⟨haccount, hmax, hsum⟩ := hpair.collecting params hphase
  have hphase' : phase s' pair = .succeeded params := by
    rw [hs]
    refine phase_eq_succeeded.mpr ⟨⟨_, Function.update_self _ _ _⟩, Function.update_self _ _ _, ?_⟩
    unfold BootstrapParameter.Missed
    omega
  have hpersonal : s'.bootstrapPersonalSupply = s.bootstrapPersonalSupply := by
    rw [hs]
    exact hpays.bootstrapPersonalSupply
  have hsame : ∀ asset, recordedReward s' pair asset = recordedReward s pair asset := by
    intro asset
    rw [recordedReward, recordedReward, hs]
    rw [hpays.bootstrapRewards]
  have hrange : ∀ asset, recordedReward s' pair asset ≤ maxBalance := by
    intro asset
    rw [hsame]
    exact hpair.recorded_le asset
  have hrecorded : ∀ asset, rewards pair asset = recordedReward s' pair asset := by
    intro asset
    rw [hpair.reward_of_ne hphase nofun, hsame]
  have hcontributions : contributions s' pair = params.accumulatedSupply := by
    rw [contributions, hpersonal]
    exact hsum
  have hclaimable : claimable s' pair params ≤ params.liquidity := by
    exact claimable_le hcontributions hpos
  rw [haccount] at hpays
  have hmoves : ∀ q lp, 0 ≤ movesBoth pair (DexGeneralConfig.bootstrapAccountId AssetId)
      (DexGeneralConfig.subAccount pair) params.accumulatedSupply lp
        (DexGeneralConfig.subAccount q : AccountId) := fun q =>
    movesBoth_nonneg (DexGeneralConfig.subAccount_ne_bootstrap q)
  rw [← Function.update_eq_self pair rewards]
  refine h.of_paid hlinked hpays (by rw [hs]) (fun q hne => ?_) (.of_settled hrange hphase' ?_)
    fun asset => ?_
  · rw [hs]
    exact .of_paid hpays (fun lp => add_nonneg (hmoves q lp) flow_nonneg)
      (Function.update_of_ne hne _ _) (Function.update_of_ne hne _ _)
      (by rw [hpays.bootstrapPersonalSupply]) (by rw [hpays.bootstrapRewards])
      (Function.update_of_ne hne _ _) rfl
  · refine ⟨haccount, hmax, hcontributions.le, hpos, hclaimable, fun lp' hlp' => ?_,
      fun asset => (hrecorded asset).le, fun asset => ?_⟩
    · rw [hs] at hlp'
      obtain rfl : lp = lp' := Option.some.inj ((Function.update_self pair _ _).symm.trans hlp')
      have hfree := freeBalance_pays hpays lp (DexGeneralConfig.subAccount pair)
      rw [Pi.add_apply, Pi.add_apply, flow_self] at hfree
      have := hmoves pair lp
      have htokens : s'.freeBalance lp (DexGeneralConfig.subAccount pair) =
          t.freeBalance lp (DexGeneralConfig.subAccount pair) := by rw [hs]; rfl
      rw [htokens]
      refine hclaimable.trans ?_
      unfold BootstrapParameter.liquidity
      omega
    · rw [hrecorded, mul_comm]
      exact mul_le_mul_of_nonneg_left (by exact_mod_cast hclaimable) (Int.natCast_nonneg _)
  · have hboot : (DexGeneralConfig.bootstrapAccountId AssetId : AccountId) ≠
        DexGeneralConfig.subAccount pair := (DexGeneralConfig.subAccount_ne_bootstrap pair).symm
    rw [Pi.add_apply, Pi.add_apply, movesBoth_source hboot, flow_of_ne hboot, owed, owed, hphase,
      hphase']
    simp only [inAsset_zero, Nat.cast_zero]
    linarith

/-! ### Claims -/

omit [DecidableEq AccountId] [Fintype AccountId] in
private theorem bootstrapTotalLiquidity_eq_some {total : ℕ}
    (h : bootstrapTotalLiquidity params.accumulatedSupply = some total) :
    total = params.liquidity := by
  simp only [bootstrapTotalLiquidity, Option.bind_eq_bind, Option.bind_eq_some_iff,
    checkedMul_eq_some, tryInto_eq_some] at h
  obtain ⟨_, ⟨-, rfl⟩, -, rfl⟩ := h
  rfl

/-- What a claim takes of each reward. -/
def claimedReward (s : DexGeneral AccountId AssetId Tokens) (pair : AssetId × AssetId)
    (share : ℕ) (params : BootstrapParameter AccountId) (asset : AssetId) : ℕ :=
  share * recordedReward s pair asset / params.liquidity

/-- A claim keeps the exchange sound, with the rewards it pays. -/
theorem sound_bootstrapClaim (h : Sound now s rewards) (hlinked : Linked s')
    (who : Trader AccountId AssetId)
    (hrun : (doBootstrapClaim now who.val recipient asset₀ asset₁).run s = .ok u s') :
    ∃ params, s.bootstrapEndStatus (sortAssetId asset₀ asset₁) = .bootstrap params ∧
      Sound now s' (Function.update rewards (sortAssetId asset₀ asset₁) fun asset =>
        rewards (sortAssetId asset₀ asset₁) asset -
          claimedReward s (sortAssetId asset₀ asset₁)
            (claim (s.bootstrapPersonalSupply (sortAssetId asset₀ asset₁) who.val) params) params
            asset) := by
  obtain ⟨p, contribution, params, share, lp, total, t, hp, hpersonal, hended, hdisable, hshare,
    hlp, htotal, hpays, hs⟩ := run_doBootstrapClaim hrun
  set pair := sortAssetId asset₀ asset₁
  obtain rfl := bootstrapTotalLiquidity_eq_some htotal
  have hpair := h.pairs pair
  refine ⟨params, hended, ?_⟩
  -- a bootstrap that missed its targets has ended before this block, and cannot be claimed
  have hphase : phase s pair = .succeeded params := by
    refine phase_eq_succeeded.mpr ⟨⟨p, hp⟩, hended, fun hmissed => ?_⟩
    have hend := hpair.failed params (phase_eq_failed.mpr ⟨⟨p, hp⟩, hended, hmissed⟩)
    have htrue := bootstrapDisable_eq_true.mpr ⟨hend, hmissed⟩
    exact absurd (hdisable.symm.trans htrue) Bool.false_ne_true
  have hphase' : phase s' pair = .succeeded params := by
    rw [← hphase, hs]
    exact phase_congr (by rw [hpays.pairStatuses]) (by rw [hpays.bootstrapEndStatus])
  have hsettled := hpair.succeeded params hphase
  have hclaim : claim (s.bootstrapPersonalSupply pair who.val) params = share := by
    rw [claim, hpersonal, Option.bind_some, hshare, Option.getD_some]
  rw [hclaim]
  have hself : s'.bootstrapPersonalSupply pair =
      Function.update (s.bootstrapPersonalSupply pair) who.val none := by
    rw [hs]
    exact Function.update_self _ _ _
  have hclaimable : claimable s' pair params + share = claimable s pair params := by
    have hupdate : claimable s' pair params +
        claim (s.bootstrapPersonalSupply pair who.val) params =
          claimable s pair params + claim none params := claimable_update hself
    rwa [hclaim] at hupdate
  have hcontributions : contributions s' pair ≤ contributions s pair := by
    have hupdate := contributions_update hself
    rw [Option.getD_none, Prod.mk_zero_zero, add_zero] at hupdate
    rw [← hupdate]
    exact ⟨Nat.le_add_right _ _, Nat.le_add_right _ _⟩
  have hrecorded : ∀ asset, recordedReward s' pair asset = recordedReward s pair asset := by
    intro asset
    rw [recordedReward, recordedReward, hs]
    rw [hpays.bootstrapRewards]
  have hrange : ∀ asset, recordedReward s' pair asset ≤ maxBalance := by
    intro asset
    rw [hrecorded]
    exact hpair.recorded_le asset
  rw [hsettled.account] at hpays
  refine h.of_paid hlinked hpays (by rw [hs]) (fun q hne => ?_) (.of_settled hrange hphase' ?_)
    fun asset => ?_
  · rw [hs]
    refine .of_paid hpays (fun lp' => ?_) (by rw [hpays.pairStatuses])
      (by rw [hpays.bootstrapEndStatus]) (Function.update_of_ne hne _ _)
      (by rw [hpays.bootstrapRewards]) (by rw [hpays.liquidityPairs]) rfl
    have hsub : (DexGeneralConfig.subAccount q : AccountId) ≠ DexGeneralConfig.subAccount pair :=
      fun heq => hne (DexGeneralConfig.subAccount_injective heq)
    exact add_nonneg (moves_nonneg hsub)
      (sum_moves_nonneg (DexGeneralConfig.subAccount_ne_bootstrap q) lp')
  · refine ⟨hsettled.account, hsettled.supply_le, hcontributions.trans hsettled.contributions_le,
      hsettled.liquidity_pos, ?_, fun lp' hlp' => ?_, fun asset => ?_, fun asset => ?_⟩
    · exact (Nat.le_of_add_right_le hclaimable.le).trans hsettled.claimable_le
    · have htoken : s.liquidityPairs pair = some lp' := by
        rw [← hlp', hs]
        rw [hpays.liquidityPairs]
      have hheld := hsettled.claimable_le_held lp' htoken
      have hfree := freeBalance_pays hpays lp' (DexGeneralConfig.subAccount pair)
      have htokens : s'.freeBalance lp' (DexGeneralConfig.subAccount pair) =
          t.freeBalance lp' (DexGeneralConfig.subAccount pair) := by rw [hs]; rfl
      have hpaid : 0 ≤ rewardFlow (s.bootstrapRewards pair)
          (DexGeneralConfig.bootstrapAccountId AssetId) who.val share params.liquidity lp'
            (DexGeneralConfig.subAccount pair) :=
        sum_moves_nonneg (DexGeneralConfig.subAccount_ne_bootstrap pair) lp'
      have hmoved : -(share : ℤ) ≤ moves lp (DexGeneralConfig.subAccount pair) recipient share lp'
          (DexGeneralConfig.subAccount pair) := by
        rw [moves, Pi.sub_apply, Pi.sub_apply, flow_at]
        have hnonneg : 0 ≤ flow lp recipient share lp' (DexGeneralConfig.subAccount pair) :=
          flow_nonneg
        split_ifs <;> omega
      rw [Pi.add_apply, Pi.add_apply] at hfree
      rw [htokens]
      omega
    · rw [hrecorded]
      have := hsettled.reward_le asset
      have := Int.natCast_nonneg (claimedReward s pair share params asset)
      linarith
    · rw [hrecorded, sub_mul]
      have hshares := hsettled.share_le asset
      have hquotient : ((claimedReward s pair share params asset * params.liquidity : ℕ) : ℤ) ≤
          (share * recordedReward s pair asset : ℕ) :=
        Nat.cast_le.mpr (Nat.div_mul_le_self _ _)
      rw [← hclaimable] at hshares
      push_cast at hquotient hshares
      linarith
  · have hne : (DexGeneralConfig.bootstrapAccountId AssetId : AccountId) ≠
        DexGeneralConfig.subAccount pair := (DexGeneralConfig.subAccount_ne_bootstrap pair).symm
    have hmoved : 0 ≤ moves lp (DexGeneralConfig.subAccount pair) recipient share asset
        (DexGeneralConfig.bootstrapAccountId AssetId) := moves_nonneg hne
    have hpaid : rewardFlow (s.bootstrapRewards pair) (DexGeneralConfig.bootstrapAccountId AssetId)
        who.val share params.liquidity asset (DexGeneralConfig.bootstrapAccountId AssetId) =
          -(claimedReward s pair share params asset : ℤ) :=
      sum_moves_source (f := fun x => share * x / params.liquidity)
        (by rw [mul_zero, Nat.zero_div]) who.property.1.symm asset
    rw [Pi.add_apply, Pi.add_apply, hpaid, owed, owed, hphase, hphase']
    simp only [inAsset_zero]
    linarith

/-! ### Charges and withdrawals -/

/-- A call that pays, and writes the rewards of one pair. -/
structure WritesRewards (pair : AssetId × AssetId) (recorded : OrderedMap AssetId ℕ)
    (w : Flow AccountId AssetId) (s t s' : DexGeneral AccountId AssetId Tokens) : Prop where
  pays : Pays w s t
  flow_nonneg : ∀ (q : AssetId × AssetId) lp, 0 ≤ w lp (DexGeneralConfig.subAccount q)
  storage : s' = { t with
    bootstrapRewards := Function.update s.bootstrapRewards pair recorded }

namespace WritesRewards

variable {recorded : OrderedMap AssetId ℕ} {w : Flow AccountId AssetId} {reward : AssetId → ℤ}

section

omit [DecidableEq AccountId] [LawfulWithdrawableCurrency Tokens] [Fintype AccountId]
  [Fintype AssetId]

private theorem tokens (h : WritesRewards pair recorded w s t s') : s'.tokens = t.tokens := by
  rw [h.storage]

private theorem bootstrapPersonalSupply (h : WritesRewards pair recorded w s t s') :
    s'.bootstrapPersonalSupply = s.bootstrapPersonalSupply := by
  rw [h.storage]
  exact h.pays.bootstrapPersonalSupply

private theorem bootstrapEndStatus (h : WritesRewards pair recorded w s t s') :
    s'.bootstrapEndStatus = s.bootstrapEndStatus := by
  rw [h.storage]
  exact h.pays.bootstrapEndStatus

private theorem liquidityPairs (h : WritesRewards pair recorded w s t s') :
    s'.liquidityPairs = s.liquidityPairs := by
  rw [h.storage]
  exact h.pays.liquidityPairs

private theorem phase (h : WritesRewards pair recorded w s t s') (q : AssetId × AssetId) :
    phase s' q = phase s q := by
  rw [h.storage]
  exact phase_congr (by rw [h.pays.pairStatuses]) (by rw [h.pays.bootstrapEndStatus])

private theorem bootstrapRewards (h : WritesRewards pair recorded w s t s') :
    s'.bootstrapRewards pair = recorded := by
  rw [h.storage]
  exact Function.update_self _ _ _

private theorem recordedReward (h : WritesRewards pair recorded w s t s') (asset : AssetId) :
    recordedReward s' pair asset = (recorded.lookup asset).getD 0 := by
  rw [DexGeneral.recordedReward, h.bootstrapRewards]

private theorem untouched (h : WritesRewards pair recorded w s t s') {q : AssetId × AssetId}
    (hne : q ≠ pair) : Untouched s s' q := by
  rw [h.storage]
  exact .of_paid h.pays (h.flow_nonneg q) (by rw [h.pays.pairStatuses])
    (by rw [h.pays.bootstrapEndStatus]) (by rw [h.pays.bootstrapPersonalSupply])
    (Function.update_of_ne hne _ _) (by rw [h.pays.liquidityPairs]) rfl

end

section

omit [DecidableEq AccountId] [LawfulWithdrawableCurrency Tokens] [Fintype AssetId]

private theorem owed (h : WritesRewards pair recorded w s t s') (q : AssetId × AssetId) :
    owed s' q = owed s q := by
  simp only [DexGeneral.owed, contributions, h.phase, h.bootstrapPersonalSupply]

/-- The records of the pair stay sound where the new rewards are. -/
theorem pairSound (h : WritesRewards pair recorded w s t s') {reward' : AssetId → ℤ}
    (hs : PairSound n s reward pair)
    (hempty : ∀ asset, (s.bootstrapRewards pair).lookup asset = none →
      recorded.lookup asset = none)
    (hrange : ∀ asset, (recorded.lookup asset).getD 0 ≤ maxBalance)
    (hreward : (∀ asset, reward asset = DexGeneral.recordedReward s pair asset) →
      ∀ asset, reward' asset = (recorded.lookup asset).getD 0)
    (hle : ∀ asset, reward asset ≤ DexGeneral.recordedReward s pair asset →
      reward' asset ≤ (recorded.lookup asset).getD 0)
    (hshare : ∀ c l : ℕ, c ≤ l →
      ∀ asset, (c : ℤ) * DexGeneral.recordedReward s pair asset ≤ reward asset * l →
        (c : ℤ) * (recorded.lookup asset).getD 0 ≤ reward' asset * l) :
    PairSound n s' reward' pair where
  recorded_le asset := by
    rw [h.recordedReward]
    exact hrange asset
  reward_eq hphase asset := by
    rw [h.phase] at hphase
    rw [h.recordedReward]
    exact hreward (hs.reward_eq hphase) asset
  closed hphase := by
    rw [h.phase] at hphase
    rw [h.bootstrapPersonalSupply, h.bootstrapRewards, h.bootstrapEndStatus]
    obtain ⟨hpersonal, hlookup, hended⟩ := hs.closed hphase
    exact ⟨hpersonal, fun asset => hempty asset (hlookup asset), hended⟩
  collecting params hphase := by
    rw [h.phase] at hphase
    rw [contributions, h.bootstrapPersonalSupply]
    exact hs.collecting params hphase
  failed params hphase := hs.failed params (h.phase pair ▸ hphase)
  succeeded params hphase := by
    rw [h.phase] at hphase
    have hsettled := hs.succeeded params hphase
    have hclaimable : claimable s' pair params = claimable s pair params := by
      rw [claimable, claimable, h.bootstrapPersonalSupply]
    refine ⟨hsettled.account, hsettled.supply_le, ?_, hsettled.liquidity_pos, ?_,
      fun lp hlp => ?_, fun asset => ?_, fun asset => ?_⟩
    · rw [contributions, h.bootstrapPersonalSupply]
      exact hsettled.contributions_le
    · rw [hclaimable]
      exact hsettled.claimable_le
    · rw [h.liquidityPairs] at hlp
      have hfree := freeBalance_pays h.pays lp (DexGeneralConfig.subAccount pair)
      have hpaid := h.flow_nonneg pair lp
      have hheld := hsettled.claimable_le_held lp hlp
      have htokens : s'.freeBalance lp (DexGeneralConfig.subAccount pair) =
          t.freeBalance lp (DexGeneralConfig.subAccount pair) := by
        rw [freeBalance, freeBalance, h.tokens]
      rw [hclaimable, htokens]
      omega
    · rw [h.recordedReward]
      exact hle asset (hsettled.reward_le asset)
    · rw [hclaimable, h.recordedReward]
      exact hshare _ _ hsettled.claimable_le asset (hsettled.share_le asset)

end

end WritesRewards

/-- Rewards that are paid in keep the exchange sound. -/
theorem sound_bootstrapChargeReward {charges : List (AssetId × ℕ)} (h : Sound n s rewards)
    (hlinked : Linked s') (who : Trader AccountId AssetId)
    (hrun : (bootstrapChargeReward who.val asset₀ asset₁ charges).run s = .ok u s') :
    Sound n s' (Function.update rewards (sortAssetId asset₀ asset₁) fun asset =>
      rewards (sortAssetId asset₀ asset₁) asset + charged charges asset) := by
  obtain ⟨recorded, t, hpays, hmem, hlookup, hrange, hs⟩ := run_bootstrapChargeReward hrun
  set pair := sortAssetId asset₀ asset₁
  have hwrites : WritesRewards pair recorded _ s t s' :=
    ⟨hpays, fun q lp => sum_moves_nonneg (who.property.2 q).symm lp, hs⟩
  -- only assets with a record are charged
  have hrecorded : ∀ asset, (recorded.lookup asset).getD 0 =
      recordedReward s pair asset + charged charges asset := by
    intro asset
    rw [hlookup, recordedReward]
    cases hcase : (s.bootstrapRewards pair).lookup asset with
    | none =>
      have hnot : ∀ charge ∈ charges, charge.1 ≠ asset := by
        rintro charge hcharge rfl
        have hsome := hmem charge hcharge
        rw [hcase] at hsome
        exact Bool.false_ne_true hsome
      rw [charged_eq_zero hnot]
      rfl
    | some x => rfl
  refine h.of_paid hlinked hpays hwrites.tokens (fun q hne => hwrites.untouched hne)
    (hwrites.pairSound (h.pairs pair) (fun asset hnone => ?_)
      (hrange (h.pairs pair).recorded_le) (fun hreward asset => ?_) (fun asset hle => ?_)
      fun c l hcl asset hshare => ?_) fun asset => ?_
  · rw [hlookup, hnone]
    rfl
  · rw [hrecorded, hreward, Nat.cast_add]
  · rw [hrecorded, Nat.cast_add]
    linarith
  · have hcharged : (c : ℤ) * charged charges asset ≤ l * charged charges asset :=
      mul_le_mul_of_nonneg_right (Nat.cast_le.mpr hcl) (Int.natCast_nonneg _)
    rw [hrecorded, Nat.cast_add]
    linarith
  · rw [hwrites.owed, sum_moves_destination who.property.1.symm]
    linarith

omit [DecidableEq AccountId] [LawfulWithdrawableCurrency Tokens] [Fintype AssetId] in
/-- What is not distributed is not negative. -/
theorem PairSound.reward_nonneg {reward : AssetId → ℤ} (h : PairSound n s reward pair)
    (asset : AssetId) : 0 ≤ reward asset := by
  cases hphase : phase s pair with
  | succeeded params =>
    have hsettled := h.succeeded params hphase
    have hshare := hsettled.share_le asset
    have hpos : (0 : ℤ) < params.liquidity := Nat.cast_pos.mpr hsettled.liquidity_pos
    refine nonneg_of_mul_nonneg_left (le_trans ?_ hshare) hpos
    exact mul_nonneg (Int.natCast_nonneg _) (Int.natCast_nonneg _)
  | closed | collecting | failed | plain =>
    rw [h.reward_of_ne hphase (fun _ => nofun)]
    exact Int.natCast_nonneg _

/-- A withdrawal takes all that is recorded. It is covered where none of that was distributed, and
where it goes to the account it comes from. -/
theorem sound_bootstrapWithdrawReward (h : Sound n s rewards) (hlinked : Linked s')
    (hcovered : recipient = DexGeneralConfig.bootstrapAccountId AssetId ∨
      ∀ asset, (recordedReward s (sortAssetId asset₀ asset₁) asset : ℤ) ≤
        rewards (sortAssetId asset₀ asset₁) asset)
    (hrun : (bootstrapWithdrawReward asset₀ asset₁ recipient).run s = .ok u s') :
    Sound n s' (Function.update rewards (sortAssetId asset₀ asset₁) fun _ => 0) := by
  obtain ⟨t, hpays, hs⟩ := run_bootstrapWithdrawReward hrun
  set pair := sortAssetId asset₀ asset₁
  have hwrites : WritesRewards pair _ _ s t s' :=
    ⟨hpays, fun q lp => sum_moves_nonneg (DexGeneralConfig.subAccount_ne_bootstrap q) lp, hs⟩
  have hzero : ∀ asset, ((((s.bootstrapRewards pair).mapValues fun _ => 0).lookup asset).getD 0) =
      0 := by
    intro asset
    rw [OrderedMap.lookup_mapValues]
    cases (s.bootstrapRewards pair).lookup asset with
    | none => rfl
    | some x => rfl
  refine h.of_paid hlinked hpays hwrites.tokens (fun q hne => hwrites.untouched hne)
    (hwrites.pairSound (h.pairs pair) (fun asset hnone => ?_) (fun asset => ?_)
      (fun _ asset => ?_) (fun asset _ => ?_) fun c l _ asset _ => ?_) fun asset => ?_
  · rw [OrderedMap.lookup_mapValues, hnone]
    rfl
  · rw [hzero]
    exact Nat.zero_le _
  · rw [hzero]
    rfl
  · rw [hzero]
    rfl
  · rw [hzero, Nat.cast_zero, mul_zero, zero_mul]
  · have hnonneg := (h.pairs pair).reward_nonneg asset
    rw [hwrites.owed]
    rcases eq_or_ne recipient (DexGeneralConfig.bootstrapAccountId AssetId) with rfl | hne
    · have hsame : ∀ x ∈ (s.bootstrapRewards pair).entries.map fun e =>
          moves e.1 (DexGeneralConfig.bootstrapAccountId AssetId)
            (DexGeneralConfig.bootstrapAccountId AssetId : AccountId) e.2, x = 0 := by
        intro x hx
        obtain ⟨e, -, rfl⟩ := List.mem_map.mp hx
        exact sub_self _
      rw [List.sum_eq_zero hsame]
      simp only [Pi.zero_apply]
      linarith
    · have hpaid : ((s.bootstrapRewards pair).entries.map fun e => moves e.1
          (DexGeneralConfig.bootstrapAccountId AssetId) recipient e.2).sum asset
            (DexGeneralConfig.bootstrapAccountId AssetId) =
          -(((s.bootstrapRewards pair).lookup asset).getD 0 : ℤ) :=
        sum_moves_source (f := fun x => x) rfl hne.symm asset
      have hle := hcovered.resolve_left hne asset
      rw [hpaid]
      unfold recordedReward at hle
      linarith

end Bootstrap

end Interbtc.DexGeneral
