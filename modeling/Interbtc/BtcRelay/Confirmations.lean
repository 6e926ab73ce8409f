import Interbtc.BtcRelay.Sortedness

/-!
# Confirmations while there are forks

A block counts as confirmed if no fork is close to the main chain. The relay reads this from
the first fork of the queue, so it rests on the order of the queue, and on each fork that is
far enough ahead becoming the main chain.
-/

namespace Interbtc.BtcRelay

open Core Core.PositionMap

variable {s s' s₁ : BtcRelay} {order pre post : List ℕ} {header : BlockHeader} {k c : ℕ}
  {prev : RichBlockHeader} {prevChain fork : BlockChain} {sha256d : List UInt8 → H256Le}

/-! ## Forks stay behind -/

/-- No fork is a number of blocks ahead of the main chain. -/
def Behind (s : BtcRelay) (k : ℕ) : Prop :=
  ∀ c, c ≠ mainChainId → (s.chainsIndex c).isSome = true →
    s.heightOf c < s.heightOf mainChainId + k

private theorem Accepted.heightOf (ha : Accepted s header prev prevChain) :
    s.heightOf prev.chainId = prevChain.maxHeight :=
  heightOf_of_some ha.chain

/-- A new fork is not higher than the chain it leaves. -/
theorem Creates.behind (h : Creates s header (prev.blockHeight + 1) order s') (hs : Structured s)
    (ha : Accepted s header prev prevChain) (hne : prevChain.maxHeight ≠ prev.blockHeight)
    (hk : 1 ≤ k) (hb : Behind s k) : Behind s' k := by
  intro c hc hsome
  have hlt := hs.lt_counter ha.chain
  have hpos : mainChainId ≠ s.chainCounter := (Nat.zero_lt_of_lt hlt).ne
  have hmain : s'.heightOf mainChainId = s.heightOf mainChainId := by
    rw [h.heightOf, if_neg hpos]
  rw [hmain, h.heightOf]
  rw [h.index_apply] at hsome
  by_cases hnew : c = s.chainCounter
  · rw [if_pos hnew]
    obtain ⟨own, hown, -, hmax⟩ := hs.chain_of ha.parent
    obtain rfl := Option.some.inj (hown.symm.trans ha.chain)
    have hheight := ha.heightOf
    by_cases hprev : prev.chainId = mainChainId
    · rw [hprev] at hheight
      omega
    · have hbehind := hb prev.chainId hprev (by rw [ha.chain]; rfl)
      omega
  · rw [if_neg hnew] at hsome ⊢
    exact hb c hc hsome

private theorem Extends.behind_main (h : Extends s header (prev.blockHeight + 1) prevChain s')
    (ha : Accepted s header prev prevChain) (hmax : prevChain.maxHeight = prev.blockHeight)
    (hmain : prev.chainId = mainChainId) (hid : prevChain.chainId = prev.chainId)
    (hb : Behind s k) : Behind s' k := by
  intro c hc hsome
  have hheight := ha.heightOf
  rw [hmain] at hheight hid
  rw [h.heightOf, h.heightOf, hid, if_neg hc, if_pos rfl]
  rw [h.index_apply, hid, if_neg hc] at hsome
  have hbehind := hb c hc hsome
  omega

/-- A fork that has caught up with no other one in front of it becomes the main chain. -/
theorem Reorganized.behind (h : Reorganized s₁ fork pre post s')
    (hheight : s₁.heightOf fork.chainId = fork.maxHeight)
    (hk : 1 ≤ k) (hconf : s₁.stableBitcoinConfirmations = k)
    (hothers : ∀ c, c ≠ mainChainId → c ≠ fork.chainId → (s₁.chainsIndex c).isSome = true →
      s₁.heightOf c < s₁.heightOf mainChainId + k)
    (hfork : s₁.heightOf mainChainId + k ≤ fork.maxHeight →
      pre = [] ∧ fork.maxHeight = s₁.heightOf mainChainId + k) : Behind s' k := by
  intro c hc hsome
  cases h with
  | moved front mid hpre hascend hqueue hstop =>
    rw [hqueue.heightOf, hqueue.heightOf]
    rw [hqueue.index] at hsome
    by_cases hcf : c = fork.chainId
    · rw [hcf, hheight]
      by_contra hahead
      obtain ⟨hnil, heq⟩ := hfork (not_lt.mp hahead)
      obtain ⟨rfl, rfl⟩ := List.append_eq_nil_iff.mp (hpre.symm.trans hnil)
      rcases hstop with ⟨d, hd, -⟩ | ⟨-, hshort⟩
      · cases hd
      · refine hshort ⟨?_, ?_⟩
        · change _ < fork.maxHeight
          omega
        · change min _ _ ≤ fork.maxHeight
          rw [hconf]
          omega
    · exact hothers c hc hcf hsome
  | swapped main path node a s₀ s₂ p₁ p₂ hqueue hover hswap haside hsplit hresort =>
    have hlt := hover.lt
    have hmain : s₁.heightOf mainChainId = main.maxHeight := by
      rw [← hqueue.heightOf, heightOf_of_some hover.mainChain]
    rw [hresort.heightOf, hresort.heightOf, hswap.heightOf, hswap.heightOf, if_pos rfl, if_neg hc]
    rw [hresort.index, hswap.isSome, hqueue.index] at hsome
    by_cases hcf : c = fork.chainId
    · rw [if_pos hcf]
      omega
    · rw [if_neg hcf, hqueue.heightOf]
      have hbehind := hothers c hc hcf hsome
      omega

private theorem Stores.behind (h : Stores s header prev prevChain order s') (hs : Structured s)
    (ha : Arranged s order) (haccepted : Accepted s header prev prevChain) (hk : 1 ≤ k)
    (hconf : s.stableBitcoinConfirmations = k) (hb : Behind s k)
    (hties : s.heightOf mainChainId + k ≤ prev.blockHeight + 1 →
      ((s.extendedFork header).map s.ties).getD 0 = 0) : Behind s' k := by
  obtain ⟨hid, -⟩ := hs.index _ _ haccepted.chain
  have hheight := haccepted.heightOf
  cases h with
  | forks hne hnew => exact hnew.behind hs haccepted hne hk hb
  | extendsMain hmax hmain s₁ hnew hbest =>
    subst hbest
    exact hnew.behind_main haccepted hmax (hid ▸ hmain) hid hb
  | extendsFork hmax hfork s₁ hnew hmove =>
    obtain ⟨pre, post, rfl, hs₁, hmoved⟩ := hnew.run_reorganize hs ha haccepted hmax hfork hmove
    have hextended : s.extendedFork header = some prevChain.chainId := by
      rw [extendedFork, haccepted.parent, Option.bind_some, haccepted.chain, Option.bind_some,
        if_pos ⟨hmax, hid ▸ hfork⟩, hid]
    rw [hextended, Option.map_some, Option.getD_some, ties_eq ha] at hties
    have hmain : s₁.heightOf mainChainId = s.heightOf mainChainId := by
      rw [hnew.heightOf, if_neg hfork.symm]
    have hown : s.heightOf prevChain.chainId < s.heightOf mainChainId + k := by
      refine hb _ hfork ?_
      rw [hid, haccepted.chain]
      rfl
    rw [← hid] at hheight
    refine hmoved.behind ?_ hk (hnew.rest.bitcoinConfirmations.trans hconf)
      (fun c hc hcf hsome => ?_) fun hahead => ?_
    · rw [hnew.heightOf]
      exact if_pos rfl
    · dsimp only at hcf
      rw [hnew.index_apply, if_neg hcf] at hsome
      rw [hnew.heightOf, if_neg hcf, hmain]
      exact hb c hc hsome
    · rw [hmain] at hahead ⊢
      have hzero := List.countP_eq_zero.mp (hties hahead)
      refine ⟨List.eq_nil_iff_forall_not_mem.mpr fun d hd => ?_, ?_⟩
      · have hnot := hzero d hd
        rw [decide_eq_true_eq] at hnot
        have hmem : d ∈ mainChainId :: (pre ++ prevChain.chainId :: post) :=
          List.mem_cons_of_mem _ (List.mem_append_left _ hd)
        have hdmain : d ≠ mainChainId := by
          rintro rfl
          exact (List.nodup_cons.mp ha.nodup).1 (List.mem_append_left _ hd)
        have hbehind := hb d hdmain ((hs.ids d).mpr ((ha.ids d).mp hmem))
        dsimp only at hahead
        omega
      · dsimp only at hahead ⊢
        omega

/-! ## Runs -/

/-- The height of the header that an operation stores. -/
def Op.height (s : BtcRelay) : Op → ℕ
  | .initializeRelay _ blockHeight => blockHeight
  | .storeBlockHeader header _ =>
    ((s.blockHeaders header.hashPrevBlock).map fun prev => prev.blockHeight + 1).getD 0
  | .toBlock _ => 0

/-- An accepted header extends no fork that stands behind two others that are not higher, and none
that stands behind one if it is far enough ahead of the main chain. -/
def Op.Overtakes (sha256d : List UInt8 → H256Le) (k : ℕ) (s : BtcRelay) (op : Op) : Prop :=
  (op.call sha256d).succeeds s = true →
    op.ties s ≤ 1 ∧ (s.heightOf mainChainId + k ≤ op.height s → op.ties s = 0)

instance (s : BtcRelay) (op : Op) : Decidable (op.Overtakes sha256d k s) :=
  inferInstanceAs (Decidable (_ → _))

/-- The chains, sorted and no fork ahead. -/
structure Watched (k : ℕ) (s : BtcRelay) : Prop extends Queued s where
  confirmations : s.stableBitcoinConfirmations = k
  behind : Behind s k

private theorem Changes.behind {op : Op} (h : Changes sha256d s order op s') (hs : Structured s)
    (ha : Arranged s order) (hk : 1 ≤ k) (hconf : s.stableBitcoinConfirmations = k)
    (hb : Behind s k) (hop : s.heightOf mainChainId + k ≤ op.height s → op.ties s = 0) :
    Behind s' k := by
  cases h with
  | initializes header height hash s₁ h =>
    have hzero := hs.counter_eq_zero h.uninitialized
    intro c hc hsome
    have hindex : ({ s₁.withBest hash height with startBlockHeight := some height } :
        BtcRelay).chainsIndex c = _ := h.creates.index_apply c
    rw [hindex, hzero, if_neg (show ¬c = 0 from hc), hs.index_none (by omega)] at hsome
    cases hsome
  | stores header forkBound hash prev prevChain _ haccepted h =>
    refine h.behind hs ha haccepted hk hconf hb fun hahead => hop ?_
    rw [Op.height, haccepted.parent]
    exact hahead
  | passes n => exact hb

private theorem Watched.step (hs : Watched k s) (hk : 1 ≤ k) {op : Op}
    (hop : op.Overtakes sha256d k s) :
    Watched k (BtcRelay.step sha256d s op) := by
  obtain ⟨order, ha, hsorted⟩ := hs.sorted
  rcases step_cases op ha.lists with heq | ⟨hsucceeds, hchanges⟩
  · rw [heq]
    exact hs
  · obtain ⟨hstructured, order', harranged, hkeep⟩ := hchanges.arranged hs.toStructured ha
    obtain ⟨hties, hahead⟩ := hop hsucceeds
    exact ⟨⟨hstructured, order', harranged, hkeep hsorted hties⟩,
      (hchanges.parameters hs.toStructured ha).bitcoinConfirmations.trans hs.confirmations,
      hchanges.behind hs.toStructured ha hk hs.confirmations hs.behind hahead⟩

private theorem Watched.genesis (k p : ℕ) (disable : Bool) :
    Watched k (BtcRelay.genesis k p disable) where
  toQueued := .genesis k p disable
  confirmations := rfl
  behind _ _ h := nomatch h

/-! ## Inclusion -/

/-- The best block is the confirmations ahead of the highest fork, where the sum wraps at 32 bits.
-/
theorem run_ensureNoOngoingFork {u : Unit} {best : ℕ}
    (h : (ensureNoOngoingFork best).run s = .ok u s') :
    s' = s ∧ ∀ c, s.chains.lookup 1 = some c →
      (s.heightOf c + s.stableBitcoinConfirmations) % 2 ^ 32 ≤ best := by
  simp only [ensureNoOngoingFork, Call.run_bind_eq_ok, Call.run_get_eq_ok] at h
  obtain ⟨_, _, ⟨rfl, rfl⟩, h⟩ := h
  cases hl : s.chains.lookup 1 with
  | none =>
    rw [hl] at h
    exact ⟨(Call.run_pure_eq_ok.mp h).2.symm, fun _ hc => by cases hc⟩
  | some c =>
    rw [hl] at h
    simp only [Call.run_bind_eq_ok, run_getBlockChainFromId, Call.run_ensure_eq_ok] at h
    obtain ⟨chain, _, ⟨hchain, rfl⟩, hle, rfl⟩ := h
    refine ⟨rfl, fun d hd => ?_⟩
    obtain rfl := Option.some.inj hd
    rw [heightOf_of_some hchain]
    exact hle

/-- What a successful check of a block's inclusion has checked. -/
theorem run_verifyBlockHeaderInclusion {blockHash : H256Le} {confirmations : Option ℕ}
    (h : (verifyBlockHeaderInclusion blockHash confirmations).run s = .ok header s') :
    (∀ c, s.chains.lookup 1 = some c → (s.heightOf c + s.stableBitcoinConfirmations) % 2 ^ 32 ≤
        s.bestBlockHeight) ∧
      ∃ b, s.blockHeaders blockHash = some b ∧ b.blockHeader = header ∧
        b.chainId = mainChainId ∧
        b.blockHeight + confirmations.getD s.stableBitcoinConfirmations ≤ s.bestBlockHeight + 1 := by
  simp only [verifyBlockHeaderInclusion, getBlockHeaderFromHash, checkBitcoinConfirmations,
    Call.run_bind_eq_ok, Call.run_get_eq_ok, Call.run_ensure_eq_ok, Call.run_ofOption_eq_ok,
    Call.run_pure_eq_ok] at h
  obtain ⟨_, _, ⟨rfl, rfl⟩, _, s₁, hcheck, b, _, ⟨_, _, ⟨rfl, rfl⟩, hb, rfl⟩, _, _, ⟨hmain, rfl⟩, _,
    _, ⟨_, _, ⟨rfl, rfl⟩, _, _, ⟨-, rfl⟩, hconf, rfl⟩, _, _, -, rfl, -⟩ := h
  obtain ⟨rfl, hfork⟩ := run_ensureNoOngoingFork hcheck
  exact ⟨hfork, b, hb, rfl, hmain, by omega⟩

/-- In a run in which no accepted header extends a fork that stands behind two others that are not
higher, nor one that stands behind another if it reaches the confirmations ahead of the main
chain: where a block's inclusion is verified, it is on the main chain with the required
confirmations and every fork, if its height and the confirmations fit in 32 bits, is behind by the
confirmations; and no fork is ahead by them. -/
theorem confirmed_without_forks (sha256d : List UInt8 → H256Le) (k p : ℕ) (disable : Bool)
    (ops : List Op) :
    1 ≤ k → Meets (BtcRelay.step sha256d) (fun s op => op.Overtakes sha256d k s)
        (BtcRelay.genesis k p disable) ops →
      let s := run (BtcRelay.step sha256d) (BtcRelay.genesis k p disable) ops
      (∀ blockHash confirmations header s',
        (verifyBlockHeaderInclusion blockHash confirmations).run s = .ok header s' →
        (∀ c, c ≠ mainChainId → (s.chainsIndex c).isSome = true → s.heightOf c + k < 2 ^ 32) →
          (∃ b, s.blockHeaders blockHash = some b ∧ b.blockHeader = header ∧
            b.chainId = mainChainId ∧
            b.blockHeight + confirmations.getD k ≤ s.bestBlockHeight + 1) ∧
          ∀ c, c ≠ mainChainId → (s.chainsIndex c).isSome = true →
            s.heightOf c + k ≤ s.bestBlockHeight) ∧
      ∀ c, c ≠ mainChainId → (s.chainsIndex c).isSome = true →
        s.heightOf c < s.heightOf mainChainId + k := by
  intro hk hmeets s
  have hs : Watched k s :=
    run_invariant (fun _ _ hs hop => hs.step hk hop) (.genesis k p disable) hmeets
  refine ⟨fun blockHash confirmations header s' hverify hfits => ?_, hs.behind⟩
  obtain ⟨hfirst, hblock⟩ := run_verifyBlockHeaderInclusion hverify
  rw [hs.confirmations] at hfirst hblock
  refine ⟨hblock, fun c hc hsome => ?_⟩
  obtain ⟨order, ha, hsorted⟩ := hs.sorted
  have hlt := (hs.ids c).mp hsome
  obtain ⟨tail, rfl⟩ := ha.cons (Nat.zero_lt_of_lt hlt)
  have hmem := (List.mem_cons.mp ((ha.ids c).mpr hlt)).resolve_left hc
  cases tail with
  | nil => cases hmem
  | cons first tail =>
    have hhead : first ≠ mainChainId := by
      rintro rfl
      exact (List.nodup_cons.mp ha.nodup).1 List.mem_cons_self
    have hfirstLt := (ha.ids first).mp (List.mem_cons_of_mem _ List.mem_cons_self)
    have hfit := hfits first hhead ((hs.ids first).mpr hfirstLt)
    have hle := hfirst first (ha.lists 1)
    rw [Nat.mod_eq_of_lt hfit] at hle
    rcases List.mem_cons.mp hmem with rfl | hmem
    · exact hle
    · have hbelow := (List.pairwise_cons.mp hsorted).1 c hmem
      omega

/-- A run with forks of one height meets the condition. -/
theorem confirmed_without_forks_tiedForks :
    let s := run (BtcRelay.step nonceHash) (BtcRelay.genesis 3 0 false) (nonceOps tiedForks)
    (verifyBlockHeaderInclusion (.fromInteger 21) none).succeeds s = true ∧
      ∀ c, c ≠ mainChainId → (s.chainsIndex c).isSome = true →
        s.heightOf c + 3 ≤ s.bestBlockHeight := by
  intro s
  have hsucceeds : (verifyBlockHeaderInclusion (.fromInteger 21) none).succeeds s = true := by
    decide +kernel
  obtain ⟨hverify, hbehind⟩ := confirmed_without_forks nonceHash 3 0 false (nonceOps tiedForks)
    (by decide) (by decide +kernel)
  obtain ⟨header, s', hrun⟩ := Call.succeeds_iff.mp hsucceeds
  have hmain : s.heightOf mainChainId = 5 := by decide +kernel
  refine ⟨hsucceeds, (hverify _ _ header s' hrun fun c hc hsome => ?_).2⟩
  have hlt : s.heightOf c < s.heightOf mainChainId + 3 := hbehind c hc hsome
  change s.heightOf c + 3 < 2 ^ 32
  omega

/-- Two forks of equal height, one of which gets three blocks ahead of the main chain. -/
def leadingForks : List (ℕ × ℕ) :=
  [(2, 1), (10, 1), (20, 1), (11, 10), (21, 20), (12, 11), (22, 21), (23, 22)]

/-- Not every run does. -/
theorem not_confirmed_without_forks :
    ¬∀ (sha256d : List UInt8 → H256Le) (k p : ℕ) (disable : Bool) (ops : List Op),
      let s := run (BtcRelay.step sha256d) (BtcRelay.genesis k p disable) ops
      (∀ blockHash confirmations header s',
        (verifyBlockHeaderInclusion blockHash confirmations).run s = .ok header s' →
          (∃ b, s.blockHeaders blockHash = some b ∧ b.blockHeader = header ∧
            b.chainId = mainChainId ∧
            b.blockHeight + confirmations.getD k ≤ s.bestBlockHeight + 1) ∧
          ∀ c, c ≠ mainChainId → (s.chainsIndex c).isSome = true →
            s.heightOf c + k ≤ s.bestBlockHeight) ∧
      ∀ c, c ≠ mainChainId → (s.chainsIndex c).isSome = true →
        s.heightOf c < s.heightOf mainChainId + k := by
  intro h
  have hbehind := (h nonceHash 3 0 false (nonceOps leadingForks)).2 2 (by decide)
    (by decide +kernel)
  have hahead : ¬(run (BtcRelay.step nonceHash) (BtcRelay.genesis 3 0 false)
      (nonceOps leadingForks)).heightOf 2 < (run (BtcRelay.step nonceHash)
        (BtcRelay.genesis 3 0 false) (nonceOps leadingForks)).heightOf mainChainId + 3 := by
    decide +kernel
  exact hahead hbehind

end Interbtc.BtcRelay
