import Interbtc.BtcRelay.Ordering

/-!
# The structure holds over all runs

Every operation keeps the structure of the stored chains and the queue that lists them, from
the storage before the first header on.
-/

namespace Interbtc.BtcRelay

open Core Core.PositionMap

variable {s s' s₁ : BtcRelay} {u : Unit} {order pre post : List ℕ} {header : BlockHeader}
  {height c : ℕ} {prev b : RichBlockHeader} {x : H256Le} {chain prevChain fork : BlockChain}
  {sha256d : List UInt8 → H256Le}

/-! ## One operation -/

/-- A chain that has no index has no blocks. -/
theorem Linked.hashes_none (hs : Linked s) (hc : s.chainsIndex c = none) (height : ℕ) :
    s.chainsHashes c height = none := by
  rw [← Option.not_isSome_iff_eq_none, hs.entries, hc]
  rintro ⟨_, hsome, -⟩
  cases hsome

/-- Ids that were not given out have no chain. -/
theorem Linked.index_none (hs : Linked s) (hc : s.chainCounter ≤ c) : s.chainsIndex c = none := by
  rw [← Option.not_isSome_iff_eq_none, hs.ids]
  omega

/-- The id of a chain was given out. -/
theorem Linked.lt_counter (hs : Linked s) (hc : s.chainsIndex c = some chain) :
    c < s.chainCounter := by
  rw [← hs.ids, hc]
  rfl

/-- A new chain keeps the structure if its block is the first header or on top of one. -/
theorem Linked.creates (hs : Linked s)
    (hadds : Adds s header.hash (s.placed header height s.chainCounter)
      ⟨s.chainCounter, height, height⟩ s')
    (hcounter : s'.chainCounter = s.chainCounter + 1) (hfresh : s.blockHeaders header.hash = none)
    (hfirst : s.chainCounter = mainChainId → s.startBlockHeight = some height)
    (hparent : s'.IsFirst (s.placed header height s.chainCounter) ∨
      ∃ p, s'.blockHeaders header.hashPrevBlock = some p ∧ p.blockHeight + 1 = height ∧
        s'.Joins p (s.placed header height s.chainCounter)) : Linked s' := by
  have hnone := hs.index_none le_rfl
  refine hs.adds hadds hfresh rfl rfl rfl (fun t => ?_) (hs.hashes_none hnone _)
    (fun old hold => ?_) hfirst (fun c => ?_) hparent
  · dsimp only [placed]
    rw [hs.hashes_none hnone]
    constructor
    · exact fun hle => .inl (Nat.le_antisymm hle.2 hle.1)
    · rintro (rfl | hsome)
      · exact ⟨le_rfl, le_rfl⟩
      · cases hsome
  · exact absurd (hnone.symm.trans hold) (Option.some_ne_none old).symm
  · have hindex : s'.chainsIndex c = if c = s.chainCounter then
        some ⟨s.chainCounter, height, height⟩ else s.chainsIndex c := hadds.index_apply c
    rw [hindex, hcounter]
    by_cases hc : c = s.chainCounter
    · rw [if_pos hc]
      exact ⟨fun _ => by omega, fun _ => rfl⟩
    · rw [if_neg hc, hs.ids]
      omega

private theorem Creates.linked_fork (h : Creates s header (prev.blockHeight + 1) order s')
    (hs : Linked s)
    (ha : Accepted s header prev prevChain) (hne : prevChain.maxHeight ≠ prev.blockHeight) :
    Linked s' := by
  have hlt := hs.lt_counter ha.chain
  refine hs.creates h.adds h.counter ha.fresh (fun hzero => ?_) (.inr ⟨prev, ?_, rfl,
    .inr ⟨⟨⟨s.chainCounter, _, prev.blockHeight + 1⟩, ?_, rfl⟩, prevChain, ?_, ?_⟩⟩)
  · rw [hzero] at hlt
    cases hlt
  · rw [h.adds.headers_apply, if_neg]
    · exact ha.parent
    · intro heq
      have hparent := ha.parent
      rw [heq, ha.fresh] at hparent
      cases hparent
  · rw [h.index_apply]
    exact if_pos rfl
  · rw [h.index_apply, if_neg]
    · exact ha.chain
    · exact hlt.ne
  · obtain ⟨own, hown, -, hmax⟩ := hs.chain_of ha.parent
    obtain rfl := Option.some.inj (hown.symm.trans ha.chain)
    omega

private theorem Extends.linked (h : Extends s header (prev.blockHeight + 1) prevChain s')
    (hs : Linked s)
    (ha : Accepted s header prev prevChain) (hmax : prevChain.maxHeight = prev.blockHeight) :
    Linked s' := by
  obtain ⟨hid, hrange⟩ := hs.index _ _ ha.chain
  have hchain : s.chainsIndex prevChain.chainId = some prevChain := hid ▸ ha.chain
  refine hs.adds h.adds ha.fresh rfl rfl rfl (fun t => ?_) h.empty (fun old hold => ?_)
    (fun hmain => ?_) (fun c => ?_) (.inr ⟨prev, ?_, rfl, .inl hid.symm⟩)
  · dsimp only [placed]
    rw [hs.entries, hchain, exists_some_eq]
    omega
  · obtain rfl := Option.some.inj (hold.symm.trans hchain)
    dsimp only
    omega
  · rw [show prevChain.chainId = mainChainId from hmain] at hchain
    exact hs.main prevChain hchain
  · rw [h.index_apply, h.counter]
    by_cases hc : c = prevChain.chainId
    · rw [if_pos hc, hc]
      exact ⟨fun _ => hs.lt_counter hchain, fun _ => rfl⟩
    · rw [if_neg hc, hs.ids]
  · rw [h.adds.headers_apply, if_neg]
    · exact ha.parent
    · intro heq
      have hparent := ha.parent
      dsimp only [placed] at heq
      rw [heq, ha.fresh] at hparent
      cases hparent

/-- The relay has no chains as long as it has no best block. -/
theorem Structured.counter_eq_zero (hs : Structured s) (hnone : s.bestBlock = none) :
    s.chainCounter = 0 := by
  by_contra hne
  obtain ⟨chain, hchain⟩ := Option.isSome_iff_exists.mp
    ((hs.ids mainChainId).mpr (Nat.pos_of_ne_zero hne))
  have hentry : (s.chainsHashes mainChainId chain.maxHeight).isSome = true :=
    (hs.entries _ _).mpr ⟨chain, hchain, (hs.index _ _ hchain).2, le_rfl⟩
  rw [← (hs.best chain hchain).2, hnone] at hentry
  cases hentry

private theorem Structured.requeued (hs : Structured s) (h : Requeued s s' order) : Structured s'
    where
  toLinked := hs.toLinked.requeued h
  best := by
    rw [h.1]
    exact hs.best

private theorem Initializes.structured (h : Initializes s header height order s₁)
    (hs : Structured s) :
    Structured { s₁.withBest header.hash height with startBlockHeight := some height } := by
  have hzero := hs.counter_eq_zero h.uninitialized
  have hempty : ∀ c, s.chainsIndex c = none := fun c => hs.index_none (by omega)
  have hnew := h.creates
  have hstart : Linked { s with startBlockHeight := some height } := by
    refine ⟨hs.index, hs.ids, hs.entries, hs.named, hs.hash, fun x b hb => ?_, fun chain hchain => ?_⟩
    · obtain ⟨chain, hchain, -⟩ := hs.chain_of hb
      rw [hempty] at hchain
      cases hchain
    · exact absurd ((hempty mainChainId).symm.trans hchain) (Option.some_ne_none chain).symm
  have hfresh : s.blockHeaders header.hash = none := by
    cases hb : s.blockHeaders header.hash with
    | none => rfl
    | some b =>
      obtain ⟨chain, hchain, -⟩ := hs.chain_of hb
      rw [hempty] at hchain
      cases hchain
  refine ⟨hstart.creates ⟨hnew.adds.headers, hnew.adds.hashes, hnew.adds.index, rfl⟩ hnew.counter
    hfresh (fun _ => rfl) (.inl ⟨hzero, rfl⟩), fun chain hchain => ?_⟩
  have hindex := hnew.index_apply mainChainId
  rw [hzero, if_pos (show mainChainId = 0 from rfl)] at hindex
  obtain rfl := Option.some.inj (hindex.symm.trans hchain)
  have hhash := hnew.adds.hashes_apply mainChainId height
  rw [if_pos ⟨hzero.symm, rfl⟩] at hhash
  exact ⟨rfl, hhash.symm⟩

private theorem Creates.structured (h : Creates s header (prev.blockHeight + 1) order s')
    (hs : Structured s) (ha : Accepted s header prev prevChain)
    (hne : prevChain.maxHeight ≠ prev.blockHeight) : Structured s' where
  toLinked := h.linked_fork hs.toLinked ha hne
  best chain hchain := by
    have hpos : mainChainId ≠ s.chainCounter := by
      have hlt := hs.lt_counter ha.chain
      exact (Nat.zero_lt_of_lt hlt).ne
    rw [h.index_apply, if_neg hpos] at hchain
    rw [h.best.1, h.best.2, h.adds.hashes_apply, if_neg fun hand => hpos hand.1]
    exact hs.best chain hchain

private theorem Extends.structured_fork (h : Extends s header (prev.blockHeight + 1) prevChain s')
    (hs : Structured s) (ha : Accepted s header prev prevChain)
    (hmax : prevChain.maxHeight = prev.blockHeight) (hfork : prevChain.chainId ≠ mainChainId) :
    Structured s' where
  toLinked := h.linked hs.toLinked ha hmax
  best chain hchain := by
    rw [h.index_apply, if_neg hfork.symm] at hchain
    rw [h.best.1, h.best.2, h.adds.hashes_apply, if_neg fun hand => hfork hand.1.symm]
    exact hs.best chain hchain

private theorem Extends.structured_main (h : Extends s header (prev.blockHeight + 1) prevChain s')
    (hs : Structured s) (ha : Accepted s header prev prevChain)
    (hmax : prevChain.maxHeight = prev.blockHeight) (hmain : prevChain.chainId = mainChainId) :
    Structured (s'.withBest header.hash (prev.blockHeight + 1)) := by
  have hlinked := h.linked hs.toLinked ha hmax
  refine ⟨⟨hlinked.index, hlinked.ids, hlinked.entries, hlinked.named, hlinked.hash, hlinked.parent,
    hlinked.main⟩, fun chain hchain => ?_⟩
  have hindex := h.index_apply mainChainId
  rw [if_pos hmain.symm] at hindex
  obtain rfl := Option.some.inj (hindex.symm.trans hchain)
  have hhash := h.adds.hashes_apply mainChainId (prev.blockHeight + 1)
  rw [if_pos ⟨hmain.symm, rfl⟩] at hhash
  exact ⟨rfl, hhash.symm⟩

private theorem Reorganized.structured (h : Reorganized s fork pre post s') (hs : Structured s) :
    Structured s' := by
  cases h with
  | moved front mid hpre hascend hqueue => exact hs.requeued hqueue
  | swapped main path node a s₁ s₂ p₁ p₂ hqueue hover hswap haside hsplit hresort =>
    have hs₁ := hs.toLinked.requeued hqueue
    obtain ⟨-, -, hbest, hheight, -⟩ := of_aside haside
    refine Structured.requeued ⟨hswap.linked hover hs₁, fun chain hchain => ?_⟩ hresort
    rw [hswap.mainChain] at hchain
    obtain rfl := Option.some.inj hchain
    refine ⟨hheight, hbest.trans ?_⟩
    rw [hswap.moved.hashes, movedHash, if_pos ⟨hover.way.lt, le_rfl⟩, if_pos rfl]
    rfl

/-! ## The queue -/

private theorem Initializes.arranged (h : Initializes s header height order s₁)
    (ha : Arranged s order)
    {hash : H256Le} {height' : ℕ} {start : Option ℕ} :
    ∃ order', Arranged { s₁.withBest hash height' with startBlockHeight := start } order' ∧
      (Sorted s order →
        Sorted { s₁.withBest hash height' with startBlockHeight := start } order') := by
  obtain ⟨order', harranged, hsorted⟩ := h.creates.arranged ha
  exact ⟨order', ⟨harranged.lists, harranged.nodup, harranged.ids, harranged.main,
    harranged.bound⟩, hsorted⟩

/-- The fork that a header extends moves in the queue. -/
theorem Extends.run_reorganize (h : Extends s header (prev.blockHeight + 1) prevChain s₁)
    (hs : Structured s) (ha : Arranged s order) (haccepted : Accepted s header prev prevChain)
    (hmax : prevChain.maxHeight = prev.blockHeight) (hfork : prevChain.chainId ≠ mainChainId)
    (hmove : (reorganizeChains { prevChain with maxHeight := prev.blockHeight + 1 }).run s₁ =
      .ok u s') :
    ∃ pre post, order = mainChainId :: (pre ++ prevChain.chainId :: post) ∧ Structured s₁ ∧
      Reorganized s₁ { prevChain with maxHeight := prev.blockHeight + 1 } pre post s' := by
  obtain ⟨hid, -⟩ := hs.index _ _ haccepted.chain
  have hlt : prevChain.chainId < s.chainCounter := hid ▸ hs.lt_counter haccepted.chain
  obtain ⟨pre, post, rfl⟩ := ha.split hlt hfork
  have hs₁ := h.structured_fork hs haccepted hmax hfork
  have hindex := h.index_apply prevChain.chainId
  rw [if_pos rfl] at hindex
  exact ⟨pre, post, rfl, hs₁, run_reorganizeChains hs₁.toLinked (h.arranged ha) hindex hmove⟩

private theorem Stores.arranged (h : Stores s header prev prevChain order s') (hs : Structured s)
    (ha : Arranged s order) (haccepted : Accepted s header prev prevChain) :
    Structured s' ∧ ∃ order', Arranged s' order' ∧ (Sorted s order →
      ((s.extendedFork header).map s.ties).getD 0 ≤ 1 → Sorted s' order') := by
  obtain ⟨hid, -⟩ := hs.index _ _ haccepted.chain
  have hchain : s.chainsIndex prevChain.chainId = some prevChain := hid ▸ haccepted.chain
  cases h with
  | forks hne hnew =>
    obtain ⟨order', harranged, hsorted⟩ := hnew.arranged ha
    exact ⟨hnew.structured hs haccepted hne, order', harranged, fun h _ => hsorted h⟩
  | extendsMain hmax hmain s₁ hnew hbest =>
    subst hbest
    have harranged := hnew.arranged ha
    refine ⟨hnew.structured_main hs haccepted hmax hmain, order, ⟨harranged.lists,
      harranged.nodup, harranged.ids, harranged.main, harranged.bound⟩, fun hsorted _ => ?_⟩
    obtain ⟨tail, rfl⟩ := ha.cons (Nat.zero_lt_of_lt (hs.lt_counter hchain))
    refine pairwise_heights hsorted fun c hc => ?_
    have hheight : (s₁.withBest header.hash (prev.blockHeight + 1)).heightOf c = _ :=
      hnew.heightOf c
    rw [hheight, if_neg]
    rintro rfl
    exact (List.nodup_cons.mp ha.nodup).1 (hmain ▸ hc)
  | extendsFork hmax hfork s₁ hnew hmove =>
    obtain ⟨pre, post, rfl, hs₁, hmoved⟩ :=
      hnew.run_reorganize hs ha haccepted hmax hfork hmove
    rw [← hmax] at hnew hmoved
    obtain ⟨order', harranged, hsorted⟩ := hnew.reorganized ha hchain hmoved
    refine ⟨hmoved.structured hs₁, order', harranged, fun h hties => hsorted h ?_⟩
    have hextended : s.extendedFork header = some prevChain.chainId := by
      rw [extendedFork, haccepted.parent, Option.bind_some, haccepted.chain, Option.bind_some,
        if_pos ⟨hmax, hid ▸ hfork⟩, hid]
    rw [hextended] at hties
    exact hties

/-- A call leaves the chains queued, and sorted where it has one tie at most. -/
theorem Changes.arranged {op : Op} (h : Changes sha256d s order op s') (hs : Structured s)
    (ha : Arranged s order) : Structured s' ∧ ∃ order', Arranged s' order' ∧
      (Sorted s order → op.ties s ≤ 1 → Sorted s' order') := by
  cases h with
  | initializes header height hash s₁ h =>
    obtain ⟨order', harranged, hsorted⟩ := h.arranged ha
    exact ⟨h.structured hs, order', harranged, fun hold _ => hsorted hold⟩
  | stores header forkBound hash prev prevChain _ haccepted h => exact h.arranged hs ha haccepted
  | passes n =>
    exact ⟨⟨⟨hs.index, hs.ids, hs.entries, hs.named, hs.hash, hs.parent, hs.main⟩, hs.best⟩, order,
      ⟨ha.lists, ha.nodup, ha.ids, ha.main, ha.bound⟩, fun hold _ => hold⟩

/-! ## What stays -/

private theorem Stores.rest (h : Stores s header prev prevChain order s') (hs : Structured s)
    (ha : Arranged s order) (haccepted : Accepted s header prev prevChain) : SameRest s s' := by
  cases h with
  | forks hne hnew => exact hnew.rest
  | extendsMain hmax hmain s₁ hnew hbest =>
    subst hbest
    exact ⟨hnew.rest.start, hnew.rest.bitcoinConfirmations, hnew.rest.parachainConfirmations,
      hnew.rest.difficulty, hnew.rest.time⟩
  | extendsFork hmax hfork s₁ hnew hmove =>
    obtain ⟨pre, post, -, -, hmoved⟩ := hnew.run_reorganize hs ha haccepted hmax hfork hmove
    exact hnew.rest.trans hmoved.rest

/-- What no operation changes. -/
structure SameParameters (s s' : BtcRelay) : Prop where
  bitcoinConfirmations : s'.stableBitcoinConfirmations = s.stableBitcoinConfirmations
  parachainConfirmations : s'.stableParachainConfirmations = s.stableParachainConfirmations
  difficulty : s'.disableDifficultyCheck = s.disableDifficultyCheck

/-- No call changes the parameters. -/
theorem Changes.parameters {op : Op} (h : Changes sha256d s order op s') (hs : Structured s)
    (ha : Arranged s order) : SameParameters s s' := by
  cases h with
  | initializes header height hash s₁ h =>
    have hrest := h.creates.rest
    exact ⟨hrest.bitcoinConfirmations, hrest.parachainConfirmations, hrest.difficulty⟩
  | stores header forkBound hash prev prevChain _ haccepted h =>
    have hrest := h.rest hs ha haccepted
    exact ⟨hrest.bitcoinConfirmations, hrest.parachainConfirmations, hrest.difficulty⟩
  | passes n => exact ⟨rfl, rfl, rfl⟩

/-! ## Runs -/

/-- The structure, and a queue that lists the chains. -/
structure Sound (s : BtcRelay) : Prop extends Structured s where
  arranged : ∃ order, Arranged s order

/-- Every call keeps the relay sound. -/
theorem Sound.step (hs : Sound s) (op : Op) : Sound (BtcRelay.step sha256d s op) := by
  obtain ⟨order, ha⟩ := hs.arranged
  rcases step_cases op ha.lists with heq | ⟨-, hchanges⟩
  · rw [heq]
    exact hs
  · obtain ⟨hstructured, order', harranged, -⟩ := hchanges.arranged hs.toStructured ha
    exact ⟨hstructured, order', harranged⟩

/-- The relay is sound at first. -/
theorem Sound.genesis (k p : ℕ) (disable : Bool) : Sound (genesis k p disable) where
  index _ _ h := nomatch h
  ids _ := ⟨fun h => (nomatch h), fun h => (nomatch h)⟩
  entries _ _ := ⟨fun h => (nomatch h), fun ⟨_, h, _⟩ => (nomatch h)⟩
  named _ _ _ := ⟨fun h => (nomatch h), fun ⟨_, h, _⟩ => (nomatch h)⟩
  hash _ _ h := nomatch h
  parent _ _ h := nomatch h
  main _ h := nomatch h
  best _ h := nomatch h
  arranged := ⟨[], .empty, List.nodup_nil, fun _ => ⟨fun h => (nomatch h), fun h => (nomatch h)⟩,
    fun _ h => (nomatch h), Nat.zero_le _⟩

/-- Every run keeps the relay sound. -/
theorem Sound.run (hs : Sound s) (ops : List Op) : Sound (Core.run (BtcRelay.step sha256d) s ops) :=
  run_preserves (fun _ op h => h.step op) hs ops

end Interbtc.BtcRelay
