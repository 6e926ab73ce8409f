import Interbtc.BtcRelay.Soundness

/-!
# What is stored stays

Walking back from the best block visits the entries of the main chain. A stored header stays
where it was on top of its parent, and only its chain changes.
-/

namespace Interbtc.BtcRelay

open Core Core.PositionMap

variable {s s' s₁ : BtcRelay} {u : Unit} {order pre post : List ℕ} {header : BlockHeader}
  {height n c : ℕ} {prev b : RichBlockHeader} {x : H256Le} {chain prevChain fork : BlockChain}
  {sha256d : List UInt8 → H256Le}

/-! ## Walking back -/

/-- The block a number of links below another. -/
def ancestor (s : BtcRelay) : ℕ → H256Le → Option H256Le
  | 0, x => some x
  | n + 1, x => (s.blockHeaders x).bind fun b => s.ancestor n b.blockHeader.hashPrevBlock

/-- Above its first block, a chain holds the parent of each block below it. -/
theorem Linked.parent_entry (hs : Linked s) (hchain : s.chainsIndex c = some chain)
    (hx : s.chainsHashes c (height + 1) = some x) (hlt : chain.startHeight ≤ height) :
    ∃ b, s.blockHeaders x = some b ∧
      s.chainsHashes c height = some b.blockHeader.hashPrevBlock := by
  obtain ⟨b, hb, rfl, hheight⟩ := (hs.named _ _ _).mp hx
  obtain ⟨p, hp, hpheight, hpchain⟩ := hs.parent_of_lt hb hchain (by omega)
  exact ⟨b, hb, (hs.named _ _ _).mpr ⟨p, hp, hpchain, by omega⟩⟩

/-- The ancestors of a block are the blocks of its chain below it. -/
theorem Linked.ancestor_eq (hs : Linked s) (hchain : s.chainsIndex c = some chain)
    (hx : s.chainsHashes c height = some x) (hn : chain.startHeight + n ≤ height) :
    s.ancestor n x = s.chainsHashes c (height - n) := by
  induction n generalizing height x with
  | zero => exact hx.symm
  | succ n ih =>
    obtain ⟨h, rfl⟩ : ∃ h, height = h + 1 := ⟨height - 1, by omega⟩
    obtain ⟨b, hb, hparent⟩ := hs.parent_entry hchain hx (by omega)
    rw [ancestor, hb, Option.bind_some, ih hparent (by omega), Nat.add_sub_add_right]

/-! ## What a step retains -/

/-- Stored headers stay, in some chain, and the first one stays first. -/
structure Retains (s s' : BtcRelay) : Prop where
  headers : ∀ x b, s.blockHeaders x = some b →
    ∃ c, s'.blockHeaders x = some { b with chainId := c }
  first : ∀ h x, s.startBlockHeight = some h → s.chainsHashes mainChainId h = some x →
    s'.startBlockHeight = some h ∧ s'.chainsHashes mainChainId h = some x

private theorem Retains.refl (s : BtcRelay) : Retains s s where
  headers _ b hb := ⟨b.chainId, hb⟩
  first _ _ hh hx := ⟨hh, hx⟩

private theorem Retains.trans (h : Retains s s₁) (h' : Retains s₁ s') : Retains s s' where
  headers x b hb := by
    obtain ⟨c, hc⟩ := h.headers x b hb
    obtain ⟨c', hc'⟩ := h'.headers x _ hc
    exact ⟨c', hc'⟩
  first height x hh hx := by
    obtain ⟨hh₁, hx₁⟩ := h.first height x hh hx
    exact h'.first height x hh₁ hx₁

private theorem Adds.retains (h : Adds s x b chain s') (hfresh : s.blockHeaders x = none)
    (hempty : s.chainsHashes b.chainId b.blockHeight = none) : Retains s s' where
  headers y q hq := by
    refine ⟨q.chainId, ?_⟩
    rw [h.headers_apply, if_neg]
    · exact hq
    · rintro rfl
      rw [hfresh] at hq
      cases hq
  first height y hh hy := by
    refine ⟨h.start.trans hh, ?_⟩
    rw [h.hashes_apply, if_neg]
    · exact hy
    · rintro ⟨hc, rfl⟩
      rw [hc, hempty] at hy
      cases hy

private theorem Requeued.retains (h : Requeued s s' order) : Retains s s' := by
  rw [h.1]
  exact ⟨fun _ b hb => ⟨b.chainId, hb⟩, fun _ _ hh hx => ⟨hh, hx⟩⟩

private theorem Swapped.retains {path : ℕ → H256Le} {node : ℕ → RichBlockHeader} {a : ℕ}
    {main : BlockChain} (h : Swapped s path node a fork main s')
    (ho : Overtakes s path node a fork main) (hs : Linked s) : Retains s s' where
  headers _ _ hb := ⟨_, h.headers_apply hb⟩
  first height x hh hx := by
    refine ⟨h.start.trans hh, ?_⟩
    have hheight := Option.some.inj (hh.symm.trans (hs.main _ ho.mainChain))
    have hstart := ho.start_le hs
    rw [h.moved.hashes, movedHash, if_neg (by omega)]
    exact hx

private theorem Reorganized.retains (h : Reorganized s fork pre post s') (hs : Structured s) :
    Retains s s' := by
  cases h with
  | moved front mid hpre hascend hqueue => exact hqueue.retains
  | swapped main path node a s₁ s₂ p₁ p₂ hqueue hover hswap haside hsplit hresort =>
    exact (hqueue.retains.trans (hswap.retains hover (hs.toLinked.requeued hqueue))).trans
      hresort.retains

/-- The header of an operation is stored, and the other ones stay. -/
theorem Stores.retains (h : Stores s header prev prevChain order s') (hs : Structured s)
    (ha : Arranged s order) (haccepted : Accepted s header prev prevChain) :
    Retains s s' ∧ ∃ b, s'.blockHeaders header.hash = some b ∧ b.blockHeader = header := by
  cases h with
  | forks hne hnew =>
    have hempty := hs.hashes_none (hs.index_none le_rfl) (prev.blockHeight + 1)
    have hstored := (hnew.adds.headers_apply header.hash).trans (if_pos rfl)
    exact ⟨hnew.adds.retains haccepted.fresh hempty, _, hstored, rfl⟩
  | extendsMain hmax hmain s₁ hnew hbest =>
    subst hbest
    have hretains := hnew.adds.retains haccepted.fresh hnew.empty
    have hstored := (hnew.adds.headers_apply header.hash).trans (if_pos rfl)
    exact ⟨⟨hretains.headers, hretains.first⟩, _, hstored, rfl⟩
  | extendsFork hmax hfork s₁ hnew hmove =>
    obtain ⟨pre, post, rfl, hs₁, hmoved⟩ := hnew.run_reorganize hs ha haccepted hmax hfork hmove
    have hkeep := hmoved.retains hs₁
    have hstored := (hnew.adds.headers_apply header.hash).trans (if_pos rfl)
    obtain ⟨c, hc⟩ := hkeep.headers _ _ hstored
    exact ⟨(hnew.adds.retains haccepted.fresh hnew.empty).trans hkeep, _, hc, rfl⟩

private theorem Initializes.retains (h : Initializes s header height order s₁) (hs : Structured s)
    {hash : H256Le} {height' : ℕ} {start : Option ℕ} :
    Retains s { s₁.withBest hash height' with startBlockHeight := start } := by
  have hzero := hs.counter_eq_zero h.uninitialized
  refine ⟨fun x b hb => ?_, fun t x _ hx => ?_⟩
  · obtain ⟨chain, hchain, -⟩ := hs.chain_of hb
    have hlt := hs.lt_counter hchain
    omega
  · rw [hs.hashes_none (hs.index_none (by omega))] at hx
    cases hx

private theorem Changes.retains {op : Op} (h : Changes sha256d s order op s') (hs : Structured s)
    (ha : Arranged s order) : Retains s s' := by
  cases h with
  | initializes header height hash s₁ h => exact h.retains hs
  | stores header forkBound hash prev prevChain _ haccepted h => exact (h.retains hs ha haccepted).1
  | passes n => exact ⟨fun _ b hb => ⟨b.chainId, hb⟩, fun _ _ hh hx => ⟨hh, hx⟩⟩

private theorem Sound.retains_step (hs : Sound s) (op : Op) : Retains s
    (BtcRelay.step sha256d s op) := by
  obtain ⟨order, ha⟩ := hs.arranged
  rcases step_cases op ha.lists with heq | ⟨-, hchanges⟩
  · rw [heq]
    exact .refl s
  · exact hchanges.retains hs.toStructured ha

/-- A stored header stays over every run. -/
theorem Sound.retains_run (hs : Sound s) (ops : List Op) :
    Retains s (Core.run (BtcRelay.step sha256d) s ops) := by
  have hstep : ∀ s₁ op, Sound s₁ ∧ Retains s s₁ →
      Sound (BtcRelay.step sha256d s₁ op) ∧ Retains s (BtcRelay.step sha256d s₁ op) :=
    fun s₁ op h => ⟨h.1.step op, h.2.trans (h.1.retains_step op)⟩
  exact (run_preserves hstep ⟨hs, .refl s⟩ ops).2

/-! ## Where headers come from -/

/-- Every header stored then was stored before, or it satisfies a condition. -/
def FromOr (P : BlockHeader → Prop) (s s' : BtcRelay) : Prop :=
  ∀ x b, s'.blockHeaders x = some b →
    (∃ b₀, s.blockHeaders x = some b₀ ∧ b₀.blockHeader = b.blockHeader) ∨ P b.blockHeader

private theorem FromOr.trans {P : BlockHeader → Prop} (h : FromOr P s s₁) (h' : FromOr P s₁ s') :
    FromOr P s s' := by
  intro x b hb
  rcases h' x b hb with ⟨b₁, hb₁, heq₁⟩ | hP
  · rcases h x b₁ hb₁ with ⟨b₀, hb₀, heq₀⟩ | hP
    · exact .inl ⟨b₀, hb₀, heq₀.trans heq₁⟩
    · exact .inr (heq₁ ▸ hP)
  · exact .inr hP

/-- Only the header of the new block is new. -/
theorem Adds.fromOr (h : Adds s x b chain s') : FromOr (· = b.blockHeader) s s' := by
  intro y q hq
  rw [h.headers_apply] at hq
  by_cases hy : y = x
  · rw [if_pos hy] at hq
    obtain rfl := Option.some.inj hq
    exact .inr rfl
  · rw [if_neg hy] at hq
    exact .inl ⟨q, hq, rfl⟩

private theorem Requeued.fromOr {P : BlockHeader → Prop} (h : Requeued s s' order) : FromOr P s
    s' := by
  rw [h.1]
  exact fun _ q hq => .inl ⟨q, hq, rfl⟩

private theorem Reorganized.fromOr {P : BlockHeader → Prop} (h : Reorganized s fork pre post s') :
    FromOr P s s' := by
  cases h with
  | moved front mid hpre hascend hqueue => exact hqueue.fromOr
  | swapped main path node a s₁ s₂ p₁ p₂ hqueue hover hswap haside hsplit hresort =>
    have hmoved : FromOr P s₁ s₂ := by
      intro x b hb
      obtain ⟨b₀, hb₀, rfl⟩ := hswap.exists_of_headers hb
      exact .inl ⟨b₀, hb₀, rfl⟩
    exact (hqueue.fromOr.trans hmoved).trans hresort.fromOr

/-- Only the header of the operation is new. -/
theorem Stores.fromOr (h : Stores s header prev prevChain order s') (hs : Structured s)
    (ha : Arranged s order) (haccepted : Accepted s header prev prevChain) :
    FromOr (· = header) s s' := by
  cases h with
  | forks hne hnew => exact hnew.adds.fromOr
  | extendsMain hmax hmain s₁ hnew hbest =>
    subst hbest
    exact hnew.adds.fromOr
  | extendsFork hmax hfork s₁ hnew hmove =>
    obtain ⟨pre, post, rfl, -, hmoved⟩ := hnew.run_reorganize hs ha haccepted hmax hfork hmove
    exact hnew.adds.fromOr.trans hmoved.fromOr

/-- The header that an operation submits, with its hash. -/
def Op.header? (sha256d : List UInt8 → H256Le) : Op → Option BlockHeader
  | .initializeRelay blockHeader _ | .storeBlockHeader blockHeader _ =>
    (blockHeader.updateHash sha256d).toOption
  | .toBlock _ => none

/-- The header of an accepted operation is stored. -/
theorem Changes.stored {op : Op} (h : Changes sha256d s order op s') (hs : Structured s)
    (ha : Arranged s order) (hheader : op.header? sha256d = some header) :
    ∃ b, s'.blockHeaders header.hash = some b ∧ b.blockHeader = header := by
  cases h with
  | initializes header₀ height hash s₁ h hvalid =>
    rw [Op.header?, hvalid] at hheader
    obtain rfl := Option.some.inj hheader
    exact ⟨_, (h.creates.adds.headers_apply _).trans (if_pos rfl), rfl⟩
  | stores header₀ forkBound hash prev prevChain _ haccepted h hvalid =>
    rw [Op.header?, hvalid] at hheader
    obtain rfl := Option.some.inj hheader
    exact (h.retains hs ha haccepted).2
  | passes n => cases hheader

/-! ## Runs -/

/-- What the stored chains look like. -/
structure Chained (s : BtcRelay) : Prop where
  /-- The hash of a chain at a height names the header with that chain and height. -/
  named : ∀ c h x, s.chainsHashes c h = some x ↔
    ∃ b, s.blockHeaders x = some b ∧ b.chainId = c ∧ b.blockHeight = h
  /-- A chain has entries from its first to its last height. -/
  contiguous : ∀ c h, (s.chainsHashes c h).isSome = true ↔
    ∃ chain, s.chainsIndex c = some chain ∧ chain.startHeight ≤ h ∧ h ≤ chain.maxHeight
  /-- The entries of a chain are on top of each other. -/
  linked : ∀ c chain h x, s.chainsIndex c = some chain → chain.startHeight ≤ h →
    s.chainsHashes c (h + 1) = some x →
    ∃ b, s.blockHeaders x = some b ∧ s.chainsHashes c h = some b.blockHeader.hashPrevBlock
  /-- The first entry of a fork is on top of a block of another chain. -/
  forked : ∀ c chain, c ≠ mainChainId → s.chainsIndex c = some chain →
    ∃ x b p, s.chainsHashes c chain.startHeight = some x ∧ s.blockHeaders x = some b ∧
      s.blockHeaders b.blockHeader.hashPrevBlock = some p ∧
      p.blockHeight + 1 = chain.startHeight ∧ p.chainId ≠ c
  /-- The best block is the last entry of the main chain. -/
  best : ∀ chain, s.chainsIndex mainChainId = some chain →
    s.bestBlockHeight = chain.maxHeight ∧ s.bestBlock = s.chainsHashes mainChainId chain.maxHeight
  /-- The blocks from the best block back are the entries of the main chain, down to the first
  header. -/
  walk : ∀ chain, s.chainsIndex mainChainId = some chain →
    s.startBlockHeight = some chain.startHeight ∧
      ∀ n, chain.startHeight + n ≤ chain.maxHeight →
        s.bestBlock.bind (s.ancestor n) = s.chainsHashes mainChainId (chain.maxHeight - n)

private theorem Structured.chained (hs : Structured s) : Chained s where
  named := hs.named
  contiguous := hs.entries
  linked _ _ _ _ hchain hle hx := hs.parent_entry hchain hx hle
  forked c chain hc hchain := by
    obtain ⟨x, hx⟩ := Option.isSome_iff_exists.mp
      ((hs.entries c chain.startHeight).mpr ⟨chain, hchain, le_rfl, (hs.index c chain hchain).2⟩)
    obtain ⟨b, hb, rfl, hheight⟩ := (hs.named _ _ _).mp hx
    obtain ⟨p, hp, hpheight, -⟩ := hs.parent_of_fork hb hc
    refine ⟨x, b, p, hx, hb, hp, hpheight.trans hheight, fun hsame => ?_⟩
    obtain ⟨own, hown, hlow, -⟩ := hs.chain_of hp
    rw [hsame, hchain] at hown
    obtain rfl := Option.some.inj hown
    omega
  best := hs.best
  walk chain hchain := by
    refine ⟨hs.main chain hchain, fun n hn => ?_⟩
    obtain ⟨x, hx⟩ := Option.isSome_iff_exists.mp
      ((hs.entries mainChainId chain.maxHeight).mpr ⟨chain, hchain, by omega, le_rfl⟩)
    rw [(hs.best chain hchain).2, hx, Option.bind_some]
    exact hs.ancestor_eq hchain hx hn

/-- Over all runs the chains are stored consistently, the header of every accepted operation is
stored, and a stored header stays at its height on top of its parent. -/
theorem chains_consistent (sha256d : List UInt8 → H256Le) (k p : ℕ) (disable : Bool)
    (ops later : List Op) :
    let s := run (BtcRelay.step sha256d) (BtcRelay.genesis k p disable) ops
    Chained s ∧ Retains s (run (BtcRelay.step sha256d) s later) ∧
      ∀ op header, (op.call sha256d).succeeds s = true → op.header? sha256d = some header →
        ∃ b, (BtcRelay.step sha256d s op).blockHeaders header.hash = some b ∧
          b.blockHeader = header := by
  intro s
  have hs : Sound s := (Sound.genesis k p disable).run ops
  refine ⟨hs.toStructured.chained, hs.retains_run later, fun op header hsucceeds hheader => ?_⟩
  obtain ⟨order, ha⟩ := hs.arranged
  exact (changes_of_succeeds ha.lists hsucceeds).stored hs.toStructured ha hheader

end Interbtc.BtcRelay
