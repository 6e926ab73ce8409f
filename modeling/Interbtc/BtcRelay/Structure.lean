import Interbtc.BtcRelay.Pallet

/-!
# The structure of the stored chains

Every chain holds one block at each of its heights. Below the first block of a fork, and
nowhere else, the previous block lies in another chain, which goes on above it.
-/

namespace Interbtc.BtcRelay

open Core

variable {s s' : BtcRelay} {c : ℕ} {x y : H256Le} {b p : RichBlockHeader}
  {chain : BlockChain}

/-- The first header the relay was given. -/
def IsFirst (s : BtcRelay) (b : RichBlockHeader) : Prop :=
  b.chainId = mainChainId ∧ s.startBlockHeight = some b.blockHeight

/-- A block is in the chain of its parent, or it is the first of its own and its parent is not the
last of another one. -/
def Joins (s : BtcRelay) (p b : RichBlockHeader) : Prop :=
  p.chainId = b.chainId ∨
    ((∃ chain, s.chainsIndex b.chainId = some chain ∧ b.blockHeight = chain.startHeight) ∧
      ∃ chain, s.chainsIndex p.chainId = some chain ∧ p.blockHeight < chain.maxHeight)

/-- Headers, hashes and chains name each other, and every block but the first one is on top of
another. -/
structure Linked (s : BtcRelay) : Prop where
  index : ∀ c chain, s.chainsIndex c = some chain →
    chain.chainId = c ∧ chain.startHeight ≤ chain.maxHeight
  ids : ∀ c, (s.chainsIndex c).isSome = true ↔ c < s.chainCounter
  entries : ∀ c h, (s.chainsHashes c h).isSome = true ↔
    ∃ chain, s.chainsIndex c = some chain ∧ chain.startHeight ≤ h ∧ h ≤ chain.maxHeight
  named : ∀ c h x, s.chainsHashes c h = some x ↔
    ∃ b, s.blockHeaders x = some b ∧ b.chainId = c ∧ b.blockHeight = h
  hash : ∀ x b, s.blockHeaders x = some b → b.blockHeader.hash = x
  parent : ∀ x b, s.blockHeaders x = some b → s.IsFirst b ∨
    ∃ p, s.blockHeaders b.blockHeader.hashPrevBlock = some p ∧
      p.blockHeight + 1 = b.blockHeight ∧ s.Joins p b
  main : ∀ chain, s.chainsIndex mainChainId = some chain →
    s.startBlockHeight = some chain.startHeight

/-- The best block is the last one of the main chain. -/
structure Structured (s : BtcRelay) : Prop extends Linked s where
  best : ∀ chain, s.chainsIndex mainChainId = some chain →
    s.bestBlockHeight = chain.maxHeight ∧ s.bestBlock = s.chainsHashes mainChainId chain.maxHeight

namespace Linked

/-- A block lies within the heights of its chain. -/
theorem chain_of (hs : Linked s) (hb : s.blockHeaders x = some b) :
    ∃ chain, s.chainsIndex b.chainId = some chain ∧ chain.startHeight ≤ b.blockHeight ∧
      b.blockHeight ≤ chain.maxHeight := by
  rw [← hs.entries, (hs.named _ _ x).mpr ⟨b, hb, rfl, rfl⟩]
  rfl

/-- Two blocks of one chain at one height are the same. -/
theorem hash_eq (hs : Linked s) (hx : s.blockHeaders x = some b) (hy : s.blockHeaders y = some p)
    (hchain : b.chainId = p.chainId) (hheight : b.blockHeight = p.blockHeight) : x = y := by
  have h₁ := (hs.named _ _ x).mpr ⟨b, hx, hchain, hheight⟩
  have h₂ := (hs.named _ _ y).mpr ⟨p, hy, rfl, rfl⟩
  exact Option.some.inj (h₁.symm.trans h₂)

/-- Above the first block of a chain, the parent is in the same chain. -/
theorem parent_of_lt (hs : Linked s) (hb : s.blockHeaders x = some b)
    (hchain : s.chainsIndex b.chainId = some chain) (hlt : chain.startHeight < b.blockHeight) :
    ∃ p, s.blockHeaders b.blockHeader.hashPrevBlock = some p ∧
      p.blockHeight + 1 = b.blockHeight ∧ p.chainId = b.chainId := by
  rcases hs.parent x b hb with ⟨hmain, hstart⟩ | ⟨p, hp, hheight, hjoin⟩
  · rw [hmain] at hchain
    have hheight := Option.some.inj ((hs.main chain hchain).symm.trans hstart)
    omega
  · refine ⟨p, hp, hheight, ?_⟩
    rcases hjoin with hsame | ⟨⟨own, hown, hfirst⟩, -⟩
    · exact hsame
    · have hsame : own = chain := Option.some.inj (hown.symm.trans hchain)
      rw [hsame] at hfirst
      omega

/-- The parent of a block that is not on the main chain. -/
theorem parent_of_fork (hs : Linked s) (hb : s.blockHeaders x = some b)
    (hfork : b.chainId ≠ mainChainId) :
    ∃ p, s.blockHeaders b.blockHeader.hashPrevBlock = some p ∧
      p.blockHeight + 1 = b.blockHeight ∧ s.Joins p b :=
  (hs.parent x b hb).resolve_left fun h => hfork h.1

end Linked

/-! ## A new block -/

/-- A block is stored as the last one of its chain. -/
structure Adds (s : BtcRelay) (x : H256Le) (b : RichBlockHeader) (chain : BlockChain)
    (s' : BtcRelay) : Prop where
  headers : s'.blockHeaders = Function.update s.blockHeaders x (some b)
  hashes : s'.chainsHashes = Function.update s.chainsHashes b.chainId
    (Function.update (s.chainsHashes b.chainId) b.blockHeight (some x))
  index : s'.chainsIndex = Function.update s.chainsIndex b.chainId (some chain)
  start : s'.startBlockHeight = s.startBlockHeight

namespace Adds

variable (h : Adds s x b chain s')
include h

/-- One hash is new. -/
theorem hashes_apply (c height : ℕ) : s'.chainsHashes c height =
    if c = b.chainId ∧ height = b.blockHeight then some x else s.chainsHashes c height := by
  rw [h.hashes]
  by_cases hc : c = b.chainId
  · subst hc
    rw [Function.update_self]
    by_cases hh : height = b.blockHeight
    · rw [hh, Function.update_self, if_pos ⟨rfl, rfl⟩]
    · rw [Function.update_of_ne hh, if_neg fun hand => hh hand.2]
  · rw [Function.update_of_ne hc, if_neg fun hand => hc hand.1]

/-- One chain is changed. -/
theorem index_apply (c : ℕ) : s'.chainsIndex c =
    if c = b.chainId then some chain else s.chainsIndex c := by
  rw [h.index, Function.update_apply]

/-- One header is new. -/
theorem headers_apply (y : H256Le) : s'.blockHeaders y =
    if y = x then some b else s.blockHeaders y := by
  rw [h.headers, Function.update_apply]

/-- Chains only grow. -/
theorem joins (hgrow : ∀ old, s.chainsIndex b.chainId = some old →
      chain.startHeight = old.startHeight ∧ old.maxHeight ≤ chain.maxHeight)
    {p q : RichBlockHeader} (hjoin : s.Joins p q) : s'.Joins p q := by
  have hindex : ∀ c old, s.chainsIndex c = some old → ∃ new, s'.chainsIndex c = some new ∧
      new.startHeight = old.startHeight ∧ old.maxHeight ≤ new.maxHeight := by
    intro c old hold
    rw [h.index_apply]
    by_cases hc : c = b.chainId
    · subst hc
      rw [if_pos rfl]
      exact ⟨chain, rfl, hgrow old hold⟩
    · rw [if_neg hc]
      exact ⟨old, hold, rfl, le_rfl⟩
  rcases hjoin with hsame | ⟨⟨own, hown, hfirst⟩, other, hother, hlt⟩
  · exact .inl hsame
  · obtain ⟨own', hown', hstart, -⟩ := hindex _ own hown
    obtain ⟨other', hother', -, hmax⟩ := hindex _ other hother
    exact .inr ⟨⟨own', hown', hfirst.trans hstart.symm⟩, other', hother', by omega⟩

end Adds

/-- A new block keeps the structure. -/
theorem Linked.adds (hs : Linked s) (h : Adds s x b chain s') (hfresh : s.blockHeaders x = none)
    (hhash : b.blockHeader.hash = x) (hchain : chain.chainId = b.chainId)
    (hmax : chain.maxHeight = b.blockHeight)
    (hrange : ∀ height, chain.startHeight ≤ height ∧ height ≤ b.blockHeight ↔
      height = b.blockHeight ∨ (s.chainsHashes b.chainId height).isSome = true)
    (hempty : s.chainsHashes b.chainId b.blockHeight = none)
    (hgrow : ∀ old, s.chainsIndex b.chainId = some old →
      chain.startHeight = old.startHeight ∧ old.maxHeight ≤ chain.maxHeight)
    (hfirst : b.chainId = mainChainId → s.startBlockHeight = some chain.startHeight)
    (hids : ∀ c, (s'.chainsIndex c).isSome = true ↔ c < s'.chainCounter)
    (hparent : s'.IsFirst b ∨ ∃ p, s'.blockHeaders b.blockHeader.hashPrevBlock = some p ∧
      p.blockHeight + 1 = b.blockHeight ∧ s'.Joins p b) : Linked s' where
  index c own hown := by
    rw [h.index_apply] at hown
    by_cases hc : c = b.chainId
    · rw [if_pos hc] at hown
      obtain rfl := Option.some.inj hown
      exact ⟨hchain.trans hc.symm, hmax ▸ ((hrange b.blockHeight).mpr (.inl rfl)).1⟩
    · rw [if_neg hc] at hown
      exact hs.index c own hown
  ids := hids
  entries c height := by
    rw [h.hashes_apply, h.index_apply]
    by_cases hc : c = b.chainId
    · subst hc
      rw [if_pos rfl]
      have hiff := hrange height
      by_cases hh : height = b.blockHeight
      · rw [if_pos ⟨rfl, hh⟩]
        exact ⟨fun _ => ⟨chain, rfl, by omega, by omega⟩, fun _ => rfl⟩
      · rw [if_neg fun hand => hh hand.2]
        constructor
        · intro hsome
          obtain ⟨hlow, hhigh⟩ := hiff.mpr (.inr hsome)
          exact ⟨chain, rfl, hlow, hmax ▸ hhigh⟩
        · rintro ⟨own, hown, hlow, hhigh⟩
          obtain rfl := Option.some.inj hown
          exact (hiff.mp ⟨hlow, hmax ▸ hhigh⟩).resolve_left hh
    · rw [if_neg fun hand => hc hand.1, if_neg hc]
      exact hs.entries c height
  named c height y := by
    rw [h.hashes_apply, h.headers_apply]
    by_cases hplace : c = b.chainId ∧ height = b.blockHeight
    · obtain ⟨rfl, rfl⟩ := hplace
      rw [if_pos ⟨rfl, rfl⟩]
      by_cases hy : y = x
      · rw [if_pos hy, hy]
        exact ⟨fun _ => ⟨b, rfl, rfl, rfl⟩, fun _ => rfl⟩
      · rw [if_neg hy]
        constructor
        · intro hxy
          exact absurd (Option.some.inj hxy).symm hy
        · intro hstored
          rw [← hs.named, hempty] at hstored
          cases hstored
    · rw [if_neg hplace]
      by_cases hy : y = x
      · rw [if_pos hy, hs.named, hy, hfresh]
        constructor
        · rintro ⟨_, hb, -⟩
          cases hb
        · rintro ⟨_, hb, hc, hh⟩
          obtain rfl := Option.some.inj hb
          exact absurd ⟨hc.symm, hh.symm⟩ hplace
      · rw [if_neg hy]
        exact hs.named c height y
  hash y q hq := by
    rw [h.headers_apply] at hq
    by_cases hy : y = x
    · rw [if_pos hy] at hq
      obtain rfl := Option.some.inj hq
      exact hhash.trans hy.symm
    · rw [if_neg hy] at hq
      exact hs.hash y q hq
  parent y q hq := by
    rw [h.headers_apply] at hq
    by_cases hy : y = x
    · rw [if_pos hy] at hq
      obtain rfl := Option.some.inj hq
      exact hparent
    · rw [if_neg hy] at hq
      rcases hs.parent y q hq with ⟨hmain, hstart⟩ | ⟨p, hp, hheight, hjoin⟩
      · exact .inl ⟨hmain, h.start.trans hstart⟩
      · refine .inr ⟨p, ?_, hheight, h.joins hgrow hjoin⟩
        rw [h.headers_apply, if_neg]
        · exact hp
        · intro heq
          rw [heq, hfresh] at hp
          cases hp
  main own hown := by
    rw [h.index_apply] at hown
    rw [h.start]
    by_cases hc : mainChainId = b.chainId
    · rw [if_pos hc] at hown
      obtain rfl := Option.some.inj hown
      exact hfirst hc.symm
    · rw [if_neg hc] at hown
      exact hs.main own hown

end Interbtc.BtcRelay
