import Interbtc.BtcRelay.Queue
import Interbtc.BtcRelay.Swap

/-!
# Overtaking the main chain

What the relay does when a fork is far enough ahead: the blocks move, the fork gives its place
at the head to what was the main chain, and that is sorted into the queue.
-/

namespace Interbtc.BtcRelay

open Core Core.PositionMap

variable {s s' : BtcRelay} {a c : ℕ} {path : ℕ → H256Le} {node : ℕ → RichBlockHeader}
  {pre post : List ℕ} {fork main : BlockChain} {tip : H256Le}

/-- The relay with another best block. -/
def withBest (tip : H256Le) (height : ℕ) (s : BtcRelay) : BtcRelay :=
  { s with bestBlock := some tip, bestBlockHeight := height }

/-- A block hash is read by chain and height. -/
theorem run_getBlockHash {height : ℕ} : (getBlockHash c height).run s = .ok tip s' ↔
    s.chainsHashes c height = some tip ∧ s' = s := by
  simp only [getBlockHash, Call.run_bind_eq_ok, Call.run_get_eq_ok, Call.run_ofOption_eq_ok]
  constructor
  · rintro ⟨_, _, ⟨rfl, rfl⟩, h, rfl⟩
    exact ⟨h, rfl⟩
  · rintro ⟨h, rfl⟩
    exact ⟨s', s', ⟨rfl, rfl⟩, h, rfl⟩

/-- A fork that is higher than the main chain overtakes it. -/
theorem Linked.exists_overtakes (hs : Linked s) (hfork : s.chainsIndex fork.chainId = some fork)
    (hmain : s.chainsIndex mainChainId = some main) (hne : fork.chainId ≠ mainChainId)
    (hlt : main.maxHeight < fork.maxHeight)
    (htip : s.chainsHashes fork.chainId fork.maxHeight = some tip) :
    ∃ path node a, Overtakes s path node a fork main ∧ path fork.maxHeight = tip := by
  obtain ⟨b, hb, hchain, hheight⟩ := (hs.named _ _ _).mp htip
  obtain ⟨path, node, a, hpath, hend⟩ := hs.exists_path hb (hchain ▸ hne)
  rw [hheight] at hpath hend
  have hnode : node fork.maxHeight = b :=
    Option.some.inj ((hpath.stored _ hpath.lt.le le_rfl).symm.trans (hend ▸ hb))
  exact ⟨path, node, a, ⟨hpath, by rw [hnode, hchain], hfork, hmain, hlt⟩, hend⟩

/-- The first link goes down from the last block of the fork. -/
theorem Path.firstLink {H height : ℕ} (hp : Path s path node a H) :
    (s.withBest tip height).firstLink (path H) = .ok (node H, node (H - 1)) := by
  have hlt := hp.lt
  obtain ⟨d, rfl⟩ : ∃ d, H = d + 1 := ⟨H - 1, by omega⟩
  have hchild : (s.withBest tip height).blockHeaders (path (d + 1)) = some (node (d + 1)) :=
    hp.stored _ (by omega) le_rfl
  have hparent : (s.withBest tip height).blockHeaders (path d) = some (node d) :=
    hp.stored _ (by omega) (by omega)
  rw [BtcRelay.firstLink, hchild]
  change (s.withBest tip height).linkOf (node (d + 1)) = _
  rw [linkOf, hp.link d (by omega) (by omega), hparent]
  rfl

/-- The blocks of a fork have moved, and the main chain has its height. -/
theorem Overtakes.swapped {s₁ : BtcRelay} (ho : Overtakes s path node a fork main)
    (hm : Moved s fork.chainId fork.maxHeight a path node s₁)
    (hi : IndexMoved s fork.chainId a fork.maxHeight a node s₁)
    (haside : s₁.aside = (s.withBest tip fork.maxHeight).aside) :
    s₁.chainsIndex mainChainId = some main ∧ Swapped s path node a fork main
      (s₁.setBlockChain mainChainId { main with maxHeight := fork.maxHeight }) := by
  have hne := ho.isFork
  have hmain : s₁.chainsIndex mainChainId = some main := by
    obtain ⟨start, hstart, ⟨_, -, hleaves, -⟩ | ⟨-, rfl⟩⟩ :=
      hi.others mainChainId main hne.symm ho.mainChain
    · exact absurd rfl hleaves.1
    · exact hstart
  have hstart := congrArg BtcRelay.startBlockHeight haside
  have hcounter := congrArg BtcRelay.chainCounter haside
  refine ⟨hmain, ⟨hm.hashes, hm.headers⟩, fun c => ?_, ?_, ?_, fun c chain hc hcf hchain => ?_,
    hstart, hcounter⟩
  · rw [setBlockChain_apply]
    by_cases hc : c = mainChainId
    · rw [if_pos hc, hc, ho.mainChain]
      rfl
    · rw [if_neg hc, hi.isSome]
  · rw [setBlockChain_apply, if_pos rfl]
  · rw [setBlockChain_apply, if_neg hne, hi.fork, if_pos rfl, ho.mainChain, Option.map_some]
  · rw [setBlockChain_apply, if_neg hc]
    obtain ⟨start, hstart, hcases⟩ := hi.others c chain hcf hchain
    refine ⟨start, hstart, ?_⟩
    rcases hcases with ⟨h, -, hleaves⟩ | ⟨hnone, heq⟩
    · exact .inl ⟨h, hleaves⟩
    · exact .inr ⟨fun h hleaves => hnone h hleaves.2.1 hleaves, heq⟩

/-- The swap of the main chain with a fork. -/
theorem run_swapMainBlockchain {r : H256Le × ℕ} (hs : Linked s)
    (hfork : s.chainsIndex fork.chainId = some fork)
    (hmain : s.chainsIndex mainChainId = some main) (hne : fork.chainId ≠ mainChainId)
    (hlt : main.maxHeight < fork.maxHeight)
    (hl : s.chains.Lists (pre ++ fork.chainId :: post))
    (hnodup : (pre ++ fork.chainId :: post).Nodup)
    (h : (swapMainBlockchain fork).run s = .ok r s') :
    ∃ path node a s₁ p₁ p₂, Overtakes s path node a fork main ∧
      Swapped s path node a fork main s₁ ∧
      s₁.aside = (s.withBest (path fork.maxHeight) fork.maxHeight).aside ∧ post = p₁ ++ p₂ ∧
      Requeued s₁ s' (pre ++ (p₁ ++ fork.chainId :: p₂)) ∧
      (∀ c ∈ p₁, main.maxHeight < s₁.heightOf c) ∧
      (pre.length + 1 + post.length ≤ maxU32 → ∀ c ∈ p₂.head?, s₁.heightOf c ≤ main.maxHeight) := by
  simp only [swapMainBlockchain, Call.run_bind_eq_ok, run_getBlockHash, Call.run_modify_eq_ok,
    Call.run_get_eq_ok, run_getBlockChainFromId, Call.run_pure_eq_ok] at h
  obtain ⟨tip, s₀, ⟨htip, rfl⟩, _, _, rfl, _, _, ⟨rfl, rfl⟩, _, _, hmove, main', s₁, ⟨hmain', rfl⟩,
    _, _, rfl, position, s₂, hposition, _, s₃, hbubble, -, rfl⟩ := h
  obtain ⟨path, node, a, ho, rfl⟩ := hs.exists_overtakes hfork hmain hne hlt htip
  have hpath := ho.way.lt
  have hH : fork.maxHeight - 1 + 1 = fork.maxHeight := by omega
  have hfirst : (s₀.withBest (path fork.maxHeight) fork.maxHeight).firstLink (path fork.maxHeight) =
      .ok (node (fork.maxHeight - 1 + 1), node (fork.maxHeight - 1)) := by
    rw [hH]
    exact ho.way.firstLink
  have hrefl : Moved s₀ fork.chainId fork.maxHeight (fork.maxHeight - 1 + 1) path node
      (s₀.withBest (path fork.maxHeight) fork.maxHeight) := by
    rw [hH]
    exact .of_eq rfl rfl
  have hirefl : IndexMoved s₀ fork.chainId a fork.maxHeight (fork.maxHeight - 1 + 1) node
      (s₀.withBest (path fork.maxHeight) fork.maxHeight) := by
    rw [hH]
    exact .of_eq hpath rfl
  obtain ⟨hm, hi, haside⟩ := run_moveToMainchain hrefl hirefl hs ho.way ho.tip rfl (by omega)
    (by omega) (by omega) (hfirst ▸ hmove)
  obtain ⟨hmain₁, hswapped⟩ := ho.swapped hm hi haside
  obtain rfl := Option.some.inj (hmain₁.symm.trans hmain')
  have hchains := congrArg BtcRelay.chains haside
  have hl' : (s₁.setBlockChain mainChainId { main with maxHeight := fork.maxHeight }).chains.Lists
      (pre ++ fork.chainId :: post) := by
    change s₁.chains = s₀.chains at hchains
    change s₁.chains.Lists _
    rw [hchains]
    exact hl
  obtain ⟨rfl, rfl⟩ := run_getChainPositionFromChainId hl' hnodup hposition
  obtain ⟨p₁, p₂, rfl, hre, hhigh, hlow⟩ := run_bubbleBack rfl hl' hbubble
  rw [heightOf_of_some hswapped.forkChain] at hhigh hlow
  exact ⟨path, node, a, _, p₁, p₂, ho, hswapped, haside, rfl, hre, hhigh,
    fun hlength => hlow (by omega)⟩

end Interbtc.BtcRelay
