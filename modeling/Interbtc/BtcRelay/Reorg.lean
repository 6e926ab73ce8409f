import Interbtc.BtcRelay.Structure

/-!
# A fork becomes the main chain

The blocks from the last one of the fork down to the main chain may belong to several
chains. They move to the main chain one by one, and each block of the main chain they replace
moves to the fork. What is left of a chain on the way starts above the block it lost last.
-/

namespace Interbtc.BtcRelay

open Core

variable {s s' s₀ : BtcRelay} {x y : H256Le} {b p : RichBlockHeader} {f a H t : ℕ}
  {path : ℕ → H256Le} {node : ℕ → RichBlockHeader}

/-! ## The way down to the main chain -/

/-- The blocks from a height down to the main chain, which is reached at another height. -/
structure Path (s : BtcRelay) (path : ℕ → H256Le) (node : ℕ → RichBlockHeader) (a H : ℕ) :
    Prop where
  lt : a < H
  stored : ∀ h, a ≤ h → h ≤ H → s.blockHeaders (path h) = some (node h)
  height : ∀ h, a ≤ h → h ≤ H → (node h).blockHeight = h
  link : ∀ h, a ≤ h → h < H → (node (h + 1)).blockHeader.hashPrevBlock = path h
  joins : ∀ h, a ≤ h → h < H → s.Joins (node h) (node (h + 1))
  fork : ∀ h, a < h → h ≤ H → (node h).chainId ≠ mainChainId
  base : (node a).chainId = mainChainId

private theorem Path.extend (hp : Path s path node a H) (hb : s.blockHeaders x = some b)
    (hheight : b.blockHeight = H + 1) (hlink : b.blockHeader.hashPrevBlock = path H)
    (hjoin : s.Joins (node H) b) (hfork : b.chainId ≠ mainChainId) :
    Path s (Function.update path (H + 1) x) (Function.update node (H + 1) b) a (H + 1) where
  lt := hp.lt.trans (Nat.lt_succ_self H)
  stored h ha hH := by
    by_cases heq : h = H + 1
    · rw [heq, Function.update_self, Function.update_self]
      exact hb
    · rw [Function.update_of_ne heq, Function.update_of_ne heq]
      exact hp.stored h ha (by omega)
  height h ha hH := by
    by_cases heq : h = H + 1
    · rw [heq, Function.update_self]
      exact hheight
    · rw [Function.update_of_ne heq]
      exact hp.height h ha (by omega)
  link h ha hH := by
    by_cases heq : h = H
    · rw [heq, Function.update_self, Function.update_of_ne (Nat.lt_succ_self H).ne]
      exact hlink
    · rw [Function.update_of_ne (by omega), Function.update_of_ne (by omega)]
      exact hp.link h ha (by omega)
  joins h ha hH := by
    by_cases heq : h = H
    · rw [heq, Function.update_self, Function.update_of_ne (Nat.lt_succ_self H).ne]
      exact hjoin
    · rw [Function.update_of_ne (by omega), Function.update_of_ne (by omega)]
      exact hp.joins h ha (by omega)
  fork h ha hH := by
    by_cases heq : h = H + 1
    · rw [heq, Function.update_self]
      exact hfork
    · rw [Function.update_of_ne heq]
      exact hp.fork h ha (by omega)
  base := by
    have hlt := hp.lt
    rw [Function.update_of_ne (by omega)]
    exact hp.base

/-- A block off the main chain lies on a path down to it. -/
theorem Linked.exists_path (hs : Linked s) (hb : s.blockHeaders x = some b)
    (hfork : b.chainId ≠ mainChainId) :
    ∃ path node a, Path s path node a b.blockHeight ∧ path b.blockHeight = x := by
  obtain ⟨H, hH⟩ : ∃ H, b.blockHeight = H := ⟨_, rfl⟩
  induction H generalizing x b with
  | zero =>
    obtain ⟨p, -, hheight, -⟩ := hs.parent_of_fork hb hfork
    omega
  | succ H ih =>
    obtain ⟨p, hp, hheight, hjoin⟩ := hs.parent_of_fork hb hfork
    have hpH : p.blockHeight = H := by omega
    rw [hH]
    by_cases hmain : p.chainId = mainChainId
    · refine ⟨Function.update (fun _ => b.blockHeader.hashPrevBlock) (H + 1) x,
        Function.update (fun _ => p) (H + 1) b, H, ⟨Nat.lt_succ_self H, fun h ha hle => ?_,
        fun h ha hle => ?_, fun h ha hlt => ?_, fun h ha hlt => ?_, fun h ha hle => ?_, ?_⟩,
        Function.update_self _ _ _⟩
      · rcases (show h = H ∨ h = H + 1 by omega) with rfl | rfl
        · rw [Function.update_of_ne (Nat.lt_succ_self h).ne,
            Function.update_of_ne (Nat.lt_succ_self h).ne]
          exact hp
        · rw [Function.update_self, Function.update_self]
          exact hb
      · rcases (show h = H ∨ h = H + 1 by omega) with rfl | rfl
        · rw [Function.update_of_ne (Nat.lt_succ_self h).ne]
          exact hpH
        · rw [Function.update_self]
          exact hH
      · obtain rfl : h = H := by omega
        rw [Function.update_self, Function.update_of_ne (Nat.lt_succ_self h).ne]
      · obtain rfl : h = H := by omega
        rw [Function.update_self, Function.update_of_ne (Nat.lt_succ_self h).ne]
        exact hjoin
      · obtain rfl : h = H + 1 := by omega
        rw [Function.update_self]
        exact hfork
      · rw [Function.update_of_ne (Nat.lt_succ_self H).ne]
        exact hmain
    · obtain ⟨path, node, a, hpath, hend⟩ := ih hp hmain hpH
      rw [hpH] at hpath hend
      have hnode : node H = p := by
        have h := hpath.stored H hpath.lt.le le_rfl
        rw [hend, hp] at h
        exact (Option.some.inj h).symm
      refine ⟨_, _, a, hpath.extend hb hH hend.symm ?_ hfork, Function.update_self _ _ _⟩
      rw [hnode]
      exact hjoin

namespace Path

variable (hp : Path s path node a H) (hs : Linked s)
include hp hs

private theorem hash_eq {h : ℕ} (ha : a ≤ h) (hH : h ≤ H) :
    (node h).blockHeader.hash = path h :=
  hs.hash _ _ (hp.stored h ha hH)

/-- Down from one of its blocks, the path stays in a chain until it has passed the first one. -/
theorem within {chain : BlockChain} {h : ℕ} (ha : a ≤ h) (hH : h ≤ H)
    (hchain : s.chainsIndex (node h).chainId = some chain) {h' : ℕ} (hstart : chain.startHeight ≤ h')
    (ha' : a ≤ h') (hle : h' ≤ h) : (node h').chainId = (node h).chainId := by
  obtain ⟨d, rfl⟩ := Nat.exists_eq_add_of_le hle
  induction d generalizing h' with
  | zero => rfl
  | succ d ih =>
    have hsucc : (node (h' + 1)).chainId = (node (h' + (d + 1))).chainId := by
      have h := @ih (h' + 1) (by omega) (by omega) (by omega) (by omega)
        (by rwa [show h' + 1 + d = h' + (d + 1) by omega]) (by omega)
      rwa [show h' + 1 + d = h' + (d + 1) by omega] at h
    obtain ⟨p, hparent, -, hsame⟩ := hs.parent_of_lt (hp.stored (h' + 1) (by omega) (by omega))
      (hsucc ▸ hchain) (by rw [hp.height (h' + 1) (by omega) (by omega)]; omega)
    rw [hp.link h' ha' (by omega), hp.stored h' ha' (by omega)] at hparent
    rw [Option.some.inj hparent]
    exact hsame.trans hsucc

/-- The path does not come back to a chain it has left. -/
theorem between {h h' m : ℕ} (ha : a ≤ h) (hH : h' ≤ H)
    (hsame : (node h).chainId = (node h').chainId)
    (hlow : h ≤ m) (hhigh : m ≤ h') : (node m).chainId = (node h').chainId := by
  obtain ⟨chain, hchain, hstart, -⟩ := hs.chain_of (hp.stored h ha (by omega))
  rw [hp.height h ha (by omega)] at hstart
  exact hp.within hs (by omega) hH (hsame ▸ hchain) (by omega) (by omega) hhigh

end Path

/-! ## Moving the blocks -/

/-- One position of a chain is stored. -/
@[simp] theorem setBlockHash_apply (c h : ℕ) (o : Option H256Le) (c' h' : ℕ) :
    (s.setBlockHash c h o).chainsHashes c' h' =
      if c' = c ∧ h' = h then o else s.chainsHashes c' h' := by
  by_cases hc : c' = c
  · by_cases hh : h' = h
    · simp [setBlockHash, hc, hh]
    · simp [setBlockHash, hc, hh]
  · simp [setBlockHash, hc]

/-- Storing a chain changes one id. -/
theorem setBlockChain_apply (c c' : ℕ) (chain : BlockChain) :
    (s.setBlockChain c chain).chainsIndex c' = if c' = c then some chain else s.chainsIndex c' := by
  simp [setBlockChain, Function.update_apply]

/-- One header is moved to a chain. -/
@[simp] theorem setChainRef_apply (x y : H256Le) (c : ℕ) : (s.setChainRef x c).blockHeaders y =
    if y = x then some { (s.blockHeaders x).getD .default with chainId := c }
    else s.blockHeaders y := by
  simp [setChainRef, setBlockHeader, Function.update_apply]

/-- The chain of a block once the blocks above a height have moved. -/
def movedChain (f H t : ℕ) (path : ℕ → H256Le) (x : H256Le) (b : RichBlockHeader) : ℕ :=
  if t < b.blockHeight ∧ b.blockHeight ≤ H then
    if path b.blockHeight = x then mainChainId
    else if b.chainId = mainChainId then f else b.chainId
  else b.chainId

/-- The hash of a chain at a height once the blocks above another height have moved. -/
def movedHash (s : BtcRelay) (f H t : ℕ) (path : ℕ → H256Le) (node : ℕ → RichBlockHeader)
    (c h : ℕ) : Option H256Le :=
  if t < h ∧ h ≤ H then
    if c = mainChainId then some (path h)
    else if c = f then s.chainsHashes mainChainId h
    else if c = (node h).chainId then none
    else s.chainsHashes c h
  else s.chainsHashes c h

/-- The blocks above a height have moved. -/
structure Moved (s : BtcRelay) (f H t : ℕ) (path : ℕ → H256Le) (node : ℕ → RichBlockHeader)
    (s' : BtcRelay) : Prop where
  hashes : ∀ c h, s'.chainsHashes c h = s.movedHash f H t path node c h
  headers : ∀ x, s'.blockHeaders x =
    (s.blockHeaders x).map fun b => { b with chainId := movedChain f H t path x b }

private theorem movedHash_of_ne {c h : ℕ} (h' : h ≠ t + 1) :
    s.movedHash f H (t + 1) path node c h = s.movedHash f H t path node c h := by
  have hiff : (t + 1 < h ∧ h ≤ H) ↔ (t < h ∧ h ≤ H) := by omega
  simp only [movedHash, hiff]

private theorem movedChain_of_ne (h' : b.blockHeight ≠ t + 1) :
    movedChain f H (t + 1) path x b = movedChain f H t path x b := by
  have hiff : (t + 1 < b.blockHeight ∧ b.blockHeight ≤ H) ↔
      (t < b.blockHeight ∧ b.blockHeight ≤ H) := by omega
  simp only [movedChain, hiff]

private theorem swapBlockToMainchain_hashes (block : RichBlockHeader) (hf : f ≠ mainChainId)
    (c h : ℕ) :
    (swapBlockToMainchain block f s).chainsHashes c h =
      if h ≠ block.blockHeight then s.chainsHashes c h
      else if c = mainChainId then some block.blockHeader.hash
      else if c = f ∧ (s.chainsHashes mainChainId h).isSome = true then
        s.chainsHashes mainChainId h
      else if c = block.chainId then none
      else s.chainsHashes c h := by
  unfold swapBlockToMainchain
  dsimp only
  by_cases hh : h = block.blockHeight
  · subst hh
    cases hrep : s.chainsHashes mainChainId block.blockHeight with
    | none => simp [setChainRef, setBlockHeader]
    | some r =>
      by_cases hc : c = mainChainId
      · simp [setChainRef, setBlockHeader, hc, hf.symm]
      · simp [setChainRef, setBlockHeader, hc]
  · cases hrep : s.chainsHashes mainChainId block.blockHeight with
    | none => simp [setChainRef, setBlockHeader, hh]
    | some r => simp [setChainRef, setBlockHeader, hh]

private theorem swapBlockToMainchain_headers {block : RichBlockHeader}
    (hne : s.chainsHashes mainChainId block.blockHeight ≠ some block.blockHeader.hash)
    (y : H256Le) : (swapBlockToMainchain block f s).blockHeaders y =
      if y = block.blockHeader.hash then
        some { (s.blockHeaders y).getD .default with chainId := mainChainId }
      else if s.chainsHashes mainChainId block.blockHeight = some y then
        some { (s.blockHeaders y).getD .default with chainId := f }
      else s.blockHeaders y := by
  unfold swapBlockToMainchain
  dsimp only
  by_cases hy : y = block.blockHeader.hash
  · cases hrep : s.chainsHashes mainChainId block.blockHeight with
    | none => simp [setBlockHash, hy]
    | some r =>
      have hr : block.blockHeader.hash ≠ r := fun h => hne (h ▸ hrep)
      simp [setBlockHash, hy, hr]
  · cases hrep : s.chainsHashes mainChainId block.blockHeight with
    | none => simp [setBlockHash, hy]
    | some r =>
      by_cases hr : r = y
      · subst hr
        simp [setBlockHash, hy]
      · simp [setBlockHash, hy, hr, Ne.symm hr]

/-- One more block has moved. -/
theorem Moved.swap (hm : Moved s₀ f H (t + 1) path node s) (hs : Linked s₀)
    (hp : Path s₀ path node a H) (hf : f ≠ mainChainId) (ha : a ≤ t) (hH : t < H)
    (hempty : (node (t + 1)).chainId ≠ f → s₀.chainsHashes f (t + 1) = none) :
    Moved s₀ f H t path node (swapBlockToMainchain (node (t + 1)) f s) := by
  have hfork := hp.fork (t + 1) (by omega) hH
  have hstored := hp.stored (t + 1) (by omega) hH
  have hheight := hp.height (t + 1) (by omega) hH
  have hhash := hp.hash_eq hs (by omega : a ≤ t + 1) hH
  have hin : t < t + 1 ∧ t + 1 ≤ H := ⟨Nat.lt_succ_self t, hH⟩
  have hout : ¬(t + 1 < t + 1 ∧ t + 1 ≤ H) := fun h => Nat.lt_irrefl _ h.1
  have hlow : ∀ c, s.chainsHashes c (t + 1) = s₀.chainsHashes c (t + 1) := fun c => by
    rw [hm.hashes, movedHash, if_neg hout]
  refine ⟨fun c h => ?_, fun y => ?_⟩
  · rw [swapBlockToMainchain_hashes _ hf, hheight, hhash]
    by_cases hh : h = t + 1
    · subst hh
      rw [hlow, hlow, if_neg fun h => h rfl, movedHash, if_pos hin]
      by_cases hc : c = mainChainId
      · rw [if_pos hc, if_pos hc]
      rw [if_neg hc, if_neg hc]
      by_cases hcf : c = f
      · rw [if_pos hcf]
        cases hold : s₀.chainsHashes mainChainId (t + 1) with
        | some r => rw [if_pos ⟨hcf, rfl⟩]
        | none =>
          rw [if_neg fun h => absurd h.2 (by decide)]
          split
          · rfl
          · next hother => rw [hcf, hempty fun h => hother (hcf.trans h.symm)]
      · rw [if_neg hcf, if_neg fun h => hcf h.1]
    · rw [if_pos hh, hm.hashes, movedHash_of_ne hh]
  · rw [swapBlockToMainchain_headers, hheight, hhash, hlow, hm.headers]
    · by_cases hy : y = path (t + 1)
      · rw [if_pos hy, hy, hstored, Option.map_some, Option.map_some, Option.getD_some, movedChain,
          movedChain, hheight, if_pos hin, if_pos rfl]
      rw [if_neg hy]
      by_cases hold : s₀.chainsHashes mainChainId (t + 1) = some y
      · obtain ⟨q, hq, hmain, hqheight⟩ := (hs.named _ _ _).mp hold
        rw [if_pos hold, hq, Option.map_some, Option.map_some, Option.getD_some, movedChain,
          movedChain, hqheight, if_pos hin, if_neg (Ne.symm hy), if_pos hmain]
      rw [if_neg hold]
      cases hq : s₀.blockHeaders y with
      | none => rfl
      | some q =>
        rw [Option.map_some, Option.map_some]
        congr 2
        by_cases hqheight : q.blockHeight = t + 1
        · have hother : q.chainId ≠ mainChainId := fun h =>
            hold ((hs.named _ _ _).mpr ⟨q, hq, h, hqheight⟩)
          rw [movedChain, movedChain, hqheight, if_neg hout, if_pos hin, if_neg (Ne.symm hy),
            if_neg hother]
        · exact movedChain_of_ne hqheight
    · rw [hheight, hhash, hlow]
      intro h
      obtain ⟨q, hq, hmain, -⟩ := (hs.named _ _ _).mp h
      rw [hstored] at hq
      exact hfork (Option.some.inj hq ▸ hmain)

/-! ## The chains on the way -/

/-- The path leaves a fork above a height. -/
def Leaves (node : ℕ → RichBlockHeader) (a H c h : ℕ) : Prop :=
  c ≠ mainChainId ∧ a ≤ h ∧ h < H ∧ (node h).chainId = c ∧ (node (h + 1)).chainId ≠ c

/-- The chains once the blocks above a height have moved. -/
structure IndexMoved (s : BtcRelay) (f a H t : ℕ) (node : ℕ → RichBlockHeader) (s' : BtcRelay) :
    Prop where
  isSome : ∀ c, (s'.chainsIndex c).isSome = (s.chainsIndex c).isSome
  others : ∀ c chain, c ≠ f → s.chainsIndex c = some chain →
    ∃ start, s'.chainsIndex c = some { chain with startHeight := start } ∧
      ((∃ h, t ≤ h ∧ Leaves node a H c h ∧ start = h + 1) ∨
        ((∀ h, t ≤ h → ¬Leaves node a H c h) ∧ start = chain.startHeight))
  fork : s'.chainsIndex f =
    if t = a then
      (s.chainsIndex mainChainId).map fun main => { main with chainId := f, startHeight := a + 1 }
    else s.chainsIndex f

private theorem run_updateForkStart {fork : BlockChain} {parent : RichBlockHeader} {u : Unit}
    (h : (updateForkStart fork parent).run s = .ok u s') :
    ∃ chain, s.chainsIndex parent.chainId = some chain ∧
      s' = s.setBlockChain (if parent.chainId = mainChainId then fork.chainId else chain.chainId)
        { chain with
          startHeight := parent.blockHeight + 1
          chainId :=
            if parent.chainId = mainChainId then fork.chainId else chain.chainId } := by
  simp only [updateForkStart, getBlockChainFromId, Call.run_bind_eq_ok, Call.run_get_eq_ok,
    Call.run_ofOption_eq_ok, Call.run_ensure_eq_ok, Call.run_modify_eq_ok] at h
  obtain ⟨chain, _, ⟨_, _, ⟨rfl, rfl⟩, hchain, rfl⟩, _, _, ⟨-, rfl⟩, rfl⟩ := h
  refine ⟨chain, hchain, ?_⟩
  split <;> rfl

namespace IndexMoved

variable (hm : IndexMoved s₀ f a H (t + 1) node s)
include hm

/-- Within a chain, the chains are as before. -/
theorem stay (hsame : (node t).chainId = (node (t + 1)).chainId) (hne : t ≠ a) (ha : a ≤ t) :
    IndexMoved s₀ f a H t node s where
  isSome := hm.isSome
  others c chain hc hchain := by
    obtain ⟨start, hstart, hcase⟩ := hm.others c chain hc hchain
    refine ⟨start, hstart, ?_⟩
    rcases hcase with ⟨h, hle, hleaves⟩ | ⟨hnone, heq⟩
    · exact .inl ⟨h, by omega, hleaves⟩
    · refine .inr ⟨fun h hle hleaves => ?_, heq⟩
      obtain rfl | hlt := hle.eq_or_lt
      · exact hleaves.2.2.2.2 (hsame ▸ hleaves.2.2.2.1)
      · exact hnone h hlt hleaves
  fork := by
    rw [hm.fork, if_neg (by omega), if_neg hne]

/-- A fork is left: what remains of it starts above. -/
theorem leave {chain : BlockChain} (hs : Linked s₀) (hfork : (node t).chainId ≠ mainChainId)
    (hf : (node t).chainId ≠ f) (hleft : (node t).chainId ≠ (node (t + 1)).chainId)
    (ha : a < t) (hH : t < H) (hchain : s.chainsIndex (node t).chainId = some chain) :
    IndexMoved s₀ f a H t node
      (s.setBlockChain chain.chainId { chain with startHeight := t + 1 }) := by
  obtain ⟨old, hold⟩ : ∃ old, s₀.chainsIndex (node t).chainId = some old := by
    rw [← Option.isSome_iff_exists, ← hm.isSome, hchain]
    rfl
  obtain ⟨start, hstart, -⟩ := hm.others _ old hf hold
  obtain rfl : chain = { old with startHeight := start } :=
    Option.some.inj (hchain.symm.trans hstart)
  have hid : old.chainId = (node t).chainId := (hs.index _ _ hold).1
  refine ⟨fun c => ?_, fun c own hc hown => ?_, ?_⟩
  · rw [setBlockChain_apply, hid]
    by_cases hcase : c = (node t).chainId
    · rw [if_pos hcase, hcase, hold]
      rfl
    · rw [if_neg hcase, hm.isSome]
  · rw [setBlockChain_apply, hid]
    by_cases hcase : c = (node t).chainId
    · subst hcase
      obtain rfl : old = own := Option.some.inj (hold.symm.trans hown)
      rw [if_pos rfl]
      exact ⟨t + 1, by rw [hid], .inl ⟨t, le_rfl, ⟨hfork, ha.le, hH, rfl, hleft.symm⟩, rfl⟩⟩
    · rw [if_neg hcase]
      obtain ⟨start', hstart', hcases⟩ := hm.others c own hc hown
      refine ⟨start', hstart', ?_⟩
      rcases hcases with ⟨h, hle, hleaves⟩ | ⟨hnone, heq⟩
      · exact .inl ⟨h, by omega, hleaves⟩
      · refine .inr ⟨fun h hle hleaves => ?_, heq⟩
        obtain rfl | hlt := hle.eq_or_lt
        · exact hcase hleaves.2.2.2.1.symm
        · exact hnone h hlt hleaves
  · have hta : t ≠ a := ha.ne'
    have hta' : t + 1 ≠ a := by omega
    rw [setBlockChain_apply, hid, if_neg hf.symm, hm.fork, if_neg hta, if_neg hta']

/-- The main chain is reached: what remains of it goes to the fork. -/
theorem reach {chain : BlockChain} (hf : f ≠ mainChainId)
    (hfork : (s₀.chainsIndex f).isSome = true) (hta : t = a)
    (hmain : (node t).chainId = mainChainId) (hchain : s.chainsIndex mainChainId = some chain) :
    IndexMoved s₀ f a H t node
      (s.setBlockChain f { chain with startHeight := t + 1, chainId := f }) := by
  subst hta
  obtain ⟨old, hold⟩ : ∃ old, s₀.chainsIndex mainChainId = some old := by
    rw [← Option.isSome_iff_exists, ← hm.isSome, hchain]
    rfl
  have hkeep : chain = old := by
    obtain ⟨start, hstart, hcases⟩ := hm.others _ old hf.symm hold
    rw [hchain] at hstart
    rcases hcases with ⟨_, -, hleaves, -⟩ | ⟨-, rfl⟩
    · exact absurd rfl hleaves.1
    · exact Option.some.inj hstart
  subst hkeep
  refine ⟨fun c => ?_, fun c own hc hown => ?_, ?_⟩
  · rw [setBlockChain_apply]
    by_cases hcase : c = f
    · rw [if_pos hcase, hcase, hfork]
      rfl
    · rw [if_neg hcase, hm.isSome]
  · rw [setBlockChain_apply, if_neg hc]
    obtain ⟨start', hstart', hcases⟩ := hm.others c own hc hown
    refine ⟨start', hstart', ?_⟩
    rcases hcases with ⟨h, hle, hleaves⟩ | ⟨hnone, heq⟩
    · exact .inl ⟨h, by omega, hleaves⟩
    · refine .inr ⟨fun h hle hleaves => ?_, heq⟩
      obtain rfl | hlt := hle.eq_or_lt
      · exact hleaves.1 (hleaves.2.2.2.1.symm.trans hmain)
      · exact hnone h hlt hleaves
  · rw [setBlockChain_apply, if_pos rfl, if_pos rfl, hold, Option.map_some]

end IndexMoved

/-! ## The loop -/

/-- What moving blocks leaves alone. -/
def aside (s : BtcRelay) : BtcRelay :=
  { s with blockHeaders := fun _ => none, chainsIndex := fun _ => none, chainsHashes := fun _ _ => none }

private theorem swapBlockToMainchain_index (block : RichBlockHeader) (f : ℕ) (s : BtcRelay) :
    (swapBlockToMainchain block f s).chainsIndex = s.chainsIndex := by
  unfold swapBlockToMainchain
  dsimp only
  split <;> rfl

private theorem swapBlockToMainchain_aside (block : RichBlockHeader) (f : ℕ) (s : BtcRelay) :
    (swapBlockToMainchain block f s).aside = s.aside := by
  unfold swapBlockToMainchain
  dsimp only
  split <;> rfl

/-- Where the path is not in a chain, the fork it ends in has no block. -/
theorem Path.fork_empty (hp : Path s path node a H) (hs : Linked s) (ht : a ≤ t) (hH : t ≤ H)
    (hend : (node H).chainId = f) (hne : (node t).chainId ≠ f) : s.chainsHashes f t = none := by
  by_contra hsome
  obtain ⟨chain, hchain, hstart, -⟩ := (hs.entries f t).mp (Option.isSome_iff_ne_none.mpr hsome)
  rw [← hend] at hchain hne
  exact hne (hp.within hs (hp.lt.le) le_rfl hchain hstart ht hH)

/-- The path is on the main chain only where it ends. -/
theorem Path.main_iff (hp : Path s path node a H) (ha : a ≤ t) (hH : t ≤ H) :
    (node t).chainId = mainChainId ↔ t = a := by
  constructor
  · intro hmain
    by_contra hne
    exact hp.fork t (by omega) hH hmain
  · rintro rfl
    exact hp.base

private theorem Moved.headers_of_le (hm : Moved s₀ f H t path node s)
    (hb : s₀.blockHeaders x = some b)
    (hle : b.blockHeight ≤ t) : s.blockHeaders x = some b := by
  rw [hm.headers, hb, Option.map_some, movedChain, if_neg (by omega)]

/-- One link of the path. -/
theorem run_moveLink {fork : BlockChain} {u : Unit} (hm : Moved s₀ f H (t + 1) path node s)
    (hi : IndexMoved s₀ f a H (t + 1) node s) (hs : Linked s₀) (hp : Path s₀ path node a H)
    (hend : (node H).chainId = f) (hid : fork.chainId = f) (ha : a ≤ t) (hH : t < H)
    (h : (if (node t).chainId ≠ (node (t + 1)).chainId then updateForkStart fork (node t)
      else pure () : RelayCall Unit).run s = .ok u s') :
    Moved s₀ f H t path node (swapBlockToMainchain (node (t + 1)) f s') ∧
      IndexMoved s₀ f a H t node (swapBlockToMainchain (node (t + 1)) f s') ∧
      s'.aside = s.aside := by
  have hf : f ≠ mainChainId := hend ▸ hp.fork H hp.lt le_rfl
  have hfsome : (s₀.chainsIndex f).isSome = true := by
    obtain ⟨chain, hchain, -⟩ := hs.chain_of (hp.stored H hp.lt.le le_rfl)
    rw [← hend, hchain]
    rfl
  have hswap : ∀ s₁ : BtcRelay, s₁.blockHeaders = s.blockHeaders →
      s₁.chainsHashes = s.chainsHashes →
      Moved s₀ f H t path node (swapBlockToMainchain (node (t + 1)) f s₁) := by
    intro s₁ hheaders hhashes
    have hm₁ : Moved s₀ f H (t + 1) path node s₁ :=
      ⟨fun c h => hhashes ▸ hm.hashes c h, fun x => hheaders ▸ hm.headers x⟩
    exact hm₁.swap hs hp hf ha hH fun hne => hp.fork_empty hs (by omega) hH hend hne
  have hindex : ∀ s₁ : BtcRelay, IndexMoved s₀ f a H t node s₁ →
      IndexMoved s₀ f a H t node (swapBlockToMainchain (node (t + 1)) f s₁) := by
    intro s₁ hi₁
    have heq := swapBlockToMainchain_index (node (t + 1)) f s₁
    exact ⟨heq ▸ hi₁.isSome, heq ▸ hi₁.others, heq ▸ hi₁.fork⟩
  by_cases hsame : (node t).chainId = (node (t + 1)).chainId
  · rw [if_neg (not_not_intro hsame), Call.run_pure_eq_ok] at h
    obtain ⟨-, rfl⟩ := h
    have hne : t ≠ a := by
      intro hta
      have hmain := (hp.main_iff ha hH.le).mpr hta
      exact hp.fork (t + 1) (by omega) hH (hsame ▸ hmain)
    exact ⟨hswap _ rfl rfl, hindex _ (hi.stay hsame hne ha), rfl⟩
  · rw [if_pos hsame] at h
    obtain ⟨chain, hchain, rfl⟩ := run_updateForkStart h
    refine ⟨hswap _ rfl rfl, hindex _ ?_, rfl⟩
    rw [hp.height t ha hH.le, hid]
    by_cases hmain : (node t).chainId = mainChainId
    · rw [if_pos hmain]
      exact hi.reach hf hfsome ((hp.main_iff ha hH.le).mp hmain) hmain (hmain ▸ hchain)
    · rw [if_neg hmain]
      have hlt : a < t := by
        have hne := mt (hp.main_iff ha hH.le).mpr hmain
        omega
      refine hi.leave hs hmain (fun hback => hsame ?_) hsame hlt hH hchain
      rw [hback, ← hend]
      exact (hp.between hs ha le_rfl (hback.trans hend.symm) (Nat.le_succ t) hH).symm

/-- The blocks from a link down to the main chain move. -/
theorem run_moveToMainchain {fork : BlockChain} {u : Unit} {fuel : ℕ}
    (hm : Moved s₀ f H (t + 1) path node s) (hi : IndexMoved s₀ f a H (t + 1) node s)
    (hs : Linked s₀) (hp : Path s₀ path node a H) (hend : (node H).chainId = f)
    (hid : fork.chainId = f) (ha : a ≤ t) (hH : t < H) (hfuel : t < a + fuel)
    (h : (moveToMainchain fork fuel (.ok (node (t + 1), node t))).run s = .ok u s') :
    Moved s₀ f H a path node s' ∧ IndexMoved s₀ f a H a node s' ∧ s'.aside = s.aside := by
  induction fuel generalizing t s with
  | zero => omega
  | succ fuel ih =>
    simp only [moveToMainchain, Call.run_bind_eq_ok, Call.run_get_eq_ok, Call.run_ofExcept_eq_ok,
      Call.run_modify_eq_ok] at h
    obtain ⟨_, _, ⟨hpair, rfl⟩, _, _, ⟨rfl, rfl⟩, _, s₁, hlink, _, _, rfl, h⟩ := h
    obtain rfl := Except.ok.inj hpair
    dsimp only at hlink h
    rw [hid] at h
    obtain ⟨hm', hi', haside⟩ := run_moveLink hm hi hs hp hend hid ha hH hlink
    by_cases hmain : (node t).chainId = mainChainId
    · obtain rfl := (hp.main_iff ha hH.le).mp hmain
      rw [if_pos hmain, Call.run_pure_eq_ok] at h
      obtain ⟨-, rfl⟩ := h
      exact ⟨hm', hi', (swapBlockToMainchain_aside _ _ _).trans haside⟩
    · have hlt : a < t := by
        have hne := mt (hp.main_iff ha hH.le).mpr hmain
        omega
      obtain ⟨d, rfl⟩ : ∃ d, t = d + 1 := ⟨t - 1, by omega⟩
      rw [if_neg hmain] at h
      have hnext : s.linkOf (node (d + 1)) = .ok (node (d + 1), node d) := by
        have hheight := hp.height d (by omega) (by omega)
        rw [linkOf, hp.link d (by omega) (by omega),
          hm.headers_of_le (hp.stored d (by omega) (by omega)) (by omega)]
        rfl
      rw [hnext] at h
      obtain ⟨hm'', hi'', haside'⟩ := ih hm' hi' (by omega) (by omega) (by omega) h
      exact ⟨hm'', hi'', haside'.trans ((swapBlockToMainchain_aside _ _ _).trans haside)⟩

/-- Before the first link, nothing has moved. -/
theorem Moved.of_eq (hheaders : s'.blockHeaders = s.blockHeaders)
    (hhashes : s'.chainsHashes = s.chainsHashes) : Moved s f H H path node s' where
  hashes c h := by
    rw [hhashes, movedHash, if_neg (by omega)]
  headers x := by
    rw [hheaders]
    cases hb : s.blockHeaders x with
    | none => rfl
    | some b => rw [Option.map_some, movedChain, if_neg (by omega)]

/-- At first no block has moved. -/
theorem IndexMoved.of_eq (h : a < H) (hindex : s'.chainsIndex = s.chainsIndex) :
    IndexMoved s f a H H node s' where
  isSome c := by rw [hindex]
  others c chain hc hchain := by
    refine ⟨chain.startHeight, hindex ▸ hchain, .inr ⟨fun u hle hleaves => ?_, rfl⟩⟩
    have hlt := hleaves.2.2.1
    omega
  fork := by
    rw [if_neg h.ne', hindex]

end Interbtc.BtcRelay
