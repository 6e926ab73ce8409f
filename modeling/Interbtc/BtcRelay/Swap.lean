import Interbtc.BtcRelay.Reorg

/-!
# The chains after a reorganisation

The fork that overtook the main chain has its last block on the new main chain, and what the
old main chain had above the fork is now the fork. The other chains on the way are shorter,
and every block is still on top of its parent.
-/

namespace Interbtc.BtcRelay

open Core

variable {s s' : BtcRelay} {x y : H256Le} {b p : RichBlockHeader} {a c t : ℕ}
  {path : ℕ → H256Le} {node : ℕ → RichBlockHeader} {fork main chain : BlockChain}

/-- A fork is ahead of the main chain, and its blocks lead down to it. -/
structure Overtakes (s : BtcRelay) (path : ℕ → H256Le) (node : ℕ → RichBlockHeader) (a : ℕ)
    (fork main : BlockChain) : Prop where
  way : Path s path node a fork.maxHeight
  tip : (node fork.maxHeight).chainId = fork.chainId
  forkChain : s.chainsIndex fork.chainId = some fork
  mainChain : s.chainsIndex mainChainId = some main
  lt : main.maxHeight < fork.maxHeight

/-- What becomes of a block in a reorganisation. -/
inductive Fate (node : ℕ → RichBlockHeader) (path : ℕ → H256Le) (a : ℕ) (fork : BlockChain)
    (x : H256Le) (b : RichBlockHeader) (c : ℕ) : Prop
  | joined (hlow : a < b.blockHeight) (hhigh : b.blockHeight ≤ fork.maxHeight)
      (hx : path b.blockHeight = x) (hc : c = mainChainId)
  | displaced (hlow : a < b.blockHeight) (hmain : b.chainId = mainChainId)
      (hc : c = fork.chainId)
  | kept (hc : c = b.chainId) (hmain : b.chainId = mainChainId → b.blockHeight ≤ a)
      (hfork : b.chainId ≠ fork.chainId)
      (hoff : a < b.blockHeight → b.blockHeight ≤ fork.maxHeight →
        (node b.blockHeight).chainId ≠ b.chainId)

namespace Overtakes

variable (ho : Overtakes s path node a fork main) (hs : Linked s)
include ho

/-- The chain that overtakes is a fork. -/
theorem isFork : fork.chainId ≠ mainChainId :=
  ho.tip ▸ ho.way.fork _ ho.way.lt le_rfl

/-- The path reaches the main chain below its end. -/
theorem base_lt : a < main.maxHeight := by
  have hlt := ho.way.lt
  rcases ho.way.joins a le_rfl hlt with hsame | ⟨-, chain, hchain, hmax⟩
  · exact absurd (hsame.symm.trans ho.way.base) (ho.way.fork (a + 1) (Nat.lt_succ_self a) hlt)
  · rw [ho.way.base, ho.mainChain] at hchain
    rw [ho.way.height a le_rfl hlt.le] at hmax
    exact Option.some.inj hchain ▸ hmax

/-- The blocks of the path are on the main chain then. -/
theorem movedChain_path (ha : a ≤ t) (hH : t ≤ fork.maxHeight) :
    movedChain fork.chainId fork.maxHeight a path (path t) (node t) = mainChainId := by
  have hheight := ho.way.height t ha hH
  rw [movedChain, hheight, if_pos rfl]
  by_cases hta : t = a
  · rw [if_neg (by omega)]
    exact (ho.way.main_iff ha hH).mpr hta
  · rw [if_pos ⟨by omega, hH⟩]

/-- The block of the path at a height. -/
theorem node_eq (hb : s.blockHeaders x = some b) (ha : a ≤ b.blockHeight)
    (hH : b.blockHeight ≤ fork.maxHeight) (hx : path b.blockHeight = x) :
    node b.blockHeight = b :=
  Option.some.inj ((ho.way.stored _ ha hH).symm.trans (hx ▸ hb))

/-- The parent of a block of the path is on the main chain then. -/
theorem movedChain_parent (hb : s.blockHeaders x = some b) (hp : s.blockHeaders y = some p)
    (hlink : b.blockHeader.hashPrevBlock = y) (hheight : p.blockHeight + 1 = b.blockHeight)
    (hlow : a < b.blockHeight) (hhigh : b.blockHeight ≤ fork.maxHeight)
    (hx : path b.blockHeight = x) :
    movedChain fork.chainId fork.maxHeight a path y p = mainChainId := by
  have hnode := ho.node_eq hb hlow.le hhigh hx
  rw [← hheight] at hnode
  have hy : path p.blockHeight = y := by
    rw [← ho.way.link _ (by omega) (by omega), hnode, hlink]
  have hmain := ho.movedChain_path (t := p.blockHeight) (by omega) (by omega)
  rwa [hy, ho.node_eq hp (by omega) (by omega) hy] at hmain

include hs

/-- The fork leaves the main chain within it. -/
theorem start_le : main.startHeight ≤ a := by
  obtain ⟨chain, hchain, hstart, -⟩ := hs.chain_of (ho.way.stored a le_rfl ho.way.lt.le)
  rw [ho.way.base, ho.mainChain] at hchain
  rw [ho.way.height a le_rfl ho.way.lt.le] at hstart
  exact Option.some.inj hchain ▸ hstart

/-- A block in the chain of the path at its height is on the path. -/
theorem on_path (hb : s.blockHeaders x = some b) (ha : a ≤ b.blockHeight)
    (hH : b.blockHeight ≤ fork.maxHeight) (hsame : (node b.blockHeight).chainId = b.chainId) :
    path b.blockHeight = x :=
  hs.hash_eq (ho.way.stored _ ha hH) hb hsame (ho.way.height _ ha hH)

/-- A block of a chain that starts above the main chain's last block of the path. -/
theorem start_gt (hH : t ≤ fork.maxHeight) (ha : a ≤ t) (hfork : (node t).chainId ≠ mainChainId)
    (hchain : s.chainsIndex (node t).chainId = some chain) : a < chain.startHeight := by
  by_contra hle
  have hsame := ho.way.within hs ha hH hchain (not_lt.mp hle) le_rfl ha
  exact hfork (hsame.symm.trans ho.way.base)

/-- All blocks of the fork are on the path. -/
theorem fork_on_path (hb : s.blockHeaders x = some b) (hfork : b.chainId = fork.chainId) :
    a < b.blockHeight ∧ b.blockHeight ≤ fork.maxHeight ∧ path b.blockHeight = x := by
  obtain ⟨chain, hchain, hstart, hmax⟩ := hs.chain_of hb
  rw [hfork, ho.forkChain] at hchain
  obtain rfl := Option.some.inj hchain
  have htip : s.chainsIndex (node fork.maxHeight).chainId = some fork := ho.tip ▸ ho.forkChain
  have hlt := ho.start_gt hs le_rfl ho.way.lt.le (ho.tip ▸ ho.isFork) htip
  have hsame := ho.way.within hs ho.way.lt.le le_rfl htip hstart (by omega) hmax
  exact ⟨by omega, hmax, ho.on_path hs hb (by omega) hmax (by rw [hsame, ho.tip, hfork])⟩

private theorem main_le (hb : s.blockHeaders x = some b) (hmain : b.chainId = mainChainId) :
    b.blockHeight ≤ main.maxHeight := by
  obtain ⟨chain, hchain, -, hmax⟩ := hs.chain_of hb
  rw [hmain, ho.mainChain] at hchain
  exact Option.some.inj hchain ▸ hmax

private theorem fate (hb : s.blockHeaders x = some b) :
    Fate node path a fork x b (movedChain fork.chainId fork.maxHeight a path x b) := by
  have hout : ∀ h : ¬(a < b.blockHeight ∧ b.blockHeight ≤ fork.maxHeight),
      Fate node path a fork x b b.chainId := by
    intro h
    refine .kept rfl (fun hmain => ?_) (fun hfork => ?_) fun hlow hhigh => absurd ⟨hlow, hhigh⟩ h
    · have hle := ho.main_le hs hb hmain
      have hlt := ho.lt
      by_contra hgt
      exact h ⟨by omega, by omega⟩
    · obtain ⟨hlow, hhigh, -⟩ := ho.fork_on_path hs hb hfork
      exact h ⟨hlow, hhigh⟩
  unfold movedChain
  by_cases hin : a < b.blockHeight ∧ b.blockHeight ≤ fork.maxHeight
  · rw [if_pos hin]
    by_cases hx : path b.blockHeight = x
    · rw [if_pos hx]
      exact .joined hin.1 hin.2 hx rfl
    · rw [if_neg hx]
      by_cases hmain : b.chainId = mainChainId
      · rw [if_pos hmain]
        exact .displaced hin.1 hmain rfl
      · rw [if_neg hmain]
        refine .kept rfl (fun h => absurd h hmain) (fun hfork => ?_) fun _ _ hsame => ?_
        · exact hx (ho.fork_on_path hs hb hfork).2.2
        · exact hx (ho.on_path hs hb hin.1.le hin.2 hsame)
  · rw [if_neg hin]
    exact hout hin

/-- The hashes after the move name the headers after the move. -/
theorem movedHash_eq_some_iff (h : ℕ) :
    s.movedHash fork.chainId fork.maxHeight a path node c h = some x ↔
      ∃ b, s.blockHeaders x = some b ∧
        movedChain fork.chainId fork.maxHeight a path x b = c ∧ b.blockHeight = h := by
  constructor
  · intro hx
    unfold movedHash at hx
    by_cases hin : a < h ∧ h ≤ fork.maxHeight
    · have hnode := ho.way.fork h hin.1 hin.2
      rw [if_pos hin] at hx
      by_cases hc : c = mainChainId
      · rw [if_pos hc] at hx
        obtain rfl := Option.some.inj hx
        exact ⟨node h, ho.way.stored h hin.1.le hin.2,
          (ho.movedChain_path hin.1.le hin.2).trans hc.symm, ho.way.height h hin.1.le hin.2⟩
      rw [if_neg hc] at hx
      by_cases hcf : c = fork.chainId
      · rw [if_pos hcf] at hx
        obtain ⟨b, hb, hmain, rfl⟩ := (hs.named _ _ _).mp hx
        refine ⟨b, hb, ?_, rfl⟩
        rw [movedChain, if_pos hin, if_neg fun hpath => ?_, if_pos hmain, hcf]
        have hstored := ho.way.stored _ hin.1.le hin.2
        rw [hpath, hb] at hstored
        exact hnode (Option.some.inj hstored ▸ hmain)
      rw [if_neg hcf] at hx
      by_cases hcn : c = (node h).chainId
      · rw [if_pos hcn] at hx
        cases hx
      rw [if_neg hcn] at hx
      obtain ⟨b, hb, rfl, rfl⟩ := (hs.named _ _ _).mp hx
      refine ⟨b, hb, ?_, rfl⟩
      rw [movedChain, if_pos hin, if_neg fun hpath => ?_, if_neg hc]
      have hstored := ho.way.stored _ hin.1.le hin.2
      rw [hpath, hb] at hstored
      exact hcn (congrArg RichBlockHeader.chainId (Option.some.inj hstored))
    · rw [if_neg hin] at hx
      obtain ⟨b, hb, rfl, rfl⟩ := (hs.named _ _ _).mp hx
      exact ⟨b, hb, by rw [movedChain, if_neg hin], rfl⟩
  · rintro ⟨b, hb, hchain, rfl⟩
    unfold movedHash
    cases ho.fate hs hb with
    | joined hlow hhigh hx hc =>
      rw [if_pos ⟨hlow, hhigh⟩, if_pos (hchain.symm.trans hc), hx]
    | displaced hlow hmain hc =>
      have hle := ho.main_le hs hb hmain
      have hlt := ho.lt
      have hcf : c = fork.chainId := hchain.symm.trans hc
      rw [if_pos ⟨hlow, by omega⟩, if_neg (hcf ▸ ho.isFork), if_pos hcf]
      exact (hs.named _ _ _).mpr ⟨b, hb, hmain, rfl⟩
    | kept hc hmain hfork hoff =>
      have hcb : c = b.chainId := hchain.symm.trans hc
      have hnamed := (hs.named c _ x).mpr ⟨b, hb, hcb.symm, rfl⟩
      by_cases hin : a < b.blockHeight ∧ b.blockHeight ≤ fork.maxHeight
      · rw [if_pos hin, if_neg, if_neg (hcb ▸ hfork), if_neg]
        · exact hnamed
        · exact fun h => hoff hin.1 hin.2 (h.symm.trans hcb)
        · exact fun h => absurd (hmain (hcb.symm.trans h)) (not_le.mpr hin.1)
      · rw [if_neg hin]
        exact hnamed

end Overtakes

/-! ## The chains -/

/-- The storage once the fork is the main chain. -/
structure Swapped (s : BtcRelay) (path : ℕ → H256Le) (node : ℕ → RichBlockHeader) (a : ℕ)
    (fork main : BlockChain) (s' : BtcRelay) : Prop where
  moved : Moved s fork.chainId fork.maxHeight a path node s'
  isSome : ∀ c, (s'.chainsIndex c).isSome = (s.chainsIndex c).isSome
  mainChain : s'.chainsIndex mainChainId = some { main with maxHeight := fork.maxHeight }
  forkChain : s'.chainsIndex fork.chainId =
    some { main with chainId := fork.chainId, startHeight := a + 1 }
  others : ∀ c chain, c ≠ mainChainId → c ≠ fork.chainId → s.chainsIndex c = some chain →
    ∃ start, s'.chainsIndex c = some { chain with startHeight := start } ∧
      ((∃ h, Leaves node a fork.maxHeight c h ∧ start = h + 1) ∨
        ((∀ h, ¬Leaves node a fork.maxHeight c h) ∧ start = chain.startHeight))
  start : s'.startBlockHeight = s.startBlockHeight
  counter : s'.chainCounter = s.chainCounter

/-- A path that ends in another chain leaves the one it is in. -/
theorem Path.exists_leaves {H : ℕ} (hp : Path s path node a H) (ha : a ≤ t) (hH : t ≤ H)
    (hfork : (node t).chainId ≠ mainChainId) (hend : (node H).chainId ≠ (node t).chainId) :
    ∃ h, t ≤ h ∧ Leaves node a H (node t).chainId h := by
  obtain ⟨d, hd⟩ : ∃ d, t + d = H := ⟨H - t, by omega⟩
  induction d generalizing t with
  | zero =>
    obtain rfl : t = H := hd
    exact absurd rfl hend
  | succ d ih =>
    by_cases hsame : (node (t + 1)).chainId = (node t).chainId
    · obtain ⟨h, hle, hleaves⟩ := ih (by omega : a ≤ t + 1) (by omega) (hsame ▸ hfork)
        (hsame ▸ hend) (by omega)
      exact ⟨h, by omega, hsame ▸ hleaves⟩
    · exact ⟨t, le_rfl, hfork, ha, by omega, rfl, hsame⟩

/-- Only the chain that is there can have the height. -/
theorem exists_some_eq : (∃ own, some chain = some own ∧ own.startHeight ≤ t ∧ t ≤ own.maxHeight) ↔
    chain.startHeight ≤ t ∧ t ≤ chain.maxHeight := by
  simp only [Option.some.injEq, exists_eq_left']

namespace Swapped

variable (h : Swapped s path node a fork main s') (ho : Overtakes s path node a fork main)
  (hs : Linked s)
include h ho hs

/-- What is left of a chain are its blocks off the path. -/
theorem others_iff (hc : c ≠ mainChainId) (hcf : c ≠ fork.chainId)
    (hchain : s.chainsIndex c = some chain) :
    ∃ start, s'.chainsIndex c = some { chain with startHeight := start } ∧
      start ≤ chain.maxHeight ∧
      (∀ t, start ≤ t ↔ chain.startHeight ≤ t ∧
        ¬(a < t ∧ t ≤ fork.maxHeight ∧ (node t).chainId = c)) := by
  have hrange := (hs.index c chain hchain).2
  obtain ⟨start, hstart, ⟨u, hleaves, rfl⟩ | ⟨hnone, rfl⟩⟩ := h.others c chain hc hcf hchain
  · obtain ⟨-, hau, huH, hu, hnext⟩ := hleaves
    have hle : chain.startHeight ≤ u := by
      obtain ⟨own, hown, hlow, -⟩ := hs.chain_of (ho.way.stored u hau huH.le)
      rw [hu, hchain] at hown
      rw [ho.way.height u hau huH.le] at hlow
      exact Option.some.inj hown ▸ hlow
    have hmax : u < chain.maxHeight := by
      rcases ho.way.joins u hau huH with hsame | ⟨-, own, hown, hlt⟩
      · exact absurd (hsame.symm.trans hu) hnext
      · rw [hu, hchain] at hown
        rw [ho.way.height u hau huH.le] at hlt
        exact Option.some.inj hown ▸ hlt
    refine ⟨u + 1, hstart, hmax, fun t => ⟨fun ht => ⟨by omega, ?_⟩, fun ⟨ht, hoff⟩ => ?_⟩⟩
    · rintro ⟨hat, htH, hsame⟩
      have hback := ho.way.between hs hau htH (hu.trans hsame.symm) (Nat.le_succ u) ht
      exact hnext (hback.trans hsame)
    · by_contra hlt
      by_cases hat : a < t
      · have hin := ho.way.within hs hau huH.le (hu ▸ hchain) ht hat.le (by omega)
        exact hoff ⟨hat, by omega, hin.trans hu⟩
      · have hgt := ho.start_gt hs huH.le hau (hu ▸ hc) (hu ▸ hchain)
        omega
  · refine ⟨chain.startHeight, hstart, hrange, fun t => ⟨fun ht => ⟨ht, ?_⟩, fun ht => ht.1⟩⟩
    rintro ⟨hat, htH, rfl⟩
    obtain ⟨u, -, hleaves⟩ := ho.way.exists_leaves hat.le htH hc (ho.tip ▸ hcf.symm)
    exact hnone u hleaves

omit ho hs in
/-- Of the headers only the chain ids change. -/
theorem headers_apply (hb : s.blockHeaders x = some b) : s'.blockHeaders x =
    some { b with chainId := movedChain fork.chainId fork.maxHeight a path x b } := by
  rw [h.moved.headers, hb]
  rfl

/-- A block that is not moved, off the main chain, is on top of its parent. -/
theorem joins_kept (hb : s.blockHeaders x = some b) (hp : s.blockHeaders y = some p)
    (hheight : p.blockHeight + 1 = b.blockHeight) (hmain : b.chainId ≠ mainChainId)
    (hfork : b.chainId ≠ fork.chainId)
    (hoff : a < b.blockHeight → b.blockHeight ≤ fork.maxHeight →
      (node b.blockHeight).chainId ≠ b.chainId) (hjoin : s.Joins p b) :
    s'.Joins { p with chainId := movedChain fork.chainId fork.maxHeight a path y p } b := by
  obtain ⟨own, hown, hlow, -⟩ := hs.chain_of hb
  obtain ⟨start, hstart, -, hiff⟩ := h.others_iff ho hs hmain hfork hown
  have hle : start ≤ b.blockHeight :=
    (hiff _).mpr ⟨hlow, fun ⟨hat, htH, hsame⟩ => hoff hat htH hsame⟩
  have hfirst : ¬start ≤ p.blockHeight →
      ∃ chain, s'.chainsIndex b.chainId = some chain ∧ b.blockHeight = chain.startHeight :=
    fun hgt => ⟨_, hstart, by dsimp only; omega⟩
  have hlt := ho.lt
  rcases hjoin with hsame | ⟨⟨chain, hchain, heq⟩, other, hother, hmax⟩
  · cases ho.fate hs hp with
    | joined hat htH hy hc =>
      have hon : (node p.blockHeight).chainId = b.chainId := by
        rw [ho.node_eq hp hat.le htH hy, hsame]
      refine .inr ⟨hfirst fun hge => ((hiff _).mp hge).2 ⟨hat, htH, hon⟩,
        { main with maxHeight := fork.maxHeight }, hc ▸ h.mainChain,
        htH.lt_of_ne fun htip => ?_⟩
      rw [htip, ho.tip] at hon
      exact hfork hon.symm
    | displaced hat hpmain hc => exact absurd (hsame.symm.trans hpmain) hmain
    | kept hc => exact .inl (hc.trans hsame)
  · obtain rfl : chain = own := Option.some.inj (hchain.symm.trans hown)
    refine .inr ⟨hfirst fun hge => ?_, ?_⟩
    · have hin := ((hiff _).mp hge).1
      omega
    · cases ho.fate hs hp with
      | joined hat htH hy hc =>
        refine ⟨{ main with maxHeight := fork.maxHeight }, hc ▸ h.mainChain,
          htH.lt_of_ne fun htip => ?_⟩
        rw [← ho.node_eq hp hat.le htH hy, htip, ho.tip, ho.forkChain] at hother
        rw [← Option.some.inj hother] at hmax
        omega
      | displaced hat hpmain hc =>
        rw [hpmain, ho.mainChain] at hother
        exact ⟨_, hc ▸ h.forkChain, Option.some.inj hother ▸ hmax⟩
      | kept hc hpmain hpfork =>
        by_cases hmain' : p.chainId = mainChainId
        · rw [hmain', ho.mainChain] at hother
          obtain rfl := Option.some.inj hother
          refine ⟨_, (hc.trans hmain') ▸ h.mainChain, ?_⟩
          dsimp only
          omega
        · obtain ⟨start', hstart', -⟩ := h.others_iff ho hs hmain' hpfork hother
          exact ⟨{ other with startHeight := start' }, hc ▸ hstart', hmax⟩

/-- A block on top of its parent stays so. -/
theorem joins (hb : s.blockHeaders x = some b) (hp : s.blockHeaders y = some p)
    (hlink : b.blockHeader.hashPrevBlock = y) (hheight : p.blockHeight + 1 = b.blockHeight)
    (hfirst : ¬s.IsFirst b) (hjoin : s.Joins p b) :
    s'.Joins { p with chainId := movedChain fork.chainId fork.maxHeight a path y p }
      { b with chainId := movedChain fork.chainId fork.maxHeight a path x b } := by
  have hlt := ho.lt
  have hbase := ho.base_lt
  have hparent : b.chainId = mainChainId → p.chainId = mainChainId := by
    intro hmain
    obtain ⟨own, hown, hlow, -⟩ := hs.chain_of hb
    rw [hmain] at hown
    have hne : own.startHeight ≠ b.blockHeight :=
      fun heq => hfirst ⟨hmain, heq ▸ hs.main own hown⟩
    obtain ⟨q, hq, -, hqchain⟩ := hs.parent_of_lt hb (hmain ▸ hown) (hlow.lt_of_ne hne)
    rw [hlink, hp] at hq
    exact Option.some.inj hq ▸ hqchain.trans hmain
  cases ho.fate hs hb with
  | joined hlow hhigh hx hc =>
    exact .inl ((ho.movedChain_parent hb hp hlink hheight hlow hhigh hx).trans hc.symm)
  | displaced hlow hmain hc =>
    cases ho.fate hs hp with
    | joined hat htH hy _ =>
      refine absurd ?_ (ho.way.fork _ hat htH)
      rw [ho.node_eq hp hat.le htH hy, hparent hmain]
    | displaced _ _ hcp => exact .inl (hcp.trans hc.symm)
    | kept hcp hpmain =>
      have hpa := hpmain (hparent hmain)
      refine .inr ⟨⟨_, hc ▸ h.forkChain, ?_⟩, _, (hcp.trans (hparent hmain)) ▸ h.mainChain, ?_⟩
      · dsimp only
        omega
      · dsimp only
        omega
  | kept hc hmain hfork hoff =>
    rw [hc]
    by_cases hbmain : b.chainId = mainChainId
    · refine .inl ?_
      have hba := hmain hbmain
      rw [movedChain, if_neg (by omega)]
      exact (hparent hbmain).trans hbmain.symm
    · exact h.joins_kept ho hs hb hp hheight hbmain hfork hoff hjoin

private theorem hashes_isSome (c t : ℕ) : (s'.chainsHashes c t).isSome = true ↔
    ∃ chain, s'.chainsIndex c = some chain ∧ chain.startHeight ≤ t ∧ t ≤ chain.maxHeight := by
  have hbase := ho.base_lt
  have hstart := ho.start_le hs
  have hlt := ho.lt
  have hmain : (s.chainsHashes mainChainId t).isSome = true ↔
      main.startHeight ≤ t ∧ t ≤ main.maxHeight := by
    rw [hs.entries, ho.mainChain, exists_some_eq]
  rw [h.moved.hashes, movedHash]
  by_cases hc : c = mainChainId
  · rw [hc, h.mainChain, exists_some_eq, if_pos rfl]
    dsimp only
    by_cases hin : a < t ∧ t ≤ fork.maxHeight
    · rw [if_pos hin]
      exact ⟨fun _ => by omega, fun _ => rfl⟩
    · rw [if_neg hin, hmain]
      omega
  rw [if_neg hc]
  by_cases hcf : c = fork.chainId
  · rw [hcf, h.forkChain, exists_some_eq, if_pos rfl]
    dsimp only
    by_cases hin : a < t ∧ t ≤ fork.maxHeight
    · rw [if_pos hin, hmain]
      omega
    · rw [if_neg hin]
      constructor
      · intro hsome
        obtain ⟨x, hx⟩ := Option.isSome_iff_exists.mp hsome
        obtain ⟨b, hb, hbc, rfl⟩ := (hs.named _ _ _).mp hx
        obtain ⟨hlow, hhigh, -⟩ := ho.fork_on_path hs hb hbc
        exact absurd ⟨hlow, hhigh⟩ hin
      · omega
  rw [if_neg hcf]
  have hiff := hs.entries c t
  cases hchain : s.chainsIndex c with
  | none =>
    have hnone : s'.chainsIndex c = none := by
      rw [← Option.not_isSome_iff_eq_none, h.isSome, hchain]
      exact Bool.false_ne_true
    have hempty : ¬(s.chainsHashes c t).isSome = true := by
      rw [hiff, hchain]
      rintro ⟨_, hsome, -⟩
      cases hsome
    rw [hnone]
    constructor
    · intro hsome
      split at hsome
      · split at hsome
        · cases hsome
        · exact absurd hsome hempty
      · exact absurd hsome hempty
    · rintro ⟨_, hsome, -⟩
      cases hsome
  | some chain =>
    obtain ⟨start, hstart', -, hmem⟩ := h.others_iff ho hs hc hcf hchain
    rw [hchain, exists_some_eq] at hiff
    rw [hstart', exists_some_eq]
    dsimp only
    rw [hmem]
    by_cases hin : a < t ∧ t ≤ fork.maxHeight
    · rw [if_pos hin]
      by_cases hcn : c = (node t).chainId
      · rw [if_pos hcn]
        exact ⟨fun hsome => absurd hsome Bool.false_ne_true,
          fun hand => absurd ⟨hin.1, hin.2, hcn.symm⟩ hand.1.2⟩
      · rw [if_neg hcn, hiff]
        exact ⟨fun hand => ⟨⟨hand.1, fun hon => hcn hon.2.2.symm⟩, hand.2⟩,
          fun hand => ⟨hand.1.1, hand.2⟩⟩
    · rw [if_neg hin, hiff]
      exact ⟨fun hand => ⟨⟨hand.1, fun hon => hin ⟨hon.1, hon.2.1⟩⟩, hand.2⟩,
        fun hand => ⟨hand.1.1, hand.2⟩⟩

omit ho hs in
/-- A block after the move comes from one before. -/
theorem exists_of_headers (hb : s'.blockHeaders x = some b) :
    ∃ b₀, s.blockHeaders x = some b₀ ∧
      b = { b₀ with chainId := movedChain fork.chainId fork.maxHeight a path x b₀ } := by
  rw [h.moved.headers] at hb
  obtain ⟨b₀, hb₀, rfl⟩ := Option.map_eq_some_iff.mp hb
  exact ⟨b₀, hb₀, rfl⟩

/-- A reorganisation keeps the structure. -/
theorem linked : Linked s' where
  index c chain hchain := by
    have hbase := ho.base_lt
    have hstart := ho.start_le hs
    have hlt := ho.lt
    by_cases hc : c = mainChainId
    · rw [hc, h.mainChain] at hchain
      obtain rfl := Option.some.inj hchain
      refine ⟨(hs.index _ _ ho.mainChain).1.trans hc.symm, ?_⟩
      dsimp only
      omega
    by_cases hcf : c = fork.chainId
    · rw [hcf, h.forkChain] at hchain
      obtain rfl := Option.some.inj hchain
      exact ⟨hcf.symm, hbase⟩
    obtain ⟨old, hold⟩ : ∃ old, s.chainsIndex c = some old := by
      rw [← Option.isSome_iff_exists, ← h.isSome, hchain]
      rfl
    obtain ⟨start, hstart', hmax, -⟩ := h.others_iff ho hs hc hcf hold
    obtain rfl := Option.some.inj (hchain.symm.trans hstart')
    exact ⟨(hs.index _ _ hold).1, hmax⟩
  ids c := by
    rw [h.isSome, h.counter]
    exact hs.ids c
  entries := h.hashes_isSome ho hs
  named c t x := by
    rw [h.moved.hashes, ho.movedHash_eq_some_iff hs]
    constructor
    · rintro ⟨b, hb, hchain, hheight⟩
      exact ⟨_, h.headers_apply hb, hchain, hheight⟩
    · rintro ⟨b, hb, hchain, hheight⟩
      obtain ⟨b₀, hb₀, rfl⟩ := h.exists_of_headers hb
      exact ⟨b₀, hb₀, hchain, hheight⟩
  hash x b hb := by
    obtain ⟨b₀, hb₀, rfl⟩ := h.exists_of_headers hb
    exact hs.hash x b₀ hb₀
  parent x b hb := by
    obtain ⟨b₀, hb₀, rfl⟩ := h.exists_of_headers hb
    by_cases hfirst : s.IsFirst b₀
    · refine .inl ⟨?_, h.start.trans hfirst.2⟩
      have hheight := hs.main _ ho.mainChain
      have hstart := ho.start_le hs
      rw [hfirst.2] at hheight
      have hle := Option.some.inj hheight
      dsimp only
      rw [movedChain, if_neg (by omega)]
      exact hfirst.1
    · obtain ⟨p, hp, hheight, hjoin⟩ := (hs.parent x b₀ hb₀).resolve_left hfirst
      exact .inr ⟨_, h.headers_apply hp, hheight,
        h.joins ho hs hb₀ hp rfl hheight hfirst hjoin⟩
  main chain hchain := by
    rw [h.mainChain] at hchain
    obtain rfl := Option.some.inj hchain
    exact h.start.trans (hs.main main ho.mainChain)

end Swapped

end Interbtc.BtcRelay
