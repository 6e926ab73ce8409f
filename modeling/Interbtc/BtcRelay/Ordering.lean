import Interbtc.BtcRelay.Steps

/-!
# The order of the queue

The queue lists every chain once, the main chain first. The forks after it are sorted by
height, as long as no fork is extended past two others of its own height.
-/

namespace Interbtc.BtcRelay

open Core Core.PositionMap

variable {s s' s₁ : BtcRelay} {u : Unit} {order pre post front mid t₁ t₂ : List ℕ}
  {header : BlockHeader} {height c d f n : ℕ} {prev b : RichBlockHeader} {x : H256Le}
  {chain prevChain fork main : BlockChain} {a : ℕ} {path : ℕ → H256Le}
  {node : ℕ → RichBlockHeader}

/-- The queue lists every chain once, the main chain first. -/
structure Arranged (s : BtcRelay) (order : List ℕ) : Prop where
  lists : s.chains.Lists order
  nodup : order.Nodup
  ids : ∀ c, c ∈ order ↔ c < s.chainCounter
  main : ∀ c ∈ order.head?, c = mainChainId
  bound : s.chainCounter ≤ maxU32

/-- The forks are sorted by height, the highest first. -/
def Sorted (s : BtcRelay) (order : List ℕ) : Prop :=
  order.tail.Pairwise fun c d => s.heightOf d ≤ s.heightOf c

private theorem Arranged.length_le (ha : Arranged s order) : order.length ≤ maxU32 := by
  have hsub : order.toFinset ⊆ Finset.range s.chainCounter := by
    intro c hc
    rw [Finset.mem_range]
    exact (ha.ids c).mp (List.mem_toFinset.mp hc)
  have hcard := Finset.card_le_card hsub
  rw [List.toFinset_card_of_nodup ha.nodup, Finset.card_range] at hcard
  exact hcard.trans ha.bound

/-- The queue is empty until there is a chain. -/
theorem Arranged.cons (ha : Arranged s order) (hpos : 0 < s.chainCounter) :
    ∃ tail, order = mainChainId :: tail := by
  cases order with
  | nil =>
    have hmem := (ha.ids 0).mpr hpos
    cases hmem
  | cons c tail =>
    obtain rfl := ha.main c rfl
    exact ⟨tail, rfl⟩

/-- Another order of the same chains. -/
theorem Arranged.perm {order' : List ℕ} (ha : Arranged s order) (hl : s'.chains.Lists order')
    (hperm : order.Perm order') (hcounter : s'.chainCounter = s.chainCounter)
    (hmain : ∀ c ∈ order'.head?, c = mainChainId) : Arranged s' order' where
  lists := hl
  nodup := hperm.nodup_iff.mp ha.nodup
  ids c := by rw [← hperm.mem_iff, hcounter, ha.ids]
  main := hmain
  bound := hcounter ▸ ha.bound

/-! ## Heights -/

private theorem Adds.heightOf (h : Adds s x b chain s') (c : ℕ) :
    s'.heightOf c = if c = b.chainId then chain.maxHeight else s.heightOf c := by
  rw [BtcRelay.heightOf, h.index_apply]
  split
  · rfl
  · rfl

/-- A fork and the main chain exchange their heights. -/
theorem Swapped.heightOf (h : Swapped s path node a fork main s') (c : ℕ) : s'.heightOf c = if c =
    mainChainId then fork.maxHeight
      else if c = fork.chainId then main.maxHeight else s.heightOf c := by
  by_cases hc : c = mainChainId
  · rw [if_pos hc, hc, heightOf_of_some h.mainChain]
  by_cases hcf : c = fork.chainId
  · rw [if_neg hc, if_pos hcf, hcf, heightOf_of_some h.forkChain]
  rw [if_neg hc, if_neg hcf]
  cases hchain : s.chainsIndex c with
  | none =>
    have hnone : s'.chainsIndex c = none := by
      rw [← Option.not_isSome_iff_eq_none, h.isSome, hchain]
      exact Bool.false_ne_true
    rw [BtcRelay.heightOf, BtcRelay.heightOf, hchain, hnone]
  | some chain =>
    obtain ⟨start, hstart, -⟩ := h.others c chain hc hcf hchain
    rw [heightOf_of_some hchain, heightOf_of_some hstart]

/-- A new fork has the height of its block. -/
theorem Creates.heightOf (h : Creates s header height order s') (c : ℕ) :
    s'.heightOf c = if c = s.chainCounter then height else s.heightOf c :=
  h.adds.heightOf c

/-- An extended chain has the height of its new block. -/
theorem Extends.heightOf (h : Extends s header height chain s') (c : ℕ) :
    s'.heightOf c = if c = chain.chainId then height else s.heightOf c :=
  h.adds.heightOf c

/-- Chains keep their order while their heights stay. -/
theorem pairwise_heights {l : List ℕ} (h : l.Pairwise fun c d => s.heightOf d ≤ s.heightOf c)
    (hsame : ∀ c ∈ l, s'.heightOf c = s.heightOf c) :
    l.Pairwise fun c d => s'.heightOf d ≤ s'.heightOf c := by
  refine h.imp_of_mem fun {c d} hc hd hle => ?_
  rw [hsame c hc, hsame d hd]
  exact hle

/-! ## A new chain -/

/-- A new fork can be put at its place. -/
theorem Creates.arranged (h : Creates s header height order s') (ha : Arranged s order) :
    ∃ order', Arranged s' order' ∧ (Sorted s order → Sorted s' order') := by
  have hnew : s.chainCounter ∉ order := fun hmem => Nat.lt_irrefl _ ((ha.ids _).mp hmem)
  have hids : ∀ {order' : List ℕ}, (s.chainCounter :: order).Perm order' → ∀ c,
      c ∈ order' ↔ c < s'.chainCounter := by
    intro order' hperm c
    rw [← hperm.mem_iff, List.mem_cons, ha.ids, h.counter]
    omega
  have hbound : s'.chainCounter ≤ maxU32 := h.counter ▸ h.bound
  rcases h.queue with ⟨rfl, hl⟩ | ⟨main, t₁, t₂, rfl, hl, hhigh, hlow⟩
  · refine ⟨[s.chainCounter], ⟨hl, List.nodup_singleton _, hids (.refl _), ?_, hbound⟩,
      fun _ => List.Pairwise.nil⟩
    intro c hc
    obtain rfl := Option.some.inj hc
    by_contra hne
    have hmem := (ha.ids 0).mpr (Nat.pos_of_ne_zero hne)
    cases hmem
  · have hperm : (s.chainCounter :: (main :: (t₁ ++ t₂))).Perm
        (main :: (t₁ ++ s.chainCounter :: t₂)) :=
      (List.Perm.swap _ _ _).trans (List.Perm.cons _ List.perm_middle.symm)
    refine ⟨_, ⟨hl, ?_, hids hperm, ha.main, hbound⟩, fun hsorted => ?_⟩
    · rw [← hperm.nodup_iff, List.nodup_cons]
      exact ⟨hnew, ha.nodup⟩
    · have hsame : ∀ c ∈ t₁ ++ t₂, s'.heightOf c = s.heightOf c := by
        intro c hc
        rw [h.heightOf, if_neg]
        rintro rfl
        exact hnew (List.mem_cons_of_mem _ hc)
      have hheight : s'.heightOf s.chainCounter = height := by
        rw [h.heightOf, if_pos rfl]
      refine pairwise_insert (pairwise_heights hsorted hsame) ?_ fun c hc => ?_
      · rw [hheight]
        exact hhigh
      · rw [hheight]
        exact (hlow c hc).le

/-! ## An extended fork -/

/-- A fork that was extended has moved in the queue, or it is the main chain now. -/
inductive Reorganized (s : BtcRelay) (fork : BlockChain) (pre post : List ℕ) (s' : BtcRelay) : Prop
  | moved (front mid : List ℕ) (hpre : pre = front ++ mid)
      (hascend : (mid.map s.heightOf ++ [fork.maxHeight]).Pairwise (· < ·))
      (hqueue : Requeued s s' (mainChainId :: (front ++ fork.chainId :: (mid ++ post))))
      (hstop : (∃ c ∈ front.getLast?, s.frontHeight mid fork.maxHeight ≤ s.heightOf c) ∨
        front = [] ∧ ¬(s.heightOf mainChainId < s.frontHeight mid fork.maxHeight ∧
          min (s.heightOf mainChainId + s.stableBitcoinConfirmations) maxU32 ≤
            s.frontHeight mid fork.maxHeight))
  | swapped (main : BlockChain) (path : ℕ → H256Le) (node : ℕ → RichBlockHeader) (a : ℕ)
      (s₁ s₂ : BtcRelay) (p₁ p₂ : List ℕ)
      (hqueue : Requeued s s₁ (mainChainId :: fork.chainId :: (pre ++ post)))
      (hover : Overtakes s₁ path node a fork main) (hswap : Swapped s₁ path node a fork main s₂)
      (haside : s₂.aside = (s₁.withBest (path fork.maxHeight) fork.maxHeight).aside)
      (hsplit : pre ++ post = p₁ ++ p₂)
      (hresort : Requeued s₂ s' (mainChainId :: (p₁ ++ fork.chainId :: p₂)))
      (hhigh : ∀ c ∈ p₁, main.maxHeight < s₂.heightOf c)
      (hlow : ∀ c ∈ p₂.head?, s₂.heightOf c ≤ main.maxHeight)

/-- The order of the chains does not matter for their links. -/
theorem Linked.requeued (hs : Linked s) (h : Requeued s s' order) : Linked s' := by
  rw [h.1]
  exact ⟨hs.index, hs.ids, hs.entries, hs.named, hs.hash, hs.parent, hs.main⟩

/-- The front height is at most the height of the fork. -/
theorem frontHeight_le (h : (mid.map s.heightOf ++ [height]).Pairwise (· < ·)) :
    s.frontHeight mid height ≤ height := by
  cases mid with
  | nil => exact le_rfl
  | cons c mid =>
    exact (List.rel_of_pairwise_cons h (List.mem_append_right _ (List.mem_singleton_self _))).le

/-- What a reorganisation does to a queue around the fork. -/
theorem run_reorganizeChains (hs : Linked s)
    (ha : Arranged s (mainChainId :: (pre ++ fork.chainId :: post)))
    (hfork : s.chainsIndex fork.chainId = some fork)
    (h : (reorganizeChains fork).run s = .ok u s') : Reorganized s fork pre post s' := by
  have hnodup := List.nodup_cons.mp ha.nodup
  have hmain : mainChainId ∉ pre := fun hmem => hnodup.1 (List.mem_append_left _ hmem)
  have hne : fork.chainId ≠ mainChainId := by
    intro heq
    rw [heq] at hnodup
    exact hnodup.1 (List.mem_append_right _ (List.mem_cons_self))
  simp only [reorganizeChains, Call.run_bind_eq_ok] at h
  obtain ⟨position, _, hposition, h⟩ := h
  have hl : s.chains.Lists ((mainChainId :: pre) ++ fork.chainId :: post) := ha.lists
  obtain ⟨rfl, rfl⟩ := run_getChainPositionFromChainId hl ha.nodup hposition
  obtain ⟨front, mid, s₁, rfl, hqueue, hascend, hstops⟩ :=
    run_reorganizeFrom rfl (Nat.le_mul_of_pos_left _ Nat.zero_lt_two) hmain ha.lists h
  have hfront := frontHeight_le hascend
  cases hstops with
  | behind c hlast hle hend =>
    subst hend
    exact .moved front mid rfl hascend hqueue (.inl ⟨c, hlast, hqueue.heightOf c ▸ hle⟩)
  | waits hnil hshort hend =>
    subst hend
    rw [hqueue.heightOf, congrArg BtcRelay.stableBitcoinConfirmations hqueue.1] at hshort
    exact .moved front mid rfl hascend hqueue (.inr ⟨hnil, hshort⟩)
  | overtakes hnil hlt hahead r hswap =>
    subst hnil
    obtain ⟨main, hmainChain⟩ : ∃ main, s₁.chainsIndex mainChainId = some main := by
      have hmem := (ha.ids mainChainId).mp List.mem_cons_self
      rw [← hs.ids, Option.isSome_iff_exists, ← hqueue.index] at hmem
      exact hmem
    rw [heightOf_of_some hmainChain] at hlt
    have hperm : (mainChainId :: ([] ++ mid ++ fork.chainId :: post)).Perm
        ((mainChainId :: []) ++ fork.chainId :: (mid ++ post)) :=
      List.Perm.cons _ List.perm_middle
    have hnodup' := hperm.nodup_iff.mp ha.nodup
    obtain ⟨path, node, a, s₂, p₁, p₂, hover, hswapped, haside, hsplit, hresort, hhigh, hlow⟩ :=
      run_swapMainBlockchain (hs.requeued hqueue) (hqueue.index ▸ hfork) hmainChain hne (by omega)
        hqueue.2 hnodup' hswap
    refine .swapped main path node a s₁ s₂ p₁ p₂ hqueue hover hswapped haside hsplit hresort hhigh
      (hlow ?_)
    have hlength := ha.length_le
    rw [hperm.length_eq] at hlength
    simp only [List.length_append, List.length_cons, List.length_nil] at hlength ⊢
    omega

/-- The fields that the blocks and chains do not concern. -/
theorem of_aside (h : s'.aside = s.aside) : s'.chains = s.chains ∧
    s'.chainCounter = s.chainCounter ∧ s'.bestBlock = s.bestBlock ∧
    s'.bestBlockHeight = s.bestBlockHeight ∧ SameRest s s' := by
  simp only [aside, BtcRelay.mk.injEq] at h
  obtain ⟨-, hchains, -, -, hbest, hheight, hstart, hcounter, hk, hp, hd, ht⟩ := h
  exact ⟨hchains, hcounter, hbest, hheight, hstart, hk, hp, hd, ht⟩

private theorem Requeued.counter (h : Requeued s s' order) : s'.chainCounter = s.chainCounter := by
  rw [h.1]

namespace Reorganized

variable (h : Reorganized s fork pre post s')
include h

private theorem counter : s'.chainCounter = s.chainCounter := by
  cases h with
  | moved front mid hpre hascend hqueue => exact hqueue.counter
  | swapped main path node a s₁ s₂ p₁ p₂ hqueue hover hswap haside hsplit hresort =>
    rw [hresort.counter, hswap.counter, hqueue.counter]

/-- A reorganisation leaves the parameters alone. -/
theorem rest : SameRest s s' := by
  cases h with
  | moved front mid hpre hascend hqueue => exact hqueue.rest
  | swapped main path node a s₁ s₂ p₁ p₂ hqueue hover hswap haside hsplit hresort =>
    obtain ⟨-, -, -, -, hrest⟩ := of_aside haside
    exact (hqueue.rest.trans ⟨hrest.start, hrest.bitcoinConfirmations,
      hrest.parachainConfirmations, hrest.difficulty, hrest.time⟩).trans hresort.rest

/-- The queue lists every chain once, and it is sorted if the fork passed at most one chain. -/
theorem arranged (ha : Arranged s (mainChainId :: (pre ++ fork.chainId :: post)))
    (hfork : s.heightOf fork.chainId = fork.maxHeight) :
    ∃ order, Arranged s' order ∧ ((pre ++ post).Pairwise (fun c d => s.heightOf d ≤ s.heightOf c) →
      (∀ c ∈ post.head?, s.heightOf c ≤ fork.maxHeight) →
      pre.countP (fun c => s.heightOf c < fork.maxHeight) ≤ 1 → Sorted s' order) := by
  have hcounter := h.counter
  have hnodup := ha.nodup
  cases h with
  | moved front mid hpre hascend hqueue hstop =>
    subst hpre
    have hperm : (front ++ mid ++ fork.chainId :: post).Perm
        (front ++ fork.chainId :: (mid ++ post)) := by
      rw [List.append_assoc]
      exact List.Perm.append_left _ List.perm_middle
    refine ⟨_, ha.perm hqueue.2 (List.Perm.cons _ hperm) hcounter ha.main,
      fun hsorted hpost hties => ?_⟩
    have hlow : ∀ c ∈ mid, s.heightOf c < fork.maxHeight := fun c hc =>
      (List.pairwise_append.mp hascend).2.2 _ (List.mem_map_of_mem hc) _ (List.mem_singleton_self _)
    have hhigh : ∀ c ∈ front, fork.maxHeight ≤ s.heightOf c := by
      cases mid with
      | nil =>
        rcases hstop with ⟨c, hlast, hle⟩ | ⟨rfl, -⟩
        · obtain ⟨front, rfl⟩ := List.getLast?_eq_some_iff.mp hlast
          intro d hd
          rcases List.mem_append.mp hd with hd | hd
          · rw [List.append_nil, List.append_assoc] at hsorted
            exact hle.trans ((List.pairwise_append.mp hsorted).2.2 d hd c List.mem_cons_self)
          · exact List.mem_singleton.mp hd ▸ hle
        · exact fun _ hc => nomatch hc
      | cons d mid =>
        have hd : 0 < (d :: mid).countP fun c => s.heightOf c < fork.maxHeight :=
          List.countP_pos_iff.mpr ⟨d, List.mem_cons_self, decide_eq_true (hlow d List.mem_cons_self)⟩
        rw [List.countP_append] at hties
        have hzero : front.countP (fun c => s.heightOf c < fork.maxHeight) = 0 := by omega
        intro c hc
        have hnot := List.countP_eq_zero.mp hzero c hc
        rw [decide_eq_true_eq] at hnot
        omega
    rw [List.append_assoc] at hsorted
    refine pairwise_insert (pairwise_heights hsorted fun c _ => hqueue.heightOf c) ?_ ?_
    · intro c hc
      rw [hqueue.heightOf, hqueue.heightOf, hfork]
      exact hhigh c hc
    · intro c hc
      rw [hqueue.heightOf, hqueue.heightOf, hfork]
      cases mid with
      | nil => exact hpost c hc
      | cons d mid =>
        obtain rfl := Option.some.inj hc
        exact (hlow d List.mem_cons_self).le
  | swapped main path node a s₁ s₂ p₁ p₂ hqueue hover hswap haside hsplit hresort hhigh hlow =>
    have hperm : (pre ++ fork.chainId :: post).Perm (p₁ ++ fork.chainId :: p₂) := by
      refine List.perm_middle.trans (.trans ?_ List.perm_middle.symm)
      rw [hsplit]
    refine ⟨_, ha.perm hresort.2 (List.Perm.cons _ hperm) hcounter ha.main,
      fun hsorted hpost hties => ?_⟩
    have hnotin : fork.chainId ∉ p₁ ++ p₂ ∧ mainChainId ∉ p₁ ++ p₂ := by
      rw [(List.Perm.cons mainChainId (hperm.trans List.perm_middle)).nodup_iff, List.nodup_cons,
        List.nodup_cons] at hnodup
      exact ⟨hnodup.2.1, fun hmem => hnodup.1 (List.mem_cons_of_mem _ hmem)⟩
    have hsame : ∀ c ∈ p₁ ++ p₂, s'.heightOf c = s.heightOf c := by
      intro c hc
      rw [hresort.heightOf, hswap.heightOf, if_neg, if_neg, hqueue.heightOf]
      · rintro rfl
        exact hnotin.1 hc
      · rintro rfl
        exact hnotin.2 hc
    have hforkHeight : s'.heightOf fork.chainId = main.maxHeight := by
      rw [hresort.heightOf, heightOf_of_some hswap.forkChain]
    rw [hsplit] at hsorted
    refine pairwise_insert (pairwise_heights hsorted hsame) (fun c hc => ?_) fun c hc => ?_
    · rw [hforkHeight, hresort.heightOf]
      exact (hhigh c hc).le
    · rw [hforkHeight, hresort.heightOf]
      exact hlow c hc

end Reorganized

/-! ## Ties -/

/-- The forks in front of a fork that are not higher than it. -/
def ties (s : BtcRelay) (c : ℕ) : ℕ :=
  ((s.chains.sorted.map Prod.snd).takeWhile (· ≠ c)).tail.countP fun d =>
    s.heightOf d ≤ s.heightOf c

/-- The ties of a fork are the chains before it that are not higher. -/
theorem ties_eq (ha : Arranged s (mainChainId :: (pre ++ f :: post))) :
    s.ties f = pre.countP fun d => s.heightOf d ≤ s.heightOf f := by
  have horder : s.chains.sorted.map Prod.snd = mainChainId :: (pre ++ f :: post) := by
    rw [ha.lists.sorted, List.map_map]
    exact List.zipIdx_map_fst 0 _
  have hall : ∀ d ∈ mainChainId :: pre, decide (d ≠ f) = true := by
    intro d hd
    have hnodup := ha.nodup
    rw [← List.cons_append] at hnodup
    have hne := (List.pairwise_append.mp hnodup).2.2 d hd f List.mem_cons_self
    exact decide_eq_true hne
  rw [ties, horder, ← List.cons_append, List.takeWhile_append_of_pos hall,
    List.takeWhile_cons_of_neg (by simp), List.append_nil, List.tail_cons]

/-- The fork that a header extends. -/
def extendedFork (s : BtcRelay) (header : BlockHeader) : Option ℕ :=
  (s.blockHeaders header.hashPrevBlock).bind fun prev =>
    (s.chainsIndex prev.chainId).bind fun chain =>
      if chain.maxHeight = prev.blockHeight ∧ prev.chainId ≠ mainChainId then some prev.chainId
      else none

/-- The forks in front of the one that an operation extends that are not higher than it. -/
def Op.ties (s : BtcRelay) : Op → ℕ
  | .storeBlockHeader header _ => ((s.extendedFork header).map s.ties).getD 0
  | _ => 0

/-- A chain of the queue that is not the main chain. -/
theorem Arranged.split (ha : Arranged s order) (hc : c < s.chainCounter) (hne : c ≠ mainChainId) :
    ∃ pre post, order = mainChainId :: (pre ++ c :: post) := by
  obtain ⟨tail, rfl⟩ := ha.cons (Nat.zero_lt_of_lt hc)
  obtain ⟨pre, post, rfl⟩ := List.append_of_mem
    ((List.mem_cons.mp ((ha.ids c).mpr hc)).resolve_left hne)
  exact ⟨pre, post, rfl⟩

/-- The queue after a fork was extended. -/
theorem Extends.arranged (h : Extends s header height chain s₁) (ha : Arranged s order) :
    Arranged s₁ order where
  lists := h.queue ▸ ha.lists
  nodup := ha.nodup
  ids c := by rw [ha.ids, h.counter]
  main := ha.main
  bound := h.counter ▸ ha.bound

/-- A fork that was extended by one block past at most one other is sorted into the queue. -/
theorem Extends.reorganized (h : Extends s header (chain.maxHeight + 1) chain s₁)
    (ha : Arranged s (mainChainId :: (pre ++ chain.chainId :: post)))
    (hchain : s.chainsIndex chain.chainId = some chain)
    (hmove : Reorganized s₁ { chain with maxHeight := chain.maxHeight + 1 } pre post s') :
    ∃ order, Arranged s' order ∧
      (Sorted s (mainChainId :: (pre ++ chain.chainId :: post)) → s.ties chain.chainId ≤ 1 →
        Sorted s' order) := by
  have hheight := heightOf_of_some hchain
  have hnotin : chain.chainId ∉ pre ++ post :=
    (List.nodup_cons.mp (List.perm_middle.nodup_iff.mp (List.nodup_cons.mp ha.nodup).2)).1
  have hsame : ∀ c ∈ pre ++ post, s₁.heightOf c = s.heightOf c := by
    intro c hc
    rw [h.heightOf, if_neg]
    rintro rfl
    exact hnotin hc
  obtain ⟨order, harranged, hsorted⟩ := hmove.arranged (h.arranged ha) (by
    rw [h.heightOf]
    exact if_pos rfl)
  refine ⟨order, harranged, fun hs hties => hsorted ?_ ?_ ?_⟩
  · exact pairwise_heights (hs.sublist ((List.sublist_cons_self _ _).append_left _)) hsame
  · intro c hc
    have hmem := List.mem_of_mem_head? hc
    have hle := (List.pairwise_cons.mp (List.pairwise_append.mp hs).2.1).1 c hmem
    rw [hsame c (List.mem_append_right _ hmem)]
    dsimp only
    omega
  · rw [ties_eq ha] at hties
    refine le_trans (le_of_eq (List.countP_congr fun c hc => ?_)) hties
    rw [hsame c (List.mem_append_left _ hc), hheight, decide_eq_true_eq, decide_eq_true_eq]
    exact Nat.lt_succ_iff

end Interbtc.BtcRelay
