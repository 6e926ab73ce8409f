import Interbtc.BtcRelay.Pallet

/-!
# The queue of chains

The queue lists the chains at consecutive positions. A new chain goes in front of the first
lower one, a fork that was extended moves forward past chains that are lower, and one that
was the main chain moves back past the higher ones.
-/

namespace Interbtc.BtcRelay

open Core Core.PositionMap

variable {s s' s₁ : BtcRelay} {order pre mid post tail : List ℕ} {c f x : ℕ} {u : Unit}
  {chain fork : BlockChain}

/-- The height of a chain. -/
def heightOf (s : BtcRelay) (c : ℕ) : ℕ := ((s.chainsIndex c).map BlockChain.maxHeight).getD 0

/-- The height of a stored chain. -/
theorem heightOf_of_some (h : s.chainsIndex c = some chain) : s.heightOf c = chain.maxHeight := by
  rw [heightOf, h]
  rfl

/-- Only the queue changed, and it lists an order. -/
def Requeued (s s' : BtcRelay) (order : List ℕ) : Prop :=
  s' = { s with chains := s'.chains } ∧ s'.chains.Lists order

private theorem Requeued.refl (h : s.chains.Lists order) : Requeued s s order := ⟨rfl, h⟩

/-- Requeueing changes no height. -/
theorem Requeued.heightOf (h : Requeued s s' order) (c : ℕ) : s'.heightOf c = s.heightOf c := by
  rw [h.1]
  rfl

/-- Requeueing changes no chain. -/
theorem Requeued.index (h : Requeued s s' order) : s'.chainsIndex = s.chainsIndex := by
  rw [h.1]

/-! ## Insertion -/

/-- A chain is read by its id. -/
theorem run_getBlockChainFromId :
    (getBlockChainFromId c).run s = .ok chain s' ↔ s.chainsIndex c = some chain ∧ s' = s := by
  simp only [getBlockChainFromId, Call.run_bind_eq_ok, Call.run_get_eq_ok,
    Call.run_ofOption_eq_ok]
  constructor
  · rintro ⟨_, _, ⟨rfl, rfl⟩, h, rfl⟩
    exact ⟨h, rfl⟩
  · rintro ⟨h, rfl⟩
    exact ⟨s', s', ⟨rfl, rfl⟩, h, rfl⟩

/-- The position of the first chain that is lower. -/
theorem run_lowerPosition {height position i : ℕ}
    (h : (lowerPosition height ((tail.zipIdx i).map Prod.swap) (i + tail.length)).run s =
      .ok position s') :
    s' = s ∧ ∃ t₁ t₂, tail = t₁ ++ t₂ ∧ position = i + t₁.length ∧
      (∀ c ∈ t₁, height ≤ s.heightOf c) ∧ ∀ c ∈ t₂.head?, s.heightOf c < height := by
  induction tail generalizing i with
  | nil =>
    obtain ⟨rfl, rfl⟩ := Call.run_pure_eq_ok.mp h
    exact ⟨rfl, [], [], rfl, rfl, by simp, by simp⟩
  | cons c tail ih =>
    simp only [List.zipIdx_cons, List.map_cons, Prod.swap_prod_mk, lowerPosition,
      Call.run_bind_eq_ok, run_getBlockChainFromId] at h
    obtain ⟨chain, _, ⟨hchain, rfl⟩, h⟩ := h
    have hheight := heightOf_of_some hchain
    by_cases hlow : chain.maxHeight < height
    · rw [if_pos hlow] at h
      obtain ⟨rfl, rfl⟩ := Call.run_pure_eq_ok.mp h
      exact ⟨rfl, [], c :: tail, rfl, rfl, by simp, by simpa [hheight] using hlow⟩
    · rw [if_neg hlow, List.length_cons, show i + (tail.length + 1) = i + 1 + tail.length by omega]
        at h
      obtain ⟨rfl, t₁, t₂, rfl, rfl, hhigh, hhead⟩ := ih h
      refine ⟨rfl, c :: t₁, t₂, rfl, by rw [List.length_cons]; omega, ?_, hhead⟩
      intro d hd
      rcases List.mem_cons.mp hd with rfl | hd
      · omega
      · exact hhigh d hd

/-- An entry moves forward past others. -/
theorem bubbleForward_lists {position count : ℕ} (hpre : pre.length = position)
    (hmid : mid.length = count) (h : s.chains.Lists (pre ++ mid ++ x :: post)) :
    Requeued s (bubbleForward position count s) (pre ++ x :: (mid ++ post)) := by
  induction count generalizing s mid post with
  | zero =>
    rw [List.length_eq_zero_iff] at hmid
    subst hmid
    rw [List.append_nil] at h
    exact ⟨rfl, h⟩
  | succ count ih =>
    obtain ⟨mid, y, rfl⟩ := (List.eq_nil_or_concat' mid).resolve_left fun hnil => by
      rw [hnil] at hmid
      cases hmid
    rw [List.length_append, List.length_singleton, Nat.add_right_cancel_iff] at hmid
    have hlists : (s.swapChain (position + count + 1) (position + count)).chains.Lists
        (pre ++ mid ++ x :: (y :: post)) := by
      have hl : s.chains.Lists ((pre ++ mid) ++ y :: x :: post) := by simpa using h
      have hswap := hl.swap'
      rwa [List.length_append, hpre, hmid] at hswap
    obtain ⟨heq, hl⟩ := ih hmid hlists
    rw [List.append_assoc]
    exact ⟨heq, hl⟩

/-- A new chain goes in front of the first lower one, after the main chain. -/
theorem run_insertSorted (h : (insertSorted chain).run s = .ok u s')
    (hl : s.chains.Lists order) :
    (order = [] ∧ Requeued s s' [chain.chainId]) ∨
      ∃ main t₁ t₂, order = main :: (t₁ ++ t₂) ∧
        Requeued s s' (main :: (t₁ ++ chain.chainId :: t₂)) ∧
        (∀ c ∈ t₁, chain.maxHeight ≤ s.heightOf c) ∧
        ∀ c ∈ t₂.head?, s.heightOf c < chain.maxHeight := by
  simp only [insertSorted, Call.run_bind_eq_ok, Call.run_get_eq_ok, Call.run_modify_eq_ok] at h
  obtain ⟨_, _, ⟨rfl, rfl⟩, position, s₁, hposition, _, _, rfl, rfl⟩ := h
  have hsorted := hl.sorted
  have hlength : s.chains.sorted.length = order.length := by
    rw [hsorted, List.length_map, List.length_zipIdx]
  rw [hlength] at hposition ⊢
  have happ := hl.append chain.chainId
  cases order with
  | nil =>
    refine .inl ⟨rfl, ?_⟩
    rw [hsorted] at hposition
    obtain ⟨rfl, rfl⟩ := Call.run_pure_eq_ok.mp hposition
    exact ⟨rfl, happ⟩
  | cons main tail =>
    rw [hsorted] at hposition
    have hdrop : ((main :: tail).zipIdx.map Prod.swap).drop 1 = (tail.zipIdx 1).map Prod.swap := rfl
    rw [hdrop, List.length_cons, Nat.add_comm] at hposition
    obtain ⟨rfl, t₁, t₂, rfl, rfl, hhigh, hhead⟩ := run_lowerPosition hposition
    refine .inr ⟨main, t₁, t₂, rfl, ?_, hhigh, hhead⟩
    have hcount : (main :: (t₁ ++ t₂)).length - (1 + t₁.length) = t₂.length := by
      rw [List.length_cons, List.length_append]
      omega
    have hnew : (setChain (main :: (t₁ ++ t₂)).length chain.chainId s₁).chains.Lists
        ((main :: t₁) ++ t₂ ++ chain.chainId :: []) := happ
    obtain ⟨heq, hmove⟩ := bubbleForward_lists (List.length_cons.trans (Nat.add_comm _ _)) rfl hnew
    rw [List.append_nil] at hmove
    rw [hcount]
    exact ⟨heq, hmove⟩

/-! ## Moves -/

private theorem getElem?_length_append (pre post : List ℕ) (x : ℕ) :
    (pre ++ x :: post)[pre.length]? = some x := by
  rw [List.getElem?_append_right le_rfl, Nat.sub_self, List.getElem?_cons_zero]

private theorem run_getChainIdFromPosition {position : ℕ} :
    (getChainIdFromPosition position).run s = .ok c s' ↔
      s.chains.lookup position = some c ∧ s' = s := by
  simp only [getChainIdFromPosition, Call.run_bind_eq_ok, Call.run_get_eq_ok,
    Call.run_ofOption_eq_ok]
  constructor
  · rintro ⟨_, _, ⟨rfl, rfl⟩, h, rfl⟩
    exact ⟨h, rfl⟩
  · rintro ⟨h, rfl⟩
    exact ⟨s', s', ⟨rfl, rfl⟩, h, rfl⟩

/-- The position of a chain that the queue lists once. -/
theorem run_getChainPositionFromChainId {position : ℕ} (hl : s.chains.Lists (pre ++ c :: post))
    (hnodup : (pre ++ c :: post).Nodup)
    (h : (getChainPositionFromChainId c).run s = .ok position s') :
    position = pre.length ∧ s' = s := by
  simp only [getChainPositionFromChainId, Call.run_bind_eq_ok, Call.run_get_eq_ok,
    Call.run_ofOption_eq_ok, Call.run_pure_eq_ok] at h
  obtain ⟨_, _, ⟨rfl, rfl⟩, e, _, ⟨he, rfl⟩, rfl, rfl⟩ := h
  have hfind := hl.find hnodup
  rw [hfind] at he
  obtain rfl := Option.some.inj he
  exact ⟨rfl, rfl⟩

/-- A chain moves back past the higher ones that follow it. -/
theorem run_bubbleBack {fuel position : ℕ} (hpre : pre.length = position)
    (hl : s.chains.Lists (pre ++ f :: post))
    (h : (bubbleBack fuel position).run s = .ok u s') :
    ∃ p₁ p₂, post = p₁ ++ p₂ ∧ Requeued s s' (pre ++ (p₁ ++ f :: p₂)) ∧
      (∀ c ∈ p₁, s.heightOf f < s.heightOf c) ∧
      (post.length ≤ fuel → ∀ c ∈ p₂.head?, s.heightOf c ≤ s.heightOf f) := by
  induction fuel generalizing s pre post position with
  | zero =>
    obtain ⟨-, rfl⟩ := Call.run_pure_eq_ok.mp h
    refine ⟨[], post, rfl, .refl hl, by simp, fun hfuel c hc => ?_⟩
    rw [Nat.le_zero, List.length_eq_zero_iff] at hfuel
    rw [hfuel] at hc
    cases hc
  | succ fuel ih =>
    have hnext : s.chains.lookup (position + 1) = post.head? := by
      rw [hl, ← hpre, List.getElem?_append_right (Nat.le_succ _), Nat.succ_eq_add_one,
        Nat.add_sub_cancel_left, List.getElem?_cons_succ, List.head?_eq_getElem?]
    simp only [bubbleBack, Call.run_bind_eq_ok, Call.run_get_eq_ok] at h
    obtain ⟨_, _, ⟨rfl, rfl⟩, h⟩ := h
    cases post with
    | nil =>
      rw [hnext, if_neg (by simp)] at h
      obtain ⟨-, rfl⟩ := Call.run_pure_eq_ok.mp h
      exact ⟨[], [], rfl, .refl hl, by simp, by simp⟩
    | cons c post =>
      rw [List.head?_cons] at hnext
      rw [hnext, if_pos Option.isSome_some] at h
      simp only [Call.run_bind_eq_ok, run_getChainIdFromPosition, run_getBlockChainFromId] at h
      obtain ⟨id₁, _, ⟨hid₁, rfl⟩, chain₁, _, ⟨hchain₁, rfl⟩, id₂, _, ⟨hid₂, rfl⟩, chain₂, s₁,
        ⟨hchain₂, rfl⟩, h⟩ := h
      rw [hnext] at hid₂
      rw [hl, ← hpre, getElem?_length_append] at hid₁
      obtain rfl := Option.some.inj hid₁
      obtain rfl := Option.some.inj hid₂
      have hheight₁ := heightOf_of_some hchain₁
      have hheight₂ := heightOf_of_some hchain₂
      by_cases hlt : chain₁.maxHeight < chain₂.maxHeight
      · rw [if_pos hlt] at h
        simp only [Call.run_bind_eq_ok, Call.run_modify_eq_ok] at h
        obtain ⟨_, _, rfl, h⟩ := h
        have hswap : (s₁.swapChain position (position + 1)).chains.Lists
            ((pre ++ [c]) ++ f :: post) := by
          rw [List.append_assoc, List.singleton_append]
          exact hpre ▸ hl.swap
        obtain ⟨p₁, p₂, rfl, hre, hhigh, hlow⟩ :=
          ih (by rw [List.length_append, hpre, List.length_singleton]) hswap h
        refine ⟨c :: p₁, p₂, rfl, ⟨hre.1, ?_⟩, ?_, ?_⟩
        · have hl' := hre.2
          rwa [List.append_assoc, List.singleton_append] at hl'
        · intro d hd
          rcases List.mem_cons.mp hd with rfl | hd
          · omega
          · exact hhigh d hd
        · intro hfuel
          rw [List.length_cons, Nat.add_le_add_iff_right] at hfuel
          exact hlow hfuel
      · rw [if_neg hlt] at h
        obtain ⟨-, rfl⟩ := Call.run_pure_eq_ok.mp h
        refine ⟨[], c :: post, rfl, .refl hl, by simp, fun _ d hd => ?_⟩
        obtain rfl := Option.some.inj hd
        omega

/-- The height that the next chain is compared with, after a fork of a height has passed some. -/
def frontHeight (s : BtcRelay) (passed : List ℕ) (height : ℕ) : ℕ :=
  (passed.head?.map s.heightOf).getD height

/-- How the forward move of a fork ends: behind a chain that is not lower, behind the main chain,
or in the place of the main chain. -/
inductive Stops (fork : BlockChain) (s : BtcRelay) (front : List ℕ) (height : ℕ) (s' : BtcRelay) :
    Prop
  | behind (c : ℕ) (hlast : c ∈ front.getLast?) (hle : height ≤ s.heightOf c) (hend : s' = s)
  | waits (hfront : front = [])
    (hshort : ¬(s.heightOf mainChainId < height ∧
      min (s.heightOf mainChainId + s.stableBitcoinConfirmations) maxU32 ≤ height))
    (hend : s' = s)
  | overtakes (hfront : front = []) (hlt : s.heightOf mainChainId < height)
    (hahead : min (s.heightOf mainChainId + s.stableBitcoinConfirmations) maxU32 ≤ height)
    (r : H256Le × ℕ) (hswap : (swapMainBlockchain fork).run s = .ok r s')

/-- A fork moves forward past ever lower chains. -/
theorem run_reorganizeFrom {fuel position height : ℕ} (hpre : pre.length + 1 = position)
    (hfuel : position ≤ fuel) (hmain : mainChainId ∉ pre)
    (hl : s.chains.Lists (mainChainId :: (pre ++ f :: post)))
    (h : (reorganizeFrom fork fuel position height).run s = .ok u s') :
    ∃ front mid s₁, pre = front ++ mid ∧
      Requeued s s₁ (mainChainId :: (front ++ f :: (mid ++ post))) ∧
      (mid.map s.heightOf ++ [height]).Pairwise (· < ·) ∧
      Stops fork s₁ front (s.frontHeight mid height) s' := by
  induction fuel generalizing s pre post position height with
  | zero => omega
  | succ fuel ih =>
    have hzero : position ≠ 0 := by omega
    simp only [reorganizeFrom, if_neg hzero, Call.run_bind_eq_ok, Call.run_get_eq_ok] at h
    obtain ⟨_, _, ⟨rfl, rfl⟩, h⟩ := h
    have hprev : position - 1 = pre.length := by omega
    rw [hprev, hl] at h
    rcases List.eq_nil_or_concat' pre with rfl | ⟨pre, c, rfl⟩
    · rw [List.length_nil, List.getElem?_cons_zero] at h
      simp only [Call.run_bind_eq_ok, run_getBlockChainFromId] at h
      obtain ⟨chain, s₁, ⟨hchain, rfl⟩, h⟩ := h
      have hheight := heightOf_of_some hchain
      refine ⟨[], [], s₁, rfl, .refl hl, by simp, ?_⟩
      by_cases hlt : chain.maxHeight < height
      · rw [if_pos hlt, if_pos trivial] at h
        by_cases hahead : min (chain.maxHeight + s₁.stableBitcoinConfirmations) maxU32 ≤ height
        · rw [if_pos hahead] at h
          simp only [Call.run_bind_eq_ok, Call.run_pure_eq_ok] at h
          obtain ⟨r, _, hswap, -, rfl⟩ := h
          exact .overtakes rfl (hheight ▸ hlt) (hheight ▸ hahead) r hswap
        · rw [if_neg hahead] at h
          obtain ⟨-, rfl⟩ := Call.run_pure_eq_ok.mp h
          exact .waits rfl (fun hand => hahead (hheight ▸ hand.2)) rfl
      · rw [if_neg hlt] at h
        obtain ⟨-, rfl⟩ := Call.run_pure_eq_ok.mp h
        exact .waits rfl (fun hand => hlt (hheight ▸ hand.1)) rfl
    · have hlength : (pre ++ [c]).length = pre.length + 1 := by
        rw [List.length_append, List.length_singleton]
      have hcons : mainChainId :: (pre ++ [c] ++ f :: post) =
          (mainChainId :: pre) ++ c :: f :: post := by simp
      have hlookup : (mainChainId :: (pre ++ [c] ++ f :: post))[(pre ++ [c]).length]? = some c := by
        rw [hcons, hlength]
        exact getElem?_length_append (mainChainId :: pre) _ _
      rw [hlookup] at h
      simp only [Call.run_bind_eq_ok, run_getBlockChainFromId] at h
      obtain ⟨chain, s₁, ⟨hchain, rfl⟩, h⟩ := h
      have hheight := heightOf_of_some hchain
      by_cases hlt : chain.maxHeight < height
      · have hne : c ≠ mainChainId := fun heq => hmain (by simp [heq])
        rw [if_pos hlt, if_neg hne] at h
        simp only [Call.run_bind_eq_ok, Call.run_modify_eq_ok] at h
        obtain ⟨_, _, rfl, h⟩ := h
        have hswap : (s₁.swapChain (pre ++ [c]).length position).chains.Lists
            (mainChainId :: (pre ++ f :: (c :: post))) := by
          have hl' := (hcons ▸ hl).swap
          rwa [List.length_cons, ← hlength, show (pre ++ [c]).length + 1 = position from hpre] at hl'
        obtain ⟨front, mid, s₂, rfl, hre, hmid, hstops⟩ := ih hlength.symm (by omega)
          (fun hmem => hmain (List.mem_append_left _ hmem)) hswap h
        refine ⟨front, mid ++ [c], s₂, by rw [List.append_assoc], ⟨hre.1, ?_⟩, ?_, ?_⟩
        · have hl' := hre.2
          rwa [List.append_assoc, List.singleton_append]
        · have hc : chain.maxHeight = s₁.heightOf c := hheight.symm
          rw [List.map_append, List.pairwise_append]
          refine ⟨?_, List.pairwise_singleton _ _, ?_⟩
          · rw [hc] at hmid
            exact hmid
          · intro d hd e he
            rw [List.mem_singleton.mp he]
            rcases List.mem_append.mp hd with hd | hd
            · have hlow := (List.pairwise_append.mp hmid).2.2 d hd _ (List.mem_singleton_self _)
              omega
            · rw [List.map_singleton, List.mem_singleton] at hd
              omega
        · have hfront : s₁.frontHeight (mid ++ [c]) height = s₁.frontHeight mid chain.maxHeight := by
            cases mid with
            | nil => exact hheight
            | cons d mid => rfl
          rw [hfront]
          exact hstops
      · rw [if_neg hlt] at h
        obtain ⟨-, rfl⟩ := Call.run_pure_eq_ok.mp h
        exact ⟨pre ++ [c], [], s₁, by rw [List.append_nil], .refl hl, by simp,
          .behind c (by simp) (by rw [hheight]; exact not_lt.mp hlt) rfl⟩

end Interbtc.BtcRelay
