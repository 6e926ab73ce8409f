import Interbtc.Core.Sums
import Interbtc.Democracy.Dispatch

/-!
# Deposits for proposals

A proposal leaves the public list with its deposits refunded, except where the whole list is
cleared. As long as no listed proposal is cleared away, what is reserved are the deposits for
the listed proposals.
-/

namespace Interbtc.Democracy

open Core

variable {AccountId Proposal : Type} [DecidableEq AccountId]
  {s s' : Democracy AccountId Proposal} {i k : ℕ} {u : Unit}

/-! ## Lists -/

section Lists

variable {α : Type}

private theorem swapRemove_perm {xs : List α} {x : α} (h : xs[k]? = some x) :
    xs.Perm (x :: swapRemove xs k) := by
  rcases List.eq_nil_or_concat xs with rfl | ⟨ys, last, rfl⟩
  · exact nomatch h
  · rw [List.concat_eq_append] at h ⊢
    have hlast : (ys ++ [last]).getLast? = some last := List.getLast?_concat
    rw [swapRemove, hlast]
    dsimp only
    by_cases hk : k < ys.length
    · rw [List.getElem?_append_left hk, List.getElem?_eq_getElem hk] at h
      cases h
      rw [List.set_append_left _ _ hk, List.dropLast_concat]
      calc (ys ++ [last]).Perm (last :: ys) := List.perm_append_singleton _ _
        _ |>.Perm (last :: ys[k] :: ys.eraseIdx k) :=
          (List.getElem_cons_eraseIdx_perm hk).symm.cons last
        _ |>.Perm (ys[k] :: last :: ys.eraseIdx k) := .swap _ _ _
        _ |>.Perm (ys[k] :: ys.set k last) := (List.set_perm_cons_eraseIdx hk last).symm.cons _
    · obtain rfl : k = ys.length := by
        have hlt := (List.getElem?_eq_some_iff.mp h).1
        rw [List.length_append, List.length_singleton] at hlt
        omega
      rw [List.getElem?_concat_length] at h
      rw [List.set_append_right _ _ le_rfl, Nat.sub_self, List.set_cons_zero,
        List.dropLast_concat, Option.some.inj h]
      exact List.perm_append_singleton _ _

private theorem mem_of_maxByKey {key : α → ℕ} {xs : List α} {x : α} (h : maxByKey key xs = some x) :
    x ∈ xs := by
  cases xs with
  | nil => exact nomatch h
  | cons y ys =>
    have hfold : ∀ (zs : List α) (best : α),
        zs.foldl (fun best z => if key best ≤ key z then z else best) best ∈ best :: zs := by
      intro zs
      induction zs with
      | nil => exact fun best => List.mem_cons_self
      | cons z zs ih =>
        intro best
        rw [List.foldl_cons]
        rcases List.mem_cons.mp (ih (if key best ≤ key z then z else best)) with heq | hmem
        · rw [heq]
          split
          · exact List.mem_cons_of_mem _ List.mem_cons_self
          · exact List.mem_cons_self
        · exact List.mem_cons_of_mem _ (List.mem_cons_of_mem _ hmem)
    rw [← Option.some.inj h]
    exact hfold ys y

/-- An element found with its position is at this position. -/
theorem getElem?_of_find_zipIdx {xs : List α} {p : α × ℕ → Bool} {found : α × ℕ}
    (h : xs.zipIdx.find? p = some found) : xs[found.2]? = some found.1 ∧ p found = true :=
  ⟨List.mem_zipIdx_iff_getElem?.mp (List.mem_of_find?_eq_some h), List.find?_some h⟩

end Lists

/-! ## What proposals and deposits are -/

/-- What concerns deposits: the proposals, the deposits and what is reserved. -/
def bonds (s : Democracy AccountId Proposal) : ℕ × List (ℕ × Proposal × AccountId) ×
    (ℕ → Option (List AccountId × ℕ)) × (AccountId → ℕ) × (AccountId → ℕ) :=
  (s.publicPropCount, s.publicProps, s.depositOf, s.reserved, s.balanceAt)

/-- What a deposit entry holds of an account: the deposit, as often as the account made it. -/
def held (entry : Option (List AccountId × ℕ)) (who : AccountId) : ℕ :=
  entry.elim 0 fun e => e.2 * e.1.count who

/-- One more deposit is held of the account that made it. -/
theorem held_append (depositors : List AccountId) (who : AccountId) (deposit : ℕ) (w : AccountId) :
    held (some (depositors ++ [who], deposit)) w =
      held (some (depositors, deposit)) w + if w = who then deposit else 0 := by
  change deposit * (depositors ++ [who]).count w = deposit * depositors.count w + _
  rw [List.count_append, Nat.mul_add]
  congr 1
  rcases eq_or_ne w who with rfl | hne
  · rw [if_pos rfl, List.count_singleton_self, Nat.mul_one]
  · rw [if_neg hne, List.count_eq_zero_of_not_mem (fun h => hne (List.mem_singleton.mp h)),
      Nat.mul_zero]

/-- All that is reserved belongs to the deposits for listed proposals. -/
structure Backed (s : Democracy AccountId Proposal) : Prop where
  listed : ∀ i, s.depositOf i ≠ none ↔ i ∈ s.publicProps.map Prod.fst
  nodup : (s.publicProps.map Prod.fst).Nodup
  made : ∀ i ∈ s.publicProps.map Prod.fst, i < s.publicPropCount
  reserved : ∀ who, s.reserved who =
    ∑ i ∈ Finset.range s.publicPropCount, held (s.depositOf i) who
  reserved_le : ∀ who, s.reserved who ≤ maxU128
  balance_le : ∀ who, s.balanceAt who ≤ maxU128

namespace Backed

private theorem genesis (nextLaunchTimestamp : ℕ) :
    Backed (genesis nextLaunchTimestamp : Democracy AccountId Proposal) where
  listed _ := iff_of_false (fun h => h rfl) List.not_mem_nil
  nodup := List.nodup_nil
  made _ h := absurd h List.not_mem_nil
  reserved _ := rfl
  reserved_le _ := Nat.zero_le _
  balance_le _ := Nat.zero_le _

private theorem congr (h : Backed s) (hbonds : bonds s' = bonds s) : Backed s' := by
  simp only [bonds, Prod.mk.injEq] at hbonds
  obtain ⟨hcount, hprops, hdeposit, hreserved, hbalance⟩ := hbonds
  constructor
  · rw [hdeposit, hprops]
    exact h.listed
  · rw [hprops]
    exact h.nodup
  · rw [hprops, hcount]
    exact h.made
  · rw [hreserved, hcount, hdeposit]
    exact h.reserved
  · rw [hreserved]
    exact h.reserved_le
  · rw [hbalance]
    exact h.balance_le

end Backed

/-- A proposal leaves the list, and its depositors get their deposits back. -/
structure Settled (s s' : Democracy AccountId Proposal) (i : ℕ) : Prop where
  publicProps : ∃ entry, entry.1 = i ∧ s.publicProps.Perm (entry :: s'.publicProps)
  publicPropCount : s'.publicPropCount = s.publicPropCount
  depositOf : s'.depositOf = Function.update s.depositOf i none
  reserved : ∀ who, s'.reserved who = s.reserved who - held (s.depositOf i) who
  balanceAt : s'.balanceAt = s.balanceAt

namespace Backed

private theorem settle (h : Backed s) (hsettled : Settled s s' i) : Backed s' := by
  obtain ⟨entry, rfl, hperm⟩ := hsettled.publicProps
  have hmap := hperm.map Prod.fst
  rw [List.map_cons] at hmap
  have hnodup := hmap.nodup_iff.mp h.nodup
  obtain ⟨hfresh, hrest⟩ := List.nodup_cons.mp hnodup
  have hmem : ∀ j, j ∈ s.publicProps.map Prod.fst ↔
      j = entry.1 ∨ j ∈ s'.publicProps.map Prod.fst := by
    intro j
    rw [hmap.mem_iff, List.mem_cons]
  have hmade := h.made entry.1 ((hmem _).mpr (.inl rfl))
  have hreserved : ∀ who, s'.reserved who =
      ∑ j ∈ Finset.range s'.publicPropCount, held (s'.depositOf j) who := by
    intro who
    have hsum := sum_update_add_of_mem (fun _ e => held e who) s.depositOf
      (Finset.mem_range.mpr hmade) none
    rw [hsettled.reserved, hsettled.publicPropCount, hsettled.depositOf, h.reserved]
    exact (Nat.sub_eq_of_eq_add hsum.symm)
  constructor
  · intro j
    rw [hsettled.depositOf]
    rcases eq_or_ne j entry.1 with rfl | hne
    · rw [Function.update_self]
      exact iff_of_false (fun hnone => hnone rfl) hfresh
    · rw [Function.update_of_ne hne, h.listed, hmem, or_iff_right hne]
  · exact hrest
  · intro j hj
    rw [hsettled.publicPropCount]
    exact h.made j ((hmem j).mpr (.inr hj))
  · exact hreserved
  · intro who
    rw [hsettled.reserved]
    exact (Nat.sub_le _ _).trans (h.reserved_le who)
  · rw [hsettled.balanceAt]
    exact h.balance_le

end Backed

/-! ## Deposits are made -/

private theorem run_reserve {who : AccountId} {value : ℕ}
    (h : (reserve who value).run s = .ok u s') :
    value ≤ s.freeBalance who ∧ s' = { s with
      reserved := Function.update s.reserved who (min (s.reserved who + value) maxU128) } := by
  obtain ⟨_, _, hget, hcall⟩ := Call.run_bind_eq_ok.mp h
  obtain ⟨rfl, rfl⟩ := Call.run_get_eq_ok.mp hget
  obtain ⟨_, _, hensure, hcall⟩ := Call.run_bind_eq_ok.mp hcall
  obtain ⟨hvalue, rfl⟩ := Call.run_ensure_eq_ok.mp hensure
  exact ⟨hvalue, (Call.run_modify_eq_ok.mp hcall).symm⟩

namespace Backed

/-- What is reserved is never so much that it would be cut off. -/
theorem reserved_add_le (h : Backed s) {who : AccountId} {value : ℕ}
    (hvalue : value ≤ s.freeBalance who) : s.reserved who + value ≤ maxU128 := by
  have hreserved := h.reserved_le who
  have hbalance := h.balance_le who
  unfold freeBalance at hvalue
  omega

/-- An account makes a deposit, for a listed proposal or for a new one. -/
theorem deposit (h : Backed s) {who : AccountId} {value n : ℕ}
    {publicProps : List (ℕ × Proposal × AccountId)} {entry : List AccountId × ℕ}
    (hvalue : value ≤ s.freeBalance who)
    (hheld : ∀ w, held (some entry) w = held (s.depositOf i) w + if w = who then value else 0)
    (hcount : s.publicPropCount ≤ n)
    (hmade : ∀ j ∈ publicProps.map Prod.fst, j < n)
    (hnodup : (publicProps.map Prod.fst).Nodup)
    (hmem : ∀ j, j ∈ publicProps.map Prod.fst ↔ j = i ∨ j ∈ s.publicProps.map Prod.fst) :
    Backed { s with
      publicPropCount := n
      publicProps := publicProps
      depositOf := Function.update s.depositOf i (some entry)
      reserved := Function.update s.reserved who (min (s.reserved who + value) maxU128) } where
  listed := by
    intro j
    change Function.update _ _ _ _ ≠ _ ↔ _
    rw [hmem]
    rcases eq_or_ne j i with rfl | hne
    · rw [Function.update_self]
      exact iff_of_true (Option.some_ne_none _) (.inl rfl)
    · rw [Function.update_of_ne hne, h.listed, or_iff_right hne]
  nodup := hnodup
  made := hmade
  reserved := by
    intro w
    have hi : i < n := hmade i ((hmem i).mpr (.inl rfl))
    have hsum := sum_update_add_of_mem (fun _ e => held e w) s.depositOf
      (Finset.mem_range.mpr hi) (some entry)
    -- there are no entries beyond the proposals made
    have hgrow : ∑ j ∈ Finset.range n, held (s.depositOf j) w = s.reserved w := by
      rw [h.reserved]
      refine (Finset.sum_subset (Finset.range_mono hcount) fun j _ hj => ?_).symm
      have hnone : s.depositOf j = none := by
        by_contra hsome
        exact hj (Finset.mem_range.mpr (h.made j ((h.listed j).mp hsome)))
      rw [hnone]
      rfl
    rw [hgrow, hheld] at hsum
    change Function.update s.reserved who _ w =
      ∑ j ∈ Finset.range n, held (Function.update s.depositOf i _ j) w
    rcases eq_or_ne w who with rfl | hne
    · rw [Function.update_self, min_eq_left (h.reserved_add_le hvalue)]
      rw [if_pos rfl] at hsum
      omega
    · rw [Function.update_of_ne hne]
      rw [if_neg hne] at hsum
      omega
  reserved_le := by
    intro w
    change Function.update s.reserved who _ w ≤ _
    rcases eq_or_ne w who with rfl | hne
    · rw [Function.update_self]
      exact min_le_right _ _
    · rw [Function.update_of_ne hne]
      exact h.reserved_le w
  balance_le := h.balance_le

end Backed

section Calls

variable [DemocracyConfig]

private theorem propose_backed (origin : DemocracyOrigin AccountId) (proposal : Proposal)
    (value : ℕ) :
    Maintains Backed (propose origin proposal value) := by
  refine .bind (.ofExcept _) fun who => .bind (.ensure _ _) fun _ => ?_
  intro s _ s' h hs
  obtain ⟨_, _, hget, hcall⟩ := Call.run_bind_eq_ok.mp h
  obtain ⟨rfl, rfl⟩ := Call.run_get_eq_ok.mp hget
  obtain ⟨_, _, hensure, hcall⟩ := Call.run_bind_eq_ok.mp hcall
  obtain ⟨_, rfl⟩ := Call.run_ensure_eq_ok.mp hensure
  obtain ⟨_, _, hensure, hcall⟩ := Call.run_bind_eq_ok.mp hcall
  obtain ⟨_, rfl⟩ := Call.run_ensure_eq_ok.mp hensure
  obtain ⟨_, t, hreserve, hcall⟩ := Call.run_bind_eq_ok.mp hcall
  obtain ⟨hvalue, rfl⟩ := run_reserve hreserve
  obtain ⟨_, _, hensure, hcall⟩ := Call.run_bind_eq_ok.mp hcall
  obtain ⟨_, rfl⟩ := Call.run_ensure_eq_ok.mp hensure
  rw [← Call.run_modify_eq_ok.mp hcall]
  have hfresh : s.publicPropCount ∉ s.publicProps.map Prod.fst :=
    fun h => Nat.lt_irrefl _ (hs.made _ h)
  have hnone : s.depositOf s.publicPropCount = none := by
    by_contra hsome
    exact hfresh ((hs.listed _).mp hsome)
  have htake : [who].take DemocracyConfig.maxDeposits = [who] :=
    List.take_of_length_le DemocracyConfig.maxDeposits_pos
  have hmem : ∀ j, j ∈ (s.publicProps ++ [(s.publicPropCount, proposal, who)]).map Prod.fst ↔
      j = s.publicPropCount ∨ j ∈ s.publicProps.map Prod.fst := by
    intro j
    rw [List.map_append, List.mem_append, or_comm]
    exact or_congr List.mem_singleton Iff.rfl
  refine hs.deposit hvalue (fun w => ?_) (Nat.le_succ _) (fun j hj => ?_) ?_ hmem
  · rw [htake, hnone]
    exact held_append [] who value w
  · rcases (hmem j).mp hj with rfl | hj
    · exact Nat.lt_succ_self _
    · exact (hs.made j hj).trans (Nat.lt_succ_self _)
  · rw [List.map_append]
    refine List.nodup_append.mpr ⟨hs.nodup, List.nodup_singleton _, ?_⟩
    rintro a ha b hb rfl
    obtain rfl : a = s.publicPropCount := List.mem_singleton.mp hb
    exact hfresh ha

private theorem second_backed (origin : DemocracyOrigin AccountId) (proposal : ℕ) :
    Maintains Backed (second origin proposal : DemocracyCall AccountId Proposal Unit) := by
  refine .bind (.ofExcept _) fun who => ?_
  intro s _ s' h hs
  obtain ⟨_, _, hget, hcall⟩ := Call.run_bind_eq_ok.mp h
  obtain ⟨rfl, rfl⟩ := Call.run_get_eq_ok.mp hget
  obtain ⟨⟨depositors, deposit⟩, _, hread, hcall⟩ := Call.run_bind_eq_ok.mp hcall
  obtain ⟨hentry, rfl⟩ := Call.run_ofOption_eq_ok.mp hread
  obtain ⟨_, _, hensure, hcall⟩ := Call.run_bind_eq_ok.mp hcall
  obtain ⟨_, rfl⟩ := Call.run_ensure_eq_ok.mp hensure
  obtain ⟨_, t, hreserve, hcall⟩ := Call.run_bind_eq_ok.mp hcall
  obtain ⟨hvalue, rfl⟩ := run_reserve hreserve
  rw [← Call.run_modify_eq_ok.mp hcall]
  have hlisted : proposal ∈ s.publicProps.map Prod.fst :=
    (hs.listed proposal).mp (by rw [hentry]; exact Option.some_ne_none _)
  refine hs.deposit hvalue (fun w => ?_) le_rfl hs.made hs.nodup fun j => ?_
  · rw [hentry]
    exact held_append depositors who deposit w
  · exact (or_iff_right_of_imp fun hj => hj ▸ hlisted).symm

/-! ## Deposits are refunded -/

omit [DemocracyConfig] in
private theorem run_unreserve_forM {depositors : List AccountId} {deposit : ℕ}
    (h : (depositors.forM fun who => unreserve who deposit).run s = .ok u s') :
    s' = { s with reserved := fun w => s.reserved w - deposit * depositors.count w } := by
  induction depositors generalizing s with
  | nil =>
    obtain ⟨_, rfl⟩ := Call.run_pure_eq_ok.mp h
    rfl
  | cons who depositors ih =>
    obtain ⟨_, t, hunreserve, hrest⟩ := Call.run_bind_eq_ok.mp h
    rw [ih hrest, ← Call.run_modify_eq_ok.mp hunreserve]
    congr 1
    funext w
    change Function.update s.reserved who _ w - _ = _
    rcases eq_or_ne w who with rfl | hne
    · rw [Function.update_self, List.count_cons_self, Nat.mul_succ, Nat.sub_sub, Nat.add_comm]
    · rw [Function.update_of_ne hne, List.count_cons_of_ne hne.symm]

omit [DemocracyConfig] in
private theorem run_refundDepositors {tabled : Bool}
    (h : (refundDepositors i).run s = .ok tabled s') :
    s' = { s with
      depositOf := Function.update s.depositOf i none
      reserved := fun w => s.reserved w - held (s.depositOf i) w } := by
  obtain ⟨_, _, hget, hcall⟩ := Call.run_bind_eq_ok.mp h
  obtain ⟨rfl, rfl⟩ := Call.run_get_eq_ok.mp hget
  split at hcall
  · rename_i depositors deposit hentry
    obtain ⟨_, t, hmodify, hcall⟩ := Call.run_bind_eq_ok.mp hcall
    obtain ⟨_, t', hforM, hcall⟩ := Call.run_bind_eq_ok.mp hcall
    obtain ⟨_, rfl⟩ := Call.run_pure_eq_ok.mp hcall
    rw [run_unreserve_forM hforM, ← Call.run_modify_eq_ok.mp hmodify, hentry]
    rfl
  · rename_i hnone
    obtain ⟨_, rfl⟩ := Call.run_pure_eq_ok.mp hcall
    rw [hnone, ← hnone, Function.update_eq_self]
    rw [hnone]
    rfl

omit [DecidableEq AccountId] [DemocracyConfig] in
private theorem injectReferendum_bonds (endBlock : ℕ) (proposal : Proposal)
    (threshold : VoteThreshold)
    (delay : ℕ) : Keeps bonds (injectReferendum endBlock proposal threshold delay :
      DemocracyCall AccountId Proposal Unit) :=
  .bind .get fun _ => .bind (.ensure _ _) fun _ => .modify fun _ => rfl

omit [DemocracyConfig] in
/-- A proposal is taken off the list, its depositors are refunded, and the rest is left alone. -/
theorem settled_of_refund {entry : ℕ × Proposal × AccountId}
    {rest : List (ℕ × Proposal × AccountId)} {tabled : Bool} {t : Democracy AccountId Proposal}
    (hperm : s.publicProps.Perm (entry :: rest))
    (hrefund : (refundDepositors entry.1).run { s with publicProps := rest } = .ok tabled t)
    (hkeep : bonds s' = bonds t) : Settled s s' entry.1 := by
  rw [run_refundDepositors hrefund] at hkeep
  simp only [bonds, Prod.mk.injEq] at hkeep
  obtain ⟨hcount, hprops, hdeposit, hreserved, hbalance⟩ := hkeep
  exact ⟨⟨entry, rfl, hprops ▸ hperm⟩, hcount, hdeposit, fun who => congrFun hreserved who,
    hbalance⟩

omit [DemocracyConfig] in
private theorem run_fastTrackWithVotingPeriod {propIndex delay votingPeriod : ℕ}
    (h : (fastTrackWithVotingPeriod propIndex delay votingPeriod).run s = .ok u s') :
    Settled s s' propIndex := by
  obtain ⟨_, _, hget, hcall⟩ := Call.run_bind_eq_ok.mp h
  obtain ⟨rfl, rfl⟩ := Call.run_get_eq_ok.mp hget
  obtain ⟨winner, _, hfind, hcall⟩ := Call.run_bind_eq_ok.mp hcall
  obtain ⟨hwinner, rfl⟩ := Call.run_ofOption_eq_ok.mp hfind
  obtain ⟨_, t, hmodify, hcall⟩ := Call.run_bind_eq_ok.mp hcall
  obtain rfl := Call.run_modify_eq_ok.mp hmodify
  obtain ⟨_, t, hrefund, hinject⟩ := Call.run_bind_eq_ok.mp hcall
  obtain ⟨hget, hindex⟩ := getElem?_of_find_zipIdx hwinner
  obtain rfl := of_decide_eq_true hindex
  exact settled_of_refund (swapRemove_perm hget) hrefund (injectReferendum_bonds _ _ _ _ _ _ _ hinject)

private theorem run_launchPublic {now : ℕ} (h : (launchPublic now).run s = .ok u s') :
    ∃ i, Settled s s' i := by
  obtain ⟨_, _, hget, hcall⟩ := Call.run_bind_eq_ok.mp h
  obtain ⟨rfl, rfl⟩ := Call.run_get_eq_ok.mp hget
  obtain ⟨winner, _, hmax, hcall⟩ := Call.run_bind_eq_ok.mp hcall
  obtain ⟨hwinner, rfl⟩ := Call.run_ofOption_eq_ok.mp hmax
  obtain ⟨_, t, hmodify, hcall⟩ := Call.run_bind_eq_ok.mp hcall
  obtain rfl := Call.run_modify_eq_ok.mp hmodify
  obtain ⟨tabled, t, hrefund, hinject⟩ := Call.run_bind_eq_ok.mp hcall
  have hget := List.mem_zipIdx_iff_getElem?.mp (mem_of_maxByKey hwinner)
  refine ⟨_, settled_of_refund (swapRemove_perm hget) hrefund ?_⟩
  exact Keeps.ite (injectReferendum_bonds _ _ _ _) (.pure _) _ _ _ hinject

omit [DemocracyConfig] in
private theorem run_cancelProposal {origin : DemocracyOrigin AccountId} {propIndex : ℕ}
    (h : (cancelProposal origin propIndex).run s = .ok u s') : Settled s s' propIndex := by
  obtain ⟨who, _, horigin, hcall⟩ := Call.run_bind_eq_ok.mp h
  obtain ⟨-, rfl⟩ := Call.run_ofExcept_eq_ok.mp horigin
  obtain ⟨_, _, hget, hcall⟩ := Call.run_bind_eq_ok.mp hcall
  obtain ⟨rfl, rfl⟩ := Call.run_get_eq_ok.mp hget
  obtain ⟨removed, _, hfind, hcall⟩ := Call.run_bind_eq_ok.mp hcall
  obtain ⟨hremoved, rfl⟩ := Call.run_ofOption_eq_ok.mp hfind
  obtain ⟨_, _, hensure, hcall⟩ := Call.run_bind_eq_ok.mp hcall
  obtain ⟨_, rfl⟩ := Call.run_ensure_eq_ok.mp hensure
  obtain ⟨_, t, hmodify, hcall⟩ := Call.run_bind_eq_ok.mp hcall
  obtain rfl := Call.run_modify_eq_ok.mp hmodify
  obtain ⟨_, t, hrefund, hpure⟩ := Call.run_bind_eq_ok.mp hcall
  obtain ⟨_, rfl⟩ := Call.run_pure_eq_ok.mp hpure
  obtain ⟨hget, hindex⟩ := getElem?_of_find_zipIdx hremoved
  obtain rfl := of_decide_eq_true hindex
  obtain ⟨hlt, hentry⟩ := List.getElem?_eq_some_iff.mp hget
  refine settled_of_refund ?_ hrefund rfl
  rw [← hentry]
  exact (List.getElem_cons_eraseIdx_perm hlt).symm

/-! ## Steps -/

/-- Public proposals are not cleared while there are any. -/
def ClearsNone (s : Democracy AccountId Proposal) : Op AccountId Proposal → Prop
  | .clearPublicProposals origin => origin = .root → s.publicProps = []
  | _ => True

omit [DemocracyConfig] in
private theorem backed_of_keeps {α : Type} {x : DemocracyCall AccountId Proposal α}
    (hx : Keeps bonds x) : Maintains Backed x :=
  fun s a s' h hs => hs.congr (hx s a s' h)

private theorem launchNext_backed (now : ℕ) :
    Maintains Backed (launchNext now : DemocracyCall AccountId Proposal Bool) := by
  have hlaunch : Maintains Backed (launchPublic now : DemocracyCall AccountId Proposal Unit) := by
    intro s _ s' h hs
    obtain ⟨i, hsettled⟩ := run_launchPublic h
    exact hs.settle hsettled
  exact .get_bind fun _ => .ite (.pure _) (.bind hlaunch fun _ => .pure _)

private theorem beginBlock_backed (now time : ℕ) :
    Maintains Backed (beginBlock now time : DemocracyCall AccountId Proposal Unit) := by
  have hshould : Keeps bonds (shouldLaunch time : DemocracyCall AccountId Proposal Bool) :=
    .bind .get fun _ => .ite (.pure _) (.bind (.modify fun _ => rfl) fun _ => .pure _)
  have hbake : ∀ range : List ℕ,
      Keeps bonds (bakeMaturing now range : DemocracyCall AccountId Proposal Unit) :=
    fun _ => .bind .get fun _ => .forM (g := bakeReferendum now) (fun _ => .modify fun _ => rfl) _
  exact .get_bind fun _ => .bind
    (.bind (backed_of_keeps hshould) fun _ => .ite
      (.bind (launchNext_backed now) fun _ => .ite
        (.bind (launchNext_backed now) fun _ => .pure _) (.pure _)) (.pure _))
    fun _ => backed_of_keeps (hbake _)

private theorem tryVote_bonds (who : AccountId) (refIndex : ℕ) (vote : Vote) :
    Keeps bonds (tryVote who refIndex vote : DemocracyCall AccountId Proposal Unit) :=
  .bind .get fun _ => .bind (.ofExcept _) fun _ => .bind (.ensure _ _) fun _ =>
    .bind (.ofExcept _) fun _ => .modify fun _ => rfl

omit [DemocracyConfig] in
private theorem tryRemoveVote_bonds (who : AccountId) (refIndex : ℕ) :
    Keeps bonds (tryRemoveVote who refIndex : DemocracyCall AccountId Proposal Unit) := by
  have huncount : ∀ old, Keeps bonds (uncount refIndex old :
      DemocracyCall AccountId Proposal Unit) := by
    intro old
    refine .bind .get fun s => ?_
    split
    · exact .bind (.ofOption _ _) fun _ => .modify fun _ => rfl
    · exact .pure _
  exact .bind .get fun _ => .bind (.ofOption _ _) fun old => .bind (huncount old) fun _ =>
    .modify fun _ => rfl

/-- Every step but a clearing of listed proposals keeps the deposits backed. -/
theorem step_backed (s : Democracy AccountId Proposal) (op : Op AccountId Proposal)
    (hs : Backed s) (hclear : ClearsNone s op) : Backed (step s op) := by
  have hsettles : ∀ {x : DemocracyCall AccountId Proposal Unit},
      (∀ s s' u, x.run s = .ok u s' → ∃ i, Settled s s' i) → Maintains Backed x := by
    intro x hx s u s' h hs
    obtain ⟨i, hsettled⟩ := hx s s' u h
    exact hs.settle hsettled
  have hfast : ∀ propIndex delay votingPeriod, Maintains Backed
      (fastTrackWithVotingPeriod propIndex delay votingPeriod :
        DemocracyCall AccountId Proposal Unit) :=
    fun _ _ _ => hsettles fun _ _ _ h => ⟨_, run_fastTrackWithVotingPeriod h⟩
  cases op with
  | propose origin proposal value => exact (propose_backed origin proposal value).commit hs
  | second origin proposal => exact (second_backed origin proposal).commit hs
  | vote origin refIndex vote =>
    exact (Maintains.bind (.ofExcept _) fun _ => backed_of_keeps (tryVote_bonds _ _ _)).commit hs
  | fastTrack origin propIndex delay =>
    exact (Maintains.bind (.ofExcept _) fun _ => hfast _ _ _).commit hs
  | tableProposal origin propIndex delay =>
    exact (Maintains.bind (.ofExcept _) fun _ => hfast _ _ _).commit hs
  | fastTrackReferendum origin refIndex =>
    have hkeeps : Keeps bonds (fastTrackReferendum origin refIndex :
        DemocracyCall AccountId Proposal Unit) :=
      .bind (.ofExcept _) fun _ => .bind .get fun _ => .bind (.ofExcept _) fun _ =>
        .bind (.ensure _ _) fun _ => .modify fun _ => rfl
    exact (backed_of_keeps hkeeps).commit hs
  | cancelReferendum origin refIndex =>
    have hkeeps : Keeps bonds (cancelReferendum origin refIndex :
        DemocracyCall AccountId Proposal Unit) :=
      .bind (.ofExcept _) fun _ => .modify fun _ => rfl
    exact (backed_of_keeps hkeeps).commit hs
  | clearPublicProposals origin =>
    rcases (clearPublicProposals origin).commit_cases s with ⟨_, h⟩ | ⟨-, h⟩
    · obtain ⟨_, _, horigin, hclears⟩ := Call.run_bind_eq_ok.mp h
      obtain ⟨hroot, rfl⟩ := Call.run_ofExcept_eq_ok.mp horigin
      have hempty : s.publicProps = [] := by
        cases origin with
        | root => exact hclear rfl
        | fastTrack => exact nomatch hroot
        | signed who => exact nomatch hroot
      refine hs.congr ?_
      rw [step, dispatch, ← Call.run_modify_eq_ok.mp hclears]
      simp only [bonds, hempty]
    · rw [step, dispatch, h]
      exact hs
  | cancelProposal origin propIndex =>
    exact (hsettles fun _ _ _ h => ⟨_, run_cancelProposal h⟩).commit hs
  | removeVote origin index =>
    exact (Maintains.bind (.ofExcept _) fun _ => backed_of_keeps (tryRemoveVote_bonds _ _)).commit hs
  | beginBlock now time =>
    have hblock : Keeps bonds (modifyThe (Democracy AccountId Proposal)
        (fun s => { s with blockNumber := now }) : DemocracyCall AccountId Proposal Unit) :=
      .modify fun _ => rfl
    exact (Maintains.bind (backed_of_keeps hblock) fun _ => beginBlock_backed now time).commit hs
  | environment balanceAt totalSupply preimages =>
    refine (Maintains.modify fun s hs => ?_).commit hs
    exact ⟨hs.listed, hs.nodup, hs.made, hs.reserved, hs.reserved_le,
      fun who => (balanceAt who).property⟩

/-! ## Recoverable deposits -/

/-- Deposits are for listed proposals, an account has its deposits reserved and nothing else,
and cancelling a proposal gives all its depositors their deposits back. -/
structure DepositsRecoverable (s : Democracy AccountId Proposal) : Prop where
  listed : ∀ i, s.depositOf i ≠ none → ∃ entry ∈ s.publicProps, entry.1 = i
  made : ∀ i, s.depositOf i ≠ none → i < s.publicPropCount
  reserved : ∀ who, s.reserved who =
    ∑ i ∈ Finset.range s.publicPropCount, held (s.depositOf i) who
  refunded : ∀ i, s.depositOf i ≠ none → (cancelProposal .root i).succeeds s = true ∧
    ∀ who, ((cancelProposal .root i).commit s).reserved who + held (s.depositOf i) who =
      s.reserved who

omit [DemocracyConfig] in
private theorem refundDepositors_neverFails (i : ℕ) :
    (refundDepositors i : DemocracyCall AccountId Proposal Bool).NeverFails := by
  refine .bind .get fun s => ?_
  split
  · exact .bind (.modify _) fun _ => .bind (.forM (fun _ => .modify _) _) fun _ => .pure _
  · exact .pure _

omit [DemocracyConfig] in
/-- The root can cancel every listed proposal. -/
theorem cancelProposal_succeeds (hlisted : i ∈ s.publicProps.map Prod.fst) :
    (cancelProposal .root i).succeeds s = true := by
  obtain ⟨entry, hentry, rfl⟩ := List.mem_map.mp hlisted
  obtain ⟨k, hk⟩ := List.mem_iff_getElem?.mp hentry
  have hfound : (s.publicProps.zipIdx.find? fun e => e.1.1 = entry.1).isSome := by
    rw [List.find?_isSome]
    exact ⟨(entry, k), List.mem_zipIdx_iff_getElem?.mpr hk, decide_eq_true rfl⟩
  obtain ⟨removed, hremoved⟩ := Option.isSome_iff_exists.mp hfound
  refine RaisesOnly.succeeds ?_
  refine .ofExcept_bind (fun e he => nomatch he) fun who hwho => .get_bind ?_
  cases hwho
  rw [hremoved]
  refine .bind (.pure removed) fun a t ha => ?_
  obtain ⟨rfl, rfl⟩ := Call.run_pure_eq_ok.mp ha
  exact .ensure_bind (fun h => h (.inl rfl)) fun _ => .of_neverFails
    (.bind (.modify _) fun _ => .bind (refundDepositors_neverFails _) fun _ => .pure _)

omit [DemocracyConfig] in
private theorem Backed.recoverable (hs : Backed s) : DepositsRecoverable s where
  listed i hi := List.mem_map.mp ((hs.listed i).mp hi)
  made i hi := hs.made i ((hs.listed i).mp hi)
  reserved := hs.reserved
  refunded := by
    intro i hi
    have hlisted := (hs.listed i).mp hi
    have hsucceeds := cancelProposal_succeeds hlisted
    refine ⟨hsucceeds, fun who => ?_⟩
    have hsettled := run_cancelProposal (Call.run_eq_ok_commit hsucceeds)
    rw [hsettled.reserved]
    refine Nat.sub_add_cancel ?_
    rw [hs.reserved]
    exact Finset.single_le_sum (f := fun j => held (s.depositOf j) who)
      (fun _ _ => Nat.zero_le _) (Finset.mem_range.mpr (hs.made i hlisted))

/-- In every state of a run from genesis in which listed proposals are never cleared, the
deposits are recoverable. -/
theorem run_deposits_recoverable (nextLaunchTimestamp : ℕ) (ops : List (Op AccountId Proposal))
    (h : Meets step ClearsNone (genesis nextLaunchTimestamp) ops) :
    DepositsRecoverable (run step (genesis nextLaunchTimestamp) ops) :=
  (run_invariant step_backed (Backed.genesis nextLaunchTimestamp) h).recoverable

end Calls

/-! ## A cleared proposal -/

section Cleared

/-- A small chain, where two proposals can wait. -/
local instance smallChain : DemocracyConfig where
  enactmentPeriod := 1
  votingPeriod := 1
  fastTrackVotingPeriod := 1
  minimumDeposit := 1
  maxVotes := 2
  maxProposals := 2
  maxDeposits := 2
  maxDeposits_pos := by decide
  launchPeriod := 1
  launchPeriod_pos := by decide

/-- A proposal is seconded and cancelled, the list is cleared while it is empty, and two more
proposals are made, one of which is seconded. -/
def seconded : List (Op (Fin 2) Bool) :=
  [.environment (fun _ => ⟨100, by decide⟩) ⟨200, by decide⟩ (fun _ => true),
    .propose (.signed 0) true 10, .second (.signed 1) 0, .cancelProposal .root 0,
    .clearPublicProposals .root, .propose (.signed 1) true 20, .second (.signed 0) 1,
    .propose (.signed 0) false 10]

/-- Proposals are seconded, cancelled and tabled, and an empty list is cleared. -/
theorem run_deposits_recoverable_seconded :
    let s := run step (genesis 0) seconded
    s.publicProps.map Prod.fst = [1, 2] ∧ s.reserved 0 = 30 ∧ s.reserved 1 = 20 ∧
      DepositsRecoverable s := by
  refine ⟨by decide +kernel, by decide +kernel, by decide +kernel,
    run_deposits_recoverable 0 seconded
      ⟨trivial, trivial, trivial, trivial, fun _ => ?_, trivial, trivial, trivial, trivial⟩⟩
  decide +kernel

/-- An account with a voting power of 100 proposes with a deposit of 10. -/
def proposed : List (Op (Fin 2) Unit) :=
  [.environment (fun _ => ⟨100, by decide⟩) ⟨200, by decide⟩ (fun _ => true),
    .propose (.signed 0) () 10]

/-- After the root cleared the list, the deposit is still reserved, and neither cancelling, nor
tabling, nor the next launch gives it back. -/
theorem cleared_deposit_stays :
    let s : Democracy (Fin 2) Unit :=
      run step (genesis 0) (proposed ++ [.clearPublicProposals .root])
    s.depositOf 0 = some ([0], 10) ∧ s.reserved 0 = 10 ∧ s.publicProps = [] ∧
      (cancelProposal .root 0).error? s = some .proposalMissing ∧
      (tableProposal .root 0 1).error? s = some .proposalMissing ∧
      (step s (.beginBlock 1 1)).reserved 0 = 10 := by
  decide +kernel

end Cleared

end Interbtc.Democracy
