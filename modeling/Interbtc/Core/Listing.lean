import Mathlib.Data.List.AList
import Mathlib.Data.List.Sort

/-!
# Maps that list a sequence

A finite map from positions lists a sequence if it has a value at every position of the
sequence and at no other. Swapping two neighbours in the map swaps them in the sequence,
and sorting the entries by their positions gives the sequence back.
-/

namespace Core

/-- A finite map from positions. -/
abbrev PositionMap (β : Type) : Type := AList fun _ : ℕ => β

namespace PositionMap

variable {β : Type} {m : PositionMap β} {l pre post : List β} {x y : β} {i j k : ℕ}

/-- The map of nothing. -/
def empty : PositionMap β := ∅

/-- Store a value at a position, or clear the position. -/
def put (k : ℕ) : Option β → PositionMap β → PositionMap β
  | some v, m => m.insert k v
  | none, m => m.erase k

/-- Exchange what is stored at two positions. -/
def swap (i j : ℕ) (m : PositionMap β) : PositionMap β :=
  put i (m.lookup j) (put j (m.lookup i) m)

/-- The entries, in no particular order. -/
def iter (m : PositionMap β) : List (ℕ × β) := m.entries.map fun e => (e.1, e.2)

/-- The entries in the order of their positions. -/
def sorted (m : PositionMap β) : List (ℕ × β) := m.iter.insertionSort fun a b => a.1 ≤ b.1

/-- Putting changes one position. -/
theorem lookup_put (k j : ℕ) (o : Option β) (m : PositionMap β) :
    (put k o m).lookup j = if j = k then o else m.lookup j := by
  cases o with
  | none =>
    by_cases h : j = k
    · rw [if_pos h, h]
      exact AList.lookup_erase _ _
    · rw [if_neg h]
      exact AList.lookup_erase_ne h
  | some v =>
    by_cases h : j = k
    · rw [if_pos h, h]
      exact AList.lookup_insert _
    · rw [if_neg h]
      exact AList.lookup_insert_ne h

/-- Swapping exchanges two positions and no others. -/
theorem lookup_swap (i j k : ℕ) (m : PositionMap β) : (swap i j m).lookup k =
    if k = i then m.lookup j else if k = j then m.lookup i else m.lookup k := by
  rw [swap, lookup_put, lookup_put]

/-- What is iterated over is what can be looked up. -/
theorem mem_iter {e : ℕ × β} : e ∈ m.iter ↔ m.lookup e.1 = some e.2 := by
  obtain ⟨k, v⟩ := e
  have h := AList.mem_lookup_iff (a := k) (b := v) (s := m)
  rw [Option.mem_def] at h
  rw [h, iter, List.mem_map]
  constructor
  · rintro ⟨⟨k', v'⟩, he, heq⟩
    obtain ⟨rfl, rfl⟩ := Prod.mk.inj heq
    exact he
  · intro he
    exact ⟨⟨k, v⟩, he, rfl⟩

/-! ## Sequences -/

/-- The map has the values of a sequence at its positions, and no others. -/
def Lists (m : PositionMap β) (l : List β) : Prop := ∀ i, m.lookup i = l[i]?

/-- The empty map lists the empty list. -/
theorem Lists.empty : (PositionMap.empty : PositionMap β).Lists [] := fun _ => rfl

/-- A value stored at the next position extends the sequence. -/
theorem Lists.append (h : m.Lists l) (x : β) : (put l.length (some x) m).Lists (l ++ [x]) := by
  intro i
  rw [lookup_put]
  rcases Nat.lt_trichotomy i l.length with hi | rfl | hi
  · rw [if_neg hi.ne, h, List.getElem?_append_left hi]
  · rw [if_pos rfl, List.getElem?_append_right le_rfl, Nat.sub_self]
    rfl
  · rw [if_neg (by omega), h, List.getElem?_eq_none (by omega), List.getElem?_eq_none]
    rw [List.length_append, List.length_singleton]
    omega

private theorem getElem?_pair (pre post : List β) (x y : β) (k : ℕ) :
    (pre ++ x :: y :: post)[k]? =
      if k = pre.length then some x else if k = pre.length + 1 then some y
      else if k < pre.length then pre[k]? else post[k - pre.length - 2]? := by
  rcases Nat.lt_trichotomy k pre.length with hk | rfl | hk
  · rw [List.getElem?_append_left hk, if_neg hk.ne, if_neg (by omega), if_pos hk]
  · rw [List.getElem?_append_right le_rfl, Nat.sub_self, if_pos rfl, List.getElem?_cons_zero]
  · obtain ⟨d, rfl⟩ := Nat.exists_eq_add_of_lt hk
    rw [List.getElem?_append_right (by omega), if_neg (by omega),
      show pre.length + d + 1 - pre.length = d + 1 by omega, List.getElem?_cons_succ]
    cases d with
    | zero =>
      rw [if_pos rfl]
      rfl
    | succ d =>
      rw [if_neg (by omega), if_neg (by omega), List.getElem?_cons_succ]
      rfl

/-- Swapping neighbours in the map swaps them in the sequence. -/
theorem Lists.swap (h : m.Lists (pre ++ x :: y :: post)) :
    (m.swap pre.length (pre.length + 1)).Lists (pre ++ y :: x :: post) := by
  intro k
  rw [lookup_swap, h, h, h, getElem?_pair, getElem?_pair, getElem?_pair, getElem?_pair]
  by_cases h₁ : k = pre.length
  · rw [if_pos h₁, if_pos h₁, if_neg (by omega), if_pos rfl]
  · by_cases h₂ : k = pre.length + 1
    · rw [if_neg h₁, if_pos h₂, if_pos rfl, if_neg h₁, if_pos h₂]
    · rw [if_neg h₁, if_neg h₁, if_neg h₂, if_neg h₂, if_neg h₁, if_neg h₂]

/-- The order of the two positions does not matter. -/
theorem swap_comm_lookup (i j k : ℕ) (m : PositionMap β) :
    (m.swap i j).lookup k = (m.swap j i).lookup k := by
  rw [lookup_swap, lookup_swap]
  by_cases h₁ : k = i
  · by_cases h₂ : k = j
    · rw [if_pos h₁, if_pos h₂, ← h₁, ← h₂]
    · rw [if_pos h₁, if_neg h₂, if_pos h₁]
  · rw [if_neg h₁, if_neg h₁]

/-- The same with the positions the other way round. -/
theorem Lists.swap' (h : m.Lists (pre ++ x :: y :: post)) :
    (m.swap (pre.length + 1) pre.length).Lists (pre ++ y :: x :: post) := by
  intro k
  rw [swap_comm_lookup]
  exact h.swap k

/-- The only position of a value. -/
theorem Lists.find (h : m.Lists (pre ++ x :: post)) (hnodup : (pre ++ x :: post).Nodup)
    [DecidableEq β] : m.iter.find? (fun e => e.2 = x) = some (pre.length, x) := by
  have hmem : (pre.length, x) ∈ m.iter := by
    rw [mem_iter, h, List.getElem?_append_right le_rfl, Nat.sub_self]
    rfl
  cases hfind : m.iter.find? (fun e => e.2 = x) with
  | none => exact absurd (List.find?_eq_none.mp hfind _ hmem) (by simp)
  | some e =>
    obtain ⟨k, v⟩ := e
    have hv : v = x := by simpa using List.find?_some hfind
    have hk := mem_iter.mp (List.mem_of_find?_eq_some hfind)
    have hx := mem_iter.mp hmem
    subst hv
    dsimp only at hk hx
    rw [h] at hk hx
    obtain ⟨hlt, heq⟩ := List.getElem?_eq_some_iff.mp hk
    obtain ⟨hlt', heq'⟩ := List.getElem?_eq_some_iff.mp hx
    rw [(hnodup.getElem_inj_iff).mp (heq.trans heq'.symm)]

/-- Sorting the entries by position gives the sequence back. -/
theorem Lists.sorted (h : m.Lists l) : m.sorted = l.zipIdx.map Prod.swap := by
  have hmem : ∀ e : ℕ × β, e ∈ m.iter ↔ e ∈ l.zipIdx.map Prod.swap := by
    rintro ⟨k, v⟩
    rw [mem_iter, h, List.mem_map]
    constructor
    · intro hk
      exact ⟨(v, k), List.mk_mem_zipIdx_iff_getElem?.mpr hk, rfl⟩
    · rintro ⟨⟨v', k'⟩, he, heq⟩
      obtain ⟨rfl, rfl⟩ := Prod.mk.inj heq
      exact List.mk_mem_zipIdx_iff_getElem?.mp he
  have hkeys : (m.iter.map Prod.fst).Nodup := by
    have hnodup := m.keys_nodup
    rw [iter, List.map_map]
    exact hnodup
  have hstrict : (l.zipIdx.map Prod.swap).Pairwise fun a b => a.1 < b.1 := by
    have hrange : (l.zipIdx.map Prod.snd).Pairwise (· < ·) := by
      rw [List.zipIdx_map_snd]
      exact List.pairwise_lt_range'
    rw [List.pairwise_map] at hrange ⊢
    exact hrange
  have hnodup : (l.zipIdx.map Prod.swap).Nodup :=
    hstrict.imp fun {a b} hlt (heq : a = b) => Nat.lt_irrefl _ (heq ▸ hlt)
  refine List.Perm.eq_of_pairwise ?_
    (List.pairwise_insertionSort (fun a b : ℕ × β => a.1 ≤ b.1) _) (hstrict.imp Nat.le_of_lt)
    ((List.perm_insertionSort _ _).trans
      ((List.perm_ext_iff_of_nodup hkeys.of_map hnodup).mpr hmem))
  intro a b ha hb hab hba
  have hka := (mem_iter.mp (List.mem_insertionSort _ |>.mp ha))
  have hkb := (mem_iter.mp ((hmem b).mpr hb))
  have heq : a.1 = b.1 := Nat.le_antisymm hab hba
  rw [heq] at hka
  exact Prod.ext heq (Option.some.inj (hka.symm.trans hkb))

end PositionMap

/-- An element put between those that are not lower and those that are not higher. -/
theorem pairwise_insert {α : Type} {g : α → ℕ} {l₁ l₂ : List α} {x : α}
    (h : (l₁ ++ l₂).Pairwise fun a b => g b ≤ g a) (hhigh : ∀ a ∈ l₁, g x ≤ g a)
    (hlow : ∀ b ∈ l₂.head?, g b ≤ g x) : (l₁ ++ x :: l₂).Pairwise fun a b => g b ≤ g a := by
  rw [List.pairwise_append] at h ⊢
  obtain ⟨h₁, h₂, hcross⟩ := h
  have hbelow : ∀ b ∈ l₂, g b ≤ g x := by
    cases l₂ with
    | nil => exact fun _ hb => nomatch hb
    | cons y l₂ =>
      intro b hb
      have hy := hlow y rfl
      rcases List.mem_cons.mp hb with rfl | hb
      · exact hy
      · exact ((List.pairwise_cons.mp h₂).1 b hb).trans hy
  refine ⟨h₁, List.pairwise_cons.mpr ⟨hbelow, h₂⟩, fun a ha b hb => ?_⟩
  rcases List.mem_cons.mp hb with rfl | hb
  · exact hhigh a ha
  · exact hcross a ha b hb

end Core
