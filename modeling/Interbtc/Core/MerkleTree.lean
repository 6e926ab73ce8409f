import Mathlib.Algebra.Order.Ring.Nat
import Mathlib.Data.List.Basic

/-!
# Merkle trees and their partial trees

The nodes of a level are combined two by two, and the last of an odd number with itself. A
partial tree visits the nodes above marked leaves, in depth-first order. It keeps a flag for
each node it visits, and the value of each node that it does not look below.
-/

namespace Core.MerkleTree

variable {α : Type} {combine : α → α → α} {n h i p : ℕ}

/-! ## Levels -/

/-- The parents of the nodes of a level. -/
def level (combine : α → α → α) : List α → List α
  | [] => []
  | [a] => [combine a a]
  | a :: b :: rest => combine a b :: level combine rest

/-- The nodes at a height above the leaves. -/
def levels (combine : α → α → α) (leaves : List α) : ℕ → List α
  | 0 => leaves
  | h + 1 => level combine (levels combine leaves h)

/-- The number of nodes at a height above `n` leaves. -/
def width (n h : ℕ) : ℕ := (n + 2 ^ h - 1) / 2 ^ h

@[simp] theorem width_zero (n : ℕ) : width n 0 = n := by simp [width]

/-- A level is half as wide as the one below, rounded up. -/
theorem width_succ (n h : ℕ) : width n (h + 1) = (width n h + 1) / 2 := by
  have hpos : 0 < 2 ^ h := Nat.two_pow_pos h
  rw [width, width, pow_succ, ← Nat.div_div_eq_div_mul]
  congr 1
  rw [← Nat.add_div_right _ hpos]
  congr 1
  omega

/-- No level is empty. -/
theorem width_pos (hn : 0 < n) (h : ℕ) : 0 < width n h := by
  induction h with
  | zero => rwa [width_zero]
  | succ h ih => rw [width_succ]; omega

/-- No level is wider than the leaves. -/
theorem width_le (n h : ℕ) : width n h ≤ n := by
  induction h with
  | zero => rw [width_zero]
  | succ h ih => rw [width_succ]; omega

/-- At the height of the tree there is one node. -/
theorem width_le_one : width n h ≤ 1 ↔ n ≤ 2 ^ h := by
  have hpos : 0 < 2 ^ h := Nat.two_pow_pos h
  rw [width, Nat.lt_succ_iff.symm, Nat.div_lt_iff_lt_mul hpos]
  omega

/-- A node has a left child. -/
theorem left_lt (hi : i < width n (h + 1)) : 2 * i < width n h := by
  rw [width_succ] at hi
  omega

theorem length_level (xs : List α) : (level combine xs).length = (xs.length + 1) / 2 := by
  induction xs using level.induct with
  | case1 => simp [level]
  | case2 a => simp [level]
  | case3 a b rest ih =>
    rw [level, List.length_cons, ih, List.length_cons, List.length_cons]
    omega

/-- The levels have their widths. -/
theorem length_levels (leaves : List α) (h : ℕ) :
    (levels combine leaves h).length = width leaves.length h := by
  induction h with
  | zero => rw [width_zero]; rfl
  | succ h ih => rw [levels, length_level, ih, width_succ]

/-- A parent combines its children; a last child that is alone is taken twice. -/
theorem getElem?_level (xs : List α) (i : ℕ) : (level combine xs)[i]? =
    (xs[2 * i]?).map fun left => combine left ((xs[2 * i + 1]?).getD left) := by
  induction xs using level.induct generalizing i with
  | case1 => rfl
  | case2 a =>
    cases i with
    | zero => rfl
    | succ i => rfl
  | case3 a b rest ih =>
    cases i with
    | zero => rfl
    | succ i =>
      rw [level, List.getElem?_cons_succ, ih, Nat.mul_succ]
      rfl

/-- The root of a tree is the node of the first level that has only one. -/
def IsRoot (combine : α → α → α) (leaves : List α) (root : α) : Prop :=
  ∃ h, levels combine leaves h = [root] ∧ ∀ k < h, 1 < (levels combine leaves k).length

/-- A node, or some other value where there is none. -/
def node (combine : α → α → α) (leaves : List α) (missing : α) (h i : ℕ) : α :=
  ((levels combine leaves h)[i]?).getD missing

variable {leaves : List α} {missing : α}

/-- The levels hold the nodes. -/
theorem getElem?_levels (hi : i < width leaves.length h) :
    (levels combine leaves h)[i]? = some (node combine leaves missing h i) := by
  have hlt : i < (levels combine leaves h).length := by rwa [length_levels]
  rw [node, List.getElem?_eq_getElem hlt]
  rfl

/-- A node combines its children, the left one with itself if it is alone. -/
theorem node_succ (hi : i < width leaves.length (h + 1)) :
    node combine leaves missing (h + 1) i =
      combine (node combine leaves missing h (2 * i))
        (if 2 * i + 1 < width leaves.length h then node combine leaves missing h (2 * i + 1)
        else node combine leaves missing h (2 * i)) := by
  have hleft : (levels combine leaves h)[2 * i]? = some (node combine leaves missing h (2 * i)) :=
    getElem?_levels (left_lt hi)
  rw [node, levels, getElem?_level, hleft]
  by_cases hlt : 2 * i + 1 < width leaves.length h
  · have hright : (levels combine leaves h)[2 * i + 1]? =
        some (node combine leaves missing h (2 * i + 1)) := getElem?_levels hlt
    rw [hright, if_pos hlt]
    rfl
  · rw [List.getElem?_eq_none (by rw [length_levels]; omega), if_neg hlt]
    rfl

/-- The single node at the height of the tree is the root. -/
theorem isRoot_node (hpos : 0 < leaves.length) (hheight : leaves.length ≤ 2 ^ h)
    (hbelow : ∀ k < h, 2 ^ k < leaves.length) :
    IsRoot combine leaves (node combine leaves missing h 0) := by
  have hone : (levels combine leaves h).length = 1 := by
    rw [length_levels]
    exact Nat.le_antisymm (width_le_one.mpr hheight) (width_pos hpos h)
  refine ⟨h, ?_, fun k hk => ?_⟩
  · obtain ⟨a, ha⟩ := List.length_eq_one_iff.mp hone
    rw [node, ha]
    rfl
  · rw [length_levels]
    exact Nat.lt_of_not_le fun hle => Nat.not_le.mpr (hbelow k hk) (width_le_one.mp hle)

/-! ## Marked leaves -/

/-- Whether a leaf below a node is marked. -/
def marked (marks : List Bool) (h i : ℕ) : Bool := ((marks.drop (i * 2 ^ h)).take (2 ^ h)).any id

variable {marks : List Bool}

/-- A node is marked when a leaf below it is. -/
theorem marked_iff : marked marks h i = true ↔ ∃ p, p / 2 ^ h = i ∧ marks[p]? = some true := by
  have hpos : 0 < 2 ^ h := Nat.two_pow_pos h
  have hdiv : ∀ p, p / 2 ^ h = i ↔ i * 2 ^ h ≤ p ∧ p < i * 2 ^ h + 2 ^ h := by
    intro p
    rw [Nat.div_eq_iff hpos]
    omega
  simp only [marked, List.any_eq_true, id_eq, List.mem_iff_getElem?]
  constructor
  · rintro ⟨b, ⟨k, hk⟩, rfl⟩
    rw [List.getElem?_take] at hk
    split at hk
    · rw [List.getElem?_drop] at hk
      exact ⟨i * 2 ^ h + k, (hdiv _).mpr ⟨Nat.le_add_right _ _, by omega⟩, hk⟩
    · exact nomatch hk
  · rintro ⟨p, hp, hmark⟩
    obtain ⟨hle, hlt⟩ := (hdiv p).mp hp
    refine ⟨true, ⟨p - i * 2 ^ h, ?_⟩, rfl⟩
    rw [List.getElem?_take, if_pos (by omega), List.getElem?_drop, Nat.add_sub_cancel' hle]
    exact hmark

@[simp] theorem marked_zero : marked marks 0 i = true ↔ marks[i]? = some true := by
  rw [marked_iff]
  simp

/-- Only nodes of the tree have marked leaves below them. -/
theorem lt_width_of_marked (hmarked : marked marks h i = true) : i < width marks.length h := by
  obtain ⟨p, rfl, hmark⟩ := marked_iff.mp hmarked
  have hlt := (List.getElem?_eq_some_iff.mp hmark).1
  have hpos : 0 < 2 ^ h := Nat.two_pow_pos h
  rw [width, Nat.lt_iff_add_one_le, Nat.le_div_iff_mul_le hpos, Nat.succ_mul]
  have := Nat.div_mul_le_self p (2 ^ h)
  omega

/-- A leaf is below a node if it is below one of its children. -/
theorem marked_succ :
    marked marks (h + 1) i = (marked marks h (2 * i) || marked marks h (2 * i + 1)) := by
  have hdiv : ∀ p, p / 2 ^ (h + 1) = i ↔ p / 2 ^ h = 2 * i ∨ p / 2 ^ h = 2 * i + 1 := by
    intro p
    rw [pow_succ, ← Nat.div_div_eq_div_mul]
    omega
  rw [Bool.eq_iff_iff, Bool.or_eq_true, marked_iff, marked_iff, marked_iff, ← exists_or]
  refine exists_congr fun p => ?_
  rw [hdiv, or_and_right]

/-- The last marked leaf below a node. -/
structure LastMarked (marks : List Bool) (h i p : ℕ) : Prop where
  below : p / 2 ^ h = i
  mark : marks[p]? = some true
  last : ∀ q, p < q → q / 2 ^ h = i → marks[q]? ≠ some true

/-- Below a node there is one last marked leaf. -/
theorem LastMarked.unique {q : ℕ} (hp : LastMarked marks h i p) (hq : LastMarked marks h i q) :
    p = q := by
  rcases Nat.lt_trichotomy p q with hlt | heq | hlt
  · exact absurd hq.mark (hp.last q hlt hq.below)
  · exact heq
  · exact absurd hp.mark (hq.last p hlt hp.below)

/-- A node with a last marked leaf is marked. -/
theorem LastMarked.marked (hp : LastMarked marks h i p) : marked marks h i = true :=
  marked_iff.mpr ⟨p, hp.below, hp.mark⟩

theorem LastMarked.zero (hmark : marks[i]? = some true) : LastMarked marks 0 i i where
  below := by rw [pow_zero, Nat.div_one]
  mark := hmark
  last := by
    intro q hlt hq
    rw [pow_zero, Nat.div_one] at hq
    omega

/-- The last marked leaf is below the right child if there is one below it. -/
theorem LastMarked.right (hp : LastMarked marks h (2 * i + 1) p) :
    LastMarked marks (h + 1) i p where
  below := by
    rw [pow_succ, ← Nat.div_div_eq_div_mul, hp.below]
    omega
  mark := hp.mark
  last := by
    intro q hlt hq
    have hle : p / 2 ^ h ≤ q / 2 ^ h := Nat.div_le_div_right hlt.le
    rw [pow_succ, ← Nat.div_div_eq_div_mul] at hq
    rw [hp.below] at hle
    exact hp.last q hlt (by omega)

/-- Without a marked leaf on the right the last one is on the left. -/
theorem LastMarked.left (hp : LastMarked marks h (2 * i) p)
    (hnone : MerkleTree.marked marks h (2 * i + 1) = false) : LastMarked marks (h + 1) i p where
  below := by
    rw [pow_succ, ← Nat.div_div_eq_div_mul, hp.below]
    omega
  mark := hp.mark
  last := by
    intro q hlt hq hmark
    rw [pow_succ, ← Nat.div_div_eq_div_mul] at hq
    rcases (by omega : q / 2 ^ h = 2 * i ∨ q / 2 ^ h = 2 * i + 1) with hq | hq
    · exact hp.last q hlt hq hmark
    · rw [marked_iff.mpr ⟨q, hq, hmark⟩] at hnone
      exact nomatch hnone

/-- Below a marked node there is a last marked leaf. -/
theorem exists_lastMarked (hmarked : marked marks h i = true) : ∃ p, LastMarked marks h i p := by
  induction h generalizing i with
  | zero => exact ⟨i, .zero (marked_zero.mp hmarked)⟩
  | succ h ih =>
    rw [marked_succ, Bool.or_eq_true] at hmarked
    cases hright : marked marks h (2 * i + 1) with
    | true =>
      obtain ⟨p, hp⟩ := ih hright
      exact ⟨p, hp.right⟩
    | false =>
      obtain ⟨p, hp⟩ := ih (hmarked.resolve_right (by rw [hright]; decide))
      exact ⟨p, hp.left hright⟩

/-- The last marked leaf is on the right if one is marked there, and on the left if not. -/
theorem LastMarked.of_succ (hp : LastMarked marks (h + 1) i p) :
    LastMarked marks h (2 * i + 1) p ∨
      MerkleTree.marked marks h (2 * i + 1) = false ∧ LastMarked marks h (2 * i) p := by
  cases hright : MerkleTree.marked marks h (2 * i + 1) with
  | true =>
    obtain ⟨q, hq⟩ := exists_lastMarked hright
    rw [hp.unique hq.right]
    exact .inl hq
  | false =>
    have hleft := hp.marked
    rw [marked_succ, hright, Bool.or_false] at hleft
    obtain ⟨q, hq⟩ := exists_lastMarked hleft
    rw [hp.unique (hq.left hright)]
    exact .inr ⟨rfl, hq⟩

/-! ## Partial trees -/

section PartialTree

variable (n : ℕ) (marks : List Bool) (node : ℕ → ℕ → α)

/-- The flags of the nodes visited from a node on. -/
def flags : ℕ → ℕ → List Bool
  | 0, i => [marked marks 0 i]
  | h + 1, i =>
    if marked marks (h + 1) i then
      true :: (flags h (2 * i) ++ if 2 * i + 1 < width n h then flags h (2 * i + 1) else [])
    else [false]

/-- The values of the nodes below which nothing is visited. -/
def kept : ℕ → ℕ → List α
  | 0, i => [node 0 i]
  | h + 1, i =>
    if marked marks (h + 1) i then
      kept h (2 * i) ++ if 2 * i + 1 < width n h then kept h (2 * i + 1) else []
    else [node (h + 1) i]

variable {n marks node}

/-- A marked node is flagged, and so are its children in turn. -/
theorem flags_of_marked (hmarked : marked marks (h + 1) i = true) :
    flags n marks (h + 1) i =
      true :: (flags n marks h (2 * i) ++
        if 2 * i + 1 < width n h then flags n marks h (2 * i + 1) else []) := by
  rw [flags, if_pos hmarked]

/-- Below an unmarked node nothing is flagged. -/
theorem flags_of_unmarked (hmarked : marked marks h i = false) : flags n marks h i = [false] := by
  cases h with
  | zero => rw [flags, hmarked]
  | succ h => rw [flags, hmarked, if_neg Bool.false_ne_true]

/-- Of a marked node what is kept is below its children. -/
theorem kept_of_marked (hmarked : marked marks (h + 1) i = true) :
    kept n marks node (h + 1) i =
      kept n marks node h (2 * i) ++
        if 2 * i + 1 < width n h then kept n marks node h (2 * i + 1) else [] := by
  rw [kept, if_pos hmarked]

/-- An unmarked node is kept itself. -/
theorem kept_of_unmarked (hmarked : marked marks h i = false) :
    kept n marks node h i = [node h i] := by
  cases h with
  | zero => rw [kept]
  | succ h => rw [kept, hmarked, if_neg Bool.false_ne_true]

variable (n marks node)

/-- Each value that is kept has a flag. -/
theorem length_kept_le (h i : ℕ) :
    (kept n marks node h i).length ≤ (flags n marks h i).length := by
  induction h generalizing i with
  | zero => exact le_rfl
  | succ h ih =>
    have hleft := ih (2 * i)
    have hright := ih (2 * i + 1)
    rw [kept, flags]
    split
    · simp only [List.length_cons, List.length_append]
      split
      · omega
      · simp only [List.length_nil]
        omega
    · exact le_rfl

end PartialTree

end Core.MerkleTree
