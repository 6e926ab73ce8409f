import Interbtc.Core.MerkleTree
import Mathlib.Data.List.Nodup
import Mathlib.Data.Nat.Log

/-!
# What a Merkle root stands for

A root and a number of leaves stand for a tree: where the combined values can be told apart,
the values of the children of a node follow from the value of the node. The tree of another
number of leaves than those the root was computed from has other nodes at its right border.
-/

namespace Core.MerkleTree

variable {α : Type} {combine : α → α → α} {used : α → α → Prop} {n height h i k j : ℕ} {v : α}

/-! ## Pairs that are combined -/

/-- The pairs of which a level of parents is combined. -/
def siblings : List α → List (α × α)
  | [] => []
  | [a] => [(a, a)]
  | a :: b :: rest => (a, b) :: siblings rest

/-- The children of a node are next to each other, the last one twice if it is alone. -/
theorem getElem?_siblings (xs : List α) (i : ℕ) : (siblings xs)[i]? =
    (xs[2 * i]?).map fun left => (left, (xs[2 * i + 1]?).getD left) := by
  induction xs using siblings.induct generalizing i with
  | case1 => rfl
  | case2 a =>
    cases i with
    | zero => rfl
    | succ i => rfl
  | case3 a b rest ih =>
    cases i with
    | zero => rfl
    | succ i =>
      rw [siblings, List.getElem?_cons_succ, ih, Nat.mul_succ]
      rfl

/-- All pairs that are combined on the way from the leaves to a height are in use. -/
def UsedBelow (combine : α → α → α) (used : α → α → Prop) (leaves : List α) (height : ℕ) : Prop :=
  ∀ h < height, ∀ pair ∈ siblings (levels combine leaves h), used pair.1 pair.2

/-- Different pairs in use are combined to different values. -/
def Binding (combine : α → α → α) (used : α → α → Prop) : Prop :=
  ∀ a b c d, used a b → used c d → combine a b = combine c d → a = c ∧ b = d

variable {leaves : List α} {missing : α}

/-- The value of the right child of a node, which is that of the left one if it is alone. -/
def rightChild (combine : α → α → α) (leaves : List α) (missing : α) (h i : ℕ) : α :=
  if 2 * i + 1 < width leaves.length h then node combine leaves missing h (2 * i + 1)
  else node combine leaves missing h (2 * i)

/-- The children of every node below the root are used. -/
theorem UsedBelow.children (hused : UsedBelow combine used leaves height) (hh : h < height)
    (hi : i < width leaves.length (h + 1)) :
    used (node combine leaves missing h (2 * i)) (rightChild combine leaves missing h i) := by
  have hleft : (levels combine leaves h)[2 * i]? = some (node combine leaves missing h (2 * i)) :=
    getElem?_levels (left_lt hi)
  have hmem : (node combine leaves missing h (2 * i), rightChild combine leaves missing h i) ∈
      siblings (levels combine leaves h) := by
    refine List.mem_iff_getElem?.mpr ⟨i, ?_⟩
    rw [getElem?_siblings, hleft, rightChild]
    by_cases hlt : 2 * i + 1 < width leaves.length h
    · have hright : (levels combine leaves h)[2 * i + 1]? =
          some (node combine leaves missing h (2 * i + 1)) := getElem?_levels hlt
      rw [hright, if_pos hlt]
      rfl
    · rw [List.getElem?_eq_none (by rw [length_levels]; omega), if_neg hlt]
      rfl
  exact hused h hh _ hmem

/-- A node combines its children. -/
theorem node_succ_eq (hi : i < width leaves.length (h + 1)) :
    node combine leaves missing (h + 1) i =
      combine (node combine leaves missing h (2 * i)) (rightChild combine leaves missing h i) :=
  node_succ hi

/-- Above different leaves, the nodes of a level are different. -/
theorem node_injective (hbinding : Binding combine used)
    (hused : UsedBelow combine used leaves height) (hdistinct : leaves.Nodup) (hh : h ≤ height)
    (hi : i < width leaves.length h) (hj : j < width leaves.length h)
    (heq : node combine leaves missing h i = node combine leaves missing h j) : i = j := by
  induction h generalizing i j with
  | zero =>
    rw [width_zero] at hi hj
    simp only [node, levels, List.getElem?_eq_getElem, hi, hj, Option.getD_some] at heq
    exact (List.Nodup.getElem_inj_iff hdistinct).mp heq
  | succ h ih =>
    rw [node_succ_eq hi, node_succ_eq hj] at heq
    obtain ⟨hleft, _⟩ := hbinding _ _ _ _ (hused.children hh hi) (hused.children hh hj) heq
    have := ih (Nat.le_of_succ_le hh) (left_lt hi) (left_lt hj) hleft
    omega

/-- The levels of a level are the levels above it. -/
theorem levels_levels (leaves : List α) (h k : ℕ) :
    levels combine (levels combine leaves h) k = levels combine leaves (h + k) := by
  induction k with
  | zero => rfl
  | succ k ih => rw [levels, ih, ← Nat.add_assoc, levels]

/-- What is used below the root is used below it from every level. -/
theorem UsedBelow.levels (hused : UsedBelow combine used leaves height) (d : ℕ) :
    UsedBelow combine used (levels combine leaves d) (height - d) := by
  intro h hh pair hpair
  rw [levels_levels] at hpair
  exact hused (d + h) (by omega) pair hpair

/-- The height of a root is the number of times that the number of leaves is halved. -/
theorem IsRoot.levels_clog {root : α} (hroot : IsRoot combine leaves root) :
    MerkleTree.levels combine leaves (Nat.clog 2 leaves.length) = [root] := by
  obtain ⟨h, hlevel, hbelow⟩ := hroot
  have hone : width leaves.length h ≤ 1 :=
    ((length_levels leaves h).symm.trans (congrArg List.length hlevel)).le
  have hle : Nat.clog 2 leaves.length ≤ h := Nat.clog_le_of_le_pow (width_le_one.mp hone)
  rcases Nat.eq_or_lt_of_le hle with heq | hlt
  · rw [heq, hlevel]
  · have hlong := hbelow _ hlt
    rw [length_levels] at hlong
    exact absurd (width_le_one.mpr (Nat.le_pow_clog Nat.one_lt_two _)) (Nat.not_le.mpr hlong)

/-! ## Opened nodes -/

/-- The values of the children of a node of a tree of `n` leaves. -/
structure Children (combine : α → α → α) (used : α → α → Prop) (n h i : ℕ) (v left right : α) :
    Prop where
  combined : v = combine left right
  used : used left right
  alone : ¬ 2 * i + 1 < width n h → right = left

/-- The nodes below a node of a tree of `n` leaves. -/
inductive Opens (combine : α → α → α) (used : α → α → Prop) (n height pos : ℕ) (root : α) :
    ℕ → ℕ → α → Prop
  | root : Opens combine used n height pos root height pos root
  | left {h i : ℕ} {v left right : α} : Opens combine used n height pos root (h + 1) i v →
      Children combine used n h i v left right →
      Opens combine used n height pos root h (2 * i) left
  | right {h i : ℕ} {v left right : α} : Opens combine used n height pos root (h + 1) i v →
      Children combine used n h i v left right → 2 * i + 1 < width n h →
      Opens combine used n height pos root h (2 * i + 1) right

variable {pos : ℕ} {root left right : α}

/-- What is opened is in the tree. -/
theorem Opens.height_le (hopens : Opens combine used n height pos root h i v) : h ≤ height := by
  induction hopens with
  | root => exact le_rfl
  | left _ _ ih => exact Nat.le_of_succ_le ih
  | right _ _ _ ih => exact Nat.le_of_succ_le ih

/-- A position that is opened is within its level. -/
theorem Opens.lt_width (hopens : Opens combine used n height pos root h i v)
    (hpos : pos < width n height) : i < width n h := by
  induction hopens with
  | root => exact hpos
  | left _ _ ih => exact left_lt ih
  | right _ _ hlt _ => exact hlt

/-- Positions below a node begin with its position. -/
theorem Opens.div_eq (hopens : Opens combine used n height pos root h i v) :
    i / 2 ^ (height - h) = pos := by
  induction hopens with
  | root => rw [Nat.sub_self, pow_zero, Nat.div_one]
  | @left h i v left right hparent _ ih =>
    have hlt := hparent.height_le
    rw [← Nat.succ_pred_eq_of_pos (Nat.sub_pos_of_lt hlt), Nat.pow_succ', ← Nat.div_div_eq_div_mul,
      Nat.mul_div_cancel_left _ Nat.two_pos]
    exact ih
  | @right h i v left right hparent _ _ ih =>
    have hlt := hparent.height_le
    rw [← Nat.succ_pred_eq_of_pos (Nat.sub_pos_of_lt hlt), Nat.pow_succ', ← Nat.div_div_eq_div_mul,
      Nat.mul_add_div Nat.two_pos, Nat.div_eq_of_lt Nat.one_lt_two, Nat.add_zero]
    exact ih

/-- What is below a node is the node itself, or below one of its children. -/
theorem Opens.cases_child (hopens : Opens combine used n (height + 1) pos root h i v) :
    (h = height + 1 ∧ i = pos ∧ v = root) ∨
      ∃ left right, Children combine used n height pos root left right ∧
        (Opens combine used n height (2 * pos) left h i v ∨
          2 * pos + 1 < width n height ∧
            Opens combine used n height (2 * pos + 1) right h i v) := by
  induction hopens with
  | root => exact .inl ⟨rfl, rfl, rfl⟩
  | @left h i v l r _ hchildren ih =>
    right
    rcases ih with ⟨hh, rfl, rfl⟩ | ⟨left, right, hroot, hbelow | ⟨hlt, hbelow⟩⟩
    · cases hh
      exact ⟨l, r, hchildren, .inl .root⟩
    · exact ⟨left, right, hroot, .inl (hbelow.left hchildren)⟩
    · exact ⟨left, right, hroot, .inr ⟨hlt, hbelow.left hchildren⟩⟩
  | @right h i v l r _ hchildren hpresent ih =>
    right
    rcases ih with ⟨hh, rfl, rfl⟩ | ⟨left, right, hroot, hbelow | ⟨hlt, hbelow⟩⟩
    · cases hh
      exact ⟨l, r, hchildren, .inr ⟨hpresent, .root⟩⟩
    · exact ⟨left, right, hroot, .inl (hbelow.right hchildren hpresent)⟩
    · exact ⟨left, right, hroot, .inr ⟨hlt, hbelow.right hchildren hpresent⟩⟩

/-- Where combining is binding a node has one pair of children. -/
theorem Children.unique {left' right' : α} (hbinding : Binding combine used)
    (hchildren : Children combine used n h i v left right)
    (hchildren' : Children combine used n h i v left' right') : left = left' ∧ right = right' :=
  hbinding _ _ _ _ hchildren.used hchildren'.used
    (hchildren.combined.symm.trans hchildren'.combined)

/-! ## Opened trees -/

section Leaves

variable (hbinding : Binding combine used) (hused : UsedBelow combine used leaves height)
  (hroot : levels combine leaves height = [root])

include hroot

/-- The top level has one node. -/
theorem width_height : width leaves.length height = 1 :=
  (length_levels leaves height).symm.trans (congrArg List.length hroot)

/-- A tree with a root has leaves. -/
theorem length_pos_of_root : 0 < leaves.length := by
  have hone := width_height hroot
  have hle := width_le leaves.length height
  omega

/-- The node at the top is the root. -/
theorem node_height : node combine leaves missing height 0 = root := by
  rw [node, hroot]
  rfl

include hused

/-- A tree of at least as many leaves has all the nodes that the root was computed from. -/
theorem opens_node (hle : leaves.length ≤ n) (hh : h ≤ height)
    (hi : i < width leaves.length h) :
    Opens combine used n height 0 root h i (node combine leaves missing h i) := by
  induction hk : height - h generalizing h i with
  | zero =>
    obtain rfl : h = height := by omega
    obtain rfl : i = 0 := by rw [width_height hroot] at hi; omega
    rw [node_height hroot]
    exact .root
  | succ k ih =>
    have hwidth : width leaves.length h ≤ width n h :=
      Nat.div_le_div_right (Nat.sub_le_sub_right (Nat.add_le_add_right hle _) _)
    have hparent : i / 2 < width leaves.length (h + 1) := by
      rw [width_succ]
      omega
    have hopens := ih (by omega) hparent (by omega)
    have hchildren : Children combine used n h (i / 2)
        (node combine leaves missing (h + 1) (i / 2)) (node combine leaves missing h (2 * (i / 2)))
        (rightChild combine leaves missing h (i / 2)) :=
      ⟨node_succ_eq hparent, hused.children (by omega) hparent, fun halone =>
        if_neg fun hlt => halone (hlt.trans_le hwidth)⟩
    rcases Nat.mod_two_eq_zero_or_one i with heven | hodd
    · have hdouble : 2 * (i / 2) = i := by omega
      have hleft := hopens.left hchildren
      rwa [hdouble] at hleft
    · have hdouble : 2 * (i / 2) + 1 = i := by omega
      have hright := hopens.right hchildren (by rw [hdouble]; exact hi.trans_le hwidth)
      rw [rightChild, if_pos (by rwa [hdouble]), hdouble] at hright
      exact hright

include hbinding

/-- All values of a tree are values of nodes that the root was computed from. -/
theorem Opens.mem_levels (hopens : Opens combine used n height 0 root h i v) :
    v ∈ levels combine leaves h := by
  have hsplit : ∀ {h i v left right}, h < height → v ∈ levels combine leaves (h + 1) →
      Children combine used n h i v left right →
      left ∈ levels combine leaves h ∧ right ∈ levels combine leaves h := by
    intro h i v left right hh hv hchildren
    obtain ⟨j, hj, rfl⟩ := List.getElem_of_mem hv
    rw [length_levels] at hj
    have hnode := @node_succ_eq _ combine _ _ _ root hj
    rw [node, List.getElem?_eq_getElem (by rwa [length_levels]), Option.getD_some] at hnode
    obtain ⟨rfl, rfl⟩ := hbinding _ _ _ _ hchildren.used (hused.children hh hj)
      (hchildren.combined.symm.trans hnode)
    refine ⟨List.mem_of_getElem? (getElem?_levels (left_lt hj)), ?_⟩
    rw [rightChild]
    split
    · next hlt => exact List.mem_of_getElem? (getElem?_levels hlt)
    · exact List.mem_of_getElem? (getElem?_levels (left_lt hj))
  induction hopens with
  | root => rw [hroot]; exact List.mem_cons_self
  | left hparent hchildren ih => exact (hsplit hparent.height_le ih hchildren).1
  | right hparent hchildren _ ih => exact (hsplit hparent.height_le ih hchildren).2

/-- A tree of at most as many leaves has only nodes that the root was computed from. -/
theorem Opens.eq_node (hle : n ≤ leaves.length) (hpos : 0 < n)
    (hopens : Opens combine used n height 0 root h i v) :
    v = node combine leaves missing h i := by
  have hwidth : ∀ h, width n h ≤ width leaves.length h := fun h =>
    Nat.div_le_div_right (Nat.sub_le_sub_right (Nat.add_le_add_right hle _) _)
  induction hopens with
  | root => exact (node_height hroot).symm
  | @left h i v left right hparent hchildren ih =>
    have hi := (hparent.lt_width (width_pos hpos _)).trans_le (hwidth _)
    rw [node_succ_eq hi] at ih
    exact (hbinding _ _ _ _ hchildren.used (hused.children hparent.height_le hi)
      (hchildren.combined.symm.trans ih)).1
  | @right h i v left right hparent hchildren hlt ih =>
    have hi := (hparent.lt_width (width_pos hpos _)).trans_le (hwidth _)
    rw [node_succ_eq hi] at ih
    have hright := (hbinding _ _ _ _ hchildren.used (hused.children hparent.height_le hi)
      (hchildren.combined.symm.trans ih)).2
    rwa [rightChild, if_pos (hlt.trans_le (hwidth h))] at hright

end Leaves

/-! ## First nodes -/

/-- What is above the first node of a height is the first node of the next one. -/
theorem Opens.parent_zero (hopens : Opens combine used n height pos root h 0 v)
    (hh : h < height) : ∃ above right, Opens combine used n height pos root (h + 1) 0 above ∧
      Children combine used n h 0 above v right := by
  generalize hi : 0 = i at hopens
  cases hopens with
  | root => exact absurd hh (lt_irrefl _)
  | @left _ i above _ right hparent hchildren =>
    obtain rfl : i = 0 := by omega
    exact ⟨above, right, hparent, hchildren⟩
  | right hparent hchildren hlt => omega

/-- A property of the first leaf, and of all that is combined, is one of all first nodes. -/
theorem Opens.climb {P : α → Prop} {leaf : α}
    (hopens : Opens combine used n height pos root 0 0 leaf) (hleaf : P leaf)
    (hcombine : ∀ left right, used left right → P (combine left right)) (hh : h ≤ height) :
    ∃ v, Opens combine used n height pos root h 0 v ∧ P v := by
  induction h with
  | zero => exact ⟨leaf, hopens, hleaf⟩
  | succ h ih =>
    obtain ⟨v, hv, -⟩ := ih (Nat.le_of_succ_le hh)
    obtain ⟨above, right, habove, hchildren⟩ := hv.parent_zero hh
    refine ⟨above, habove, ?_⟩
    rw [hchildren.combined]
    exact hcombine v right hchildren.used

section First

variable (hbinding : Binding combine used) (hused : UsedBelow combine used leaves height)
  (hroot : levels combine leaves height = [root])

include hused

/-- A node above the leaves is combined of its children. -/
theorem UsedBelow.exists_children (hh : h < height)
    (hv : v ∈ MerkleTree.levels combine leaves (h + 1)) :
    ∃ left ∈ MerkleTree.levels combine leaves h, ∃ right, used left right ∧
      v = combine left right := by
  obtain ⟨i, hi, rfl⟩ := List.getElem_of_mem hv
  rw [length_levels] at hi
  have hnode := @node_succ_eq _ combine _ _ _ ((MerkleTree.levels combine leaves (h + 1))[i]) hi
  rw [node, List.getElem?_eq_getElem (by rwa [length_levels]), Option.getD_some] at hnode
  exact ⟨_, List.mem_of_getElem? (getElem?_levels (left_lt hi)), _, hused.children hh hi, hnode⟩

/-- A property of the leaves, and of all that is combined, is one of all nodes. -/
theorem UsedBelow.forall_levels {P : α → Prop} (hleaves : ∀ leaf ∈ leaves, P leaf)
    (hcombine : ∀ left right, used left right → P (combine left right)) (hh : h ≤ height) :
    ∀ v ∈ MerkleTree.levels combine leaves h, P v := by
  cases h with
  | zero => exact hleaves
  | succ h =>
    intro v hv
    obtain ⟨left, -, right, hpair, rfl⟩ := hused.exists_children hh hv
    exact hcombine left right hpair

include hroot hbinding

/-- The first nodes at the top of a higher tree are those that the root was computed from. -/
theorem Opens.first_node {d : ℕ} (hopens : Opens combine used n (height + d) pos root h 0 v)
    (hd : d ≤ h) : v = node combine leaves missing (h - d) 0 := by
  generalize hi : 0 = i at hopens
  induction hopens with
  | root =>
    rw [Nat.add_sub_cancel, ← hi]
    exact (node_height hroot).symm
  | @left h i v left right hparent hchildren ih =>
    obtain rfl : i = 0 := by omega
    have hlt : h - d < height := by
      have := hparent.height_le
      omega
    have hwidth : 0 < width leaves.length (h - d + 1) := width_pos (length_pos_of_root hroot) _
    have habove := ih (by omega) rfl
    rw [Nat.succ_sub hd, node_succ_eq hwidth] at habove
    exact (hbinding _ _ _ _ hchildren.used (hused.children hlt hwidth)
      (hchildren.combined.symm.trans habove)).1
  | @right h i v left right hparent hchildren hlt ih => omega

/-- The first leaf of a tree tells the height of the tree, if nothing that is combined looks like
a first leaf. -/
theorem Opens.height_eq {claimed : ℕ} {leaf : α} (P first : α → Prop)
    (hleaves : ∀ leaf ∈ leaves, P leaf)
    (hcombine : ∀ left right, used left right → P (combine left right))
    (hnever : ∀ left right, used left right → P left → ¬ first (combine left right))
    (hhead : ∀ leaf ∈ leaves.head?, first leaf)
    (hopens : Opens combine used n claimed 0 root 0 0 leaf) (hleaf : P leaf)
    (hfirst : first leaf) : claimed = height := by
  rcases Nat.lt_trichotomy claimed height with hlt | heq | hlt
  · -- the leaf is an inner node of the tree
    exfalso
    have htop : levels combine (levels combine leaves (height - claimed)) claimed = [root] := by
      rw [levels_levels, Nat.sub_add_cancel hlt.le]
      exact hroot
    have hbelow := hused.levels (height - claimed)
    rw [Nat.sub_sub_self hlt.le] at hbelow
    have hmem : leaf ∈ levels combine (levels combine leaves (height - claimed)) 0 :=
      hopens.mem_levels hbinding hbelow htop
    rw [levels] at hmem
    obtain ⟨k, hk⟩ : ∃ k, height - claimed = k + 1 := ⟨height - claimed - 1, by omega⟩
    rw [hk] at hmem
    obtain ⟨left, hleft, right, hpair, rfl⟩ := hused.exists_children (by omega) hmem
    exact hnever left right hpair (hused.forall_levels hleaves hcombine (by omega) left hleft) hfirst
  · exact heq
  · -- the first leaf of the tree is an inner node of the claimed one
    exfalso
    obtain ⟨d, rfl⟩ : ∃ d, claimed = height + (d + 1) := ⟨claimed - height - 1, by omega⟩
    obtain ⟨v, hv, hP⟩ := hopens.climb hleaf hcombine (show d ≤ height + (d + 1) by omega)
    obtain ⟨above, right, habove, hchildren⟩ := hv.parent_zero (by omega)
    have hnode : above = node combine leaves root (d + 1 - (d + 1)) 0 :=
      habove.first_node hbinding hused hroot le_rfl
    rw [Nat.sub_self] at hnode
    have hpos := length_pos_of_root hroot
    have hmem : above ∈ leaves.head? := by
      rw [hnode, node, levels, List.head?_eq_getElem?, List.getElem?_eq_getElem hpos]
      rfl
    have hlook := hhead above hmem
    rw [hchildren.combined] at hlook
    exact hnever v right hchildren.used hP hlook

end First

/-! ## Repeated nodes -/

/-- No node has two present children of one value. -/
def NoTwins (combine : α → α → α) (used : α → α → Prop) (n height : ℕ) (root : α) : Prop :=
  ∀ h i v c, Opens combine used n height 0 root (h + 1) i v →
    Children combine used n h i v c c → ¬ 2 * i + 1 < width n h

/-- A leaf value is at one position only. -/
def OncePlaced (combine : α → α → α) (used : α → α → Prop) (n height : ℕ) (root leaf : α) :
    Prop :=
  ∀ p q, Opens combine used n height 0 root 0 p leaf →
    Opens combine used n height 0 root 0 q leaf → p = q

section Fewer

variable (hbinding : Binding combine used) (hused : UsedBelow combine used leaves height)
  (hroot : levels combine leaves height = [root]) (hdistinct : leaves.Nodup)
  (hle : n ≤ leaves.length) (hpos : 0 < n)

include hbinding hused hroot hdistinct hle hpos

/-- At most as many leaves, where they are different, have different values at each height. -/
theorem Opens.injective (hi : Opens combine used n height 0 root h i v)
    (hj : Opens combine used n height 0 root h j v) : i = j := by
  have hwidth : width n h ≤ width leaves.length h :=
    Nat.div_le_div_right (Nat.sub_le_sub_right (Nat.add_le_add_right hle _) _)
  have htop := width_pos hpos height
  have hnode : node combine leaves root h i = node combine leaves root h j :=
    (hi.eq_node hbinding hused hroot hle hpos).symm.trans
      (hj.eq_node hbinding hused hroot hle hpos)
  exact node_injective hbinding hused hdistinct hi.height_le
    ((hi.lt_width htop).trans_le hwidth) ((hj.lt_width htop).trans_le hwidth) hnode

/-- With a count of at most the leaves, which are different, no twins are opened. -/
theorem noTwins_of_le : NoTwins combine used n height root := by
  intro h i v c hopens hchildren hlt
  have := (hopens.left hchildren).injective hbinding hused hroot hdistinct hle hpos
    (hopens.right hchildren hlt)
  omega

/-- With a count of at most the leaves, which are different, each is opened once. -/
theorem oncePlaced_of_le (leaf : α) : OncePlaced combine used n height root leaf :=
  fun _ _ hp hq => hp.injective hbinding hused hroot hdistinct hle hpos hq

end Fewer

/-- If the last level has more nodes in the larger tree, some level first does. -/
theorem exists_wider {m : ℕ} (hlt : m < n) (htop : width n height ≤ width m height) :
    ∃ h < height, width m h < width n h ∧ width n (h + 1) ≤ width m (h + 1) := by
  induction height with
  | zero =>
    rw [width_zero, width_zero] at htop
    omega
  | succ height ih =>
    by_cases hle : width n height ≤ width m height
    · obtain ⟨h, hh, hwider⟩ := ih hle
      exact ⟨h, Nat.lt_succ_of_lt hh, hwider⟩
    · exact ⟨height, Nat.lt_succ_self _, Nat.lt_of_not_le hle, htop⟩

/-- A tree of more leaves has a node whose only child is taken for two. -/
theorem not_noTwins (hused : UsedBelow combine used leaves height)
    (hroot : levels combine leaves height = [root]) (hlt : leaves.length < n)
    (hheight : n ≤ 2 ^ height) : ¬ NoTwins combine used n height root := by
  intro hnone
  have htop : width n height ≤ width leaves.length height := by
    rw [width_height hroot]
    exact width_le_one.mpr hheight
  obtain ⟨h, hh, hwider, habove⟩ := exists_wider hlt htop
  rw [width_succ, width_succ] at habove
  have hi : width leaves.length h / 2 < width leaves.length (h + 1) := by
    rw [width_succ]
    omega
  have halone : ¬ 2 * (width leaves.length h / 2) + 1 < width leaves.length h := by omega
  have hchildren : Children combine used n h (width leaves.length h / 2)
      (node combine leaves root (h + 1) (width leaves.length h / 2))
      (node combine leaves root h (2 * (width leaves.length h / 2)))
      (node combine leaves root h (2 * (width leaves.length h / 2))) := by
    have hnode := @node_succ_eq _ combine _ _ _ root hi
    have hpair : used (node combine leaves root h (2 * (width leaves.length h / 2)))
        (rightChild combine leaves root h (width leaves.length h / 2)) := hused.children hh hi
    rw [rightChild, if_neg halone] at hnode hpair
    exact ⟨hnode, hpair, fun _ => rfl⟩
  exact hnone h _ _ _ (opens_node hused hroot hlt.le hh hi) hchildren (by omega)

end Core.MerkleTree
