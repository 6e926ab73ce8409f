import Interbtc.Bitcoin.MerkleComplete
import Interbtc.Core.Call
import Interbtc.Core.MerkleOpening

/-!
# Positions in a Merkle tree

A proof names the number of leaves of the tree itself. The traversal does not compare the two
children of a node that has both: a tree with an odd level also has the root of a larger tree in
which the last node of that level is there twice.
-/

namespace Interbtc

open Core Core.MerkleTree MerkleTree

/-- An inner node that a traversal looks below: the height of its children, its position, and
the hashes that are combined. -/
structure InnerNode where
  height : ℕ
  pos : ℕ
  left : H256Le
  right : H256Le
  deriving DecidableEq

namespace MerkleProof

/-- The inner nodes that a traversal looks below, from a node on. -/
def innerNodesFrom (sha256d : List UInt8 → H256Le) (proof : MerkleProof) :
    ℕ → ℕ → MerkleProofTraversal → List InnerNode
  | 0, _, _ => []
  | height + 1, pos, traversal =>
    if proof.flagBits[traversal.bitsUsed]? = some true then
      let entered := { traversal with bitsUsed := traversal.bitsUsed + 1 }
      match proof.traverseAndExtract sha256d height (2 * pos) entered with
      | .error _ => []
      | .ok (left, middle) =>
        innerNodesFrom sha256d proof height (2 * pos) entered ++
          if 2 * pos + 1 < computeWidth proof.transactionsCount.toNat height then
            match proof.traverseAndExtract sha256d height (2 * pos + 1) middle with
            | .error _ => []
            | .ok (right, _) =>
              ⟨height, pos, left, right⟩ ::
                innerNodesFrom sha256d proof height (2 * pos + 1) middle
          else [⟨height, pos, left, left⟩]
    else []

/-- The inner nodes of a proof. -/
def innerNodes (sha256d : List UInt8 → H256Le) (proof : MerkleProof) : List InnerNode :=
  proof.innerNodesFrom sha256d (computeHeight proof.transactionsCount.toNat) 0 ⟨0, 0, none, none⟩

end MerkleProof

/-- The right child of a node is in the tree. -/
def InnerNode.Present (node : InnerNode) (transactionsCount : ℕ) : Prop :=
  2 * node.pos + 1 < computeWidth transactionsCount node.height

instance (node : InnerNode) (transactionsCount : ℕ) : Decidable (node.Present transactionsCount) :=
  inferInstanceAs (Decidable (_ < _))

/-- Two hashes are combined where the hash of their bytes is known. -/
def Known (known : Set (List UInt8)) (left right : H256Le) : Prop :=
  left.toBytesLe ++ right.toBytesLe ∈ known

/-- A proof is accepted for a root and a number of transactions. All that is hashed of its inner
nodes is known. -/
structure AcceptedProof (sha256d : List UInt8 → H256Le) (known : Set (List UInt8)) (root : H256Le)
    (txCount : ℕ) (proof : PartialTransactionProof) (result : ProofResult) : Prop where
  verified : proof.verifyProof sha256d = .ok result
  extractedRoot : result.extractedRoot = root
  count : result.txCount = txCount
  hashed : ∀ node ∈ proof.merkleProof.innerNodes sha256d, Known known node.left node.right

/-- Accepted proofs never have a transaction at two positions, nor an inner node with a right
child that repeats the left one. -/
structure Unambiguous (sha256d : List UInt8 → H256Le) (known : Set (List UInt8)) (root : H256Le)
    (txCount : ℕ) : Prop where
  position : ∀ first second result result',
    AcceptedProof sha256d known root txCount first result →
    AcceptedProof sha256d known root txCount second result' →
    result.transactionHash = result'.transactionHash →
    result.transactionPosition = result'.transactionPosition
  children : ∀ proof result, AcceptedProof sha256d known root txCount proof result →
    ∀ node ∈ proof.merkleProof.innerNodes sha256d, node.Present txCount → node.left ≠ node.right

/-- There is a transaction of an id. -/
def IsTxId (sha256d : List UInt8 → H256Le) (id : H256Le) : Prop :=
  ∃ tx : Transaction, tx.txId sha256d = id

variable {sha256d : List UInt8 → H256Le} {known : Set (List UInt8)} {proof : MerkleProof}
  {height pos : ℕ} {value : H256Le} {before after : MerkleProofTraversal}

/-! ## Reading -/

private theorem checkedU32_eq_ok {n m : ℕ} (h : checkedU32 n = .ok m) : m = n := by
  rw [checkedU32] at h
  split at h
  · exact (Except.ok.inj h).symm
  · exact nomatch h

/-- A traversal of an inner node takes its hash, or looks below it. -/
theorem traverseAndExtract_succ_eq_ok
    (hrun : proof.traverseAndExtract sha256d (height + 1) pos before = .ok (value, after)) :
    (proof.flagBits[before.bitsUsed]? = some false ∧
        proof.takeHash (height + 1) pos false
          { before with bitsUsed := before.bitsUsed + 1 } = .ok (value, after)) ∨
      proof.flagBits[before.bitsUsed]? = some true ∧ ∃ left middle right,
        proof.traverseAndExtract sha256d height (2 * pos)
          { before with bitsUsed := before.bitsUsed + 1 } = .ok (left, middle) ∧
        value = hash256MerkleStep sha256d left right ∧
        if 2 * pos + 1 < computeWidth proof.transactionsCount.toNat height then
          proof.traverseAndExtract sha256d height (2 * pos + 1) middle = .ok (right, after)
        else right = left ∧ after = middle := by
  rw [MerkleProof.traverseAndExtract] at hrun
  cases hflag : proof.flagBits[before.bitsUsed]? with
  | none =>
    rw [hflag] at hrun
    cases hrun
  | some flag =>
    rw [hflag] at hrun
    dsimp only at hrun
    cases flag with
    | false => exact .inl ⟨rfl, hrun⟩
    | true =>
      rw [if_neg (by decide)] at hrun
      obtain ⟨leftIndex, hindex, hrun⟩ := except_bind_eq_ok.mp hrun
      obtain rfl := checkedU32_eq_ok hindex
      obtain ⟨rightIndex, hindex', hrun⟩ := except_bind_eq_ok.mp hrun
      obtain rfl := checkedU32_eq_ok hindex'
      rw [Nat.mul_comm pos] at hrun
      obtain ⟨⟨left, middle⟩, hleft, hrest⟩ := except_bind_eq_ok.mp hrun
      dsimp only at hrest
      refine .inr ⟨rfl, left, middle, ?_⟩
      by_cases hlt : 2 * pos + 1 < computeWidth proof.transactionsCount.toNat height
      · rw [if_pos hlt] at hrest
        obtain ⟨⟨right, last⟩, hright, hrest⟩ := except_bind_eq_ok.mp hrest
        cases hrest
        exact ⟨right, hleft, rfl, by rwa [if_pos hlt]⟩
      · rw [if_neg hlt] at hrest
        cases hrest
        exact ⟨left, hleft, rfl, by rw [if_neg hlt]; exact ⟨rfl, rfl⟩⟩

private theorem takeHash_eq_ok {flag : Bool}
    (hrun : proof.takeHash height pos flag before = .ok (value, after)) :
    proof.hashes[before.hashesUsed]? = some value ∧
      if height = 0 ∧ flag then
        after.merklePosition = some pos ∧ after.hashPosition = some before.hashesUsed
      else after.merklePosition = before.merklePosition ∧
        after.hashPosition = before.hashPosition := by
  rw [MerkleProof.takeHash] at hrun
  cases hhash : proof.hashes[before.hashesUsed]? with
  | none =>
    rw [hhash] at hrun
    cases hrun
  | some hash =>
    rw [hhash] at hrun
    cases hrun
    refine ⟨rfl, ?_⟩
    split
    · exact ⟨rfl, rfl⟩
    · exact ⟨rfl, rfl⟩

/-! ## Soundness -/

/-- The nodes of the tree of a number of leaves that a root stands for. -/
def OpensTo (sha256d : List UInt8 → H256Le) (known : Set (List UInt8)) (txCount : ℕ)
    (root : H256Le) : ℕ → ℕ → H256Le → Prop :=
  Opens (hash256MerkleStep sha256d) (Known known) txCount (computeHeight txCount) 0 root

/-- The children of an inner node are the children of a node of the tree. -/
def InnerNode.Opened (sha256d : List UInt8 → H256Le) (known : Set (List UInt8)) (txCount : ℕ)
    (root : H256Le) (node : InnerNode) : Prop :=
  ∃ value, OpensTo sha256d known txCount root (node.height + 1) node.pos value ∧
    Children (hash256MerkleStep sha256d) (Known known) txCount node.height node.pos value node.left
      node.right

/-- A traversal finds no transaction, or one that is a leaf of the tree. -/
def Finds (sha256d : List UInt8 → H256Le) (known : Set (List UInt8)) (proof : MerkleProof)
    (root : H256Le) (before after : MerkleProofTraversal) : Prop :=
  (after.merklePosition = before.merklePosition ∧ after.hashPosition = before.hashPosition) ∨
    ∃ p k id, after.merklePosition = some p ∧ after.hashPosition = some k ∧
      proof.hashes[k]? = some id ∧ OpensTo sha256d known proof.transactionsCount.toNat root 0 p id

private theorem Finds.trans {middle : MerkleProofTraversal} {root : H256Le}
    (hfirst : Finds sha256d known proof root before middle)
    (hsecond : Finds sha256d known proof root middle after) :
    Finds sha256d known proof root before after := by
  rcases hsecond with ⟨hposition, hhash⟩ | hfound
  · rw [Finds, hposition, hhash]
    exact hfirst
  · exact .inr hfound

/-- A traversal that starts at a node of the tree visits nodes of the tree. -/
theorem traverseAndExtract_opens {root : H256Le}
    (hrun : proof.traverseAndExtract sha256d height pos before = .ok (value, after))
    (hknown : ∀ node ∈ proof.innerNodesFrom sha256d height pos before,
      Known known node.left node.right)
    (hopens : OpensTo sha256d known proof.transactionsCount.toNat root height pos value) :
    (∀ node ∈ proof.innerNodesFrom sha256d height pos before,
        node.Opened sha256d known proof.transactionsCount.toNat root) ∧
      Finds sha256d known proof root before after := by
  induction height generalizing pos before after value with
  | zero =>
    refine ⟨fun node hnode => (by cases hnode), ?_⟩
    rw [MerkleProof.traverseAndExtract] at hrun
    cases hflag : proof.flagBits[before.bitsUsed]? with
    | none =>
      rw [hflag] at hrun
      cases hrun
    | some flag =>
      rw [hflag] at hrun
      obtain ⟨hhash, hfound⟩ := takeHash_eq_ok hrun
      split at hfound
      · exact .inr ⟨pos, before.hashesUsed, value, hfound.1, hfound.2, hhash, hopens⟩
      · exact .inl hfound
  | succ height ih =>
    rcases traverseAndExtract_succ_eq_ok hrun with
      ⟨hflag, htake⟩ | ⟨hflag, left, middle, right, hleft, rfl, hright⟩
    · obtain ⟨_, hfound⟩ := takeHash_eq_ok htake
      rw [if_neg fun h => Nat.succ_ne_zero _ h.1] at hfound
      refine ⟨fun node hnode => ?_, .inl hfound⟩
      rw [MerkleProof.innerNodesFrom, hflag, if_neg (by decide)] at hnode
      cases hnode
    · rw [MerkleProof.innerNodesFrom, if_pos hflag] at hknown ⊢
      dsimp only at hknown ⊢
      rw [hleft] at hknown ⊢
      dsimp only at hknown ⊢
      by_cases hlt : 2 * pos + 1 < computeWidth proof.transactionsCount.toNat height
      · rw [if_pos hlt] at hright hknown ⊢
        rw [hright] at hknown ⊢
        dsimp only at hknown ⊢
        have hchildren : Children (hash256MerkleStep sha256d) (Known known)
            proof.transactionsCount.toNat height pos (hash256MerkleStep sha256d left right)
            left right :=
          ⟨rfl, hknown ⟨height, pos, left, right⟩
            (List.mem_append_right _ List.mem_cons_self), fun halone =>
              absurd (computeWidth_eq _ _ ▸ hlt) halone⟩
        obtain ⟨hnodesLeft, hfindsLeft⟩ := ih hleft
          (fun node hnode => hknown node (List.mem_append_left _ hnode)) (hopens.left hchildren)
        obtain ⟨hnodesRight, hfindsRight⟩ := ih hright
          (fun node hnode => hknown node
            (List.mem_append_right _ (List.mem_cons_of_mem _ hnode)))
          (hopens.right hchildren (computeWidth_eq _ _ ▸ hlt))
        refine ⟨fun node hnode => ?_, Finds.trans hfindsLeft hfindsRight⟩
        rcases List.mem_append.mp hnode with hnode | hnode
        · exact hnodesLeft node hnode
        · rcases List.mem_cons.mp hnode with rfl | hnode
          · exact ⟨_, hopens, hchildren⟩
          · exact hnodesRight node hnode
      · rw [if_neg hlt] at hright hknown ⊢
        obtain ⟨rfl, rfl⟩ := hright
        have hchildren : Children (hash256MerkleStep sha256d) (Known known)
            proof.transactionsCount.toNat height pos (hash256MerkleStep sha256d right right)
            right right :=
          ⟨rfl, hknown ⟨height, pos, right, right⟩
            (List.mem_append_right _ List.mem_cons_self), fun _ => rfl⟩
        obtain ⟨hnodesLeft, hfindsLeft⟩ := ih hleft
          (fun node hnode => hknown node (List.mem_append_left _ hnode)) (hopens.left hchildren)
        refine ⟨fun node hnode => ?_, hfindsLeft⟩
        rcases List.mem_append.mp hnode with hnode | hnode
        · exact hnodesLeft node hnode
        · obtain rfl := List.mem_singleton.mp hnode
          exact ⟨_, hopens, hchildren⟩

/-! ## Writing -/

/-- A traversal looks below an inner node whose flag is set. -/
theorem traverseAndExtract_succ_of_flag {left right : H256Le} {middle : MerkleProofTraversal}
    (hcount : proof.transactionsCount.toNat ≤ maxU32)
    (hpos : pos < width proof.transactionsCount.toNat (height + 1))
    (hflag : proof.flagBits[before.bitsUsed]? = some true)
    (hleft : proof.traverseAndExtract sha256d height (2 * pos)
      { before with bitsUsed := before.bitsUsed + 1 } = .ok (left, middle))
    (hright : if 2 * pos + 1 < computeWidth proof.transactionsCount.toNat height then
        proof.traverseAndExtract sha256d height (2 * pos + 1) middle = .ok (right, after)
      else right = left ∧ after = middle) :
    proof.traverseAndExtract sha256d (height + 1) pos before =
      .ok (hash256MerkleStep sha256d left right, after) := by
  obtain ⟨hleftIndex, hrightIndex⟩ := checkedU32_children hcount hpos
  rw [MerkleProof.traverseAndExtract, hflag]
  change (checkedU32 (pos * 2) >>= fun leftIndex => checkedU32 (leftIndex + 1) >>= _) = _
  rw [hleftIndex]
  change (checkedU32 (2 * pos + 1) >>= _) = _
  rw [hrightIndex]
  change (proof.traverseAndExtract sha256d height (2 * pos) _ >>= _) = _
  rw [hleft]
  change (if 2 * pos + 1 < computeWidth proof.transactionsCount.toNat height then
    proof.traverseAndExtract sha256d height (2 * pos + 1) middle >>= _ else _) = _
  by_cases hlt : 2 * pos + 1 < computeWidth proof.transactionsCount.toNat height
  · rw [if_pos hlt] at hright ⊢
    rw [hright]
    rfl
  · rw [if_neg hlt] at hright ⊢
    obtain ⟨rfl, rfl⟩ := hright
    rfl

/-- Where a traversal finds a leaf, if it does. -/
def Locates (proof : MerkleProof) (before after : MerkleProofTraversal) (p : ℕ) :
    Option H256Le → Prop
  | none => after.merklePosition = before.merklePosition ∧ after.hashPosition = before.hashPosition
  | some id => after.merklePosition = some p ∧
      ∃ k, after.hashPosition = some k ∧ proof.hashes[k]? = some id

private theorem Locates.trans {middle : MerkleProofTraversal} {p : ℕ} {first second : Option H256Le}
    (hfirst : Locates proof before middle p first) (hsecond : Locates proof middle after p second) :
    Locates proof before after p (second.or first) := by
  cases second with
  | some id => exact hsecond
  | none =>
    obtain ⟨hposition, hhash⟩ := hsecond
    cases first with
    | none => exact ⟨hposition.trans hfirst.1, hhash.trans hfirst.2⟩
    | some id =>
      obtain ⟨hfound, k, hk, hget⟩ := hfirst
      exact ⟨hposition.trans hfound, k, hhash.trans hk, hget⟩

/-- Flags and hashes of which a traversal computes the value of a node. They go as far down as
the value stands for a tree, and mark one leaf. -/
structure Written (sha256d : List UInt8 → H256Le) (known : Set (List UInt8)) (txCount p height
    pos : ℕ) (value : H256Le) (flags : List Bool) (hashes : List H256Le) (nodes : List InnerNode)
    (found : Option H256Le) : Prop where
  read : ∀ proof before, proof.transactionsCount.toNat = txCount →
    flags <+: proof.flagBits.drop before.bitsUsed → hashes <+: proof.hashes.drop before.hashesUsed →
    ∃ after, proof.traverseAndExtract sha256d height pos before = .ok (value, after) ∧
      after.bitsUsed = before.bitsUsed + flags.length ∧
      after.hashesUsed = before.hashesUsed + hashes.length ∧
      proof.innerNodesFrom sha256d height pos before = nodes ∧ Locates proof before after p found
  length_le : hashes.length ≤ flags.length
  hashed : ∀ node ∈ nodes, Known known node.left node.right
  complete : ∀ h i v left right,
    Opens (hash256MerkleStep sha256d) (Known known) txCount height pos value (h + 1) i v →
    Children (hash256MerkleStep sha256d) (Known known) txCount h i v left right →
    ⟨h, i, left, right⟩ ∈ nodes
  leaf : ∀ id, Opens (hash256MerkleStep sha256d) (Known known) txCount height pos value 0 p id →
    found = some id
  below : found ≠ none → p / 2 ^ height = pos

variable {txCount p : ℕ} {flags : List Bool} {hashes : List H256Le} {nodes : List InnerNode}
  {found : Option H256Le}

private theorem written_leaf (value : H256Le) : Written sha256d known txCount p 0 pos value
    [decide (pos = p)] [value] [] (if pos = p then some value else none) where
  read := by
    intro proof before _ hflags hhashes
    have hhash := getElem?_of_prefix_drop hhashes
    rw [MerkleProof.traverseAndExtract, getElem?_of_prefix_drop hflags]
    dsimp only
    rw [MerkleProof.takeHash, hhash]
    dsimp only
    by_cases heq : pos = p
    · rw [if_pos heq, if_pos ⟨rfl, decide_eq_true heq⟩]
      exact ⟨_, rfl, rfl, rfl, rfl, congrArg some heq, before.hashesUsed, rfl, hhash⟩
    · rw [if_neg heq, if_neg fun h => heq (of_decide_eq_true h.2)]
      exact ⟨_, rfl, rfl, rfl, rfl, rfl, rfl⟩
  length_le := le_rfl
  hashed := fun node hnode => nomatch hnode
  complete := fun h i v left right hopens _ => absurd hopens.height_le (Nat.not_succ_le_zero h)
  leaf := by
    intro id hopens
    cases hopens with
    | root => rw [if_pos rfl]
    | left hparent _ => exact absurd hparent.height_le (Nat.not_succ_le_zero 0)
    | right hparent _ _ => exact absurd hparent.height_le (Nat.not_succ_le_zero 0)
  below := by
    intro hfound
    rw [pow_zero, Nat.div_one]
    by_contra hne
    exact hfound (if_neg fun h => hne h.symm)

/-- Below a value that is not a combination, there is nothing to look at. -/
theorem written_stop (hnone : ∀ left right, ¬ Children (hash256MerkleStep sha256d) (Known known)
      txCount height pos value left right) :
    Written sha256d known txCount p (height + 1) pos value [false] [value] [] none where
  read := by
    intro proof before _ hflags hhashes
    have hhash := getElem?_of_prefix_drop hhashes
    have hflag := getElem?_of_prefix_drop hflags
    rw [MerkleProof.traverseAndExtract, MerkleProof.innerNodesFrom, hflag, if_neg (by decide)]
    dsimp only
    rw [Bool.not_false, if_pos rfl, MerkleProof.takeHash, hhash]
    exact ⟨_, rfl, rfl, rfl, rfl, rfl, rfl⟩
  length_le := le_rfl
  hashed := fun node hnode => nomatch hnode
  complete := by
    intro h i v left right hopens hchildren
    rcases hopens.cases_child with ⟨hh, rfl, rfl⟩ | ⟨left', right', hroot, _⟩
    · cases hh
      exact absurd hchildren (hnone left right)
    · exact absurd hroot (hnone left' right')
  leaf := by
    intro id hopens
    rcases hopens.cases_child with ⟨hh, _⟩ | ⟨left', right', hroot, _⟩
    · cases hh
    · exact absurd hroot (hnone left' right')
  below := fun h => absurd rfl h

/-- An inner node with both children is written as its children, one after the other. -/
theorem Written.both {left right : H256Le} {flags' : List Bool} {hashes' : List H256Le}
    {nodes' : List InnerNode} {found' : Option H256Le} (hcount : txCount ≤ maxU32)
    (hpos : pos < width txCount (height + 1)) (hlt : 2 * pos + 1 < width txCount height)
    (hchildren : Children (hash256MerkleStep sha256d) (Known known) txCount height pos value left
      right)
    (hleft : Written sha256d known txCount p height (2 * pos) left flags hashes nodes found)
    (hright : Written sha256d known txCount p height (2 * pos + 1) right flags' hashes' nodes'
      found')
    (hbinding : Binding (hash256MerkleStep sha256d) (Known known)) :
    Written sha256d known txCount p (height + 1) pos value (true :: (flags ++ flags'))
      (hashes ++ hashes') (nodes ++ ⟨height, pos, left, right⟩ :: nodes') (found'.or found) where
  read := by
    intro proof before hproof hflags hhashes
    have hflag := getElem?_of_prefix_drop hflags
    obtain ⟨_, hflags⟩ := @prefix_drop_append _ [true] _ _ _ hflags
    obtain ⟨hflagsLeft, hflagsRight⟩ := prefix_drop_append hflags
    obtain ⟨hhashesLeft, hhashesRight⟩ := prefix_drop_append hhashes
    obtain ⟨middle, hextract, hbits, hused, hnodes, hfound⟩ := hleft.read proof
      { before with bitsUsed := before.bitsUsed + 1 } hproof hflagsLeft hhashesLeft
    dsimp only at hbits hused
    rw [List.length_singleton, ← hbits] at hflagsRight
    rw [← hused] at hhashesRight
    obtain ⟨after, hextract', hbits', hused', hnodes', hfound'⟩ := hright.read proof middle hproof
      hflagsRight hhashesRight
    have hwidth : 2 * pos + 1 < computeWidth proof.transactionsCount.toNat height := by
      rwa [computeWidth_eq, hproof]
    refine ⟨after, ?_, ?_, ?_, ?_, ?_⟩
    · rw [hchildren.combined]
      subst hproof
      exact traverseAndExtract_succ_of_flag hcount hpos hflag hextract (by rwa [if_pos hwidth])
    · rw [hbits', hbits, List.length_cons, List.length_append]
      omega
    · rw [hused', hused, List.length_append, Nat.add_assoc]
    · rw [MerkleProof.innerNodesFrom, if_pos hflag]
      dsimp only
      rw [hextract]
      dsimp only
      rw [if_pos hwidth, hextract', hnodes, hnodes']
    · exact Locates.trans hfound hfound'
  length_le := by
    have hleft := hleft.length_le
    have hright := hright.length_le
    rw [List.length_cons, List.length_append, List.length_append]
    omega
  hashed := by
    intro node hnode
    rcases List.mem_append.mp hnode with hnode | hnode
    · exact hleft.hashed node hnode
    · rcases List.mem_cons.mp hnode with rfl | hnode
      · exact hchildren.used
      · exact hright.hashed node hnode
  complete := by
    intro h i v l r hopens hnode
    rcases hopens.cases_child with ⟨hh, rfl, rfl⟩ | ⟨left', right', hroot, hbelow⟩
    · cases hh
      obtain ⟨rfl, rfl⟩ := hnode.unique hbinding hchildren
      exact List.mem_append_right _ List.mem_cons_self
    · obtain ⟨rfl, rfl⟩ := hroot.unique hbinding hchildren
      rcases hbelow with hbelow | ⟨_, hbelow⟩
      · exact List.mem_append_left _ (hleft.complete h i v l r hbelow hnode)
      · exact List.mem_append_right _
          (List.mem_cons_of_mem _ (hright.complete h i v l r hbelow hnode))
  leaf := by
    intro id hopens
    rcases hopens.cases_child with ⟨hh, _⟩ | ⟨left', right', hroot, hbelow⟩
    · exact nomatch hh
    · obtain ⟨rfl, rfl⟩ := hroot.unique hbinding hchildren
      rcases hbelow with hbelow | ⟨_, hbelow⟩
      · have hnone : found' = none := by
          by_contra hsome
          have hside := hright.below hsome
          have hside' := hbelow.div_eq
          rw [Nat.sub_zero] at hside'
          omega
        rw [hnone, hleft.leaf id hbelow]
        rfl
      · rw [hright.leaf id hbelow]
        rfl
  below := by
    intro hfound
    have hside : p / 2 ^ height = 2 * pos ∨ p / 2 ^ height = 2 * pos + 1 := by
      cases found' with
      | none => exact .inl (hleft.below hfound)
      | some id => exact .inr (hright.below (Option.some_ne_none id))
    rw [pow_succ, ← Nat.div_div_eq_div_mul]
    omega

/-- An inner node with one child is written as its child. -/
theorem Written.only {left right : H256Le} (hcount : txCount ≤ maxU32)
    (hpos : pos < width txCount (height + 1)) (hlt : ¬ 2 * pos + 1 < width txCount height)
    (hchildren : Children (hash256MerkleStep sha256d) (Known known) txCount height pos value left
      right)
    (hleft : Written sha256d known txCount p height (2 * pos) left flags hashes nodes found)
    (hbinding : Binding (hash256MerkleStep sha256d) (Known known)) :
    Written sha256d known txCount p (height + 1) pos value (true :: flags) hashes
      (nodes ++ [⟨height, pos, left, right⟩]) found where
  read := by
    intro proof before hproof hflags hhashes
    have hflag := getElem?_of_prefix_drop hflags
    obtain ⟨_, hflags⟩ := @prefix_drop_append _ [true] _ _ _ hflags
    obtain ⟨after, hextract, hbits, hused, hnodes, hfound⟩ := hleft.read proof
      { before with bitsUsed := before.bitsUsed + 1 } hproof hflags hhashes
    have hwidth : ¬ 2 * pos + 1 < computeWidth proof.transactionsCount.toNat height := by
      rwa [computeWidth_eq, hproof]
    refine ⟨after, ?_, ?_, hused, ?_, hfound⟩
    · rw [hchildren.combined]
      subst hproof
      exact traverseAndExtract_succ_of_flag hcount hpos hflag hextract
        (by rw [if_neg hwidth]; exact ⟨hchildren.alone hlt, rfl⟩)
    · rw [hbits, List.length_cons]
      dsimp only
      omega
    · rw [MerkleProof.innerNodesFrom, if_pos hflag]
      dsimp only
      rw [hextract]
      dsimp only
      rw [if_neg hwidth, hnodes, hchildren.alone hlt]
  length_le := hleft.length_le.trans (Nat.le_succ _)
  hashed := by
    intro node hnode
    rcases List.mem_append.mp hnode with hnode | hnode
    · exact hleft.hashed node hnode
    · obtain rfl := List.mem_singleton.mp hnode
      exact hchildren.used
  complete := by
    intro h i v l r hopens hnode
    rcases hopens.cases_child with ⟨hh, rfl, rfl⟩ | ⟨left', right', hroot, hbelow⟩
    · cases hh
      obtain ⟨rfl, rfl⟩ := hnode.unique hbinding hchildren
      exact List.mem_append_right _ List.mem_cons_self
    · obtain ⟨rfl, rfl⟩ := hroot.unique hbinding hchildren
      rcases hbelow with hbelow | ⟨hpresent, _⟩
      · exact List.mem_append_left _ (hleft.complete h i v l r hbelow hnode)
      · exact absurd hpresent hlt
  leaf := by
    intro id hopens
    rcases hopens.cases_child with ⟨hh, _⟩ | ⟨left', right', hroot, hbelow⟩
    · exact nomatch hh
    · obtain ⟨rfl, rfl⟩ := hroot.unique hbinding hchildren
      rcases hbelow with hbelow | ⟨hpresent, _⟩
      · exact hleft.leaf id hbelow
      · exact absurd hpresent hlt
  below := by
    intro hfound
    have hside := hleft.below hfound
    rw [pow_succ, ← Nat.div_div_eq_div_mul]
    omega

/-- Each node of a tree can be written. -/
theorem exists_written (hbinding : Binding (hash256MerkleStep sha256d) (Known known))
    (hcount : txCount ≤ maxU32) (p : ℕ) (value : H256Le) (hpos : pos < width txCount height) :
    ∃ flags hashes nodes found,
      Written sha256d known txCount p height pos value flags hashes nodes found := by
  induction height generalizing pos value with
  | zero => exact ⟨_, _, _, _, written_leaf value⟩
  | succ height ih =>
    by_cases hsplit : ∃ left right, Children (hash256MerkleStep sha256d) (Known known) txCount
        height pos value left right
    · obtain ⟨left, right, hchildren⟩ := hsplit
      obtain ⟨flags, hashes, nodes, found, hleft⟩ := ih left (left_lt hpos)
      by_cases hlt : 2 * pos + 1 < width txCount height
      · obtain ⟨flags', hashes', nodes', found', hright⟩ := ih right hlt
        exact ⟨_, _, _, _, hleft.both hcount hpos hlt hchildren hright hbinding⟩
      · exact ⟨_, _, _, _, hleft.only hcount hpos hlt hchildren hbinding⟩
    · exact ⟨_, _, _, _, written_stop fun left right h => hsplit ⟨left, right, h⟩⟩

/-! ## Accepted proofs -/

/-- What a proof that is verified has been checked for. -/
theorem PartialTransactionProof.verifyProof_eq_ok {self : PartialTransactionProof}
    {result : ProofResult} (hok : self.verifyProof sha256d = .ok result) :
    self.merkleProof.transactionsCount.toNat ≠ 0 ∧
      self.merkleProof.transactionsCount.toNat ≤ MAX_TRANSACTIONS_IN_PROOF ∧
      result.txCount = self.merkleProof.transactionsCount.toNat ∧
      self.transaction.txId sha256d = result.transactionHash ∧
      ∃ traversal k, self.merkleProof.traverseAndExtract sha256d
          (computeHeight self.merkleProof.transactionsCount.toNat) 0 ⟨0, 0, none, none⟩ =
            .ok (result.extractedRoot, traversal) ∧
        traversal.merklePosition = some result.transactionPosition ∧
        traversal.hashPosition = some k ∧
        self.merkleProof.hashes[k]? = some result.transactionHash := by
  rw [verifyProof] at hok
  dsimp only at hok
  by_cases hzero : self.merkleProof.transactionsCount.toNat = 0
  · rw [if_pos hzero] at hok
    cases hok
  rw [if_neg hzero] at hok
  by_cases hmax : self.merkleProof.transactionsCount.toNat > MAX_TRANSACTIONS_IN_PROOF
  · rw [if_pos hmax] at hok
    cases hok
  rw [if_neg hmax] at hok
  by_cases hlength : self.merkleProof.flagBits.length < self.merkleProof.hashes.length
  · rw [if_pos hlength] at hok
    cases hok
  rw [if_neg hlength] at hok
  obtain ⟨⟨root, traversal⟩, hextract, hok⟩ := except_bind_eq_ok.mp hok
  dsimp only at hok
  cases hposition : traversal.merklePosition with
  | none =>
    rw [hposition] at hok
    cases hok
  | some position =>
    cases hhash : traversal.hashPosition with
    | none =>
      rw [hposition, hhash] at hok
      cases hok
    | some k =>
      rw [hposition, hhash] at hok
      dsimp only at hok
      split at hok
      · cases hok
      split at hok
      · cases hok
      obtain ⟨txId, htxId, hok⟩ := except_bind_eq_ok.mp hok
      rw [Transaction.txIdBounded_eq] at htxId
      split at htxId
      · cases htxId
        cases hget : self.merkleProof.hashes[k]? with
        | none =>
          rw [hget] at hok
          cases hok
        | some hash =>
          rw [hget] at hok
          dsimp only at hok
          split at hok
          · cases hok
          · next heq =>
            cases hok
            exact ⟨hzero, Nat.le_of_not_lt hmax, rfl, (not_not.mp heq).symm, traversal, k,
              hextract, hposition, hhash, hget⟩
      · cases htxId

section Accepted

variable {root : H256Le}

/-- An accepted proof shows a part of the tree that its root stands for. -/
theorem AcceptedProof.opens {self : PartialTransactionProof} {result : ProofResult}
    (haccepted : AcceptedProof sha256d known root txCount self result) :
    txCount ≠ 0 ∧ txCount ≤ MAX_TRANSACTIONS_IN_PROOF ∧
      (∀ node ∈ self.merkleProof.innerNodes sha256d, node.Opened sha256d known txCount root) ∧
      OpensTo sha256d known txCount root 0 result.transactionPosition result.transactionHash ∧
      IsTxId sha256d result.transactionHash := by
  obtain ⟨hverified, rfl, rfl, hhashed⟩ := haccepted
  obtain ⟨hzero, hmax, hcount, htxId, traversal, k, hextract, hposition, hhash, hget⟩ :=
    PartialTransactionProof.verifyProof_eq_ok hverified
  rw [hcount]
  obtain ⟨hnodes, hfinds⟩ := traverseAndExtract_opens hextract hhashed .root
  refine ⟨hzero, hmax, hnodes, ?_, _, htxId⟩
  rcases hfinds with ⟨hnone, _⟩ | ⟨p, k', id, hp, hk, hid, hopens⟩
  · exact nomatch hposition.symm.trans hnone
  · cases hposition.symm.trans hp
    cases hhash.symm.trans hk
    cases hget.symm.trans hid
    exact hopens

/-- Each leaf of the tree that is a transaction has an accepted proof, which shows all of the
tree. -/
theorem exists_accepted (hbinding : Binding (hash256MerkleStep sha256d) (Known known))
    (hzero : txCount ≠ 0) (hmax : txCount ≤ MAX_TRANSACTIONS_IN_PROOF) {id : H256Le}
    (hopens : OpensTo sha256d known txCount root 0 p id) (htx : IsTxId sha256d id) :
    ∃ self result, AcceptedProof sha256d known root txCount self result ∧
      result.transactionHash = id ∧ result.transactionPosition = p ∧
      ∀ h i v left right, OpensTo sha256d known txCount root (h + 1) i v →
        Children (hash256MerkleStep sha256d) (Known known) txCount h i v left right →
        ⟨h, i, left, right⟩ ∈ self.merkleProof.innerNodes sha256d := by
  have hbound : txCount ≤ maxU32 := hmax.trans (by decide)
  obtain ⟨flags, hashes, nodes, found, hwritten⟩ := exists_written hbinding hbound p root
    (width_pos (Nat.pos_of_ne_zero hzero) (computeHeight txCount))
  obtain ⟨tx, rfl⟩ := htx
  have hcount : (UInt32.ofNat txCount).toNat = txCount :=
    UInt32.toNat_ofNat_of_lt' (Nat.lt_of_le_of_lt hmax (by decide))
  let proof : MerkleProof := ⟨.default, flags, .ofNat txCount, hashes⟩
  obtain ⟨after, hextract, hbits, hused, hnodes, hfound⟩ := hwritten.read proof
    ⟨0, 0, none, none⟩ hcount (List.prefix_refl _) (List.prefix_refl _)
  rw [hwritten.leaf _ hopens] at hfound
  obtain ⟨hposition, k, hhash, hget⟩ := hfound
  rw [Nat.zero_add] at hbits hused
  have hinner : proof.innerNodes sha256d = nodes := by
    rw [MerkleProof.innerNodes, hcount]
    exact hnodes
  have hproves : proof.Proves sha256d flags.length root p (tx.txId sha256d) := by
    refine ⟨after, k, ?_, hbits, hused, hposition, hhash, hget⟩
    rw [hcount]
    exact hextract
  have hverified := verifyProof_of_proves (hcount.trans_ne hzero) (hcount.trans_le hmax)
    hwritten.length_le hproves rfl
    (le_refl tx.formatNoWitness.length)
  rw [if_pos rfl] at hverified
  refine ⟨_, _, ⟨hverified, rfl, hcount, ?_⟩, rfl, rfl, ?_⟩
  · rw [hinner]
    exact hwritten.hashed
  · rw [hinner]
    exact hwritten.complete

/-- If a leaf is a transaction, its id is at one position only, and no node of the tree has two
equal children. -/
def Settled (sha256d : List UInt8 → H256Le) (known : Set (List UInt8)) (root : H256Le)
    (txCount : ℕ) : Prop :=
  ∀ p id, OpensTo sha256d known txCount root 0 p id → IsTxId sha256d id →
    OncePlaced (hash256MerkleStep sha256d) (Known known) txCount (computeHeight txCount) root id ∧
      NoTwins (hash256MerkleStep sha256d) (Known known) txCount (computeHeight txCount) root

/-- Whether proofs can be ambiguous is settled by the tree that a root stands for. -/
theorem unambiguous_iff (hbinding : Binding (hash256MerkleStep sha256d) (Known known)) :
    Unambiguous sha256d known root txCount ↔
      txCount = 0 ∨ MAX_TRANSACTIONS_IN_PROOF < txCount ∨ Settled sha256d known root txCount := by
  constructor
  · intro hunambiguous
    by_cases hzero : txCount = 0
    · exact .inl hzero
    by_cases hmax : MAX_TRANSACTIONS_IN_PROOF < txCount
    · exact .inr (.inl hmax)
    refine .inr (.inr fun p id hopens htx => ⟨fun q q' hq hq' => ?_, ?_⟩)
    · obtain ⟨first, result, hfirst, hhash, rfl, _⟩ :=
        exists_accepted hbinding hzero (Nat.le_of_not_lt hmax) hq htx
      obtain ⟨second, result', hsecond, hhash', rfl, _⟩ :=
        exists_accepted hbinding hzero (Nat.le_of_not_lt hmax) hq' htx
      exact hunambiguous.position _ _ _ _ hfirst hsecond (hhash.trans hhash'.symm)
    · intro h i v c hparent hchildren hlt
      obtain ⟨self, result, haccepted, _, _, hcomplete⟩ :=
        exists_accepted hbinding hzero (Nat.le_of_not_lt hmax) hopens htx
      exact hunambiguous.children _ _ haccepted _ (hcomplete h i v c c hparent hchildren)
        (by rwa [InnerNode.Present, computeWidth_eq]) rfl
  · rintro (rfl | hmax | hsettled)
    · exact ⟨fun _ _ _ _ h => absurd rfl h.opens.1, fun _ _ h => absurd rfl h.opens.1⟩
    · exact ⟨fun _ _ _ _ h => absurd h.opens.2.1 (Nat.not_le.mpr hmax),
        fun _ _ h => absurd h.opens.2.1 (Nat.not_le.mpr hmax)⟩
    · constructor
      · intro first second result result' hfirst hsecond heq
        obtain ⟨_, _, _, hopens, htx⟩ := hfirst.opens
        obtain ⟨_, _, _, hopens', _⟩ := hsecond.opens
        rw [← heq] at hopens'
        exact (hsettled _ _ hopens htx).1 _ _ hopens hopens'
      · rintro self result haccepted ⟨h, i, left, right⟩ hnode hpresent heq
        dsimp only at heq
        subst heq
        obtain ⟨_, _, hnodes, hopens, htx⟩ := haccepted.opens
        obtain ⟨v, hparent, hchildren⟩ := hnodes _ hnode
        rw [InnerNode.Present, computeWidth_eq] at hpresent
        exact (hsettled _ _ hopens htx).2 h i v left hparent hchildren hpresent

end Accepted

/-! ## The root of a list of ids -/

/-- Bytes whose hashes are all different bind hashes that are combined. -/
theorem binding_known (hfree : Set.InjOn sha256d known) :
    Binding (hash256MerkleStep sha256d) (Known known) := by
  intro a b c d hab hcd heq
  have hbytes := hfree hab hcd heq
  obtain ⟨hleft, hright⟩ := List.append_inj hbytes (by
    rw [H256Le.length_toBytesLe, H256Le.length_toBytesLe])
  exact ⟨H256Le.toBytesLe_injective hleft, H256Le.toBytesLe_injective hright⟩

private theorem computeHeight_eq_clog (hcount : txCount ≤ maxU32) :
    computeHeight txCount = Nat.clog 2 txCount := by
  obtain ⟨hheight, hbelow⟩ := computeHeight_spec hcount
  refine Nat.le_antisymm (Nat.le_of_not_lt fun hlt => ?_) (Nat.clog_le_of_le_pow hheight)
  exact absurd (Nat.le_pow_clog Nat.one_lt_two txCount) (Nat.not_le.mpr (hbelow _ hlt))

/-- The nodes of the tree of some ids at the height that a number of transactions gives to its
leaves. -/
def claimedLeaves (sha256d : List UInt8 → H256Le) (txIds : List H256Le) (txCount : ℕ) :
    List H256Le :=
  levels (hash256MerkleStep sha256d) txIds (Nat.clog 2 txIds.length - Nat.clog 2 txCount)

/-- A number of transactions fits the root of some ids. A tree that is not higher has at most as
many leaves as there are nodes in their place, unless none of these is a transaction. A tree
that is higher has its leaves below the ids. -/
def FitsRoot (sha256d : List UInt8 → H256Le) (known : Set (List UInt8)) (txIds : List H256Le)
    (root : H256Le) (txCount : ℕ) : Prop :=
  if Nat.clog 2 txCount ≤ Nat.clog 2 txIds.length then
    txCount ≤ (claimedLeaves sha256d txIds txCount).length ∨
      ∀ id ∈ claimedLeaves sha256d txIds txCount, ¬ IsTxId sha256d id
  else Settled sha256d known root txCount

variable {txIds : List H256Le} {root : H256Le}

/-- Where the claimed tree is not higher, it is settled if it has no more leaves than there are
nodes in their place, or none that is a transaction. -/
theorem settled_iff (hbinding : Binding (hash256MerkleStep sha256d) (Known known))
    (hdistinct : txIds.Nodup) (hroot : IsRoot (hash256MerkleStep sha256d) txIds root)
    (hused : UsedBelow (hash256MerkleStep sha256d) (Known known) txIds
      (Nat.clog 2 txIds.length))
    (hzero : txCount ≠ 0) (hmax : txCount ≤ MAX_TRANSACTIONS_IN_PROOF)
    (hheight : Nat.clog 2 txCount ≤ Nat.clog 2 txIds.length) :
    Settled sha256d known root txCount ↔
      txCount ≤ (claimedLeaves sha256d txIds txCount).length ∨
        ∀ id ∈ claimedLeaves sha256d txIds txCount, ¬ IsTxId sha256d id := by
  have hclog := computeHeight_eq_clog (hmax.trans (by decide))
  have hleaves : levels (hash256MerkleStep sha256d) (claimedLeaves sha256d txIds txCount)
      (computeHeight txCount) = [root] := by
    rw [claimedLeaves, levels_levels, hclog, Nat.sub_add_cancel hheight]
    exact hroot.levels_clog
  have hclaimed : UsedBelow (hash256MerkleStep sha256d) (Known known)
      (claimedLeaves sha256d txIds txCount) (computeHeight txCount) := by
    have hlevels := hused.levels (Nat.clog 2 txIds.length - Nat.clog 2 txCount)
    rw [Nat.sub_sub_self hheight] at hlevels
    rw [hclog]
    exact hlevels
  have hnodup : (claimedLeaves sha256d txIds txCount).Nodup := by
    refine List.nodup_iff_getElem?_ne_getElem?.mpr fun i j hlt hj heq => ?_
    rw [claimedLeaves, length_levels] at hj
    rw [claimedLeaves, getElem?_levels (hlt.trans hj), getElem?_levels hj] at heq
    have hnode : node (hash256MerkleStep sha256d) txIds root _ i = node _ txIds root _ j :=
      Option.some.inj heq
    exact absurd (node_injective hbinding hused hdistinct (Nat.sub_le _ _) (hlt.trans hj) hj hnode)
      hlt.ne
  constructor
  · intro hsettled
    by_cases hle : txCount ≤ (claimedLeaves sha256d txIds txCount).length
    · exact .inl hle
    refine .inr fun id hid htx => ?_
    obtain ⟨p, hp, rfl⟩ := List.getElem_of_mem hid
    have hopens : OpensTo sha256d known txCount root 0 p (node (hash256MerkleStep sha256d)
        (claimedLeaves sha256d txIds txCount) root 0 p) :=
      opens_node hclaimed hleaves (Nat.le_of_not_le hle) (Nat.zero_le _) (by rwa [width_zero])
    have hleaf : node (hash256MerkleStep sha256d) (claimedLeaves sha256d txIds txCount) root 0 p =
        (claimedLeaves sha256d txIds txCount)[p] := by
      rw [node, levels, List.getElem?_eq_getElem hp]
      rfl
    rw [hleaf] at hopens
    exact not_noTwins hclaimed hleaves (Nat.lt_of_not_le hle)
      (computeHeight_spec (hmax.trans (by decide))).1 (hsettled p _ hopens htx).2
  · rintro (hle | hnone)
    · exact fun p id _ _ => ⟨oncePlaced_of_le hbinding hclaimed hleaves hnodup hle
        (Nat.pos_of_ne_zero hzero) id, noTwins_of_le hbinding hclaimed hleaves hnodup hle
        (Nat.pos_of_ne_zero hzero)⟩
    · intro p id hopens htx
      have hmem := hopens.mem_levels hbinding hclaimed hleaves
      exact absurd htx (hnone id hmem)

/-- For the root of every list of different ids, and hashes that do not collide: accepted proofs
of a claimed number of transactions are unambiguous exactly where no proof of that number is
accepted at all, or the number fits the root. -/
theorem merkle_positions_unambiguous (sha256d : List UInt8 → H256Le) (known : Set (List UInt8))
    (hfree : Set.InjOn sha256d known) (txIds : List H256Le) (root : H256Le)
    (hdistinct : txIds.Nodup) (hroot : IsRoot (hash256MerkleStep sha256d) txIds root)
    (hused : UsedBelow (hash256MerkleStep sha256d) (Known known) txIds
      (Nat.clog 2 txIds.length)) (txCount : ℕ) :
    Unambiguous sha256d known root txCount ↔
      txCount = 0 ∨ MAX_TRANSACTIONS_IN_PROOF < txCount ∨
        FitsRoot sha256d known txIds root txCount := by
  have hbinding := binding_known hfree
  rw [unambiguous_iff hbinding]
  by_cases hzero : txCount = 0
  · exact iff_of_true (.inl hzero) (.inl hzero)
  by_cases hmax : MAX_TRANSACTIONS_IN_PROOF < txCount
  · exact iff_of_true (.inr (.inl hmax)) (.inr (.inl hmax))
  refine or_congr Iff.rfl (or_congr Iff.rfl ?_)
  rw [FitsRoot]
  split
  · next hheight =>
    exact settled_iff hbinding hdistinct hroot hused hzero (Nat.le_of_not_lt hmax) hheight
  · exact Iff.rfl

/-! ## Three transactions -/

namespace Sample

/-- For an example the hash of a list of bytes is a number written with them as digits. -/
def digest (bytes : List UInt8) : H256Le :=
  .fromInteger (bytes.foldl (fun acc b => 31 * acc + b.toNat) 0)

/-- A transaction that pays an amount. -/
def paying (value : Int64) : Transaction :=
  ⟨1, [⟨.coinbase none, [0x51], 0, []⟩], [⟨value, ⟨[0x51]⟩⟩], .blockHeight 0⟩

/-- A block of three transactions. -/
def payments : List Transaction := [paying 10, paying 20, paying 30]

/-- The ids of the three. -/
def paymentIds : List H256Le := payments.map (Transaction.txId digest)

/-- The root above the three. -/
def paymentsRoot : H256Le := txNode digest paymentIds 2 0

/-- The bytes of the hashes that are combined for the root. -/
def combined : List (List UInt8) :=
  (siblings paymentIds ++ siblings (levels (hash256MerkleStep digest) paymentIds 1)).map
    fun pair => pair.1.toBytesLe ++ pair.2.toBytesLe

/-- The bytes that were hashed. -/
def hashedBytes : Set (List UInt8) := { bytes | bytes ∈ combined }

private theorem digest_injOn : Set.InjOn digest hashedBytes := by
  have hlist : ∀ x ∈ combined, ∀ y ∈ combined, digest x = digest y → x = y := by decide +kernel
  exact fun x hx y hy => hlist x hx y hy

private theorem paymentIds_nodup : paymentIds.Nodup := by decide +kernel

private theorem isRoot_payments : IsRoot (hash256MerkleStep digest) paymentIds paymentsRoot :=
  ⟨2, by decide +kernel, by decide +kernel⟩

private theorem usedBelow_payments : UsedBelow (hash256MerkleStep digest) (Known hashedBytes)
    paymentIds
    (Nat.clog 2 paymentIds.length) := by
  have hheight : Nat.clog 2 paymentIds.length = 2 := by decide +kernel
  have hlist : ∀ h < 2, ∀ pair ∈ siblings (levels (hash256MerkleStep digest) paymentIds h),
      pair.1.toBytesLe ++ pair.2.toBytesLe ∈ combined := by decide +kernel
  rw [hheight]
  exact hlist

/-- With the right count the three are unambiguous. -/
theorem payments_unambiguous : Unambiguous digest hashedBytes paymentsRoot 3 :=
  (merkle_positions_unambiguous digest hashedBytes digest_injOn paymentIds paymentsRoot
    paymentIds_nodup isRoot_payments usedBelow_payments 3).mpr
      (.inr (.inr (by
        rw [FitsRoot, if_pos (by decide +kernel)]
        exact .inl (by decide +kernel))))

/-- A proof of the third of four transactions, whose fourth repeats it, that marks one of the
two. -/
def repeated (marks : List Bool) : PartialTransactionProof where
  transaction := paying 30
  txEncodedLen := 1000
  merkleProof :=
    { blockHeader := .default
      transactionsCount := 4
      flagBits := [true, false, true] ++ marks
      hashes := [txNode digest paymentIds 1 0, (paying 30).txId digest, (paying 30).txId digest] }

/-- What is proven of the repeated transaction at a position. -/
def repeatedAt (position : ℕ) : ProofResult where
  extractedRoot := paymentsRoot
  transactionHash := (paying 30).txId digest
  transactionPosition := position
  transaction := paying 30
  txCount := 4
  blockHash := BlockHeader.default.hash

private theorem acceptedProof_repeated {marks : List Bool} {position : ℕ}
    (hverified : (repeated marks).verifyProof digest = .ok (repeatedAt position))
    (hhashed : ∀ node ∈ (repeated marks).merkleProof.innerNodes digest,
      node.left.toBytesLe ++ node.right.toBytesLe ∈ combined) :
    AcceptedProof digest hashedBytes paymentsRoot 4 (repeated marks) (repeatedAt position) :=
  ⟨hverified, rfl, rfl, hhashed⟩

/-- Of a block of three transactions, the third is also proven to be the fourth of four, by
proofs with a node whose right child repeats the left one. -/
theorem third_transaction_twice :
    Set.InjOn digest hashedBytes ∧ paymentIds.Nodup ∧
      IsRoot (hash256MerkleStep digest) paymentIds paymentsRoot ∧
      (∃ first second result result',
        AcceptedProof digest hashedBytes paymentsRoot 4 first result ∧
        AcceptedProof digest hashedBytes paymentsRoot 4 second result' ∧
        result.transactionHash = result'.transactionHash ∧
        result.transactionPosition = 2 ∧ result'.transactionPosition = 3 ∧
        ∃ node ∈ first.merkleProof.innerNodes digest,
          node.Present 4 ∧ node.left = node.right) ∧
      ¬ Unambiguous digest hashedBytes paymentsRoot 4 := by
  have hthird : AcceptedProof digest hashedBytes paymentsRoot 4 (repeated [true, false])
      (repeatedAt 2) := acceptedProof_repeated (by decide +kernel) (by decide +kernel)
  have hfourth : AcceptedProof digest hashedBytes paymentsRoot 4 (repeated [false, true])
      (repeatedAt 3) := acceptedProof_repeated (by decide +kernel) (by decide +kernel)
  refine ⟨digest_injOn, paymentIds_nodup, isRoot_payments,
    ⟨_, _, _, _, hthird, hfourth, rfl, rfl, rfl, by decide +kernel⟩, fun hunambiguous => ?_⟩
  exact absurd (hunambiguous.position _ _ _ _ hthird hfourth rfl) (by decide)

end Sample

end Interbtc
