import Interbtc.Bitcoin.Merkle

/-!
# Completeness of Merkle proofs

What is built from the ids and the matched positions is the partial tree above them. The
traversal that verifies it visits the same nodes, uses up the flags and the hashes, and
computes the root. Of the matched transactions it remembers the last one.
-/

namespace Interbtc

open Core Core.MerkleTree MerkleTree

variable {sha256d : List UInt8 → H256Le} {txIds : List H256Le} {marks : List Bool}
  {n height pos : ℕ} {proof : MerkleProof}

/-! ## Widths and heights -/

/-- The source counts the nodes of a height as the general tree does. -/
theorem computeWidth_eq (n height : ℕ) : computeWidth n height = width n height := by
  rw [computeWidth, width, Nat.shiftRight_eq_div_pow, Nat.one_shiftLeft]

/-- The loop finds the first height at which there is a single node. -/
theorem computeHeightFrom_spec (rounds : ℕ) (hn : n ≤ 2 ^ (height + rounds)) :
    n ≤ 2 ^ computeHeightFrom n rounds height ∧
      ∀ k, height ≤ k → k < computeHeightFrom n rounds height → 2 ^ k < n := by
  induction rounds generalizing height with
  | zero => exact ⟨hn, fun k hle hlt => absurd hlt (Nat.not_lt.mpr hle)⟩
  | succ rounds ih =>
    unfold computeHeightFrom
    have hwidth : computeWidth n height > 1 ↔ ¬ n ≤ 2 ^ height := by
      rw [computeWidth_eq, ← width_le_one]
      omega
    by_cases hle : n ≤ 2 ^ height
    · rw [if_neg (not_not.mpr hle ∘ hwidth.mp)]
      exact ⟨hle, fun k hle hlt => absurd hlt (Nat.not_lt.mpr hle)⟩
    · rw [if_pos (hwidth.mpr hle)]
      obtain ⟨hheight, hbelow⟩ := @ih (height + 1) (by rwa [Nat.add_right_comm])
      refine ⟨hheight, fun k hk hlt => ?_⟩
      rcases Nat.eq_or_lt_of_le hk with rfl | hlt'
      · exact Nat.lt_of_not_le hle
      · exact hbelow k hlt' hlt

/-- The height is the least that has one node. -/
theorem computeHeight_spec (hn : n ≤ maxU32) :
    n ≤ 2 ^ computeHeight n ∧ ∀ k < computeHeight n, 2 ^ k < n := by
  have hle : n ≤ 2 ^ (0 + 32) := hn.trans (by decide)
  obtain ⟨hheight, hbelow⟩ := computeHeightFrom_spec 32 hle
  exact ⟨hheight, fun k hk => hbelow k (Nat.zero_le k) hk⟩

/-! ## Nodes -/

/-- The children of a node have 32-bit positions. -/
theorem checkedU32_children (hn : n ≤ maxU32) (hpos : pos < width n (height + 1)) :
    checkedU32 (pos * 2) = .ok (2 * pos) ∧ checkedU32 (2 * pos + 1) = .ok (2 * pos + 1) := by
  have hleft := left_lt hpos
  have hwidth := width_le n height
  rw [Nat.mul_comm pos]
  exact ⟨if_pos (by omega), if_pos (by omega)⟩

/-- A node of the tree of transaction ids. -/
def txNode (sha256d : List UInt8 → H256Le) (txIds : List H256Le) : ℕ → ℕ → H256Le :=
  node (hash256MerkleStep sha256d) txIds .zero

private theorem computeRoot_eq (hn : txIds.length ≤ maxU32)
    (hpos : pos < width txIds.length height) :
    computeRoot sha256d txIds.length txIds height pos =
      .ok (txNode sha256d txIds height pos) := by
  induction height generalizing pos with
  | zero =>
    rw [width_zero] at hpos
    rw [computeRoot, txNode, node, levels, List.getElem?_eq_getElem hpos]
    rfl
  | succ height ih =>
    obtain ⟨hleft, hright⟩ := checkedU32_children hn hpos
    have hroot := ih (left_lt hpos)
    rw [computeRoot, hleft, txNode, node_succ hpos]
    change (computeRoot sha256d txIds.length txIds height (2 * pos) >>= fun left =>
      checkedU32 (2 * pos + 1) >>= _) = _
    rw [hroot, hright]
    change (if 2 * pos + 1 < computeWidth txIds.length height then
      computeRoot sha256d txIds.length txIds height (2 * pos + 1) >>= _ else _) = _
    rw [computeWidth_eq]
    by_cases hlt : 2 * pos + 1 < width txIds.length height
    · rw [if_pos hlt, if_pos hlt, ih hlt]
      rfl
    · rw [if_neg hlt, if_neg hlt]
      rfl

/-! ## Building -/

private theorem anyMatch_eq {positions : List ℕ} (h : ∀ p ∈ positions, p < marks.length)
    (flag : Bool) :
    MerkleProof.anyMatch marks positions flag =
      .ok (flag || positions.any fun p => marks[p]?.getD false) := by
  induction positions generalizing flag with
  | nil =>
    rw [List.any_nil, Bool.or_false]
    rfl
  | cons p positions ih =>
    have hlt := h p List.mem_cons_self
    rw [MerkleProof.anyMatch, List.any_cons, List.getElem?_eq_getElem hlt]
    dsimp only
    rw [ih fun q hq => h q (List.mem_cons_of_mem _ hq), Bool.or_assoc]
    rfl

/-- The loop over the positions below a node finds out if one of them is marked. -/
theorem parentOfMatch_eq (hcount : proof.transactionsCount.toNat = marks.length) :
    proof.parentOfMatch marks height pos = .ok (marked marks height pos) := by
  have hpow : 0 < 2 ^ height := Nat.two_pow_pos height
  have hmem : ∀ p, p ∈ List.range' (pos <<< height) (min ((pos + 1) <<< height) marks.length -
      pos <<< height) ↔ p / 2 ^ height = pos ∧ p < marks.length := by
    intro p
    rw [List.mem_range'_1, Nat.shiftLeft_eq, Nat.shiftLeft_eq, Nat.add_one_mul,
      Nat.div_eq_iff hpow]
    omega
  rw [MerkleProof.parentOfMatch, hcount, anyMatch_eq fun p hp => ((hmem p).mp hp).2,
    Bool.false_or]
  congr 1
  rw [Bool.eq_iff_iff, marked_iff, List.any_eq_true]
  refine exists_congr fun p => ?_
  rw [hmem]
  constructor
  · rintro ⟨⟨hp, hlt⟩, hmark⟩
    rw [List.getElem?_eq_getElem hlt] at hmark ⊢
    exact ⟨hp, congrArg some hmark⟩
  · rintro ⟨hp, hmark⟩
    exact ⟨⟨hp, (List.getElem?_eq_some_iff.mp hmark).1⟩, by rw [hmark]; rfl⟩

/-- What is built from a node on are the flags and the hashes of the partial tree below it. -/
theorem traverseAndBuild_eq (hids : txIds.length ≤ maxU32)
    (hcount : proof.transactionsCount.toNat = txIds.length) (hmarks : marks.length = txIds.length)
    (hpos : pos < width txIds.length height) :
    proof.traverseAndBuild sha256d txIds marks height pos = .ok
      { proof with
        flagBits := proof.flagBits ++ flags txIds.length marks height pos
        hashes := proof.hashes ++
          kept txIds.length marks (txNode sha256d txIds) height pos } := by
  induction height generalizing pos proof with
  | zero =>
    rw [MerkleProof.traverseAndBuild, parentOfMatch_eq (hcount.trans hmarks.symm)]
    change (computeRoot sha256d proof.transactionsCount.toNat txIds 0 pos >>= _) = _
    rw [hcount, computeRoot_eq hids hpos]
    rfl
  | succ height ih =>
    obtain ⟨hleft, hright⟩ := checkedU32_children hids hpos
    rw [MerkleProof.traverseAndBuild, parentOfMatch_eq (hcount.trans hmarks.symm), flags, kept]
    cases hmarked : marked marks (height + 1) pos with
    | false =>
      change (computeRoot sha256d proof.transactionsCount.toNat txIds (height + 1) pos >>= _) = _
      rw [hcount, computeRoot_eq hids hpos]
      rfl
    | true =>
      change (checkedU32 (pos * 2) >>= fun leftIndex => checkedU32 (leftIndex + 1) >>= _) = _
      rw [hleft]
      change (checkedU32 (2 * pos + 1) >>= _) = _
      rw [hright]
      change ((proof.pushFlag true).traverseAndBuild sha256d txIds marks height (2 * pos) >>= _) = _
      rw [@ih (2 * pos) (proof.pushFlag true) hcount (left_lt hpos)]
      change (if 2 * pos + 1 < computeWidth proof.transactionsCount.toNat height then _ else _) = _
      rw [computeWidth_eq, hcount]
      by_cases hlt : 2 * pos + 1 < width txIds.length height
      · have hbuilt := @ih (2 * pos + 1)
          { proof.pushFlag true with
            flagBits := (proof.pushFlag true).flagBits ++ flags txIds.length marks height (2 * pos)
            hashes := (proof.pushFlag true).hashes ++
              kept txIds.length marks (txNode sha256d txIds) height (2 * pos) } hcount hlt
        rw [if_pos hlt, if_pos rfl, if_pos rfl, if_pos hlt, if_pos hlt, hbuilt]
        simp only [MerkleProof.pushFlag, List.append_assoc, List.cons_append, List.nil_append]
      · rw [if_neg hlt, if_pos rfl, if_pos rfl, if_neg hlt, if_neg hlt]
        simp only [MerkleProof.pushFlag, List.append_assoc, List.singleton_append,
          List.append_nil]

/-! ## Extracting -/

/-- What a traversal of the partial tree below a node does. -/
structure Traversed (sha256d : List UInt8 → H256Le) (txIds : List H256Le) (marks : List Bool)
    (proof : MerkleProof) (height pos : ℕ) (before after : MerkleProofTraversal) : Prop where
  bitsUsed : after.bitsUsed = before.bitsUsed + (flags txIds.length marks height pos).length
  hashesUsed : after.hashesUsed = before.hashesUsed +
    (kept txIds.length marks (txNode sha256d txIds) height pos).length
  unmarked : marked marks height pos = false →
    after.merklePosition = before.merklePosition ∧ after.hashPosition = before.hashPosition
  last : ∀ p, LastMarked marks height pos p → after.merklePosition = some p ∧
    ∃ k, after.hashPosition = some k ∧ proof.hashes[k]? = some (txNode sha256d txIds 0 p)

/-- A list that goes on with two parts goes on with the second after the first. -/
theorem prefix_drop_append {α : Type} {xs ys zs : List α} {k : ℕ} (h : xs ++ ys <+: zs.drop k) :
    xs <+: zs.drop k ∧ ys <+: zs.drop (k + xs.length) := by
  obtain ⟨rest, hrest⟩ := h
  rw [List.append_assoc] at hrest
  refine ⟨⟨ys ++ rest, hrest⟩, rest, ?_⟩
  rw [← List.drop_drop, ← hrest, List.drop_left]

/-- What is left at a position starts with the element there. -/
theorem getElem?_of_prefix_drop {α : Type} {x : α} {xs zs : List α} {k : ℕ}
    (h : x :: xs <+: zs.drop k) : zs[k]? = some x := by
  obtain ⟨rest, hrest⟩ := h
  rw [← Nat.add_zero k, ← List.getElem?_drop, ← hrest]
  rfl

/-- A node that is not looked below is read from the stored hashes. -/
theorem takeHash_eq {parentOfHash : Bool} {before : MerkleProofTraversal}
    (hhash : proof.hashes[before.hashesUsed]? = some (txNode sha256d txIds height pos)) :
    proof.takeHash height pos parentOfHash before = .ok (txNode sha256d txIds height pos,
      { (if height = 0 ∧ parentOfHash then
          { before with
            merklePosition := some pos
            hashPosition := some before.hashesUsed }
        else before) with hashesUsed := before.hashesUsed + 1 }) := by
  rw [MerkleProof.takeHash, hhash]

/-- A traversal of both children is one of the node. -/
theorem Traversed.both {before middle after : MerkleProofTraversal}
    (hmarked : marked marks (height + 1) pos = true) (hlt : 2 * pos + 1 < width txIds.length height)
    (hleft : Traversed sha256d txIds marks proof height (2 * pos)
      { before with bitsUsed := before.bitsUsed + 1 } middle)
    (hright : Traversed sha256d txIds marks proof height (2 * pos + 1) middle after) :
    Traversed sha256d txIds marks proof (height + 1) pos before after where
  bitsUsed := by
    rw [flags_of_marked hmarked, if_pos hlt, hright.bitsUsed, hleft.bitsUsed, List.length_cons,
      List.length_append]
    dsimp only
    omega
  hashesUsed := by
    rw [kept_of_marked hmarked, if_pos hlt, hright.hashesUsed, hleft.hashesUsed,
      List.length_append, Nat.add_assoc]
  unmarked := fun h => absurd (hmarked.symm.trans h) (by decide)
  last := by
    intro p hp
    rcases hp.of_succ with hp | ⟨hnone, hp⟩
    · exact hright.last p hp
    · rw [(hright.unmarked hnone).1, (hright.unmarked hnone).2]
      exact hleft.last p hp

/-- A traversal of the only child is one of the node. -/
theorem Traversed.only {before after : MerkleProofTraversal}
    (hmarks : marks.length = txIds.length) (hmarked : marked marks (height + 1) pos = true)
    (hlt : ¬ 2 * pos + 1 < width txIds.length height)
    (hleft : Traversed sha256d txIds marks proof height (2 * pos)
      { before with bitsUsed := before.bitsUsed + 1 } after) :
    Traversed sha256d txIds marks proof (height + 1) pos before after where
  bitsUsed := by
    rw [flags_of_marked hmarked, if_neg hlt, hleft.bitsUsed, List.length_cons, List.append_nil]
    dsimp only
    omega
  hashesUsed := by
    rw [kept_of_marked hmarked, if_neg hlt, hleft.hashesUsed, List.append_nil]
  unmarked := fun h => absurd (hmarked.symm.trans h) (by decide)
  last := by
    intro p hp
    rcases hp.of_succ with hp | ⟨_, hp⟩
    · exact absurd (hmarks ▸ lt_width_of_marked hp.marked) hlt
    · exact hleft.last p hp

/-- Where the flags and the hashes go on with the partial tree below a node, the traversal
computes the node. -/
theorem traverseAndExtract_eq (hids : txIds.length ≤ maxU32)
    (hcount : proof.transactionsCount.toNat = txIds.length) (hmarks : marks.length = txIds.length)
    (hpos : pos < width txIds.length height) (before : MerkleProofTraversal)
    (hflags : flags txIds.length marks height pos <+: proof.flagBits.drop before.bitsUsed)
    (hhashes : kept txIds.length marks (txNode sha256d txIds) height pos <+:
      proof.hashes.drop before.hashesUsed) :
    ∃ after, proof.traverseAndExtract sha256d height pos before =
        .ok (txNode sha256d txIds height pos, after) ∧
      Traversed sha256d txIds marks proof height pos before after := by
  induction height generalizing pos before with
  | zero =>
    rw [flags] at hflags
    rw [kept] at hhashes
    have hhash := getElem?_of_prefix_drop hhashes
    rw [MerkleProof.traverseAndExtract, getElem?_of_prefix_drop hflags]
    refine ⟨_, takeHash_eq hhash, ?_⟩
    cases hmarked : marked marks 0 pos with
    | false =>
      refine ⟨rfl, rfl, fun _ => ⟨rfl, rfl⟩, fun p hp => ?_⟩
      exact absurd (hp.marked.symm.trans hmarked) (by decide)
    | true =>
      refine ⟨rfl, rfl, fun h => absurd (hmarked.symm.trans h) (by decide), fun p hp => ?_⟩
      obtain rfl := hp.unique (LastMarked.zero (marked_zero.mp hmarked))
      exact ⟨rfl, before.hashesUsed, rfl, hhash⟩
  | succ height ih =>
    obtain ⟨hleft, hright⟩ := checkedU32_children hids hpos
    rw [MerkleProof.traverseAndExtract]
    cases hmarked : marked marks (height + 1) pos with
    | false =>
      rw [flags_of_unmarked hmarked] at hflags
      rw [kept_of_unmarked hmarked] at hhashes
      rw [getElem?_of_prefix_drop hflags]
      refine ⟨_, takeHash_eq (getElem?_of_prefix_drop hhashes), ?_⟩
      refine ⟨?_, ?_, fun _ => ⟨rfl, rfl⟩, fun p hp => ?_⟩
      · rw [flags_of_unmarked hmarked]
        rfl
      · rw [kept_of_unmarked hmarked]
        rfl
      · exact absurd (hp.marked.symm.trans hmarked) (by decide)
    | true =>
      rw [flags_of_marked hmarked] at hflags
      rw [kept_of_marked hmarked] at hhashes
      rw [getElem?_of_prefix_drop hflags]
      obtain ⟨_, hflags⟩ := @prefix_drop_append _ [true] _ _ _ hflags
      obtain ⟨hflagsLeft, hflagsRight⟩ := prefix_drop_append hflags
      obtain ⟨hhashesLeft, hhashesRight⟩ := prefix_drop_append hhashes
      obtain ⟨middle, hextractLeft, hmiddle⟩ := ih (left_lt hpos)
        { before with bitsUsed := before.bitsUsed + 1 } hflagsLeft hhashesLeft
      change ∃ after, (checkedU32 (pos * 2) >>= fun leftIndex => checkedU32 (leftIndex + 1) >>=
        _) = Except.ok (_, after) ∧ _
      rw [hleft]
      change ∃ after, (checkedU32 (2 * pos + 1) >>= _) = Except.ok (_, after) ∧ _
      rw [hright]
      change ∃ after, (proof.traverseAndExtract sha256d height (2 * pos) _ >>= _) =
        Except.ok (_, after) ∧ _
      rw [hextractLeft]
      change ∃ after, (if 2 * pos + 1 < computeWidth proof.transactionsCount.toNat height then
        proof.traverseAndExtract sha256d height (2 * pos + 1) middle >>= _ else _) =
        Except.ok (_, after) ∧ _
      rw [computeWidth_eq, hcount, txNode, node_succ hpos]
      by_cases hlt : 2 * pos + 1 < width txIds.length height
      · rw [if_pos hlt] at hflagsRight hhashesRight ⊢
        have hbits : middle.bitsUsed = before.bitsUsed + [true].length +
            (flags txIds.length marks height (2 * pos)).length := hmiddle.bitsUsed
        have hused : middle.hashesUsed = before.hashesUsed +
            (kept txIds.length marks (txNode sha256d txIds) height (2 * pos)).length :=
          hmiddle.hashesUsed
        rw [← hbits] at hflagsRight
        rw [← hused] at hhashesRight
        obtain ⟨after, hextractRight, hafter⟩ := ih hlt middle hflagsRight hhashesRight
        rw [hextractRight, if_pos hlt]
        exact ⟨after, rfl, hmiddle.both hmarked hlt hafter⟩
      · rw [if_neg hlt, if_neg hlt]
        exact ⟨middle, rfl, hmiddle.only hmarks hmarked hlt⟩

/-! ## Completeness -/

/-- The last transaction of a block that is to be proven. -/
structure Block.LastMatched (sha256d : List UInt8 → H256Le) (block : Block) (ids : List H256Le)
    (last : ℕ) (tx : Transaction) : Prop where
  getElem? : block.transactions[last]? = some tx
  mem : tx.txId sha256d ∈ ids
  later : ∀ q later, last < q → block.transactions[q]? = some later → later.txId sha256d ∉ ids

namespace MerkleProof

/-- The flags are sent in bytes, the last of which is filled up. -/
def padded (proof : MerkleProof) (padding : List Bool) : MerkleProof :=
  { proof with flagBits := proof.flagBits ++ padding }

/-- Extraction reads a number of flags and all hashes, computes the root, and reports the
position of a transaction and where its hash is. -/
def Proves (sha256d : List UInt8 → H256Le) (proof : MerkleProof) (bits : ℕ) (root : H256Le)
    (position : ℕ) (hash : H256Le) : Prop :=
  ∃ traversal k,
    proof.traverseAndExtract sha256d (computeHeight proof.transactionsCount.toNat) 0
      ⟨0, 0, none, none⟩ = .ok (root, traversal) ∧
    traversal.bitsUsed = bits ∧ traversal.hashesUsed = proof.hashes.length ∧
    traversal.merklePosition = some position ∧ traversal.hashPosition = some k ∧
    proof.hashes[k]? = some hash

end MerkleProof

/-- A proof is accepted for the transaction that extraction reports, and for no other. -/
theorem verifyProof_of_proves {bits position : ℕ} {root hash : H256Le}
    (hpos : proof.transactionsCount.toNat ≠ 0)
    (hmax : proof.transactionsCount.toNat ≤ MAX_TRANSACTIONS_IN_PROOF)
    (hlength : proof.hashes.length ≤ proof.flagBits.length)
    (hproves : proof.Proves sha256d bits root position hash)
    (hbits : (bits + 7) / 8 = (proof.flagBits.length + 7) / 8) {tx : Transaction}
    {txEncodedLen : ℕ} (hbound : tx.formatNoWitness.length ≤ txEncodedLen) :
    PartialTransactionProof.verifyProof sha256d ⟨tx, txEncodedLen, proof⟩ =
      if tx.txId sha256d = hash then
        .ok
          { extractedRoot := root
            transactionHash := hash
            transactionPosition := position
            transaction := tx
            txCount := proof.transactionsCount.toNat
            blockHash := proof.blockHeader.hash }
      else .error (.error .invalidTxid) := by
  obtain ⟨traversal, k, hextract, rfl, hhashes, hposition, hhash, hget⟩ := hproves
  rw [PartialTransactionProof.verifyProof]
  dsimp only
  rw [if_neg hpos, if_neg (Nat.not_lt.mpr hmax), if_neg (Nat.not_lt.mpr hlength), hextract]
  simp only [bind, Except.bind, hposition, hhash]
  rw [if_neg (not_not.mpr hhashes), if_neg (not_not.mpr hbits), tx.txIdBounded_of_le hbound]
  simp only [hget]
  rw [Transaction.txId]
  by_cases heq : sha256d tx.formatNoWitness = hash
  · rw [if_neg (not_not.mpr heq.symm), if_pos heq]
  · rw [if_pos fun h => heq h.symm, if_neg heq]

namespace Block

variable {block : Block} {ids : List H256Le}

/-- The height of the tree of the ids. -/
def treeHeight (block : Block) : ℕ := computeHeight block.transactions.length

/-- The partial tree above the transactions to prove. -/
def partialTree (sha256d : List UInt8 → H256Le) (block : Block) (ids : List H256Le) :
    MerkleProof where
  blockHeader := block.header
  transactionsCount := .ofNat block.transactions.length
  flagBits := flags block.transactions.length (block.matched sha256d ids) block.treeHeight 0
  hashes := kept block.transactions.length (block.matched sha256d ids)
    (txNode sha256d (block.txIds sha256d)) block.treeHeight 0

private theorem length_txIds : (block.txIds sha256d).length = block.transactions.length :=
  List.length_map _

private theorem length_matched : (block.matched sha256d ids).length = block.transactions.length :=
  List.length_map _

/-- A transaction is matched where its id is asked for. -/
theorem getElem?_matched {p : ℕ} : (block.matched sha256d ids)[p]? = some true ↔
    ∃ tx, block.transactions[p]? = some tx ∧ tx.txId sha256d ∈ ids := by
  rw [matched, List.getElem?_map, Option.map_eq_some_iff]
  simp only [List.contains_iff_mem]

private theorem toNat_transactionsCount
    (hmax : block.transactions.length ≤ MAX_TRANSACTIONS_IN_PROOF) :
    (UInt32.ofNat block.transactions.length).toNat = block.transactions.length :=
  UInt32.toNat_ofNat_of_lt' (Nat.lt_of_le_of_lt hmax (by decide))

/-- What is built is the partial tree. -/
theorem merkleProof_eq (hmax : block.transactions.length ≤ MAX_TRANSACTIONS_IN_PROOF)
    (hpos : 0 < block.transactions.length) :
    block.merkleProof sha256d ids = .ok (block.partialTree sha256d ids) := by
  have hids : (block.txIds sha256d).length ≤ maxU32 := by
    rw [length_txIds]
    exact hmax.trans (by decide)
  have hcount := toNat_transactionsCount hmax
  have hroot : 0 < width (block.txIds sha256d).length block.treeHeight :=
    width_pos (by rwa [length_txIds]) _
  rw [merkleProof, hcount]
  refine (traverseAndBuild_eq hids (hcount.trans length_txIds.symm)
    (length_matched.trans length_txIds.symm) hroot).trans ?_
  rw [length_txIds]
  rfl

/-- The last marked leaf below the root is the last transaction to prove. -/
theorem lastMatched {last : ℕ} (hheight : block.transactions.length ≤ 2 ^ block.treeHeight)
    (h : LastMarked (block.matched sha256d ids) block.treeHeight 0 last) :
    ∃ tx, block.LastMatched sha256d ids last tx := by
  obtain ⟨tx, hget, hmem⟩ := getElem?_matched.mp h.mark
  refine ⟨tx, hget, hmem, fun q later hlt hlater hmem => ?_⟩
  have hq : q < 2 ^ block.treeHeight := (List.getElem?_eq_some_iff.mp hlater).1.trans_le hheight
  exact h.last q hlt (Nat.div_eq_of_lt hq) (getElem?_matched.mpr ⟨later, hlater, hmem⟩)

/-- The traversal of the partial tree, with its last byte filled up, reads all of it. -/
theorem partialTree_proves (hmax : block.transactions.length ≤ MAX_TRANSACTIONS_IN_PROOF)
    (hpos : 0 < block.transactions.length) {last : ℕ} {tx : Transaction}
    (hlast : LastMarked (block.matched sha256d ids) block.treeHeight 0 last)
    (htx : block.transactions[last]? = some tx) (padding : List Bool) :
    ((block.partialTree sha256d ids).padded padding).Proves sha256d
      (block.partialTree sha256d ids).flagBits.length
      (txNode sha256d (block.txIds sha256d) block.treeHeight 0) last (tx.txId sha256d) := by
  have hids : (block.txIds sha256d).length ≤ maxU32 := by
    rw [length_txIds]
    exact hmax.trans (by decide)
  have hcount : ((block.partialTree sha256d ids).padded padding).transactionsCount.toNat =
      block.transactions.length := toNat_transactionsCount hmax
  have hroot : 0 < width (block.txIds sha256d).length block.treeHeight :=
    width_pos (by rwa [length_txIds]) _
  obtain ⟨traversal, hextract, htraversed⟩ := traverseAndExtract_eq hids
    (hcount.trans length_txIds.symm) (length_matched.trans length_txIds.symm) hroot
    ⟨0, 0, none, none⟩ (by rw [length_txIds]; exact List.prefix_append _ _)
    (by rw [length_txIds]; exact List.prefix_refl _)
  obtain ⟨hposition, k, hhash, hget⟩ := htraversed.last last hlast
  have hleaf : txNode sha256d (block.txIds sha256d) 0 last = tx.txId sha256d := by
    rw [txNode, node, levels, txIds, List.getElem?_map, htx]
    rfl
  have hbits := htraversed.bitsUsed
  have hhashes := htraversed.hashesUsed
  rw [length_txIds, Nat.zero_add] at hbits hhashes
  refine ⟨traversal, k, ?_, hbits, hhashes, hposition, hhash, hleaf ▸ hget⟩
  rw [hcount]
  exact hextract

end Block

/-- For every block of at most the largest number of transactions, and every choice of
transactions to prove that is not empty, a proof is built. With its last byte filled up,
extraction reads all flags and all hashes, computes the root of the tree of transaction ids and
reports the last of the transactions to prove; the proof is accepted for that transaction. -/
theorem merkle_proof_complete (sha256d : List UInt8 → H256Le) (block : Block) (ids : List H256Le)
    (hmax : block.transactions.length ≤ MAX_TRANSACTIONS_IN_PROOF)
    (hmatch : ∃ tx ∈ block.transactions, tx.txId sha256d ∈ ids) :
    ∃ proof root last tx, block.merkleProof sha256d ids = .ok proof ∧
      IsRoot (hash256MerkleStep sha256d) (block.txIds sha256d) root ∧
      block.LastMatched sha256d ids last tx ∧
      ∀ padding,
        (proof.flagBits.length + 7) / 8 = ((proof.padded padding).flagBits.length + 7) / 8 →
        (proof.padded padding).Proves sha256d proof.flagBits.length root last
          (tx.txId sha256d) ∧
        ∀ (transaction : Transaction) (txEncodedLen : ℕ),
          transaction.formatNoWitness.length ≤ txEncodedLen →
          PartialTransactionProof.verifyProof sha256d
              ⟨transaction, txEncodedLen, proof.padded padding⟩ =
            if transaction.txId sha256d = tx.txId sha256d then
              .ok
                { extractedRoot := root
                  transactionHash := tx.txId sha256d
                  transactionPosition := last
                  transaction := transaction
                  txCount := block.transactions.length
                  blockHash := block.header.hash }
            else .error (.error .invalidTxid) := by
  obtain ⟨chosen, hchosen, hmem⟩ := hmatch
  have hpos : 0 < block.transactions.length := List.length_pos_of_mem hchosen
  obtain ⟨hheight, hbelow⟩ := computeHeight_spec (hmax.trans (by decide))
  -- the chosen transaction is below the root
  have hmarked : marked (block.matched sha256d ids) block.treeHeight 0 = true := by
    obtain ⟨p, hp, hget⟩ := List.getElem_of_mem hchosen
    exact marked_iff.mpr ⟨p, Nat.div_eq_of_lt (hp.trans_le hheight),
      Block.getElem?_matched.mpr ⟨chosen, List.getElem?_eq_some_iff.mpr ⟨hp, hget⟩, hmem⟩⟩
  obtain ⟨last, hlast⟩ := exists_lastMarked hmarked
  obtain ⟨tx, htx⟩ := Block.lastMatched hheight hlast
  have hroot : IsRoot (hash256MerkleStep sha256d) (block.txIds sha256d)
      (txNode sha256d (block.txIds sha256d) block.treeHeight 0) := by
    apply isRoot_node
    · rwa [Block.length_txIds]
    · rwa [Block.length_txIds]
    · rwa [Block.length_txIds]
  refine ⟨block.partialTree sha256d ids, _, last, tx, Block.merkleProof_eq hmax hpos, hroot, htx,
    fun padding hpadding => ?_⟩
  have hproves := Block.partialTree_proves hmax hpos hlast htx.getElem? padding
  refine ⟨hproves, fun transaction txEncodedLen hbound => ?_⟩
  have hlength : ((block.partialTree sha256d ids).padded padding).hashes.length ≤
      ((block.partialTree sha256d ids).padded padding).flagBits.length := by
    refine (length_kept_le _ _ _ _ _).trans ?_
    rw [MerkleProof.padded, List.length_append]
    exact Nat.le_add_right _ _
  have hcount : ((block.partialTree sha256d ids).padded padding).transactionsCount.toNat =
      block.transactions.length := Block.toNat_transactionsCount hmax
  rw [verifyProof_of_proves (hcount.trans_ne hpos.ne') (hcount.trans_le hmax) hlength hproves
    hpadding hbound, hcount]
  rfl

/-- A coinbase transaction and one that spends its output. -/
def twoTransactions : Block where
  header := .default
  transactions :=
    [⟨1, [⟨.coinbase none, [0x51], 0, []⟩], [⟨50, ⟨[0x51]⟩⟩], .blockHeight 0⟩,
      ⟨1, [⟨.fromOutput .zero 0, [], 0, []⟩], [⟨50, ⟨[0x51]⟩⟩], .blockHeight 0⟩]

/-- For a short example the hash of a list of bytes is its length. -/
def lengthHash (bytes : List UInt8) : H256Le := .fromInteger bytes.length

/-- A block of two transactions. -/
theorem merkle_proof_complete_two :
    ∃ proof root last tx,
      twoTransactions.merkleProof lengthHash (twoTransactions.txIds lengthHash) = .ok proof ∧
      IsRoot (hash256MerkleStep lengthHash) (twoTransactions.txIds lengthHash) root ∧
      twoTransactions.LastMatched lengthHash (twoTransactions.txIds lengthHash) last tx := by
  obtain ⟨proof, root, last, tx, hbuild, hroot, hlast, _⟩ :=
    merkle_proof_complete lengthHash twoTransactions (twoTransactions.txIds lengthHash)
      (by decide) ⟨_, List.mem_cons_self, List.mem_cons_self⟩
  exact ⟨proof, root, last, tx, hbuild, hroot, hlast⟩

/-- Of two transactions that are both to be proven, the first is not reported: the proof of both
is not accepted for it. -/
theorem merkle_proof_reports_last :
    ∃ proof first, twoTransactions.transactions[0]? = some first ∧
      first.txId lengthHash ∈ twoTransactions.txIds lengthHash ∧
      twoTransactions.merkleProof lengthHash (twoTransactions.txIds lengthHash) = .ok proof ∧
      PartialTransactionProof.verifyProof lengthHash
        ⟨first, first.formatNoWitness.length, proof⟩ = .error (.error .invalidTxid) ∧
      ¬ ∃ root, proof.Proves lengthHash proof.flagBits.length root 0 (first.txId lengthHash) := by
  have hextracted : ((twoTransactions.partialTree lengthHash
      (twoTransactions.txIds lengthHash)).traverseAndExtract lengthHash (computeHeight 2) 0
        ⟨0, 0, none, none⟩).map (fun result => result.2.merklePosition) = .ok (some 1) := by
    decide +kernel
  refine ⟨twoTransactions.partialTree lengthHash (twoTransactions.txIds lengthHash), _, rfl, ?_,
    rfl, ?_, ?_⟩
  · decide +kernel
  · decide +kernel
  · rintro ⟨root, traversal, k, hextract, _, _, hposition, _, _⟩
    have hmap := congrArg (Except.map fun result => result.2.merklePosition) hextract
    have hsome := Except.ok.inj (hextracted.symm.trans hmap)
    exact absurd (Option.some.inj (hsome.trans hposition)) (by decide)

end Interbtc
