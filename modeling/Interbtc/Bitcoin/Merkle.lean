import Interbtc.Bitcoin.Formatter
import Interbtc.Bitcoin.MerkleProof
import Interbtc.Core.MerkleTree

/-!
# Building and verifying Merkle proofs

A proof is built from the ids of a block's transactions, and from which of them are matched.
It is verified by a traversal in the same order, which computes the root of the tree and
remembers where it found a matched transaction.
-/

namespace Interbtc

open Core

/-- The weight a block can have. -/
def MAX_BLOCK_WEIGHT : ℕ := 4000000

/-- What a byte outside the witnesses weighs. -/
def WITNESS_SCALE_FACTOR : ℕ := 4

/-- The weight of 60 bytes, below which no transaction is. -/
def MIN_TRANSACTION_WEIGHT : ℕ := WITNESS_SCALE_FACTOR * 60

/-- The transactions a block can have. -/
def MAX_TRANSACTIONS_IN_PROOF : ℕ := MAX_BLOCK_WEIGHT / MIN_TRANSACTION_WEIGHT

/-- A 32-bit result of a checked operation. -/
def checkedU32 (n : ℕ) : Except Halt ℕ :=
  if n ≤ maxU32 then .ok n else .error (.error .arithmeticOverflow)

/-- Concatenates and hashes two inputs for merkle proving. -/
def hash256MerkleStep (sha256d : List UInt8 → H256Le) (a b : H256Le) : H256Le :=
  sha256d (a.toBytesLe ++ b.toBytesLe)

namespace MerkleTree

/-- The nodes at a height. -/
def computeWidth (transactionsCount height : ℕ) : ℕ :=
  (transactionsCount + (1 <<< height) - 1) >>> height

/-- The loop of `computeHeight`, from a height on. -/
def computeHeightFrom (transactionsCount : ℕ) : ℕ → ℕ → ℕ
  | 0, height => height
  | rounds + 1, height =>
    if computeWidth transactionsCount height > 1 then
      computeHeightFrom transactionsCount rounds (height + 1)
    else height

/-- The loop ends by height 32, where the width of a 32-bit number is one. -/
def computeHeight (transactionsCount : ℕ) : ℕ := computeHeightFrom transactionsCount 32 0

/-- The hash of a node, from those of the transactions below it. -/
def computeRoot (sha256d : List UInt8 → H256Le) (transactionsCount : ℕ) (hashes : List H256Le) :
    ℕ → ℕ → Except Halt H256Le
  | 0, index =>
    match hashes[index]? with
    | some hash => .ok hash
    | none => .error .panic
  | height + 1, index => do
    let leftIndex ← checkedU32 (index * 2)
    let left ← computeRoot sha256d transactionsCount hashes height leftIndex
    let rightIndex ← checkedU32 (leftIndex + 1)
    let right ←
      if rightIndex < computeWidth transactionsCount height then
        computeRoot sha256d transactionsCount hashes height rightIndex
      else .ok left
    .ok (hash256MerkleStep sha256d left right)

end MerkleTree

/-! ## Building -/

namespace MerkleProof

/-- One more flag. -/
def pushFlag (proof : MerkleProof) (flag : Bool) : MerkleProof :=
  { proof with flagBits := proof.flagBits ++ [flag] }

/-- Keep the root of a part of the tree. -/
def pushRoot (sha256d : List UInt8 → H256Le) (txIds : List H256Le) (proof : MerkleProof)
    (height pos : ℕ) : Except Halt MerkleProof := do
  let hash ← MerkleTree.computeRoot sha256d proof.transactionsCount.toNat txIds height pos
  .ok { proof with hashes := proof.hashes ++ [hash] }

/-- Whether one of some positions is matched. -/
def anyMatch (matched : List Bool) : List ℕ → Bool → Except Halt Bool
  | [], parentOfMatch => .ok parentOfMatch
  | p :: positions, parentOfMatch =>
    match matched[p]? with
    | some m => anyMatch matched positions (parentOfMatch || m)
    | none => .error .panic

/-- Whether a position below a node is matched. -/
def parentOfMatch (matched : List Bool) (proof : MerkleProof) (height pos : ℕ) :
    Except Halt Bool :=
  anyMatch matched (List.range' (pos <<< height)
    (min ((pos + 1) <<< height) proof.transactionsCount.toNat - pos <<< height)) false

/-- Flag the nodes above the matched transactions, and keep the hashes beside them. -/
def traverseAndBuild (sha256d : List UInt8 → H256Le) (txIds : List H256Le) (matched : List Bool) :
    ℕ → ℕ → MerkleProof → Except Halt MerkleProof
  | 0, pos, proof => do
    let flag ← proof.parentOfMatch matched 0 pos
    (proof.pushFlag flag).pushRoot sha256d txIds 0 pos
  | nextHeight + 1, pos, proof => do
    let flag ← proof.parentOfMatch matched (nextHeight + 1) pos
    if !flag then (proof.pushFlag flag).pushRoot sha256d txIds (nextHeight + 1) pos
    else do
      let leftIndex ← checkedU32 (pos * 2)
      let rightIndex ← checkedU32 (leftIndex + 1)
      let left ← traverseAndBuild sha256d txIds matched nextHeight leftIndex (proof.pushFlag flag)
      if rightIndex < MerkleTree.computeWidth left.transactionsCount.toNat nextHeight then
        traverseAndBuild sha256d txIds matched nextHeight rightIndex left
      else .ok left

end MerkleProof

/-- Bitcoin block: header and transactions. -/
structure Block where
  header : BlockHeader
  transactions : List Transaction
  deriving DecidableEq

namespace Block

/-- The ids of the transactions. -/
def txIds (sha256d : List UInt8 → H256Le) (block : Block) : List H256Le :=
  block.transactions.map (Transaction.txId sha256d)

/-- Which of the transactions are to be proven. -/
def matched (sha256d : List UInt8 → H256Le) (block : Block) (ids : List H256Le) : List Bool :=
  block.transactions.map fun tx => ids.contains (tx.txId sha256d)

/-- A proof of the transactions with the given ids. -/
def merkleProof (sha256d : List UInt8 → H256Le) (block : Block) (ids : List H256Le) :
    Except Halt MerkleProof :=
  let proof : MerkleProof :=
    { blockHeader := block.header
      transactionsCount := .ofNat block.transactions.length
      flagBits := []
      hashes := [] }
  proof.traverseAndBuild sha256d (block.txIds sha256d) (block.matched sha256d ids)
    (MerkleTree.computeHeight proof.transactionsCount.toNat) 0

end Block

/-! ## Verifying -/

/-- What the traversal of a proof has used and found. -/
structure MerkleProofTraversal where
  bitsUsed : ℕ
  hashesUsed : ℕ
  merklePosition : Option ℕ
  hashPosition : Option ℕ
  deriving DecidableEq

namespace MerkleProof

/-- Take the next of the stored hashes. -/
def takeHash (proof : MerkleProof) (height pos : ℕ) (parentOfHash : Bool)
    (traversal : MerkleProofTraversal) : Except Halt (H256Le × MerkleProofTraversal) :=
  match proof.hashes[traversal.hashesUsed]? with
  | none => .error (.error .malformedMerkleProof)
  | some hash =>
    let found :=
      if height = 0 ∧ parentOfHash then
        { traversal with
          merklePosition := some pos
          hashPosition := some traversal.hashesUsed }
      else traversal
    .ok (hash, { found with hashesUsed := traversal.hashesUsed + 1 })

/-- Performs a depth-first traversal of the partial merkle tree and returns the computed merkle
root. -/
def traverseAndExtract (sha256d : List UInt8 → H256Le) (proof : MerkleProof) :
    ℕ → ℕ → MerkleProofTraversal → Except Halt (H256Le × MerkleProofTraversal)
  | 0, pos, traversal =>
    match proof.flagBits[traversal.bitsUsed]? with
    | none => .error (.error .endOfFile)
    | some parentOfHash =>
      proof.takeHash 0 pos parentOfHash { traversal with bitsUsed := traversal.bitsUsed + 1 }
  | nextHeight + 1, pos, traversal =>
    match proof.flagBits[traversal.bitsUsed]? with
    | none => .error (.error .endOfFile)
    | some parentOfHash => do
      let traversal := { traversal with bitsUsed := traversal.bitsUsed + 1 }
      if !parentOfHash then proof.takeHash (nextHeight + 1) pos parentOfHash traversal
      else do
        let leftIndex ← checkedU32 (pos * 2)
        let rightIndex ← checkedU32 (leftIndex + 1)
        let (left, traversal) ← traverseAndExtract sha256d proof nextHeight leftIndex traversal
        let (right, traversal) ←
          if rightIndex < MerkleTree.computeWidth proof.transactionsCount.toNat nextHeight then
            traverseAndExtract sha256d proof nextHeight rightIndex traversal
          else .ok (left, traversal)
        .ok (hash256MerkleStep sha256d left right, traversal)

end MerkleProof

/-- A transaction with the proof that its block includes it. -/
structure PartialTransactionProof where
  transaction : Transaction
  txEncodedLen : ℕ
  merkleProof : MerkleProof
  deriving DecidableEq

/-- What a proof says of its transaction. -/
structure ProofResult where
  extractedRoot : H256Le
  transactionHash : H256Le
  transactionPosition : ℕ
  transaction : Transaction
  txCount : ℕ
  blockHash : H256Le
  deriving DecidableEq

namespace PartialTransactionProof

/-- Computes the merkle root of the proof partial merkle tree. -/
def verifyProof (sha256d : List UInt8 → H256Le) (self : PartialTransactionProof) :
    Except Halt ProofResult := do
  let proof := self.merkleProof
  if proof.transactionsCount.toNat = 0 then .error (.error .malformedMerkleProof)
  else if proof.transactionsCount.toNat > MAX_TRANSACTIONS_IN_PROOF then
    .error (.error .malformedMerkleProof)
  -- at least one bit per hash
  else if proof.flagBits.length < proof.hashes.length then .error (.error .malformedMerkleProof)
  else do
    let (root, traversal) ← proof.traverseAndExtract sha256d
      (MerkleTree.computeHeight proof.transactionsCount.toNat) 0 ⟨0, 0, none, none⟩
    match traversal.merklePosition, traversal.hashPosition with
    | some merklePosition, some hashPosition =>
      if traversal.hashesUsed ≠ proof.hashes.length then .error (.error .malformedMerkleProof)
      else if (traversal.bitsUsed + 7) / 8 ≠ (proof.flagBits.length + 7) / 8 then
        .error (.error .malformedMerkleProof)
      else do
        let txId ← self.transaction.txIdBounded sha256d self.txEncodedLen
        match proof.hashes[hashPosition]? with
        | none => .error .panic
        | some hash =>
          if hash ≠ txId then .error (.error .invalidTxid)
          else
            let result : ProofResult :=
              { extractedRoot := root
                transactionHash := hash
                transactionPosition := merklePosition
                transaction := self.transaction
                txCount := proof.transactionsCount.toNat
                blockHash := proof.blockHeader.hash }
            .ok result
    | _, _ => .error (.error .invalidMerkleProof)

end PartialTransactionProof

end Interbtc
