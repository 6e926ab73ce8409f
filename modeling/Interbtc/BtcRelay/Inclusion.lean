import Interbtc.Bitcoin.Identity
import Interbtc.Bitcoin.MerklePositions
import Interbtc.BtcRelay.Confirmations
import Interbtc.BtcRelay.Payments

/-!
# Transactions in blocks

A transaction is proven to be in a block together with the coinbase transaction of the block. The
coinbase transaction has to be the first one. It begins with the bytes of a hash that is zero, so
that it can not be passed off as two hashes of the Merkle tree, nor two hashes as it: a proof
shows a tree as high as that of the block.
-/

namespace Interbtc

open Core Core.MerkleTree MerkleTree

/-- Contains all data to verify that a transaction is in a block. -/
structure FullTransactionProof where
  userTxProof : PartialTransactionProof
  coinbaseProof : PartialTransactionProof
  deriving DecidableEq

/-- Whether the only input is a coinbase. -/
def Transaction.isCoinbase (tx : Transaction) : Bool :=
  tx.inputs.length == 1 && tx.inputs[0]?.any fun input => match input.source with
    | .coinbase _ => true
    | .fromOutput _ _ => false

/-- A call that can also panic. -/
abbrev InclusionCall (α : Type) : Type := Call (Fault DispatchError) BtcRelay α

namespace BtcRelay

/-- Verify a proof, with the errors of the relay. -/
def verifyMerkleProof (sha256d : List UInt8 → H256Le)
    (uncheckedTransaction : PartialTransactionProof) : InclusionCall ProofResult :=
  Call.ofExcept ((uncheckedTransaction.verifyProof sha256d).mapError fun
    | .error e => .error (.btcRelay (.ofBitcoin e))
    | .panic => .panic)

/-- Whether a block has the root a proof leads to. -/
def blockMatchesMerkleRoot (blockHeader : BlockHeader) (proofResult : ProofResult) : Bool :=
  proofResult.extractedRoot = blockHeader.merkleRoot

/-- The transaction of a proof. The check can be disabled at the genesis of the chain. -/
def verifyTransactionInclusion (sha256d : List UInt8 → H256Le) (disableInclusionCheck : Bool)
    (uncheckedTransaction : FullTransactionProof) (confirmations : Option ℕ) :
    InclusionCall Transaction := do
  if disableInclusionCheck = true then pure uncheckedTransaction.userTxProof.transaction
  else do
    let userProofResult ← verifyMerkleProof sha256d uncheckedTransaction.userTxProof
    let coinbaseProofResult ← verifyMerkleProof sha256d uncheckedTransaction.coinbaseProof
    Call.ensure (coinbaseProofResult.transactionPosition = 0)
      (.error (.btcRelay .invalidCoinbasePosition))
    Call.ensure (userProofResult.extractedRoot = coinbaseProofResult.extractedRoot)
      (.error (.btcRelay .invalidMerkleProof))
    Call.ensure (userProofResult.blockHash = coinbaseProofResult.blockHash)
      (.error (.btcRelay .invalidMerkleProof))
    Call.ensure (userProofResult.txCount = coinbaseProofResult.txCount)
      (.error (.btcRelay .invalidMerkleProof))
    Call.ensure (coinbaseProofResult.transaction.isCoinbase = true)
      (.error (.btcRelay .invalidMerkleProof))
    let storedBlockHeader ← Call.mapError Fault.error
      (verifyBlockHeaderInclusion userProofResult.blockHash confirmations)
    Call.ensure (blockMatchesMerkleRoot storedBlockHeader userProofResult = true)
      (.error (.btcRelay .invalidMerkleProof))
    pure userProofResult.transaction

/-- The value of the first output that pays to an address, as an amount of some type. -/
def getIssuePayment {V : Type} (tryFrom : Int64 → Option V) (transaction : Transaction)
    (recipientBtcAddress : Address) : Except BtcRelayError V := do
  let paymentValue ← okOr .malformedTransaction (transaction.outputs.findSome? fun x =>
    match x.extractAddress with
    | .ok address => if address = recipientBtcAddress then some x.value else none
    | .error _ => none)
  okOr .invalidPaymentAmount (tryFrom paymentValue)

/-- Interface to the issue pallet; verifies inclusion and returns the payment amount. -/
def getAndVerifyIssuePayment {V : Type} (sha256d : List UInt8 → H256Le)
    (disableInclusionCheck : Bool) (tryFrom : Int64 → Option V)
    (uncheckedTransaction : FullTransactionProof) (recipientBtcAddress : Address) :
    InclusionCall V := do
  let transaction ← verifyTransactionInclusion sha256d disableInclusionCheck uncheckedTransaction
    none
  Call.ofExcept ((getIssuePayment tryFrom transaction recipientBtcAddress).mapError
    fun e => .error (.btcRelay e))

/-- Interface to redeem and replace to check that the payment is included and is valid. -/
def verifyAndValidateOpReturnTransaction (sha256d : List UInt8 → H256Le)
    (disableInclusionCheck : Bool) (uncheckedTransaction : FullTransactionProof)
    (recipientBtcAddress : Address) (expectedBtc : ℤ) (opReturnId : H256) :
    InclusionCall Unit := do
  let transaction ← verifyTransactionInclusion sha256d disableInclusionCheck uncheckedTransaction
    none
  let _ ← Call.ofExcept ((validateOpReturnTransaction transaction recipientBtcAddress expectedBtc
    opReturnId).mapError fun e => .error (.btcRelay e))
  pure ()

end BtcRelay

/-! ## What is hashed -/

variable {sha256d : List UInt8 → H256Le} {known : Set (List UInt8)} {block : List Transaction}
  {root : H256Le}

/-- The bytes that are hashed for the ids of a block's transactions and for its Merkle tree. -/
def blockBytes (sha256d : List UInt8 → H256Le) (block : List Transaction) : List (List UInt8) :=
  block.map Transaction.formatNoWitness ++
    (List.range (Nat.clog 2 block.length)).flatMap fun h =>
      (siblings (levels (hash256MerkleStep sha256d) (block.map (Transaction.txId sha256d)) h)).map
        fun pair => pair.1.toBytesLe ++ pair.2.toBytesLe

/-- The bytes that are hashed to verify a proof. -/
def PartialTransactionProof.bytes (sha256d : List UInt8 → H256Le) (self : PartialTransactionProof) :
    List (List UInt8) :=
  self.transaction.formatNoWitness ::
    (self.merkleProof.innerNodes sha256d).map fun node => node.left.toBytesLe ++ node.right.toBytesLe

/-- All bytes that are hashed for a block and for a proof that a transaction is in it. -/
def hashed (sha256d : List UInt8 → H256Le) (block : List Transaction)
    (proof : FullTransactionProof) : List (List UInt8) :=
  blockBytes sha256d block ++
    (proof.userTxProof.bytes sha256d ++ proof.coinbaseProof.bytes sha256d)

/-- A hash function on some bytes does not collide, and none of the hashes has as many zeroes as
the 27 bytes with which the input of a coinbase transaction begins in the place of a hash. -/
structure Resists (sha256d : List UInt8 → H256Le) (known : Set (List UInt8)) : Prop where
  injOn : Set.InjOn sha256d known
  large : ∀ bytes ∈ known, 2 ^ 40 ≤ (sha256d bytes).asU256

/-- The transactions of a block under a Merkle root. The first one is the coinbase transaction. -/
structure BlockUnder (sha256d : List UInt8 → H256Le) (block : List Transaction) (root : H256Le) :
    Prop where
  root : IsRoot (hash256MerkleStep sha256d) (block.map (Transaction.txId sha256d)) root
  coinbase : ∀ tx ∈ block.head?, tx.isCoinbase = true

/-! ## Coinbase transactions -/

private theorem Transaction.isCoinbase_iff {tx : Transaction} : tx.isCoinbase = true ↔
    ∃ height script sequence witness,
      tx.inputs = [⟨.coinbase height, script, sequence, witness⟩] := by
  rw [isCoinbase, Bool.and_eq_true, beq_iff_eq]
  constructor
  · rintro ⟨hlength, hsource⟩
    obtain ⟨input, hinput⟩ := List.length_eq_one_iff.mp hlength
    rw [hinput] at hsource ⊢
    rcases input with ⟨⟨hash, index⟩ | height, script, sequence, witness⟩
    · cases hsource
    · exact ⟨height, script, sequence, witness, rfl⟩
  · rintro ⟨height, script, sequence, witness, hinputs⟩
    rw [hinputs]
    exact ⟨rfl, rfl⟩

/-- Zeroes follow the first five bytes of a coinbase transaction. -/
theorem Transaction.isCoinbase_bytes {tx : Transaction} (h : tx.isCoinbase = true) :
    ∃ first rest, first.length = 5 ∧ tx.formatNoWitness = first ++ (List.replicate 27 0 ++ rest) := by
  obtain ⟨height, script, sequence, witness, hinputs⟩ := isCoinbase_iff.mp h
  have hcount : formatLength 1 = [1] := by decide
  have hzero : H256Le.zero.toBytesLe = List.replicate 27 0 ++ List.replicate 5 0 := by decide
  obtain ⟨tail, htail⟩ : ∃ tail, TransactionInput.tryFormat
      ⟨.coinbase height, script, sequence, witness⟩ = H256Le.zero.toBytesLe ++ tail := ⟨_, rfl⟩
  refine ⟨intToLeBytes 4 tx.version.toInt ++ [1], List.replicate 5 0 ++ (tail ++
    (formatVec TransactionOutput.tryFormat tx.outputs ++ tx.lockAt.tryFormat)), ?_, ?_⟩
  · rw [List.length_append, length_intToLeBytes]
    rfl
  · rw [formatNoWitness, formatVec, hinputs, List.length_singleton, hcount,
      List.flatMap_singleton, htail, hzero]
    simp only [List.append_assoc]

/-- Two hashes that make up a coinbase transaction begin with a small one. -/
theorem Transaction.isCoinbase_left {tx : Transaction} {left right : H256Le}
    (h : tx.isCoinbase = true) (heq : left.toBytesLe ++ right.toBytesLe = tx.formatNoWitness) :
    left.asU256 < 2 ^ 40 := by
  obtain ⟨first, rest, hlength, hbytes⟩ := isCoinbase_bytes h
  rw [hbytes, ← List.append_assoc] at heq
  obtain ⟨hleft, -⟩ := List.append_inj heq (by
    rw [H256Le.length_toBytesLe, List.length_append, hlength, List.length_replicate])
  have hvalue : left.asU256 = fromLeBytes first := by
    rw [← fromLeBytes_append_zeroes first 27, ← hleft]
    rfl
  have hlt := fromLeBytes_lt first
  rw [hlength] at hlt
  rw [hvalue]
  exact hlt

/-! ## Proofs -/

private theorem PartialTransactionProof.verifyProof_transaction {self : PartialTransactionProof}
    {result : ProofResult} (hok : self.verifyProof sha256d = .ok result) :
    result.transaction = self.transaction ∧
      result.blockHash = self.merkleProof.blockHeader.hash := by
  rw [verifyProof] at hok
  dsimp only at hok
  split at hok
  · cases hok
  split at hok
  · cases hok
  split at hok
  · cases hok
  obtain ⟨⟨root, traversal⟩, -, hok⟩ := except_bind_eq_ok.mp hok
  dsimp only at hok
  split at hok
  · split at hok
    · cases hok
    split at hok
    · cases hok
    obtain ⟨txId, -, hok⟩ := except_bind_eq_ok.mp hok
    split at hok
    · cases hok
    split at hok
    · cases hok
    · cases hok
      exact ⟨rfl, rfl⟩
  · cases hok

/-- The first leaf of an accepted proof tells the height of the tree: two hashes are not a
coinbase transaction. -/
theorem accepted_in_block {user coinbase : PartialTransactionProof}
    {userResult coinbaseResult : ProofResult} {txCount : ℕ} (hresists : Resists sha256d known)
    (hblock : BlockUnder sha256d block root)
    (hids : ∀ tx ∈ block, tx.formatNoWitness ∈ known)
    (hused : UsedBelow (hash256MerkleStep sha256d) (Known known)
      (block.map (Transaction.txId sha256d)) (Nat.clog 2 block.length))
    (huser : AcceptedProof sha256d known root txCount user userResult)
    (hcoinbase : AcceptedProof sha256d known root txCount coinbase coinbaseResult)
    (hposition : coinbaseResult.transactionPosition = 0)
    (hfirst : coinbase.transaction.isCoinbase = true)
    (huserBytes : user.transaction.formatNoWitness ∈ known)
    (hcoinbaseBytes : coinbase.transaction.formatNoWitness ∈ known) :
    ∃ tx ∈ block, tx.formatNoWitness = user.transaction.formatNoWitness := by
  have hbinding := binding_known hresists.injOn
  have hlevels := hblock.root.levels_clog
  rw [List.length_map] at hlevels
  obtain ⟨-, hmax, -, huserOpens, -⟩ := huser.opens
  obtain ⟨-, -, -, hcoinbaseOpens, -⟩ := hcoinbase.opens
  obtain ⟨-, -, -, huserId, -⟩ := PartialTransactionProof.verifyProof_eq_ok huser.verified
  obtain ⟨-, -, -, hcoinbaseId, -⟩ := PartialTransactionProof.verifyProof_eq_ok hcoinbase.verified
  rw [OpensTo, ← huserId] at huserOpens
  rw [OpensTo, ← hcoinbaseId, hposition] at hcoinbaseOpens
  -- all values are hashes of known bytes, and none of the combined ones is of a coinbase
  have hheight : computeHeight txCount = Nat.clog 2 block.length :=
    Opens.height_eq hbinding hused hlevels (fun v => ∃ bytes ∈ known, sha256d bytes = v)
      (fun v => ∃ tx : Transaction, tx.isCoinbase = true ∧ tx.formatNoWitness ∈ known ∧
        tx.txId sha256d = v)
      (fun leaf hleaf => by
        obtain ⟨tx, htx, rfl⟩ := List.mem_map.mp hleaf
        exact ⟨_, hids tx htx, rfl⟩)
      (fun left right hpair => ⟨_, hpair, rfl⟩)
      (by
        rintro left right hpair ⟨bytes, hbytes, rfl⟩ ⟨tx, htx, htxBytes, heq⟩
        have hsmall := tx.isCoinbase_left htx (hresists.injOn hpair htxBytes heq.symm)
        exact absurd hsmall (Nat.not_lt.mpr (hresists.large bytes hbytes)))
      (fun leaf hleaf => by
        rw [List.head?_map] at hleaf
        obtain ⟨tx, htx, rfl⟩ := Option.mem_map.mp hleaf
        exact ⟨tx, hblock.coinbase tx htx, hids tx (List.mem_of_mem_head? htx), rfl⟩)
      hcoinbaseOpens ⟨_, hcoinbaseBytes, rfl⟩ ⟨_, hfirst, hcoinbaseBytes, rfl⟩
  rw [hheight] at huserOpens
  have hmem := huserOpens.mem_levels hbinding hused hlevels
  rw [levels] at hmem
  obtain ⟨tx, htx, hid⟩ := List.mem_map.mp hmem
  exact ⟨tx, htx, hresists.injOn (hids tx htx) huserBytes hid⟩

/-! ## Verified transactions -/

/-- The hashes of a block's tree are known where the bytes that are hashed for it are. -/
theorem usedBelow_blockBytes (hknown : ∀ bytes ∈ blockBytes sha256d block, bytes ∈ known) :
    UsedBelow (hash256MerkleStep sha256d) (Known known)
      (block.map (Transaction.txId sha256d)) (Nat.clog 2 block.length) := by
  intro h hh pair hpair
  refine hknown _ (List.mem_append_right _ (List.mem_flatMap.mpr ⟨h, List.mem_range.mpr hh, ?_⟩))
  exact List.mem_map_of_mem hpair

namespace BtcRelay

variable {s s' : BtcRelay} {proof : FullTransactionProof} {confirmations : Option ℕ}
  {tx : Transaction}

/-- A block is stored on the main chain, with the confirmations of both chains; the parachain's
are added in 32 bits. -/
structure Confirmed (s : BtcRelay) (blockHash : H256Le) (confirmations : Option ℕ)
    (b : RichBlockHeader) : Prop where
  stored : s.blockHeaders blockHash = some b
  main : b.chainId = mainChainId
  bitcoin : b.blockHeight + confirmations.getD s.stableBitcoinConfirmations ≤ s.bestBlockHeight + 1
  parachain : (b.paraHeight + s.stableParachainConfirmations) % 2 ^ 32 ≤ s.activeBlockNumber

private theorem run_verifyBlockHeaderInclusion_confirmed {blockHash : H256Le} {header : BlockHeader}
    (h : (verifyBlockHeaderInclusion blockHash confirmations).run s = .ok header s') :
    s' = s ∧ ∃ b, Confirmed s blockHash confirmations b ∧ b.blockHeader = header := by
  obtain ⟨-, b, hb, hheader, hmain, hconf⟩ := run_verifyBlockHeaderInclusion h
  simp only [verifyBlockHeaderInclusion, getBlockHeaderFromHash, checkBitcoinConfirmations,
    checkParachainConfirmations, Call.run_bind_eq_ok, Call.run_get_eq_ok, Call.run_ensure_eq_ok,
    Call.run_ofOption_eq_ok, Call.run_pure_eq_ok] at h
  obtain ⟨_, _, ⟨rfl, rfl⟩, _, s₁, hcheck, b', _, ⟨_, _, ⟨rfl, rfl⟩, hb', rfl⟩, _, _, ⟨-, rfl⟩, _,
    _, ⟨_, _, ⟨rfl, rfl⟩, _, _, ⟨-, rfl⟩, -, rfl⟩, _, _, ⟨_, _, ⟨rfl, rfl⟩, hpara, rfl⟩, -, rfl⟩ := h
  obtain ⟨rfl, -⟩ := run_ensureNoOngoingFork hcheck
  obtain rfl := Option.some.inj (hb'.symm.trans hb)
  exact ⟨rfl, b', ⟨hb, hmain, hconf, hpara⟩, hheader⟩

private theorem run_verifyMerkleProof {self : PartialTransactionProof} {result : ProofResult}
    (h : (verifyMerkleProof sha256d self).run s = .ok result s') :
    s' = s ∧ self.verifyProof sha256d = .ok result := by
  obtain ⟨hverified, rfl⟩ := Call.run_ofExcept_eq_ok.mp h
  cases hrun : self.verifyProof sha256d with
  | error fault =>
    rw [hrun] at hverified
    cases hverified
  | ok found =>
    rw [hrun] at hverified
    cases hverified
    exact ⟨rfl, rfl⟩

/-- What a successful check of a transaction's inclusion has checked. -/
theorem run_verifyTransactionInclusion
    (h : (verifyTransactionInclusion sha256d false proof confirmations).run s = .ok tx s') :
    s' = s ∧ ∃ user coinbase b,
      proof.userTxProof.verifyProof sha256d = .ok user ∧
      proof.coinbaseProof.verifyProof sha256d = .ok coinbase ∧
      coinbase.transactionPosition = 0 ∧ user.extractedRoot = coinbase.extractedRoot ∧
      user.txCount = coinbase.txCount ∧ coinbase.transaction.isCoinbase = true ∧
      Confirmed s user.blockHash confirmations b ∧
      user.extractedRoot = b.blockHeader.merkleRoot ∧ tx = user.transaction := by
  simp only [verifyTransactionInclusion, Bool.false_eq_true, if_false, Call.run_bind_eq_ok,
    Call.run_ensure_eq_ok, Call.run_mapError_eq_ok, Call.run_pure_eq_ok] at h
  obtain ⟨user, _, hrunUser, coinbase, _, hrunCoinbase, _, _, ⟨hposition, rfl⟩, _, _, ⟨hroots, rfl⟩, _, _,
    ⟨-, rfl⟩, _, _, ⟨hcounts, rfl⟩, _, _, ⟨hfirst, rfl⟩, header, _, hheader, _, _, ⟨hmatches, rfl⟩,
    rfl, rfl⟩ := h
  obtain ⟨rfl, huser⟩ := run_verifyMerkleProof hrunUser
  obtain ⟨rfl, hcoinbase⟩ := run_verifyMerkleProof hrunCoinbase
  obtain ⟨rfl, b, hconfirmed, rfl⟩ := run_verifyBlockHeaderInclusion_confirmed hheader
  exact ⟨rfl, user, coinbase, b, huser, hcoinbase, hposition, hroots, hcounts, hfirst, hconfirmed,
    of_decide_eq_true hmatches, rfl⟩

/-- The block that a proof names is on the main chain with the confirmations. Where hashes resist
on all that is hashed for the block and the proof, the block has a transaction with a property. -/
def InBlock (sha256d : List UInt8 → H256Le) (s : BtcRelay) (proof : FullTransactionProof)
    (confirmations : Option ℕ) (P : Transaction → Prop) : Prop :=
  ∃ b, Confirmed s proof.userTxProof.merkleProof.blockHeader.hash confirmations b ∧
    ∀ block : List Transaction, BlockUnder sha256d block b.blockHeader.merkleRoot →
      Resists sha256d { bytes | bytes ∈ hashed sha256d block proof } →
      (∀ tx ∈ proof.userTxProof.transaction :: block, tx.LengthsFit) → ∃ tx ∈ block, P tx

private theorem InBlock.mono {P Q : Transaction → Prop}
    (h : InBlock sha256d s proof confirmations P)
    (himp : ∀ tx, P tx → Q tx) : InBlock sha256d s proof confirmations Q := by
  obtain ⟨b, hconfirmed, hblocks⟩ := h
  refine ⟨b, hconfirmed, fun block hblock hresists hfit => ?_⟩
  obtain ⟨tx, htx, hP⟩ := hblocks block hblock hresists hfit
  exact ⟨tx, htx, himp tx hP⟩

/-- A verified transaction is one of its block, up to witnesses. -/
theorem inBlock_of_verified
    (hok : (verifyTransactionInclusion sha256d false proof confirmations).run s = .ok tx s') :
    InBlock sha256d s proof confirmations fun tx' => tx'.stripped = tx.stripped := by
  obtain ⟨rfl, user, coinbase, b, huser, hcoinbase, hposition, hroots, hcounts, hfirst, hconfirmed,
    hroot, rfl⟩ := run_verifyTransactionInclusion hok
  obtain ⟨htransaction, hhash⟩ := PartialTransactionProof.verifyProof_transaction huser
  obtain ⟨hcoinbaseTx, -⟩ := PartialTransactionProof.verifyProof_transaction hcoinbase
  rw [hhash] at hconfirmed
  rw [hcoinbaseTx] at hfirst
  refine ⟨b, hconfirmed, fun block hblock hresists hfit => ?_⟩
  have hblockBytes : ∀ bytes ∈ blockBytes sha256d block, bytes ∈ hashed sha256d block proof :=
    fun bytes => List.mem_append_left _
  have huserBytes : ∀ bytes ∈ proof.userTxProof.bytes sha256d,
      bytes ∈ hashed sha256d block proof :=
    fun bytes hbytes => List.mem_append_right _ (List.mem_append_left _ hbytes)
  have hcoinbaseBytes : ∀ bytes ∈ proof.coinbaseProof.bytes sha256d,
      bytes ∈ hashed sha256d block proof :=
    fun bytes hbytes => List.mem_append_right _ (List.mem_append_right _ hbytes)
  have huserAccepted : AcceptedProof sha256d { bytes | bytes ∈ hashed sha256d block proof }
      b.blockHeader.merkleRoot user.txCount proof.userTxProof user :=
    ⟨huser, hroot, rfl, fun node hnode =>
      huserBytes _ (List.mem_cons_of_mem _ (List.mem_map_of_mem hnode))⟩
  have hcoinbaseAccepted : AcceptedProof sha256d { bytes | bytes ∈ hashed sha256d block proof }
      b.blockHeader.merkleRoot user.txCount proof.coinbaseProof coinbase :=
    ⟨hcoinbase, hroots.symm.trans hroot, hcounts.symm, fun node hnode =>
      hcoinbaseBytes _ (List.mem_cons_of_mem _ (List.mem_map_of_mem hnode))⟩
  obtain ⟨tx, htx, hbytes⟩ := accepted_in_block hresists hblock
    (fun tx htx => hblockBytes _ (List.mem_append_left _ (List.mem_map_of_mem htx)))
    (usedBelow_blockBytes hblockBytes) huserAccepted hcoinbaseAccepted hposition hfirst
    (huserBytes _ List.mem_cons_self) (hcoinbaseBytes _ List.mem_cons_self)
  rw [htransaction]
  exact ⟨tx, htx, prefixCode_transaction.key_eq (hfit tx (List.mem_cons_of_mem _ htx))
    (hfit _ List.mem_cons_self) hbytes⟩

/-! ## Payments -/

/-- The first output that pays to an address pays an amount. -/
def PaysFirst (tx : Transaction) (recipient : Address) (value : Int64) : Prop :=
  ∃ before after, tx.outputs = before ++ .payment value recipient :: after ∧
    ∀ output ∈ before, ∀ other, output ≠ .payment other recipient

private theorem getIssuePayment_eq_ok {V : Type} {tryFrom : Int64 → Option V} {recipient : Address}
    {v : V}
    (h : getIssuePayment tryFrom tx recipient = .ok v) :
    ∃ value, tryFrom value = some v ∧ PaysFirst tx recipient value := by
  obtain ⟨value, hvalue, h⟩ := except_bind_eq_ok.mp h
  refine ⟨value, okOr_eq_ok.mp h, ?_⟩
  obtain ⟨before, output, after, houtputs, hfound, hnone⟩ :=
    List.findSome?_eq_some_iff.mp (okOr_eq_ok.mp hvalue)
  cases haddress : output.extractAddress with
  | error e =>
    rw [haddress] at hfound
    cases hfound
  | ok address =>
    rw [haddress] at hfound
    dsimp only at hfound
    split at hfound
    · next heq =>
      subst heq
      cases hfound
      refine ⟨before, after, ?_, fun other hother value hpayment => ?_⟩
      · rw [houtputs, ← TransactionOutput.extractAddress_eq_ok.mp haddress]
      · have hnot := hnone other hother
        have hother : other.extractAddress = .ok address := by
          rw [TransactionOutput.extractAddress_eq_ok, hpayment]
          rfl
        rw [hother] at hnot
        dsimp only at hnot
        rw [if_pos rfl] at hnot
        cases hnot
    · cases hfound

private theorem outputs_eq_of_stripped {tx' : Transaction} (h : tx'.stripped = tx.stripped) :
    tx'.outputs = tx.outputs := congrArg (fun stripped => stripped.2.1.2) h

/-- In every state of the relay: a verified transaction is one of a block on the main chain, up to
its witnesses. So is a payment with data that redeem or replace gets verified, and the first
payment to an address of which issue gets the amount. -/
theorem payments_in_block (sha256d : List UInt8 → H256Le) (s : BtcRelay)
    (proof : FullTransactionProof) :
    (∀ confirmations tx, (verifyTransactionInclusion sha256d false proof confirmations).value? s =
        some tx →
      InBlock sha256d s proof confirmations fun tx' => tx'.stripped = tx.stripped) ∧
    (∀ recipient amount id, (verifyAndValidateOpReturnTransaction sha256d false proof recipient
        amount id).succeeds s = true →
      InBlock sha256d s proof none fun tx => ∃ further, PaysTo tx recipient amount id further) ∧
    ∀ (V : Type) (tryFrom : Int64 → Option V) recipient v,
      (getAndVerifyIssuePayment sha256d false tryFrom proof recipient).value? s = some v →
        InBlock sha256d s proof none fun tx =>
          ∃ value, tryFrom value = some v ∧ PaysFirst tx recipient value := by
  refine ⟨fun confirmations tx hvalue => ?_, fun recipient amount id hsucceeds => ?_,
    fun V tryFrom recipient v hvalue => ?_⟩
  · obtain ⟨s', hrun⟩ := Call.exists_of_value? hvalue
    exact inBlock_of_verified hrun
  · obtain ⟨_, s', hrun⟩ := Call.succeeds_iff.mp hsucceeds
    simp only [verifyAndValidateOpReturnTransaction, Call.run_bind_eq_ok,
      Call.run_ofExcept_eq_ok] at hrun
    obtain ⟨tx, s₁, hok, address, _, ⟨hvalid, rfl⟩, -⟩ := hrun
    refine (inBlock_of_verified hok).mono fun tx' hstripped => ?_
    cases hpayment : validateOpReturnTransaction tx recipient amount id with
    | error e =>
      rw [hpayment] at hvalid
      cases hvalid
    | ok change =>
      obtain ⟨further, ⟨hne, value, hvalue, hperm⟩, -⟩ :=
        validateOpReturnTransaction_eq_ok.mp hpayment
      rw [← outputs_eq_of_stripped hstripped] at hperm
      exact ⟨further, hne, value, hvalue, hperm⟩
  · obtain ⟨s', hrun⟩ := Call.exists_of_value? hvalue
    simp only [getAndVerifyIssuePayment, Call.run_bind_eq_ok, Call.run_ofExcept_eq_ok] at hrun
    obtain ⟨tx, s₁, hok, hvalid, rfl⟩ := hrun
    refine (inBlock_of_verified hok).mono fun tx' hstripped => ?_
    cases hpayment : getIssuePayment tryFrom tx recipient with
    | error e =>
      rw [hpayment] at hvalid
      cases hvalid
    | ok paid =>
      rw [hpayment] at hvalid
      cases hvalid
      obtain ⟨value, hvalue, hfirst⟩ := getIssuePayment_eq_ok hpayment
      rw [PaysFirst, ← outputs_eq_of_stripped hstripped] at hfirst
      exact ⟨value, hvalue, hfirst⟩

namespace Sample

open Interbtc.Sample

/-- Where the payment goes to. -/
def recipient : Address := .p2pkh (Vector.replicate 20 3)

/-- What the payment is for. -/
def requestId : H256 := Vector.replicate 32 5

/-- A transaction that pays for a request. -/
def redeemed : Transaction :=
  ⟨2, [⟨.fromOutput (.fromInteger 5) 0, [], 0, []⟩],
    [.opReturn 0 requestId.toList, .payment 100 recipient], .blockHeight 0⟩

/-- A block with a coinbase transaction and the payment. -/
def transactions : List Transaction := [paying 50, redeemed]

/-- The ids of the block. -/
def ids : List H256Le := transactions.map (Transaction.txId digest)

/-- The root above both transactions. -/
def merkleRoot : H256Le := hash256MerkleStep digest ((paying 50).txId digest) (redeemed.txId digest)

/-- A block of that root. -/
def header : BlockHeader := { BlockHeader.default with merkleRoot := merkleRoot, hash := .fromInteger 7 }

/-- A relay with the block as its best one. -/
def relay : BtcRelay :=
  (BtcRelay.genesis 1 0 false).setBlockHeader header.hash ⟨header, 0, mainChainId, 0⟩

/-- A proof of one of the two transactions. -/
def proofOf (tx : Transaction) (marks : List Bool) : PartialTransactionProof where
  transaction := tx
  txEncodedLen := 1000
  merkleProof :=
    { blockHeader := header
      transactionsCount := 2
      flagBits := true :: marks
      hashes := ids }

/-- The payment, with the coinbase of its block. -/
def fullProof : FullTransactionProof := ⟨proofOf redeemed [false, true], proofOf (paying 50) [true, false]⟩

private theorem resists_hashed :
    Resists digest { bytes | bytes ∈ hashed digest transactions fullProof } where
  injOn := by
    have hlist : ∀ x ∈ hashed digest transactions fullProof,
        ∀ y ∈ hashed digest transactions fullProof, digest x = digest y → x = y := by
      decide +kernel
    exact fun x hx y hy => hlist x hx y hy
  large := by
    have hlist : ∀ x ∈ hashed digest transactions fullProof, 2 ^ 40 ≤ (digest x).asU256 := by
      decide +kernel
    exact hlist

private theorem blockUnder_transactions : BlockUnder digest transactions merkleRoot where
  root := ⟨1, by decide +kernel, by decide +kernel⟩
  coinbase := by decide +kernel

/-- The payment of the example is verified, and its block has it. -/
theorem payments_in_block_redeemed :
    ∃ tx ∈ transactions, ∃ further, PaysTo tx recipient 100 requestId further := by
  have hsucceeds : (verifyAndValidateOpReturnTransaction digest false fullProof recipient 100
      requestId).succeeds relay = true := by decide +kernel
  obtain ⟨b, hconfirmed, hblocks⟩ :=
    (payments_in_block digest relay fullProof).2.1 recipient 100 requestId hsucceeds
  have hheader : b.blockHeader = header := by
    have hstored : relay.blockHeaders header.hash = some ⟨header, 0, mainChainId, 0⟩ := by
      decide +kernel
    exact congrArg RichBlockHeader.blockHeader (Option.some.inj (hconfirmed.stored.symm.trans hstored))
  refine hblocks transactions ?_ resists_hashed (by decide +kernel)
  rw [hheader]
  exact blockUnder_transactions

end Sample

end BtcRelay

end Interbtc
