import Interbtc.Bitcoin.Layout

/-!
# Merkle proofs and their bytes

A proof holds the header of a block, the number of the block's transactions, some hashes of
its Merkle tree, and one flag for each node of the tree that is visited.
-/

namespace Interbtc

open Core BytesParser Grammar

/-- Stores the content of a merkle proof. -/
structure MerkleProof where
  blockHeader : BlockHeader
  flagBits : List Bool
  transactionsCount : UInt32
  hashes : List H256Le
  deriving DecidableEq

namespace MerkleProof

variable (sha256d : List UInt8 → H256Le)

/-- The fields of a proof, in their order. -/
def read : BytesParser MerkleProof := do
  let blockHeader ← BytesParser.parse (BlockHeader.parse sha256d)
  let transactionsCount ← BytesParser.parse parseU32
  let hashesCount ← BytesParser.parse CompactUint.parse
  let hashes ← Reader.times (BytesParser.parse parseH256Le) hashesCount.value.toNat
  let flagBitsCount ← BytesParser.parse CompactUint.parse
  let flagBits ← Reader.times (BytesParser.parse parseFlagBits) flagBitsCount.value.toNat
  pure ⟨blockHeader, flagBits.flatten, transactionsCount, hashes⟩

/-- Parses a merkle proof as produced by the bitcoin client gettxoutproof. -/
def parse (merkleProof : List UInt8) : Except Halt MerkleProof := do
  let (proof, _) ← read sha256d merkleProof 0
  .ok proof

end MerkleProof

/-! ## Headers -/

variable {sha256d : List UInt8 → H256Le} {bytes : List UInt8}

/-- The fields of a header in the order of their bytes. -/
def headerGrammar (sha256d : List UInt8 → H256Le) (bytes : List UInt8) :
    Grammar UInt8 BlockHeader :=
  (exact fun v : Int32 => intToLeBytes 4 v.toInt).bind fun version =>
    (exact H256Le.toBytesLe).bind fun hashPrevBlock =>
      (exact H256Le.toBytesLe).bind fun merkleRoot =>
        (exact fun v : UInt32 => toLeBytes 4 v.toNat).bind fun timestamp =>
          (wordGrammar 4 readTarget).bind fun target =>
            (exact fun v : UInt32 => toLeBytes 4 v.toNat).bind fun nonce => .pure
              { merkleRoot := merkleRoot
                target := target
                timestamp := timestamp.toNat
                version := version.toInt
                hashPrevBlock := hashPrevBlock
                nonce := nonce.toNat
                hash := sha256d bytes }

private theorem describes_readBlockHeader (sha256d : List UInt8 → H256Le) (bytes : List UInt8) :
    Describes sliceBound (readBlockHeader sha256d bytes) (headerGrammar sha256d bytes) :=
  describes_parseI32.bind fun _ => describes_hash.bind fun _ => describes_hash.bind fun _ =>
    describes_parseU32.bind fun _ => describes_parseTarget.bind fun _ =>
      describes_parseU32.bind fun _ => .pure _

private theorem headerGrammar_trapFree : (headerGrammar sha256d bytes).TrapFree :=
  (TrapFree.exact _).bind fun _ => (TrapFree.exact _).bind fun _ => (TrapFree.exact _).bind fun _ =>
    (TrapFree.exact _).bind fun _ => TrapFree.bind (fun _ _ => id) fun _ =>
      (TrapFree.exact _).bind fun _ => .pure _

/-- The parser of block headers does not panic. -/
theorem parseBlockHeader_ne_panic (hlimit : bytes.length < sliceBound) :
    parseBlockHeader sha256d bytes ≠ .error .panic := by
  have htrap : readBlockHeader sha256d bytes bytes 0 ≠ .error .panic := fun h =>
    headerGrammar_trapFree _ _
      (((describes_readBlockHeader sha256d bytes).trap [] hlimit).mp h)
  change (readBlockHeader sha256d bytes bytes 0 >>= _) ≠ _
  cases hread : readBlockHeader sha256d bytes bytes 0 with
  | error fault =>
    rintro ⟨⟩
    exact htrap hread
  | ok result => exact fun h => nomatch h

private theorem describes_parseHeader (sha256d : List UInt8 → H256Le) :
    Describes sliceBound (parse (BlockHeader.parse sha256d))
      (wordGrammar 80 (parseBlockHeader sha256d)) := by
  refine describes_word (fun b hb => parseBlockHeader_ne_panic ?_) fun {pre s} hlimit => ?_
  · rw [hb]
    unfold sliceBound
    omega
  · have hplus : plus pre.length 80 = .ok (pre.length + 80) :=
      plus_append hlimit (by unfold sliceBound; omega)
    change (plus pre.length 80 >>= _) = _
    rw [hplus]
    change (getRange (pre ++ s) pre.length (pre.length + 80) >>= _) = _
    rw [getRange_append]
    split
    · change (parseBlockHeader sha256d (s.take 80) >>= _) = _
      cases parseBlockHeader sha256d (s.take 80) <;> rfl
    · rfl

/-! ## Flags -/

/-- The eight flags of a byte. -/
def byteFlags (b : UInt8) : List Bool := (List.range 8).map fun i => b.toNat.testBit i

/-- A byte holds eight flags. -/
def flagsGrammar : Grammar UInt8 (List Bool) :=
  ⟨fun b flags => ∃ byte, b = [byte] ∧ flags = byteFlags byte, fun _ _ => False⟩

private def firstFlags : List UInt8 → Except Halt (List Bool × ℕ)
  | [] => .error (.error .endOfFile)
  | byte :: _ => .ok (byteFlags byte, 1)

private theorem parseFlagBits_append (pre s : List UInt8) :
    parseFlagBits (pre ++ s) pre.length = firstFlags s := by
  unfold parseFlagBits
  cases s with
  | nil => rw [List.append_nil, List.getElem?_eq_none le_rfl]; rfl
  | cons byte s => rw [List.getElem?_append_right le_rfl, Nat.sub_self]; rfl

private theorem describes_parseFlagBits : Describes sliceBound (parse parseFlagBits) flagsGrammar :=
    by
  have hrun : ∀ {pre s : List UInt8}, (pre ++ s).length < sliceBound →
      parse parseFlagBits (pre ++ s) pre.length =
        (firstFlags s).map fun result => (result.1, pre.length + result.2) := by
    intro pre s hlimit
    rw [parse_eq _ hlimit fun a n h => ?_, parseFlagBits_append]
    rw [parseFlagBits_append] at h
    cases s with
    | nil => exact nomatch h
    | cons byte s =>
      cases h
      exact Nat.succ_pos _
  constructor
  · rintro pre _ rest flags hlimit ⟨byte, rfl, rfl⟩
    rw [hrun hlimit]
    rfl
  · intro pre s flags next hlimit h
    rw [hrun hlimit] at h
    cases s with
    | nil => exact nomatch h
    | cons byte s =>
      cases h
      exact ⟨[byte], s, rfl, ⟨byte, rfl, rfl⟩, rfl⟩
  · intro pre s hlimit
    rw [hrun hlimit]
    refine iff_of_false ?_ id
    cases s <;> exact fun h => nomatch h

/-! ## Proofs -/

/-- The bytes of a proof. -/
def proofGrammar (sha256d : List UInt8 → H256Le) : Grammar UInt8 MerkleProof :=
  (wordGrammar 80 (parseBlockHeader sha256d)).bind fun blockHeader =>
    (exact fun v : UInt32 => toLeBytes 4 v.toNat).bind fun transactionsCount =>
      (⟨fun b n => CompactBytes b n.value.toNat, fun _ _ => False⟩ :
        Grammar UInt8 CompactUint).bind fun hashesCount =>
          ((exact H256Le.toBytesLe).times hashesCount.value.toNat).bind fun hashes =>
            (⟨fun b n => CompactBytes b n.value.toNat, fun _ _ => False⟩ :
              Grammar UInt8 CompactUint).bind fun flagBitsCount =>
                (flagsGrammar.times flagBitsCount.value.toNat).bind fun flagBits =>
                  .pure ⟨blockHeader, flagBits.flatten, transactionsCount, hashes⟩

private theorem describes_readProof (sha256d : List UInt8 → H256Le) :
    Describes sliceBound (MerkleProof.read sha256d) (proofGrammar sha256d) :=
  (describes_parseHeader sha256d).bind fun _ => describes_parseU32.bind fun _ =>
    describes_parseCompactUint.bind fun _ => (describes_hash.times _).bind fun _ =>
      describes_parseCompactUint.bind fun _ => (describes_parseFlagBits.times _).bind fun _ =>
        .pure _

private theorem proofGrammar_trapFree : (proofGrammar sha256d).TrapFree :=
  TrapFree.bind (fun _ _ => id) fun _ => (TrapFree.exact _).bind fun _ =>
    TrapFree.bind (fun _ _ => id) fun _ => ((TrapFree.exact _).times _).bind fun _ =>
      TrapFree.bind (fun _ _ => id) fun _ => (TrapFree.times (fun _ _ => id) _).bind fun _ => .pure _

/-- The parser of proofs does not panic. -/
theorem parse_ne_panic (hlimit : bytes.length < sliceBound) :
    MerkleProof.parse sha256d bytes ≠ .error .panic := by
  have htrap : MerkleProof.read sha256d bytes 0 ≠ .error .panic := fun h =>
    proofGrammar_trapFree _ _
      (((describes_readProof sha256d).trap [] hlimit).mp h)
  change (MerkleProof.read sha256d bytes 0 >>= _) ≠ _
  cases hread : MerkleProof.read sha256d bytes 0 with
  | error fault =>
    rintro ⟨⟩
    exact htrap hread
  | ok result => exact fun h => nomatch h

/-- A proof has no more hashes than bytes, and no more than eight flags for each byte. -/
theorem proof_lengths (hlimit : bytes.length < sliceBound) {proof : MerkleProof}
    (h : MerkleProof.parse sha256d bytes = .ok proof) :
    proof.hashes.length ≤ bytes.length ∧ proof.flagBits.length ≤ 8 * bytes.length := by
  obtain ⟨next, hread⟩ : ∃ next, MerkleProof.read sha256d bytes 0 = .ok (proof, next) := by
    change (MerkleProof.read sha256d bytes 0 >>= _) = _ at h
    cases hread : MerkleProof.read sha256d bytes 0 with
    | error fault => rw [hread] at h; exact nomatch h
    | ok result =>
      rw [hread] at h
      cases h
      exact ⟨result.2, rfl⟩
  obtain ⟨_, rest, rfl, ⟨b₁, _, header, rfl, -, hcount⟩, -⟩ :=
    (describes_readProof sha256d).accepted [] hlimit hread
  obtain ⟨count, _, rfl, c, _, n, rfl, -, bh, _, hashes, rfl, hhashes, d, _, m, rfl, -, bf, _,
    flags, rfl, hflags, rfl, rfl⟩ := exact_bind_accepts.mp hcount
  have hhashes' := (times_accepts.mp hhashes).2.length_le fun b h hb => by
    rw [show b = _ from hb, H256Le.length_toBytesLe]
    exact Nat.succ_pos _
  obtain ⟨-, hflags⟩ := times_accepts.mp hflags
  have hflags' := hflags.length_le fun b _ hb => by
    obtain ⟨byte, rfl, -⟩ := hb
    exact Nat.succ_pos _
  have height : ∀ f ∈ flags, f.length = 8 := by
    clear * - hflags
    induction hflags with
    | nil => exact fun _ h => nomatch h
    | cons hb _ ih =>
      obtain ⟨byte, -, rfl⟩ := hb
      rintro f (_ | ⟨_, hf⟩)
      · rfl
      · exact ih f hf
  have hflat : flags.flatten.length = 8 * flags.length := by
    rw [List.length_flatten, List.map_congr_left height, List.map_const',
      List.sum_replicate_nat, Nat.mul_comm]
  simp only [List.length_append]
  rw [hflat]
  omega

end Interbtc
