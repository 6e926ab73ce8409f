import Interbtc.Bitcoin.Compact
import Interbtc.Core.Call
import Interbtc.Primitives

/-!
# Bitcoin hashes and headers

A hash is a string of 32 bytes, read as a little-endian number. A header carries its own
hash, which is computed from the bytes of its other fields.
-/

namespace Interbtc

open Core

/-- Errors of the Bitcoin library. -/
inductive BitcoinError
  | malformedMerkleProof
  | invalidMerkleProof
  | endOfFile
  | invalidBlockVersion
  | malformedTransaction
  | malformedOpReturnOutput
  | invalidBtcAddress
  | arithmeticOverflow
  | arithmeticUnderflow
  | invalidCompact
  | boundExceeded
  | invalidTxid
  deriving DecidableEq, Repr

/-- The relay reports an error of the library as its own. -/
def BtcRelayError.ofBitcoin : BitcoinError → BtcRelayError
  | .malformedMerkleProof => .malformedMerkleProof
  | .invalidMerkleProof => .invalidMerkleProof
  | .endOfFile => .endOfFile
  | .invalidBlockVersion => .invalidBlockVersion
  | .malformedTransaction => .malformedTransaction
  | .malformedOpReturnOutput => .malformedOpReturnOutput
  | .invalidBtcAddress => .invalidBtcAddress
  | .arithmeticOverflow => .arithmeticOverflow
  | .arithmeticUnderflow => .arithmeticUnderflow
  | .invalidCompact => .invalidCompact
  | .boundExceeded => .boundExceeded
  | .invalidTxid => .invalidTxid

/-- The largest 32-bit unsigned number. -/
def maxU32 : ℕ := 2 ^ 32 - 1

/-! ## Bytes -/

/-- The little-endian bytes of an unsigned number of some width. -/
def toLeBytes (width n : ℕ) : List UInt8 :=
  (List.range width).map fun i => UInt8.ofNat (n / 256 ^ i)

/-- The little-endian bytes of a signed number of some width. -/
def intToLeBytes (width : ℕ) (n : ℤ) : List UInt8 := toLeBytes width (n % 256 ^ width).toNat

/-- A number takes its width. -/
@[simp] theorem length_toLeBytes (width n : ℕ) : (toLeBytes width n).length = width := by
  simp [toLeBytes]

/-- The lowest byte comes first. -/
theorem toLeBytes_succ (width n : ℕ) :
    toLeBytes (width + 1) n = UInt8.ofNat n :: toLeBytes width (n / 256) := by
  rw [toLeBytes, List.range_succ_eq_map, List.map_cons, List.map_map, pow_zero, Nat.div_one]
  congr 1
  refine List.map_congr_left fun i _ => ?_
  rw [Function.comp_apply, Nat.succ_eq_add_one, pow_succ', ← Nat.div_div_eq_div_mul]

/-- Reading the bytes of a number gives the number, as far as it fits. -/
theorem foldr_toLeBytes (width n : ℕ) :
    (toLeBytes width n).foldr (fun b n => b.toNat + 256 * n) 0 = n % 256 ^ width := by
  induction width generalizing n with
  | zero => rw [pow_zero, Nat.mod_one]; rfl
  | succ width ih =>
    rw [toLeBytes_succ, List.foldr_cons, ih, UInt8.toNat_ofNat',
      show 256 ^ (width + 1) = 256 * 256 ^ width from pow_succ' _ _, Nat.mod_mul]

/-- A signed number takes its width. -/
@[simp] theorem length_intToLeBytes (width : ℕ) (n : ℤ) : (intToLeBytes width n).length = width :=
  length_toLeBytes _ _

/-- A hash of 32 bytes. -/
structure H256Le where
  content : List UInt8
  length_content : content.length = 32
  deriving DecidableEq

namespace H256Le

/-- The 32 bytes of a number. -/
def fromInteger (n : ℕ) : H256Le := ⟨toLeBytes 32 n, length_toLeBytes _ _⟩

/-- The hash of nothing. -/
def zero : H256Le := fromInteger 0

/-- The bytes of a hash. -/
def toBytesLe (h : H256Le) : List UInt8 := h.content

/-- The number of a hash. -/
def asU256 (h : H256Le) : ℕ := h.content.foldr (fun b n => b.toNat + 256 * n) 0

/-- The number is read back, cut to 256 bits. -/
theorem asU256_fromInteger (n : ℕ) : (fromInteger n).asU256 = n % 2 ^ 256 :=
  foldr_toLeBytes 32 n

/-- Numbers of 256 bits are told apart by their bytes. -/
theorem fromInteger_inj {m n : ℕ} (hm : m < 2 ^ 256) (hn : n < 2 ^ 256) :
    fromInteger m = fromInteger n ↔ m = n := by
  constructor
  · intro h
    have heq := congrArg asU256 h
    rwa [asU256_fromInteger, asU256_fromInteger, Nat.mod_eq_of_lt hm, Nat.mod_eq_of_lt hn] at heq
  · rintro rfl
    rfl

/-- Hashes of the same bytes are the same. -/
theorem toBytesLe_injective : Function.Injective toBytesLe := by
  rintro ⟨a, ha⟩ ⟨b, hb⟩ h
  cases h
  rfl

/-- A hash takes 32 bytes. -/
@[simp] theorem length_toBytesLe (h : H256Le) : h.toBytesLe.length = 32 := h.length_content

end H256Le

/-! ## Headers -/

/-- The header of a block, with its target decoded and its hash. -/
structure BlockHeader where
  merkleRoot : H256Le
  target : ℕ
  timestamp : ℕ
  version : ℤ
  hash : H256Le
  hashPrevBlock : H256Le
  nonce : ℕ
  deriving DecidableEq

namespace BlockHeader

/-- A header of zeros. -/
def default : BlockHeader := ⟨.zero, 0, 0, 0, .zero, .zero, 0⟩

/-- The 80 bytes of a header. -/
def format (h : BlockHeader) : Except BitcoinError (List UInt8) := do
  let bits ← okOr .invalidCompact (getCompact h.target)
  pure (intToLeBytes 4 h.version ++ h.hashPrevBlock.toBytesLe ++ h.merkleRoot.toBytesLe ++
    toLeBytes 4 h.timestamp ++ toLeBytes 4 bits ++ toLeBytes 4 h.nonce)

/-- Versions below 4 are refused. -/
def ensureVersion (h : BlockHeader) : Except BitcoinError Unit :=
  if h.version < 4 then throw .invalidBlockVersion else pure ()

/-- The header with its hash computed anew. -/
def updateHash (sha256d : List UInt8 → H256Le) (h : BlockHeader) :
    Except BitcoinError BlockHeader := do
  let bytes ← h.format
  pure { h with hash := sha256d bytes }

/-- Only the hash is updated. -/
theorem updateHash_eq_ok {sha256d : List UInt8 → H256Le} {h h' : BlockHeader}
    (hok : h.updateHash sha256d = .ok h') : ∃ hash, h' = { h with hash := hash } := by
  obtain ⟨bytes, -, hok⟩ := except_bind_eq_ok.mp hok
  exact ⟨_, (except_pure_eq_ok.mp hok).symm⟩

end BlockHeader

/-- A chain of headers: its id and the heights of its first and last block. -/
structure BlockChain where
  chainId : ℕ
  startHeight : ℕ
  maxHeight : ℕ
  deriving DecidableEq

end Interbtc
