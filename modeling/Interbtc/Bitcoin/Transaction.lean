import Interbtc.Bitcoin.Types

/-!
# Transactions and their bytes

The bytes of a transaction are its fields one after the other. A list comes after its length,
which is written as a compact integer of one, three, five or nine bytes. A transaction with
witnesses has a marker and a flag before its inputs, and the witnesses after its outputs.
The first script of a block holds the block's height, which is kept apart from the script.
-/

namespace Interbtc

open Core

/-! ## Little-endian numbers -/

/-- The number that some bytes stand for, the lowest byte first. -/
def fromLeBytes (bytes : List UInt8) : ℕ := bytes.foldr (fun b n => b.toNat + 256 * n) 0

/-- No bytes are zero. -/
@[simp] theorem fromLeBytes_nil : fromLeBytes [] = 0 := rfl

/-- The first byte counts least. -/
@[simp] theorem fromLeBytes_cons (b : UInt8) (bytes : List UInt8) :
    fromLeBytes (b :: bytes) = b.toNat + 256 * fromLeBytes bytes := rfl

/-- A number that fits is read back from its bytes. -/
theorem fromLeBytes_toLeBytes {width n : ℕ} (h : n < 256 ^ width) :
    fromLeBytes (toLeBytes width n) = n := by
  rw [fromLeBytes, foldr_toLeBytes, Nat.mod_eq_of_lt h]

/-- Bytes are read as a number that fits them. -/
theorem fromLeBytes_lt (bytes : List UInt8) : fromLeBytes bytes < 256 ^ bytes.length := by
  induction bytes with
  | nil => exact Nat.one_pos
  | cons b bytes ih =>
    have hb : b.toNat < 256 := b.toNat_lt
    rw [fromLeBytes_cons, List.length_cons, pow_succ]
    omega

/-- Zeroes at the end add nothing. -/
theorem fromLeBytes_append_zeroes (bytes : List UInt8) (n : ℕ) :
    fromLeBytes (bytes ++ List.replicate n 0) = fromLeBytes bytes := by
  induction bytes with
  | nil =>
    induction n with
    | zero => rfl
    | succ n ih =>
      rw [List.nil_append] at ih ⊢
      rw [List.replicate_succ, fromLeBytes_cons, ih]
      rfl
  | cons b bytes ih => rw [List.cons_append, fromLeBytes_cons, ih, fromLeBytes_cons]

/-- Bytes are written back from their number. -/
theorem toLeBytes_fromLeBytes {width : ℕ} {bytes : List UInt8} (h : bytes.length = width) :
    toLeBytes width (fromLeBytes bytes) = bytes := by
  induction bytes generalizing width with
  | nil => cases h; rfl
  | cons b bytes ih =>
    cases h
    have hb : b.toNat < 256 := b.toNat_lt
    rw [List.length_cons, toLeBytes_succ, fromLeBytes_cons]
    congr 1
    · rw [← UInt8.toNat_inj, UInt8.toNat_ofNat']
      omega
    · rw [Nat.add_mul_div_left _ _ (by omega), Nat.div_eq_of_lt hb, Nat.zero_add]
      exact ih rfl

/-! ## Data -/

/-- Bitcoin script. -/
structure Script where
  bytes : List UInt8
  deriving DecidableEq

/-- Where an input comes from. -/
inductive TransactionInputSource where
  /-- Spending from transaction with the given hash, from output with the given index. -/
  | fromOutput (hash : H256Le) (index : UInt32)
  /-- Coinbase transaction with given height. -/
  | coinbase (height : Option UInt32)
  deriving DecidableEq

/-- Bitcoin transaction input. -/
structure TransactionInput where
  source : TransactionInputSource
  script : List UInt8
  sequence : UInt32
  witness : List (List UInt8)
  deriving DecidableEq

/-- An input with another witness. -/
def TransactionInput.withWitness (input : TransactionInput) (witness : List (List UInt8)) :
    TransactionInput := { input with witness := witness }

/-- Bitcoin transaction output. -/
structure TransactionOutput where
  value : Int64
  script : Script
  deriving DecidableEq

/-- The height or time from which a transaction is valid. -/
inductive LockTime where
  /-- Time as unix timestamp. -/
  | time (t : UInt32)
  | blockHeight (h : UInt32)
  deriving DecidableEq

/-- Bitcoin transaction. -/
structure Transaction where
  version : Int32
  inputs : List TransactionInput
  outputs : List TransactionOutput
  lockAt : LockTime
  deriving DecidableEq

namespace Transaction

/-- Whether any of the inputs has a witness. -/
def hasWitness (tx : Transaction) : Bool := tx.inputs.any fun input => !input.witness.isEmpty

end Transaction

/-! ## Compact integers -/

/-- A length of one to nine bytes. -/
structure CompactUint where
  value : UInt64
  deriving DecidableEq

namespace CompactUint

/-- A length that is cut to 64 bits. -/
def fromUsize (value : ℕ) : CompactUint := ⟨.ofNat value⟩

/-- A length of one, three, five or nine bytes. -/
def tryFormat (n : CompactUint) : List UInt8 :=
  if n.value.toNat < 0xfd then toLeBytes 1 n.value.toNat
  else if n.value.toNat < 2 ^ 16 - 1 then 0xfd :: toLeBytes 2 n.value.toNat
  else if n.value.toNat < 2 ^ 32 - 1 then 0xfe :: toLeBytes 4 n.value.toNat
  else 0xff :: toLeBytes 8 n.value.toNat

end CompactUint

/-- How the length of a list is written. -/
def formatLength (n : ℕ) : List UInt8 := (CompactUint.fromUsize n).tryFormat

/-- A list is written after its length. -/
def formatVec {α : Type} (format : α → List UInt8) (items : List α) : List UInt8 :=
  formatLength items.length ++ items.flatMap format

/-- A byte string after its length. -/
def formatBytes (bytes : List UInt8) : List UInt8 := formatVec (fun b => [b]) bytes

/-- The length comes first. -/
theorem formatBytes_eq (bytes : List UInt8) :
    formatBytes bytes = formatLength bytes.length ++ bytes := by
  rw [formatBytes, formatVec, List.flatMap_singleton']

/-! ## Heights -/

namespace Script

/-- Remove trailing zeroes, but always keep the first byte even if it is zero. -/
def removeTrailingZeroes : ℕ → List UInt8 → List UInt8
  | 0, bytes => bytes
  | i + 1, bytes =>
    if bytes[i + 1]? = some 0 then removeTrailingZeroes i (bytes.eraseIdx (i + 1)) else bytes

/-- The bytes of a height, with a zero byte after them where the last one would be read as
negative. -/
def heightBytes (height : UInt32) : List UInt8 :=
  let bytes := removeTrailingZeroes 3 (toLeBytes 4 height.toNat)
  match bytes.getLast? with
  | some x => if x &&& 0x80 ≠ 0 then bytes ++ [0] else bytes
  | none => bytes

/-- The first bytes of a script that holds a height. -/
def height (height : UInt32) : Script := ⟨formatBytes (heightBytes height)⟩

end Script

/-! ## Formatting -/

/-- There are witnesses. -/
def WITNESS_FLAG : UInt8 := 0x01

/-- No inputs, where flags follow. -/
def WITNESS_MARKER : UInt8 := 0x00

namespace TransactionInput

/-- The outpoint, the script and the sequence number. -/
def tryFormat (input : TransactionInput) : List UInt8 :=
  let (previousHash, previousIndex) := match input.source with
    | .coinbase _ => (H256Le.zero, (0xffffffff : UInt32))
    | .fromOutput hash index => (hash, index)
  previousHash.toBytesLe ++ (toLeBytes 4 previousIndex.toNat ++
    ((match input.source with
      -- the height is a part of the script, so its length is counted too
      | .coinbase (some height) =>
        formatLength (input.script.length + (Script.height height).bytes.length) ++
          (Script.height height).bytes
      | _ => formatLength input.script.length) ++
    (input.script ++ toLeBytes 4 input.sequence.toNat)))

end TransactionInput

/-- The value and the script. -/
def TransactionOutput.tryFormat (output : TransactionOutput) : List UInt8 :=
  intToLeBytes 8 output.value.toInt ++ formatBytes output.script.bytes

/-- Heights and times look the same. -/
def LockTime.tryFormat : LockTime → List UInt8
  | .blockHeight b | .time b => toLeBytes 4 b.toNat

namespace Transaction

/-- A transaction, with its witnesses if it has some. -/
def tryFormat (tx : Transaction) : List UInt8 :=
  intToLeBytes 4 tx.version.toInt ++
    ((if !tx.hasWitness then
      formatVec TransactionInput.tryFormat tx.inputs ++
        formatVec TransactionOutput.tryFormat tx.outputs
    else
      [WITNESS_MARKER] ++ ([WITNESS_FLAG] ++
        (formatVec TransactionInput.tryFormat tx.inputs ++
          (formatVec TransactionOutput.tryFormat tx.outputs ++
            tx.inputs.flatMap fun input => formatVec formatBytes input.witness)))) ++
    tx.lockAt.tryFormat)

/-- A transaction without its witnesses, as it is hashed. -/
def formatNoWitness (tx : Transaction) : List UInt8 :=
  intToLeBytes 4 tx.version.toInt ++ (formatVec TransactionInput.tryFormat tx.inputs ++
    (formatVec TransactionOutput.tryFormat tx.outputs ++ tx.lockAt.tryFormat))

/-- The id is the hash without the witnesses. -/
def txId (sha256d : List UInt8 → H256Le) (tx : Transaction) : H256Le := sha256d tx.formatNoWitness

/-- The bytes that are hashed. -/
def sizeNoWitness (tx : Transaction) : ℕ := tx.formatNoWitness.length

end Transaction

end Interbtc
