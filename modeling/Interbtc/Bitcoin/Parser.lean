import Interbtc.Bitcoin.Transaction
import Interbtc.Core.Reader

/-!
# Parsing headers, transactions and proofs

A parser walks over the bytes it is given. What is parsed by a parser of its own gets the
bytes that are left, and counts its position from zero again. Positions are 64-bit numbers:
a sum that does not fit panics, as does a slice of a buffer past its end.
-/

namespace Interbtc

open Core

/-- A call of the parser that ends without a value. -/
abbrev Halt : Type := Fault BitcoinError

/-- Type to be parsed from a bytes array: the value and the number of bytes it takes. -/
abbrev Parsable (α : Type) : Type := List UInt8 → ℕ → Except Halt (α × ℕ)

/-- A parser that moves its head with each operation. -/
abbrev BytesParser : Type → Type := Reader UInt8 BitcoinError

/-- The positions and lengths are the numbers below this one. -/
def usizeBound : ℕ := 2 ^ 64

/-- No slice has as many bytes as this: its size fits a signed number of 64 bits. -/
def sliceBound : ℕ := 2 ^ 63

/-- The sum of two positions. -/
def plus (a b : ℕ) : Except Halt ℕ := if a + b < usizeBound then .ok (a + b) else .error .panic

/-- The bytes from one position to another. -/
def getRange (bytes : List UInt8) (start stop : ℕ) : Except Halt (List UInt8) :=
  if start ≤ stop ∧ stop ≤ bytes.length then .ok ((bytes.drop start).take (stop - start))
  else .error (.error .endOfFile)

/-- The bytes from a position on. -/
def getFrom (bytes : List UInt8) (start : ℕ) : Except Halt (List UInt8) :=
  if start ≤ bytes.length then .ok (bytes.drop start) else .error (.error .endOfFile)

namespace BytesParser

/-- Parse an object and move the head to the byte after it. -/
def parse {α : Type} (p : Parsable α) : BytesParser α := fun rawBytes position => do
  let (result, bytesConsumed) ← p rawBytes position
  if position + bytesConsumed < usizeBound then .ok (result, position + bytesConsumed)
  else .error (.error .arithmeticOverflow)

/-- Read a number of bytes and move the head. -/
def read (bytesCount : ℕ) : BytesParser (List UInt8) := fun rawBytes position => do
  let stop ← plus position bytesCount
  let bytes ← getRange rawBytes position stop
  if position + bytesCount < usizeBound then .ok (bytes, position + bytesCount)
  else .error (.error .arithmeticOverflow)

/-- What is parsed by a parser of its own. -/
def sliced {α : Type} (p : BytesParser α) : Parsable α := fun rawBytes position => do
  let slice ← getFrom rawBytes position
  p slice 0

end BytesParser

open BytesParser

/-! ## Numbers and hashes -/

/-- The bytes of a number of some width. -/
def parseInt (width : ℕ) : Parsable (List UInt8) := fun rawBytes position => do
  let stop ← plus position width
  if stop > rawBytes.length then .error (.error .endOfFile)
  else
    let valueBytes ← getRange rawBytes position stop
    .ok (valueBytes, width)

/-- What is read, turned into a value of another type. -/
def Parsable.map {α β : Type} (f : α → β) (p : Parsable α) : Parsable β :=
  fun rawBytes position => do
    let (result, bytesConsumed) ← p rawBytes position
    .ok (f result, bytesConsumed)

/-- One byte. -/
def parseU8 : Parsable UInt8 := Parsable.map (fun bytes => .ofNat (fromLeBytes bytes)) (parseInt 1)

/-- Four bytes, without a sign. -/
def parseU32 : Parsable UInt32 :=
  Parsable.map (fun bytes => .ofNat (fromLeBytes bytes)) (parseInt 4)

/-- Four bytes, with a sign. -/
def parseI32 : Parsable Int32 :=
  Parsable.map (fun bytes => .ofNat (fromLeBytes bytes)) (parseInt 4)

/-- Eight bytes, with a sign. -/
def parseI64 : Parsable Int64 :=
  Parsable.map (fun bytes => .ofNat (fromLeBytes bytes)) (parseInt 8)

/-- Bytes as a hash; there are always 32 of them. -/
def H256Le.fromBytesLe (bytes : List UInt8) : H256Le := .fromInteger (fromLeBytes bytes)

/-- The 32 bytes of a hash. -/
def parseH256Le : Parsable H256Le := fun rawBytes position => do
  let stop ← plus position 32
  let slice ← getRange rawBytes position stop
  .ok (H256Le.fromBytesLe slice, 32)

/-- The value of a compactly encoded number and the number of bytes consumed. -/
def parseCompactUint (varint : List UInt8) : Except Halt (UInt64 × ℕ) :=
  match varint with
  | [] => .error (.error .endOfFile)
  | first :: _ =>
    if first = 0xfd then do
      let numBytes ← getRange varint 1 3
      .ok (.ofNat (fromLeBytes numBytes), 3)
    else if first = 0xfe then do
      let numBytes ← getRange varint 1 5
      .ok (.ofNat (fromLeBytes numBytes), 5)
    else if first = 0xff then do
      let numBytes ← getRange varint 1 9
      .ok (.ofNat (fromLeBytes numBytes), 9)
    else .ok (.ofNat first.toNat, 1)

/-- A length, of as many bytes as its first says. -/
def CompactUint.parse : Parsable CompactUint := fun rawBytes position => do
  let varint ← getFrom rawBytes position
  let (value, bytesConsumed) ← parseCompactUint varint
  .ok (⟨value⟩, bytesConsumed)

/-- A target is stored in its compact form. -/
def parseTarget : Parsable ℕ := fun rawBytes position => do
  let stop ← plus position 4
  if stop > rawBytes.length then .error (.error .endOfFile)
  else
    let bytes ← getRange rawBytes position stop
    match setCompact (fromLeBytes bytes) with
    | some compact => .ok (compact, 4)
    | none => .error (.error .invalidCompact)

/-! ## Lists -/

/-- A list comes after its length. -/
def parseVec {α : Type} (p : BytesParser α) : Parsable (List α) :=
  sliced do
    let count ← parse CompactUint.parse
    Reader.times p count.value.toNat

/-- Eight flags in one byte. -/
def parseFlagBits : Parsable (List Bool) := fun rawBytes position =>
  match rawBytes[position]? with
  | some byte => .ok ((List.range 8).map fun i => byte.toNat.testBit i, 1)
  | none => .error (.error .endOfFile)

/-! ## Headers -/

/-- Parses the raw bitcoin header. -/
def readBlockHeader (sha256d : List UInt8 → H256Le) (bytes : List UInt8) :
    BytesParser BlockHeader := do
  let version ← parse parseI32
  let hashPrevBlock ← parse parseH256Le
  let merkleRoot ← parse parseH256Le
  let timestamp ← parse parseU32
  let target ← parse parseTarget
  let nonce ← parse parseU32
  pure
    { merkleRoot := merkleRoot
      target := target
      timestamp := timestamp.toNat
      version := version.toInt
      hashPrevBlock := hashPrevBlock
      nonce := nonce.toNat
      hash := sha256d bytes }

/-- A block header, at the start of the bytes. -/
def parseBlockHeader (sha256d : List UInt8 → H256Le) (bytes : List UInt8) :
    Except Halt BlockHeader := do
  let (header, _) ← readBlockHeader sha256d bytes bytes 0
  .ok header

/-- The 80 bytes of a block header. -/
def BlockHeader.parse (sha256d : List UInt8 → H256Le) : Parsable BlockHeader :=
  fun rawBytes position => do
    let stop ← plus position 80
    let headerBytes ← getRange rawBytes position stop
    let blockHeader ← parseBlockHeader sha256d headerBytes
    .ok (blockHeader, 80)

/-! ## Transactions -/

/-- The bit of a version that says there are no witnesses. -/
def SERIALIZE_TRANSACTION_NO_WITNESS : Int32 := 0x40000000

/-- Lock times below it are heights. -/
def LOCKTIME_THRESHOLD : UInt32 := 500000000

/-- The height that a coinbase script begins with, and the size of the script without it. -/
def readHeight (scriptSize : ℕ) : BytesParser (UInt32 × ℕ) := do
  let heightSize := (← parse CompactUint.parse).value.toNat
  if usizeBound ≤ heightSize + 1 then Reader.panic
  else do
    Reader.ensure (heightSize + 1 ≤ scriptSize) .endOfFile
    let bytes ← read heightSize
    -- the buffer has four bytes
    if 4 < heightSize then Reader.panic
    else
      let buffer := bytes ++ List.replicate (4 - heightSize) 0
      pure (.ofNat (fromLeBytes buffer), scriptSize - (heightSize + 1))

/-- Where the coins come from, and the size of the script that is left. -/
def readSource (version : Int32) (previousHash : H256Le) (previousIndex : UInt32)
    (scriptSize : ℕ) : BytesParser (TransactionInputSource × ℕ) :=
  if previousHash = .zero then
    if version ≠ 2 then pure (.coinbase none, scriptSize)
    else do
      let (height, scriptSize) ← readHeight scriptSize
      pure (.coinbase (some height), scriptSize)
  else pure (.fromOutput previousHash previousIndex, scriptSize)

/-- An input, with the height of its block if it is a coinbase of version 2. -/
def readTransactionInput (version : Int32) : BytesParser TransactionInput := do
  let previousHash ← parse parseH256Le
  let previousIndex ← parse parseU32
  -- a coinbase input has no previous hash
  Reader.ensure (¬ (previousHash = .zero ∧ previousIndex ≠ 0xffffffff)) .malformedTransaction
  let scriptSize ← parse CompactUint.parse
  let (source, scriptSize) ← readSource version previousHash previousIndex scriptSize.value.toNat
  let script ← read scriptSize
  Reader.ensure (¬ (previousHash = .zero ∧ script.length > 100)) .malformedTransaction
  let sequence ← parse parseU32
  pure ⟨source, script, sequence, []⟩

/-- The parser of inputs works on a slice of its own. -/
def parseTransactionInput (version : Int32) : Parsable TransactionInput :=
  sliced (readTransactionInput version)

/-- An output, whose script is 10000 bytes at most. -/
def readTransactionOutput : BytesParser TransactionOutput := do
  let value ← parse parseI64
  let scriptSize ← parse CompactUint.parse
  Reader.ensure (¬ scriptSize.value.toNat > 10000) .malformedTransaction
  let script ← read scriptSize.value.toNat
  pure ⟨value, ⟨script⟩⟩

/-- The parser of outputs works on a slice of its own. -/
def parseTransactionOutput : Parsable TransactionOutput := sliced readTransactionOutput

/-- A witness is a list of byte strings. -/
def parseWitness : Parsable (List (List UInt8)) :=
  parseVec (parse (parseVec (parse parseU8)))

/-- The inputs, after a flag if the list of them seems to be empty. -/
def readInputs (version : Int32) (allowWitness : Bool) :
    BytesParser (UInt8 × List TransactionInput) := do
  let inputs ← parse (parseVec (parse (parseTransactionInput version)))
  if inputs.isEmpty && allowWitness then
    let flags ← parse parseU8
    let inputs ← parse (parseVec (parse (parseTransactionInput version)))
    pure (flags, inputs)
  else pure (0, inputs)

/-- The witnesses of the inputs, if the flag says that there are any. -/
def readWitnesses (allowWitness : Bool) (flags : UInt8) (inputs : List TransactionInput) :
    BytesParser (UInt8 × List TransactionInput) :=
  if flags &&& 1 ≠ 0 ∧ allowWitness then do
    let inputs ← Reader.forEach (fun input => do
      let witness ← parse parseWitness
      pure (input.withWitness witness)) inputs
    Reader.ensure (¬ inputs.all fun input => input.witness.isEmpty) .malformedTransaction
    pure (flags ^^^ 1, inputs)
  else pure (flags, inputs)

/-- A transaction of version 1 or 2, with its witnesses if it is flagged. -/
def readTransaction : BytesParser Transaction := do
  let version ← parse parseI32
  -- only versions 1 and 2 are supported
  Reader.ensure (¬ (version ≠ 1 ∧ version ≠ 2)) .malformedTransaction
  let allowWitness : Bool := version &&& SERIALIZE_TRANSACTION_NO_WITNESS = 0
  let (flags, inputs) ← readInputs version allowWitness
  let outputs ← parse (parseVec (parse parseTransactionOutput))
  let (flags, inputs) ← readWitnesses allowWitness flags inputs
  let locktimeOrBlockheight ← parse parseU32
  let lockAt : LockTime := if locktimeOrBlockheight < LOCKTIME_THRESHOLD then
    .blockHeight locktimeOrBlockheight else .time locktimeOrBlockheight
  Reader.ensure (¬ flags ≠ 0) .malformedTransaction
  pure ⟨version, inputs, outputs, lockAt⟩

/-- The parser of transactions works on a slice of its own. -/
def Transaction.parse : Parsable Transaction := sliced readTransaction

/-- Parses a single bitcoin transaction. -/
def parseTransaction (rawTransaction : List UInt8) : Except Halt Transaction := do
  let (tx, _) ← Transaction.parse rawTransaction 0
  .ok tx

end Interbtc
