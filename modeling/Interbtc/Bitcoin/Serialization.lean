import Interbtc.Bitcoin.Layout

/-!
# Serialization

Bitcoin fixes the order of a transaction's fields, and a code for the lengths of its lists.
Here the code is a parameter. The formatter is the serialization with its own code. Bitcoin's
bytes are the serialization with the shortest code for each length.
-/

namespace Interbtc

open Core Grammar

/-! ## Heights -/

namespace Script

variable {height : UInt32}

/-- What is cut off are zeroes, and the first byte stays. -/
private theorem removeTrailingZeroes_eq (k : ℕ) {bytes : List UInt8} (h : bytes.length = k + 1) :
    ∃ j ≤ k, (removeTrailingZeroes k bytes).length = j + 1 ∧
      bytes = removeTrailingZeroes k bytes ++ List.replicate (k - j) 0 := by
  induction k generalizing bytes with
  | zero => exact ⟨0, le_rfl, h, by simp [removeTrailingZeroes]⟩
  | succ k ih =>
    unfold removeTrailingZeroes
    by_cases hzero : bytes[k + 1]? = some 0
    · rw [if_pos hzero]
      have hbytes : bytes = bytes.take (k + 1) ++ [0] := by
        conv_lhs => rw [← List.take_append_drop (k + 1) bytes]
        congr 1
        rw [List.drop_eq_getElem_cons (by omega), List.drop_eq_nil_of_le (by omega)]
        rw [List.getElem?_eq_getElem (by omega), Option.some.injEq] at hzero
        rw [hzero]
      have herase : bytes.eraseIdx (k + 1) = bytes.take (k + 1) := by
        rw [List.eraseIdx_eq_take_drop_succ, List.drop_eq_nil_of_le (by omega), List.append_nil]
      obtain ⟨j, hj, hlength, heq⟩ := @ih (bytes.take (k + 1)) (by
        rw [List.length_take]
        omega)
      rw [herase]
      refine ⟨j, by omega, hlength, ?_⟩
      rw [hbytes, heq, List.take_left' (by rw [← heq, List.length_take]; omega), ← heq]
      conv_lhs => rw [heq, List.append_assoc]
      rw [show k + 1 - j = k - j + 1 by omega, List.replicate_succ']
    · rw [if_neg hzero]
      exact ⟨k + 1, le_rfl, h, by simp⟩

private theorem topBit_ne_zero (x : UInt8) : x &&& 0x80 ≠ 0 ↔ 128 ≤ x.toNat := by
  have hlt : x.toNat < 256 := x.toNat_lt
  have hand : (x &&& 0x80).toNat = x.toNat / 2 ^ 7 % 2 * 2 ^ 7 := by
    rw [UInt8.toNat_and]
    change x.toNat &&& 2 ^ 7 = _
    rw [Nat.and_two_pow, Nat.testBit_eq_decide_div_mod_eq]
    rcases Nat.mod_two_eq_zero_or_one (x.toNat / 2 ^ 7) with h | h <;> rw [h] <;> rfl
  rw [Ne, ← UInt8.toNat_inj, hand]
  change ¬ x.toNat / 2 ^ 7 % 2 * 2 ^ 7 = 0 ↔ _
  omega

/-- The bytes of a height stand for it, with a zero at the end where one was added. -/
private theorem heightBytes_eq (height : UInt32) :
    ∃ (bytes : List UInt8) (j : ℕ), j ≤ 3 ∧ bytes.length = j + 1 ∧
      toLeBytes 4 height.toNat = bytes ++ List.replicate (3 - j) 0 ∧
      (heightBytes height = bytes ∧ (j = 3 → height.toNat < 2 ^ 31) ∨
        heightBytes height = bytes ++ [0] ∧ (j = 3 → 2 ^ 31 ≤ height.toNat)) := by
  obtain ⟨j, hj, hlength, heq⟩ :=
    removeTrailingZeroes_eq 3 (length_toLeBytes 4 height.toNat)
  have hne : removeTrailingZeroes 3 (toLeBytes 4 height.toNat) ≠ [] :=
    List.ne_nil_of_length_eq_add_one hlength
  refine ⟨_, j, hj, hlength, heq, ?_⟩
  have hlast : j = 3 → (removeTrailingZeroes 3 (toLeBytes 4 height.toNat)).getLast hne =
      UInt8.ofNat (height.toNat / 2 ^ 24) := by
    rintro rfl
    have hall : removeTrailingZeroes 3 (toLeBytes 4 height.toNat) = toLeBytes 4 height.toNat := by
      rw [Nat.sub_self, List.replicate_zero, List.append_nil] at heq
      exact heq.symm
    simp only [hall]
    rfl
  have htop : j = 3 → (128 ≤ ((removeTrailingZeroes 3 (toLeBytes 4 height.toNat)).getLast
      hne).toNat ↔ 2 ^ 31 ≤ height.toNat) := by
    intro hthree
    have hlt : height.toNat < 2 ^ 32 := height.toNat_lt
    rw [hlast hthree, UInt8.toNat_ofNat']
    omega
  rw [heightBytes, List.getLast?_eq_some_getLast hne]
  by_cases hbit : (removeTrailingZeroes 3 (toLeBytes 4 height.toNat)).getLast hne &&& 0x80 ≠ 0
  · refine .inr ⟨if_pos hbit, fun hthree => (htop hthree).mp ?_⟩
    exact (topBit_ne_zero _).mp hbit
  · refine .inl ⟨if_neg hbit, fun hthree => Nat.lt_of_not_le fun hle => hbit ?_⟩
    exact (topBit_ne_zero _).mpr ((htop hthree).mpr hle)

/-- The height is read back from its bytes. -/
theorem fromLeBytes_heightBytes (height : UInt32) :
    fromLeBytes (heightBytes height) = height.toNat := by
  obtain ⟨bytes, j, -, -, heq, h⟩ := heightBytes_eq height
  have hvalue : fromLeBytes bytes = height.toNat := by
    rw [← fromLeBytes_append_zeroes bytes (3 - j), ← heq,
      fromLeBytes_toLeBytes (height.toNat_lt.trans_le (by decide))]
  rcases h with ⟨h, -⟩ | ⟨h, -⟩
  · rw [h, hvalue]
  · rw [h, ← hvalue]
    exact fromLeBytes_append_zeroes bytes 1

/-- A height takes five bytes at most. -/
theorem length_heightBytes_le (height : UInt32) : (heightBytes height).length ≤ 5 := by
  obtain ⟨bytes, j, hj, hlength, -, ⟨h, -⟩ | ⟨h, -⟩⟩ := heightBytes_eq height
  · rw [h]
    omega
  · rw [h, List.length_append, List.length_singleton]
    omega

/-- Heights below `2 ^ 31` take four bytes at most, the others take five. -/
theorem length_heightBytes_le_four :
    (heightBytes height).length ≤ 4 ↔ height.toNat < 2 ^ 31 := by
  obtain ⟨bytes, j, hj, hlength, heq, ⟨h, hsmall⟩ | ⟨h, hbig⟩⟩ := heightBytes_eq height
  · rw [h]
    refine iff_of_true (by omega) ?_
    by_cases hthree : j = 3
    · exact hsmall hthree
    · have hlt := fromLeBytes_lt bytes
      have hvalue : fromLeBytes bytes = height.toNat := by
        rw [← fromLeBytes_heightBytes, h]
      rw [hvalue, hlength] at hlt
      exact hlt.trans_le ((Nat.pow_le_pow_right (by decide) (by omega : j + 1 ≤ 3)).trans
        (by decide))
  · rw [h, List.length_append, List.length_singleton, hlength]
    constructor
    · intro hle
      have hlt := fromLeBytes_lt bytes
      have hvalue : fromLeBytes bytes = height.toNat := by
        rw [← fromLeBytes_heightBytes, h]
        exact (fromLeBytes_append_zeroes bytes 1).symm
      rw [hvalue, hlength] at hlt
      exact hlt.trans_le ((Nat.pow_le_pow_right (by decide) (by omega : j + 1 ≤ 3)).trans
        (by decide))
    · intro hlt
      have hne : j ≠ 3 := fun hthree => Nat.not_lt.mpr (hbig hthree) hlt
      omega

/-- A height is pushed with its length in one byte. -/
theorem height_bytes (height : UInt32) : (Script.height height).bytes =
    UInt8.ofNat (heightBytes height).length :: heightBytes height := by
  have hle := length_heightBytes_le height
  have hvalue : (UInt64.ofNat (heightBytes height).length).toNat = (heightBytes height).length := by
    rw [UInt64.toNat_ofNat', Nat.mod_eq_of_lt (by omega)]
  change formatBytes (heightBytes height) = _
  rw [formatBytes_eq, formatLength, CompactUint.fromUsize, CompactUint.tryFormat]
  simp only [hvalue]
  rw [if_pos (by omega), toLeBytes_succ]
  rfl

end Script

/-! ## Bytes of a transaction -/

section Serialize

variable {α : Type} (writeLength : ℕ → List UInt8)

/-- The items after their number. -/
def serializeVec (serialize : α → List UInt8) (items : List α) : List UInt8 :=
  writeLength items.length ++ items.flatMap serialize

/-- A byte string after its length. -/
def serializeBytes (bytes : List UInt8) : List UInt8 := serializeVec writeLength (fun b => [b]) bytes

/-- The script with the height that it begins with. -/
def TransactionInput.fullScript (input : TransactionInput) : List UInt8 :=
  match input.source with
  | .coinbase (some height) => (Script.height height).bytes ++ input.script
  | _ => input.script

/-- The output that is spent; a coinbase input has none. -/
def TransactionInput.outpoint (input : TransactionInput) : H256Le × UInt32 :=
  match input.source with
  | .coinbase _ => (.zero, 0xffffffff)
  | .fromOutput hash index => (hash, index)

namespace TransactionInput

/-- An input, over any way to write lengths. -/
def serialize (input : TransactionInput) : List UInt8 :=
  input.outpoint.1.toBytesLe ++ (toLeBytes 4 input.outpoint.2.toNat ++
    (writeLength input.fullScript.length ++ (input.fullScript ++
      toLeBytes 4 input.sequence.toNat)))

end TransactionInput

namespace TransactionOutput

/-- An output, over any way to write lengths. -/
def serialize (output : TransactionOutput) : List UInt8 :=
  intToLeBytes 8 output.value.toInt ++ serializeBytes writeLength output.script.bytes

end TransactionOutput

namespace Transaction

/-- The inputs and the outputs. -/
def serializeInOut (tx : Transaction) : List UInt8 :=
  serializeVec writeLength (TransactionInput.serialize writeLength) tx.inputs ++
    serializeVec writeLength (TransactionOutput.serialize writeLength) tx.outputs

/-- The witnesses of all inputs. -/
def serializeWitnesses (tx : Transaction) : List UInt8 :=
  tx.inputs.flatMap fun input => serializeVec writeLength (serializeBytes writeLength) input.witness

/-- The bytes of a transaction. Where there are witnesses, a list of no inputs and a flag stand
before the inputs. -/
def serialize (tx : Transaction) : List UInt8 :=
  intToLeBytes 4 tx.version.toInt ++ ((if tx.hasWitness then
    [0x00, 0x01] ++ (tx.serializeInOut writeLength ++ tx.serializeWitnesses writeLength)
  else tx.serializeInOut writeLength) ++ tx.lockAt.tryFormat)

/-- The bytes that the id of a transaction is the hash of. -/
def serializeNoWitness (tx : Transaction) : List UInt8 :=
  intToLeBytes 4 tx.version.toInt ++ (tx.serializeInOut writeLength ++ tx.lockAt.tryFormat)

end Transaction

end Serialize

/-- The formatter is the serialization with its own code for lengths. -/
theorem TransactionInput.tryFormat_eq (input : TransactionInput) :
    input.tryFormat = input.serialize formatLength := by
  unfold tryFormat serialize outpoint fullScript
  rcases input with ⟨⟨hash, index⟩ | ⟨_ | height⟩, script, sequence, witness⟩
  · rfl
  · rfl
  · simp only [List.length_append, List.append_assoc]
    rw [Nat.add_comm]

/-- The formatter serialises, with the lengths of the source. -/
theorem Transaction.tryFormat_eq (tx : Transaction) :
    tx.tryFormat = tx.serialize formatLength := by
  have hinputs : formatVec TransactionInput.tryFormat tx.inputs =
      serializeVec formatLength (TransactionInput.serialize formatLength) tx.inputs :=
    congrArg (fun f => serializeVec formatLength f tx.inputs) (funext TransactionInput.tryFormat_eq)
  unfold tryFormat serialize serializeInOut
  rw [hinputs]
  cases tx.hasWitness with
  | false => rfl
  | true =>
    rw [if_neg (by decide), if_pos rfl]
    simp only [List.append_assoc]
    rfl

/-- So it does without the witnesses. -/
theorem Transaction.formatNoWitness_eq (tx : Transaction) :
    tx.formatNoWitness = tx.serializeNoWitness formatLength := by
  have hinputs : formatVec TransactionInput.tryFormat tx.inputs =
      serializeVec formatLength (TransactionInput.serialize formatLength) tx.inputs :=
    congrArg (fun f => serializeVec formatLength f tx.inputs) (funext TransactionInput.tryFormat_eq)
  unfold formatNoWitness serializeNoWitness serializeInOut
  rw [hinputs, List.append_assoc]
  rfl

end Interbtc
