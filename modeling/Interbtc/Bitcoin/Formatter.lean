import Interbtc.Bitcoin.Serialization
import Mathlib.Algebra.BigOperators.Ring.List

/-!
# Writing a transaction

The formatter writes to any writer. A list takes everything. A writer with a bound counts the
bytes of each string that it is given, as a number of 32 bits. Only the script of an input can
be as long as to be counted for less than it is.
-/

namespace Interbtc

open Core

/-- Where bytes are written to. -/
class Writer (W : Type) where
  write : W → List UInt8 → Except BitcoinError W

instance : Writer (List UInt8) where
  write bytes buf := .ok (bytes ++ buf)

/-- A writer that counts down the bytes it may write. -/
structure BoundedWriter where
  lengthBound : ℕ
  bytes : List UInt8

namespace BoundedWriter

/-- Nothing is written yet. -/
def new (lengthBound : ℕ) : BoundedWriter := ⟨lengthBound, []⟩

/-- Bytes beyond the bound are refused. -/
def checkedReduce (w : BoundedWriter) (bytes : ℕ) : Except BitcoinError BoundedWriter :=
  if bytes ≤ w.lengthBound then .ok { w with lengthBound := w.lengthBound - bytes }
  else .error .boundExceeded

instance : Writer BoundedWriter where
  write w buf := do
    -- the length is cut to 32 bits
    let w ← w.checkedReduce (buf.length % 2 ^ 32)
    .ok { w with bytes := w.bytes ++ buf }

end BoundedWriter

/-! ## Formatting -/

section Formatters

variable {W : Type} [Writer W]

open Writer

/-- A length of one, three, five or nine bytes. -/
def CompactUint.tryFormatTo (n : CompactUint) (w : W) : Except BitcoinError W :=
  if n.value.toNat < 0xfd then write w (toLeBytes 1 n.value.toNat)
  else if n.value.toNat < 2 ^ 16 - 1 then do
    let w ← write w [0xfd]
    write w (toLeBytes 2 n.value.toNat)
  else if n.value.toNat < 2 ^ 32 - 1 then do
    let w ← write w [0xfe]
    write w (toLeBytes 4 n.value.toNat)
  else do
    let w ← write w [0xff]
    write w (toLeBytes 8 n.value.toNat)

/-- A list is written after its length, item by item. -/
def formatVecTo {α : Type} (format : α → W → Except BitcoinError W) (items : List α) (w : W) :
    Except BitcoinError W := do
  let w ← (CompactUint.fromUsize items.length).tryFormatTo w
  items.foldlM (fun w item => format item w) w

namespace TransactionInput

/-- The length of the script, and the height that the script begins with. -/
def formatScriptLengthTo (input : TransactionInput) (w : W) : Except BitcoinError W :=
  match input.source with
  | .coinbase (some height) => do
    let scriptLen := input.script.length + (Script.height height).bytes.length
    let w ← (CompactUint.fromUsize scriptLen).tryFormatTo w
    write w (Script.height height).bytes
  | _ => (CompactUint.fromUsize input.script.length).tryFormatTo w

/-- The outpoint, the script and the sequence number. -/
def tryFormatTo (input : TransactionInput) (w : W) : Except BitcoinError W := do
  let previous := match input.source with
    | .coinbase _ => (H256Le.zero, (0xffffffff : UInt32))
    | .fromOutput hash index => (hash, index)
  let w ← write w previous.1.toBytesLe
  let w ← write w (toLeBytes 4 previous.2.toNat)
  let w ← input.formatScriptLengthTo w
  let w ← write w input.script
  write w (toLeBytes 4 input.sequence.toNat)

end TransactionInput

/-- The value and the script. -/
def TransactionOutput.tryFormatTo (output : TransactionOutput) (w : W) :
    Except BitcoinError W := do
  let w ← write w (intToLeBytes 8 output.value.toInt)
  formatVecTo (fun b w => write w [b]) output.script.bytes w

/-- Heights and times look the same. -/
def LockTime.tryFormatTo (lockTime : LockTime) (w : W) : Except BitcoinError W :=
  match lockTime with
  | .blockHeight b | .time b => write w (toLeBytes 4 b.toNat)

/-- A transaction without its witnesses, as it is hashed. -/
def Transaction.formatNoWitnessTo (tx : Transaction) (w : W) : Except BitcoinError W := do
  let w ← write w (intToLeBytes 4 tx.version.toInt)
  let w ← formatVecTo TransactionInput.tryFormatTo tx.inputs w
  let w ← formatVecTo TransactionOutput.tryFormatTo tx.outputs w
  tx.lockAt.tryFormatTo w

end Formatters

namespace Transaction

/-- The id of a transaction with at most a number of bytes. -/
def txIdBounded (sha256d : List UInt8 → H256Le) (tx : Transaction) (lengthBound : ℕ) :
    Except Halt H256Le := do
  let bytes ← (tx.formatNoWitnessTo (BoundedWriter.new lengthBound)).mapError .error
  .ok (sha256d bytes.bytes)

end Transaction

/-! ## Both writers at once -/

/-- A formatter appends `bytes` to a list, and takes `counted` from a bound. -/
structure Formats (format : (W : Type) → [Writer W] → W → Except BitcoinError W)
    (bytes : List UInt8) (counted : ℕ) : Prop where
  list : ∀ w : List UInt8, format (List UInt8) w = .ok (w ++ bytes)
  bounded : ∀ w : BoundedWriter, format BoundedWriter w =
    if counted ≤ w.lengthBound then .ok ⟨w.lengthBound - counted, w.bytes ++ bytes⟩
    else .error .boundExceeded

namespace Formats

variable {f g : (W : Type) → [Writer W] → W → Except BitcoinError W} {bytes bytes' : List UInt8}
  {counted counted' : ℕ}

private theorem write (buf : List UInt8) :
    Formats (fun _ _ w => Writer.write w buf) buf (buf.length % 2 ^ 32) where
  list _ := rfl
  bounded w := by
    change (w.checkedReduce _ >>= _) = _
    unfold BoundedWriter.checkedReduce
    split <;> rfl

/-- A string of less than `2 ^ 32` bytes is counted as it is. -/
theorem write_of_lt {buf : List UInt8} (h : buf.length < 2 ^ 32) :
    Formats (fun _ _ w => Writer.write w buf) buf buf.length := by
  have hwrite := write buf
  rwa [Nat.mod_eq_of_lt h] at hwrite

private theorem done : Formats (fun _ _ w => .ok w) [] 0 where
  list w := by rw [List.append_nil]
  bounded w := by
    rw [if_pos (Nat.zero_le _), Nat.sub_zero, List.append_nil]

private theorem bind (hf : Formats f bytes counted) (hg : Formats g bytes' counted') :
    Formats (fun W _ w => f W w >>= g W) (bytes ++ bytes') (counted + counted') where
  list w := by
    rw [hf.list, ← List.append_assoc]
    exact hg.list _
  bounded w := by
    rw [hf.bounded]
    by_cases hcounted : counted ≤ w.lengthBound
    · rw [if_pos hcounted]
      change g BoundedWriter _ = _
      rw [hg.bounded]
      by_cases hcounted' : counted' ≤ w.lengthBound - counted
      · rw [if_pos hcounted', if_pos (by omega), Nat.sub_sub, List.append_assoc]
      · rw [if_neg hcounted', if_neg (by omega)]
    · rw [if_neg hcounted, if_neg (by omega)]
      rfl

private theorem foldlM {α : Type} {format : α → (W : Type) → [Writer W] → W → Except BitcoinError W}
    {bytes : α → List UInt8} {counted : α → ℕ}
    (h : ∀ item, Formats (format item) (bytes item) (counted item)) (items : List α) :
    Formats (fun W _ w => items.foldlM (fun w item => format item W w) w) (items.flatMap bytes)
      (items.map counted).sum := by
  induction items with
  | nil => exact done
  | cons item items ih => exact (h item).bind ih

private theorem congr (hf : Formats f bytes counted) (hbytes : bytes' = bytes)
    (hcounted : counted' = counted) : Formats f bytes' counted' := by
  rwa [hbytes, hcounted]

end Formats

/-! ## What is counted -/

private theorem Formats.writeLe {width : ℕ} (h : width < 2 ^ 32) (n : ℕ) :
    Formats (fun _ _ w => Writer.write w (toLeBytes width n)) (toLeBytes width n) width :=
  (Formats.write_of_lt (by rwa [length_toLeBytes])).congr rfl (length_toLeBytes _ _).symm

private theorem CompactUint.formats (n : CompactUint) :
    Formats (fun _ _ w => n.tryFormatTo w) n.tryFormat n.tryFormat.length := by
  have hmark : ∀ mark : UInt8, Formats (fun _ _ w => Writer.write w [mark]) [mark] 1 :=
    fun mark => .write_of_lt (Nat.one_lt_two_pow (by decide))
  unfold tryFormatTo tryFormat
  by_cases h₁ : n.value.toNat < 0xfd
  · simp only [h₁, if_true, length_toLeBytes]
    exact .writeLe (by decide) _
  · by_cases h₂ : n.value.toNat < 2 ^ 16 - 1
    · simp only [h₁, h₂, if_true, if_false, List.length_cons, length_toLeBytes]
      exact (hmark 0xfd).bind (.writeLe (by decide) _)
    · by_cases h₃ : n.value.toNat < 2 ^ 32 - 1
      · simp only [h₁, h₂, h₃, if_true, if_false, List.length_cons, length_toLeBytes]
        exact (hmark 0xfe).bind (.writeLe (by decide) _)
      · simp only [h₁, h₂, h₃, if_false, List.length_cons, length_toLeBytes]
        exact (hmark 0xff).bind (.writeLe (by decide) _)

private theorem formats_vec {α : Type}
    {format : α → (W : Type) → [Writer W] → W → Except BitcoinError W}
    {bytes : α → List UInt8} {counted : α → ℕ}
    (h : ∀ item, Formats (format item) (bytes item) (counted item)) (items : List α) :
    Formats (fun W _ w => formatVecTo (fun item => format item W) items w) (formatVec bytes items)
      ((formatLength items.length).length + (items.map counted).sum) :=
  (CompactUint.formats _).bind (.foldlM h items)

namespace TransactionInput

/-- The bytes of the script that are left out when its length is cut to 32 bits. -/
def uncounted (input : TransactionInput) : ℕ := input.script.length / 2 ^ 32 * 2 ^ 32

/-- The bytes before the script. -/
private def scriptLengthBytes (input : TransactionInput) : List UInt8 :=
  match input.source with
  | .coinbase (some height) =>
    formatLength (input.script.length + (Script.height height).bytes.length) ++
      (Script.height height).bytes
  | _ => formatLength input.script.length

private theorem formats_scriptLength (input : TransactionInput) :
    Formats (fun _ _ w => input.formatScriptLengthTo w) input.scriptLengthBytes
      input.scriptLengthBytes.length := by
  rcases input with ⟨⟨hash, index⟩ | ⟨_ | height⟩, script, sequence, witness⟩
  · exact CompactUint.formats _
  · exact CompactUint.formats _
  · refine ((CompactUint.formats _).bind (.write_of_lt ?_)).congr rfl List.length_append
    have hle := Script.length_heightBytes_le height
    rw [Script.height_bytes, List.length_cons]
    omega

private theorem tryFormat_eq_parts (input : TransactionInput) : input.tryFormat =
    input.outpoint.1.toBytesLe ++ (toLeBytes 4 input.outpoint.2.toNat ++
      (input.scriptLengthBytes ++ (input.script ++ toLeBytes 4 input.sequence.toNat))) := by
  rcases input with ⟨⟨hash, index⟩ | ⟨_ | height⟩, script, sequence, witness⟩
  · rfl
  · rfl
  · rfl

private theorem formats (input : TransactionInput) : Formats (fun _ _ w => input.tryFormatTo w)
    input.tryFormat (input.tryFormat.length - input.uncounted) := by
  have hhash : Formats (fun _ _ w => Writer.write w input.outpoint.1.toBytesLe)
      input.outpoint.1.toBytesLe 32 :=
    (Formats.write_of_lt (by rw [H256Le.length_toBytesLe]; decide)).congr rfl
      (H256Le.length_toBytesLe _).symm
  have hfour : 4 < 2 ^ 32 := by decide
  have hparts := hhash.bind ((Formats.writeLe hfour input.outpoint.2.toNat).bind
    (input.formats_scriptLength.bind ((Formats.write input.script).bind
      (Formats.writeLe hfour input.sequence.toNat))))
  rw [← tryFormat_eq_parts] at hparts
  have hcounted : input.tryFormat.length - input.uncounted =
      32 + (4 + (input.scriptLengthBytes.length + (input.script.length % 2 ^ 32 + 4))) := by
    have hsum := Nat.div_add_mod input.script.length (2 ^ 32)
    rw [tryFormat_eq_parts, uncounted]
    simp only [List.length_append, H256Le.length_toBytesLe, length_toLeBytes]
    omega
  rw [hcounted]
  rcases input with ⟨⟨hash, index⟩ | ⟨_ | height⟩, script, sequence, witness⟩
  · exact hparts
  · exact hparts
  · exact hparts

private theorem uncounted_le (input : TransactionInput) : input.uncounted ≤
    input.tryFormat.length := by
  have hsum := Nat.div_mul_le_self input.script.length (2 ^ 32)
  rw [tryFormat_eq_parts, uncounted]
  simp only [List.length_append]
  omega

end TransactionInput

private theorem TransactionOutput.formats (output : TransactionOutput) :
    Formats (fun _ _ w => output.tryFormatTo w) output.tryFormat output.tryFormat.length := by
  have hbytes := formats_vec (fun b => @Formats.write_of_lt [b] (Nat.one_lt_two_pow (by decide)))
    output.script.bytes
  refine ((Formats.writeLe (by decide) _).bind hbytes).congr rfl ?_
  rw [tryFormat, List.length_append, length_intToLeBytes, formatBytes_eq, List.length_append]
  simp

private theorem LockTime.formats (lockTime : LockTime) :
    Formats (fun _ _ w => lockTime.tryFormatTo w) lockTime.tryFormat 4 := by
  cases lockTime with
  | time t => exact .writeLe (by decide) _
  | blockHeight h => exact .writeLe (by decide) _

namespace Transaction

variable (tx : Transaction)

/-- The bytes of the scripts that are left out when their lengths are cut to 32 bits. -/
def uncounted : ℕ := (tx.inputs.map TransactionInput.uncounted).sum

/-- The length of all bytes, apart from those that are left out. -/
private theorem sizeNoWitness_eq : tx.sizeNoWitness =
    4 + (((formatLength tx.inputs.length).length +
      (tx.inputs.map fun input => input.tryFormat.length - input.uncounted).sum) +
        (((formatLength tx.outputs.length).length +
          (tx.outputs.map fun output => output.tryFormat.length).sum) + 4)) + tx.uncounted := by
  have hinputs : (tx.inputs.map fun input => input.tryFormat.length).sum =
      (tx.inputs.map fun input => input.tryFormat.length - input.uncounted).sum +
        tx.uncounted := by
    rw [uncounted, ← List.sum_map_add]
    congr 1
    exact List.map_congr_left fun input _ => (Nat.sub_add_cancel input.uncounted_le).symm
  have hlock : tx.lockAt.tryFormat.length = 4 := by
    cases tx.lockAt <;> exact length_toLeBytes _ _
  simp only [sizeNoWitness, formatNoWitness, formatVec, List.length_append, List.length_flatMap,
    length_intToLeBytes, hlock, hinputs]
  omega

private theorem uncounted_le : tx.uncounted ≤ tx.sizeNoWitness := by
  rw [sizeNoWitness_eq]
  exact Nat.le_add_left _ _

private theorem formats : Formats (fun _ _ w => tx.formatNoWitnessTo w) tx.formatNoWitness
    (tx.sizeNoWitness - tx.uncounted) := by
  have hversion : Formats (fun _ _ w => Writer.write w (intToLeBytes 4 tx.version.toInt))
      (intToLeBytes 4 tx.version.toInt) 4 := .writeLe (by decide) _
  have hparts := hversion.bind ((formats_vec TransactionInput.formats tx.inputs).bind
    ((formats_vec TransactionOutput.formats tx.outputs).bind tx.lockAt.formats))
  refine hparts.congr rfl ?_
  rw [sizeNoWitness_eq, Nat.add_sub_cancel]

/-- The bound is on what is counted. -/
theorem txIdBounded_eq (sha256d : List UInt8 → H256Le) (lengthBound : ℕ) :
    tx.txIdBounded sha256d lengthBound =
      if tx.sizeNoWitness - tx.uncounted ≤ lengthBound then .ok (tx.txId sha256d)
      else .error (.error .boundExceeded) := by
  unfold txIdBounded
  rw [tx.formats.bounded]
  change (Except.mapError _ (if _ ≤ lengthBound then _ else _) >>= _) = _
  split <;> rfl

/-- A transaction that fits its bound is accepted. -/
theorem txIdBounded_of_le {sha256d : List UInt8 → H256Le} {lengthBound : ℕ}
    (h : tx.formatNoWitness.length ≤ lengthBound) :
    tx.txIdBounded sha256d lengthBound = .ok (tx.txId sha256d) := by
  rw [txIdBounded_eq]
  exact if_pos ((Nat.sub_le _ _).trans h)

variable {tx}

private theorem uncounted_eq_zero :
    tx.uncounted = 0 ↔ ∀ input ∈ tx.inputs, input.script.length < 2 ^ 32 := by
  rw [uncounted, List.sum_eq_zero_iff_forall_eq_nat, List.forall_mem_map]
  refine forall₂_congr fun input _ => ?_
  rw [TransactionInput.uncounted, Nat.mul_eq_zero, or_iff_left (by decide),
    Nat.div_eq_zero_iff, or_iff_right (by decide)]

/-- Scripts are cut by multiples of `2 ^ 32` bytes. -/
theorem dvd_uncounted : 2 ^ 32 ∣ tx.uncounted := by
  refine List.dvd_sum fun n hn => ?_
  obtain ⟨input, -, rfl⟩ := List.mem_map.mp hn
  exact Nat.dvd_mul_left _ _

/-- A bounded id agrees with the id exactly if no script of an input is as long as `2 ^ 32`
bytes, or if the bound is passed even without the bytes that are left out. -/
theorem txIdBounded_exact (sha256d : List UInt8 → H256Le) (tx : Transaction)
    (lengthBound : UInt32) :
    (tx.formatNoWitnessTo ([] : List UInt8) = .ok tx.formatNoWitness ∧
      tx.sizeNoWitness = tx.formatNoWitness.length) ∧
    (tx.txIdBounded sha256d lengthBound.toNat =
      (if tx.sizeNoWitness ≤ lengthBound.toNat then .ok (tx.txId sha256d)
        else .error (.error .boundExceeded)) ↔
      (∀ input ∈ tx.inputs, input.script.length < 2 ^ 32) ∨
        lengthBound.toNat < tx.sizeNoWitness - tx.uncounted) := by
  refine ⟨⟨tx.formats.list [], rfl⟩, ?_⟩
  rw [txIdBounded_eq, ← uncounted_eq_zero]
  have hbound : lengthBound.toNat < 2 ^ 32 := lengthBound.toNat_lt
  have hle := tx.uncounted_le
  by_cases hzero : tx.uncounted = 0
  · rw [hzero, Nat.sub_zero]
    exact iff_of_true rfl (.inl rfl)
  · have hpos := Nat.le_of_dvd (Nat.pos_of_ne_zero hzero) (@dvd_uncounted tx)
    rw [if_neg (by omega : ¬ tx.sizeNoWitness ≤ lengthBound.toNat), or_iff_right hzero]
    constructor
    · intro h
      by_contra hcounted
      rw [if_pos (Nat.le_of_not_lt hcounted)] at h
      cases h
    · intro h
      rw [if_neg (Nat.not_le.mpr h)]

/-- A transaction with one input, which spends nothing. -/
def ofScript (script : List UInt8) : Transaction where
  version := 2
  inputs := [⟨.coinbase none, script, 0, []⟩]
  outputs := []
  lockAt := .blockHeight 0

private theorem length_formatLength_le (n : ℕ) : (formatLength n).length ≤ 9 := by
  unfold formatLength CompactUint.tryFormat
  split_ifs <;> simp

/-- A script of `2 ^ 32` bytes is counted as none. -/
theorem txIdBounded_passes : ∃ (tx : Transaction) (lengthBound : UInt32),
    lengthBound.toNat < tx.sizeNoWitness ∧
      ∀ sha256d, tx.txIdBounded sha256d lengthBound.toNat = .ok (tx.txId sha256d) := by
  obtain ⟨script, hscript⟩ : ∃ script : List UInt8, script.length = 2 ^ 32 :=
    ⟨List.replicate (2 ^ 32) 0, List.length_replicate⟩
  have huncounted : (ofScript script).uncounted = 2 ^ 32 := by
    change List.sum [script.length / 2 ^ 32 * 2 ^ 32] = _
    rw [hscript]
    rfl
  have hcounted : (ofScript script).sizeNoWitness - (ofScript script).uncounted ≤ 100 := by
    have hlengths : ∀ a b c : ℕ, a ≤ 9 → b ≤ 9 → c ≤ 9 →
        4 + (a + (32 + (4 + (b + (2 ^ 32 + 4))) - 2 ^ 32 / 2 ^ 32 * 2 ^ 32 + 0) + (c + 0 + 4)) ≤
          100 := by
      omega
    rw [sizeNoWitness_eq, Nat.add_sub_cancel]
    simp only [ofScript, List.map_cons, List.map_nil, List.sum_cons, List.sum_nil,
      TransactionInput.tryFormat_eq_parts, TransactionInput.uncounted,
      TransactionInput.scriptLengthBytes, List.length_append, H256Le.length_toBytesLe,
      length_toLeBytes, hscript, List.length_cons, List.length_nil]
    exact hlengths _ _ _ (length_formatLength_le _) (length_formatLength_le _)
      (length_formatLength_le _)
  refine ⟨ofScript script, 100, ?_, fun sha256d => ?_⟩
  · have hle := (ofScript script).uncounted_le
    rw [huncounted] at hle
    exact lt_of_lt_of_le (by decide) hle
  · rw [txIdBounded_eq]
    exact if_pos hcounted

end Transaction

end Interbtc
