import Interbtc.Bitcoin.RoundTrip
import Interbtc.Core.PrefixCode

/-!
# What the id of a transaction fixes

The id is the hash of the bytes of a transaction without its witnesses. These bytes fix all the
rest: the version, the inputs as far as they are not witnesses, the outputs, and the lock time.
A height at the beginning of a script is a part of the script here.
-/

namespace Interbtc

open Core

/-- An input without its witness. -/
def TransactionInput.stripped (input : TransactionInput) :
    (H256Le × UInt32) × List UInt8 × UInt32 :=
  (input.outpoint, input.fullScript, input.sequence)

/-- The number of a lock time, which is a time or a height. -/
def LockTime.number : LockTime → UInt32
  | .blockHeight b | .time b => b

/-- A transaction without its witnesses. -/
def Transaction.stripped (tx : Transaction) :
    Int32 × (List ((H256Le × UInt32) × List UInt8 × UInt32) × List TransactionOutput) × UInt32 :=
  (tx.version, (tx.inputs.map TransactionInput.stripped, tx.outputs), tx.lockAt.number)

/-- The lengths that are written into the bytes of a transaction fit in 64 bits. -/
def Transaction.LengthsFit (tx : Transaction) : Prop := ∀ n ∈ tx.lengthsNoWitness, n < 2 ^ 64

instance : DecidablePred Transaction.LengthsFit := fun _ =>
  inferInstanceAs (Decidable (∀ _ ∈ _, _))

/-! ## Numbers -/

private theorem intToLeBytes_emod {width : ℕ} {x y : ℤ}
    (h : intToLeBytes width x = intToLeBytes width y) :
    x % 256 ^ width = y % 256 ^ width := by
  have hcast : ((256 ^ width : ℕ) : ℤ) = 256 ^ width := by
    rw [Int.natCast_pow]
    rfl
  have hpos : (0 : ℤ) < (256 ^ width : ℕ) := Int.natCast_pos.mpr (Nat.pow_pos (by decide))
  rw [intToLeBytes, intToLeBytes, ← hcast] at h
  have hvalue : ∀ z : ℤ, fromLeBytes (toLeBytes width (z % (256 ^ width : ℕ)).toNat) =
      (z % (256 ^ width : ℕ)).toNat := by
    intro z
    refine fromLeBytes_toLeBytes ((Int.toNat_lt (Int.emod_nonneg _ hpos.ne')).mpr ?_)
    exact Int.emod_lt_of_pos z hpos
  have heq := congrArg fromLeBytes h
  rw [hvalue, hvalue] at heq
  rw [← hcast, ← Int.toNat_of_nonneg (Int.emod_nonneg x hpos.ne'), heq,
    Int.toNat_of_nonneg (Int.emod_nonneg y hpos.ne')]

private theorem prefixCode_version :
    PrefixCode (fun _ : Int32 => True) (fun v => intToLeBytes 4 v.toInt) id := by
  refine .of_length (fun _ => length_intToLeBytes _ _) fun a b _ _ h => ?_
  have hmod := intToLeBytes_emod h
  have ha := a.le_toInt
  have ha' := a.toInt_lt
  have hb := b.le_toInt
  have hb' := b.toInt_lt
  have heq : a.toInt = b.toInt := by omega
  exact Int32.toInt_inj.mp heq

private theorem prefixCode_value :
    PrefixCode (fun _ : Int64 => True) (fun v => intToLeBytes 8 v.toInt) id := by
  refine .of_length (fun _ => length_intToLeBytes _ _) fun a b _ _ h => ?_
  have hmod := intToLeBytes_emod h
  have ha := a.le_toInt
  have ha' := a.toInt_lt
  have hb := b.le_toInt
  have hb' := b.toInt_lt
  have heq : a.toInt = b.toInt := by omega
  exact Int64.toInt_inj.mp heq

private theorem prefixCode_word :
    PrefixCode (fun _ : UInt32 => True) (fun v => toLeBytes 4 v.toNat) id := by
  refine .of_length (fun _ => length_toLeBytes _ _) fun a b _ _ h => ?_
  have heq := congrArg fromLeBytes h
  rw [fromLeBytes_toLeBytes (a.toNat_lt.trans_le (by decide)),
    fromLeBytes_toLeBytes (b.toNat_lt.trans_le (by decide))] at heq
  exact UInt32.toNat_inj.mp heq

private theorem prefixCode_hash : PrefixCode (fun _ : H256Le => True) H256Le.toBytesLe id :=
  .of_length H256Le.length_toBytesLe fun _ _ _ _ h => H256Le.toBytesLe_injective h

private theorem prefixCode_formatLength : PrefixCode (· < 2 ^ 64) formatLength id := by
  intro m n s t hm hn heq
  obtain ⟨-, hvalue, hrest⟩ := (writes_formatLength m hm).unique (writes_formatLength n hn) heq
  exact ⟨hvalue, hrest⟩

private theorem prefixCode_bytes : PrefixCode (fun bytes : List UInt8 => bytes.length < 2 ^ 64)
    (serializeBytes formatLength) id := by
  have hbyte : PrefixCode (fun _ : UInt8 => True) (fun b => [b]) id :=
    .of_length (fun _ => rfl) fun _ _ _ _ h => List.singleton_inj.mp h
  intro bytes bytes' s t h h' heq
  have hlist := prefixCode_formatLength.list hbyte bytes bytes' s t ⟨h, fun _ _ => trivial⟩
    ⟨h', fun _ _ => trivial⟩ heq
  rwa [List.map_id, List.map_id] at hlist

/-! ## Transactions -/

private theorem prefixCode_input :
    PrefixCode (fun input : TransactionInput => input.fullScript.length < 2 ^ 64)
      (TransactionInput.serialize formatLength) TransactionInput.stripped := by
  have hparts := ((prefixCode_hash.comap fun input : TransactionInput => input.outpoint.1).mono
    fun input (_ : input.fullScript.length < 2 ^ 64) => trivial).append
      (((prefixCode_word.comap fun input : TransactionInput => input.outpoint.2).mono
        fun _ _ => trivial).append
        ((prefixCode_bytes.comap TransactionInput.fullScript).append
          ((prefixCode_word.comap TransactionInput.sequence).mono fun _ _ => trivial)))
  intro input input' s t h h' heq
  have hcode : ∀ input : TransactionInput, input.serialize formatLength =
      input.outpoint.1.toBytesLe ++ (toLeBytes 4 input.outpoint.2.toNat ++
        (serializeBytes formatLength input.fullScript ++ toLeBytes 4 input.sequence.toNat)) := by
    intro input
    rw [TransactionInput.serialize, serializeBytes, serializeVec, List.flatMap_singleton',
      List.append_assoc]
  rw [hcode, hcode] at heq
  obtain ⟨hkey, hrest⟩ := hparts input input' s t h h' heq
  obtain ⟨hhash, hindex, hscript, hsequence⟩ :
      input.outpoint.1 = input'.outpoint.1 ∧ input.outpoint.2 = input'.outpoint.2 ∧
        input.fullScript = input'.fullScript ∧ input.sequence = input'.sequence := by
    simpa only [Prod.mk.injEq, id_eq] using hkey
  refine ⟨?_, hrest⟩
  rw [TransactionInput.stripped, TransactionInput.stripped, hscript, hsequence,
    Prod.ext hhash hindex]

private theorem prefixCode_output :
    PrefixCode (fun output : TransactionOutput => output.script.bytes.length < 2 ^ 64)
      (TransactionOutput.serialize formatLength) id := by
  have hparts := ((prefixCode_value.comap TransactionOutput.value).mono
    fun output (_ : output.script.bytes.length < 2 ^ 64) => trivial).append
      (prefixCode_bytes.comap fun output : TransactionOutput => output.script.bytes)
  rintro ⟨value, ⟨script⟩⟩ ⟨value', ⟨script'⟩⟩ s t h h' heq
  obtain ⟨hkey, hrest⟩ := hparts _ _ s t h h' heq
  cases hkey
  exact ⟨rfl, hrest⟩

private theorem LockTime.tryFormat_eq_number (lock : LockTime) :
    lock.tryFormat = toLeBytes 4 lock.number.toNat := by
  cases lock with
  | time t => rfl
  | blockHeight h => rfl

private theorem prefixCode_lockTime :
    PrefixCode (fun _ : LockTime => True) LockTime.tryFormat LockTime.number := by
  intro lock lock' s t _ _ heq
  rw [LockTime.tryFormat_eq_number, LockTime.tryFormat_eq_number] at heq
  exact prefixCode_word _ _ s t trivial trivial heq

/-- Transactions without witnesses form a prefix code, up to what is not serialised. -/
theorem prefixCode_transaction :
    PrefixCode Transaction.LengthsFit Transaction.formatNoWitness Transaction.stripped := by
  have hinputs := ((prefixCode_formatLength.list prefixCode_input).comap Transaction.inputs)
  have houtputs := ((prefixCode_formatLength.list prefixCode_output).comap Transaction.outputs)
  have hlengths : ∀ tx : Transaction, tx.LengthsFit →
      (tx.inputs.length < 2 ^ 64 ∧ ∀ input ∈ tx.inputs, input.fullScript.length < 2 ^ 64) ∧
        tx.outputs.length < 2 ^ 64 ∧
          ∀ output ∈ tx.outputs, output.script.bytes.length < 2 ^ 64 := by
    intro tx h
    rw [Transaction.LengthsFit, Transaction.lengthsNoWitness, List.forall_mem_append,
      List.forall_mem_cons, List.forall_mem_cons, List.forall_mem_map, List.forall_mem_map] at h
    exact h
  have hparts := ((prefixCode_version.comap Transaction.version).mono
    fun tx (_ : tx.LengthsFit) => trivial).append
      (((hinputs.mono fun tx h => (hlengths tx h).1).append
        (houtputs.mono fun tx h => (hlengths tx h).2)).append
          ((prefixCode_lockTime.comap Transaction.lockAt).mono fun _ _ => trivial))
  intro tx tx' s t h h' heq
  rw [Transaction.formatNoWitness_eq, Transaction.formatNoWitness_eq] at heq
  obtain ⟨hkey, hrest⟩ := hparts tx tx' s t h h' heq
  refine ⟨?_, hrest⟩
  simpa only [Transaction.stripped, List.map_id, id_eq] using hkey

/-- What is written of a transaction is what is left without its witnesses. -/
theorem Transaction.formatNoWitness_of_stripped {tx tx' : Transaction}
    (h : tx.stripped = tx'.stripped) : tx.formatNoWitness = tx'.formatNoWitness := by
  have hinputs : ∀ tx : Transaction,
      tx.inputs.flatMap (TransactionInput.serialize formatLength) =
        tx.stripped.2.1.1.flatMap fun input =>
          input.1.1.toBytesLe ++ (toLeBytes 4 input.1.2.toNat ++
            (formatLength input.2.1.length ++ (input.2.1 ++ toLeBytes 4 input.2.2.toNat))) := by
    intro tx
    rw [stripped, List.flatMap_map]
    rfl
  have hcount : ∀ tx : Transaction, tx.inputs.length = tx.stripped.2.1.1.length := by
    intro tx
    rw [stripped, List.length_map]
  have hbytes : ∀ tx : Transaction, tx.formatNoWitness =
      intToLeBytes 4 tx.stripped.1.toInt ++ ((formatLength tx.stripped.2.1.1.length ++
        tx.inputs.flatMap (TransactionInput.serialize formatLength) ++
          serializeVec formatLength (TransactionOutput.serialize formatLength) tx.stripped.2.1.2) ++
            toLeBytes 4 tx.stripped.2.2.toNat) := by
    intro tx
    rw [formatNoWitness_eq, serializeNoWitness, serializeInOut, serializeVec, hcount,
      LockTime.tryFormat_eq_number]
    rfl
  rw [hbytes, hbytes, hinputs, hinputs, h]

/-- Where a hash does not collide on their bytes, two transactions have one id exactly if they
differ in their witnesses only, and in how the height of a coinbase is kept. -/
theorem txId_eq_iff_stripped (sha256d : List UInt8 → H256Le) (tx tx' : Transaction)
    (hfree : Set.InjOn sha256d {tx.formatNoWitness, tx'.formatNoWitness})
    (hfit : tx.LengthsFit) (hfit' : tx'.LengthsFit) :
    tx.txId sha256d = tx'.txId sha256d ↔ tx.stripped = tx'.stripped := by
  constructor
  · intro h
    have hbytes := hfree (Set.mem_insert _ _) (Set.mem_insert_of_mem _ rfl) h
    exact prefixCode_transaction.key_eq hfit hfit' hbytes
  · intro h
    exact congrArg sha256d (Transaction.formatNoWitness_of_stripped h)

/-- The coinbase transaction of a height, with the height in the script. -/
def scriptedCoinbase (height : UInt32) : Transaction :=
  { coinbaseTransaction height with
    inputs := (coinbaseTransaction height).inputs.map fun input =>
      { input with source := .coinbase none, script := input.fullScript } }

/-- The number that some bytes stand for, as a hash. -/
def numberHash (bytes : List UInt8) : H256Le := .fromInteger (fromLeBytes bytes)

/-- Two coinbases that differ in what the id leaves out. -/
theorem txId_eq_iff_stripped_coinbase :
    coinbaseTransaction 840000 ≠ scriptedCoinbase 840000 ∧
      (coinbaseTransaction 840000).txId numberHash = (scriptedCoinbase 840000).txId numberHash := by
  refine ⟨by decide +kernel, (txId_eq_iff_stripped numberHash (coinbaseTransaction 840000)
    (scriptedCoinbase 840000) ?_ (by decide +kernel) (by decide +kernel)).mpr rfl⟩
  rw [Set.injOn_pair]
  decide +kernel

end Interbtc
