import Interbtc.Bitcoin.RoundTrip

/-!
# Compact sizes

Bitcoin writes a length in the shortest of four forms. The formatter leaves a form one number
early twice: the largest number of two bytes is written with four, and the largest number of
four bytes with eight. The size accounting has the same boundaries, and the parser reads every
form, so the only effect is on the bytes and on the id of a transaction with such a length.
-/

namespace Interbtc

open Core

/-- The bytes that a length takes in the size accounting, which is for 32-bit lengths. -/
def varIntSize (length : ℕ) : ℕ :=
  if length < 253 then 1
  else if length < 65535 then 3
  else if length < 4294967295 then 5
  else 9

/-- Bitcoin's code for lengths: the shortest form that the number fits. -/
def compactSizeBytes (n : ℕ) : List UInt8 :=
  if n < 0xfd then toLeBytes 1 n
  else if n < 2 ^ 16 then 0xfd :: toLeBytes 2 n
  else if n < 2 ^ 32 then 0xfe :: toLeBytes 4 n
  else 0xff :: toLeBytes 8 n

/-- The numbers for which the formatter takes the shortest form. -/
def Shortest (n : ℕ) : Prop := n ≠ 2 ^ 16 - 1 ∧ n ≠ 2 ^ 32 - 1

instance : DecidablePred Shortest := fun _ => inferInstanceAs (Decidable (_ ∧ _))

namespace Transaction

/-- The bytes of a transaction in Bitcoin's own serialization. -/
def bitcoinBytes (tx : Transaction) : List UInt8 := tx.serialize compactSizeBytes

/-- The bytes that Bitcoin hashes for the id of a transaction. -/
def bitcoinBytesNoWitness (tx : Transaction) : List UInt8 := tx.serializeNoWitness compactSizeBytes

end Transaction

variable {n : ℕ} {tx : Transaction}

/-! ## Numbers -/

private theorem formatLength_eq (hn : n < 2 ^ 64) : formatLength n =
    if n < 0xfd then toLeBytes 1 n
    else if n < 2 ^ 16 - 1 then 0xfd :: toLeBytes 2 n
    else if n < 2 ^ 32 - 1 then 0xfe :: toLeBytes 4 n
    else 0xff :: toLeBytes 8 n := by
  have hvalue : (UInt64.ofNat n).toNat = n := by rw [UInt64.toNat_ofNat', Nat.mod_eq_of_lt hn]
  rw [formatLength, CompactUint.fromUsize, CompactUint.tryFormat]
  simp only [hvalue]

private theorem writes_compactSizeBytes : Writes compactSizeBytes := by
  intro n hn
  have hword : ∀ {width : ℕ}, n < 256 ^ width → fromLeBytes (toLeBytes width n) = n :=
    fromLeBytes_toLeBytes
  unfold compactSizeBytes
  split
  · have := writes_formatLength n hn
    rwa [formatLength_eq hn, if_pos ‹_›] at this
  split
  · simpa only [hword (show n < 256 ^ 2 by omega)] using CompactBytes.word _ (length_toLeBytes 2 n)
  split
  · simpa only [hword (show n < 256 ^ 4 by omega)] using
      CompactBytes.doubleWord _ (length_toLeBytes 4 n)
  · simpa only [hword (show n < 256 ^ 8 by omega)] using
      CompactBytes.quadWord _ (length_toLeBytes 8 n)

/-- The formatter's code is Bitcoin's, but for the largest numbers of two and four bytes. -/
theorem formatLength_eq_compactSizeBytes (hn : n < 2 ^ 64) :
    formatLength n = compactSizeBytes n ↔ Shortest n := by
  rw [formatLength_eq hn, compactSizeBytes, Shortest]
  constructor
  · intro h
    constructor
    · rintro rfl
      exact nomatch congrArg List.length h
    · rintro rfl
      exact nomatch congrArg List.length h
  · rintro ⟨htwo, hfour⟩
    have hword : n < 2 ^ 16 - 1 ↔ n < 2 ^ 16 := by omega
    have hdouble : n < 2 ^ 32 - 1 ↔ n < 2 ^ 32 := by omega
    simp only [hword, hdouble]

/-- The size accounting has the boundaries of the formatter. -/
theorem length_formatLength (hn : n < 2 ^ 32) : (formatLength n).length = varIntSize n := by
  have hword : ∀ (b : UInt8) (width : ℕ), (b :: toLeBytes width n).length = width + 1 := by
    intro b width
    rw [List.length_cons, length_toLeBytes]
  rw [formatLength_eq (by omega), varIntSize]
  simp only [apply_ite List.length, length_toLeBytes, hword]
  rfl

/-- The parser reads back what the formatter wrote. -/
theorem parseCompactUint_formatLength (hn : n < 2 ^ 64) (rest : List UInt8) :
    parseCompactUint (formatLength n ++ rest) =
      .ok (UInt64.ofNat n, (formatLength n).length) := by
  have hvalue : (UInt64.ofNat n).toNat = n := by rw [UInt64.toNat_ofNat', Nat.mod_eq_of_lt hn]
  refine parseCompactUint_eq_ok.mpr ⟨_, rest, rfl, ?_, rfl⟩
  rw [hvalue]
  exact writes_formatLength n hn

/-! ## Transactions -/

/-- Two strings are the same under a condition, and whatever follows them they differ without
it. -/
structure SameIff (s s' : List UInt8) (condition : Prop) : Prop where
  same : condition → s = s'
  cancel : ∀ {rest rest'}, s ++ rest = s' ++ rest' → condition ∧ rest = rest'

namespace SameIff

variable {s s' t t' : List UInt8} {condition condition' : Prop}

private theorem refl (s : List UInt8) : SameIff s s True :=
  ⟨fun _ => rfl, fun h => ⟨trivial, List.append_cancel_left h⟩⟩

private theorem append (hs : SameIff s s' condition) (ht : SameIff t t' condition') :
    SameIff (s ++ t) (s' ++ t') (condition ∧ condition') where
  same h := by rw [hs.same h.1, ht.same h.2]
  cancel h := by
    rw [List.append_assoc, List.append_assoc] at h
    obtain ⟨hc, h⟩ := hs.cancel h
    obtain ⟨hc', h⟩ := ht.cancel h
    exact ⟨⟨hc, hc'⟩, h⟩

private theorem congr (hs : SameIff s s' condition) (h : condition ↔ condition') :
    SameIff s s' condition' :=
  ⟨fun hc => hs.same (h.mpr hc), fun heq => (hs.cancel heq).imp_left h.mp⟩

private theorem flatMap {ι : Type} {f f' : ι → List UInt8} {items : List ι} {conditions : ι → Prop}
    (h : ∀ i ∈ items, SameIff (f i) (f' i) (conditions i)) :
    SameIff (items.flatMap f) (items.flatMap f') (∀ i ∈ items, conditions i) := by
  induction items with
  | nil => exact (refl []).congr (iff_of_true trivial fun _ h => nomatch h)
  | cons i items ih =>
    rw [List.flatMap_cons, List.flatMap_cons]
    exact ((h i List.mem_cons_self).append
      (ih fun i' hi' => h i' (List.mem_cons_of_mem _ hi'))).congr List.forall_mem_cons.symm

private theorem eq_iff (hs : SameIff s s' condition) : s = s' ↔ condition := by
  constructor
  · intro h
    have happend : s ++ [] = s' ++ [] := by rw [h]
    exact (hs.cancel happend).1
  · exact hs.same

/-- The formatter's code for a length, against Bitcoin's. -/
theorem length (hn : n < 2 ^ 64) : SameIff (formatLength n) (compactSizeBytes n) (Shortest n) where
  same h := (formatLength_eq_compactSizeBytes hn).mpr h
  cancel h := by
    obtain ⟨heq, -, hrest⟩ := (writes_formatLength n hn).unique (writes_compactSizeBytes n hn) h
    exact ⟨(formatLength_eq_compactSizeBytes hn).mp heq, hrest⟩

private theorem vec {ι : Type} {f f' : ι → List UInt8} {items : List ι} {conditions : ι → Prop}
    (hlength : items.length < 2 ^ 64) (h : ∀ i ∈ items, SameIff (f i) (f' i) (conditions i)) :
    SameIff (serializeVec formatLength f items) (serializeVec compactSizeBytes f' items)
      (Shortest items.length ∧ ∀ i ∈ items, conditions i) :=
  (length hlength).append (flatMap h)

private theorem bytes {bytes : List UInt8} (hlength : bytes.length < 2 ^ 64) :
    SameIff (serializeBytes formatLength bytes) (serializeBytes compactSizeBytes bytes)
      (Shortest bytes.length) :=
  (vec hlength fun b _ => refl [b]).congr (and_iff_left fun _ _ => trivial)

end SameIff

namespace Transaction.WellFormed

variable (h : tx.WellFormed)

include h

private theorem output_length {output : TransactionOutput} (houtput : output ∈ tx.outputs) :
    output.script.bytes.length < 2 ^ 64 :=
  (h.outputs output houtput).trans_lt (by decide)

private theorem same_inOut : SameIff (tx.serializeInOut formatLength)
    (tx.serializeInOut compactSizeBytes)
    (∀ n ∈ tx.lengthsNoWitness, Shortest n) := by
  have hinputs : SameIff
      (serializeVec formatLength (TransactionInput.serialize formatLength) tx.inputs)
      (serializeVec compactSizeBytes (TransactionInput.serialize compactSizeBytes) tx.inputs)
      (Shortest tx.inputs.length ∧ ∀ input ∈ tx.inputs, Shortest input.fullScript.length) := by
    refine SameIff.vec h.inputs_length fun input hinput => ?_
    refine ((SameIff.refl _).append ((SameIff.refl _).append ((SameIff.length
      (h.fullScript_length hinput)).append (SameIff.refl _)))).congr ?_
    simp only [true_and, and_true]
  have houtputs : SameIff
      (serializeVec formatLength (TransactionOutput.serialize formatLength) tx.outputs)
      (serializeVec compactSizeBytes (TransactionOutput.serialize compactSizeBytes) tx.outputs)
      (Shortest tx.outputs.length ∧
        ∀ output ∈ tx.outputs, Shortest output.script.bytes.length) :=
    SameIff.vec h.outputs_length fun output houtput =>
      ((SameIff.refl _).append (SameIff.bytes (h.output_length houtput))).congr
        (by simp only [true_and])
  refine (hinputs.append houtputs).congr ?_
  simp only [lengthsNoWitness, List.forall_mem_append, List.forall_mem_cons, List.forall_mem_map]

private theorem same_witnesses (hwitness : tx.hasWitness) :
    SameIff (tx.serializeWitnesses formatLength) (tx.serializeWitnesses compactSizeBytes)
      (∀ input ∈ tx.inputs, Shortest input.witness.length ∧
        ∀ item ∈ input.witness, Shortest item.length) :=
  SameIff.flatMap fun _ hinput => SameIff.vec (h.witness_length hwitness hinput) fun item hitem =>
    SameIff.bytes (h.item_length hwitness hinput item hitem)

private theorem same_serialize : SameIff (tx.serialize formatLength) (tx.serialize compactSizeBytes)
    (∀ n ∈ tx.lengths, Shortest n) := by
  suffices hbody : SameIff (if tx.hasWitness then _ else _) _ (∀ n ∈ tx.lengths, Shortest n) from
    ((SameIff.refl _).append (hbody.append (SameIff.refl _))).congr
      (by simp only [true_and, and_true])
  cases hwitness : tx.hasWitness with
  | false =>
    rw [if_neg (by decide), if_neg (by decide), Transaction.lengths, hwitness,
      if_neg (by decide), List.append_nil]
    exact h.same_inOut
  | true =>
    rw [if_pos rfl, if_pos rfl]
    refine ((SameIff.refl _).append (h.same_inOut.append (h.same_witnesses hwitness))).congr ?_
    rw [Transaction.lengths, hwitness, if_pos rfl, List.forall_mem_append]
    simp only [true_and, List.forall_mem_flatMap, List.forall_mem_cons, List.forall_mem_map]

private theorem same_serializeNoWitness :
    SameIff (tx.serializeNoWitness formatLength) (tx.serializeNoWitness compactSizeBytes)
      (∀ n ∈ tx.lengthsNoWitness, Shortest n) :=
  ((SameIff.refl _).append (h.same_inOut.append (SameIff.refl _))).congr
    (by simp only [true_and, and_true])

end Transaction.WellFormed

/-- A compact integer is formatted as in Bitcoin, exactly if it is not the largest one of two
or of four bytes. Its length is always the one of the size accounting, and it is always parsed
back. A transaction that was parsed from Bitcoin's bytes is formatted to them again, with the
bytes that its id is the hash of, exactly if none of its lists has such a length. -/
theorem compact_integers_canonical (sha256d : List UInt8 → H256Le) :
    (∀ n < 2 ^ 64,
      (formatLength n = compactSizeBytes n ∧ (n < 2 ^ 32 → (formatLength n).length = varIntSize n) ∧
        ∀ rest, parseCompactUint (formatLength n ++ rest) =
          .ok (UInt64.ofNat n, (formatLength n).length)) ↔ Shortest n) ∧
    ∀ tx parsed : Transaction, tx.WellFormed → tx.bitcoinBytes.length < sliceBound →
      parseTransaction tx.bitcoinBytes = .ok parsed →
        ((parsed.tryFormat = tx.bitcoinBytes ∧ parsed.formatNoWitness = tx.bitcoinBytesNoWitness ∧
          parsed.txId sha256d = sha256d tx.bitcoinBytesNoWitness) ↔
            ∀ n ∈ tx.lengths, Shortest n) := by
  constructor
  · intro n hn
    constructor
    · exact fun h => (formatLength_eq_compactSizeBytes hn).mp h.1
    · exact fun h => ⟨(formatLength_eq_compactSizeBytes hn).mpr h, length_formatLength,
        parseCompactUint_formatLength hn⟩
  · intro tx parsed h hsize hparsed
    have hfits : ∀ input ∈ tx.inputs, input.HeightFits := by
      by_contra hbad
      have hpanic := (parseTransaction_panic hsize).mpr (h.traps writes_compactSizeBytes hbad)
      rw [hpanic] at hparsed
      exact nomatch hparsed
    have hsame : parsed = tx := by
      have := ((parseTransaction_serialize writes_compactSizeBytes h hsize).mpr hfits).2
      rw [Transaction.bitcoinBytes, this] at hparsed
      exact (Except.ok.inj hparsed).symm
    subst parsed
    rw [Transaction.txId, Transaction.tryFormat_eq, Transaction.formatNoWitness_eq]
    constructor
    · exact fun heq => h.same_serialize.eq_iff.mp heq.1
    · intro hshortest
      have hno : tx.serializeNoWitness formatLength = tx.bitcoinBytesNoWitness :=
        h.same_serializeNoWitness.same fun n hn => hshortest n (List.mem_append_left _ hn)
      exact ⟨h.same_serialize.same hshortest, hno, congrArg sha256d hno⟩

/-- The boundary of two and four bytes, and a coinbase. -/
theorem compact_integers_canonical_coinbase :
    ((formatLength 65534 = compactSizeBytes 65534 ∧
        (65534 < 2 ^ 32 → (formatLength 65534).length = varIntSize 65534) ∧
        ∀ rest, parseCompactUint (formatLength 65534 ++ rest) =
          .ok (UInt64.ofNat 65534, (formatLength 65534).length)) ↔ Shortest 65534) ∧
      (((coinbaseTransaction 840000).tryFormat = (coinbaseTransaction 840000).bitcoinBytes ∧
        (coinbaseTransaction 840000).formatNoWitness =
          (coinbaseTransaction 840000).bitcoinBytesNoWitness ∧
        (coinbaseTransaction 840000).txId (fun _ => .zero) = .zero) ↔
          ∀ n ∈ (coinbaseTransaction 840000).lengths, Shortest n) := by
  have h := coinbaseTransaction_wellFormed 840000 (by decide +kernel)
  have hsize : (coinbaseTransaction 840000).bitcoinBytes.length < sliceBound := by decide +kernel
  exact ⟨(compact_integers_canonical fun _ => .zero).1 65534 (by decide),
    (compact_integers_canonical fun _ => .zero).2 _ _ h hsize
      ((parseTransaction_serialize writes_compactSizeBytes h hsize).mpr (by decide +kernel)).2⟩

/-- A length of 65535 is formatted with five bytes, where Bitcoin takes three. -/
theorem compact_integers_not_canonical :
    ¬ ∀ n < 2 ^ 64, formatLength n = compactSizeBytes n := by
  intro h
  exact absurd (h 65535 (by decide)) (by decide +kernel)

end Interbtc
