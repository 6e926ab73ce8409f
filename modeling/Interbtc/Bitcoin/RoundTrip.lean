import Interbtc.Bitcoin.Serialization

/-!
# Round trip of transactions

A transaction that is serialized and parsed again is the same, whatever code the lengths are
written with, as long as the parser knows it. The exception is a height that takes five bytes:
the parser has four bytes for it, and panics.
-/

namespace Interbtc

open Core BytesParser Grammar

variable {writeLength : ℕ → List UInt8} {version : Int32} {input : TransactionInput}
  {tx : Transaction}

/-- A code for lengths that the parser knows. -/
def Writes (writeLength : ℕ → List UInt8) : Prop := ∀ n < 2 ^ 64, CompactBytes (writeLength n) n

/-- The lengths that are written are those that are read. -/
theorem writes_formatLength : Writes formatLength := by
  intro n hn
  have hvalue : (UInt64.ofNat n).toNat = n := by rw [UInt64.toNat_ofNat', Nat.mod_eq_of_lt hn]
  rw [formatLength, CompactUint.fromUsize, CompactUint.tryFormat]
  simp only [hvalue]
  have hword : ∀ {width : ℕ}, n < 256 ^ width → fromLeBytes (toLeBytes width n) = n :=
    fromLeBytes_toLeBytes
  split
  · have hbyte : (UInt8.ofNat n).toNat = n := by
      rw [UInt8.toNat_ofNat', Nat.mod_eq_of_lt (by omega)]
    have hone : toLeBytes 1 n = [UInt8.ofNat n] := toLeBytes_succ 0 n
    have := CompactBytes.byte (UInt8.ofNat n) (by omega)
    rwa [hbyte, ← hone] at this
  split
  · simpa only [hword (show n < 256 ^ 2 by omega)] using CompactBytes.word _ (length_toLeBytes 2 n)
  split
  · simpa only [hword (show n < 256 ^ 4 by omega)] using
      CompactBytes.doubleWord _ (length_toLeBytes 4 n)
  · simpa only [hword (show n < 256 ^ 8 by omega)] using
      CompactBytes.quadWord _ (length_toLeBytes 8 n)

/-! ## Transactions that the parser admits -/

/-- An input spends an output or it is a coinbase input, whose script is short. It has a
height in version 2 only. -/
def TransactionInput.WellFormed (version : Int32) (input : TransactionInput) : Prop :=
  match input.source with
  | .fromOutput hash _ => hash ≠ .zero
  | .coinbase height => (height.isSome ↔ version = 2) ∧ input.script.length ≤ 100

/-- The height of a coinbase input is one of those that the parser has room for. -/
def TransactionInput.HeightFits (input : TransactionInput) : Prop :=
  match input.source with
  | .coinbase (some height) => height.toNat < 2 ^ 31
  | _ => True

instance : DecidablePred TransactionInput.HeightFits := fun input => by
  unfold TransactionInput.HeightFits
  split <;> infer_instance

/-- A lock time is a height below the threshold and a time from there on. -/
def LockTime.WellFormed : LockTime → Prop
  | .blockHeight h => h < LOCKTIME_THRESHOLD
  | .time t => LOCKTIME_THRESHOLD ≤ t

namespace Transaction

/-- The lengths of the lists of a transaction, but for those of its witnesses. -/
def lengthsNoWitness (tx : Transaction) : List ℕ :=
  (tx.inputs.length :: tx.inputs.map fun input => input.fullScript.length) ++
    tx.outputs.length :: tx.outputs.map fun output => output.script.bytes.length

/-- The lengths of all lists of a transaction. -/
def lengths (tx : Transaction) : List ℕ :=
  tx.lengthsNoWitness ++ if tx.hasWitness then
    tx.inputs.flatMap fun input => input.witness.length :: input.witness.map List.length
  else []

/-- What a transaction needs to be serialised and parsed. -/
structure WellFormed (tx : Transaction) : Prop where
  version : tx.version = 1 ∨ tx.version = 2
  inputs_ne : tx.inputs ≠ []
  inputs : ∀ input ∈ tx.inputs, input.WellFormed tx.version
  outputs : ∀ output ∈ tx.outputs, output.script.bytes.length ≤ 10000
  lockAt : tx.lockAt.WellFormed
  /-- No list has more elements than a 64-bit number counts. -/
  lengths : ∀ n ∈ tx.lengths, n < 2 ^ 64

end Transaction

/-! ## Inputs -/

/-- The byte that pushes a height is the length of it. -/
theorem compactBytes_heightPush (height : UInt32) :
    CompactBytes [UInt8.ofNat (Script.heightBytes height).length]
      (Script.heightBytes height).length := by
  have hle := Script.length_heightBytes_le height
  have hbyte : (UInt8.ofNat (Script.heightBytes height).length).toNat =
      (Script.heightBytes height).length := by
    rw [UInt8.toNat_ofNat', Nat.mod_eq_of_lt (by omega)]
  have hpush := CompactBytes.byte (UInt8.ofNat (Script.heightBytes height).length) (by omega)
  rwa [hbyte] at hpush

/-- An input is parsed without its witness. -/
theorem inputBytes_serialize (hwrites : Writes writeLength) (hinput : input.WellFormed version)
    (hlength : input.fullScript.length < 2 ^ 64) (hfits : input.HeightFits) :
    InputBytes version (input.serialize writeLength) (input.withWitness []) := by
  have hc := hwrites _ hlength
  obtain ⟨⟨hash, index⟩ | ⟨_ | height⟩, script, sequence, witness⟩ := input
  · exact .fromOutput hinput hc
  · refine .coinbase (fun hversion => ?_) hc hinput.2
    exact nomatch hinput.1.mpr hversion
  · have hversion : version = 2 := hinput.1.mp rfl
    have hle := Script.length_heightBytes_le height
    have hfull : (Script.height height).bytes ++ script =
        [UInt8.ofNat (Script.heightBytes height).length] ++ Script.heightBytes height ++ script := by
      rw [Script.height_bytes]
      rfl
    have hd := compactBytes_heightPush height
    have hheight : UInt32.ofNat (fromLeBytes (Script.heightBytes height)) = height := by
      rw [Script.fromLeBytes_heightBytes, UInt32.ofNat_toNat]
    have hsum : ((Script.height height).bytes ++ script).length =
        script.length + ((Script.heightBytes height).length + 1) := by
      rw [Script.height_bytes, List.length_append, List.length_cons]
      omega
    change CompactBytes (writeLength ((Script.height height).bytes ++ script).length)
      ((Script.height height).bytes ++ script).length at hc
    rw [hsum] at hc
    have hbytes : InputBytes version _ ⟨.coinbase _, script, sequence, []⟩ :=
      InputBytes.height hversion hc hd (Script.length_heightBytes_le_four.mpr hfits) hinput.2
    rw [hheight] at hbytes
    unfold TransactionInput.serialize TransactionInput.outpoint TransactionInput.fullScript
    have hmax : (0xffffffff : UInt32).toNat = 0xffffffff := rfl
    rw [← hsum] at hbytes
    simp only [hfull] at hbytes ⊢
    simpa only [List.append_assoc, hmax, TransactionInput.withWitness] using hbytes

private theorem outputBytes_serialize (hwrites : Writes writeLength) {output : TransactionOutput}
    (hshort : output.script.bytes.length ≤ 10000) :
    OutputBytes (output.serialize writeLength) output := by
  refine ⟨writeLength output.script.bytes.length, ?_, hwrites _ (by omega), hshort⟩
  rw [TransactionOutput.serialize, serializeBytes, serializeVec, List.flatMap_singleton']

/-! ## Lists -/

/-- A list that is serialized is accepted, item by item. -/
theorem vecGrammar_serialize {α ι : Type} {G : Grammar UInt8 α} (hwrites : Writes writeLength)
    {serialize : ι → List UInt8} {value : ι → α} {items : List ι} (hlength : items.length < 2 ^ 64)
    (h : ∀ i ∈ items, G.accepts (serialize i) (value i)) :
    (vecGrammar G).accepts (serializeVec writeLength serialize items) (items.map value) := by
  refine ⟨_, _, rfl, ?_, Chunks.flatMap h⟩
  rw [List.length_map]
  exact hwrites _ hlength

/-- A list of items that are read as they are is accepted as it is. -/
theorem vecGrammar_serialize_id {α : Type} {G : Grammar UInt8 α} (hwrites : Writes writeLength)
    {serialize : α → List UInt8} {items : List α} (hlength : items.length < 2 ^ 64)
    (h : ∀ i ∈ items, G.accepts (serialize i) i) :
    (vecGrammar G).accepts (serializeVec writeLength serialize items) items := by
  refine ⟨_, _, rfl, hwrites _ hlength, ?_⟩
  have hitems := Chunks.flatMap h
  rwa [List.map_id'] at hitems

private theorem bytesGrammar_serialize (hwrites : Writes writeLength) {bytes : List UInt8}
    (hlength : bytes.length < 2 ^ 64) :
    (vecGrammar (exact fun v => [v])).accepts (serializeBytes writeLength bytes) bytes :=
  vecGrammar_serialize_id hwrites hlength fun _ _ => rfl

private theorem witnessGrammar_serialize (hwrites : Writes writeLength)
    {witness : List (List UInt8)}
    (hlength : witness.length < 2 ^ 64) (hlengths : ∀ item ∈ witness, item.length < 2 ^ 64) :
    witnessGrammar.accepts (serializeVec writeLength (serializeBytes writeLength) witness)
      witness :=
  vecGrammar_serialize_id hwrites hlength fun item hitem =>
    bytesGrammar_serialize hwrites (hlengths item hitem)

/-! ## Transactions -/

namespace Transaction.WellFormed

variable (h : tx.WellFormed)

include h

/-- The number of inputs fits a length. -/
theorem inputs_length : tx.inputs.length < 2 ^ 64 :=
  h.lengths _ (List.mem_append_left _ (List.mem_append_left _ List.mem_cons_self))

/-- The number of outputs fits a length. -/
theorem outputs_length : tx.outputs.length < 2 ^ 64 :=
  h.lengths _ (List.mem_append_left _ (List.mem_append_right _ List.mem_cons_self))

/-- The script of an input fits a length. -/
theorem fullScript_length (hinput : input ∈ tx.inputs) : input.fullScript.length < 2 ^ 64 :=
  h.lengths _ (List.mem_append_left _ (List.mem_append_left _ (List.mem_cons_of_mem _
    (List.mem_map_of_mem hinput))))

/-- The number of witness items fits a length. -/
theorem witness_length (hwitness : tx.hasWitness) (hinput : input ∈ tx.inputs) :
    input.witness.length < 2 ^ 64 := by
  refine h.lengths _ (List.mem_append_right _ ?_)
  rw [if_pos hwitness]
  exact List.mem_flatMap.mpr ⟨input, hinput, List.mem_cons_self⟩

/-- A witness item fits a length. -/
theorem item_length (hwitness : tx.hasWitness) (hinput : input ∈ tx.inputs) :
    ∀ item ∈ input.witness, item.length < 2 ^ 64 := by
  intro item hitem
  refine h.lengths _ (List.mem_append_right _ ?_)
  rw [if_pos hwitness]
  exact List.mem_flatMap.mpr ⟨input, hinput, List.mem_cons_of_mem _ (List.mem_map_of_mem hitem)⟩

private theorem allowWitness : decide (tx.version &&& SERIALIZE_TRANSACTION_NO_WITNESS = 0) =
    true := by
  rcases h.version with hversion | hversion <;> rw [hversion] <;> rfl

/-- The inputs without their witnesses. -/
theorem inputs_accepts (hwrites : Writes writeLength)
    (hfits : ∀ input ∈ tx.inputs, input.HeightFits) :
    (vecGrammar (inputGrammar tx.version)).accepts
      (serializeVec writeLength (TransactionInput.serialize writeLength) tx.inputs)
      (tx.inputs.map fun input => input.withWitness []) :=
  vecGrammar_serialize hwrites h.inputs_length fun input hinput =>
    inputBytes_serialize hwrites (h.inputs input hinput) (h.fullScript_length hinput)
      (hfits input hinput)

private theorem outputs_accepts (hwrites : Writes writeLength) :
    (vecGrammar outputGrammar).accepts
      (serializeVec writeLength (TransactionOutput.serialize writeLength) tx.outputs)
      tx.outputs :=
  vecGrammar_serialize_id hwrites h.outputs_length fun output houtput =>
    outputBytes_serialize hwrites (h.outputs output houtput)

private theorem witnesses_accepts (hwrites : Writes writeLength) (hwitness : tx.hasWitness) :
    (forEach (fun input : TransactionInput => witnessGrammar.bind fun witness =>
        Grammar.pure (input.withWitness witness))
      (tx.inputs.map fun input => input.withWitness [])).accepts
        (tx.serializeWitnesses writeLength) tx.inputs := by
  have hinput : ∀ input ∈ tx.inputs,
      (witnessGrammar.bind fun witness =>
        Grammar.pure ((input.withWitness []).withWitness witness)).accepts
        (serializeVec writeLength (serializeBytes writeLength) input.witness) (id input) :=
    fun input hinput => ⟨_, [], input.witness, (List.append_nil _).symm,
      witnessGrammar_serialize hwrites (h.witness_length hwitness hinput)
        (h.item_length hwitness hinput), rfl, rfl⟩
  have hinputs := forEach_accepts (F := fun input : TransactionInput =>
    witnessGrammar.bind fun witness => Grammar.pure (input.withWitness witness)) hinput
  rwa [List.map_id] at hinputs

private theorem lockTime : ∃ lock : UInt32, tx.lockAt.tryFormat = toLeBytes 4 lock.toNat ∧
    (if lock < LOCKTIME_THRESHOLD then LockTime.blockHeight lock else .time lock) = tx.lockAt := by
  have hlock := h.lockAt
  revert hlock
  cases tx.lockAt with
  | blockHeight lock => exact fun hlock => ⟨lock, rfl, if_pos hlock⟩
  | time lock => exact fun hlock => ⟨lock, rfl, if_neg (UInt32.not_lt.mpr hlock)⟩

/-- What follows the inputs, once they are read with a flag. -/
theorem afterInputs_accepts (hwrites : Writes writeLength) (allowWitness : Bool)
    {read : UInt8 × List TransactionInput} (witnesses : List UInt8)
    (hwitnesses : (witnessesGrammar allowWitness read.1 read.2).accepts witnesses (0, tx.inputs)) :
    (afterInputsGrammar tx.version allowWitness read).accepts
      (serializeVec writeLength (TransactionOutput.serialize writeLength) tx.outputs ++
        (witnesses ++ tx.lockAt.tryFormat)) tx := by
  obtain ⟨lock, hlock, hlockAt⟩ := h.lockTime
  refine ⟨_, _, tx.outputs, rfl, h.outputs_accepts hwrites, witnesses, _, (0, tx.inputs), rfl,
    hwitnesses, exact_bind_accepts.mpr ⟨lock, [], ?_, ensure_bind_accepts.mpr ⟨by simp, rfl, ?_⟩⟩⟩
  · rw [List.append_nil, hlock]
  · rw [hlockAt]

omit h in
/-- Where there are no witnesses, nothing is lost without them. -/
theorem inputs_withoutWitness (hnone : tx.hasWitness = false) :
    (tx.inputs.map fun input => input.withWitness []) = tx.inputs := by
  refine (List.map_congr_left fun input hinput => ?_).trans (List.map_id _)
  have hempty : input.witness = [] := by
    have := List.any_eq_false.mp hnone input hinput
    simpa using this
  rw [TransactionInput.withWitness, ← hempty]
  rfl

private theorem accepts (hwrites : Writes writeLength)
    (hfits : ∀ input ∈ tx.inputs, input.HeightFits) :
    transactionGrammar.accepts (tx.serialize writeLength) tx := by
  have hversion : ¬ (tx.version ≠ 1 ∧ tx.version ≠ 2) := by
    rintro ⟨h₁, h₂⟩
    exact h.version.elim h₁ h₂
  refine exact_bind_accepts.mpr ⟨tx.version, _, rfl, ensure_bind_accepts.mpr ⟨hversion, ?_⟩⟩
  rw [h.allowWitness]
  have hinputs := h.inputs_accepts hwrites hfits
  cases hwitness : tx.hasWitness with
  | false =>
    rw [if_neg (by decide), Transaction.serializeInOut, List.append_assoc]
    rw [inputs_withoutWitness hwitness] at hinputs
    refine ⟨_, _, (0, tx.inputs), rfl, ⟨_, [], _, (List.append_nil _).symm, hinputs, ?_⟩,
      h.afterInputs_accepts hwrites true [] ?_⟩
    · rw [flaggedGrammar_of_ne_nil h.inputs_ne]
      exact ⟨rfl, rfl⟩
    · rw [witnessesGrammar_zero]
      exact ⟨rfl, rfl⟩
  | true =>
    have hmarker : (vecGrammar (inputGrammar tx.version)).accepts [0x00] [] :=
      ⟨[0x00], [], rfl, .byte 0x00 (by decide), .nil⟩
    have hsome : ¬ (tx.inputs.all fun input => input.witness.isEmpty) := by
      obtain ⟨input, hinput, hne⟩ := List.any_eq_true.mp hwitness
      intro hall
      have := List.all_eq_true.mp hall input hinput
      simp_all
    rw [if_pos rfl, Transaction.serializeInOut]
    refine ⟨[0x00] ++ ([0x01] ++ serializeVec writeLength
      (TransactionInput.serialize writeLength) tx.inputs), _,
      (1, tx.inputs.map fun input => input.withWitness []), ?_,
      ⟨[0x00], _, [], rfl, hmarker, exact_bind_accepts.mpr ⟨1, _, rfl, _, [], _,
        (List.append_nil _).symm, hinputs, rfl, rfl⟩⟩,
      h.afterInputs_accepts hwrites true (tx.serializeWitnesses writeLength) ?_⟩
    · simp only [List.append_assoc]
      rfl
    · have hflag : (1 : UInt8) &&& 1 ≠ 0 ∧ true = true := ⟨by decide, rfl⟩
      unfold witnessesGrammar
      rw [if_pos hflag]
      exact ⟨_, [], tx.inputs, (List.append_nil _).symm, h.witnesses_accepts hwrites hwitness,
        ensure_bind_accepts.mpr ⟨hsome, rfl, Prod.ext (show (0 : UInt8) = 1 ^^^ 1 by decide) rfl⟩⟩

end Transaction.WellFormed

/-! ## Heights of five bytes -/

/-- A height of five bytes does not fit the buffer of the parser. -/
theorem inputTraps_serialize (hwrites : Writes writeLength) (hinput : input.WellFormed version)
    (hlength : input.fullScript.length < 2 ^ 64) (hbad : ¬ input.HeightFits)
    (rest : List UInt8) : InputTraps version (input.serialize writeLength ++ rest) := by
  have hc := hwrites _ hlength
  obtain ⟨⟨hash, index⟩ | ⟨_ | height⟩, script, sequence, witness⟩ := input
  · exact absurd trivial hbad
  · exact absurd trivial hbad
  · have hversion : version = 2 := hinput.1.mp rfl
    have hle := Script.length_heightBytes_le height
    have hfour : ¬ (Script.heightBytes height).length ≤ 4 := fun h =>
      hbad (Script.length_heightBytes_le_four.mp h)
    have hd := compactBytes_heightPush height
    have htrap := @InputTraps.height version _ _ (Script.heightBytes height ++
      (script ++ (toLeBytes 4 sequence.toNat ++ rest))) _ _ hversion hc hd (.inr ⟨?_, .inr ⟨?_, .inl ?_⟩⟩)
    · have hmax : (0xffffffff : UInt32).toNat = 0xffffffff := rfl
      unfold TransactionInput.serialize TransactionInput.outpoint
      simpa only [TransactionInput.fullScript, Script.height_bytes, List.append_assoc, hmax,
        List.cons_append, List.nil_append] using htrap
    · rw [TransactionInput.fullScript, List.length_append, Script.height_bytes, List.length_cons]
      omega
    · rw [List.length_append]
      omega
    · omega

/-- The first height of five bytes is where the parser stops. -/
theorem Transaction.WellFormed.traps (hwrites : Writes writeLength) (h : tx.WellFormed)
    (hbad : ¬ ∀ input ∈ tx.inputs, input.HeightFits) :
    TransactionTraps (tx.serialize writeLength) := by
  obtain ⟨first, bad, rest, hinputs, hfirst, hbad⟩ : ∃ first bad rest,
      tx.inputs = first ++ bad :: rest ∧ (∀ input ∈ first, input.HeightFits) ∧
        ¬ bad.HeightFits := by
    push Not at hbad
    obtain ⟨bad, hmem, hbad⟩ := hbad
    cases hfind : tx.inputs.find? fun input => ¬ input.HeightFits with
    | none =>
      have := List.find?_eq_none.mp hfind bad hmem
      simp [hbad] at this
    | some bad' =>
      obtain ⟨hbad', first, rest, hinputs, hfirst⟩ := List.find?_eq_some_iff_append.mp hfind
      refine ⟨first, bad', rest, hinputs, fun input hinput => ?_, by simpa using hbad'⟩
      simpa using hfirst input hinput
  have hmem : ∀ input, input ∈ first ∨ input = bad → input ∈ tx.inputs := by
    rintro input (hinput | rfl) <;> rw [hinputs] <;> simp_all
  have htraps : ∀ s, InputsTrap tx.version
      (serializeVec writeLength (TransactionInput.serialize writeLength) tx.inputs ++ s) := by
    intro s
    refine ⟨writeLength tx.inputs.length, _, first.flatMap (TransactionInput.serialize writeLength),
      first.map fun input => input.withWitness [], bad.serialize writeLength ++
        (rest.flatMap (TransactionInput.serialize writeLength) ++ s), ?_, hwrites _ h.inputs_length,
      Chunks.flatMap fun input hinput => ?_, ?_, ?_⟩
    · have hflat : tx.inputs.flatMap (TransactionInput.serialize writeLength) =
          first.flatMap (TransactionInput.serialize writeLength) ++ (bad.serialize writeLength ++
            rest.flatMap (TransactionInput.serialize writeLength)) := by
        rw [hinputs, List.flatMap_append, List.flatMap_cons]
      rw [serializeVec, hflat]
      simp only [List.append_assoc]
    · have hin := hmem input (.inl hinput)
      exact inputBytes_serialize hwrites (h.inputs input hin) (h.fullScript_length hin)
        (hfirst input hinput)
    · rw [List.length_map, hinputs, List.length_append, List.length_cons]
      omega
    · have hin := hmem bad (.inr rfl)
      exact inputTraps_serialize hwrites (h.inputs bad hin) (h.fullScript_length hin) hbad _
  refine ⟨tx.version, _, rfl, h.version, ?_⟩
  cases tx.hasWitness with
  | false =>
    rw [if_neg (by decide), Transaction.serializeInOut, List.append_assoc]
    exact .inl (htraps _)
  | true =>
    rw [if_pos rfl, Transaction.serializeInOut]
    refine .inr ⟨[0x00], 0x01, _, ?_, .byte 0x00 (by decide), htraps (serializeVec writeLength
      (TransactionOutput.serialize writeLength) tx.outputs ++
        (tx.serializeWitnesses writeLength ++ tx.lockAt.tryFormat))⟩
    simp only [List.append_assoc]
    rfl

/-- A transaction that is serialized is parsed back, unless one of its heights is too long. -/
theorem parseTransaction_serialize (hwrites : Writes writeLength) (h : tx.WellFormed)
    (hsize : (tx.serialize writeLength).length < sliceBound) :
    (Transaction.parse (tx.serialize writeLength) 0 =
        .ok (tx, (tx.serialize writeLength).length) ∧
      parseTransaction (tx.serialize writeLength) = .ok tx) ↔
        ∀ input ∈ tx.inputs, input.HeightFits := by
  constructor
  · rintro ⟨-, hparse⟩
    by_contra hbad
    rw [(parseTransaction_panic hsize).mpr (h.traps hwrites hbad)] at hparse
    exact nomatch hparse
  · exact fun hfits => parseTransaction_accept hsize (h.accepts hwrites hfits)

/-- Formatting and parsing give a transaction back, with all its bytes consumed, exactly if
each height in a coinbase input is below `2 ^ 31`. -/
theorem transaction_round_trip (h : tx.WellFormed) (hsize : tx.tryFormat.length < sliceBound) :
    (Transaction.parse tx.tryFormat 0 = .ok (tx, tx.tryFormat.length) ∧
      parseTransaction tx.tryFormat = .ok tx) ↔ ∀ input ∈ tx.inputs, input.HeightFits := by
  rw [Transaction.tryFormat_eq] at hsize ⊢
  exact parseTransaction_serialize writes_formatLength h hsize

/-- A coinbase transaction at some height, with a witness. -/
def coinbaseTransaction (height : UInt32) : Transaction where
  version := 2
  inputs := [⟨.coinbase (some height), [0x51], 0xffffffff, [[0, 1]]⟩]
  outputs := [⟨5000000000, ⟨[0x51, 0x52]⟩⟩]
  lockAt := .blockHeight 0

/-- The example is well formed at every height whose lengths fit. -/
theorem coinbaseTransaction_wellFormed (height : UInt32) (hlength :
    ∀ n ∈ (coinbaseTransaction height).lengths, n < 2 ^ 64) :
    (coinbaseTransaction height).WellFormed where
  version := .inr rfl
  inputs_ne := List.cons_ne_nil _ _
  inputs := by
    intro input hinput
    rw [List.mem_singleton.mp hinput]
    exact ⟨iff_of_true rfl rfl, show 1 ≤ 100 by decide⟩
  outputs := by
    intro output houtput
    rw [List.mem_singleton.mp houtput]
    decide
  lockAt := show 0 < LOCKTIME_THRESHOLD by decide
  lengths := hlength

/-- A coinbase with its height. -/
theorem transaction_round_trip_coinbase :
    (Transaction.parse (coinbaseTransaction 840000).tryFormat 0 =
        .ok (coinbaseTransaction 840000, (coinbaseTransaction 840000).tryFormat.length) ∧
      parseTransaction (coinbaseTransaction 840000).tryFormat =
        .ok (coinbaseTransaction 840000)) ↔
      ∀ input ∈ (coinbaseTransaction 840000).inputs, input.HeightFits :=
  transaction_round_trip (coinbaseTransaction_wellFormed 840000 (by decide +kernel)) (by decide +kernel)

/-- At height `2 ^ 31` the formatted transaction makes the parser panic. -/
theorem transaction_not_round_trip :
    ¬ ∀ tx : Transaction, tx.WellFormed → tx.tryFormat.length < sliceBound →
      Transaction.parse tx.tryFormat 0 = .ok (tx, tx.tryFormat.length) ∧
        parseTransaction tx.tryFormat = .ok tx := by
  intro h
  have hpanic : (parseTransaction (coinbaseTransaction 0x80000000).tryFormat matches
      .error .panic) = true := by decide +kernel
  have hparse := (h (coinbaseTransaction 0x80000000)
    (coinbaseTransaction_wellFormed _ (by decide +kernel)) (by decide +kernel)).2
  rw [hparse] at hpanic
  exact nomatch hpanic

end Interbtc
