import Interbtc.Bitcoin.Grammar

/-!
# The grammar of transactions

The strings that are parsed as an input, an output or a transaction, and those on which there
is a panic. A panic has one of two causes: a length with which a position no longer fits 64
bits, and a height in a coinbase script of more bytes than there are in the buffer for it.
-/

namespace Interbtc

open Core BytesParser Grammar

variable {α : Type} {pre s bytes : List UInt8} {n position : ℕ} {version : Int32}

/-! ## Strings of a given length -/

/-- A number of bytes, whose end must not overflow. -/
def readGrammar (n : ℕ) : Grammar UInt8 (List UInt8) :=
  ⟨fun b a => b.length = n ∧ a = b, fun position _ => usizeBound ≤ position + n⟩

private theorem describes_read (n : ℕ) : Describes sliceBound (read n) (readGrammar n) := by
  have hrun : ∀ pre s : List UInt8, read n (pre ++ s) pre.length =
      if usizeBound ≤ pre.length + n then .error .panic
      else if n ≤ s.length then .ok (s.take n, pre.length + n)
      else .error (.error .endOfFile) := by
    intro pre s
    change (plus pre.length n >>= fun stop => getRange (pre ++ s) pre.length stop >>= _) = _
    by_cases h : usizeBound ≤ pre.length + n
    · rw [if_pos h, plus, if_neg (Nat.not_lt.mpr h)]
      rfl
    · rw [if_neg h, plus, if_pos (Nat.lt_of_not_le h)]
      change (getRange (pre ++ s) pre.length (pre.length + n) >>= _) = _
      rw [getRange_append]
      split
      · exact if_pos (Nat.lt_of_not_le h)
      · rfl
  constructor
  · intro pre b rest a hlimit h
    obtain ⟨rfl, rfl⟩ := h
    rw [hrun, if_neg, if_pos (by simp), List.take_left]
    rw [List.length_append, List.length_append] at hlimit
    unfold usizeBound sliceBound at *
    omega
  · intro pre s a next _ h
    rw [hrun] at h
    split at h
    · exact nomatch h
    split at h
    · rename_i hle
      cases h
      have hlength : (s.take n).length = n := List.length_take_of_le hle
      exact ⟨s.take n, s.drop n, (List.take_append_drop _ _).symm, ⟨hlength, rfl⟩, by rw [hlength]⟩
    · exact nomatch h
  · intro pre s _
    rw [hrun]
    change _ ↔ usizeBound ≤ pre.length + n
    by_cases h : usizeBound ≤ pre.length + n
    · rw [if_pos h]
      exact iff_of_true rfl h
    · rw [if_neg h]
      refine iff_of_false ?_ h
      split <;> exact fun h => nomatch h

/-! ## Lists -/

/-- A list after its length. -/
def vecGrammar (G : Grammar UInt8 α) : Grammar UInt8 (List α) where
  accepts b as := ∃ c body, b = c ++ body ∧ CompactBytes c as.length ∧ Chunks G.accepts body as
  traps _ s := ∃ c n body as rest, s = c ++ (body ++ rest) ∧ CompactBytes c n ∧
    Chunks G.accepts body as ∧ as.length < n ∧ G.traps (c.length + body.length) rest

private theorem vecGrammar_trapFree {G : Grammar UInt8 α} (hG : G.TrapFree) :
    (vecGrammar G).TrapFree := by
  rintro _ _ ⟨_, _, _, _, _, _, _, _, _, h⟩
  exact hG _ _ h

private theorem describes_parseVec {p : BytesParser α} {G : Grammar UInt8 α}
    (hp : Describes sliceBound p G) :
    Describes sliceBound (parse (parseVec p)) (vecGrammar G) := by
  refine (describes_sliced (describes_parseCompactUint.bind fun count =>
    hp.times count.value.toNat)).congr (fun b as => ?_) fun position s => ?_
  · constructor
    · rintro ⟨c, body, count, rfl, hc, hbody⟩
      obtain ⟨hlength, hchunks⟩ := times_accepts.mp hbody
      exact ⟨c, body, rfl, hlength ▸ hc, hchunks⟩
    · rintro ⟨c, body, rfl, hc, hchunks⟩
      obtain ⟨count, hcount, hc⟩ := exists_compactUint hc
      exact ⟨c, body, count, rfl, hc, times_accepts.mpr ⟨hcount.symm, hchunks⟩⟩
  · constructor
    · rintro (h | ⟨c, s', count, rfl, hc, h⟩)
      · exact h.elim
      · obtain ⟨body, rest, as, rfl, hchunks, hlt, htrap⟩ := times_traps.mp h
        exact ⟨c, _, body, as, rest, rfl, hc, hchunks, hlt, by simpa using htrap⟩
    · rintro ⟨c, n, body, as, rest, rfl, hc, hchunks, hlt, htrap⟩
      obtain ⟨count, hcount, hc⟩ := exists_compactUint hc
      refine .inr ⟨c, _, count, rfl, hc, times_traps.mpr ?_⟩
      exact ⟨body, rest, as, rfl, hchunks, hcount.symm ▸ hlt, by simpa using htrap⟩

/-! ## Inputs -/

/-- A height of at most four bytes, in a script of `n` bytes: the number and the size of the
script without it. There is a panic when a sum does not fit, and when the height has more
bytes than the buffer. -/
def heightGrammar (n : ℕ) : Grammar UInt8 (UInt32 × ℕ) where
  accepts b result := ∃ d push, b = d ++ push ∧ CompactBytes d push.length ∧
    push.length + 1 ≤ n ∧ push.length ≤ 4 ∧
    result = (.ofNat (fromLeBytes push), n - (push.length + 1))
  traps position s := ∃ d k rest, s = d ++ rest ∧ CompactBytes d k ∧ (usizeBound ≤ k + 1 ∨
    k + 1 ≤ n ∧ (usizeBound ≤ position + d.length + k ∨ k ≤ rest.length ∧ 4 < k))

/-- The height in a buffer of four bytes. -/
private def bufferGrammar (n k : ℕ) (bytes : List UInt8) : Grammar UInt8 (UInt32 × ℕ) :=
  if 4 < k then .panic
  else .pure (.ofNat (fromLeBytes (bytes ++ List.replicate (4 - k) 0)), n - (k + 1))

private theorem bufferGrammar_accepts {k : ℕ} {b push : List UInt8} {result : UInt32 × ℕ} :
    (bufferGrammar n k push).accepts b result ↔
      b = [] ∧ k ≤ 4 ∧ result = (.ofNat (fromLeBytes push), n - (k + 1)) := by
  unfold bufferGrammar
  rw [fromLeBytes_append_zeroes]
  by_cases h : 4 < k
  · rw [if_pos h]
    exact iff_of_false id fun hb => absurd hb.2.1 (Nat.not_le.mpr h)
  · rw [if_neg h]
    exact ⟨fun hb => ⟨hb.1, Nat.le_of_not_lt h, hb.2⟩, fun hb => ⟨hb.1, hb.2.2⟩⟩

private theorem bufferGrammar_traps {k : ℕ} {push : List UInt8} :
    (bufferGrammar n k push).traps position s ↔ 4 < k := by
  unfold bufferGrammar
  by_cases h : 4 < k
  · rw [if_pos h]
    exact iff_of_true trivial h
  · rw [if_neg h]
    exact iff_of_false id h

/-- The height of a given size, once its size is known to fit. -/
private def sizedGrammar (n k : ℕ) : Grammar UInt8 (UInt32 × ℕ) :=
  if usizeBound ≤ k + 1 then .panic
  else (ensure (k + 1 ≤ n)).bind fun _ => (readGrammar k).bind (bufferGrammar n k)

private theorem sizedGrammar_accepts {k : ℕ} {b : List UInt8} {result : UInt32 × ℕ} :
    (sizedGrammar n k).accepts b result ↔ b.length = k ∧ k + 1 ≤ n ∧
      k ≤ 4 ∧ result = (.ofNat (fromLeBytes b), n - (k + 1)) := by
  unfold sizedGrammar
  by_cases hbig : usizeBound ≤ k + 1
  · rw [if_pos hbig]
    refine iff_of_false id fun h => ?_
    unfold usizeBound at hbig
    omega
  rw [if_neg hbig, ensure_bind_accepts]
  constructor
  · rintro ⟨hle, _, _, push, rfl, ⟨hlength, rfl⟩, h⟩
    obtain ⟨rfl, hfour, hresult⟩ := bufferGrammar_accepts.mp h
    rw [List.append_nil]
    exact ⟨hlength, hle, hfour, hresult⟩
  · rintro ⟨hlength, hle, hfour, hresult⟩
    exact ⟨hle, b, [], b, (List.append_nil b).symm, ⟨hlength, rfl⟩,
      bufferGrammar_accepts.mpr ⟨rfl, hfour, hresult⟩⟩

private theorem sizedGrammar_traps {k : ℕ} :
    (sizedGrammar n k).traps position s ↔ usizeBound ≤ k + 1 ∨
      k + 1 ≤ n ∧ (usizeBound ≤ position + k ∨ k ≤ s.length ∧ 4 < k) := by
  unfold sizedGrammar
  by_cases hbig : usizeBound ≤ k + 1
  · rw [if_pos hbig]
    exact iff_of_true trivial (.inl hbig)
  rw [if_neg hbig, ensure_bind_traps, or_iff_right hbig]
  refine and_congr_right fun _ => or_congr_right ?_
  constructor
  · rintro ⟨push, rest, _, rfl, ⟨hlength, rfl⟩, h⟩
    refine ⟨?_, bufferGrammar_traps.mp h⟩
    rw [List.length_append, hlength]
    exact Nat.le_add_right _ _
  · rintro ⟨hle, hfour⟩
    exact ⟨s.take k, s.drop k, s.take k, (List.take_append_drop _ _).symm,
      ⟨List.length_take_of_le hle, rfl⟩, bufferGrammar_traps.mpr hfour⟩

private theorem describes_readHeight (n : ℕ) : Describes sliceBound (readHeight n)
    (heightGrammar n) := by
  have hsized : ∀ count : CompactUint, Describes sliceBound
      (if usizeBound ≤ count.value.toNat + 1 then Reader.panic
      else do
        Reader.ensure (count.value.toNat + 1 ≤ n) .endOfFile
        let bytes ← read count.value.toNat
        if 4 < count.value.toNat then Reader.panic
        else
          let buffer := bytes ++ List.replicate (4 - count.value.toNat) 0
          pure (.ofNat (fromLeBytes buffer), n - (count.value.toNat + 1)))
      (sizedGrammar n count.value.toNat) := fun count =>
    .ite .panic ((Describes.ensure _ _).bind fun _ => (describes_read _).bind fun _ =>
      .ite .panic (.pure _))
  refine (describes_parseCompactUint.bind hsized).congr (fun b result => ?_) fun position s => ?_
  · constructor
    · rintro ⟨d, push, count, rfl, hd, h⟩
      obtain ⟨hlength, hle, hfour, rfl⟩ := sizedGrammar_accepts.mp h
      change CompactBytes d count.value.toNat at hd
      rw [← hlength] at hd hle hfour
      exact ⟨d, push, rfl, hd, hle, hfour, by rw [hlength]⟩
    · rintro ⟨d, push, rfl, hd, hle, hfour, rfl⟩
      obtain ⟨count, hcount, hd⟩ := exists_compactUint hd
      refine ⟨d, push, count, rfl, hd, sizedGrammar_accepts.mpr ?_⟩
      rw [hcount]
      exact ⟨rfl, hle, hfour, rfl⟩
  · constructor
    · rintro (h | ⟨d, rest, count, rfl, hd, h⟩)
      · exact h.elim
      · exact ⟨d, count.value.toNat, rest, rfl, hd, sizedGrammar_traps.mp h⟩
    · rintro ⟨d, k, rest, rfl, hd, h⟩
      obtain ⟨count, rfl, hd⟩ := exists_compactUint hd
      exact .inr ⟨d, rest, count, rfl, hd, sizedGrammar_traps.mpr h⟩

/-- The bytes of an input, whichever way its compact integers are written. -/
inductive InputBytes (version : Int32) : List UInt8 → TransactionInput → Prop
  | fromOutput {hash : H256Le} {index sequence : UInt32} {c script : List UInt8} :
    hash ≠ .zero → CompactBytes c script.length →
    InputBytes version (hash.toBytesLe ++ (toLeBytes 4 index.toNat ++ (c ++ (script ++
      toLeBytes 4 sequence.toNat)))) ⟨.fromOutput hash index, script, sequence, []⟩
  | coinbase {sequence : UInt32} {c script : List UInt8} :
    version ≠ 2 → CompactBytes c script.length → script.length ≤ 100 →
    InputBytes version (H256Le.zero.toBytesLe ++ (toLeBytes 4 0xffffffff ++ (c ++ (script ++
      toLeBytes 4 sequence.toNat)))) ⟨.coinbase none, script, sequence, []⟩
  | height {sequence : UInt32} {c d push script : List UInt8} :
    version = 2 → CompactBytes c (script.length + (push.length + 1)) →
    CompactBytes d push.length → push.length ≤ 4 → script.length ≤ 100 →
    InputBytes version (H256Le.zero.toBytesLe ++ (toLeBytes 4 0xffffffff ++ (c ++ (d ++ push ++
      (script ++ toLeBytes 4 sequence.toNat)))))
      ⟨.coinbase (some (.ofNat (fromLeBytes push))), script, sequence, []⟩

/-- The bytes of an input on which there is a panic. Either the size of a script reaches past
the largest position, or it is a coinbase input of version 2 whose height does: its size is
the largest number, or reaches past the largest position, or is above four. -/
inductive InputTraps (version : Int32) : List UInt8 → Prop
  | script {hash : H256Le} {index : UInt32} {c rest : List UInt8} {n : ℕ} :
    (hash = .zero → version ≠ 2 ∧ index = 0xffffffff) → CompactBytes c n →
    usizeBound ≤ 36 + c.length + n →
    InputTraps version (hash.toBytesLe ++ (toLeBytes 4 index.toNat ++ (c ++ rest)))
  | height {c d rest : List UInt8} {n k : ℕ} :
    version = 2 → CompactBytes c n → CompactBytes d k →
    (usizeBound ≤ k + 1 ∨ k + 1 ≤ n ∧ (usizeBound ≤ 36 + c.length + d.length + k ∨
      k ≤ rest.length ∧ (4 < k ∨
        usizeBound ≤ 36 + c.length + d.length + k + (n - (k + 1))))) →
    InputTraps version (H256Le.zero.toBytesLe ++ (toLeBytes 4 0xffffffff ++ (c ++ (d ++ rest))))

/-- The bytes of an input, and those that panic. -/
def inputGrammar (version : Int32) : Grammar UInt8 TransactionInput :=
  ⟨InputBytes version, fun _ => InputTraps version⟩

/-- Where the coins come from, and the size of the script that is left. -/
private def sourceGrammar (version : Int32) (hash : H256Le) (index : UInt32) (n : ℕ) :
    Grammar UInt8 (TransactionInputSource × ℕ) :=
  if hash = .zero then
    if version ≠ 2 then .pure (.coinbase none, n)
    else (heightGrammar n).bind fun result => .pure (.coinbase (some result.1), result.2)
  else .pure (.fromOutput hash index, n)

/-- The script and the sequence of an input. -/
private def scriptGrammar (hash : H256Le) (source : TransactionInputSource × ℕ) :
    Grammar UInt8 TransactionInput :=
  (readGrammar source.2).bind fun script =>
    (ensure ¬ (hash = .zero ∧ script.length > 100)).bind fun _ =>
      (exact fun v : UInt32 => toLeBytes 4 v.toNat).bind fun sequence =>
        .pure ⟨source.1, script, sequence, []⟩

private theorem scriptGrammar_accepts {hash : H256Le} {source : TransactionInputSource × ℕ}
    {b : List UInt8} {input : TransactionInput} :
    (scriptGrammar hash source).accepts b input ↔ ∃ script sequence,
      b = script ++ toLeBytes 4 (UInt32.toNat sequence) ∧ script.length = source.2 ∧
        (hash = .zero → script.length ≤ 100) ∧ input = ⟨source.1, script, sequence, []⟩ := by
  constructor
  · rintro ⟨_, _, script, rfl, ⟨hlength, rfl⟩, h⟩
    obtain ⟨hcheck, h⟩ := ensure_bind_accepts.mp h
    obtain ⟨sequence, _, rfl, rfl, rfl⟩ := exact_bind_accepts.mp h
    refine ⟨script, sequence, by rw [List.append_nil], hlength, fun hzero => ?_, rfl⟩
    exact Nat.le_of_not_lt fun hlt => hcheck ⟨hzero, hlt⟩
  · rintro ⟨script, sequence, rfl, hlength, hcheck, rfl⟩
    refine ⟨script, _, script, rfl, ⟨hlength, rfl⟩, ensure_bind_accepts.mpr ⟨?_, ?_⟩⟩
    · exact fun h => Nat.not_lt.mpr (hcheck h.1) h.2
    · exact exact_bind_accepts.mpr ⟨sequence, [], (List.append_nil _).symm, rfl, rfl⟩

private theorem scriptGrammar_traps {hash : H256Le} {source : TransactionInputSource × ℕ} :
    (scriptGrammar hash source).traps position s ↔ usizeBound ≤ position + source.2 := by
  refine or_iff_left ?_
  rintro ⟨_, _, _, _, _, h⟩
  exact ((TrapFree.ensure _).bind fun _ => (TrapFree.exact _).bind fun _ => .pure _) _ _ h

/-- What follows the size of the script. -/
private def restGrammar (version : Int32) (hash : H256Le) (index : UInt32) (n : ℕ) :
    Grammar UInt8 TransactionInput :=
  (sourceGrammar version hash index n).bind (scriptGrammar hash)

private theorem describes_readTransactionInput_parts (version : Int32) :
    Describes sliceBound (readTransactionInput version)
      ((exact H256Le.toBytesLe).bind fun hash =>
        (exact fun v : UInt32 => toLeBytes 4 v.toNat).bind fun index =>
          (ensure ¬ (hash = .zero ∧ index ≠ 0xffffffff)).bind fun _ =>
            (⟨fun b n => CompactBytes b n.value.toNat, fun _ _ => False⟩ :
              Grammar UInt8 CompactUint).bind fun n =>
                restGrammar version hash index n.value.toNat) := by
  have hsource : ∀ hash index n, Describes sliceBound (readSource version hash index n)
      (sourceGrammar version hash index n) := fun hash index n =>
    .ite (.ite (.pure _) ((describes_readHeight n).bind fun _ => .pure _)) (.pure _)
  exact describes_hash.bind fun hash => describes_parseU32.bind fun index =>
    (Describes.ensure _ _).bind fun _ => describes_parseCompactUint.bind fun n =>
      (hsource hash index _).bind fun source => (describes_read _).bind fun script =>
        (Describes.ensure _ _).bind fun _ => describes_parseU32.bind fun sequence => .pure _

private theorem restGrammar_accepts {hash : H256Le} {index : UInt32} {b : List UInt8}
    {input : TransactionInput} : (restGrammar version hash index n).accepts b input ↔
      (hash ≠ .zero ∧ ∃ script sequence, b = script ++ toLeBytes 4 (UInt32.toNat sequence) ∧
        script.length = n ∧ input = ⟨.fromOutput hash index, script, sequence, []⟩) ∨
      (hash = .zero ∧ version ≠ 2 ∧ ∃ script sequence,
        b = script ++ toLeBytes 4 (UInt32.toNat sequence) ∧ script.length = n ∧
          script.length ≤ 100 ∧ input = ⟨.coinbase none, script, sequence, []⟩) ∨
      hash = .zero ∧ version = 2 ∧ ∃ d push script sequence,
        b = d ++ push ++ (script ++ toLeBytes 4 (UInt32.toNat sequence)) ∧
          n = script.length + (push.length + 1) ∧ CompactBytes d push.length ∧
            push.length ≤ 4 ∧ script.length ≤ 100 ∧
              input = ⟨.coinbase (some (.ofNat (fromLeBytes push))), script, sequence, []⟩ := by
  unfold restGrammar sourceGrammar
  by_cases hzero : hash = .zero
  · rw [if_pos hzero, or_iff_right fun h => h.1 hzero]
    by_cases hversion : version = 2
    · rw [if_neg (not_not.mpr hversion), or_iff_right fun h => h.2.1 hversion]
      constructor
      · rintro ⟨_, _, _, rfl, ⟨_, _, _, rfl, ⟨d, push, rfl, hd, hle, hfour, rfl⟩, rfl, rfl⟩, h⟩
        obtain ⟨script, sequence, rfl, hlength, hcheck, rfl⟩ := scriptGrammar_accepts.mp h
        exact ⟨hzero, hversion, d, push, script, sequence, by rw [List.append_nil],
          by dsimp only at hlength; omega, hd, hfour, hcheck hzero, rfl⟩
      · rintro ⟨-, -, d, push, script, sequence, rfl, rfl, hd, hfour, hcheck, rfl⟩
        refine ⟨d ++ push, _, (.coinbase (some (.ofNat (fromLeBytes push))), script.length), rfl,
          ⟨d ++ push, [], (.ofNat (fromLeBytes push), script.length), (List.append_nil _).symm,
            ⟨d, push, rfl, hd, by omega, hfour, ?_⟩, rfl, rfl⟩, scriptGrammar_accepts.mpr
              ⟨script, sequence, rfl, rfl, fun _ => hcheck, rfl⟩⟩
        rw [Nat.add_sub_cancel]
    · rw [if_pos hversion, or_iff_left fun h => hversion h.2.1, pure_bind_accepts,
        scriptGrammar_accepts]
      constructor
      · rintro ⟨script, sequence, rfl, hlength, hcheck, rfl⟩
        exact ⟨hzero, hversion, script, sequence, rfl, hlength, hcheck hzero, rfl⟩
      · rintro ⟨-, -, script, sequence, rfl, hlength, hcheck, rfl⟩
        exact ⟨script, sequence, rfl, hlength, fun _ => hcheck, rfl⟩
  · have hrest : ∀ p q : Prop, ¬ (hash = .zero ∧ p ∨ hash = .zero ∧ q) :=
      fun p q h => h.elim (fun h => hzero h.1) fun h => hzero h.1
    rw [if_neg hzero, or_iff_left (hrest _ _), pure_bind_accepts, scriptGrammar_accepts]
    constructor
    · rintro ⟨script, sequence, rfl, hlength, -, rfl⟩
      exact ⟨hzero, script, sequence, rfl, hlength, rfl⟩
    · rintro ⟨-, script, sequence, rfl, hlength, rfl⟩
      exact ⟨script, sequence, rfl, hlength, fun h => absurd h hzero, rfl⟩

private theorem restGrammar_traps {hash : H256Le} {index : UInt32} :
    (restGrammar version hash index n).traps position s ↔
      ((hash = .zero → version ≠ 2) ∧ usizeBound ≤ position + n) ∨
      hash = .zero ∧ version = 2 ∧ ∃ d k rest, s = d ++ rest ∧ CompactBytes d k ∧
        (usizeBound ≤ k + 1 ∨ k + 1 ≤ n ∧ (usizeBound ≤ position + d.length + k ∨
          k ≤ rest.length ∧ (4 < k ∨
            usizeBound ≤ position + d.length + k + (n - (k + 1))))) := by
  unfold restGrammar sourceGrammar
  by_cases hzero : hash = .zero
  · rw [if_pos hzero]
    by_cases hversion : version = 2
    · rw [if_neg (not_not.mpr hversion), or_iff_right fun h => h.1 hzero hversion]
      constructor
      · rintro ((⟨d, k, rest, rfl, hd, h⟩ | ⟨_, _, _, _, _, h⟩) |
          ⟨_, s', _, rfl, ⟨_, _, _, rfl, ⟨d, push, rfl, hd, hle, hfour, rfl⟩, rfl, rfl⟩, h⟩)
        · refine ⟨hzero, hversion, d, k, rest, rfl, hd, h.imp_right fun h => ⟨h.1, ?_⟩⟩
          exact h.2.imp_right fun h => ⟨h.1, .inl h.2⟩
        · exact h.elim
        · have hbig := scriptGrammar_traps.mp h
          rw [List.append_nil, List.length_append] at hbig
          refine ⟨hzero, hversion, d, push.length, push ++ s', by simp, hd, .inr ⟨hle, .inr ⟨?_, ?_⟩⟩⟩
          · rw [List.length_append]
            exact Nat.le_add_right _ _
          · exact .inr (by dsimp only at hbig; omega)
      · rintro ⟨-, -, d, k, rest, rfl, hd, h⟩
        by_cases hheight : usizeBound ≤ k + 1 ∨ k + 1 ≤ n ∧
            (usizeBound ≤ position + d.length + k ∨ k ≤ rest.length ∧ 4 < k)
        · exact .inl (.inl ⟨d, k, rest, rfl, hd, hheight⟩)
        · have hle : k + 1 ≤ n ∧ k ≤ rest.length ∧ k ≤ 4 ∧
              usizeBound ≤ position + d.length + k + (n - (k + 1)) := by
            have := not_or.mp hheight
            rcases h with h | ⟨hle, h | ⟨hrest, h⟩⟩
            · exact absurd h this.1
            · exact absurd ⟨hle, .inl h⟩ this.2
            · rcases h with h | h
              · exact absurd ⟨hle, .inr ⟨hrest, h⟩⟩ this.2
              · refine ⟨hle, hrest, Nat.le_of_not_lt fun hlt => ?_, h⟩
                exact this.2 ⟨hle, .inr ⟨hrest, hlt⟩⟩
          have hlength : (rest.take k).length = k := List.length_take_of_le hle.2.1
          refine .inr ⟨d ++ rest.take k, rest.drop k,
            (.coinbase (some (.ofNat (fromLeBytes (rest.take k)))), n - (k + 1)), ?_, ?_, ?_⟩
          · rw [List.append_assoc, List.take_append_drop]
          · refine ⟨d ++ rest.take k, [], (.ofNat (fromLeBytes (rest.take k)), n - (k + 1)),
              (List.append_nil _).symm, ⟨d, rest.take k, rfl, ?_⟩, rfl, rfl⟩
            rw [hlength]
            exact ⟨hd, hle.1, hle.2.2.1, rfl⟩
          · refine scriptGrammar_traps.mpr ?_
            rw [List.length_append, hlength]
            dsimp only
            omega
    · rw [if_pos hversion, pure_bind_traps, scriptGrammar_traps,
        or_iff_left fun h => hversion h.2.1]
      exact ⟨fun h => ⟨fun _ => hversion, h⟩, And.right⟩
  · rw [if_neg hzero, pure_bind_traps, scriptGrammar_traps, or_iff_left fun h => hzero h.1]
    exact ⟨fun h => ⟨fun h' => absurd h' hzero, h⟩, And.right⟩

private theorem coinbase_index {hash : H256Le} {index : UInt32} (hzero : hash = .zero)
    (hcheck : ¬ (hash = .zero ∧ index ≠ 0xffffffff)) : index.toNat = 0xffffffff := by
  have hindex : index = 0xffffffff := not_not.mp fun h => hcheck ⟨hzero, h⟩
  rw [hindex]
  rfl

private theorem describes_parseTransactionInput (version : Int32) :
    Describes sliceBound (parse (parseTransactionInput version)) (inputGrammar version) := by
  refine (describes_sliced (describes_readTransactionInput_parts version)).congr
    (fun b input => ?_) fun position s => ?_
  · constructor
    · intro h
      obtain ⟨hash, _, rfl, hindex⟩ := exact_bind_accepts.mp h
      obtain ⟨index, _, rfl, hensure⟩ := exact_bind_accepts.mp hindex
      obtain ⟨hcheck, c, _, count, rfl, hc, hrest⟩ := ensure_bind_accepts.mp hensure
      change CompactBytes c count.value.toNat at hc
      rcases restGrammar_accepts.mp hrest with ⟨hne, script, sequence, rfl, hlength, rfl⟩ |
        ⟨hzero, hversion, script, sequence, rfl, hlength, hshort, rfl⟩ |
        ⟨hzero, hversion, d, push, script, sequence, rfl, hlength, hd, hfour, hshort, rfl⟩
      · exact .fromOutput hne (hlength ▸ hc)
      · rw [coinbase_index hzero hcheck, hzero]
        exact .coinbase hversion (hlength ▸ hc) hshort
      · rw [coinbase_index hzero hcheck, hzero]
        exact .height hversion (hlength ▸ hc) hd hfour hshort
    · have hmax : (0xffffffff : UInt32).toNat = 0xffffffff := rfl
      rintro (⟨hne, hc⟩ | ⟨hversion, hc, hshort⟩ | ⟨hversion, hc, hd, hfour, hshort⟩)
      · rename_i hash index sequence c script
        obtain ⟨count, hcount, hc⟩ := exists_compactUint hc
        refine exact_bind_accepts.mpr ⟨hash, _, rfl, exact_bind_accepts.mpr ⟨index, _, rfl, ?_⟩⟩
        refine ensure_bind_accepts.mpr ⟨fun h => hne h.1, c, _, count, rfl, hc, ?_⟩
        exact restGrammar_accepts.mpr (.inl ⟨hne, script, sequence, rfl, hcount.symm, rfl⟩)
      · rename_i sequence c script
        obtain ⟨count, hcount, hc⟩ := exists_compactUint hc
        refine exact_bind_accepts.mpr ⟨.zero, _, rfl,
          exact_bind_accepts.mpr ⟨0xffffffff, _, by rw [hmax], ?_⟩⟩
        refine ensure_bind_accepts.mpr ⟨fun h => h.2 rfl, c, _, count, rfl, hc, ?_⟩
        exact restGrammar_accepts.mpr
          (.inr (.inl ⟨rfl, hversion, script, sequence, rfl, hcount.symm, hshort, rfl⟩))
      · rename_i sequence c d push script
        obtain ⟨count, hcount, hc⟩ := exists_compactUint hc
        refine exact_bind_accepts.mpr ⟨.zero, _, rfl,
          exact_bind_accepts.mpr ⟨0xffffffff, _, by rw [hmax], ?_⟩⟩
        refine ensure_bind_accepts.mpr ⟨fun h => h.2 rfl, c, _, count, rfl, hc, ?_⟩
        exact restGrammar_accepts.mpr (.inr (.inr
          ⟨rfl, hversion, d, push, script, sequence, rfl, hcount, hd, hfour, hshort, rfl⟩))
  · constructor
    · intro h
      obtain ⟨hash, _, rfl, hindex⟩ := exact_bind_traps.mp h
      obtain ⟨index, _, rfl, hensure⟩ := exact_bind_traps.mp hindex
      obtain ⟨hcheck, hnone | ⟨c, rest, count, rfl, hc, hrest⟩⟩ := ensure_bind_traps.mp hensure
      · exact hnone.elim
      rw [H256Le.length_toBytesLe, length_toLeBytes, Nat.zero_add] at hrest
      rcases restGrammar_traps.mp hrest with ⟨hversion, hbig⟩ |
        ⟨hzero, hversion, d, k, rest, rfl, hd, h⟩
      · refine .script (fun hzero => ⟨hversion hzero, ?_⟩) hc hbig
        exact not_not.mp fun hne => hcheck ⟨hzero, hne⟩
      · rw [coinbase_index hzero hcheck, hzero]
        exact .height hversion hc hd h
    · have hmax : (0xffffffff : UInt32).toNat = 0xffffffff := rfl
      rintro (⟨hversion, hc, hbig⟩ | ⟨hversion, hc, hd, h⟩)
      · rename_i hash index c rest n
        obtain ⟨count, rfl, hc⟩ := exists_compactUint hc
        refine exact_bind_traps.mpr ⟨hash, _, rfl, exact_bind_traps.mpr ⟨index, _, rfl, ?_⟩⟩
        refine ensure_bind_traps.mpr ⟨fun h => h.2 (hversion h.1).2, .inr ?_⟩
        refine ⟨c, rest, count, rfl, hc, restGrammar_traps.mpr ?_⟩
        rw [H256Le.length_toBytesLe, length_toLeBytes, Nat.zero_add]
        exact .inl ⟨fun hzero => (hversion hzero).1, hbig⟩
      · rename_i c d rest n k
        obtain ⟨count, rfl, hc⟩ := exists_compactUint hc
        refine exact_bind_traps.mpr ⟨.zero, _, rfl,
          exact_bind_traps.mpr ⟨0xffffffff, _, by rw [hmax], ?_⟩⟩
        refine ensure_bind_traps.mpr ⟨fun h => h.2 rfl, .inr ?_⟩
        refine ⟨c, d ++ rest, count, rfl, hc, restGrammar_traps.mpr ?_⟩
        rw [H256Le.length_toBytesLe, length_toLeBytes, Nat.zero_add]
        exact .inr ⟨rfl, hversion, d, k, rest, rfl, hd, h⟩

/-! ## Outputs and witnesses -/

/-- The bytes of an output, whichever way the size of its script is written. -/
def OutputBytes (b : List UInt8) (output : TransactionOutput) : Prop :=
  ∃ c, b = intToLeBytes 8 output.value.toInt ++ (c ++ output.script.bytes) ∧
    CompactBytes c output.script.bytes.length ∧ output.script.bytes.length ≤ 10000

/-- A script of limited size fits, so there is no panic. -/
def outputGrammar : Grammar UInt8 TransactionOutput := ⟨OutputBytes, fun _ _ => False⟩

private def outputScriptGrammar (value : Int64) (n : ℕ) : Grammar UInt8 TransactionOutput :=
  (ensure ¬ n > 10000).bind fun _ => (readGrammar n).bind fun script => .pure ⟨value, ⟨script⟩⟩

private theorem describes_readTransactionOutput :
    Describes sliceBound readTransactionOutput
      ((exact fun v : Int64 => intToLeBytes 8 v.toInt).bind fun value =>
        (⟨fun b n => CompactBytes b n.value.toNat, fun _ _ => False⟩ :
          Grammar UInt8 CompactUint).bind fun n => outputScriptGrammar value n.value.toNat) :=
  describes_parseI64.bind fun _ => describes_parseCompactUint.bind fun _ =>
    (Describes.ensure _ _).bind fun _ => (describes_read _).bind fun _ => .pure _

private theorem describes_parseTransactionOutput :
    Describes sliceBound (parse parseTransactionOutput) outputGrammar := by
  refine (describes_sliced describes_readTransactionOutput).congr (fun b output => ?_)
    fun position s => ?_
  · constructor
    · intro h
      obtain ⟨value, _, rfl, c, _, count, rfl, hc, hscript⟩ := exact_bind_accepts.mp h
      change CompactBytes c count.value.toNat at hc
      obtain ⟨hshort, _, _, script, rfl, ⟨hlength, rfl⟩, rfl, rfl⟩ := ensure_bind_accepts.mp hscript
      rw [← hlength] at hc hshort
      exact ⟨c, by rw [List.append_nil], hc, Nat.le_of_not_lt hshort⟩
    · rintro ⟨c, rfl, hc, hshort⟩
      obtain ⟨count, hcount, hc⟩ := exists_compactUint hc
      refine exact_bind_accepts.mpr ⟨output.value, _, rfl, c, _, count, rfl, hc, ?_⟩
      refine ensure_bind_accepts.mpr ⟨by rw [hcount]; exact Nat.not_lt.mpr hshort, ?_⟩
      exact ⟨output.script.bytes, [], _, (List.append_nil _).symm, ⟨hcount.symm, rfl⟩, rfl, rfl⟩
  · refine iff_of_false (fun h => ?_) id
    obtain ⟨value, _, rfl, hnone | ⟨c, rest, count, rfl, hc, hscript⟩⟩ := exact_bind_traps.mp h
    · exact hnone
    obtain ⟨hshort, hbig | ⟨_, _, _, _, _, hnone⟩⟩ := ensure_bind_traps.mp hscript
    · change CompactBytes c count.value.toNat at hc
      have hle := hc.length_le
      change usizeBound ≤ 0 + (intToLeBytes 8 value.toInt).length + c.length + count.value.toNat
        at hbig
      rw [length_intToLeBytes] at hbig
      unfold usizeBound at hbig
      omega
    · exact hnone

/-- The stack of an input: byte strings after their number. -/
def witnessGrammar : Grammar UInt8 (List (List UInt8)) :=
  vecGrammar (vecGrammar (exact fun v => [v]))

private theorem witnessGrammar_trapFree : witnessGrammar.TrapFree :=
  vecGrammar_trapFree (vecGrammar_trapFree (.exact _))

private theorem describes_parseWitness : Describes sliceBound (parse parseWitness) witnessGrammar :=
  describes_parseVec (describes_parseVec describes_parseU8)

/-! ## Transactions -/

/-- A flag and the inputs come where the list of inputs seemed to be empty. -/
def flaggedGrammar (version : Int32) (allowWitness : Bool) (inputs : List TransactionInput) :
    Grammar UInt8 (UInt8 × List TransactionInput) :=
  if inputs.isEmpty && allowWitness then
    (exact fun v => [v]).bind fun flags =>
      (vecGrammar (inputGrammar version)).bind fun inputs => .pure (flags, inputs)
  else .pure (0, inputs)

/-- Inputs that are there come without flags. -/
theorem flaggedGrammar_of_ne_nil {allowWitness : Bool} {inputs : List TransactionInput}
    (hne : inputs ≠ []) : flaggedGrammar version allowWitness inputs = .pure (0, inputs) := by
  cases inputs with
  | nil => exact absurd rfl hne
  | cons input inputs => exact if_neg (by simp)

/-- The inputs, after flags if there are none at first. -/
def inputsGrammar (version : Int32) (allowWitness : Bool) :
    Grammar UInt8 (UInt8 × List TransactionInput) :=
  (vecGrammar (inputGrammar version)).bind (flaggedGrammar version allowWitness)

private theorem describes_readInputs (version : Int32) (allowWitness : Bool) :
    Describes sliceBound (readInputs version allowWitness) (inputsGrammar version allowWitness) :=
  (describes_parseVec (describes_parseTransactionInput version)).bind fun _ =>
    .ite (describes_parseU8.bind fun _ =>
      (describes_parseVec (describes_parseTransactionInput version)).bind fun _ => .pure _) (.pure _)

/-- A witness for each input, if the flags say so. -/
def witnessesGrammar (allowWitness : Bool) (flags : UInt8) (inputs : List TransactionInput) :
    Grammar UInt8 (UInt8 × List TransactionInput) :=
  if flags &&& 1 ≠ 0 ∧ allowWitness then
    (forEach (fun input : TransactionInput => witnessGrammar.bind fun witness =>
      .pure (input.withWitness witness)) inputs).bind fun inputs =>
        (ensure ¬ inputs.all fun input => input.witness.isEmpty).bind fun _ =>
          .pure (flags ^^^ 1, inputs)
  else .pure (flags, inputs)

@[simp] theorem witnessesGrammar_zero (allowWitness : Bool) (inputs : List TransactionInput) :
    witnessesGrammar allowWitness 0 inputs = .pure (0, inputs) :=
  if_neg fun h => h.1 rfl

private theorem describes_readWitnesses (allowWitness : Bool) (flags : UInt8)
    (inputs : List TransactionInput) :
    Describes sliceBound (readWitnesses allowWitness flags inputs)
      (witnessesGrammar allowWitness flags inputs) :=
  .ite ((Describes.forEach (fun _ => describes_parseWitness.bind fun _ => .pure _) inputs).bind
    fun _ => (Describes.ensure _ _).bind fun _ => .pure _) (.pure _)

private theorem witnessesGrammar_trapFree (allowWitness : Bool) (flags : UInt8)
    (inputs : List TransactionInput) : (witnessesGrammar allowWitness flags inputs).TrapFree := by
  unfold witnessesGrammar
  split
  · exact (TrapFree.forEach (fun _ => witnessGrammar_trapFree.bind fun _ => .pure _) inputs).bind
      fun _ => (TrapFree.ensure _).bind fun _ => .pure _
  · exact .pure _

/-- What follows the inputs. -/
def afterInputsGrammar (version : Int32) (allowWitness : Bool)
    (read : UInt8 × List TransactionInput) : Grammar UInt8 Transaction :=
  (vecGrammar outputGrammar).bind fun outputs =>
    (witnessesGrammar allowWitness read.1 read.2).bind fun read =>
      (exact fun v : UInt32 => toLeBytes 4 v.toNat).bind fun lock =>
        (ensure ¬ read.1 ≠ 0).bind fun _ =>
          .pure ⟨version, read.2, outputs,
            if lock < LOCKTIME_THRESHOLD then .blockHeight lock else .time lock⟩

private theorem afterInputsGrammar_trapFree (allowWitness : Bool)
    (read : UInt8 × List TransactionInput) :
    (afterInputsGrammar version allowWitness read).TrapFree :=
  (vecGrammar_trapFree fun _ _ => id).bind fun _ => (witnessesGrammar_trapFree _ _ _).bind fun _ =>
    (TrapFree.exact _).bind fun _ => (TrapFree.ensure _).bind fun _ => .pure _

/-- The bytes of a transaction. -/
def transactionGrammar : Grammar UInt8 Transaction :=
  (exact fun v : Int32 => intToLeBytes 4 v.toInt).bind fun version =>
    (ensure ¬ (version ≠ 1 ∧ version ≠ 2)).bind fun _ =>
      (inputsGrammar version (version &&& SERIALIZE_TRANSACTION_NO_WITNESS = 0)).bind
        (afterInputsGrammar version (version &&& SERIALIZE_TRANSACTION_NO_WITNESS = 0))

/-- The parser of transactions reads the grammar. -/
theorem describes_readTransaction : Describes sliceBound readTransaction transactionGrammar :=
  describes_parseI32.bind fun _ => (Describes.ensure _ _).bind fun _ =>
    (describes_readInputs _ _).bind fun _ =>
      (describes_parseVec describes_parseTransactionOutput).bind fun _ =>
        (describes_readWitnesses _ _ _).bind fun _ => describes_parseU32.bind fun _ =>
          (Describes.ensure _ _).bind fun _ => .pure _

/-! ## Panics -/

/-- There is a panic in one of the inputs of a list. -/
def InputsTrap (version : Int32) (s : List UInt8) : Prop :=
  ∃ c n done inputs rest, s = c ++ (done ++ rest) ∧ CompactBytes c n ∧
    Chunks (InputBytes version) done inputs ∧ inputs.length < n ∧ InputTraps version rest

/-- A transaction of version 1 or 2 with a panic in its inputs, which may come after a flag. -/
def TransactionTraps (s : List UInt8) : Prop :=
  ∃ (version : Int32) (body : List UInt8), s = intToLeBytes 4 version.toInt ++ body ∧
    (version = 1 ∨ version = 2) ∧ (InputsTrap version body ∨
      ∃ m flag rest, body = m ++ flag :: rest ∧ CompactBytes m 0 ∧ InputsTrap version rest)

private theorem inputsGrammar_traps : (inputsGrammar version true).traps position s ↔
    InputsTrap version s ∨
      ∃ m flag rest, s = m ++ flag :: rest ∧ CompactBytes m 0 ∧ InputsTrap version rest := by
  refine or_congr Iff.rfl ?_
  constructor
  · rintro ⟨m, s', inputs, rfl, ⟨c, body, rfl, hc, hbody⟩, h⟩
    cases inputs with
    | nil =>
      obtain ⟨flag, rest, rfl, htrap | ⟨_, _, _, _, _, hnone⟩⟩ := exact_bind_traps.mp h
      · cases hbody
        exact ⟨c, flag, rest, by rw [List.append_nil]; rfl, hc, htrap⟩
      · exact hnone.elim
    | cons input inputs =>
      rw [flaggedGrammar_of_ne_nil (List.cons_ne_nil _ _)] at h
      exact h.elim
  · rintro ⟨m, flag, rest, rfl, hm, htrap⟩
    exact ⟨m, _, [], rfl, ⟨m, [], (List.append_nil _).symm, hm, .nil⟩,
      exact_bind_traps.mpr ⟨flag, rest, rfl, .inl htrap⟩⟩

/-- The panics of the parser of transactions are those in the inputs. -/
theorem transactionGrammar_traps : transactionGrammar.traps 0 s ↔ TransactionTraps s := by
  have hallow : ∀ v : Int32, v = 1 ∨ v = 2 →
      decide (v &&& SERIALIZE_TRANSACTION_NO_WITNESS = 0) = true := by
    rintro v (rfl | rfl) <;> rfl
  have hversion : ∀ v : Int32, ¬ (v ≠ 1 ∧ v ≠ 2) ↔ v = 1 ∨ v = 2 := by
    intro v
    rw [not_and_or, not_not, not_not]
  constructor
  · intro h
    obtain ⟨v, body, rfl, hcheck⟩ := exact_bind_traps.mp h
    obtain ⟨hv, htrap | ⟨_, _, _, _, _, hafter⟩⟩ := ensure_bind_traps.mp hcheck
    · rw [hallow v ((hversion v).mp hv)] at htrap
      exact ⟨v, body, rfl, (hversion v).mp hv, inputsGrammar_traps.mp htrap⟩
    · exact (afterInputsGrammar_trapFree _ _ _ _ hafter).elim
  · rintro ⟨v, body, rfl, hv, h⟩
    refine exact_bind_traps.mpr ⟨v, body, rfl, ensure_bind_traps.mpr ⟨(hversion v).mpr hv, ?_⟩⟩
    rw [hallow v hv]
    exact .inl (inputsGrammar_traps.mpr h)

/-- At the start of the bytes the slice is all of them. -/
theorem transactionParse_eq : Transaction.parse bytes 0 = readTransaction bytes 0 := by
  change (getFrom ([] ++ bytes) ([] : List UInt8).length >>= _) = _
  rw [getFrom_append]
  rfl

/-- The bytes of the grammar are parsed as their transaction. -/
theorem parseTransaction_accept (hlimit : bytes.length < sliceBound) {tx : Transaction}
    (h : transactionGrammar.accepts bytes tx) :
    Transaction.parse bytes 0 = .ok (tx, bytes.length) ∧ parseTransaction bytes = .ok tx := by
  have hparse : Transaction.parse bytes 0 = .ok (tx, bytes.length) := by
    have hread := describes_readTransaction.accept [] []
      (by simpa using hlimit) h
    rw [transactionParse_eq]
    simpa using hread
  refine ⟨hparse, ?_⟩
  change (Transaction.parse bytes 0 >>= _) = _
  rw [hparse]
  rfl

/-- The parser panics on the traps of the grammar only. -/
theorem parseTransaction_panic (hlimit : bytes.length < sliceBound) :
    parseTransaction bytes = .error .panic ↔ TransactionTraps bytes := by
  rw [← transactionGrammar_traps]
  refine Iff.trans ?_ (describes_readTransaction.trap [] hlimit)
  change (Transaction.parse bytes 0 >>= _) = _ ↔ readTransaction bytes 0 = _
  rw [transactionParse_eq]
  cases readTransaction bytes 0 with
  | error fault => exact ⟨fun h => by cases h; rfl, fun h => by cases h; rfl⟩
  | ok result => exact iff_of_false (fun h => nomatch h) (fun h => nomatch h)

end Interbtc
