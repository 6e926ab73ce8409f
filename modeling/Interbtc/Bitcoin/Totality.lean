import Interbtc.Bitcoin.MerkleProof

/-!
# Totality of the parsers

Headers and proofs are parsed without a panic, whatever the bytes are. Transactions are not:
the inputs on which their parser panics are those of the grammar. No list is longer than the
bytes that it was parsed from, so its length is never taken on trust.
-/

namespace Interbtc

open Core BytesParser Grammar

variable {sha256d : List UInt8 → H256Le} {bytes b : List UInt8} {version : Int32}

private theorem InputBytes.length_pos {input : TransactionInput} (h : InputBytes version b input) :
    0 < b.length := by
  cases h <;> rw [List.length_append, H256Le.length_toBytesLe] <;> omega

private theorem OutputBytes.length_pos {output : TransactionOutput} (h : OutputBytes b output) :
    0 < b.length := by
  obtain ⟨c, rfl, -, -⟩ := h
  rw [List.length_append, length_intToLeBytes]
  omega

/-- Where no string is empty, a list has at most as many values as bytes. -/
theorem vecGrammar_length_le {α : Type} {G : Grammar UInt8 α} {as : List α}
    (h : (vecGrammar G).accepts b as) (hpos : ∀ b a, G.accepts b a → 0 < b.length) :
    as.length ≤ b.length := by
  obtain ⟨c, body, rfl, -, hchunks⟩ := h
  rw [List.length_append]
  exact (hchunks.length_le hpos).trans (Nat.le_add_left _ _)

private theorem inputsGrammar_length_le {allowWitness : Bool} {read : UInt8 × List TransactionInput}
    (h : (inputsGrammar version allowWitness).accepts b read) : read.2.length ≤ b.length := by
  obtain ⟨b₁, b₂, inputs, rfl, hinputs, hflagged⟩ := h
  have hle := vecGrammar_length_le hinputs fun _ _ => InputBytes.length_pos
  rw [List.length_append]
  unfold flaggedGrammar at hflagged
  split at hflagged
  · obtain ⟨flag, _, rfl, b₃, _, inputs', rfl, hinputs', rfl, rfl⟩ := exact_bind_accepts.mp hflagged
    have hle' := vecGrammar_length_le hinputs' fun _ _ => InputBytes.length_pos
    simp only [List.length_append]
    omega
  · obtain ⟨rfl, rfl⟩ := hflagged
    exact hle.trans (Nat.le_add_right _ _)

private theorem witnessesGrammar_length {allowWitness : Bool} {flags : UInt8}
    {inputs : List TransactionInput} {read : UInt8 × List TransactionInput}
    (h : (witnessesGrammar allowWitness flags inputs).accepts b read) :
    read.2.length = inputs.length := by
  unfold witnessesGrammar at h
  split at h
  · obtain ⟨_, _, inputs', rfl, hinputs, hensure⟩ := h
    obtain ⟨-, rfl, rfl⟩ := ensure_bind_accepts.mp hensure
    exact length_of_forEach hinputs
  · obtain ⟨rfl, rfl⟩ := h
    rfl

/-- A transaction has no more inputs and no more outputs than bytes. -/
theorem transaction_lengths (hlimit : bytes.length < sliceBound) {tx : Transaction}
    (h : parseTransaction bytes = .ok tx) :
    tx.inputs.length ≤ bytes.length ∧ tx.outputs.length ≤ bytes.length := by
  obtain ⟨next, hread⟩ : ∃ next, readTransaction bytes 0 = .ok (tx, next) := by
    change (Transaction.parse bytes 0 >>= _) = _ at h
    rw [transactionParse_eq] at h
    cases hread : readTransaction bytes 0 with
    | error fault => rw [hread] at h; exact nomatch h
    | ok result =>
      rw [hread] at h
      cases h
      exact ⟨result.2, rfl⟩
  obtain ⟨b, rest, rfl, hb, -⟩ := describes_readTransaction.accepted [] hlimit hread
  obtain ⟨v, _, rfl, hensure⟩ := exact_bind_accepts.mp hb
  obtain ⟨-, b₁, _, read, rfl, hinputs, bo, _, outputs, rfl, houtputs, bw, _, read', rfl,
    hwitnesses, hlock⟩ := ensure_bind_accepts.mp hensure
  obtain ⟨lock, _, rfl, hflags⟩ := exact_bind_accepts.mp hlock
  obtain ⟨-, rfl, rfl⟩ := ensure_bind_accepts.mp hflags
  have hle := inputsGrammar_length_le hinputs
  have hle' := vecGrammar_length_le houtputs fun _ _ => OutputBytes.length_pos
  have heq := witnessesGrammar_length hwitnesses
  simp only [List.length_append]
  omega

/-- On byte strings of any length that a slice can have, the parsers end with a value or an
error, and with lists no longer than the bytes allow, exactly if the bytes are not those of
a transaction with a panic in its inputs. -/
theorem parsers_total (sha256d : List UInt8 → H256Le) (hlimit : bytes.length < sliceBound) :
    (parseTransaction bytes ≠ .error .panic ∧ parseBlockHeader sha256d bytes ≠ .error .panic ∧
      MerkleProof.parse sha256d bytes ≠ .error .panic ∧
      (∀ tx, parseTransaction bytes = .ok tx →
        tx.inputs.length ≤ bytes.length ∧ tx.outputs.length ≤ bytes.length) ∧
      ∀ proof, MerkleProof.parse sha256d bytes = .ok proof →
        proof.hashes.length ≤ bytes.length ∧ proof.flagBits.length ≤ 8 * bytes.length) ↔
      ¬ TransactionTraps bytes := by
  rw [← parseTransaction_panic hlimit]
  constructor
  · exact And.left
  · intro htotal
    exact ⟨htotal, parseBlockHeader_ne_panic hlimit, parse_ne_panic hlimit,
      fun _ => transaction_lengths hlimit, fun _ => proof_lengths hlimit⟩

private theorem eq_panic_of_matches {ε α : Type} {r : Except (Fault ε) α}
    (h : (r matches .error .panic) = true) : r = .error .panic := by
  cases r with
  | ok a => exact nomatch h
  | error fault =>
    cases fault with
    | error e => exact nomatch h
    | panic => rfl

/-- A coinbase input of version 2 whose script begins with a push of five bytes. -/
def fiveBytePush : List UInt8 :=
  [2, 0, 0, 0, 1] ++ List.replicate 32 0 ++ [0xff, 0xff, 0xff, 0xff, 6, 5, 1, 2, 3, 4, 5]

/-- A coinbase transaction of version 2 with a height of three bytes and one output. -/
def threeBytePush : List UInt8 :=
  [2, 0, 0, 0, 1] ++ List.replicate 32 0 ++ [0xff, 0xff, 0xff, 0xff, 4, 3, 1, 2, 3] ++
    [0xff, 0xff, 0xff, 0xff, 1, 1, 0, 0, 0, 0, 0, 0, 0, 1, 0x51, 0, 0, 0, 0]

/-- The height of three bytes is parsed, also if the bytes end within it; the height of five bytes
is the trap. -/
theorem parsers_total_coinbase :
    (∃ tx, parseTransaction threeBytePush = .ok tx ∧ tx.inputs.length ≤ threeBytePush.length ∧
      tx.outputs.length ≤ threeBytePush.length) ∧
      parseTransaction (threeBytePush.take 44) ≠ .error .panic ∧
      TransactionTraps fiveBytePush := by
  have hfits : ¬ TransactionTraps threeBytePush := by
    rw [← parseTransaction_panic (by decide)]
    intro hpanic
    have hok : (parseTransaction threeBytePush matches .ok _) = true := by decide +kernel
    rw [hpanic] at hok
    exact nomatch hok
  have htruncated : ¬ TransactionTraps (threeBytePush.take 44) := by
    rw [← parseTransaction_panic (by decide)]
    intro hpanic
    have herror : (parseTransaction (threeBytePush.take 44) matches .error (.error _)) = true := by
      decide +kernel
    rw [hpanic] at herror
    exact nomatch herror
  refine ⟨?_, ((parsers_total (fun _ => .zero) (by decide)).mpr htruncated).1, ?_⟩
  · have htotal := (parsers_total (fun _ => .zero) (by decide)).mpr hfits
    cases hresult : parseTransaction threeBytePush with
    | ok tx => exact ⟨tx, rfl, htotal.2.2.2.1 tx hresult⟩
    | error fault =>
      have hok : (parseTransaction threeBytePush matches .ok _) = true := by decide +kernel
      rw [hresult] at hok
      exact nomatch hok
  · by_contra hsafe
    exact ((parsers_total (fun _ => .zero) (by decide)).mpr hsafe).1
      (eq_panic_of_matches (by decide +kernel))

/-- The parser panics on a height of five bytes. -/
theorem parsers_not_total :
    ¬ ∀ bytes : List UInt8, bytes.length < sliceBound →
      parseTransaction bytes ≠ .error .panic := by
  intro h
  exact h fiveBytePush (by decide) (eq_panic_of_matches (by decide +kernel))

end Interbtc
