import Interbtc.BtcRelay.Soundness

/-!
# When the queue is sorted

A fork moves forward past lower chains, but each is compared with the height of the one
passed last. It stops behind the second of two chains of its old height, and does not reach
the main chain after passing one.
-/

namespace Interbtc.BtcRelay

open Core Core.PositionMap

variable {s s' s₁ : BtcRelay} {order pre post : List ℕ} {header : BlockHeader} {k c : ℕ}
  {prev : RichBlockHeader} {prevChain fork : BlockChain} {sha256d : List UInt8 → H256Le}

/-- The chains, with a queue that is sorted. -/
structure Queued (s : BtcRelay) : Prop extends Structured s where
  sorted : ∃ order, Arranged s order ∧ Sorted s order

/-- An accepted header extends no fork that stands behind two others that are not higher. -/
def Op.Passes (sha256d : List UInt8 → H256Le) (s : BtcRelay) (op : Op) : Prop :=
  (op.call sha256d).succeeds s = true → op.ties s ≤ 1

instance (s : BtcRelay) (op : Op) : Decidable (op.Passes sha256d s) :=
  inferInstanceAs (Decidable (_ → _))

private theorem Queued.step (hs : Queued s) {op : Op} (hop : op.Passes sha256d s) :
    Queued (BtcRelay.step sha256d s op) := by
  obtain ⟨order, ha, hsorted⟩ := hs.sorted
  rcases step_cases op ha.lists with heq | ⟨hsucceeds, hchanges⟩
  · rw [heq]
    exact hs
  · obtain ⟨hstructured, order', harranged, hkeep⟩ := hchanges.arranged hs.toStructured ha
    exact ⟨hstructured, order', harranged, hkeep hsorted (hop hsucceeds)⟩

/-- At first the queue is sorted. -/
theorem Queued.genesis (k p : ℕ) (disable : Bool) : Queued (genesis k p disable) where
  toStructured := (Sound.genesis k p disable).toStructured
  sorted := ⟨[], ⟨.empty, List.nodup_nil, fun _ => ⟨fun h => (nomatch h), fun h => (nomatch h)⟩,
    fun _ h => (nomatch h), Nat.zero_le _⟩, List.Pairwise.nil⟩

/-- In a run in which no accepted header extends a fork that stands behind two others that are not
higher, the positions of the queue are consecutive, it holds every chain once, the main chain
first, and the other ones by descending height. -/
theorem chains_sorted (sha256d : List UInt8 → H256Le) (k p : ℕ) (disable : Bool) (ops : List Op) :
    Meets (BtcRelay.step sha256d) (fun s op => op.Passes sha256d s)
        (BtcRelay.genesis k p disable) ops →
      let s := run (BtcRelay.step sha256d) (BtcRelay.genesis k p disable) ops
      ∃ order : List ℕ, (∀ i, s.chains.lookup i = order[i]?) ∧ order.Nodup ∧
        (∀ c, c ∈ order ↔ (s.chainsIndex c).isSome = true) ∧
        (∀ c ∈ order.head?, c = mainChainId) ∧
        order.tail.Pairwise fun c d => s.heightOf d ≤ s.heightOf c := by
  intro hmeets s
  have hs : Queued s := run_invariant (fun _ _ hs hop => hs.step hop) (.genesis k p disable) hmeets
  obtain ⟨order, ha, hsorted⟩ := hs.sorted
  exact ⟨order, ha.lists, ha.nodup, fun c => (ha.ids c).trans (hs.ids c).symm, ha.main, hsorted⟩

/-! Headers with a hash that is their nonce. -/

/-- The nonce of a header, which is in its last four bytes. -/
def nonceHash (bytes : List UInt8) : H256Le :=
  .fromInteger ((bytes.drop 76).foldr (fun b n => b.toNat + 256 * n) 0)

/-- A header with a nonce on top of another. -/
def nonceHeader (nonce prev : ℕ) : BlockHeader :=
  ⟨.zero, 2 ^ 220, 0, 4, .zero, .fromInteger prev, nonce⟩

/-- The first header of the relay and others on top of it or of each other. -/
def nonceOps (links : List (ℕ × ℕ)) : List Op :=
  .initializeRelay (nonceHeader 1 0) 0 ::
    links.map fun (nonce, prev) => .storeBlockHeader (nonceHeader nonce prev) 100

/-- Two forks of equal height, one of which overtakes the main chain. -/
def tiedForks : List (ℕ × ℕ) :=
  [(2, 1), (10, 1), (20, 1), (21, 20), (22, 21), (11, 10), (23, 22), (24, 23)]

/-- A run with forks of one height meets the condition. -/
theorem chains_sorted_tiedForks :
    let s := run (BtcRelay.step nonceHash) (BtcRelay.genesis 3 0 false) (nonceOps tiedForks)
    ∃ order : List ℕ, (∀ i, s.chains.lookup i = order[i]?) ∧ order.Nodup ∧
      (∀ c, c ∈ order ↔ (s.chainsIndex c).isSome = true) ∧
      (∀ c ∈ order.head?, c = mainChainId) ∧
      order.tail.Pairwise fun c d => s.heightOf d ≤ s.heightOf c :=
  chains_sorted nonceHash 3 0 false (nonceOps tiedForks) (by decide +kernel)

/-- Three forks of equal height, the last of which is extended. -/
def threeForks : List (ℕ × ℕ) := [(2, 1), (3, 2), (10, 1), (11, 1), (12, 1), (20, 12)]

/-- Not every run keeps the queue sorted. -/
theorem chains_unsorted :
    ¬∀ (sha256d : List UInt8 → H256Le) (k p : ℕ) (disable : Bool) (ops : List Op),
      let s := run (BtcRelay.step sha256d) (BtcRelay.genesis k p disable) ops
      ∃ order : List ℕ, (∀ i, s.chains.lookup i = order[i]?) ∧ order.Nodup ∧
        (∀ c, c ∈ order ↔ (s.chainsIndex c).isSome = true) ∧
        (∀ c ∈ order.head?, c = mainChainId) ∧
        order.tail.Pairwise fun c d => s.heightOf d ≤ s.heightOf c := by
  intro h
  obtain ⟨order, hl, -, -, -, hsorted⟩ := h nonceHash 3 0 false (nonceOps threeForks)
  have hfirst : order[1]? = some 1 := by
    rw [← hl]
    decide +kernel
  have hsecond : order[2]? = some 3 := by
    rw [← hl]
    decide +kernel
  have hheights : ¬(run (BtcRelay.step nonceHash) (BtcRelay.genesis 3 0 false)
      (nonceOps threeForks)).heightOf 3 ≤ (run (BtcRelay.step nonceHash)
        (BtcRelay.genesis 3 0 false) (nonceOps threeForks)).heightOf 1 := by
    decide +kernel
  match order, hfirst, hsecond, hsorted with
  | _ :: _ :: _ :: _, rfl, rfl, hsorted =>
    exact hheights ((List.pairwise_cons.mp hsorted).1 3 List.mem_cons_self)

end Interbtc.BtcRelay
