import Interbtc.BtcRelay.History
import Interbtc.BtcRelay.Sortedness

/-!
# The targets of the stored headers

A target is stored in full and hashed in its compact form. Retargeting keeps to targets that
their compact form gives back and whose product with a timespan fits in 256 bits. The first
header is stored without a check of either, or of its work.
-/

namespace Interbtc.BtcRelay

open Core Core.PositionMap

variable {s s' : BtcRelay} {order : List ℕ} {header : BlockHeader} {prev b : RichBlockHeader}
  {prevChain : BlockChain} {x : H256Le} {target first last : ℕ} {sha256d : List UInt8 → H256Le}

/-- A target that is stored as it is, and that can be retargeted. -/
structure Storable (target : ℕ) : Prop where
  rounded : compactRound target = target
  bound : target * (targetTimespan * targetTimespanDivisor) < 2 ^ 256

instance (target : ℕ) : Decidable (Storable target) :=
  decidable_of_iff (compactRound target = target ∧
    target * (targetTimespan * targetTimespanDivisor) < 2 ^ 256)
    ⟨fun h => ⟨h.1, h.2⟩, fun h => ⟨h.rounded, h.bound⟩⟩

private theorem Storable.lt (h : Storable target) : target < 2 ^ 256 :=
  (Nat.le_mul_of_pos_right _ (by decide)).trans_lt h.bound

/-- The compact form gives the target back. -/
theorem Storable.encoding (h : Storable target) :
    ∃ bits, getCompact target = some bits ∧ setCompact bits = some target := by
  have hround := setCompact_getCompact h.lt
  rw [h.rounded] at hround
  exact Option.bind_eq_some_iff.mp hround

/-- The counted time is at most four periods. -/
theorem countedTimespan_le (first last : ℕ) :
    (countedTimespan first last).toNat ≤ targetTimespan * targetTimespanDivisor := by
  unfold countedTimespan targetTimespan targetTimespanDivisor
  omega

/-- The product with a timespan fits. -/
theorem Storable.fits (h : Storable target) (first last : ℕ) :
    target * (countedTimespan first last).toNat < 2 ^ 256 :=
  (Nat.mul_le_mul_left _ (countedTimespan_le first last)).trans_lt h.bound

/-- A retarget gives a target that can be stored. -/
theorem storable_adjustedTarget (target first last : ℕ) :
    Storable (adjustedTarget target first last) where
  rounded := compactRound_compactRound _
  bound := by
    have hle : adjustedTarget target first last ≤ unroundedMaxTarget :=
      (compactRound_le _).trans (min_le_right _ _)
    exact (Nat.mul_le_mul_right _ hle).trans_lt (by decide)

/-! ## Retargets -/

/-- The target before, times the counted time, fits into 256 bits. -/
theorem run_computeNewTarget {height : ℕ}
    (h : (computeNewTarget prev height).run s = .ok target s') :
    ∃ first, (getLastRetargetTime prev.chainId height).run s = .ok first s ∧
      prev.blockHeader.target *
        (countedTimespan first prev.blockHeader.timestamp).toNat < 2 ^ 256 ∧
      target = adjustedTarget prev.blockHeader.target first prev.blockHeader.timestamp := by
  simp only [computeNewTarget, Call.run_bind_eq_ok, Call.run_ofExcept_eq_ok,
    Call.run_ofOption_eq_ok] at h
  obtain ⟨first, s₁, hfirst, bits, _, ⟨hbits, rfl⟩, htarget, -⟩ := h
  have hkeep : Keeps id (getLastRetargetTime prev.chainId height) :=
    .bind (.bind .get fun _ => .ofOption _ _) fun _ =>
      .bind (.bind (.bind .get fun _ => .ofOption _ _) fun _ => .bind .get fun _ => .ofOption _ _)
        fun _ => .pure _
  obtain rfl : s₁ = s := hkeep _ _ _ hfirst
  by_cases hfits : prev.blockHeader.target *
      (countedTimespan first prev.blockHeader.timestamp).toNat < 2 ^ 256
  · obtain ⟨bits', hbits', hset⟩ := calculateNextWorkRequired_of_fits hfits
    rw [hbits'] at hbits
    obtain rfl := Except.ok.inj hbits
    exact ⟨first, hfirst, hfits, Option.some.inj (htarget.symm.trans hset)⟩
  · rw [calculateNextWorkRequired_of_not_fits hfits] at hbits
    cases hbits

/-- The target that is expected after a header can be stored if the header's can. -/
theorem storable_expectedTarget {height : ℕ} (hprev : Storable prev.blockHeader.target)
    (h : (expectedTarget prev height).run s = .ok target s') : Storable target := by
  unfold expectedTarget at h
  split at h
  · obtain ⟨first, -, -, rfl⟩ := run_computeNewTarget h
    exact storable_adjustedTarget _ _ _
  · obtain ⟨rfl, -⟩ := Call.run_pure_eq_ok.mp h
    exact hprev

/-! ## Runs -/

/-- A header that can be retargeted and whose work is enough. -/
def Proven (header : BlockHeader) : Prop :=
  Storable header.target ∧ header.hash.asU256 ≤ header.target

instance (header : BlockHeader) : Decidable (Proven header) :=
  inferInstanceAs (Decidable (_ ∧ _))

/-- The operation gives the relay its first header. -/
def Op.initializes : Op → Bool
  | .initializeRelay _ _ => true
  | _ => false

/-- The first header's target can be stored, and its hash is at most the target; without a check
of the difficulty, the target of every header can be stored. -/
def Op.Targets (sha256d : List UInt8 → H256Le) (s : BtcRelay) (op : Op) : Prop :=
  (op.call sha256d).succeeds s = true → ∀ header ∈ op.header? sha256d,
    (op.initializes = true → Proven header) ∧
      (s.disableDifficultyCheck = true → Storable header.target)

instance (s : BtcRelay) (op : Op) : Decidable (op.Targets sha256d s) :=
  inferInstanceAs (Decidable (_ → _))

/-- The structure, with headers that can be retargeted. -/
structure Targeted (s : BtcRelay) : Prop extends Sound s where
  proven : ∀ x b, s.blockHeaders x = some b → Proven b.blockHeader

private theorem Accepted.proven (ha : Accepted s header prev prevChain) (h : Targeted s)
    (hstorable : s.disableDifficultyCheck = true → Storable header.target) : Proven header := by
  refine ⟨?_, ha.work.le⟩
  cases hcheck : s.disableDifficultyCheck with
  | true => exact hstorable hcheck
  | false => exact storable_expectedTarget (h.proven _ _ ha.parent).1 (ha.target hcheck)

private theorem Changes.proven {op : Op} (h : Changes sha256d s order op s') (hs : Targeted s)
    (ha : Arranged s order) (hop : op.Targets sha256d s)
    (hsucceeds : (op.call sha256d).succeeds s = true) :
    ∀ x b, s'.blockHeaders x = some b → Proven b.blockHeader := by
  have hcond := hop hsucceeds
  have hfrom : ∀ header, Proven header → FromOr (· = header) s s' →
      ∀ x b, s'.blockHeaders x = some b → Proven b.blockHeader := by
    intro header hproven horigin x b hb
    rcases horigin x b hb with ⟨b₀, hb₀, heq⟩ | heq
    · exact heq ▸ hs.proven x b₀ hb₀
    · exact heq ▸ hproven
  cases h with
  | initializes header height hash s₁ h hvalid =>
    have hheader := hcond { header with hash := hash } (by rw [Op.header?, hvalid]; rfl)
    exact hfrom _ (hheader.1 rfl) h.creates.adds.fromOr
  | stores header forkBound hash prev prevChain _ haccepted h hvalid =>
    have hheader := hcond { header with hash := hash } (by rw [Op.header?, hvalid]; rfl)
    exact hfrom _ (haccepted.proven hs hheader.2) (h.fromOr hs.toStructured ha haccepted)
  | passes n => exact hs.proven

private theorem Targeted.step (hs : Targeted s) {op : Op} (hop : op.Targets sha256d s) :
    Targeted (BtcRelay.step sha256d s op) := by
  obtain ⟨order, harranged⟩ := hs.arranged
  refine ⟨hs.toSound.step op, ?_⟩
  rcases step_cases op harranged.lists with heq | ⟨hsucceeds, hchanges⟩
  · rw [heq]
    exact hs.proven
  · exact hchanges.proven hs harranged hop hsucceeds

/-- In a run whose first header has a target that its compact form gives back, with a product with
four periods that fits in 256 bits, and a hash that is at most the target, and in which without a
check of the difficulty every header has such a target: the compact form of every stored target
gives it back, every stored hash is at most its target, and no retarget overflows. -/
theorem targets_safe (sha256d : List UInt8 → H256Le) (k p : ℕ) (disable : Bool) (ops : List Op) :
    Meets (BtcRelay.step sha256d) (fun s op => op.Targets sha256d s)
        (BtcRelay.genesis k p disable) ops →
      let s := run (BtcRelay.step sha256d) (BtcRelay.genesis k p disable) ops
      ∀ x b, s.blockHeaders x = some b →
        (∃ bits, getCompact b.blockHeader.target = some bits ∧
          setCompact bits = some b.blockHeader.target ∧
          b.blockHeader.hash.asU256 ≤ b.blockHeader.target) ∧
        ∀ first last, calculateNextWorkRequired b.blockHeader.target first last ≠
          .error .arithmeticOverflow := by
  intro hmeets s x b hb
  have hs : Targeted s := run_invariant (fun _ _ hs hop => hs.step hop)
    ⟨.genesis k p disable, fun _ _ h => nomatch h⟩ hmeets
  obtain ⟨hstorable, hwork⟩ := hs.proven x b hb
  obtain ⟨bits, hget, hset⟩ := hstorable.encoding
  refine ⟨⟨bits, hget, hset, hwork⟩, fun first last herror => ?_⟩
  obtain ⟨bits', hok, -⟩ := calculateNextWorkRequired_of_fits (hstorable.fits first last)
  rw [hok] at herror
  cases herror

/-- A run with forks of one height meets the condition. -/
theorem targets_safe_tiedForks :
    let s := run (BtcRelay.step nonceHash) (BtcRelay.genesis 3 0 false) (nonceOps tiedForks)
    ∀ x b, s.blockHeaders x = some b →
      (∃ bits, getCompact b.blockHeader.target = some bits ∧
        setCompact bits = some b.blockHeader.target ∧
        b.blockHeader.hash.asU256 ≤ b.blockHeader.target) ∧
      ∀ first last, calculateNextWorkRequired b.blockHeader.target first last ≠
        .error .arithmeticOverflow :=
  targets_safe nonceHash 3 0 false (nonceOps tiedForks) (by decide +kernel)

/-- A first header with a target of 256 bits. -/
def wideHeader : BlockHeader := ⟨.zero, 2 ^ 255, 0, 4, .zero, .zero, 1⟩

/-- Not every run is safe. -/
theorem targets_not_safe :
    ¬∀ (sha256d : List UInt8 → H256Le) (k p : ℕ) (disable : Bool) (ops : List Op),
      let s := run (BtcRelay.step sha256d) (BtcRelay.genesis k p disable) ops
      ∀ x b, s.blockHeaders x = some b →
        (∃ bits, getCompact b.blockHeader.target = some bits ∧
          setCompact bits = some b.blockHeader.target ∧
          b.blockHeader.hash.asU256 ≤ b.blockHeader.target) ∧
        ∀ first last, calculateNextWorkRequired b.blockHeader.target first last ≠
          .error .arithmeticOverflow := by
  intro h
  have hstored : (run (BtcRelay.step nonceHash) (BtcRelay.genesis 3 0 false)
      [.initializeRelay wideHeader 0]).blockHeaders (.fromInteger 1) =
        some ⟨{ wideHeader with hash := .fromInteger 1 }, 0, 0, 0⟩ := by
    decide +kernel
  exact (h nonceHash 3 0 false [.initializeRelay wideHeader 0] _ _ hstored).2 0 0
    (by decide +kernel)

end Interbtc.BtcRelay
