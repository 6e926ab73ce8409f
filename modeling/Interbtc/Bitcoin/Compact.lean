import Mathlib.Data.Nat.Bitwise
import Mathlib.Data.Nat.Size
import Mathlib.Algebra.Order.Ring.Nat

/-!
# Compact targets

A difficulty target is stored in 32 bits: the number of its bytes, and the three leading
ones of them. The leading bit is a sign, so a target whose first byte would set it is stored
with one byte more. Reading a target back keeps its leading bytes and clears the others.
-/

namespace Interbtc

/-- The number of bits of a 256-bit number. -/
def numBits (target : ℕ) : ℕ := target.size

/-- The compact form of a target, whose mantissa has three bytes. -/
def getCompact (target : ℕ) : Option ℕ :=
  let size := (numBits target + 7) / 8
  let compact :=
    if size ≤ 3 then (target % 2 ^ 64) <<< (8 * (3 - size)) % 2 ^ 32
    else target >>> (8 * (size - 3)) % 2 ^ 32
  let (compact, size) :=
    if compact &&& 0x00800000 ≠ 0 then (compact >>> 8, size + 1) else (compact, size)
  if compact &&& (2 ^ 32 - 1 - 0x007fffff) ≠ 0 then none
  else if ¬ size < 256 then none
  else some (compact ||| size <<< 24)

/-- The target of a compact form, which must not be negative or overflow. -/
def setCompact (compact : ℕ) : Option ℕ :=
  let size := compact >>> 24
  let word := compact &&& 0x007fffff
  let (word, value) :=
    if size ≤ 3 then (word >>> (8 * (3 - size)), word >>> (8 * (3 - size)))
    else (word, word <<< (8 * (size - 3)) % 2 ^ 256)
  if word ≠ 0 ∧ compact &&& 0x00800000 ≠ 0 then none
  else if word ≠ 0 ∧ (34 < size ∨ (0xff < word ∧ 33 < size) ∨ (0xffff < word ∧ 32 < size)) then
    none
  else some value

/-- The bytes of a target that are not stored. -/
def droppedBytes (target : ℕ) : ℕ := numBits target / 8 - 2

/-- A target without the bytes that are not stored. -/
def compactRound (target : ℕ) : ℕ :=
  target / 256 ^ droppedBytes target * 256 ^ droppedBytes target

/-- The compact form rounds a target down. -/
theorem compactRound_le (target : ℕ) : compactRound target ≤ target := Nat.div_mul_le_self _ _

/-- The bytes that are dropped are below the leading bit. -/
theorem numBits_compactRound (target : ℕ) : numBits (compactRound target) = numBits target := by
  by_cases hsmall : droppedBytes target = 0
  · rw [compactRound, hsmall, pow_zero, Nat.div_one, Nat.mul_one]
  have hbits : numBits target = numBits target - 1 + 1 := by
    unfold droppedBytes at hsmall
    omega
  have hlow : 2 ^ (numBits target - 1) ≤ compactRound target := by
    have hle : 2 ^ (numBits target - 1) ≤ target := by
      refine Nat.lt_size.mp ?_
      change numBits target - 1 < numBits target
      omega
    obtain ⟨e, he⟩ : ∃ e, numBits target - 1 = e + 8 * droppedBytes target := by
      refine ⟨numBits target - 1 - 8 * droppedBytes target, ?_⟩
      unfold droppedBytes at hsmall ⊢
      omega
    rw [he, pow_add, pow_mul, show 2 ^ 8 = 256 from rfl] at hle ⊢
    exact Nat.mul_le_mul_right _ ((Nat.le_div_iff_mul_le (Nat.pow_pos (by decide))).mpr hle)
  refine Nat.le_antisymm (Nat.size_le.mpr ?_) ?_
  · exact (compactRound_le target).trans_lt (Nat.lt_size_self target)
  · rw [hbits]
    exact Nat.lt_size.mpr hlow

/-- A target that was rounded is stored as it is. -/
theorem compactRound_compactRound (target : ℕ) :
    compactRound (compactRound target) = compactRound target := by
  have hdropped : droppedBytes (compactRound target) = droppedBytes target := by
    rw [droppedBytes, numBits_compactRound, droppedBytes]
  rw [compactRound, hdropped]
  unfold compactRound
  rw [Nat.mul_div_cancel _ (Nat.pow_pos (by decide))]

/-! ## Round trip -/

variable {target size word : ℕ}

/-- The number of bytes a target is stored with: its own, and one for the sign if need be. -/
private def compactSize (target : ℕ) : ℕ := if target = 0 then 0 else numBits target / 8 + 1

/-- The three bytes of a target that are stored. -/
private def compactWord (target : ℕ) : ℕ :=
  if compactSize target ≤ 3 then target * 256 ^ (3 - compactSize target)
  else target / 256 ^ (compactSize target - 3)

private theorem signBit_eq (word : ℕ) : word &&& 0x00800000 = word / 2 ^ 23 % 2 * 2 ^ 23 := by
  rw [show 0x00800000 = 2 ^ 23 from rfl, Nat.and_two_pow, Nat.testBit_eq_decide_div_mod_eq]
  rcases Nat.mod_two_eq_zero_or_one (word / 2 ^ 23) with h | h <;> rw [h] <;> rfl

private theorem compactWord_lt (hzero : target ≠ 0) : compactWord target < 2 ^ 23 := by
  have hlt : target < 2 ^ numBits target := Nat.lt_size_self target
  have hsize : compactSize target = numBits target / 8 + 1 := if_neg hzero
  unfold compactWord
  rw [hsize, show 256 = 2 ^ 8 from rfl, ← pow_mul, ← pow_mul]
  split
  · calc target * 2 ^ (8 * (3 - (numBits target / 8 + 1)))
        < 2 ^ numBits target * 2 ^ (8 * (3 - (numBits target / 8 + 1))) :=
          Nat.mul_lt_mul_of_pos_right hlt (Nat.two_pow_pos _)
      _ = 2 ^ (numBits target + 8 * (3 - (numBits target / 8 + 1))) := (pow_add _ _ _).symm
      _ ≤ 2 ^ 23 := Nat.pow_le_pow_right (by omega) (by omega)
  · rw [Nat.div_lt_iff_lt_mul (Nat.two_pow_pos _), ← pow_add]
    exact hlt.trans_le (Nat.pow_le_pow_right (by omega) (by omega))

/-- The leading three bytes, before there is room for the sign. -/
private theorem leading_eq (target : ℕ) :
    (if (numBits target + 7) / 8 ≤ 3 then
        (target % 2 ^ 64) <<< (8 * (3 - (numBits target + 7) / 8)) % 2 ^ 32
      else target >>> (8 * ((numBits target + 7) / 8 - 3)) % 2 ^ 32) =
    if (numBits target + 7) / 8 ≤ 3 then target * 2 ^ (8 * (3 - (numBits target + 7) / 8))
    else target / 2 ^ (8 * ((numBits target + 7) / 8 - 3)) := by
  have hlt : target < 2 ^ numBits target := Nat.lt_size_self target
  split
  · have hsmall : target < 2 ^ 64 := hlt.trans_le (Nat.pow_le_pow_right (by omega) (by omega))
    rw [Nat.mod_eq_of_lt hsmall, Nat.shiftLeft_eq, Nat.mod_eq_of_lt]
    calc target * 2 ^ (8 * (3 - (numBits target + 7) / 8))
        < 2 ^ numBits target * 2 ^ (8 * (3 - (numBits target + 7) / 8)) :=
          Nat.mul_lt_mul_of_pos_right hlt (Nat.two_pow_pos _)
      _ = 2 ^ (numBits target + 8 * (3 - (numBits target + 7) / 8)) := (pow_add _ _ _).symm
      _ ≤ 2 ^ 32 := Nat.pow_le_pow_right (by omega) (by omega)
  · rw [Nat.shiftRight_eq_div_pow, Nat.mod_eq_of_lt]
    rw [Nat.div_lt_iff_lt_mul (Nat.two_pow_pos _), ← pow_add]
    exact hlt.trans_le (Nat.pow_le_pow_right (by omega) (by omega))

/-- The leading bytes of a target, as many as it has itself. -/
private def leadingBytes (target : ℕ) : ℕ :=
  if (numBits target + 7) / 8 ≤ 3 then target * 2 ^ (8 * (3 - (numBits target + 7) / 8))
  else target / 2 ^ (8 * ((numBits target + 7) / 8 - 3))

/-- Whole bytes fill the place of the sign. -/
private theorem leadingBytes_of_whole (hpos : 0 < numBits target)
    (hwhole : numBits target % 8 = 0) :
    leadingBytes target / 2 ^ 23 = 1 ∧ leadingBytes target / 2 ^ 8 = compactWord target := by
  obtain ⟨m, hm⟩ : ∃ m, numBits target = 8 * m := ⟨numBits target / 8, by omega⟩
  have hlt : target < 2 ^ (8 * m) := hm ▸ Nat.lt_size_self target
  have hge : 2 ^ (8 * m - 1) ≤ target := by
    refine Nat.lt_size.mp ?_
    change 8 * m - 1 < numBits target
    omega
  have hsize : compactSize target = m + 1 := by
    have hzero : target ≠ 0 := fun h => by
      rw [h] at hpos
      exact absurd hpos (by decide)
    rw [compactSize, if_neg hzero, hm]
    omega
  have hdiv : (8 * m + 7) / 8 = m := by omega
  unfold leadingBytes compactWord
  rw [hsize, hm, hdiv, show 256 = 2 ^ 8 from rfl, ← pow_mul, ← pow_mul]
  by_cases hle : m ≤ 3
  · rw [if_pos hle]
    constructor
    · rw [Nat.div_eq_iff (Nat.two_pow_pos _)]
      have hlow : 2 ^ 23 ≤ target * 2 ^ (8 * (3 - m)) :=
        calc 2 ^ 23 ≤ 2 ^ (8 * m - 1 + 8 * (3 - m)) :=
              Nat.pow_le_pow_right (by omega) (by omega)
          _ = 2 ^ (8 * m - 1) * 2 ^ (8 * (3 - m)) := pow_add _ _ _
          _ ≤ target * 2 ^ (8 * (3 - m)) := Nat.mul_le_mul_right _ hge
      have hhigh : target * 2 ^ (8 * (3 - m)) < 2 ^ 24 :=
        calc target * 2 ^ (8 * (3 - m)) < 2 ^ (8 * m) * 2 ^ (8 * (3 - m)) :=
              Nat.mul_lt_mul_of_pos_right hlt (Nat.two_pow_pos _)
          _ = 2 ^ (8 * m + 8 * (3 - m)) := (pow_add _ _ _).symm
          _ ≤ 2 ^ 24 := Nat.pow_le_pow_right (by omega) (by omega)
      omega
    · by_cases hthree : m + 1 ≤ 3
      · rw [if_pos hthree, show 8 * (3 - m) = 8 * (3 - (m + 1)) + 8 by omega, pow_add,
          ← Nat.mul_assoc, Nat.mul_div_cancel _ (Nat.two_pow_pos _)]
      · rw [if_neg hthree, show m = 3 by omega]
        exact congrArg (· / 2 ^ 8) (Nat.mul_one target)
  · rw [if_neg hle, if_neg (by omega)]
    constructor
    · rw [Nat.div_div_eq_div_mul, ← pow_add, Nat.div_eq_iff (Nat.two_pow_pos _)]
      have hlow : 2 ^ (8 * (m - 3) + 23) ≤ target :=
        (Nat.pow_le_pow_right (by omega) (by omega)).trans hge
      have hhigh : target < 2 * 2 ^ (8 * (m - 3) + 23) := by
        rw [← pow_succ']
        exact hlt.trans_le (Nat.pow_le_pow_right (by omega) (by omega))
      omega
    · rw [Nat.div_div_eq_div_mul, ← pow_add]
      congr 2
      omega

/-- Otherwise there is room for the sign. -/
private theorem leadingBytes_of_not_whole (hwhole : numBits target % 8 ≠ 0) :
    leadingBytes target = compactWord target ∧ (numBits target + 7) / 8 = compactSize target := by
  have hzero : target ≠ 0 := fun h => by
    rw [h] at hwhole
    exact hwhole rfl
  have hsize : compactSize target = (numBits target + 7) / 8 := by
    rw [compactSize, if_neg hzero]
    omega
  unfold leadingBytes compactWord
  rw [hsize, show 256 = 2 ^ 8 from rfl, ← pow_mul, ← pow_mul]
  exact ⟨rfl, rfl⟩

private theorem highBits_eq_zero (hword : word < 2 ^ 23) :
    word &&& (2 ^ 32 - 1 - 0x007fffff) = 0 := by
  refine Nat.eq_of_testBit_eq fun i => ?_
  rw [Nat.testBit_and, Nat.zero_testBit, show 2 ^ 32 - 1 - 0x007fffff = 511 <<< 23 from rfl,
    Nat.testBit_shiftLeft]
  by_cases hi : 23 ≤ i
  · rw [Nat.testBit_lt_two_pow (hword.trans_le (Nat.pow_le_pow_right (by omega) hi)),
      Bool.false_and]
  · rw [decide_eq_false hi, Bool.false_and, Bool.and_false]

private theorem getCompact_eq (hmax : target < 2 ^ 256) :
    getCompact target = some (compactWord target ||| compactSize target <<< 24) := by
  by_cases hzero : target = 0
  · subst hzero
    rfl
  have hword := compactWord_lt hzero
  have hsize : compactSize target = numBits target / 8 + 1 := if_neg hzero
  have hpos : 0 < numBits target := Nat.size_pos.mpr (Nat.pos_of_ne_zero hzero)
  have hle : numBits target ≤ 256 := Nat.size_le.mpr hmax
  have hhigh := highBits_eq_zero hword
  have hset : 1 % 2 * 2 ^ 23 ≠ 0 := by decide
  have hunset : ¬0 % 2 * 2 ^ 23 ≠ 0 := by decide
  unfold getCompact
  dsimp only
  rw [leading_eq, ← leadingBytes, signBit_eq]
  by_cases hwhole : numBits target % 8 = 0
  · obtain ⟨hbit, hshift⟩ := leadingBytes_of_whole hpos hwhole
    rw [hbit, if_pos hset, Nat.shiftRight_eq_div_pow, hshift]
    dsimp only
    rw [hhigh, if_neg (Ne.irrefl), if_neg (by omega), hsize]
    congr 3
    omega
  · obtain ⟨hlead, hbytes⟩ := leadingBytes_of_not_whole hwhole
    rw [hlead, Nat.div_eq_of_lt hword, if_neg hunset, hbytes]
    dsimp only
    rw [hhigh, if_neg (Ne.irrefl), if_neg (by omega)]

private theorem setCompact_eq (hword : word < 2 ^ 23) (hsize : size ≤ 33)
    (hlast : size = 33 → word ≤ 0xffff) : setCompact (word ||| size <<< 24) =
      some (if size ≤ 3 then word / 2 ^ (8 * (3 - size))
        else word * 2 ^ (8 * (size - 3)) % 2 ^ 256) := by
  have hsum : word ||| size <<< 24 = size * 2 ^ 24 + word := by
    rw [Nat.or_comm, ← Nat.shiftLeft_add_eq_or_of_lt (by omega), Nat.shiftLeft_eq]
  have hbytes : (size * 2 ^ 24 + word) >>> 24 = size := by
    rw [Nat.shiftRight_eq_div_pow]
    omega
  have hmantissa : (size * 2 ^ 24 + word) &&& 0x007fffff = word := by
    rw [show 0x007fffff = 2 ^ 23 - 1 from rfl, Nat.and_two_pow_sub_one_eq_mod]
    omega
  have hsign : (size * 2 ^ 24 + word) &&& 0x00800000 = 0 := by
    rw [signBit_eq]
    omega
  unfold setCompact
  dsimp only
  rw [hsum, hbytes, hmantissa, hsign, Nat.shiftRight_eq_div_pow, Nat.shiftLeft_eq,
    if_neg fun h => h.2 rfl]
  by_cases hle : size ≤ 3
  · rw [if_pos hle, if_pos hle, if_neg (by omega)]
  · rw [if_neg hle, if_neg hle, if_neg (by omega)]

/-- A target that is stored and read back keeps its leading bytes. -/
theorem setCompact_getCompact (hmax : target < 2 ^ 256) :
    (getCompact target).bind setCompact = some (compactRound target) := by
  rw [getCompact_eq hmax, Option.bind_some]
  by_cases hzero : target = 0
  · subst hzero
    rfl
  have hword := compactWord_lt hzero
  have hsize : compactSize target = numBits target / 8 + 1 := if_neg hzero
  have hle : numBits target ≤ 256 := Nat.size_le.mpr hmax
  have hlast : compactSize target = 33 → compactWord target ≤ 0xffff := by
    intro h
    rw [compactWord, h, if_neg (by decide)]
    have hlt : target / 256 ^ (33 - 3) < 2 ^ 16 := by
      rw [Nat.div_lt_iff_lt_mul (by decide)]
      exact hmax
    exact Nat.le_of_lt_succ hlt
  rw [setCompact_eq hword (by omega) hlast, compactRound, droppedBytes]
  congr 1
  unfold compactWord
  by_cases hthree : compactSize target ≤ 3
  · rw [if_pos hthree, if_pos hthree, show numBits target / 8 - 2 = 0 by omega, pow_zero,
      Nat.div_one, Nat.mul_one, pow_mul, show 2 ^ 8 = 256 from rfl,
      Nat.mul_div_cancel _ (Nat.pow_pos (by decide))]
  · rw [if_neg hthree, if_neg hthree, show numBits target / 8 - 2 = compactSize target - 3 by omega,
      pow_mul, show 2 ^ 8 = 256 from rfl, Nat.mod_eq_of_lt]
    exact (Nat.div_mul_le_self _ _).trans_lt hmax

/-- A target that was rounded is stored as the target is. -/
theorem getCompact_compactRound (hmax : target < 2 ^ 256) :
    getCompact (compactRound target) = getCompact target := by
  rw [getCompact_eq hmax, getCompact_eq ((compactRound_le target).trans_lt hmax)]
  by_cases hzero : target = 0
  · rw [hzero, compactRound, Nat.zero_div, Nat.zero_mul]
  have hround : compactRound target ≠ 0 := by
    refine Nat.pos_iff_ne_zero.mp (Nat.size_pos.mp ?_)
    change 0 < numBits (compactRound target)
    rw [numBits_compactRound]
    exact Nat.size_pos.mpr (Nat.pos_of_ne_zero hzero)
  have hsize : compactSize (compactRound target) = compactSize target := by
    rw [compactSize, compactSize, if_neg hround, if_neg hzero, numBits_compactRound]
  have hword : compactWord (compactRound target) = compactWord target := by
    have hdropped : compactSize target - 3 = droppedBytes target := by
      rw [compactSize, if_neg hzero, droppedBytes]
      omega
    rw [compactWord, compactWord, hsize]
    by_cases hthree : compactSize target ≤ 3
    · rw [if_pos hthree, if_pos hthree, compactRound, ← hdropped, Nat.sub_eq_zero_of_le hthree,
        pow_zero, Nat.div_one, Nat.mul_one]
    · rw [if_neg hthree, if_neg hthree, compactRound, hdropped,
        Nat.mul_div_cancel _ (Nat.pow_pos (by decide))]
  rw [hsize, hword]

/-- The bits of a target from the stored bytes up are kept. -/
theorem testBit_compactRound {i : ℕ} (hi : 8 * droppedBytes target ≤ i) :
    (compactRound target).testBit i = target.testBit i := by
  have hdiv : compactRound target / 2 ^ (8 * droppedBytes target) =
      target / 2 ^ (8 * droppedBytes target) := by
    rw [compactRound, show 256 = 2 ^ 8 from rfl, ← pow_mul,
      Nat.mul_div_cancel _ (Nat.two_pow_pos _)]
  have htest : ∀ n : ℕ, n.testBit i =
      (n / 2 ^ (8 * droppedBytes target)).testBit (i - 8 * droppedBytes target) := by
    intro n
    rw [Nat.testBit_div_two_pow, Nat.sub_add_cancel hi]
  rw [htest, hdiv, ← htest]

/-- Rounding keeps the order. -/
theorem compactRound_mono {a b : ℕ} (h : a ≤ b) : compactRound a ≤ compactRound b := by
  rcases (Nat.size_le_size h).eq_or_lt with hsame | hless
  · have hdropped : droppedBytes a = droppedBytes b := by
      rw [droppedBytes, droppedBytes, numBits, numBits, hsame]
    rw [compactRound, compactRound, hdropped]
    exact Nat.mul_le_mul_right _ (Nat.div_le_div_right h)
  · have hlow : 2 ^ a.size ≤ compactRound b := by
      refine Nat.lt_size.mp ?_
      change a.size < numBits (compactRound b)
      rwa [numBits_compactRound]
    exact (compactRound_le a).trans ((Nat.lt_size_self a).le.trans hlow)

/-! ## The decoder -/

/-- The number that a compact form stands for, however large. -/
def compactMagnitude (compact : ℕ) : ℕ :=
  if compact / 2 ^ 24 ≤ 3 then compact % 2 ^ 23 / 256 ^ (3 - compact / 2 ^ 24)
  else compact % 2 ^ 23 * 256 ^ (compact / 2 ^ 24 - 3)

/-- The sign bit. -/
def compactSign (compact : ℕ) : Bool := compact / 2 ^ 23 % 2 = 1

/-- The check of the size of a word is the bound of 256 bits. -/
private theorem overflows_iff (hword : word < 2 ^ 23) (hsize : 3 < size) :
    word ≠ 0 ∧ (34 < size ∨ (0xff < word ∧ 33 < size) ∨ (0xffff < word ∧ 32 < size)) ↔
      2 ^ 256 ≤ word * 2 ^ (8 * (size - 3)) := by
  have hpow : ∀ m n, m ≤ n → 2 ^ m ≤ 2 ^ n := fun m n h => Nat.pow_le_pow_right (by decide) h
  rcases Nat.lt_or_ge size 33 with hsmall | hlarge
  · refine iff_of_false (by omega) (Nat.not_le.mpr ?_)
    calc word * 2 ^ (8 * (size - 3)) < 2 ^ 23 * 2 ^ (8 * (size - 3)) :=
          Nat.mul_lt_mul_of_pos_right hword (Nat.two_pow_pos _)
      _ = 2 ^ (23 + 8 * (size - 3)) := (pow_add _ _ _).symm
      _ ≤ 2 ^ 256 := hpow _ _ (by omega)
  · rcases Nat.lt_or_ge 34 size with hhuge | hmiddle
    · constructor
      · rintro ⟨hzero, -⟩
        calc 2 ^ 256 ≤ 2 ^ (8 * (size - 3)) := hpow _ _ (by omega)
          _ ≤ word * 2 ^ (8 * (size - 3)) := Nat.le_mul_of_pos_left _ (Nat.pos_of_ne_zero hzero)
      · intro hle
        refine ⟨fun hzero => ?_, .inl hhuge⟩
        rw [hzero, Nat.zero_mul] at hle
        exact absurd hle (by decide)
    · obtain rfl | rfl : size = 33 ∨ size = 34 := by omega
      · rw [show 256 = 16 + 8 * (33 - 3) from rfl, pow_add]
        rw [Nat.mul_le_mul_right_iff (Nat.two_pow_pos _)]
        omega
      · rw [show 256 = 8 + 8 * (34 - 3) from rfl, pow_add]
        rw [Nat.mul_le_mul_right_iff (Nat.two_pow_pos _)]
        omega

/-- Negative numbers and those of more than 256 bits are refused, and no others. -/
theorem setCompact_eq_ite (compact : ℕ) : setCompact compact =
    if (compactSign compact ∧ compactMagnitude compact ≠ 0) ∨ 2 ^ 256 ≤ compactMagnitude compact
    then none else some (compactMagnitude compact) := by
  have hmantissa : compact &&& 0x007fffff = compact % 2 ^ 23 := by
    rw [show 0x007fffff = 2 ^ 23 - 1 from rfl, Nat.and_two_pow_sub_one_eq_mod]
  have hsign : compact &&& 0x00800000 ≠ 0 ↔ compactSign compact := by
    rw [signBit_eq, compactSign, decide_eq_true_iff]
    omega
  have hword : compact % 2 ^ 23 < 2 ^ 23 := Nat.mod_lt _ (Nat.two_pow_pos _)
  have hbytes : ∀ n, 256 ^ n = 2 ^ (8 * n) := fun n => (pow_mul 2 8 n).symm
  unfold setCompact compactMagnitude
  dsimp only
  rw [hmantissa, Nat.shiftRight_eq_div_pow, hbytes, hbytes]
  simp only [hsign]
  by_cases hsize : compact / 2 ^ 24 ≤ 3
  · have hlt : compact % 2 ^ 23 / 2 ^ (8 * (3 - compact / 2 ^ 24)) < 2 ^ 256 :=
      (Nat.div_le_self _ _).trans_lt (hword.trans (by decide))
    rw [if_pos hsize, if_pos hsize, Nat.shiftRight_eq_div_pow]
    dsimp only
    by_cases hnegative : compact % 2 ^ 23 / 2 ^ (8 * (3 - compact / 2 ^ 24)) ≠ 0 ∧
        compactSign compact
    · rw [if_pos hnegative, if_pos (.inl hnegative.symm)]
    · rw [if_neg hnegative, if_neg (by omega), if_neg]
      rintro (h | h)
      · exact hnegative h.symm
      · exact absurd hlt (Nat.not_lt.mpr h)
  · have hover := overflows_iff hword (Nat.lt_of_not_le hsize)
    have hzero : compact % 2 ^ 23 ≠ 0 ↔
        compact % 2 ^ 23 * 2 ^ (8 * (compact / 2 ^ 24 - 3)) ≠ 0 := by
      rw [Nat.mul_ne_zero_iff, and_iff_left (Nat.two_pow_pos _).ne']
    rw [if_neg hsize, if_neg hsize, Nat.shiftLeft_eq]
    dsimp only
    by_cases hnegative : compact % 2 ^ 23 ≠ 0 ∧ compactSign compact
    · rw [if_pos hnegative, if_pos (.inl ⟨hnegative.2, hzero.mp hnegative.1⟩)]
    · rw [if_neg hnegative]
      by_cases hlarge : 2 ^ 256 ≤ compact % 2 ^ 23 * 2 ^ (8 * (compact / 2 ^ 24 - 3))
      · rw [if_pos (hover.mpr hlarge), if_pos (.inr hlarge)]
      · rw [if_neg (hover.not.mpr hlarge), if_neg, Nat.mod_eq_of_lt (Nat.lt_of_not_le hlarge)]
        rintro (h | h)
        · exact hnegative ⟨hzero.mpr h.2, h.1⟩
        · exact hlarge h

example : getCompact 0x80 = some 0x02008000 := by decide +kernel

example : setCompact 0x1d00ffff = some (0xffff * 2 ^ 208) := by decide +kernel

end Interbtc
