import Interbtc.Bitcoin.Parser

/-!
# The grammar of the parsers

Each parser is described by the byte strings that it takes for a value, and by those on which
it panics. A compact integer can be written in up to four ways, and the parser takes them all.
-/

namespace Interbtc

open Core BytesParser

variable {α : Type} {pre s bytes : List UInt8} {width n : ℕ}

/-! ## Slices -/

/-- A range at the position of a reader is the start of what is left. -/
theorem getRange_append (pre s : List UInt8) (n : ℕ) :
    getRange (pre ++ s) pre.length (pre.length + n) =
      if n ≤ s.length then .ok (s.take n) else .error (.error .endOfFile) := by
  have hiff : (pre.length ≤ pre.length + n ∧ pre.length + n ≤ (pre ++ s).length) ↔ n ≤ s.length := by
    rw [List.length_append]
    omega
  rw [getRange, if_congr hiff rfl rfl, List.drop_left, Nat.add_sub_cancel_left]

/-- What is left at the position of a reader. -/
theorem getFrom_append (pre s : List UInt8) : getFrom (pre ++ s) pre.length = .ok s := by
  rw [getFrom, if_pos (by simp), List.drop_left]

/-- Positions do not overflow within bytes that fit. -/
theorem plus_append (hlimit : (pre ++ s).length < sliceBound) (hn : n < sliceBound) :
    plus pre.length n = .ok (pre.length + n) := by
  rw [List.length_append] at hlimit
  exact if_pos (by unfold usizeBound sliceBound at *; omega)

/-- The head of a parser never leaves the bytes, so it does not overflow. -/
theorem parse_eq (p : Parsable α) (hlimit : (pre ++ s).length < sliceBound)
    (hp : ∀ a n, p (pre ++ s) pre.length = .ok (a, n) → n ≤ s.length) :
    parse p (pre ++ s) pre.length =
      (p (pre ++ s) pre.length).map fun result => (result.1, pre.length + result.2) := by
  cases hresult : p (pre ++ s) pre.length with
  | error fault =>
    change (p (pre ++ s) pre.length >>= _) = _
    rw [hresult]
    rfl
  | ok result =>
    have hle := hp result.1 result.2 hresult
    change (p (pre ++ s) pre.length >>= _) = _
    rw [hresult]
    refine if_pos ?_
    rw [List.length_append] at hlimit
    unfold usizeBound sliceBound at *
    omega

/-! ## Strings of a fixed length -/

/-- The strings of a length, as the values that they stand for. -/
def wordGrammar (width : ℕ) (f : List UInt8 → Except Halt α) : Grammar UInt8 α :=
  ⟨fun b a => b.length = width ∧ f b = .ok a, fun _ _ => False⟩

/-- A parser that takes a fixed number of bytes. -/
theorem describes_word {p : Parsable α} {f : List UInt8 → Except Halt α}
    (hf : ∀ b, b.length = width → f b ≠ .error .panic)
    (hp : ∀ {pre s : List UInt8}, (pre ++ s).length < sliceBound → p (pre ++ s) pre.length =
      if width ≤ s.length then (f (s.take width)).map fun a => (a, width)
      else .error (.error .endOfFile)) :
    Describes sliceBound (parse p) (wordGrammar width f) := by
  have hrun : ∀ {pre s : List UInt8}, (pre ++ s).length < sliceBound →
      parse p (pre ++ s) pre.length =
        if width ≤ s.length then (f (s.take width)).map fun a => (a, pre.length + width)
        else .error (.error .endOfFile) := by
    intro pre s hlimit
    have hle : ∀ a n, p (pre ++ s) pre.length = .ok (a, n) → n ≤ s.length := by
      intro a n h
      rw [hp hlimit] at h
      split at h
      · cases hresult : f (s.take width) with
        | error fault => rw [hresult] at h; exact nomatch h
        | ok a' => rw [hresult] at h; cases h; assumption
      · exact nomatch h
    rw [parse_eq p hlimit hle, hp hlimit]
    split
    · cases f (s.take width) <;> rfl
    · rfl
  constructor
  · intro pre b rest a hlimit h
    obtain ⟨rfl, hb⟩ := h
    rw [hrun hlimit, if_pos (by simp), List.take_left, hb]
    rfl
  · intro pre s a next hlimit h
    rw [hrun hlimit] at h
    split at h
    · rename_i hle
      cases hresult : f (s.take width) with
      | error fault => rw [hresult] at h; exact nomatch h
      | ok a' =>
        rw [hresult] at h
        cases h
        have hlength : (s.take width).length = width := List.length_take_of_le hle
        exact ⟨s.take width, s.drop width, (List.take_append_drop _ _).symm, ⟨hlength, hresult⟩, by
          rw [hlength]⟩
    · exact nomatch h
  · intro pre s hlimit
    rw [hrun hlimit]
    refine iff_of_false ?_ id
    split
    · have hne := hf (s.take width) (List.length_take_of_le ‹_›)
      cases hresult : f (s.take width) with
      | error fault =>
        rintro ⟨⟩
        exact hne hresult
      | ok a => exact fun h => nomatch h
    · exact fun h => nomatch h

private theorem parseInt_append (hwidth : width ≤ 80) (hlimit : (pre ++ s).length < sliceBound) :
    parseInt width (pre ++ s) pre.length =
      if width ≤ s.length then .ok (s.take width, width) else .error (.error .endOfFile) := by
  have hplus : plus pre.length width = .ok (pre.length + width) :=
    plus_append hlimit (by unfold sliceBound; omega)
  change (plus pre.length width >>= _) = _
  rw [hplus]
  change (if pre.length + width > (pre ++ s).length then _ else
    getRange (pre ++ s) pre.length (pre.length + width) >>= _) = _
  rw [getRange_append, List.length_append]
  by_cases h : width ≤ s.length
  · rw [if_pos h, if_pos h, if_neg (by omega)]
    rfl
  · rw [if_neg h, if_neg h, if_pos (by omega)]

private theorem describes_parseInt (f : List UInt8 → α) (hwidth : width ≤ 80) :
    Describes sliceBound (parse (Parsable.map f (parseInt width)))
      (wordGrammar width fun b => .ok (f b)) := by
  refine describes_word (fun _ _ h => nomatch h) fun {pre s} hlimit => ?_
  change (parseInt width (pre ++ s) pre.length >>= _) = _
  rw [parseInt_append hwidth hlimit]
  split <;> rfl

private theorem describes_parseH256Le :
    Describes sliceBound (parse parseH256Le)
      (wordGrammar 32 fun b => .ok (H256Le.fromBytesLe b)) := by
  refine describes_word (fun _ _ h => nomatch h) fun {pre s} hlimit => ?_
  have hplus : plus pre.length 32 = .ok (pre.length + 32) :=
    plus_append hlimit (by unfold sliceBound; omega)
  change (plus pre.length 32 >>= _) = _
  rw [hplus]
  change (getRange (pre ++ s) pre.length (pre.length + 32) >>= _) = _
  rw [getRange_append]
  split <;> rfl

/-- The target that four bytes stand for. -/
def readTarget (bytes : List UInt8) : Except Halt ℕ :=
  match setCompact (fromLeBytes bytes) with
  | some compact => .ok compact
  | none => .error (.error .invalidCompact)

private theorem readTarget_ne_panic (bytes : List UInt8) : readTarget bytes ≠ .error .panic := by
  unfold readTarget
  split <;> exact fun h => nomatch h

/-- A target is four bytes in compact form. -/
theorem describes_parseTarget :
    Describes sliceBound (parse parseTarget) (wordGrammar 4 readTarget) := by
  refine describes_word (fun b _ => readTarget_ne_panic b) fun {pre s} hlimit => ?_
  have hplus : plus pre.length 4 = .ok (pre.length + 4) :=
    plus_append hlimit (by unfold sliceBound; omega)
  change (plus pre.length 4 >>= _) = _
  rw [hplus]
  change (if pre.length + 4 > (pre ++ s).length then _ else
    getRange (pre ++ s) pre.length (pre.length + 4) >>= _) = _
  rw [getRange_append, List.length_append, readTarget]
  by_cases h : 4 ≤ s.length
  · rw [if_pos h, if_neg (by omega), if_pos h]
    change (match setCompact (fromLeBytes (s.take 4)) with
      | some compact => _
      | none => _) = _
    cases setCompact (fromLeBytes (s.take 4)) <;> rfl
  · rw [if_neg h, if_neg h, if_pos (by omega)]

/-! ## Parsers of the bytes that are left -/

/-- A parser that looks at nothing but the bytes that are left. -/
theorem describes_relative {q : List UInt8 → Except Halt (α × ℕ)}
    {accepts : List UInt8 → α → Prop} {traps : List UInt8 → Prop}
    (hok : ∀ {s a n}, s.length < sliceBound →
      (q s = .ok (a, n) ↔ ∃ b rest, s = b ++ rest ∧ accepts b a ∧ n = b.length))
    (htrap : ∀ {s}, s.length < sliceBound → (q s = .error .panic ↔ traps s)) :
    Describes sliceBound (parse fun rawBytes position => do q (← getFrom rawBytes position))
      ⟨accepts, fun _ s => traps s⟩ := by
  have hrun : ∀ {pre s : List UInt8}, (pre ++ s).length < sliceBound →
      parse (fun rawBytes position => do q (← getFrom rawBytes position)) (pre ++ s) pre.length =
        (q s).map fun result => (result.1, pre.length + result.2) := by
    intro pre s hlimit
    have hq : (getFrom (pre ++ s) pre.length >>= q) = q s := by
      rw [getFrom_append]
      rfl
    refine (parse_eq _ hlimit fun a n h => ?_).trans (congrArg _ hq)
    obtain ⟨b, rest, rfl, -, rfl⟩ :=
      (hok (by rw [List.length_append] at hlimit; omega)).mp (hq.symm.trans h)
    simp
  constructor
  · intro pre b rest a hlimit h
    rw [hrun hlimit, (hok (by rw [List.length_append] at hlimit; omega)).mpr
      ⟨b, rest, rfl, h, rfl⟩]
    rfl
  · intro pre s a next hlimit h
    rw [hrun hlimit] at h
    cases hresult : q s with
    | error fault => rw [hresult] at h; exact nomatch h
    | ok result =>
      rw [hresult] at h
      cases h
      obtain ⟨b, rest, hs, hb, hn⟩ :=
        (hok (by rw [List.length_append] at hlimit; omega)).mp hresult
      exact ⟨b, rest, hs, hb, by rw [hn]⟩
  · intro pre s hlimit
    rw [hrun hlimit]
    change _ ↔ traps s
    rw [← htrap (by rw [List.length_append] at hlimit; omega)]
    cases q s with
    | error fault => exact Iff.rfl
    | ok result => exact iff_of_false (fun h => nomatch h) (fun h => nomatch h)

/-- A parser on a slice reads what its grammar accepts of the rest. -/
theorem describes_sliced {p : BytesParser α} {G : Grammar UInt8 α}
    (hp : Describes sliceBound p G) : Describes sliceBound (parse (sliced p)) G.sliced := by
  refine @describes_relative α (fun slice => p slice 0) G.accepts (G.traps 0) ?_ ?_
  · intro s a n hlimit
    constructor
    · intro h
      obtain ⟨b, rest, hs, hb, hn⟩ := hp.accepted [] hlimit h
      exact ⟨b, rest, hs, hb, by simpa using hn⟩
    · rintro ⟨b, rest, rfl, hb, rfl⟩
      simpa using hp.accept [] rest hlimit hb
  · intro s hlimit
    exact hp.trap [] hlimit

/-! ## Compact integers -/

/-- The ways to write a compact integer. -/
inductive CompactBytes : List UInt8 → ℕ → Prop
  | byte (b : UInt8) : b.toNat < 0xfd → CompactBytes [b] b.toNat
  | word (w : List UInt8) : w.length = 2 → CompactBytes (0xfd :: w) (fromLeBytes w)
  | doubleWord (w : List UInt8) : w.length = 4 → CompactBytes (0xfe :: w) (fromLeBytes w)
  | quadWord (w : List UInt8) : w.length = 8 → CompactBytes (0xff :: w) (fromLeBytes w)

private theorem CompactBytes.lt (h : CompactBytes bytes n) : n < 2 ^ 64 := by
  cases h with
  | byte b hb => omega
  | word w hw => exact (fromLeBytes_lt w).trans_le (by rw [hw]; decide)
  | doubleWord w hw => exact (fromLeBytes_lt w).trans_le (by rw [hw]; decide)
  | quadWord w hw => exact (fromLeBytes_lt w).trans_le (by rw [hw]; decide)

private theorem CompactBytes.length_pos (h : CompactBytes bytes n) : 0 < bytes.length := by
  cases h <;> exact Nat.succ_pos _

/-- A length takes nine bytes at most. -/
theorem CompactBytes.length_le (h : CompactBytes bytes n) : bytes.length ≤ 9 := by
  cases h with
  | byte b hb => exact Nat.succ_le_succ (Nat.zero_le 8)
  | word w hw | doubleWord w hw | quadWord w hw => rw [List.length_cons]; omega

private theorem compactBytes_cons {first : UInt8} {w : List UInt8} :
    CompactBytes (first :: w) n ↔
      if first = 0xfd then w.length = 2 ∧ n = fromLeBytes w
      else if first = 0xfe then w.length = 4 ∧ n = fromLeBytes w
      else if first = 0xff then w.length = 8 ∧ n = fromLeBytes w
      else w = [] ∧ n = first.toNat := by
  constructor
  · intro h
    cases h with
    | byte b hb =>
      have hne : ∀ m : UInt8, 0xfd ≤ m.toNat → first ≠ m := by
        rintro m hm rfl
        omega
      rw [if_neg (hne _ (by decide)), if_neg (hne _ (by decide)), if_neg (hne _ (by decide))]
      exact ⟨rfl, rfl⟩
    | word w hw => exact ⟨hw, rfl⟩
    | doubleWord w hw => exact ⟨hw, rfl⟩
    | quadWord w hw => exact ⟨hw, rfl⟩
  · intro h
    split at h
    · obtain ⟨hw, rfl⟩ := h
      subst first
      exact .word w hw
    split at h
    · obtain ⟨hw, rfl⟩ := h
      subst first
      exact .doubleWord w hw
    split at h
    · obtain ⟨hw, rfl⟩ := h
      subst first
      exact .quadWord w hw
    · obtain ⟨rfl, rfl⟩ := h
      refine .byte first ?_
      have hlt : first.toNat < 256 := first.toNat_lt
      rename_i h₁ h₂ h₃
      rw [← UInt8.toNat_inj] at h₁ h₂ h₃
      change ¬ first.toNat = 253 at h₁
      change ¬ first.toNat = 254 at h₂
      change ¬ first.toNat = 255 at h₃
      omega

/-- A compact integer is known by its first byte, so it is read in one way only. -/
theorem CompactBytes.unique {b b' rest rest' : List UInt8} {n' : ℕ} (h : CompactBytes b n)
    (h' : CompactBytes b' n') (heq : b ++ rest = b' ++ rest') : b = b' ∧ n = n' ∧ rest = rest' := by
  cases b with
  | nil => exact absurd h.length_pos (lt_irrefl _)
  | cons first w =>
    cases b' with
    | nil => exact absurd h'.length_pos (lt_irrefl _)
    | cons first' w' =>
      obtain ⟨rfl, htail⟩ := List.cons.inj heq
      rw [compactBytes_cons] at h h'
      have hlength : w.length = w'.length ∧ (w = w' → n = n') := by
        split at h
        · rw [if_pos ‹_›] at h'
          exact ⟨h.1.trans h'.1.symm, fun hw => by rw [h.2, h'.2, hw]⟩
        rw [if_neg ‹_›] at h'
        split at h
        · rw [if_pos ‹_›] at h'
          exact ⟨h.1.trans h'.1.symm, fun hw => by rw [h.2, h'.2, hw]⟩
        rw [if_neg ‹_›] at h'
        split at h
        · rw [if_pos ‹_›] at h'
          exact ⟨h.1.trans h'.1.symm, fun hw => by rw [h.2, h'.2, hw]⟩
        rw [if_neg ‹_›] at h'
        exact ⟨by rw [h.1, h'.1], fun _ => h.2.trans h'.2.symm⟩
      obtain ⟨rfl, rfl⟩ := List.append_inj htail hlength.1
      exact ⟨rfl, hlength.2 rfl, rfl⟩

/-- The number that follows the first byte. -/
private theorem readWord (first : UInt8) (tail : List UInt8) (k : ℕ) :
    (do
      let numBytes ← getRange (first :: tail) 1 (1 + k)
      .ok (UInt64.ofNat (fromLeBytes numBytes), 1 + k) : Except Halt (UInt64 × ℕ)) =
      if k ≤ tail.length then .ok (UInt64.ofNat (fromLeBytes (tail.take k)), 1 + k)
      else .error (.error .endOfFile) := by
  have hrange : getRange (first :: tail) 1 (1 + k) =
      if k ≤ tail.length then .ok (tail.take k) else .error (.error .endOfFile) :=
    getRange_append [first] tail k
  rw [hrange]
  split <;> rfl

private theorem readWord_eq_ok {first : UInt8} {tail : List UInt8} {k : ℕ} {v : UInt64}
    (hk : 256 ^ k ≤ 2 ^ 64) (hbytes : ∀ w, CompactBytes (first :: w) v.toNat ↔
      w.length = k ∧ v.toNat = fromLeBytes w) :
    (if k ≤ tail.length then .ok (UInt64.ofNat (fromLeBytes (tail.take k)), 1 + k)
      else .error (.error .endOfFile) : Except Halt (UInt64 × ℕ)) = .ok (v, n) ↔
      ∃ b rest, first :: tail = b ++ rest ∧ CompactBytes b v.toNat ∧ n = b.length := by
  constructor
  · intro h
    split at h
    · rename_i hle
      cases h
      have hlength : (tail.take k).length = k := List.length_take_of_le hle
      have hlt : fromLeBytes (tail.take k) < 2 ^ 64 :=
        (fromLeBytes_lt _).trans_le (by rw [hlength]; exact hk)
      refine ⟨first :: tail.take k, tail.drop k, by rw [List.cons_append, List.take_append_drop],
        (hbytes _).mpr ⟨hlength, ?_⟩, by rw [List.length_cons, hlength, Nat.add_comm]⟩
      rw [UInt64.toNat_ofNat', Nat.mod_eq_of_lt hlt]
    · exact nomatch h
  · rintro ⟨b, rest, hs, hb, rfl⟩
    cases b with
    | nil => exact absurd hb.length_pos (lt_irrefl _)
    | cons first' w =>
      obtain ⟨rfl, htail⟩ := List.cons.inj hs
      obtain ⟨rfl, hv⟩ := (hbytes w).mp hb
      change tail = w ++ rest at htail
      rw [htail, if_pos (by simp), List.take_left, ← hv, UInt64.ofNat_toNat, List.length_cons,
        Nat.add_comm]

/-- A length is read from its bytes. -/
theorem parseCompactUint_eq_ok {v : UInt64} :
    parseCompactUint s = .ok (v, n) ↔
      ∃ b rest, s = b ++ rest ∧ CompactBytes b v.toNat ∧ n = b.length := by
  cases s with
  | nil =>
    refine iff_of_false (fun h => nomatch h) ?_
    rintro ⟨b, rest, hs, hb, -⟩
    rw [(List.append_eq_nil_iff.mp hs.symm).1] at hb
    exact absurd hb.length_pos (lt_irrefl _)
  | cons first tail =>
    unfold parseCompactUint
    have hcons := fun w : List UInt8 => @compactBytes_cons v.toNat first w
    by_cases hword : first = 0xfd
    · simp only [hword, if_true] at hcons ⊢
      exact (Eq.congr_left (readWord 0xfd tail 2)).trans (readWord_eq_ok (by decide) hcons)
    by_cases hdouble : first = 0xfe
    · simp only [hdouble, if_true] at hcons ⊢
      exact (Eq.congr_left (readWord 0xfe tail 4)).trans (readWord_eq_ok (by decide) hcons)
    by_cases hquad : first = 0xff
    · simp only [hquad, if_true] at hcons ⊢
      exact (Eq.congr_left (readWord 0xff tail 8)).trans (readWord_eq_ok (by decide) hcons)
    · simp only [hword, hdouble, hquad, if_false] at hcons ⊢
      have hsmall : first.toNat < 2 ^ 64 := first.toNat_lt.trans (by decide)
      constructor
      · intro h
        cases h
        refine ⟨[first], tail, rfl, (hcons []).mpr ⟨rfl, ?_⟩, rfl⟩
        rw [UInt64.toNat_ofNat', Nat.mod_eq_of_lt hsmall]
      · rintro ⟨b, rest, hs, hb, rfl⟩
        cases b with
        | nil => exact absurd hb.length_pos (lt_irrefl _)
        | cons first' w =>
          obtain ⟨rfl, rfl⟩ := List.cons.inj hs
          obtain ⟨rfl, hv⟩ := (hcons w).mp hb
          rw [← hv, UInt64.ofNat_toNat]
          rfl

private theorem parseCompactUint_ne_panic : parseCompactUint s ≠ .error .panic := by
  cases s with
  | nil => exact fun h => nomatch h
  | cons first tail =>
    have hword : ∀ k, (do
        let numBytes ← getRange (first :: tail) 1 (1 + k)
        .ok (UInt64.ofNat (fromLeBytes numBytes), 1 + k) : Except Halt (UInt64 × ℕ)) ≠
          .error .panic := by
      intro k h
      rw [readWord] at h
      split at h <;> exact nomatch h
    unfold parseCompactUint
    simp only
    split
    · exact hword 2
    split
    · exact hword 4
    split
    · exact hword 8
    · exact fun h => nomatch h

/-- A length is read from any of its forms. -/
theorem describes_parseCompactUint :
    Describes sliceBound (parse CompactUint.parse)
      ⟨fun b n => CompactBytes b n.value.toNat, fun _ _ => False⟩ := by
  refine @describes_relative CompactUint
    (fun varint => (fun r => (⟨r.1⟩, r.2)) <$> parseCompactUint varint)
    (fun b n => CompactBytes b n.value.toNat) (fun _ => False) ?_ ?_
  · rintro s ⟨v⟩ n -
    rw [← parseCompactUint_eq_ok]
    cases parseCompactUint s with
    | error fault => exact iff_of_false (by rintro ⟨⟩) (by rintro ⟨⟩)
    | ok result =>
      obtain ⟨value, bytesConsumed⟩ := result
      constructor
      · intro h
        cases h
        rfl
      · intro h
        cases h
        rfl
  · intro s _
    refine iff_of_false ?_ id
    have hpanic := parseCompactUint_ne_panic (s := s)
    cases hresult : parseCompactUint s with
    | error fault =>
      rintro ⟨⟩
      exact hpanic hresult
    | ok result => rintro ⟨⟩

/-- What stands for a number is read as one. -/
theorem exists_compactUint (h : CompactBytes bytes n) :
    ∃ count : CompactUint, count.value.toNat = n ∧ CompactBytes bytes count.value.toNat := by
  have hvalue : (UInt64.ofNat n).toNat = n := by rw [UInt64.toNat_ofNat', Nat.mod_eq_of_lt h.lt]
  exact ⟨⟨.ofNat n⟩, hvalue, hvalue.symm ▸ h⟩

/-! ## Numbers and hashes -/

private theorem describes_exact {p : BytesParser α} {f : List UInt8 → α} {format : α → List UInt8}
    (hp : Describes sliceBound p (wordGrammar width fun b => .ok (f b)))
    (hlength : ∀ a, (format a).length = width) (hformat : ∀ b, b.length = width → format (f b) = b)
    (hf : ∀ a, f (format a) = a) : Describes sliceBound p (.exact format) := by
  refine hp.congr (fun b a => ?_) fun _ _ => Iff.rfl
  constructor
  · rintro ⟨hb, ⟨⟩⟩
    exact (hformat b hb).symm
  · rintro rfl
    exact ⟨hlength a, congrArg _ (hf a)⟩

/-- A byte is read. -/
theorem describes_parseU8 : Describes sliceBound (parse parseU8) (.exact fun v => [v]) := by
  refine describes_exact (describes_parseInt _ (by decide)) (fun _ => rfl) (fun b hb => ?_) fun v => ?_
  · obtain ⟨v, rfl⟩ := List.length_eq_one_iff.mp hb
    rw [fromLeBytes_cons, fromLeBytes_nil, Nat.mul_zero, Nat.add_zero, UInt8.ofNat_toNat]
  · rw [fromLeBytes_cons, fromLeBytes_nil, Nat.mul_zero, Nat.add_zero, UInt8.ofNat_toNat]

/-- Four bytes are read as a number. -/
theorem describes_parseU32 :
    Describes sliceBound (parse parseU32) (.exact fun v => toLeBytes 4 v.toNat) := by
  refine describes_exact (describes_parseInt _ (by decide)) (fun _ => length_toLeBytes _ _)
    (fun b hb => ?_) fun v => ?_
  · have hlt : fromLeBytes b < 2 ^ 32 := (fromLeBytes_lt b).trans_le (by rw [hb]; decide)
    rw [UInt32.toNat_ofNat', Nat.mod_eq_of_lt hlt, toLeBytes_fromLeBytes hb]
  · rw [fromLeBytes_toLeBytes (v.toNat_lt.trans_le (by decide)), UInt32.ofNat_toNat]

/-- Bytes as a signed number, and the number as bytes. -/
private theorem intToLeBytes_bmod {b : List UInt8} (hb : b.length = width) :
    intToLeBytes width ((fromLeBytes b : ℤ).bmod (256 ^ width)) = b := by
  have hlt : fromLeBytes b < 256 ^ width := hb ▸ fromLeBytes_lt b
  have hcast : ((256 ^ width : ℕ) : ℤ) = 256 ^ width := by
    rw [Int.natCast_pow]
    rfl
  have hvalue : ((fromLeBytes b : ℤ).bmod (256 ^ width) % 256 ^ width).toNat = fromLeBytes b := by
    rw [← hcast, Int.bmod_emod, ← Int.natCast_emod, Int.toNat_natCast, Nat.mod_eq_of_lt hlt]
  rw [intToLeBytes, hvalue, toLeBytes_fromLeBytes hb]

private theorem bmod_fromLeBytes (z : ℤ) :
    (fromLeBytes (intToLeBytes width z) : ℤ).bmod (256 ^ width) = z.bmod (256 ^ width) := by
  have hcast : ((256 ^ width : ℕ) : ℤ) = 256 ^ width := by
    rw [Int.natCast_pow]
    rfl
  have hpos : (0 : ℤ) < (256 ^ width : ℕ) := Int.natCast_pos.mpr (Nat.pow_pos (by decide))
  have hnonneg : 0 ≤ z % (256 ^ width : ℕ) := Int.emod_nonneg _ hpos.ne'
  have hlt : (z % (256 ^ width : ℕ)).toNat < 256 ^ width := by
    rw [Int.toNat_lt hnonneg]
    exact Int.emod_lt_of_pos z hpos
  rw [intToLeBytes, ← hcast, fromLeBytes_toLeBytes hlt, Int.toNat_of_nonneg hnonneg,
    Int.emod_bmod]

/-- Four bytes are read as a signed number. -/
theorem describes_parseI32 :
    Describes sliceBound (parse parseI32) (.exact fun v => intToLeBytes 4 v.toInt) := by
  refine describes_exact (describes_parseInt _ (by decide)) (fun _ => length_intToLeBytes _ _)
    (fun b hb => ?_) fun v => ?_
  · rw [Int32.toInt_ofNat']
    exact intToLeBytes_bmod hb
  · rw [← Int32.toInt_inj, Int32.toInt_ofNat']
    exact (@bmod_fromLeBytes 4 v.toInt).trans (Int32.toInt_bmod v)

/-- Eight bytes are read as a signed number. -/
theorem describes_parseI64 :
    Describes sliceBound (parse parseI64) (.exact fun v => intToLeBytes 8 v.toInt) := by
  refine describes_exact (describes_parseInt _ (by decide)) (fun _ => length_intToLeBytes _ _)
    (fun b hb => ?_) fun v => ?_
  · rw [Int64.toInt_ofNat']
    exact intToLeBytes_bmod hb
  · rw [← Int64.toInt_inj, Int64.toInt_ofNat']
    exact (@bmod_fromLeBytes 8 v.toInt).trans (Int64.toInt_bmod v)

/-- A hash is 32 bytes. -/
theorem describes_hash : Describes sliceBound (parse parseH256Le) (.exact H256Le.toBytesLe) := by
  have hfrom : ∀ b : List UInt8, b.length = 32 → (H256Le.fromBytesLe b).toBytesLe = b :=
    fun b hb => toLeBytes_fromLeBytes hb
  exact describes_exact describes_parseH256Le H256Le.length_toBytesLe hfrom fun h =>
    H256Le.toBytesLe_injective (hfrom _ h.length_toBytesLe)

end Interbtc
