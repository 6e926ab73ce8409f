import Interbtc.Oracle.Pallet

/-!
# The aggregates are medians

Between two blocks the aggregate of a key is the median of its fresh values, unless its values
have changed, until the time up to which it is valid. A block updates what has changed or is no
longer valid, so after it all aggregates are medians, as long as the arithmetic does not fail.
-/

namespace Interbtc.Oracle

open Core

/-! ## Medians -/

/-- The mean of the two values in the middle can be computed. -/
def MiddleFits (values : List FixedU128) : Prop :=
  values.length % 2 = 1 ∨ (lowerMiddle (values.map FixedU128.inner)).getD 0 +
    (upperMiddle (values.map FixedU128.inner)).getD 0 ≤ maxBalance

instance (values : List FixedU128) : Decidable (MiddleFits values) :=
  inferInstanceAs (Decidable (_ ∨ _))

private theorem MiddleFits.sum_le {values : List FixedU128} {a b : ℕ} (h : MiddleFits values)
    (heven : values.length % 2 = 0) (ha : lowerMiddle (values.map FixedU128.inner) = some a)
    (hb : upperMiddle (values.map FixedU128.inner) = some b) : a + b ≤ maxBalance := by
  unfold MiddleFits at h
  rw [ha, hb, Option.getD_some, Option.getD_some] at h
  exact h.resolve_left (heven.trans_ne zero_ne_one)

private theorem sorted_inner (values : List FixedU128) :
    (values.insertionSort fun a b => a.inner ≤ b.inner).map FixedU128.inner =
      (values.map FixedU128.inner).insertionSort (· ≤ ·) :=
  List.map_insertionSort _ _ _ _ fun _ _ _ _ => Iff.rfl

private theorem checkedDiv_two {two : FixedU128} (htwo : two.inner = 2 * FixedU128.DIV)
    (a : FixedU128) :
    (a.checkedDiv two).map FixedU128.inner = some (a.inner / 2) := by
  have hpos : 2 * FixedU128.DIV ≠ 0 := (Nat.mul_pos Nat.two_pos FixedU128.DIV_pos).ne'
  have hle : a.inner / 2 ≤ maxBalance := (Nat.div_le_self _ _).trans a.upper
  have hdiv : a.checkedDiv two = some ⟨a.inner / 2, hle⟩ := by
    rw [FixedU128.checkedDiv_eq_some, htwo, Nat.mul_div_mul_right _ _ FixedU128.DIV_pos]
    exact ⟨hpos, rfl⟩
  rw [hdiv, Option.map_some]

private theorem half_sum {two a b : FixedU128} (htwo : two.inner = 2 * FixedU128.DIV)
    (h : a.inner + b.inner ≤ maxBalance) :
    ((a.checkedAdd b).bind fun sum => sum.checkedDiv two).map FixedU128.inner =
      some ((a.inner + b.inner) / 2) := by
  obtain ⟨c, hc, hadd⟩ : ∃ c : FixedU128, c.inner = a.inner + b.inner ∧ a.checkedAdd b = some c :=
    ⟨⟨_, h⟩, rfl, FixedU128.checkedAdd_eq_some.mpr rfl⟩
  rw [hadd, Option.bind_some, checkedDiv_two htwo, hc]

/-- Where the arithmetic does not fail, the median is the one of the stored integers. -/
theorem median_inner {values : List FixedU128} (h : MiddleFits values) :
    (median values).map FixedU128.inner = medianOf (values.map FixedU128.inner) := by
  have hlower : (values.insertionSort fun a b => a.inner ≤ b.inner)[(values.length - 1) / 2]?.map
      FixedU128.inner = lowerMiddle (values.map FixedU128.inner) := by
    rw [lowerMiddle, ← sorted_inner, List.getElem?_map, List.length_map]
  have hupper : (values.insertionSort fun a b => a.inner ≤ b.inner)[values.length / 2]?.map
      FixedU128.inner = upperMiddle (values.map FixedU128.inner) := by
    rw [upperMiddle, ← sorted_inner, List.getElem?_map, List.length_map]
  have htwo : (FixedU128.saturatingFromInteger 2).inner = 2 * FixedU128.DIV :=
    Nat.min_eq_left (by decide)
  unfold median
  generalize FixedU128.saturatingFromInteger 2 = two at htwo ⊢
  rcases Nat.eq_zero_or_pos values.length with hzero | hpos
  · rw [if_pos hzero, List.length_eq_zero_iff.mp hzero]
    rfl
  rw [if_neg hpos.ne']
  rcases Nat.mod_two_eq_zero_or_one values.length with heven | hodd
  · have hindex : values.length / 2 - 1 = (values.length - 1) / 2 := by omega
    rw [if_pos heven, hindex, medianOf]
    cases ha : (values.insertionSort fun a b => a.inner ≤ b.inner)[(values.length - 1) / 2]? with
    | none =>
      rw [← hlower, ha]
      rfl
    | some a =>
      rw [ha, Option.map_some] at hlower
      cases hb : (values.insertionSort fun a b => a.inner ≤ b.inner)[values.length / 2]? with
      | none =>
        rw [← hlower, ← hupper, hb]
        rfl
      | some b =>
        rw [hb, Option.map_some] at hupper
        rw [← hlower, ← hupper]
        rw [Option.bind_eq_bind, Option.bind_some, Option.bind_some]
        exact half_sum htwo (h.sum_le heven hlower.symm hupper.symm)
  · have hzero : values.length % 2 ≠ 0 := hodd.trans_ne one_ne_zero
    have hlength : (values.map FixedU128.inner).length % 2 = 1 := by rwa [List.length_map]
    rw [if_neg hzero, hupper, medianOf_odd hlength, upperMiddle_eq_lowerMiddle hlength]

/-! ## What is kept of a key -/

variable {AccountId CurrencyId : Type} [LinearOrder AccountId] [LinearOrder CurrencyId]
  {s s' : Oracle AccountId CurrencyId} {key k : OracleKey CurrencyId}

/-- The aggregate of a key is the median of its fresh values. -/
def AtMedian (s : Oracle AccountId CurrencyId) (key : OracleKey CurrencyId) : Prop :=
  (s.aggregate key).map FixedU128.inner =
    medianOf ((s.freshValues key).map fun v => v.value.inner)

instance (s : Oracle AccountId CurrencyId) (key : OracleKey CurrencyId) :
    Decidable (s.AtMedian key) :=
  inferInstanceAs (Decidable (_ = _))

/-- The aggregate of a key stays the median of its fresh values while it is valid. -/
def Current (s : Oracle AccountId CurrencyId) (key : OracleKey CurrencyId) : Prop :=
  ∀ t, s.now ≤ t → { s with now := t }.isOutdated key = false → { s with now := t }.AtMedian key

/-- A key that has to be updated is known, and any other key is current. -/
structure Tracked (s : Oracle AccountId CurrencyId) (key : OracleKey CurrencyId) : Prop where
  current : s.rawValuesUpdated.lookup key ≠ some true → s.Current key
  known : s.rawValuesUpdated.lookup key = none → s.validUntil key = none

/-- Two states have the same about a key. -/
structure Agree (s s' : Oracle AccountId CurrencyId) (key : OracleKey CurrencyId) : Prop where
  now : s'.now = s.now
  maxDelay : s'.maxDelay = s.maxDelay
  aggregate : s'.aggregate key = s.aggregate key
  rawValues : s'.rawValues key = s.rawValues key
  updated : s'.rawValuesUpdated.lookup key = s.rawValuesUpdated.lookup key
  validUntil : s'.validUntil key = s.validUntil key

namespace Agree

private theorem refl (s : Oracle AccountId CurrencyId) (key : OracleKey CurrencyId) : Agree s s
    key :=
  ⟨rfl, rfl, rfl, rfl, rfl, rfl⟩

private theorem trans {s₁ s₂ s₃ : Oracle AccountId CurrencyId} (h : Agree s₁ s₂ key)
    (h' : Agree s₂ s₃ key) : Agree s₁ s₃ key where
  now := h'.now.trans h.now
  maxDelay := h'.maxDelay.trans h.maxDelay
  aggregate := h'.aggregate.trans h.aggregate
  rawValues := h'.rawValues.trans h.rawValues
  updated := h'.updated.trans h.updated
  validUntil := h'.validUntil.trans h.validUntil

private theorem freshValues (h : Agree s s' key) : s'.freshValues key = s.freshValues key := by
  unfold Oracle.freshValues
  rw [h.now, h.maxDelay, h.rawValues]

private theorem isOutdated (h : Agree s s' key) : s'.isOutdated key = s.isOutdated key := by
  unfold Oracle.isOutdated
  rw [h.now, h.validUntil]

private theorem atMedian (h : Agree s s' key) (hs : s.AtMedian key) : s'.AtMedian key := by
  unfold AtMedian
  rw [h.aggregate, h.freshValues]
  exact hs

private theorem later (h : Agree s s' key) (t : ℕ) : Agree { s with now := t } { s' with now := t }
    key :=
  { h with now := rfl }

private theorem current (h : Agree s s' key) (hs : s.Current key) : s'.Current key := by
  intro t ht hvalid
  rw [(h.later t).isOutdated] at hvalid
  exact (h.later t).atMedian (hs t (h.now ▸ ht) hvalid)

private theorem tracked (h : Agree s s' key) (hs : s.Tracked key) : s'.Tracked key where
  current hupdated := h.current (hs.current (h.updated ▸ hupdated))
  known hnone := h.validUntil.trans (hs.known (h.updated ▸ hnone))

end Agree

/-! ## Updates -/

private theorem updateAggregate_agree (h : key ≠ k) : Agree s (s.updateAggregate k) key := by
  have hflag : (s.rawValuesUpdated.insert k false).lookup key = s.rawValuesUpdated.lookup key := by
    rw [OrderedMap.lookup_insert, if_neg h]
  unfold updateAggregate
  dsimp only
  split
  · exact ⟨rfl, rfl, Function.update_of_ne h _ _, rfl, hflag, Function.update_of_ne h _ _⟩
  · split
    · exact ⟨rfl, rfl, rfl, rfl, hflag, rfl⟩
    · exact ⟨rfl, rfl, Function.update_of_ne h _ _, rfl, hflag, Function.update_of_ne h _ _⟩

/-- Updating an aggregate keeps the delay. -/
@[simp] theorem updateAggregate_maxDelay : (s.updateAggregate k).maxDelay = s.maxDelay := by
  unfold updateAggregate
  dsimp only
  split
  · rfl
  · split <;> rfl

/-- Updating an aggregate clears its flag. -/
@[simp] theorem updateAggregate_lookup :
    (s.updateAggregate k).rawValuesUpdated.lookup k = some false := by
  have hflag : (s.rawValuesUpdated.insert k false).lookup k = some false := by
    rw [OrderedMap.lookup_insert, if_pos rfl]
  unfold updateAggregate
  dsimp only
  split
  · exact hflag
  · split
    · exact hflag
    · exact hflag

/-- Updating an aggregate keeps the values that count. -/
@[simp] theorem updateAggregate_freshValues :
    (s.updateAggregate k).freshValues key = s.freshValues key := by
  unfold updateAggregate
  dsimp only
  split
  · rfl
  · split <;> rfl

/-- Of the values that are fresh, some may be too old later. -/
theorem freshValues_later {t : ℕ} (ht : s.now ≤ t) :
    { s with now := t }.freshValues key =
      (s.freshValues key).filter fun v => t - s.maxDelay ≤ v.timestamp := by
  unfold freshValues
  rw [List.filter_filter]
  refine List.filter_congr fun v _ => ?_
  have hle : s.now - s.maxDelay ≤ t - s.maxDelay := Nat.sub_le_sub_right ht _
  by_cases hv : t - s.maxDelay ≤ v.timestamp
  · simp only [hv, hle.trans hv, decide_true, Bool.and_true]
  · simp only [hv, decide_false, Bool.false_and]

/-- An update that does not fail either finds no fresh values, or stores their median. -/
theorem updateAggregate_cases
    (hfits : MiddleFits ((s.freshValues k).map TimestampedValue.value)) :
    (s.freshValues k = [] ∧ (s.updateAggregate k).aggregate k = none ∧
      (s.updateAggregate k).validUntil k = none) ∨
    ∃ value oldest, median ((s.freshValues k).map TimestampedValue.value) = some value ∧
      ((s.freshValues k).map TimestampedValue.timestamp).min? = some oldest ∧
      (s.updateAggregate k).aggregate k = some value ∧
      (s.updateAggregate k).validUntil k = some (validFor s.maxDelay oldest) := by
  have hmedian := median_inner hfits
  cases hmin : ((s.freshValues k).map TimestampedValue.timestamp).min? with
  | none =>
    have hnil : s.freshValues k = [] := List.map_eq_nil_iff.mp (List.min?_eq_none_iff.mp hmin)
    have hstate : s.updateAggregate k =
        { s with
          rawValuesUpdated := s.rawValuesUpdated.insert k false
          aggregate := Function.update s.aggregate k none
          validUntil := Function.update s.validUntil k none } := by
      unfold updateAggregate
      dsimp only
      split
      · rfl
      · next h => exact absurd (hmin.symm.trans h) nofun
    rw [hstate]
    exact .inl ⟨hnil, Function.update_self .., Function.update_self ..⟩
  | some oldest =>
    cases hvalue : median ((s.freshValues k).map TimestampedValue.value) with
    | none =>
      rw [hvalue, Option.map_none, eq_comm, medianOf_eq_none, List.map_eq_nil_iff,
        List.map_eq_nil_iff] at hmedian
      rw [hmedian] at hmin
      cases hmin
    | some value =>
      have hstate : s.updateAggregate k =
          { s with
            rawValuesUpdated := s.rawValuesUpdated.insert k false
            aggregate := Function.update s.aggregate k (some value)
            validUntil := Function.update s.validUntil k (some (validFor s.maxDelay oldest)) } := by
        unfold updateAggregate
        dsimp only
        split
        · next h => exact absurd (hmin.symm.trans h) nofun
        · next h =>
          cases hmin.symm.trans h
          split
          · next h => exact absurd (hvalue.symm.trans h) nofun
          · next h =>
            cases hvalue.symm.trans h
            rfl
      rw [hstate]
      exact .inr ⟨value, oldest, rfl, rfl, Function.update_self .., Function.update_self ..⟩

/-- A key that need not be updated. -/
structure Settled (s : Oracle AccountId CurrencyId) (key : OracleKey CurrencyId) : Prop where
  atMedian : s.AtMedian key
  current : s.Current key
  known : s.rawValuesUpdated.lookup key = none → s.validUntil key = none

private theorem Settled.tracked (h : s.Settled key) : s.Tracked key := ⟨fun _ => h.current, h.known⟩

private theorem Tracked.settled (h : s.Tracked key)
    (hflag : s.rawValuesUpdated.lookup key ≠ some true)
    (hvalid : s.isOutdated key = false) : s.Settled key where
  atMedian := h.current hflag s.now le_rfl hvalid
  current := h.current hflag
  known := h.known

private theorem Agree.settled (h : Agree s s' key) (hs : s.Settled key) : s'.Settled key where
  atMedian := h.atMedian hs.atMedian
  current := h.current hs.current
  known := (h.tracked hs.tracked).known

private theorem updateAggregate_settled
    (hfits : MiddleFits ((s.freshValues k).map TimestampedValue.value)) :
    (s.updateAggregate k).Settled k := by
  have hknown : (s.updateAggregate k).rawValuesUpdated.lookup k = none →
      (s.updateAggregate k).validUntil k = none := by
    intro h
    rw [updateAggregate_lookup] at h
    cases h
  rcases updateAggregate_cases hfits with ⟨hnil, haggregate, hvalid⟩ |
    ⟨value, oldest, hvalue, holdest, haggregate, hvalid⟩
  · refine ⟨?_, fun t ht _ => ?_, hknown⟩
    · rw [AtMedian, haggregate, updateAggregate_freshValues, hnil]
      rfl
    · rw [AtMedian, freshValues_later ht, updateAggregate_freshValues, hnil]
      exact congrArg _ haggregate
  · have hmedian : (s.updateAggregate k).AtMedian k := by
      rw [AtMedian, haggregate, updateAggregate_freshValues, ← hvalue, median_inner hfits,
        List.map_map]
      rfl
    refine ⟨hmedian, fun t ht hnot => ?_, hknown⟩
    have hle : t ≤ oldest + s.maxDelay := by
      unfold isOutdated at hnot
      dsimp only at hnot
      rw [hvalid] at hnot
      exact (not_lt.mp (of_decide_eq_false hnot)).trans (Nat.mod_le _ _)
    have hfresh : ∀ v ∈ s.freshValues k, t - s.maxDelay ≤ v.timestamp := by
      intro v hv
      have := (List.min?_eq_some_iff.mp holdest).2 _ (List.mem_map_of_mem hv)
      omega
    have hsame : { s.updateAggregate k with now := t }.freshValues k =
        (s.updateAggregate k).freshValues k := by
      rw [freshValues_later ht, updateAggregate_maxDelay, updateAggregate_freshValues]
      exact List.filter_eq_self.mpr fun v hv => decide_eq_true (hfresh v hv)
    rw [AtMedian, hsame]
    exact hmedian

/-! ## Blocks -/

/-- What a block does about a key. -/
def attend (s : Oracle AccountId CurrencyId) (e : OracleKey CurrencyId × Bool) :
    Oracle AccountId CurrencyId :=
  if e.2 = true ∨ s.isOutdated e.1 = true then s.updateAggregate e.1 else s

private theorem attend_agree {e : OracleKey CurrencyId × Bool} (h : e.1 ≠ key) :
    Agree s (s.attend e) key := by
  unfold attend
  split
  · exact updateAggregate_agree h.symm
  · exact .refl s key

private theorem foldl_attend_agree {es : List (OracleKey CurrencyId × Bool)}
    (h : ∀ e ∈ es, e.1 ≠ key) :
    Agree s (es.foldl attend s) key := by
  induction es generalizing s with
  | nil => exact .refl s key
  | cons e es ih =>
    have hhead := attend_agree (s := s) (h e List.mem_cons_self)
    exact hhead.trans (ih fun d hd => h d (List.mem_cons_of_mem e hd))

/-- The keys that are due can be updated. -/
def BlockFits (s : Oracle AccountId CurrencyId) : Prop :=
  ∀ e ∈ s.rawValuesUpdated.entries, (e.2 = true ∨ s.isOutdated e.1 = true) →
    MiddleFits ((s.freshValues e.1).map TimestampedValue.value)

instance (s : Oracle AccountId CurrencyId) : Decidable s.BlockFits :=
  inferInstanceAs (Decidable (∀ e ∈ s.rawValuesUpdated.entries, _ → _))

private theorem attend_settled {b : Bool} (h : s.Tracked key)
    (hflag : s.rawValuesUpdated.lookup key = some b)
    (hfits : b = true ∨ s.isOutdated key = true →
      MiddleFits ((s.freshValues key).map TimestampedValue.value)) :
    (s.attend (key, b)).Settled key := by
  unfold attend
  dsimp only
  by_cases hdue : b = true ∨ s.isOutdated key = true
  · rw [if_pos hdue]
    exact updateAggregate_settled (hfits hdue)
  · rw [if_neg hdue]
    obtain ⟨hb, hvalid⟩ := not_or.mp hdue
    refine h.settled (fun htrue => hb ?_) (Bool.not_eq_true _ ▸ hvalid)
    exact Option.some.inj (hflag.symm.trans htrue)

/-- A block settles every key. -/
theorem beginBlock_settled (h : s.Tracked key) (hfits : s.BlockFits) :
    s.beginBlock.Settled key := by
  cases hflag : s.rawValuesUpdated.lookup key with
  | none =>
    have hother : ∀ e ∈ s.rawValuesUpdated.entries, e.1 ≠ key := by
      rintro e he rfl
      rw [OrderedMap.lookup_of_mem_entries he] at hflag
      cases hflag
    have hvalid : s.isOutdated key = false := by
      unfold isOutdated
      rw [h.known hflag]
    have hsettled := h.settled (by rw [hflag]; exact nofun) hvalid
    exact (foldl_attend_agree hother).settled hsettled
  | some b =>
    have hmem := OrderedMap.mem_entries_of_lookup hflag
    have hfit := hfits _ hmem
    obtain ⟨ds, es, hentries⟩ := List.append_of_mem hmem
    have hsorted := s.rawValuesUpdated.sorted
    rw [hentries, List.pairwise_append, List.pairwise_cons] at hsorted
    obtain ⟨-, ⟨hafter, -⟩, hbefore⟩ := hsorted
    have hfirst : Agree s (ds.foldl attend s) key :=
      foldl_attend_agree fun d hd => (hbefore d hd _ List.mem_cons_self).ne
    have hattend : ((ds.foldl attend s).attend (key, b)).Settled key := by
      refine attend_settled (hfirst.tracked h) (hfirst.updated.trans hflag) ?_
      rw [hfirst.isOutdated, hfirst.freshValues]
      exact hfit
    have hfold : s.beginBlock = es.foldl attend ((ds.foldl attend s).attend (key, b)) := by
      change s.rawValuesUpdated.entries.foldl attend s = _
      rw [hentries, List.foldl_append, List.foldl_cons]
    rw [hfold]
    exact (foldl_attend_agree fun e he => (hafter e he).ne').settled hattend

/-! ## Runs -/

/-- As time passes fewer aggregates are valid. -/
theorem Tracked.later (h : s.Tracked key) {t : ℕ} (ht : s.now ≤ t) :
    { s with now := t }.Tracked key where
  current hflag u hu := h.current hflag u (ht.trans hu)
  known := h.known

private theorem tracked_of_lookup (h : s.rawValuesUpdated.lookup key = some true) : s.Tracked key
    where
  current hflag := absurd h hflag
  known hnone := absurd (h.symm.trans hnone) nofun

/-- A fed key has to be updated, and the others stay as they are. -/
theorem feedValue_tracked (oracle : AccountId) (value : FixedU128) (h : s.Tracked key) :
    (s.feedValue oracle k value).Tracked key := by
  rcases eq_or_ne key k with rfl | hne
  · apply tracked_of_lookup
    exact OrderedMap.lookup_insert.trans (if_pos rfl)
  · have hagree : Agree s (s.feedValue oracle k value) key :=
      ⟨rfl, rfl, rfl, Function.update_of_ne hne _ _,
        OrderedMap.lookup_insert.trans (if_neg hne), rfl⟩
    exact hagree.tracked h

private theorem foldl_feedValue_tracked (oracle : AccountId)
    {values : List (OracleKey CurrencyId × FixedU128)} (h : s.Tracked key) :
    (values.foldl (fun s x => s.feedValue oracle x.1 x.2) s).Tracked key := by
  induction values generalizing s with
  | nil => exact h
  | cons x values ih => exact ih (feedValue_tracked oracle x.2 h)

variable {origin : OracleOrigin AccountId} {u : Unit}

private theorem run_ensureRoot (h : (ensureRoot origin).run s = .ok u s') : s' = s := by
  cases origin with
  | root => exact (Call.run_pure_eq_ok.mp h).2.symm
  | signed who => exact (Call.run_throw_eq_ok.mp h).elim

private theorem run_ensureSigned {who : AccountId} (h : (ensureSigned origin).run s = .ok who s') :
    origin = .signed who ∧ s' = s := by
  cases origin with
  | root => exact (Call.run_throw_eq_ok.mp h).elim
  | signed signer =>
    obtain ⟨rfl, rfl⟩ := Call.run_pure_eq_ok.mp h
    exact ⟨rfl, rfl⟩

/-- The values are stored as those of the oracle that signed. -/
theorem run_feedValues {values : List (OracleKey CurrencyId × FixedU128)}
    (h : (feedValues origin values).run s = .ok u s') :
    ∃ signer, origin = .signed signer ∧ s.isAuthorized signer = true ∧
      s' = values.foldl (fun s x => s.feedValue signer x.1 x.2) s := by
  obtain ⟨signer, s₁, hsigned, hread⟩ := Call.run_bind_eq_ok.mp h
  obtain ⟨horigin, rfl⟩ := run_ensureSigned hsigned
  obtain ⟨s₂, s₃, hget, hcheck⟩ := Call.run_bind_eq_ok.mp hread
  obtain ⟨rfl, rfl⟩ := Call.run_get_eq_ok.mp hget
  obtain ⟨_, s₄, hensure, hmodify⟩ := Call.run_bind_eq_ok.mp hcheck
  obtain ⟨hauthorized, rfl⟩ := Call.run_ensure_eq_ok.mp hensure
  exact ⟨signer, horigin, hauthorized, (Call.run_modify_eq_ok.mp hmodify).symm⟩

/-- Nothing is changed about any key when it is changed who may feed values. -/
theorem run_insertAuthorizedOracle {accountId : AccountId} {name : List UInt8}
    (h : (insertAuthorizedOracle origin accountId name).run s = .ok u s') : Agree s s' key := by
  obtain ⟨_, s₁, hroot, h⟩ := Call.run_bind_eq_ok.mp h
  rw [← Call.run_modify_eq_ok.mp h, run_ensureRoot hroot]
  exact ⟨rfl, rfl, rfl, rfl, rfl, rfl⟩

private theorem run_removeAuthorizedOracle {accountId : AccountId}
    (h : (removeAuthorizedOracle origin accountId).run s = .ok u s') : Agree s s' key := by
  obtain ⟨_, s₁, hroot, h⟩ := Call.run_bind_eq_ok.mp h
  rw [← Call.run_modify_eq_ok.mp h, run_ensureRoot hroot]
  exact ⟨rfl, rfl, rfl, rfl, rfl, rfl⟩

/-- Time does not go back, and at a block the keys that are due can be updated. -/
def InOrder (s : Oracle AccountId CurrencyId) (x : ℕ × OracleOp AccountId CurrencyId) : Prop :=
  s.now ≤ x.1 ∧ (x.2 = .beginBlock → { s with now := x.1 }.BlockFits)

instance (s : Oracle AccountId CurrencyId) (x : ℕ × OracleOp AccountId CurrencyId) :
    Decidable (s.InOrder x) :=
  inferInstanceAs (Decidable (_ ∧ _))

private theorem step_tracked {x : ℕ × OracleOp AccountId CurrencyId} (h : ∀ key, s.Tracked key)
    (hx : s.InOrder x) : ∀ key, (s.step x).Tracked key := by
  intro key
  obtain ⟨t, op⟩ := x
  have hlater := (h key).later hx.1
  unfold step
  rcases Call.commit_cases (dispatch op) { s with now := t } with ⟨_, hok⟩ | ⟨-, hfail⟩
  · cases op with
    | beginBlock => exact (beginBlock_settled hlater (hx.2 rfl)).tracked
    | feedValues origin values =>
      obtain ⟨signer, -, -, hs⟩ := run_feedValues hok
      rw [hs]
      exact foldl_feedValue_tracked signer hlater
    | insertAuthorizedOracle origin accountId name =>
      exact (run_insertAuthorizedOracle hok).tracked hlater
    | removeAuthorizedOracle origin accountId =>
      exact (run_removeAuthorizedOracle hok).tracked hlater
  · rw [hfail]
    exact hlater

private theorem genesis_tracked (maxDelay : ℕ) (authorizedOracles : AccountId → Option (List UInt8))
    (key : OracleKey CurrencyId) : (genesis maxDelay authorizedOracles).Tracked key where
  current _ _ _ _ := rfl
  known _ := rfl

/-- Right after every block the aggregate of a key is the median of its fresh values, and a key
without fresh values has no aggregate. -/
theorem aggregates_are_medians {maxDelay : ℕ} {authorizedOracles : AccountId → Option (List UInt8)}
    {ops : List (ℕ × OracleOp AccountId CurrencyId)} {t : ℕ}
    (h : Meets step InOrder (genesis maxDelay authorizedOracles) (ops ++ [(t, .beginBlock)]))
    (key : OracleKey CurrencyId) :
    let s := run step (genesis maxDelay authorizedOracles) (ops ++ [(t, .beginBlock)])
    s.AtMedian key ∧ (s.freshValues key = [] → s.aggregate key = none) := by
  intro s
  have hmedian : s.AtMedian key := by
    obtain ⟨hops, hlast, -⟩ := Meets.append_iff.mp h
    have htracked := run_invariant (fun _ _ => step_tracked)
      (genesis_tracked maxDelay authorizedOracles) hops
    have hblock := beginBlock_settled ((htracked key).later hlast.1) (hlast.2 rfl)
    have hs : s = (Oracle.beginBlock { run step (genesis maxDelay authorizedOracles) ops with
        now := t }) := by
      change run step _ (ops ++ [(t, .beginBlock)]) = _
      rw [run_append, run_cons, run_nil]
      rfl
    rw [hs]
    exact hblock.atMedian
  refine ⟨hmedian, fun hnil => ?_⟩
  rw [AtMedian, hnil, List.map_nil, medianOf_nil, Option.map_eq_none_iff] at hmedian
  exact hmedian

namespace Sample

/-- Two oracles, and values that are fresh for ten milliseconds. -/
def start : Oracle ℕ ℕ := genesis 10 fun who => if who < 2 then some [] else none

/-- An oracle feeds a fee. -/
def feed (oracle value : ℕ) : OracleOp ℕ ℕ :=
  .feedValues (.signed oracle) [(.feeEstimation, FixedU128.saturatingFromInteger value)]

/-- The value of one oracle expires before the one of the other. -/
def expiring : List (ℕ × OracleOp ℕ ℕ) :=
  [(1, feed 0 4), (2, .beginBlock), (8, feed 1 6), (9, .beginBlock)]

/-- A value expires, and the aggregate follows. -/
theorem aggregates_are_medians_expiring :
    (Meets step InOrder start (expiring ++ [(12, .beginBlock)]) ∧
      (run step start expiring).aggregate .feeEstimation = some (.saturatingFromInteger 5) ∧
      (run step start (expiring ++ [(12, .beginBlock)])).aggregate .feeEstimation =
        some (.saturatingFromInteger 6)) ∧
    ∀ key, let s := run step start (expiring ++ [(12, .beginBlock)])
      s.AtMedian key ∧ (s.freshValues key = [] → s.aggregate key = none) :=
  ⟨by decide +kernel, aggregates_are_medians (by decide +kernel)⟩

end Sample

end Interbtc.Oracle
