import Mathlib.Algebra.BigOperators.Group.List.Basic
import Mathlib.Order.Lattice

/-!
# Ordered maps

A finite map is the list of its entries in the order of their keys.
-/

namespace Core

/-- Put an entry in its place among entries that are in order. -/
def insertEntry {κ ν : Type} [LinearOrder κ] (k : κ) (v : ν) : List (κ × ν) → List (κ × ν)
  | [] => [(k, v)]
  | e :: es =>
    if k < e.1 then (k, v) :: e :: es
    else if k = e.1 then (k, v) :: es
    else e :: insertEntry k v es

/-- The first value at a key of a list. -/
def lookupEntry {κ ν : Type} [LinearOrder κ] (k : κ) : List (κ × ν) → Option ν
  | [] => none
  | e :: es => if e.1 = k then some e.2 else lookupEntry k es

/-- Entries in the order of their keys, where no key has two. -/
structure OrderedMap (κ ν : Type) [LinearOrder κ] where
  entries : List (κ × ν)
  sorted : entries.Pairwise fun d e => d.1 < e.1

variable {κ ν : Type} [LinearOrder κ]

/-- What is listed after an insertion was listed before or is inserted. -/
theorem mem_insertEntry {k : κ} {v : ν} {es : List (κ × ν)} {e : κ × ν}
    (h : e ∈ insertEntry k v es) : e = (k, v) ∨ e ∈ es := by
  induction es with
  | nil => exact .inl (List.mem_singleton.mp h)
  | cons d es ih =>
    unfold insertEntry at h
    split_ifs at h
    · exact (List.mem_cons.mp h).imp_right id
    · exact (List.mem_cons.mp h).imp_right (List.mem_cons_of_mem d)
    · rcases List.mem_cons.mp h with rfl | h
      · exact .inr List.mem_cons_self
      · exact (ih h).imp_right (List.mem_cons_of_mem d)

/-- Insertion keeps a list sorted. -/
theorem insertEntry_sorted {k : κ} {v : ν} {es : List (κ × ν)}
    (h : es.Pairwise fun d e => d.1 < e.1) :
    (insertEntry k v es).Pairwise fun d e => d.1 < e.1 := by
  induction es with
  | nil => exact List.pairwise_singleton _ _
  | cons d es ih =>
    obtain ⟨hd, hes⟩ := List.pairwise_cons.mp h
    unfold insertEntry
    split_ifs with hlt heq
    · refine List.pairwise_cons.mpr ⟨fun e he => ?_, h⟩
      rcases List.mem_cons.mp he with rfl | he
      · exact hlt
      · exact hlt.trans (hd e he)
    · refine List.pairwise_cons.mpr ⟨fun e he => ?_, hes⟩
      rw [heq]
      exact hd e he
    · refine List.pairwise_cons.mpr ⟨fun e he => ?_, ih hes⟩
      rcases mem_insertEntry he with rfl | he
      · exact lt_of_le_of_ne (not_lt.mp hlt) (Ne.symm heq)
      · exact hd e he

namespace OrderedMap

/-- The map of nothing. -/
def empty : OrderedMap κ ν := ⟨[], .nil⟩

/-- Put a value at a key, in place of the one before. -/
def insert (k : κ) (v : ν) (m : OrderedMap κ ν) : OrderedMap κ ν :=
  ⟨insertEntry k v m.entries, insertEntry_sorted m.sorted⟩

/-- Of two entries with one key the later one stays. -/
def ofList (es : List (κ × ν)) : OrderedMap κ ν := es.foldl (fun m e => m.insert e.1 e.2) empty

/-- The value at a key. -/
def lookup (m : OrderedMap κ ν) (k : κ) : Option ν :=
  lookupEntry k m.entries

/-- The number of keys. -/
def size (m : OrderedMap κ ν) : ℕ := m.entries.length

/-- Each value changed, at the same key. -/
def mapValues (f : ν → ν) (m : OrderedMap κ ν) : OrderedMap κ ν where
  entries := m.entries.map fun e => (e.1, f e.2)
  sorted := List.pairwise_map.mpr m.sorted

/-- Drop a key. -/
def erase (k : κ) (m : OrderedMap κ ν) : OrderedMap κ ν where
  entries := m.entries.filter fun e => decide (e.1 ≠ k)
  sorted := m.sorted.filter _

variable {m : OrderedMap κ ν} {k j : κ} {v : ν}

/-- What is looked up after a change is what was there, changed. -/
theorem lookup_mapValues (f : ν → ν) : (m.mapValues f).lookup k = (m.lookup k).map f := by
  obtain ⟨es, hes⟩ := m
  change lookupEntry k (es.map fun e => (e.1, f e.2)) = (lookupEntry k es).map f
  clear hes
  induction es with
  | nil => rfl
  | cons e es ih =>
    by_cases he : e.1 = k
    · simp only [List.map_cons, lookupEntry, if_pos he, Option.map_some]
    · simp only [List.map_cons, lookupEntry, if_neg he, ih]

/-- An insertion changes one key. -/
theorem lookup_insert : (m.insert k v).lookup j = if j = k then some v else m.lookup j := by
  obtain ⟨es, hes⟩ := m
  change lookupEntry j (insertEntry k v es) = if j = k then some v else lookupEntry j es
  clear hes
  induction es with
  | nil => simp only [insertEntry, lookupEntry, eq_comm]
  | cons e es ih =>
    unfold insertEntry
    by_cases hlt : k < e.1
    · simp only [if_pos hlt, lookupEntry, eq_comm]
    · by_cases heq : k = e.1
      · subst heq
        by_cases hj : j = e.1
        · simp only [if_neg hlt, lookupEntry, hj, ite_true]
        · simp only [if_neg hlt, lookupEntry, if_neg (Ne.symm hj), if_neg hj, ite_true]
      · simp only [if_neg hlt, if_neg heq, lookupEntry, ih]
        by_cases he : e.1 = j
        · subst he
          simp only [ite_true, if_neg (Ne.symm heq)]
        · simp only [if_neg he]

/-- An erasure removes one key. -/
theorem lookup_erase : (m.erase k).lookup j = if j = k then none else m.lookup j := by
  obtain ⟨es, hes⟩ := m
  change lookupEntry j (es.filter fun e => decide (e.1 ≠ k)) =
    if j = k then none else lookupEntry j es
  clear hes
  induction es with
  | nil =>
    rw [List.filter_nil, lookupEntry, ite_self]
  | cons e es ih =>
    by_cases he : e.1 = k
    · rw [List.filter_cons_of_neg (by simpa using he), ih]
      by_cases hj : j = k
      · rw [if_pos hj, if_pos hj]
      · rw [if_neg hj, if_neg hj, lookupEntry, if_neg (he.trans_ne (Ne.symm hj))]
    · rw [List.filter_cons_of_pos (by simpa using he), lookupEntry, ih, lookupEntry]
      by_cases hj : e.1 = j
      · rw [if_pos hj, if_pos hj, if_neg (hj ▸ he)]
      · rw [if_neg hj, if_neg hj]

/-- What can be looked up is an entry. -/
theorem mem_entries_of_lookup (h : m.lookup k = some v) : (k, v) ∈ m.entries := by
  obtain ⟨es, hes⟩ := m
  change lookupEntry k es = some v at h
  change (k, v) ∈ es
  clear hes
  induction es with
  | nil => exact absurd h nofun
  | cons e es ih =>
    unfold lookupEntry at h
    split_ifs at h with he
    · rw [← he, ← Option.some.inj h]
      exact List.mem_cons_self
    · exact List.mem_cons_of_mem _ (ih h)

/-- Every entry can be looked up. -/
theorem lookup_of_mem_entries {e : κ × ν} (h : e ∈ m.entries) : m.lookup e.1 = some e.2 := by
  obtain ⟨es, hes⟩ := m
  change e ∈ es at h
  change lookupEntry e.1 es = some e.2
  induction es with
  | nil => exact absurd h List.not_mem_nil
  | cons d es ih =>
    obtain ⟨hd, hes⟩ := List.pairwise_cons.mp hes
    unfold lookupEntry
    rcases List.mem_cons.mp h with rfl | h
    · exact if_pos rfl
    · rw [if_neg (hd e h).ne]
      exact ih hes h

/-- Every value of a map from a list is in the list. -/
theorem exists_of_lookup_ofList {es : List (κ × ν)} (h : (ofList es).lookup k = some v) :
    ∃ e ∈ es, e.2 = v := by
  have hfold : ∀ m : OrderedMap κ ν, (es.foldl (fun m e => m.insert e.1 e.2) m).lookup k = some v →
      m.lookup k = some v ∨ ∃ e ∈ es, e.2 = v := by
    clear h
    induction es with
    | nil => exact fun m hm => .inl hm
    | cons e es ih =>
      intro m hm
      rcases ih _ hm with hm | ⟨d, hd, rfl⟩
      · rw [lookup_insert] at hm
        split_ifs at hm
        · exact .inr ⟨e, List.mem_cons_self, Option.some.inj hm⟩
        · exact .inl hm
      · exact .inr ⟨d, List.mem_cons_of_mem _ hd, rfl⟩
  exact (hfold empty h).resolve_left nofun

/-- The entries of one key add up to its value. -/
theorem sum_entries {M : Type} [AddMonoid M] (f : ν → M) (k : κ) :
    (m.entries.map fun e => if e.1 = k then f e.2 else 0).sum = (m.lookup k).elim 0 f := by
  obtain ⟨es, hes⟩ := m
  change (es.map fun e => if e.1 = k then f e.2 else 0).sum = (lookupEntry k es).elim 0 f
  induction es with
  | nil => rfl
  | cons e es ih =>
    obtain ⟨he, hes⟩ := List.pairwise_cons.mp hes
    rw [List.map_cons, List.sum_cons, lookupEntry]
    by_cases hk : e.1 = k
    · have hzero : (es.map fun e => if e.1 = k then f e.2 else 0).sum = 0 := by
        refine List.sum_eq_zero fun x hx => ?_
        obtain ⟨d, hd, rfl⟩ := List.mem_map.mp hx
        exact if_neg fun h => (he d hd).ne (hk.trans h.symm)
      rw [if_pos hk, if_pos hk, hzero, add_zero]
      rfl
    · rw [if_neg hk, if_neg hk, zero_add, ih hes]

end OrderedMap

end Core
