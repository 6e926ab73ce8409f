import Mathlib.Data.List.Basic

/-!
# Codes that show their own end

An encoded value is read back from the front of a longer string, whatever follows it. Codes that
are written one after the other show their end too, and so does a list of codes after its length.
-/

namespace Core

variable {α β γ κ κ' : Type}

/-- Where a string begins with an encoded value, the key of the value and the rest of the string
are determined. -/
def PrefixCode (valid : α → Prop) (encode : α → List β) (key : α → κ) : Prop :=
  ∀ a b s t, valid a → valid b → encode a ++ s = encode b ++ t → key a = key b ∧ s = t

namespace PrefixCode

variable {valid valid' : α → Prop} {encode encode' : α → List β} {key : α → κ} {key' : α → κ'}
  {a b : α}

/-- Values of one encoding have one key. -/
theorem key_eq (h : PrefixCode valid encode key) (ha : valid a) (hb : valid b)
    (heq : encode a = encode b) : key a = key b := by
  have hempty : encode a ++ [] = encode b ++ [] := by rw [heq]
  exact (h a b [] [] ha hb hempty).1

/-- Codes of one length show their end. -/
theorem of_length {n : ℕ} (hlength : ∀ a, (encode a).length = n)
    (hkey : ∀ a b, valid a → valid b → encode a = encode b → key a = key b) :
    PrefixCode valid encode key := by
  intro a b s t ha hb heq
  obtain ⟨hcode, hrest⟩ := List.append_inj heq ((hlength a).trans (hlength b).symm)
  exact ⟨hkey a b ha hb hcode, hrest⟩

/-- A code of one part codes the whole up to that part. -/
theorem comap (h : PrefixCode valid encode key) (f : γ → α) :
    PrefixCode (fun c => valid (f c)) (fun c => encode (f c)) (fun c => key (f c)) :=
  fun a b => h (f a) (f b)

/-- A code of more values codes fewer. -/
theorem mono (h : PrefixCode valid encode key) (hvalid : ∀ a, valid' a → valid a) :
    PrefixCode valid' encode key :=
  fun a b s t ha hb => h a b s t (hvalid a ha) (hvalid b hb)

/-- Codes in sequence are a code of the pairs. -/
theorem append (h : PrefixCode valid encode key) (h' : PrefixCode valid encode' key') :
    PrefixCode valid (fun a => encode a ++ encode' a) (fun a => (key a, key' a)) := by
  intro a b s t ha hb heq
  rw [List.append_assoc, List.append_assoc] at heq
  obtain ⟨hkey, hrest⟩ := h a b _ _ ha hb heq
  obtain ⟨hkey', hrest'⟩ := h' a b s t ha hb hrest
  exact ⟨Prod.ext hkey hkey', hrest'⟩

/-- As many codes of each list are read one after the other. -/
theorem flatMap (h : PrefixCode valid encode key) {as bs : List α} {s t : List β}
    (hlength : as.length = bs.length) (ha : ∀ a ∈ as, valid a) (hb : ∀ b ∈ bs, valid b)
    (heq : as.flatMap encode ++ s = bs.flatMap encode ++ t) :
    as.map key = bs.map key ∧ s = t := by
  induction as generalizing bs with
  | nil =>
    obtain rfl := List.length_eq_zero_iff.mp hlength.symm
    exact ⟨rfl, heq⟩
  | cons a as ih =>
    cases bs with
    | nil => cases hlength
    | cons b bs =>
      rw [List.flatMap_cons, List.flatMap_cons, List.append_assoc, List.append_assoc] at heq
      obtain ⟨hkey, hrest⟩ := h a b _ _ (ha a List.mem_cons_self) (hb b List.mem_cons_self) heq
      obtain ⟨hkeys, hrest⟩ := ih (Nat.succ.inj hlength)
        (fun a ha' => ha a (List.mem_cons_of_mem _ ha'))
        (fun b hb' => hb b (List.mem_cons_of_mem _ hb')) hrest
      exact ⟨by rw [List.map_cons, List.map_cons, hkey, hkeys], hrest⟩

/-- A list of codes shows its end after the code of its length. -/
theorem list {fits : ℕ → Prop} {writeLength : ℕ → List β}
    (hwrites : PrefixCode fits writeLength id) (h : PrefixCode valid encode key) :
    PrefixCode (fun as : List α => fits as.length ∧ ∀ a ∈ as, valid a)
      (fun as => writeLength as.length ++ as.flatMap encode) (List.map key) := by
  intro as bs s t ha hb heq
  rw [List.append_assoc, List.append_assoc] at heq
  obtain ⟨hlength, hrest⟩ := hwrites _ _ _ _ ha.1 hb.1 heq
  exact h.flatMap hlength ha.2 hb.2 hrest

end PrefixCode

end Core
