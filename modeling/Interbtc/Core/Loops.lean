import Interbtc.Core.Call
import Mathlib.Data.Nat.Notation

/-!
# Loops over lists

The invariant of a loop depends on how many entries of the list are done. What each round carries
from one position to the next holds at the end.
-/

namespace Core

variable {ε σ α β : Type}

/-- The rule for a loop of computations. -/
theorem except_foldlM_eq_ok {f : β → α → Except ε β} {as : List α} {I : ℕ → β → Prop}
    (hf : ∀ i a b b', as[i]? = some a → I i b → f b a = .ok b' → I (i + 1) b') {b b' : β}
    (hb : I 0 b) {n : ℕ} (hn : as.length = n) (h : as.foldlM f b = .ok b') : I n b' := by
  subst hn
  induction as generalizing I b with
  | nil =>
    obtain rfl := Except.ok.inj h
    exact hb
  | cons a as ih =>
    rw [List.foldlM_cons] at h
    obtain ⟨b₁, hfirst, hrest⟩ := except_bind_eq_ok.mp h
    rw [List.length_cons]
    -- the rounds that are left start one position later
    exact ih (I := fun i => I (i + 1)) (fun i a' b b' ha => hf (i + 1) a' b b' ha)
      (hf 0 a b b₁ rfl hb hfirst) hrest

namespace Call

/-- The rule for a loop of calls. -/
theorem run_foldlM_eq_ok {f : β → α → Call ε σ β} {as : List α} {I : ℕ → β → σ → Prop}
    (hf : ∀ i a b s b' s', as[i]? = some a → I i b s → (f b a).run s = .ok b' s' → I (i + 1) b' s')
    {b b' : β} {s s' : σ} (hb : I 0 b s) {n : ℕ} (hn : as.length = n)
    (h : (as.foldlM f b).run s = .ok b' s') : I n b' s' := by
  subst hn
  induction as generalizing I b s with
  | nil =>
    obtain ⟨rfl, rfl⟩ := run_pure_eq_ok.mp h
    exact hb
  | cons a as ih =>
    rw [List.foldlM_cons] at h
    obtain ⟨b₁, s₁, hfirst, hrest⟩ := run_bind_eq_ok.mp h
    rw [List.length_cons]
    exact ih (I := fun i => I (i + 1)) (fun i a' b s b' s' ha => hf (i + 1) a' b s b' s' ha)
      (hf 0 a b s b₁ s₁ rfl hb hfirst) hrest

/-- The rule for a loop without an accumulator. -/
theorem run_forM_eq_ok {f : α → Call ε σ PUnit} {as : List α} {I : ℕ → σ → Prop}
    (hf : ∀ i a s u s', as[i]? = some a → I i s → (f a).run s = .ok u s' → I (i + 1) s')
    {u : PUnit} {s s' : σ} (hs : I 0 s) {n : ℕ} (hn : as.length = n)
    (h : (as.forM f).run s = .ok u s') : I n s' := by
  subst hn
  induction as generalizing I s with
  | nil =>
    obtain ⟨-, rfl⟩ := run_pure_eq_ok.mp h
    exact hs
  | cons a as ih =>
    obtain ⟨u₁, s₁, hfirst, hrest⟩ := run_bind_eq_ok.mp h
    rw [List.length_cons]
    exact ih (I := fun i => I (i + 1)) (fun i a' s u s' ha => hf (i + 1) a' s u s' ha)
      (hf 0 a s u₁ s₁ rfl hs hfirst) hrest

end Call

end Core
