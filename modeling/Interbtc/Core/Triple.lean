import Interbtc.Core.Run
import Mathlib.Data.List.Basic

/-!
# Calls within an invariant

Which values a computation gives and which errors it raises, and the same for a call on the
stores that have a property. The rules follow the composition of calls, so a property of a long
call is read off the properties of its parts.
-/

namespace Core

variable {ε ε' σ τ α β : Type}

/-! ## Results -/

/-- A result is a value with a property, or an error of a class. -/
inductive Yields (E : ε → Prop) : Except ε α → (α → Prop) → Prop
  | ok {a : α} {Q : α → Prop} (h : Q a) : Yields E (.ok a) Q
  | error {e : ε} {Q : α → Prop} (h : E e) : Yields E (.error e) Q

namespace Yields

variable {E : ε → Prop} {E' : ε' → Prop} {Q R : α → Prop} {S : β → Prop} {x : Except ε α}

theorem ne_error {e : ε} (h : Yields (· ≠ e) x Q) : x ≠ .error e := by
  cases h with
  | ok h => exact nofun
  | error h =>
    rw [ne_eq, Except.error.injEq]
    exact h

/-- What is yielded may be weakened. -/
theorem mono (hx : Yields E x R) (h : ∀ a, R a → Q a) : Yields E x Q := by
  cases hx with
  | ok ha => exact ok (h _ ha)
  | error he => exact error he

/-- Computations in sequence yield what the last of them does. -/
theorem bind {f : α → Except ε β} (hx : Yields E x R) (hf : ∀ a, R a → Yields E (f a) S) :
    Yields E (x >>= f) S := by
  cases hx with
  | ok ha => exact hf _ ha
  | error he => exact error he

theorem ite {c : Prop} [Decidable c] {y : Except ε α} (hx : c → Yields E x Q)
    (hy : ¬ c → Yields E y Q) : Yields E (if c then x else y) Q := by
  split
  · exact hx ‹_›
  · exact hy ‹_›

/-- The rule for what goes on after either of two computations. -/
theorem ite_bind {c : Prop} [Decidable c] {y : Except ε α} {f : α → Except ε β}
    (hx : c → Yields E x R) (hy : ¬ c → Yields E y R) (hf : ∀ a, R a → Yields E (f a) S) :
    Yields E (if c then x >>= f else y >>= f) S :=
  ite (fun h => bind (hx h) hf) fun h => bind (hy h) hf

theorem okOr {e : ε} {o : Option α} (he : o = none → E e) (h : ∀ a, o = some a → Q a) :
    Yields E (Core.okOr e o) Q := by
  cases o with
  | none => exact error (he rfl)
  | some a => exact ok (h a rfl)

/-- Renaming errors renames those that are yielded. -/
theorem mapError {g : ε → ε'} (hx : Yields E x Q) (hg : ∀ e, E e → E' (g e)) :
    Yields E' (x.mapError g) Q := by
  cases hx with
  | ok ha => exact ok ha
  | error he => exact error (hg _ he)

/-- A loop keeps what each of its rounds keeps. -/
theorem foldlM {f : β → α → Except ε β} {as : List α}
    (hf : ∀ a ∈ as, ∀ b, S b → Yields E (f b a) S) {b : β} (hb : S b) :
    Yields E (as.foldlM f b) S := by
  induction as generalizing b with
  | nil => exact ok hb
  | cons a as ih =>
    rw [List.foldlM_cons]
    refine bind (hf a List.mem_cons_self b hb) fun b' hb' => ?_
    exact ih (fun a' ha' => hf a' (List.mem_cons_of_mem a ha')) hb'

/-- A list has as many results as entries. -/
theorem mapM {f : α → Except ε β} {as : List α} (hf : ∀ a ∈ as, Yields E (f a) fun _ => True) :
    Yields E (as.mapM f) fun bs => bs.length = as.length := by
  induction as with
  | nil => exact ok rfl
  | cons a as ih =>
    rw [List.mapM_cons]
    refine bind (hf a List.mem_cons_self) fun b _ => ?_
    refine bind (ih fun a' ha' => hf a' (List.mem_cons_of_mem a ha')) fun bs hbs => ok ?_
    rw [List.length_cons, List.length_cons, hbs]

end Yields

/-! ## Calls -/

/-- From a store with a property, a call gives a value and a store that are related, or raises an
error of a class. -/
structure Triple (E : ε → Prop) (P : σ → Prop) (x : Call ε σ α) (Q : α → σ → Prop) : Prop where
  ok : ∀ s a s', P s → x.run s = .ok a s' → Q a s'
  error : ∀ s e s', P s → x.run s = .error e s' → E e

/-- A call stays within an invariant, and gives a value with a property. -/
abbrev Within (E : ε → Prop) (I : σ → Prop) (x : Call ε σ α) (Q : α → Prop) : Prop :=
  Triple E I x fun a s => I s ∧ Q a

namespace Triple

variable {E : ε → Prop} {P P' : σ → Prop} {Q Q' : α → σ → Prop} {R : β → σ → Prop}
  {x : Call ε σ α}

/-- The consequence rule. -/
theorem mono (hx : Triple E P x Q) (hP : ∀ s, P' s → P s) (hQ : ∀ a s, Q a s → Q' a s) :
    Triple E P' x Q' where
  ok s a s' hs h := hQ a s' (hx.ok s a s' (hP s hs) h)
  error s e s' hs h := hx.error s e s' (hP s hs) h

/-- The rule of sequential composition. -/
theorem bind {f : α → Call ε σ β} (hx : Triple E P x Q) (hf : ∀ a, Triple E (Q a) (f a) R) :
    Triple E P (x >>= f) R where
  ok s b s' hs h := by
    obtain ⟨a, t, h₁, h₂⟩ := Call.run_bind_eq_ok.mp h
    exact (hf a).ok t b s' (hx.ok s a t hs h₁) h₂
  error s e s' hs h := by
    obtain h | ⟨a, t, h₁, h₂⟩ := Call.run_bind_eq_error.mp h
    · exact hx.error s e s' hs h
    · exact (hf a).error t e s' (hx.ok s a t hs h₁) h₂

theorem pure {a : α} (h : ∀ s, P s → Q a s) : Triple E P (Pure.pure a) Q where
  ok s b s' hs hrun := by
    obtain ⟨rfl, rfl⟩ := Call.run_pure_eq_ok.mp hrun
    exact h s hs
  error s e s' hs hrun := nomatch hrun

/-- The state that is read is the state of the call. -/
theorem get : Triple E P MonadState.get fun t s => P s ∧ s = t where
  ok s t s' hs hrun := by
    obtain ⟨rfl, rfl⟩ := Call.run_get_eq_ok.mp hrun
    exact ⟨hs, rfl⟩
  error s e s' hs hrun := nomatch hrun

theorem modify {f : σ → σ} (h : ∀ s, P s → P' (f s)) :
    Triple E P (modifyThe σ f) fun _ => P' where
  ok s u s' hs hrun := by
    rw [← Call.run_modify_eq_ok.mp hrun]
    exact h s hs
  error s e s' hs hrun := nomatch hrun

theorem throw {e : ε} (h : E e) : Triple E P (throwThe ε e : Call ε σ α) Q where
  ok s a s' hs hrun := (Call.run_throw_eq_ok.mp hrun).elim
  error s e' s' hs hrun := by
    cases hrun
    exact h

theorem ite {c : Prop} [Decidable c] {y : Call ε σ α} (hx : c → Triple E P x Q)
    (hy : ¬ c → Triple E P y Q) : Triple E P (if c then x else y) Q := by
  split
  · exact hx ‹_›
  · exact hy ‹_›

/-- What is assumed of the store can be used to prove a triple. -/
theorem intro (h : ∀ s, P s → Triple E (fun t => P t ∧ t = s) x Q) : Triple E P x Q where
  ok s a s' hs := (h s hs).ok s a s' ⟨hs, rfl⟩
  error s e s' hs := (h s hs).error s e s' ⟨hs, rfl⟩

/-- What is assumed besides the store can be used to prove a triple. -/
theorem of_fact {p : Prop} (h : p → Triple E P x Q) : Triple E (fun s => P s ∧ p) x Q where
  ok s a s' hs := (h hs.2).ok s a s' hs.1
  error s e s' hs := (h hs.2).error s e s' hs.1

/-- A call that raises other errors only does not raise this one. -/
theorem error?_ne {e : ε} (hx : Triple (· ≠ e) P x Q) {s : σ} (hs : P s) :
    x.error? s ≠ some e := by
  unfold Call.error?
  cases h : x.run s with
  | ok a s' => exact nofun
  | error e' s' =>
    rw [ne_eq, Option.some.injEq]
    exact hx.error s e' s' hs h

end Triple

namespace Within

variable {E : ε → Prop} {E' : ε' → Prop} {I : σ → Prop} {Q Q' : α → Prop}
  {R : β → σ → Prop} {x : Call ε σ α}

/-- What is known of the result may be weakened. -/
theorem weaken (hx : Within E I x Q) (h : ∀ a, Q a → Q' a) : Within E I x Q' :=
  hx.mono (fun _ hs => hs) fun a _ hs => ⟨hs.1, h a hs.2⟩

theorem pure {a : α} (h : Q a) : Within E I (Pure.pure a) Q := Triple.pure fun _ hs => ⟨hs, h⟩

theorem throw {e : ε} (h : E e) : Within E I (throwThe ε e : Call ε σ α) Q := Triple.throw h

/-- A call that stays within an invariant can come first. -/
theorem bind {f : α → Call ε σ β} (hx : Within E I x Q) (hf : ∀ a, Q a → Triple E I (f a) R) :
    Triple E I (x >>= f) R :=
  Triple.bind hx fun a => Triple.of_fact (hf a)

theorem get_bind {f : σ → Call ε σ β} (h : ∀ s, I s → Triple E I (f s) R) :
    Triple E I (MonadState.get >>= f) R := by
  refine Triple.bind Triple.get fun t => Triple.intro fun s hs => ?_
  obtain ⟨hI, rfl⟩ := hs
  exact (h s hI).mono (fun _ ht => ht.1.1) fun _ _ hQ => hQ

theorem ite {c : Prop} [Decidable c] {y : Call ε σ α} (hx : c → Within E I x Q)
    (hy : ¬ c → Within E I y Q) : Within E I (if c then x else y) Q :=
  Triple.ite hx hy

/-- The rule for what goes on after either of two calls. -/
theorem ite_bind {c : Prop} [Decidable c] {y : Call ε σ α} {f : α → Call ε σ β}
    (hx : c → Within E I x Q) (hy : ¬ c → Within E I y Q)
    (hf : ∀ a, Q a → Triple E I (f a) R) :
    Triple E I (if c then x >>= f else y >>= f) R :=
  Triple.ite (fun h => bind (hx h) hf) fun h => bind (hy h) hf

theorem ensure {c : Prop} [Decidable c] {e : ε} (he : ¬ c → E e) :
    Within E I (Call.ensure c e) fun _ => c :=
  ite (fun h => pure h) fun h => throw (he h)

theorem ofExcept {r : Except ε α} (hr : Yields E r Q) : Within E I (Call.ofExcept r) Q := by
  cases hr with
  | ok ha => exact pure ha
  | error he => exact throw he

theorem ofOption {e : ε} {o : Option α} (he : o = none → E e) (h : ∀ a, o = some a → Q a) :
    Within E I (Call.ofOption e o) Q := by
  cases o with
  | none => exact throw (he rfl)
  | some a => exact pure (h a rfl)

/-- A fold stays within the invariant when each of its steps does. -/
theorem foldlM {f : β → α → Call ε σ β} {as : List α} {S : β → Prop}
    (hf : ∀ a ∈ as, ∀ b, S b → Within E I (f b a) S) {b : β} (hb : S b) :
    Within E I (as.foldlM f b) S := by
  induction as generalizing b with
  | nil => exact pure hb
  | cons a as ih =>
    rw [List.foldlM_cons]
    refine bind (hf a List.mem_cons_self b hb) fun b' hb' => ?_
    exact ih (fun a' ha' => hf a' (List.mem_cons_of_mem a ha')) hb'

/-- A loop stays within the invariant when each of its rounds does. -/
theorem forM {f : α → Call ε σ PUnit} {as : List α}
    (hf : ∀ a ∈ as, Within E I (f a) fun _ => True) :
    Within E I (as.forM f) fun _ => True := by
  induction as with
  | nil => exact pure trivial
  | cons a as ih =>
    refine bind (hf a List.mem_cons_self) fun _ _ => ?_
    exact ih fun a' ha' => hf a' (List.mem_cons_of_mem a ha')

/-- A call on a part of the store on which the invariant does not depend. -/
theorem zoom {l : Lens σ τ} {y : Call ε' τ α} {g : ε' → ε} (hl : ∀ s t, I s → I (l.set t s))
    (hg : ∀ e, E (g e)) : Within E I ((l.zoom y).mapError g) fun _ => True where
  ok s a s' hs h := by
    obtain ⟨t, -, rfl⟩ := Lens.run_zoom_eq_ok.mp (Call.run_mapError_eq_ok.mp h)
    exact ⟨hl s t hs, trivial⟩
  error s e s' hs h := by
    change Call.mapError g (l.zoom y) s = _ at h
    unfold Call.mapError at h
    cases hz : (l.zoom y).run s with
    | ok a t =>
      rw [hz] at h
      cases h
    | error e' t =>
      rw [hz] at h
      cases h
      exact hg e'

end Within

end Core
