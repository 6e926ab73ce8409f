import Mathlib.Logic.Function.Basic

/-!
# Fallible calls on a store

A call either returns a value with the store it leaves, or raises an error and
leaves the writes made so far: only the enclosing transaction rolls them back.
The inversion lemmas below read a successful composite call back into the
successful calls it is made of, so later proofs never unfold a call.
-/

namespace Core

/-! ## Results -/

/-- An optional value, or the error where there is none. -/
def okOr {ε α : Type} (e : ε) : Option α → Except ε α
  | some a => .ok a
  | none => .error e

/-- A missing value is an error, one that is there is returned. -/
theorem okOr_eq_ok {ε α : Type} {e : ε} {o : Option α} {a : α} :
    okOr e o = .ok a ↔ o = some a := by
  cases o <;> simp [okOr]

/-- A computation goes on with a value that is there. -/
theorem okOr_some_bind {ε α β : Type} {e : ε} {a : α} {f : α → Except ε β} :
    (okOr e (some a) >>= f) = f a := rfl

/-- A computation in steps succeeds when each of them does. -/
theorem except_bind_eq_ok {ε α β : Type} {x : Except ε α} {f : α → Except ε β} {b : β} :
    (x >>= f) = .ok b ↔ ∃ a, x = .ok a ∧ f a = .ok b := by
  cases x with
  | error e =>
    constructor
    · rintro ⟨⟩
    · rintro ⟨_, ⟨⟩, _⟩
  | ok a =>
    constructor
    · intro h
      exact ⟨a, rfl, h⟩
    · rintro ⟨_, ⟨⟩, h⟩
      exact h

theorem except_pure_eq_ok {ε α : Type} {a b : α} :
    (pure a : Except ε α) = .ok b ↔ a = b := by
  constructor
  · rintro ⟨⟩
    rfl
  · rintro rfl
    rfl

theorem except_throw_eq_ok {ε α : Type} {e : ε} {a : α} :
    (throw e : Except ε α) = .ok a ↔ False := by
  change Except.error e = .ok a ↔ False
  simp

/-- A branching computation succeeds in the branch taken. -/
theorem except_ite_eq_ok {ε α : Type} {c : Prop} [Decidable c] {x y : Except ε α} {a : α} :
    (if c then x else y) = .ok a ↔ (c ∧ x = .ok a) ∨ (¬ c ∧ y = .ok a) := by
  split <;> simp [*]

theorem okOr_eq_error {ε α : Type} {e e' : ε} {o : Option α} :
    okOr e o = .error e' ↔ o = none ∧ e = e' := by
  cases o <;> simp [okOr]

/-- A computation in steps fails in its first step or after it. -/
theorem except_bind_eq_error {ε α β : Type} {x : Except ε α} {f : α → Except ε β} {e : ε} :
    (x >>= f) = .error e ↔ x = .error e ∨ ∃ a, x = .ok a ∧ f a = .error e := by
  cases x with
  | error e' =>
    constructor
    · rintro ⟨⟩
      exact .inl rfl
    · rintro (⟨⟨⟩⟩ | ⟨_, ⟨⟩, _⟩)
      rfl
  | ok a =>
    constructor
    · intro h
      exact .inr ⟨a, rfl, h⟩
    · rintro (⟨⟨⟩⟩ | ⟨_, ⟨⟩, h⟩)
      exact h

theorem except_pure_eq_error {ε α : Type} {a : α} {e : ε} :
    (pure a : Except ε α) = .error e ↔ False := by
  constructor
  · rintro ⟨⟩
  · rintro ⟨⟩

theorem except_throw_eq_error {ε α : Type} {e e' : ε} :
    (throw e : Except ε α) = .error e' ↔ e = e' := by
  change Except.error e = .error e' ↔ e = e'
  simp

theorem except_ite_eq_error {ε α : Type} {c : Prop} [Decidable c] {x y : Except ε α} {e : ε} :
    (if c then x else y) = .error e ↔ (c ∧ x = .error e) ∨ (¬ c ∧ y = .error e) := by
  split <;> simp [*]

/-! ## Calls -/

/-- A call on a store of type `σ` that may raise an error of type `ε`. -/
abbrev Call (ε σ α : Type) : Type := EStateM ε σ α

namespace Call

variable {ε σ τ α β : Type}

/-- Raise `e` unless the condition holds. -/
def ensure (c : Prop) [Decidable c] (e : ε) : Call ε σ Unit :=
  if c then pure () else throw e

/-- Unwrap an optional result, raising `e` where there is none. -/
def ofOption (e : ε) : Option α → Call ε σ α
  | some a => pure a
  | none => throw e

/-- Inject a result that depends on no store. -/
def ofExcept : Except ε α → Call ε σ α
  | .ok a => pure a
  | .error e => throw e

/-- Compute a result from the store without changing it. -/
def reads (f : σ → Except ε α) : Call ε σ α := do
  let s ← get
  ofExcept (f s)

/-- Keep the writes of a call but swallow its error. -/
def attempt (x : Call ε σ α) : Call ε σ (Except ε α) := fun s =>
  match x.run s with
  | .ok a s' => .ok (.ok a) s'
  | .error e s' => .ok (.error e) s'

/-- Replace the error of a call. -/
def mapError {ε' : Type} (f : ε → ε') (x : Call ε σ α) : Call ε' σ α := fun s =>
  match x.run s with
  | .ok a s' => .ok a s'
  | .error e s' => .error (f e) s'

/-- Undo every write of a call that raises an error. -/
def transactional (x : Call ε σ α) : Call ε σ α := fun s =>
  match x.run s with
  | .ok a s' => .ok a s'
  | .error e _ => .error e s

/-- A call succeeded, whatever it returned. -/
def succeeds (x : Call ε σ α) (s : σ) : Bool :=
  match x.run s with
  | .ok _ _ => true
  | .error _ _ => false

/-- What a successful call returns. -/
def value? (x : Call ε σ α) (s : σ) : Option α :=
  match x.run s with
  | .ok a _ => some a
  | .error _ _ => none

/-- The error that is raised, if any. -/
def error? (x : Call ε σ α) (s : σ) : Option ε :=
  match x.run s with
  | .ok _ _ => none
  | .error e _ => some e

/-- A call that returns has its value. -/
theorem value?_of_ok {x : Call ε σ α} {s s' : σ} {a : α} (h : x.run s = .ok a s') :
    x.value? s = some a := by
  rw [value?, h]

/-- A call with a value returns it. -/
theorem exists_of_value? {x : Call ε σ α} {s : σ} {a : α} (h : x.value? s = some a) :
    ∃ s', x.run s = .ok a s' := by
  unfold value? at h
  split at h
  case h_1 b s' hrun =>
    obtain rfl := Option.some.inj h
    exact ⟨s', hrun⟩
  case h_2 => cases h

/-- A call that returns has no error. -/
theorem error?_of_ok {x : Call ε σ α} {s s' : σ} {a : α} (h : x.run s = .ok a s') :
    x.error? s = none := by
  rw [error?, h]

/-- Calls in sequence succeed when the first does, and the second in the state it leaves. -/
theorem run_bind_eq_ok {x : Call ε σ α} {f : α → Call ε σ β} {s s' : σ} {b : β} :
    (x >>= f).run s = .ok b s' ↔
      ∃ a s₁, x.run s = .ok a s₁ ∧ (f a).run s₁ = .ok b s' := by
  rw [EStateM.run_bind]
  cases x.run s with
  | ok a t =>
    simp only [EStateM.Result.ok.injEq]
    exact ⟨fun h => ⟨a, t, ⟨rfl, rfl⟩, h⟩, fun ⟨_, _, ⟨ha, ht⟩, h⟩ => by rwa [ha, ht]⟩
  | error e t => simp only [reduceCtorEq, false_and, exists_false]

/-- Calls in sequence fail in the first or in the second. -/
theorem run_bind_eq_error {x : Call ε σ α} {f : α → Call ε σ β} {s s' : σ} {e : ε} :
    (x >>= f).run s = .error e s' ↔
      x.run s = .error e s' ∨ ∃ a s₁, x.run s = .ok a s₁ ∧ (f a).run s₁ = .error e s' := by
  rw [EStateM.run_bind]
  cases x.run s with
  | ok a t =>
    simp only [reduceCtorEq, false_or, EStateM.Result.ok.injEq]
    exact ⟨fun h => ⟨a, t, ⟨rfl, rfl⟩, h⟩, fun ⟨_, _, ⟨ha, ht⟩, h⟩ => by rwa [ha, ht]⟩
  | error e t =>
    simp only [reduceCtorEq, false_and, exists_false, or_false, EStateM.Result.error.injEq]

theorem run_pure_eq_ok {a b : α} {s s' : σ} :
    (pure a : Call ε σ α).run s = .ok b s' ↔ a = b ∧ s = s' := by
  simp

theorem run_throw_eq_ok {e : ε} {s s' : σ} {b : α} :
    (throw e : Call ε σ α).run s = .ok b s' ↔ False := by
  change EStateM.Result.error e s = _ ↔ _
  simp

theorem run_get_eq_ok {s s' a : σ} :
    (get : Call ε σ σ).run s = .ok a s' ↔ s = a ∧ s = s' := by
  simp

theorem run_modify_eq_ok {f : σ → σ} {s s' : σ} {u : PUnit} :
    (modify f : Call ε σ PUnit).run s = .ok u s' ↔ f s = s' := by
  simp

theorem run_set_eq_ok {t s s' : σ} {u : PUnit} :
    (set t : Call ε σ PUnit).run s = .ok u s' ↔ t = s' := by
  simp

theorem run_ensure_eq_ok {c : Prop} [Decidable c] {e : ε} {s s' : σ} {u : Unit} :
    (ensure c e : Call ε σ Unit).run s = .ok u s' ↔ c ∧ s = s' := by
  unfold ensure
  split
  · rename_i h
    simp [h]
  · rename_i h
    simp only [run_throw_eq_ok, h, false_and]

theorem run_ofOption_eq_ok {e : ε} {o : Option α} {s s' : σ} {a : α} :
    (ofOption e o : Call ε σ α).run s = .ok a s' ↔ o = some a ∧ s = s' := by
  cases o with
  | none => simp only [ofOption, run_throw_eq_ok, reduceCtorEq, false_and]
  | some b => simp only [ofOption, run_pure_eq_ok, Option.some.injEq]

theorem run_ofExcept_eq_ok {r : Except ε α} {s s' : σ} {a : α} :
    (ofExcept r : Call ε σ α).run s = .ok a s' ↔ r = .ok a ∧ s = s' := by
  cases r with
  | error e => simp only [ofExcept, run_throw_eq_ok, reduceCtorEq, false_and]
  | ok b => simp only [ofExcept, run_pure_eq_ok, Except.ok.injEq]

theorem run_reads_eq_ok {f : σ → Except ε α} {s s' : σ} {a : α} :
    (reads f).run s = .ok a s' ↔ f s = .ok a ∧ s = s' := by
  simp only [reads, run_bind_eq_ok, run_get_eq_ok, run_ofExcept_eq_ok]
  constructor
  · rintro ⟨_, _, ⟨rfl, rfl⟩, h⟩
    exact h
  · intro h
    exact ⟨s, s, ⟨rfl, rfl⟩, h⟩

/-- A branching call succeeds in the branch taken. -/
theorem run_ite_eq_ok {c : Prop} [Decidable c] {x y : Call ε σ α} {s s' : σ} {a : α} :
    (if c then x else y).run s = .ok a s' ↔
      (c ∧ x.run s = .ok a s') ∨ (¬ c ∧ y.run s = .ok a s') := by
  split <;> simp [*]

/-- An attempted call returns what happened, with the state it was left in. -/
theorem run_attempt_eq_ok {x : Call ε σ α} {s s' : σ} {r : Except ε α} :
    x.attempt.run s = .ok r s' ↔
      (∃ a, r = .ok a ∧ x.run s = .ok a s') ∨ (∃ e, r = .error e ∧ x.run s = .error e s') := by
  change attempt x s = _ ↔ _
  unfold attempt
  cases x.run s with
  | ok b t =>
    simp only [EStateM.Result.ok.injEq, reduceCtorEq, and_false, exists_false, or_false]
    exact ⟨fun ⟨hr, ht⟩ => ⟨b, hr.symm, rfl, ht⟩, fun ⟨_, hr, hb, ht⟩ => ⟨by rw [hr, hb], ht⟩⟩
  | error e t =>
    simp only [EStateM.Result.ok.injEq, EStateM.Result.error.injEq, reduceCtorEq, and_false,
      exists_false, false_or]
    exact ⟨fun ⟨hr, ht⟩ => ⟨e, hr.symm, rfl, ht⟩, fun ⟨_, hr, hb, ht⟩ => ⟨by rw [hr, hb], ht⟩⟩

/-- Renaming the errors of a call changes no success. -/
theorem run_mapError_eq_ok {ε' : Type} {f : ε → ε'} {x : Call ε σ α} {s s' : σ} {a : α} :
    (x.mapError f).run s = .ok a s' ↔ x.run s = .ok a s' := by
  change mapError f x s = _ ↔ _
  unfold mapError
  cases x.run s <;> simp

/-- Renaming the errors of a call renames the one that is raised. -/
theorem run_mapError_eq_error {ε' : Type} {f : ε → ε'} {x : Call ε σ α} {s s' : σ} {e' : ε'} :
    (x.mapError f).run s = .error e' s' ↔ ∃ e, x.run s = .error e s' ∧ f e = e' := by
  change mapError f x s = _ ↔ _
  unfold mapError
  cases x.run s with
  | ok b t => simp only [reduceCtorEq, false_and, exists_false]
  | error e t =>
    simp only [EStateM.Result.error.injEq]
    exact ⟨fun ⟨he, ht⟩ => ⟨e, ⟨rfl, ht⟩, he⟩, fun ⟨_, ⟨he, ht⟩, hf⟩ => ⟨he ▸ hf, ht⟩⟩

/-- A transactional call succeeds as the call does. -/
theorem run_transactional_eq_ok {x : Call ε σ α} {s s' : σ} {a : α} :
    x.transactional.run s = .ok a s' ↔ x.run s = .ok a s' := by
  change transactional x s = _ ↔ _
  unfold transactional
  cases x.run s <;> simp

/-- A call that is rolled back leaves the store as it was. -/
theorem eq_of_transactional_error {x : Call ε σ α} {s s' : σ} {e : ε}
    (h : x.transactional.run s = .error e s') : s' = s := by
  change transactional x s = _ at h
  unfold transactional at h
  cases hrun : x.run s with
  | ok b t =>
    rw [hrun] at h
    cases h
  | error e' t =>
    rw [hrun] at h
    cases h
    rfl

/-- A call succeeds when it returns in some state. -/
theorem succeeds_iff {x : Call ε σ α} {s : σ} :
    x.succeeds s = true ↔ ∃ a s', x.run s = .ok a s' := by
  unfold succeeds
  cases x.run s <;> simp

/-- Calls in sequence succeed when the second does wherever the first returns. -/
theorem succeeds_bind {x : Call ε σ α} {f : α → Call ε σ β} {s : σ} (hx : x.succeeds s = true)
    (hf : ∀ a s', x.run s = .ok a s' → (f a).succeeds s' = true) :
    (x >>= f).succeeds s = true := by
  obtain ⟨a, t, h₁⟩ := succeeds_iff.mp hx
  obtain ⟨b, s', h₂⟩ := succeeds_iff.mp (hf a t h₁)
  exact succeeds_iff.mpr ⟨b, s', run_bind_eq_ok.mpr ⟨a, t, h₁, h₂⟩⟩

/-- After a call whose result is known, the rest decides. -/
theorem succeeds_bind_of_ok {x : Call ε σ α} {f : α → Call ε σ β} {s t : σ} {a : α}
    (hx : x.run s = .ok a t) (hf : (f a).succeeds t = true) : (x >>= f).succeeds s = true := by
  obtain ⟨b, s', h⟩ := succeeds_iff.mp hf
  exact succeeds_iff.mpr ⟨b, s', run_bind_eq_ok.mpr ⟨a, t, hx, h⟩⟩

/-! ### Calls that cannot fail -/

/-- The call succeeds on every store. -/
def NeverFails (x : Call ε σ α) : Prop := ∀ s, ∃ a s', x.run s = .ok a s'

namespace NeverFails

theorem pure (a : α) : NeverFails (Pure.pure a : Call ε σ α) := fun s => ⟨a, s, rfl⟩

theorem get : NeverFails (MonadState.get : Call ε σ σ) := fun s => ⟨s, s, rfl⟩

theorem modify (f : σ → σ) : NeverFails (modifyThe σ f : Call ε σ PUnit) :=
  fun s => ⟨PUnit.unit, f s, rfl⟩

/-- Calls that never fail never fail in sequence. -/
theorem bind {x : Call ε σ α} {f : α → Call ε σ β} (hx : NeverFails x)
    (hf : ∀ a, NeverFails (f a)) : NeverFails (x >>= f) := by
  intro s
  obtain ⟨a, s₁, h₁⟩ := hx s
  obtain ⟨b, s₂, h₂⟩ := hf a s₁
  exact ⟨b, s₂, run_bind_eq_ok.mpr ⟨a, s₁, h₁, h₂⟩⟩

theorem ite {c : Prop} [Decidable c] {x y : Call ε σ α} (hx : NeverFails x) (hy : NeverFails y) :
    NeverFails (if c then x else y) := by
  split <;> assumption

/-- A call that never fails can be repeated for a list. -/
theorem forM {f : β → Call ε σ PUnit} (hf : ∀ b, NeverFails (f b)) (bs : List β) :
    NeverFails (bs.forM f) := by
  induction bs with
  | nil => exact pure PUnit.unit
  | cons b bs ih => exact bind (hf b) fun _ => ih

end NeverFails

end Call

/-! ## Calls on a part of the store -/

/-- A part of type `τ` of a store of type `σ`. -/
structure Lens (σ τ : Type) where
  get : σ → τ
  set : τ → σ → σ

namespace Lens

variable {ε σ τ α : Type}

/-- Run a call on the part of the store that the lens names. -/
def zoom (l : Lens σ τ) (x : Call ε τ α) : Call ε σ α := fun s =>
  match x.run (l.get s) with
  | .ok a t => .ok a (l.set t s)
  | .error e t => .error e (l.set t s)

/-- A call on a part succeeds as it does on the part alone, which is then put back. -/
theorem run_zoom_eq_ok {l : Lens σ τ} {x : Call ε τ α} {s s' : σ} {a : α} :
    (l.zoom x).run s = .ok a s' ↔ ∃ t, x.run (l.get s) = .ok a t ∧ l.set t s = s' := by
  change zoom l x s = _ ↔ _
  unfold zoom
  cases x.run (l.get s) with
  | ok b t =>
    simp only [EStateM.Result.ok.injEq]
    exact ⟨fun ⟨hb, ht⟩ => ⟨t, ⟨hb, rfl⟩, ht⟩, fun ⟨_, ⟨hb, hu⟩, ht⟩ => ⟨hb, hu ▸ ht⟩⟩
  | error e t => simp only [reduceCtorEq, false_and, exists_false]

/-- A call on a part fails as it does on the part alone. -/
theorem run_zoom_eq_error {l : Lens σ τ} {x : Call ε τ α} {s s' : σ} {e : ε} :
    (l.zoom x).run s = .error e s' ↔ ∃ t, x.run (l.get s) = .error e t ∧ l.set t s = s' := by
  change zoom l x s = _ ↔ _
  unfold zoom
  cases x.run (l.get s) with
  | ok b t => simp only [reduceCtorEq, false_and, exists_false]
  | error e' t =>
    simp only [EStateM.Result.error.injEq]
    exact ⟨fun ⟨he, ht⟩ => ⟨t, ⟨he, rfl⟩, ht⟩, fun ⟨_, ⟨he, hu⟩, ht⟩ => ⟨he, hu ▸ ht⟩⟩

/-- Whether a call on a part succeeds is decided by the part. -/
theorem zoom_succeeds {l : Lens σ τ} {x : Call ε τ α} {s : σ} :
    (l.zoom x).succeeds s = x.succeeds (l.get s) := by
  rw [Bool.eq_iff_iff, Call.succeeds_iff, Call.succeeds_iff]
  constructor
  · rintro ⟨a, _, h⟩
    obtain ⟨t, ht, -⟩ := run_zoom_eq_ok.mp h
    exact ⟨a, t, ht⟩
  · rintro ⟨a, t, ht⟩
    exact ⟨a, l.set t s, run_zoom_eq_ok.mpr ⟨t, ht, rfl⟩⟩

/-- A call that never fails does not on a part either. -/
theorem zoom_neverFails {l : Lens σ τ} {x : Call ε τ α} (hx : x.NeverFails) :
    (l.zoom x).NeverFails := by
  intro s
  obtain ⟨a, t, h⟩ := hx (l.get s)
  exact ⟨a, l.set t s, run_zoom_eq_ok.mpr ⟨t, h, rfl⟩⟩

end Lens

/-! ## What a call leaves alone -/

/-- A successful call leaves what `f` reads of the store unchanged. -/
def Keeps {ε σ τ α : Type} (f : σ → τ) (x : Call ε σ α) : Prop :=
  ∀ s a s', x.run s = .ok a s' → f s' = f s

namespace Keeps

variable {ε σ τ ρ α β : Type} {f : σ → τ}

theorem pure (a : α) : Keeps f (Pure.pure a : Call ε σ α) := by
  intro s b s' h
  rw [(Call.run_pure_eq_ok.mp h).2]

/-- What two calls keep they keep in sequence. -/
theorem bind {x : Call ε σ α} {y : α → Call ε σ β} (hx : Keeps f x)
    (hy : ∀ a, Keeps f (y a)) : Keeps f (x >>= y) := by
  intro s b s' h
  obtain ⟨a, s₁, h₁, h₂⟩ := Call.run_bind_eq_ok.mp h
  rw [hy a s₁ b s' h₂, hx s a s₁ h₁]

theorem ite {c : Prop} [Decidable c] {x y : Call ε σ α} (hx : Keeps f x) (hy : Keeps f y) :
    Keeps f (if c then x else y) := by
  split <;> assumption

theorem throw (e : ε) : Keeps f (throwThe ε e : Call ε σ α) := by
  intro s b s' h
  exact (Call.run_throw_eq_ok.mp h).elim

theorem get : Keeps f (MonadState.get : Call ε σ σ) := by
  intro s b s' h
  rw [(Call.run_get_eq_ok.mp h).2]

theorem ensure (c : Prop) [Decidable c] (e : ε) : Keeps f (Call.ensure c e : Call ε σ Unit) := by
  intro s b s' h
  rw [(Call.run_ensure_eq_ok.mp h).2]

theorem ofOption (e : ε) (o : Option α) : Keeps f (Call.ofOption e o : Call ε σ α) := by
  intro s b s' h
  rw [(Call.run_ofOption_eq_ok.mp h).2]

theorem ofExcept (r : Except ε α) : Keeps f (Call.ofExcept r : Call ε σ α) := by
  intro s b s' h
  rw [(Call.run_ofExcept_eq_ok.mp h).2]

theorem reads (r : σ → Except ε α) : Keeps f (Call.reads r) := by
  intro s b s' h
  rw [(Call.run_reads_eq_ok.mp h).2]

theorem modify {g : σ → σ} (hg : ∀ s, f (g s) = f s) :
    Keeps f (modifyThe σ g : Call ε σ PUnit) := by
  intro s b s' h
  rw [← Call.run_modify_eq_ok.mp h, hg]

/-- A call on a part keeps what does not depend on the part. -/
theorem zoom {l : Lens σ ρ} {x : Call ε ρ α} (hl : ∀ t s, f (l.set t s) = f s) :
    Keeps f (l.zoom x) := by
  intro s b s' h
  obtain ⟨t, _, rfl⟩ := Lens.run_zoom_eq_ok.mp h
  exact hl t s

/-- A part that is left alone is left alone by a call on it. -/
theorem zoom_of {l : Lens σ ρ} {x : Call ε ρ α} {g : ρ → β} (hx : Keeps g x)
    (hget : ∀ s t, g t = g (l.get s) → f (l.set t s) = f s) : Keeps f (l.zoom x) := by
  intro s b s' h
  obtain ⟨t, ht, rfl⟩ := Lens.run_zoom_eq_ok.mp h
  exact hget s t (hx _ _ _ ht)

theorem forM {g : β → Call ε σ PUnit} (hg : ∀ b, Keeps f (g b)) (bs : List β) :
    Keeps f (bs.forM g) := by
  induction bs with
  | nil => exact pure PUnit.unit
  | cons b bs ih => exact bind (hg b) fun _ => ih

/-- What is computed from a part that is left alone is left alone. -/
theorem comp {x : Call ε σ α} (g : τ → ρ) (hx : Keeps f x) : Keeps (fun s => g (f s)) x :=
  fun s a s' h => congrArg g (hx s a s' h)

end Keeps

/-- The call leaves what `f` reads of the store unchanged, whether or not it succeeds. -/
structure Frames {ε σ τ α : Type} (f : σ → τ) (x : Call ε σ α) : Prop where
  ok : Keeps f x
  error : ∀ s e s', x.run s = .error e s' → f s' = f s

namespace Frames

variable {ε σ τ ρ α β : Type} {f : σ → τ}

theorem pure (a : α) : Frames f (Pure.pure a : Call ε σ α) where
  ok := .pure a
  error := by
    rintro s e s' ⟨⟩

/-- What two calls frame they frame in sequence. -/
theorem bind {x : Call ε σ α} {y : α → Call ε σ β} (hx : Frames f x) (hy : ∀ a, Frames f (y a)) :
    Frames f (x >>= y) where
  ok := .bind hx.ok fun a => (hy a).ok
  error := by
    intro s e s' h
    obtain h | ⟨a, t, h₁, h₂⟩ := Call.run_bind_eq_error.mp h
    · exact hx.error s e s' h
    · rw [(hy a).error t e s' h₂, hx.ok s a t h₁]

theorem ite {c : Prop} [Decidable c] {x y : Call ε σ α} (hx : Frames f x) (hy : Frames f y) :
    Frames f (if c then x else y) := by
  split <;> assumption

theorem throw (e : ε) : Frames f (throwThe ε e : Call ε σ α) where
  ok := .throw e
  error := by
    rintro s e s' ⟨⟩
    rfl

theorem get : Frames f (MonadState.get : Call ε σ σ) where
  ok := .get
  error := by
    rintro s e s' ⟨⟩

theorem ensure (c : Prop) [Decidable c] (e : ε) : Frames f (Call.ensure c e : Call ε σ Unit) := by
  unfold Call.ensure
  exact .ite (.pure ()) (.throw e)

theorem ofOption (e : ε) (o : Option α) : Frames f (Call.ofOption e o : Call ε σ α) := by
  cases o with
  | none => exact .throw e
  | some a => exact .pure a

theorem ofExcept (r : Except ε α) : Frames f (Call.ofExcept r : Call ε σ α) := by
  cases r with
  | error e => exact .throw e
  | ok a => exact .pure a

theorem reads (r : σ → Except ε α) : Frames f (Call.reads r) :=
  .bind .get fun _ => .ofExcept _

theorem modify {g : σ → σ} (hg : ∀ s, f (g s) = f s) :
    Frames f (modifyThe σ g : Call ε σ PUnit) where
  ok := by
    intro s a s' h
    rw [← Call.run_modify_eq_ok.mp h, hg]
  error := by
    rintro s e s' ⟨⟩

/-- A call on a part frames what does not depend on the part. -/
theorem zoom {l : Lens σ ρ} {x : Call ε ρ α} (hl : ∀ t s, f (l.set t s) = f s) :
    Frames f (l.zoom x) where
  ok := .zoom hl
  error := by
    intro s e s' h
    change Lens.zoom l x s = _ at h
    unfold Lens.zoom at h
    cases hx : x.run (l.get s) with
    | ok a t =>
      rw [hx] at h
      cases h
    | error e t =>
      rw [hx] at h
      cases h
      exact hl t s

theorem forM {g : β → Call ε σ PUnit} (hg : ∀ b, Frames f (g b)) (bs : List β) :
    Frames f (bs.forM g) := by
  induction bs with
  | nil => exact pure PUnit.unit
  | cons b bs ih => exact bind (hg b) fun _ => ih

/-- Attempting a call keeps what it frames. -/
theorem attempt {x : Call ε σ α} (hx : Frames f x) : Frames f x.attempt where
  ok := by
    intro s r s' h
    obtain ⟨a, -, h⟩ | ⟨e, -, h⟩ := Call.run_attempt_eq_ok.mp h
    · exact hx.ok s a s' h
    · exact hx.error s e s' h
  error := by
    intro s e s' h
    change Call.attempt x s = _ at h
    unfold Call.attempt at h
    cases hx' : x.run s with
    | ok a t =>
      rw [hx'] at h
      cases h
    | error e t =>
      rw [hx'] at h
      cases h

end Frames

/-- A call that fails has left what `f` reads of the store unchanged. -/
def KeepsOnError {ε σ τ α : Type} (f : σ → τ) (x : Call ε σ α) : Prop :=
  ∀ s e s', x.run s = .error e s' → f s' = f s

namespace KeepsOnError

variable {ε σ τ ρ α β : Type} {f : σ → τ}

/-- A sequence keeps its view on errors when the first call frames it. -/
theorem bind {x : Call ε σ α} {y : α → Call ε σ β} (hx : Frames f x)
    (hy : ∀ a, KeepsOnError f (y a)) : KeepsOnError f (x >>= y) := by
  intro s e s' h
  obtain h | ⟨a, t, h₁, h₂⟩ := Call.run_bind_eq_error.mp h
  · exact hx.error s e s' h
  · rw [hy a t e s' h₂, hx.ok s a t h₁]

/-- Only the first of two calls can fail. -/
theorem bind_neverFails {x : Call ε σ α} {y : α → Call ε σ β} (hx : KeepsOnError f x)
    (hy : ∀ a, (y a).NeverFails) : KeepsOnError f (x >>= y) := by
  intro s e s' h
  obtain h | ⟨a, t, h₁, h₂⟩ := Call.run_bind_eq_error.mp h
  · exact hx s e s' h
  · obtain ⟨b, t', hb⟩ := hy a t
    cases hb.symm.trans h₂

/-- A view that is kept on the errors of a part is kept on those of the whole. -/
theorem zoom {l : Lens σ ρ} {x : Call ε ρ α} {g : ρ → β} (hx : KeepsOnError g x)
    (hget : ∀ s t, g t = g (l.get s) → f (l.set t s) = f s) : KeepsOnError f (l.zoom x) := by
  intro s e s' h
  change Lens.zoom l x s = _ at h
  unfold Lens.zoom at h
  cases hx' : x.run (l.get s) with
  | ok a t =>
    rw [hx'] at h
    cases h
  | error e t =>
    rw [hx'] at h
    cases h
    exact hget s t (hx _ _ _ hx')

/-- A call that never fails has no errors to keep anything on. -/
theorem of_neverFails {x : Call ε σ α} (hx : x.NeverFails) : KeepsOnError f x := by
  intro s e s' h
  obtain ⟨b, t', hb⟩ := hx s
  cases hb.symm.trans h

end KeepsOnError

/-- An attempted call leaves `f` alone if the call does so whether or not it succeeds. -/
theorem Keeps.attempt {ε σ τ α : Type} {f : σ → τ} {x : Call ε σ α} (hx : Keeps f x)
    (he : KeepsOnError f x) : Keeps f x.attempt :=
  (Frames.attempt ⟨hx, he⟩).ok

/-! ## What a call maintains -/

/-- A successful call takes stores with the property to stores with the property. -/
def Maintains {ε σ α : Type} (P : σ → Prop) (x : Call ε σ α) : Prop :=
  ∀ s a s', x.run s = .ok a s' → P s → P s'

namespace Maintains

variable {ε σ τ α β : Type} {P : σ → Prop}

/-- What two calls maintain they maintain in sequence. -/
theorem bind {x : Call ε σ α} {y : α → Call ε σ β} (hx : Maintains P x)
    (hy : ∀ a, Maintains P (y a)) : Maintains P (x >>= y) := by
  intro s b s' h hs
  obtain ⟨a, t, h₁, h₂⟩ := Call.run_bind_eq_ok.mp h
  exact hy a t b s' h₂ (hx s a t h₁ hs)

theorem ite {c : Prop} [Decidable c] {x y : Call ε σ α} (hx : Maintains P x)
    (hy : Maintains P y) : Maintains P (if c then x else y) := by
  split <;> assumption

/-- A property of a view is maintained by the calls that keep the view. -/
theorem of_keeps {x : Call ε σ α} {f : σ → τ} {Q : τ → Prop} (h : Keeps f x)
    (hP : ∀ s, P s ↔ Q (f s)) : Maintains P x := by
  intro s a s' hrun hs
  rw [hP, h s a s' hrun, ← hP]
  exact hs

/-- A call that changes nothing maintains everything. -/
theorem of_still {x : Call ε σ α} (h : Keeps id x) : Maintains P x := of_keeps h fun _ => Iff.rfl

theorem pure (a : α) : Maintains P (Pure.pure a : Call ε σ α) := of_still (.pure a)

theorem ensure (c : Prop) [Decidable c] (e : ε) :
    Maintains P (Call.ensure c e : Call ε σ Unit) := of_still (.ensure c e)

theorem ofExcept (r : Except ε α) : Maintains P (Call.ofExcept r : Call ε σ α) :=
  of_still (.ofExcept r)

theorem ofOption (e : ε) (o : Option α) : Maintains P (Call.ofOption e o : Call ε σ α) :=
  of_still (.ofOption e o)

theorem modify {f : σ → σ} (hf : ∀ s, P s → P (f s)) :
    Maintains P (modifyThe σ f : Call ε σ PUnit) := by
  intro s a s' h hs
  rw [← Call.run_modify_eq_ok.mp h]
  exact hf s hs

theorem forM {f : β → Call ε σ PUnit} (hf : ∀ b, Maintains P (f b)) (bs : List β) :
    Maintains P (bs.forM f) := by
  induction bs with
  | nil => exact pure PUnit.unit
  | cons b bs ih => exact bind (hf b) fun _ => ih

/-- A call that goes on with what it reads of the store. -/
theorem get_bind {f : σ → Call ε σ β} (hf : ∀ s, Maintains P (f s)) :
    Maintains P (MonadState.get >>= f) := bind (of_still .get) hf

end Maintains

/-! ## What a call raises -/

/-- From a store, the call raises no error but those of a class. -/
def RaisesOnly {ε σ α : Type} (P : ε → Prop) (x : Call ε σ α) (s : σ) : Prop :=
  ∀ e s', x.run s = .error e s' → P e

namespace RaisesOnly

variable {ε σ ρ α β : Type} {P Q : ε → Prop} {s : σ}

/-- A call that succeeds raises nothing. -/
theorem of_succeeds {x : Call ε σ α} (h : x.succeeds s = true) : RaisesOnly P x s := by
  obtain ⟨a, t, ht⟩ := Call.succeeds_iff.mp h
  intro e s' hs'
  rw [ht] at hs'
  cases hs'

/-- A call that can raise no error at all succeeds. -/
theorem succeeds {x : Call ε σ α} (h : RaisesOnly (fun _ => False) x s) : x.succeeds s = true := by
  unfold Call.succeeds
  cases hx : x.run s with
  | ok a s' => rfl
  | error e s' => exact (h e s' hx).elim

/-- A call that never fails raises nothing. -/
theorem of_neverFails {x : Call ε σ α} (h : x.NeverFails) : RaisesOnly P x s :=
  of_succeeds (Call.succeeds_iff.mpr (h s))

/-- A call that raises other errors only does not raise this one. -/
theorem error?_ne {x : Call ε σ α} {e : ε} (h : RaisesOnly (· ≠ e) x s) : x.error? s ≠ some e := by
  unfold Call.error?
  cases hx : x.run s with
  | ok a s' => exact Option.some_ne_none e ∘ Eq.symm
  | error e' s' => exact fun he => h e' s' hx (Option.some.inj he)

theorem pure (a : α) : RaisesOnly P (Pure.pure a : Call ε σ α) s := by
  rintro e s' ⟨⟩

theorem throw {e : ε} (h : P e) : RaisesOnly P (throwThe ε e : Call ε σ α) s := by
  rintro e s' ⟨⟩
  exact h

/-- A sequence raises what its calls raise, in the states they are run in. -/
theorem bind {x : Call ε σ α} {f : α → Call ε σ β} (hx : RaisesOnly P x s)
    (hf : ∀ a s', x.run s = .ok a s' → RaisesOnly P (f a) s') : RaisesOnly P (x >>= f) s := by
  intro e s' h
  obtain h | ⟨a, t, ha, h⟩ := Call.run_bind_eq_error.mp h
  · exact hx e s' h
  · exact hf a t ha e s' h

theorem get_bind {f : σ → Call ε σ β} (h : RaisesOnly P (f s) s) :
    RaisesOnly P (MonadState.get >>= f) s :=
  bind (of_neverFails .get) fun a s' ha => by
    obtain ⟨rfl, rfl⟩ := Call.run_get_eq_ok.mp ha
    exact h

theorem ite {c : Prop} [Decidable c] {x y : Call ε σ α} (hx : c → RaisesOnly P x s)
    (hy : ¬ c → RaisesOnly P y s) : RaisesOnly P (if c then x else y) s := by
  split
  · exact hx ‹_›
  · exact hy ‹_›

theorem ensure {c : Prop} [Decidable c] {e : ε} (h : ¬ c → P e) :
    RaisesOnly P (Call.ensure c e) s :=
  ite (fun _ => .pure ()) fun hc => .throw (h hc)

theorem ofExcept {r : Except ε α} (h : ∀ e, r = .error e → P e) :
    RaisesOnly P (Call.ofExcept r) s := by
  cases r with
  | ok a => exact .pure a
  | error e => exact .throw (h e rfl)

theorem ofExcept_bind {r : Except ε α} {f : α → Call ε σ β} (h : ∀ e, r = .error e → P e)
    (hf : ∀ a, r = .ok a → RaisesOnly P (f a) s) : RaisesOnly P (Call.ofExcept r >>= f) s :=
  bind (ofExcept h) fun a s' ha => by
    obtain ⟨hr, rfl⟩ := Call.run_ofExcept_eq_ok.mp ha
    exact hf a hr

theorem reads {r : σ → Except ε α} (h : ∀ e, r s = .error e → P e) :
    RaisesOnly P (Call.reads r) s :=
  get_bind (ofExcept h)

theorem reads_bind {r : σ → Except ε α} {f : α → Call ε σ β} (h : ∀ e, r s = .error e → P e)
    (hf : ∀ a, r s = .ok a → RaisesOnly P (f a) s) : RaisesOnly P (Call.reads r >>= f) s :=
  bind (reads h) fun a s' ha => by
    obtain ⟨hr, rfl⟩ := Call.run_reads_eq_ok.mp ha
    exact hf a hr

theorem ensure_bind {c : Prop} [Decidable c] {e : ε} {f : Unit → Call ε σ β} (h : ¬ c → P e)
    (hf : c → RaisesOnly P (f ()) s) : RaisesOnly P (Call.ensure c e >>= f) s :=
  bind (ensure h) fun a s' ha => by
    obtain ⟨hc, rfl⟩ := Call.run_ensure_eq_ok.mp ha
    exact hf hc

/-- A call on a part raises what it raises on the part alone. -/
theorem zoom {l : Lens σ ρ} {x : Call ε ρ α} (h : RaisesOnly P x (l.get s)) :
    RaisesOnly P (l.zoom x) s := by
  intro e s' hs'
  change Lens.zoom l x s = _ at hs'
  unfold Lens.zoom at hs'
  cases hx : x.run (l.get s) with
  | ok a t =>
    rw [hx] at hs'
    cases hs'
  | error e' t =>
    rw [hx] at hs'
    cases hs'
    exact h e t hx

/-- A call whose errors are all renamed raises renamed errors. -/
theorem mapError {ε' : Type} {P : ε' → Prop} {g : ε → ε'} {x : Call ε σ α} (h : ∀ e, P (g e)) :
    RaisesOnly P (x.mapError g) s := by
  intro e s' hs'
  change Call.mapError g x s = _ at hs'
  unfold Call.mapError at hs'
  cases hx : x.run s with
  | ok a t =>
    rw [hx] at hs'
    cases hs'
  | error e' t =>
    rw [hx] at hs'
    cases hs'
    exact h e'

end RaisesOnly

/-- An attempted call returns the error instead of raising it. -/
theorem Call.attempt_neverFails {ε σ α : Type} (x : Call ε σ α) : x.attempt.NeverFails := by
  intro s
  change ∃ a s', Call.attempt x s = _
  unfold Call.attempt
  cases x.run s with
  | ok a s' => exact ⟨_, _, rfl⟩
  | error e s' => exact ⟨_, _, rfl⟩

end Core
