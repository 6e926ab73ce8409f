import Interbtc.Core.Call
import Mathlib.Algebra.Order.Ring.Rat
import Mathlib.Tactic.Linarith

/-!
# Runs

A run takes a list of operations one after the other. What one step preserves
under a condition, every run whose steps all meet the condition preserves.
-/

namespace Core

variable {σ ο : Type}

/-- The store after a call made as a transaction: a failed call changes nothing. -/
def Call.commit {ε α : Type} (x : Call ε σ α) (s : σ) : σ :=
  match x.run s with
  | .ok _ s' => s'
  | .error _ _ => s

/-- A call that returns is committed. -/
theorem Call.commit_of_ok {ε α : Type} {x : Call ε σ α} {s s' : σ} {a : α}
    (h : x.run s = .ok a s') : x.commit s = s' := by
  rw [Call.commit, h]

/-- A call that succeeds returns in the state it commits. -/
theorem Call.run_eq_ok_commit {ε : Type} {x : Call ε σ Unit} {s : σ}
    (h : x.succeeds s = true) : x.run s = .ok () (x.commit s) := by
  obtain ⟨_, s', hs⟩ := Call.succeeds_iff.mp h
  rw [Call.commit_of_ok hs, hs]

/-- A committed call either succeeded or changed nothing. -/
theorem Call.commit_cases {ε α : Type} (x : Call ε σ α) (s : σ) :
    (∃ a, x.run s = .ok a (x.commit s)) ∨ (x.succeeds s = false ∧ x.commit s = s) := by
  unfold Call.commit Call.succeeds
  cases x.run s with
  | ok a s' => exact .inl ⟨a, rfl⟩
  | error e s' => exact .inr ⟨rfl, rfl⟩

/-- What a call maintains, its transaction maintains. -/
theorem Maintains.commit {ε α : Type} {P : σ → Prop} {x : Call ε σ α} (hx : Maintains P x)
    {s : σ} (hs : P s) : P (x.commit s) := by
  rcases x.commit_cases s with ⟨a, h⟩ | ⟨-, h⟩
  · exact hx s a _ h hs
  · rwa [h]

variable (step : σ → ο → σ)

/-- The state after the operations of a run. -/
def run (s : σ) (ops : List ο) : σ := ops.foldl step s

/-- Every operation meets the condition in the state in which it is taken. -/
def Meets (cond : σ → ο → Prop) : σ → List ο → Prop
  | _, [] => True
  | s, o :: ops => cond s o ∧ Meets cond (step s o) ops

instance Meets.decidable {cond : σ → ο → Prop} [∀ s o, Decidable (cond s o)] :
    ∀ s ops, Decidable (Meets step cond s ops)
  | _, [] => inferInstanceAs (Decidable True)
  | s, o :: ops =>
    have : Decidable (Meets step cond (step s o) ops) := Meets.decidable (step s o) ops
    inferInstanceAs (Decidable (cond s o ∧ Meets step cond (step s o) ops))

/-- What the steps of a run add up to. -/
def accrue (cost : σ → ο → ℚ) : σ → List ο → ℚ
  | _, [] => 0
  | s, o :: ops => cost s o + accrue cost (step s o) ops

variable {step}

@[simp] theorem run_nil (s : σ) : run step s [] = s := rfl

@[simp] theorem run_cons (s : σ) (o : ο) (ops : List ο) :
    run step s (o :: ops) = run step (step s o) ops := rfl

/-- A run goes on where the one before it ended. -/
theorem run_append (s : σ) (ops ops' : List ο) :
    run step s (ops ++ ops') = run step (run step s ops) ops' :=
  List.foldl_append

/-- A constant factor of the costs is one of their sum. -/
theorem accrue_mul_left (c : ℚ) (cost : σ → ο → ℚ) (s : σ) (ops : List ο) :
    accrue step (fun s o => c * cost s o) s ops = c * accrue step cost s ops := by
  induction ops generalizing s with
  | nil => simp [accrue]
  | cons o ops ih => rw [accrue, accrue, ih, mul_add]

/-- Differences of costs add up to the difference of their sums. -/
theorem accrue_sub (cost cost' : σ → ο → ℚ) (s : σ) (ops : List ο) :
    accrue step (fun s o => cost s o - cost' s o) s ops =
      accrue step cost s ops - accrue step cost' s ops := by
  induction ops generalizing s with
  | nil => simp [accrue]
  | cons o ops ih =>
    rw [accrue, accrue, accrue, ih]
    linarith

/-- What every step preserves, every run preserves. -/
theorem run_invariant {cond : σ → ο → Prop} {inv : σ → Prop}
    (hstep : ∀ s o, inv s → cond s o → inv (step s o)) {s : σ} {ops : List ο} (hs : inv s)
    (h : Meets step cond s ops) : inv (run step s ops) := by
  induction ops generalizing s with
  | nil => exact hs
  | cons o ops ih => exact ih (hstep s o hs h.1) h.2

/-- What every step preserves without a condition. -/
theorem run_preserves {inv : σ → Prop} (hstep : ∀ s o, inv s → inv (step s o)) {s : σ}
    (hs : inv s) (ops : List ο) : inv (run step s ops) := by
  induction ops generalizing s with
  | nil => exact hs
  | cons o ops ih => exact ih (hstep s o hs)

/-- A quantity that each step changes by at most its cost stays within the run's cost. -/
theorem run_bounded {cond : σ → ο → Prop} (inv : ℕ → σ → Prop) (f : σ → ℚ) (cost : σ → ο → ℚ)
    {m : ℕ} (hstep : ∀ n s o, n < m → inv n s → cond s o → inv (n + 1) (step s o))
    (hcost : ∀ n s o, n < m → inv n s → cond s o → f (step s o) ≤ f s + cost s o)
    {s : σ} {ops : List ο} (n : ℕ) (hn : n + ops.length ≤ m) (hs : inv n s)
    (h : Meets step cond s ops) :
    f (run step s ops) ≤ f s + accrue step cost s ops := by
  induction ops generalizing s n with
  | nil => simp [accrue]
  | cons o ops ih =>
    rw [List.length_cons] at hn
    have h₁ := ih (n + 1) (by omega) (hstep n s o (by omega) hs h.1) h.2
    have h₂ := hcost n s o (by omega) hs h.1
    rw [run_cons, accrue]
    linarith

/-- A run that meets a condition meets a weaker one. -/
theorem Meets.mono {cond cond' : σ → ο → Prop} (hc : ∀ s o, cond s o → cond' s o)
    {s : σ} {ops : List ο} (h : Meets step cond s ops) : Meets step cond' s ops := by
  induction ops generalizing s with
  | nil => trivial
  | cons o ops ih => exact ⟨hc s o h.1, ih h.2⟩

/-- A run meets a condition when its parts do. -/
theorem Meets.append_iff {cond : σ → ο → Prop} {s : σ} {ops ops' : List ο} :
    Meets step cond s (ops ++ ops') ↔
      Meets step cond s ops ∧ Meets step cond (run step s ops) ops' := by
  induction ops generalizing s with
  | nil =>
    rw [run_nil]
    exact ⟨fun h => ⟨trivial, h⟩, fun h => h.2⟩
  | cons o ops ih =>
    rw [run_cons]
    constructor
    · intro ⟨ho, h⟩
      exact ⟨⟨ho, (ih.mp h).1⟩, (ih.mp h).2⟩
    · intro ⟨⟨ho, h⟩, h'⟩
      exact ⟨ho, ih.mpr ⟨h, h'⟩⟩

/-- A condition that every operation of a run meets in any state. -/
theorem Meets.and_of_forall {cond : σ → ο → Prop} {p : ο → Prop} {s : σ} {ops : List ο}
    (h : Meets step cond s ops) (hp : ∀ o ∈ ops, p o) :
    Meets step (fun s o => p o ∧ cond s o) s ops := by
  induction ops generalizing s with
  | nil => trivial
  | cons o ops ih =>
    exact ⟨⟨hp o List.mem_cons_self, h.1⟩, ih h.2 fun o ho => hp o (List.mem_cons_of_mem _ ho)⟩

/-! A run on given operations is evaluated by the kernel only. -/

attribute [irreducible] run

/-! ## Accounts of a sample run

They are numerals. -/

instance neZero_two : NeZero 2 := ⟨by decide⟩

instance neZero_three : NeZero 3 := ⟨by decide⟩

end Core
