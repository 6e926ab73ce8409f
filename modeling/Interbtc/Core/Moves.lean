import Interbtc.Core.Call
import Mathlib.Algebra.Group.Basic

/-!
# Weighted moves

A composite call is a chain of moves, and each move carries a weight. The call is
described by the sum of the weights it makes; what every move preserves, the call does.
-/

namespace Core

variable {ε σ τ α β M : Type} [AddMonoid M]

/-- A chain of moves, with the sum of their weights. -/
inductive Trail (R : M → σ → σ → Prop) : M → σ → σ → Prop
  | refl (s : σ) : Trail R 0 s s
  | cons {m m' : M} {s t u : σ} : R m s t → Trail R m' t u → Trail R (m + m') s u

namespace Trail

variable {R : M → σ → σ → Prop} {m m' : M} {s t u : σ}

theorem single (h : R m s t) : Trail R m s t := by
  have := Trail.cons h (.refl t)
  rwa [add_zero] at this

/-- Trails join, and their weights add up. -/
theorem trans (h : Trail R m s t) (h' : Trail R m' t u) : Trail R (m + m') s u := by
  induction h with
  | refl => rwa [zero_add]
  | cons hstep _ ih =>
    rw [add_assoc]
    exact .cons hstep (ih h')

/-- A trail without weight joins one of any weight. -/
theorem trans_zero (h : Trail R 0 s t) (h' : Trail R m t u) : Trail R m s u := by
  have := h.trans h'
  rwa [zero_add] at this

/-- What every move preserves, the chain preserves. -/
theorem preserves {P : σ → Prop} (hP : ∀ m s t, R m s t → P s → P t) (h : Trail R m s t)
    (hs : P s) : P t := by
  induction h with
  | refl => exact hs
  | cons hstep _ ih => exact ih (hP _ _ _ hstep hs)

/-- A chain is seen as a chain of what the moves do to an observation. -/
theorem map {ρ : Type} {R' : M → ρ → ρ → Prop} (f : σ → ρ)
    (hR : ∀ m s t, R m s t → R' m (f s) (f t)) (h : Trail R m s t) : Trail R' m (f s) (f t) := by
  induction h with
  | refl => exact .refl _
  | cons hstep _ ih => exact .cons (hR _ _ _ hstep) ih

end Trail

/-- A successful call is a chain of moves, whose weight its result determines. -/
def Follows (R : M → σ → σ → Prop) (x : Call ε σ α) (w : α → M) : Prop :=
  ∀ s a s', x.run s = .ok a s' → Trail R (w a) s s'

namespace Follows

variable {R : M → σ → σ → Prop} {x : Call ε σ α} {y : α → Call ε σ β} {w : α → M} {w' : β → M}

theorem pure (a : α) : Follows R (Pure.pure a : Call ε σ α) fun _ => 0 := by
  intro s b s' h
  obtain ⟨-, rfl⟩ := Call.run_pure_eq_ok.mp h
  exact .refl _

/-- Calls that follow trails follow their join. -/
theorem bind {v : α → β → M} (hx : Follows R x w) (hy : ∀ a, Follows R (y a) (v a))
    (hw : ∀ a b, w a + v a b = w' b) : Follows R (x >>= y) w' := by
  intro s b s' h
  obtain ⟨a, t, h₁, h₂⟩ := Call.run_bind_eq_ok.mp h
  rw [← hw a b]
  exact (hx s a t h₁).trans (hy a t b s' h₂)

/-- A first call without weight. -/
theorem bind_zero (hx : Follows R x fun _ => 0) (hy : ∀ a, Follows R (y a) w') :
    Follows R (x >>= y) w' :=
  bind hx hy fun _ _ => zero_add _

theorem ite {c : Prop} [Decidable c] {x y : Call ε σ α} (hx : Follows R x w)
    (hy : Follows R y w) : Follows R (if c then x else y) w := by
  split <;> assumption

/-- A call that changes nothing makes no move. -/
theorem of_keeps (hx : Keeps id x) : Follows R x fun _ => 0 := by
  intro s a s' h
  rw [show s' = s from hx s a s' h]
  exact .refl _

theorem get : Follows R (MonadState.get : Call ε σ σ) fun _ => 0 := .of_keeps .get

theorem ensure (c : Prop) [Decidable c] (e : ε) :
    Follows R (Call.ensure c e : Call ε σ Unit) fun _ => 0 := .of_keeps (.ensure c e)

theorem ofExcept (r : Except ε α) : Follows R (Call.ofExcept r : Call ε σ α) fun _ => 0 :=
  .of_keeps (.ofExcept r)

theorem reads (r : σ → Except ε α) : Follows R (Call.reads r) fun _ => 0 := .of_keeps (.reads r)

/-- A loop makes the moves of its steps. -/
theorem foldlM {f : β → α → Call ε σ β} (hf : ∀ b a, Follows R (f b a) fun _ => 0) (b : β)
    (as : List α) : Follows R (as.foldlM f b) fun _ => 0 := by
  induction as generalizing b with
  | nil => exact pure b
  | cons a as ih => exact bind_zero (hf b a) ih

/-- The whole call is one move. -/
theorem of_move (hx : ∀ s a s', x.run s = .ok a s' → R (w a) s s') : Follows R x w :=
  fun s a s' h => .single (hx s a s' h)

end Follows

/-- A chain of moves, where the call starts in a state of a kind. -/
def FollowsFrom (P : σ → Prop) (R : M → σ → σ → Prop) (x : Call ε σ α) (w : α → M) : Prop :=
  ∀ s a s', P s → x.run s = .ok a s' → Trail R (w a) s s'

namespace FollowsFrom

variable {P : σ → Prop} {R : M → σ → σ → Prop} {x : Call ε σ α} {y : α → Call ε σ β} {w : β → M}

/-- A call without weight that maintains the condition can come first. -/
theorem bind_zero (hx : Follows R x fun _ => 0) (hP : Maintains P x)
    (hy : ∀ a, FollowsFrom P R (y a) w) : FollowsFrom P R (x >>= y) w := by
  intro s b s' hs h
  obtain ⟨a, t, h₁, h₂⟩ := Call.run_bind_eq_ok.mp h
  exact (hx s a t h₁).trans_zero (hy a t b s' (hP s a t h₁ hs) h₂)

/-- A first call that changes nothing. -/
theorem bind_keeps (hx : Keeps id x) (hy : ∀ a, FollowsFrom P R (y a) w) :
    FollowsFrom P R (x >>= y) w :=
  bind_zero (.of_keeps hx) (.of_still hx) hy

theorem ensure_bind {c : Prop} [Decidable c] {e : ε} {y : Unit → Call ε σ β}
    (hy : c → ∀ a, FollowsFrom P R (y a) w) : FollowsFrom P R (Call.ensure c e >>= y) w := by
  intro s b s' hs h
  simp only [Call.run_bind_eq_ok, Call.run_ensure_eq_ok] at h
  obtain ⟨a, _, ⟨hc, rfl⟩, h⟩ := h
  exact hy hc a s b s' hs h

/-- A first call after which the state is of the kind. -/
theorem after (hx : Follows R x fun _ => 0) (hP : ∀ s a s', x.run s = .ok a s' → P s')
    (hy : ∀ a, FollowsFrom P R (y a) w) : Follows R (x >>= y) w := by
  intro s b s' h
  obtain ⟨a, t, h₁, h₂⟩ := Call.run_bind_eq_ok.mp h
  exact (hx s a t h₁).trans_zero (hy a t b s' (hP s a t h₁) h₂)

end FollowsFrom

end Core
