import Mathlib.Data.List.Basic

/-!
# Readers and their grammars

A reader takes a value from a position of an input and says where it stopped. It can refuse
the input with an error, and it can panic. A grammar says which strings stand for which
values, and on which inputs there is a panic; a reader is described by a grammar when it
accepts exactly those strings and panics on exactly those inputs. Grammars compose as readers
do, so the grammar of a whole format is found piece by piece.
-/

namespace Core

/-- How a computation stops short: with an error that it reports, or with a panic. -/
inductive Fault (ε : Type) where
  | error (e : ε)
  | panic
  deriving DecidableEq, Repr

/-- A reader is given the whole input and its position in it. -/
def Reader (β ε α : Type) : Type := List β → ℕ → Except (Fault ε) (α × ℕ)

variable {β ε α γ : Type}

namespace Reader

instance : Monad (Reader β ε) where
  pure a := fun _ position => .ok (a, position)
  bind p f := fun input position =>
    match p input position with
    | .ok (a, next) => f a input next
    | .error fault => .error fault

/-- Refuse the input. -/
def fail (e : ε) : Reader β ε α := fun _ _ => .error (.error e)

/-- A reader that panics. -/
def panic : Reader β ε α := fun _ _ => .error .panic

/-- Refuse the input unless a condition holds. -/
def ensure (condition : Prop) [Decidable condition] (e : ε) : Reader β ε Unit :=
  if condition then pure () else fail e

/-- Read a number of values one after the other. -/
def times (p : Reader β ε α) : ℕ → Reader β ε (List α)
  | 0 => pure []
  | n + 1 => do
    let a ← p
    let as ← times p n
    pure (a :: as)

/-- Read one value for each item of a list. -/
def forEach {ι : Type} (f : ι → Reader β ε α) : List ι → Reader β ε (List α)
  | [] => pure []
  | i :: is => do
    let a ← f i
    let as ← forEach f is
    pure (a :: as)

end Reader

/-- The strings that stand for values, and the inputs on which there is a panic. Whether
there is one can depend on the position too. -/
structure Grammar (β α : Type) where
  accepts : List β → α → Prop
  traps : ℕ → List β → Prop

namespace Grammar

/-- Nothing is read, and a value is returned. -/
def pure (a : α) : Grammar β α := ⟨fun b a' => b = [] ∧ a' = a, fun _ _ => False⟩

/-- Nothing is accepted. -/
def fail : Grammar β α := ⟨fun _ _ => False, fun _ _ => False⟩

/-- Everything is a trap. -/
def panic : Grammar β α := ⟨fun _ _ => False, fun _ _ => True⟩

/-- One string after the other. There is a panic in the first part, or in the second one
after a first part that is accepted. -/
def bind (G : Grammar β α) (H : α → Grammar β γ) : Grammar β γ where
  accepts b c := ∃ b₁ b₂ a, b = b₁ ++ b₂ ∧ G.accepts b₁ a ∧ (H a).accepts b₂ c
  traps position s := G.traps position s ∨
    ∃ b s' a, s = b ++ s' ∧ G.accepts b a ∧ (H a).traps (position + b.length) s'

/-- Nothing is read, and a condition has to hold. -/
def ensure (condition : Prop) [Decidable condition] : Grammar β Unit :=
  if condition then pure () else fail

/-- The grammar of a reader that counts its position from zero. -/
def sliced (G : Grammar β α) : Grammar β α := ⟨G.accepts, fun _ s => G.traps 0 s⟩

/-- A grammar repeated a number of times. -/
def times (G : Grammar β α) : ℕ → Grammar β (List α)
  | 0 => pure []
  | n + 1 => G.bind fun a => (G.times n).bind fun as => pure (a :: as)

/-- One grammar after the other for each of a list. -/
def forEach {ι : Type} (F : ι → Grammar β α) : List ι → Grammar β (List α)
  | [] => pure []
  | i :: is => (F i).bind fun a => (forEach F is).bind fun as => pure (a :: as)

/-- Each value has one string. -/
def exact (format : α → List β) : Grammar β α := ⟨fun b a => b = format a, fun _ _ => False⟩

end Grammar

/-- A string that is the strings of some values, one after the other. -/
inductive Chunks (accepts : List β → α → Prop) : List β → List α → Prop
  | nil : Chunks accepts [] []
  | cons {b bs : List β} {a : α} {as : List α} :
    accepts b a → Chunks accepts bs as → Chunks accepts (b ++ bs) (a :: as)

namespace Chunks

variable {accepts accepts' : List β → α → Prop} {bs : List β} {as : List α}

/-- Values that are formatted make chunks. -/
theorem flatMap {ι : Type} {is : List ι} {format : ι → List β} {value : ι → α}
    (h : ∀ i ∈ is, accepts (format i) (value i)) :
    Chunks accepts (is.flatMap format) (is.map value) := by
  induction is with
  | nil => exact .nil
  | cons i is ih =>
    rw [List.flatMap_cons, List.map_cons]
    exact .cons (h i List.mem_cons_self) (ih fun i' hi' => h i' (List.mem_cons_of_mem _ hi'))

/-- Where no string is empty, there are no more values than symbols. -/
theorem length_le (h : Chunks accepts bs as) (hpos : ∀ b a, accepts b a → 0 < b.length) :
    as.length ≤ bs.length := by
  induction h with
  | nil => exact Nat.le_refl _
  | cons hb _ ih =>
    rw [List.length_cons, List.length_append, Nat.add_comm]
    exact Nat.add_le_add (hpos _ _ hb) ih

end Chunks

namespace Grammar

variable {G : Grammar β α} {H : α → Grammar β γ} {format : α → List β} {position : ℕ}
  {b s : List β}

/-- What is accepted a number of times comes in that number of chunks. -/
theorem times_accepts {n : ℕ} {as : List α} :
    (G.times n).accepts b as ↔ as.length = n ∧ Chunks G.accepts b as := by
  induction n generalizing b as with
  | zero =>
    constructor
    · rintro ⟨rfl, rfl⟩
      exact ⟨rfl, .nil⟩
    · rintro ⟨hlength, h⟩
      cases List.length_eq_zero_iff.mp hlength
      cases h
      exact ⟨rfl, rfl⟩
  | succ n ih =>
    constructor
    · rintro ⟨b₁, _, a, rfl, hb₁, b₂, _, as', rfl, hb₂, rfl, rfl⟩
      obtain ⟨rfl, hchunks⟩ := ih.mp hb₂
      exact ⟨rfl, by simpa using hchunks.cons hb₁⟩
    · rintro ⟨hlength, h⟩
      cases h with
      | nil => exact nomatch hlength
      | cons hb₁ hchunks =>
        exact ⟨_, _, _, rfl, hb₁, _, [], _, (List.append_nil _).symm,
          ih.mpr ⟨Nat.succ.inj hlength, hchunks⟩, rfl, rfl⟩

/-- There is a panic in one of the values, after some that are accepted. -/
theorem times_traps {n : ℕ} :
    (G.times n).traps position s ↔ ∃ b rest as, s = b ++ rest ∧ Chunks G.accepts b as ∧
      as.length < n ∧ G.traps (position + b.length) rest := by
  induction n generalizing position s with
  | zero => exact iff_of_false id fun ⟨_, _, _, _, _, h, _⟩ => Nat.not_lt_zero _ h
  | succ n ih =>
    constructor
    · rintro (h | ⟨b₁, s', a, rfl, hb₁, h | ⟨_, _, _, _, _, h⟩⟩)
      · exact ⟨[], s, [], rfl, .nil, Nat.succ_pos n, h⟩
      · obtain ⟨b, rest, as, rfl, hchunks, hlt, htrap⟩ := ih.mp h
        refine ⟨b₁ ++ b, rest, a :: as, (List.append_assoc _ _ _).symm, hchunks.cons hb₁,
          Nat.succ_lt_succ hlt, ?_⟩
        rwa [List.length_append, ← Nat.add_assoc]
      · exact h.elim
    · rintro ⟨b, rest, as, rfl, hchunks, hlt, htrap⟩
      cases hchunks with
      | nil => exact .inl htrap
      | cons hb₁ hchunks =>
        rename_i b₁ bs a as
        refine .inr ⟨b₁, bs ++ rest, a, List.append_assoc _ _ _, hb₁, .inl (ih.mpr ?_)⟩
        refine ⟨bs, rest, as, rfl, hchunks, Nat.lt_of_succ_lt_succ hlt, ?_⟩
        rwa [Nat.add_assoc, ← List.length_append]

/-- One string for each item of a list. -/
theorem forEach_accepts {ι κ : Type} {F : ι → Grammar β α} {ks : List κ} {item : κ → ι}
    {format : κ → List β} {value : κ → α}
    (h : ∀ k ∈ ks, (F (item k)).accepts (format k) (value k)) :
    (forEach F (ks.map item)).accepts (ks.flatMap format) (ks.map value) := by
  induction ks with
  | nil => exact ⟨rfl, rfl⟩
  | cons k ks ih =>
    rw [List.flatMap_cons]
    exact ⟨format k, _, value k, rfl, h k List.mem_cons_self, ks.flatMap format, [], _,
      (List.append_nil _).symm, ih fun k' hk' => h k' (List.mem_cons_of_mem _ hk'), rfl, rfl⟩

/-- One value is read for each of the list. -/
theorem length_of_forEach {ι : Type} {F : ι → Grammar β α} {is : List ι} {as : List α}
    (h : (forEach F is).accepts b as) : as.length = is.length := by
  induction is generalizing b as with
  | nil => rw [h.2]; rfl
  | cons i is ih =>
    obtain ⟨_, _, _, _, _, _, _, as', _, has', _, rfl⟩ := h
    rw [List.length_cons, List.length_cons, ih has']

theorem exact_bind_accepts {c : γ} :
    ((exact format).bind H).accepts b c ↔ ∃ a b', b = format a ++ b' ∧ (H a).accepts b' c := by
  constructor
  · rintro ⟨_, b₂, a, rfl, rfl, h⟩
    exact ⟨a, b₂, rfl, h⟩
  · rintro ⟨a, b', rfl, h⟩
    exact ⟨_, b', a, rfl, rfl, h⟩

theorem exact_bind_traps :
    ((exact format).bind H).traps position s ↔
      ∃ a s', s = format a ++ s' ∧ (H a).traps (position + (format a).length) s' := by
  constructor
  · rintro (h | ⟨_, s', a, rfl, rfl, h⟩)
    · exact h.elim
    · exact ⟨a, s', rfl, h⟩
  · rintro ⟨a, s', rfl, h⟩
    exact .inr ⟨_, s', a, rfl, rfl, h⟩

theorem ensure_bind_accepts {condition : Prop} [Decidable condition] {H : Unit → Grammar β γ}
    {c : γ} : ((ensure condition).bind H).accepts b c ↔ condition ∧ (H ()).accepts b c := by
  by_cases h : condition
  · rw [ensure, if_pos h]
    constructor
    · rintro ⟨_, _, _, rfl, ⟨rfl, rfl⟩, hc⟩
      exact ⟨h, hc⟩
    · rintro ⟨-, hc⟩
      exact ⟨[], b, (), rfl, ⟨rfl, rfl⟩, hc⟩
  · rw [ensure, if_neg h]
    refine iff_of_false ?_ fun hc => h hc.1
    rintro ⟨_, _, _, _, hb, _⟩
    exact hb

theorem ensure_bind_traps {condition : Prop} [Decidable condition] {H : Unit → Grammar β γ} :
    ((ensure condition).bind H).traps position s ↔ condition ∧ (H ()).traps position s := by
  by_cases h : condition
  · rw [ensure, if_pos h]
    constructor
    · rintro (ht | ⟨_, _, _, rfl, ⟨rfl, rfl⟩, ht⟩)
      · exact ht.elim
      · exact ⟨h, ht⟩
    · rintro ⟨-, ht⟩
      exact .inr ⟨[], s, (), rfl, ⟨rfl, rfl⟩, ht⟩
  · rw [ensure, if_neg h]
    refine iff_of_false ?_ fun hc => h hc.1
    rintro (ht | ⟨_, _, _, _, hb, _⟩)
    · exact ht
    · exact hb

theorem pure_bind_accepts {a : α} {c : γ} :
    ((pure a).bind H).accepts b c ↔ (H a).accepts b c := by
  constructor
  · rintro ⟨_, _, _, rfl, ⟨rfl, rfl⟩, h⟩
    exact h
  · intro h
    exact ⟨[], b, a, rfl, ⟨rfl, rfl⟩, h⟩

theorem pure_bind_traps {a : α} : ((pure a).bind H).traps position s ↔ (H a).traps position s := by
  constructor
  · rintro (h | ⟨_, _, _, rfl, ⟨rfl, rfl⟩, h⟩)
    · exact h.elim
    · exact h
  · intro h
    exact .inr ⟨[], s, a, rfl, ⟨rfl, rfl⟩, h⟩

/-! ### Grammars without panics -/

/-- No input makes a reader panic. -/
def TrapFree (G : Grammar β α) : Prop := ∀ position s, ¬ G.traps position s

namespace TrapFree

theorem pure (a : α) : (Grammar.pure a : Grammar β α).TrapFree := fun _ _ => id

theorem exact (format : α → List β) : (Grammar.exact format).TrapFree := fun _ _ => id

/-- Grammars without traps have none in sequence. -/
theorem bind (hG : G.TrapFree) (hH : ∀ a, (H a).TrapFree) : (G.bind H).TrapFree := by
  rintro position s (h | ⟨_, _, a, _, _, h⟩)
  · exact hG _ _ h
  · exact hH a _ _ h

theorem ensure (condition : Prop) [Decidable condition] :
    (Grammar.ensure condition : Grammar β Unit).TrapFree := by
  intro position s
  unfold Grammar.ensure
  split <;> exact id

/-- A grammar without traps has none when it is repeated. -/
theorem times (hG : G.TrapFree) (n : ℕ) : (G.times n).TrapFree := by
  intro position s h
  obtain ⟨_, _, _, _, _, _, htrap⟩ := times_traps.mp h
  exact hG _ _ htrap

theorem forEach {ι : Type} {F : ι → Grammar β α} (hF : ∀ i, (F i).TrapFree) (is : List ι) :
    (Grammar.forEach F is).TrapFree := by
  induction is with
  | nil => exact .pure []
  | cons i is ih => exact (hF i).bind fun _ => ih.bind fun _ => .pure _

end TrapFree

end Grammar

/-- A reader accepts the strings of a grammar, and panics where the grammar says so, on
inputs of fewer than `limit` symbols. -/
structure Describes (limit : ℕ) (p : Reader β ε α) (G : Grammar β α) : Prop where
  accept : ∀ pre {b} rest {a}, (pre ++ (b ++ rest)).length < limit → G.accepts b a →
    p (pre ++ (b ++ rest)) pre.length = .ok (a, pre.length + b.length)
  accepted : ∀ pre {s a next}, (pre ++ s).length < limit →
    p (pre ++ s) pre.length = .ok (a, next) →
      ∃ b rest, s = b ++ rest ∧ G.accepts b a ∧ next = pre.length + b.length
  trap : ∀ pre {s}, (pre ++ s).length < limit →
    (p (pre ++ s) pre.length = .error .panic ↔ G.traps pre.length s)

namespace Describes

variable {limit : ℕ} {p : Reader β ε α} {f : α → Reader β ε γ} {G G' : Grammar β α}
  {H : α → Grammar β γ}

/-- Two grammars with the same strings and the same panics describe the same readers. -/
theorem congr (hp : Describes limit p G) (haccepts : ∀ b a, G.accepts b a ↔ G'.accepts b a)
    (htraps : ∀ position s, G.traps position s ↔ G'.traps position s) :
    Describes limit p G' where
  accept pre _ rest _ hlimit h := hp.accept pre rest hlimit ((haccepts _ _).mpr h)
  accepted pre _ _ _ hlimit h := by
    obtain ⟨b, rest, hs, hb, hnext⟩ := hp.accepted pre hlimit h
    exact ⟨b, rest, hs, (haccepts b _).mp hb, hnext⟩
  trap pre _ hlimit := (hp.trap pre hlimit).trans (htraps _ _)

theorem pure (a : α) : Describes limit (Pure.pure a : Reader β ε α) (.pure a) where
  accept pre b rest a' _ h := by
    obtain ⟨rfl, rfl⟩ := h
    rfl
  accepted pre s a' next _ h := by
    cases h
    exact ⟨[], s, rfl, ⟨rfl, rfl⟩, rfl⟩
  trap _ _ _ := iff_of_false (fun h => nomatch h) id

theorem fail (e : ε) : Describes limit (Reader.fail e : Reader β ε α) .fail where
  accept _ _ _ _ _ h := h.elim
  accepted _ _ _ _ _ h := nomatch h
  trap _ _ _ := iff_of_false (fun h => nomatch h) id

theorem panic : Describes limit (Reader.panic : Reader β ε α) .panic where
  accept _ _ _ _ _ h := h.elim
  accepted _ _ _ _ _ h := nomatch h
  trap _ _ _ := iff_of_true rfl trivial

theorem ensure (condition : Prop) [Decidable condition] (e : ε) :
    Describes limit (Reader.ensure condition e : Reader β ε Unit) (.ensure condition) := by
  by_cases h : condition
  · rw [Reader.ensure, Grammar.ensure, if_pos h, if_pos h]
    exact .pure ()
  · rw [Reader.ensure, Grammar.ensure, if_neg h, if_neg h]
    exact .fail e

theorem ite {condition : Prop} [Decidable condition] {q : Reader β ε α}
    (hp : Describes limit p G) (hq : Describes limit q G') :
    Describes limit (if condition then p else q) (if condition then G else G') := by
  by_cases h : condition
  · rwa [if_pos h, if_pos h]
  · rwa [if_neg h, if_neg h]

/-- Readers in sequence are described by the grammars in sequence. -/
theorem bind (hp : Describes limit p G) (hf : ∀ a, Describes limit (f a) (H a)) :
    Describes limit (p >>= f) (G.bind H) where
  accept pre b rest c hlimit h := by
    obtain ⟨b₁, b₂, a, rfl, hb₁, hb₂⟩ := h
    have hfirst : p (pre ++ (b₁ ++ (b₂ ++ rest))) pre.length = .ok (a, pre.length + b₁.length) :=
      hp.accept pre (b₂ ++ rest) (by simpa using hlimit) hb₁
    have hsecond := (hf a).accept (pre ++ b₁) rest (by simpa using hlimit) hb₂
    change (match p (pre ++ (b₁ ++ b₂ ++ rest)) pre.length with
      | .ok (a, next) => f a (pre ++ (b₁ ++ b₂ ++ rest)) next
      | .error fault => .error fault) = _
    rw [List.append_assoc b₁, hfirst]
    simpa [Nat.add_assoc] using hsecond
  accepted pre s c next hlimit h := by
    change (match p (pre ++ s) pre.length with
      | .ok (a, next) => f a (pre ++ s) next
      | .error fault => .error fault) = _ at h
    cases hfirst : p (pre ++ s) pre.length with
    | error fault => rw [hfirst] at h; exact nomatch h
    | ok result =>
      obtain ⟨a, middle⟩ := result
      rw [hfirst] at h
      obtain ⟨b₁, s', rfl, hb₁, rfl⟩ := hp.accepted pre hlimit hfirst
      have hlimit' : (pre ++ b₁ ++ s').length < limit := by simpa using hlimit
      obtain ⟨b₂, rest, rfl, hb₂, hnext⟩ := (hf a).accepted (pre ++ b₁) hlimit' (by
        simpa using h)
      refine ⟨b₁ ++ b₂, rest, (List.append_assoc _ _ _).symm, ⟨b₁, b₂, a, rfl, hb₁, hb₂⟩, ?_⟩
      simpa [Nat.add_assoc] using hnext
  trap pre s hlimit := by
    change (match p (pre ++ s) pre.length with
      | .ok (a, next) => f a (pre ++ s) next
      | .error fault => .error fault) = _ ↔ _
    constructor
    · intro h
      cases hfirst : p (pre ++ s) pre.length with
      | error fault =>
        rw [hfirst] at h
        cases h
        exact .inl ((hp.trap pre hlimit).mp hfirst)
      | ok result =>
        obtain ⟨a, middle⟩ := result
        rw [hfirst] at h
        obtain ⟨b₁, s', rfl, hb₁, rfl⟩ := hp.accepted pre hlimit hfirst
        refine .inr ⟨b₁, s', a, rfl, hb₁, ?_⟩
        have htrap := ((hf a).trap (pre ++ b₁) (by simpa using hlimit)).mp (by
          simpa using h)
        simpa using htrap
    · rintro (h | ⟨b₁, s', a, rfl, hb₁, h⟩)
      · rw [(hp.trap pre hlimit).mpr h]
      · rw [hp.accept pre s' hlimit hb₁]
        have htrap := ((hf a).trap (pre ++ b₁) (by simpa using hlimit)).mpr (by
          simpa using h)
        simpa using htrap

/-- A repeated reader is described by the repeated grammar. -/
theorem times (hp : Describes limit p G) (n : ℕ) :
    Describes limit (Reader.times p n) (G.times n) := by
  induction n with
  | zero => exact .pure []
  | succ n ih => exact hp.bind fun _ => ih.bind fun _ => .pure _

/-- Readers for each of a list are described by the grammars for each. -/
theorem forEach {ι : Type} {f : ι → Reader β ε α} {F : ι → Grammar β α}
    (hf : ∀ i, Describes limit (f i) (F i)) (is : List ι) :
    Describes limit (Reader.forEach f is) (.forEach F is) := by
  induction is with
  | nil => exact .pure []
  | cons i is ih => exact (hf i).bind fun _ => ih.bind fun _ => .pure _

end Describes

end Core
