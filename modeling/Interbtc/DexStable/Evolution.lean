import Interbtc.DexStable.Ramp

/-!
# How the layout evolves

The calls of traders keep the layout. The root origin adds pools, and moves the coefficients of
those that are stored.
-/

namespace Interbtc

open Core DexStable MultiCurrency WithdrawableCurrency

variable {AccountId CurrencyId Tokens : Type}

namespace DexStable

/-- The ramps of all stored pools have started. -/
def Layout.Sound (Γ : Layout) : Prop := ∀ id l, Γ id = some l → l.ramp.Sound Γ.now

/-- A layout with one more pool. -/
def Layout.set (Γ : Layout) (id : ℕ) (l : PoolLayout) : Layout :=
  { Γ with pools := Function.update Γ.pools id (some l) }

/-- A later layout at the same time: new pools were stored, and ramps were changed. -/
structure Layout.Evolves (Γ Γ' : Layout) : Prop where
  now : Γ'.now = Γ.now
  kept : ∀ id l, Γ id = some l → ∃ r, Ramp.Step Γ.now l.ramp r ∧ Γ' id = some { l with ramp := r }
  added : ∀ id l, Γ id = none → Γ' id = some l → l.ramp.Sound Γ.now

end DexStable

section Evolves

variable {Γ Γ' : DexStable.Layout} {l : DexStable.PoolLayout} {id : ℕ}

/-- Whether a pool fits depends only on the sizes of the stored pools. -/
theorem StablePool.Fits.resized {pool : StablePool AccountId CurrencyId} (h : pool.Fits Γ l)
    (hΓ : ∀ id l, Γ id = some l → ∃ l', Γ' id = some l' ∧ l'.size = l.size) : pool.Fits Γ' l := by
  cases pool with
  | base pool => exact h
  | metaPool pool =>
    obtain ⟨l', hl', hn⟩ := MetaPool.Fits.baseCurrencies h
    obtain ⟨l'', hl'', hsize⟩ := hΓ _ _ hl'
    exact ⟨h.info, h.base, ⟨l'', hl'', hn.trans hsize.symm⟩, h.cache⟩

namespace DexStable.Layout

/-- A layout may stay the same. -/
theorem Evolves.refl (Γ : Layout) : Γ.Evolves Γ where
  now := rfl
  kept _ l hl := ⟨l.ramp, .keep _, hl⟩
  added _ _ hn hl := by
    rw [hn] at hl
    cases hl

/-- A layout stays sound. -/
theorem Evolves.sound (h : Γ.Evolves Γ') (hΓ : Γ.Sound) : Γ'.Sound := by
  intro id l hl
  rw [h.now]
  cases hid : Γ id with
  | none => exact h.added id l hid hl
  | some l₀ =>
    obtain ⟨r, hr, hl'⟩ := h.kept id l₀ hid
    obtain rfl := Option.some.inj (hl.symm.trans hl')
    exact hr.sound (hΓ id l₀ hid)

/-- The pool that is added has its layout. -/
@[simp] theorem set_self : Γ.set id l id = some l := Function.update_self ..

private theorem set_of_ne {i : ℕ} (h : i ≠ id) : Γ.set id l i = Γ i := Function.update_of_ne h ..

/-- To change a ramp is to evolve. -/
theorem evolves_set_ramp {r : Ramp} (hl : Γ id = some l) (hr : Ramp.Step Γ.now l.ramp r) :
    Γ.Evolves (Γ.set id { l with ramp := r }) where
  now := rfl
  kept i li hi := by
    by_cases h : i = id
    · subst h
      obtain rfl := Option.some.inj (hl.symm.trans hi)
      exact ⟨r, hr, set_self⟩
    · exact ⟨li.ramp, .keep _, (set_of_ne h).trans hi⟩
  added i li hn hi := by
    by_cases h : i = id
    · subst h
      rw [hl] at hn
      cases hn
    · rw [set_of_ne h, hn] at hi
      cases hi

/-- To store a new pool is to evolve. -/
theorem evolves_set_new (hn : Γ id = none) (hr : l.ramp.Sound Γ.now) :
    Γ.Evolves (Γ.set id l) where
  now := rfl
  kept i li hi := by
    refine ⟨li.ramp, .keep _, (set_of_ne ?_).trans hi⟩
    rintro rfl
    rw [hn] at hi
    cases hi
  added i li hni hi := by
    by_cases h : i = id
    · subst h
      rw [set_self] at hi
      cases hi
      exact hr
    · rw [set_of_ne h, hni] at hi
      cases hi

end DexStable.Layout

end Evolves

namespace DexStable

variable {Γ : Layout} {l l' : PoolLayout} {s : DexStable AccountId CurrencyId Tokens} {id n : ℕ}
  {lp : CurrencyId → Option ℕ}

/-- The pools fit the layout with a new entry, for a new pool or for one of the same size. -/
theorem Layout.Fits.set (h : Γ.Fits s) (hsize : ∀ l, Γ id = some l → l'.size = l.size)
    {pool : StablePool AccountId CurrencyId} (hf : pool.Fits Γ l')
    (hb : ∀ b, l'.base = some b → b < id) (hid : id < n) (hn : s.nextPoolId ≤ n) :
    (Γ.set id l').Fits { s with
      pools := Function.update s.pools id (some pool), nextPoolId := n, lpCurrencies := lp } := by
  have hsizes : ∀ i l, Γ i = some l → ∃ l'', Γ.set id l' i = some l'' ∧ l''.size = l.size := by
    intro i l hi
    by_cases h : i = id
    · subst h
      exact ⟨l', Layout.set_self, hsize l hi⟩
    · exact ⟨l, (Layout.set_of_ne h).trans hi, rfl⟩
  refine ⟨h.now, h.now_le, fun i => ?_, fun i li b hi hbase => ?_, fun i li hi => ?_⟩
  · change Option.Rel _ (Function.update s.pools id (some pool) i) _
    by_cases hi : i = id
    · subst hi
      rw [Function.update_self, Layout.set_self]
      exact .some (hf.resized hsizes)
    · rw [Function.update_of_ne hi, Layout.set_of_ne hi]
      have hrel := h.pools i
      generalize s.pools i = p, Γ i = o at hrel
      cases hrel with
      | none => exact .none
      | some hp => exact .some (hp.resized hsizes)
  · by_cases h' : i = id
    · subst h'
      rw [Layout.set_self] at hi
      cases hi
      exact hb b hbase
    · rw [Layout.set_of_ne h'] at hi
      exact h.older i li b hi hbase
  · by_cases h' : i = id
    · subst h'
      exact hid
    · rw [Layout.set_of_ne h'] at hi
      exact (h.below i li hi).trans_le hn

/-! ## Parameters of a pool -/

/-- A call does not panic, and the layout evolves. -/
abbrev Layout.Governs {α : Type} (Γ : Layout) (P : DexStable AccountId CurrencyId Tokens → Prop)
    (x : StableCall AccountId CurrencyId Tokens α) : Prop :=
  Triple (· ≠ StableFault.panic) P x fun _ s => ∃ Γ', Γ'.Fits s ∧ Γ.Evolves Γ'

/-- What fits before a call fits after it. -/
theorem Layout.Guards.governs {α : Type} {x : StableCall AccountId CurrencyId Tokens α}
    {Q : α → Prop} (hx : Γ.Guards x Q) : Γ.Governs Γ.Fits x :=
  hx.mono (fun _ hs => hs) fun _ _ hs => ⟨Γ, hs.1, .refl Γ⟩

/-- A pool with a changed ramp. -/
def BasePool.Ramped (Γ : Layout) (l : PoolLayout) (pool : BasePool AccountId CurrencyId) : Prop :=
  ∃ r, Ramp.Step Γ.now l.ramp r ∧ pool.Fits { l with ramp := r }

/-- A change of a pool that keeps its layout. -/
theorem mutateInfo_governs {f : BasePool AccountId CurrencyId →
      StableCall AccountId CurrencyId Tokens (BasePool AccountId CurrencyId)}
    (hf : ∀ l pool, Γ id = some l → pool.Fits l → Γ.Guards (f pool) (BasePool.Ramped Γ l)) :
    Γ.Governs Γ.Fits (mutateInfo id f) := by
  refine Within.get_bind fun s hs => ?_
  cases hp : s.pools id with
  | none => exact Triple.throw nofun
  | some pool =>
    obtain ⟨l, hl, hfit⟩ := hs.layout_of_pool hp
    refine Triple.bind (Q := fun r t => Γ.Fits t ∧ ∃ ρ, Ramp.Step Γ.now l.ramp ρ ∧
      r.2.Fits Γ { l with ramp := ρ }) ?_ fun ⟨a, changed⟩ => Triple.of_fact fun hr => ?_
    · refine Within.bind (hf l pool.info hl hfit.info_fits) fun info hinfo => ?_
      obtain ⟨ρ, hstep, hinfo⟩ := hinfo
      refine Within.pure ⟨ρ, hstep, ?_⟩
      cases pool with
      | base pool => exact hinfo
      | metaPool pool =>
        obtain ⟨-, hb, hcur, hcache⟩ : pool.Fits Γ l := hfit
        exact ⟨hinfo, hb, hcur, hcache⟩
    · obtain ⟨ρ, hstep, hchanged⟩ := hr
      refine Triple.bind (Triple.modify fun t ht => ?_) fun _ => Triple.pure fun t ht => ht
      refine ⟨_, ht.set (fun l' hl' => ?_) hchanged ?_ (ht.below id l hl) le_rfl,
        Layout.evolves_set_ramp hl hstep⟩
      · obtain rfl := Option.some.inj (hl.symm.trans hl')
        rfl
      · exact fun b hb => ht.older id l b hl hb

end DexStable

end Interbtc
