import Interbtc.Accounting.Books
import Interbtc.Vault.Calls

/-!
# The counters of the vault registry

The token counters of the stored vaults and liquidation vaults, as the books see them,
and what each call on a copy of a vault does to them. A copy is current when it is what
is stored under its identifier.
-/

namespace Interbtc

open Core

variable {AccountId CurrencyId : Type} [DecidableEq AccountId] [DecidableEq CurrencyId]

/-- The pair whose liquidation vault takes over from a vault. -/
abbrev pairOf : VaultId AccountId CurrencyId → VaultCurrencyPair CurrencyId := VaultId.currencies

/-- The currency that is issued against the vaults of a pair. -/
abbrev wrappedOf : VaultCurrencyPair CurrencyId → CurrencyId := VaultCurrencyPair.wrapped

namespace VaultRegistry

/-- A vault that is not registered counts nothing. -/
def counters (s : VaultRegistry AccountId CurrencyId) :
    Counters (VaultId AccountId CurrencyId) (VaultCurrencyPair CurrencyId) where
  isLiquidated v := (s.vaults v).elim false Vault.isLiquidated
  toBeIssued := Sum.elim (fun v => (s.vaults v).elim 0 Vault.toBeIssuedTokens)
    fun p => (s.liquidationVault p).toBeIssuedTokens
  issued := Sum.elim (fun v => (s.vaults v).elim 0 Vault.issuedTokens)
    fun p => (s.liquidationVault p).issuedTokens
  toBeRedeemed := Sum.elim (fun v => (s.vaults v).elim 0 Vault.toBeRedeemedTokens)
    fun p => (s.liquidationVault p).toBeRedeemedTokens
  toBeReplaced v := (s.vaults v).elim 0 Vault.toBeReplacedTokens

/-- Store a vault. -/
def setVault (s : VaultRegistry AccountId CurrencyId) (v : VaultId AccountId CurrencyId)
    (d : Vault) : VaultRegistry AccountId CurrencyId :=
  { s with vaults := Function.update s.vaults v (some d) }

/-- Store a liquidation vault. -/
def setLiquidationVault (s : VaultRegistry AccountId CurrencyId) (p : VaultCurrencyPair CurrencyId)
    (d : SystemVault) : VaultRegistry AccountId CurrencyId :=
  { s with liquidationVault := Function.update s.liquidationVault p d }

private theorem elim_update {α : Type} {V : Type} [DecidableEq V] (f : V → Option Vault) (v : V)
    (d : Vault) (z : α) (g : Vault → α) :
    (fun u => (Function.update f v (some d) u).elim z g) =
      Function.update (fun u => (f u).elim z g) v (g d) := by
  funext u
  rcases eq_or_ne u v with rfl | hu
  · simp
  · simp [hu]

private theorem pool_update {V : Type} [DecidableEq V] (f : V → SystemVault) (v : V)
    (d : SystemVault) (g : SystemVault → ℕ) :
    (fun u => g (Function.update f v d u)) = Function.update (fun u => g (f u)) v (g d) := by
  funext u
  rcases eq_or_ne u v with rfl | hu
  · simp
  · simp [hu]

/-- Storing a vault updates its own counters. -/
theorem counters_setVault (s : VaultRegistry AccountId CurrencyId)
    (v : VaultId AccountId CurrencyId) (d : Vault) :
    (s.setVault v d).counters =
      { isLiquidated := Function.update s.counters.isLiquidated v d.isLiquidated
        toBeIssued := Function.update s.counters.toBeIssued (.inl v) d.toBeIssuedTokens
        issued := Function.update s.counters.issued (.inl v) d.issuedTokens
        toBeRedeemed := Function.update s.counters.toBeRedeemed (.inl v) d.toBeRedeemedTokens
        toBeReplaced := Function.update s.counters.toBeReplaced v d.toBeReplacedTokens } := by
  simp only [counters, setVault, elim_update, Sum.update_elim_inl]

/-- Storing a liquidation vault updates those of its pool. -/
theorem counters_setLiquidationVault (s : VaultRegistry AccountId CurrencyId)
    (p : VaultCurrencyPair CurrencyId) (d : SystemVault) :
    (s.setLiquidationVault p d).counters =
      { isLiquidated := s.counters.isLiquidated
        toBeIssued := Function.update s.counters.toBeIssued (.inr p) d.toBeIssuedTokens
        issued := Function.update s.counters.issued (.inr p) d.issuedTokens
        toBeRedeemed := Function.update s.counters.toBeRedeemed (.inr p) d.toBeRedeemedTokens
        toBeReplaced := s.counters.toBeReplaced } := by
  simp only [counters, setLiquidationVault, pool_update, Sum.update_elim_inr]

end VaultRegistry

/-! ## Copies of vaults -/

namespace RichVault

/-- The copy is what is stored. -/
def Current (v : RichVault AccountId CurrencyId) (s : VaultRegistry AccountId CurrencyId) : Prop :=
  s.vaults v.id = some v.data

/-- Where the tokens of the vault are counted. -/
def home (v : RichVault AccountId CurrencyId) :
    VaultId AccountId CurrencyId ⊕ VaultCurrencyPair CurrencyId :=
  if v.data.isLiquidated then .inr v.id.currencies else .inl v.id

variable {v v' : RichVault AccountId CurrencyId} {s s' : VaultRegistry AccountId CurrencyId}

section

omit [DecidableEq AccountId] [DecidableEq CurrencyId]

/-- A current copy knows if its vault is liquidated. -/
theorem Current.isLiquidated (h : v.Current s) :
    s.counters.isLiquidated v.id = v.data.isLiquidated := by
  simp [VaultRegistry.counters, show s.vaults v.id = some v.data from h]

/-- A current copy knows where it is counted. -/
theorem Current.home (h : v.Current s) : s.counters.home pairOf v.id = v.home := by
  rw [Counters.home, h.isLiquidated, RichVault.home]

/-- A current copy knows what is to be issued. -/
theorem Current.toBeIssued (h : v.Current s) :
    s.counters.toBeIssued (.inl v.id) = v.data.toBeIssuedTokens := by
  simp [VaultRegistry.counters, show s.vaults v.id = some v.data from h]

/-- A current copy knows what is issued. -/
theorem Current.issued (h : v.Current s) :
    s.counters.issued (.inl v.id) = v.data.issuedTokens := by
  simp [VaultRegistry.counters, show s.vaults v.id = some v.data from h]

/-- A current copy knows what is to be redeemed. -/
theorem Current.toBeRedeemed (h : v.Current s) :
    s.counters.toBeRedeemed (.inl v.id) = v.data.toBeRedeemedTokens := by
  simp [VaultRegistry.counters, show s.vaults v.id = some v.data from h]

/-- A current copy knows what is to be replaced. -/
theorem Current.toBeReplaced (h : v.Current s) :
    s.counters.toBeReplaced v.id = v.data.toBeReplacedTokens := by
  simp [VaultRegistry.counters, show s.vaults v.id = some v.data from h]

end

/-- A call on a copy has stored the new copy, and changed counters only. -/
structure Evolves (v v' : RichVault AccountId CurrencyId)
    (s s' : VaultRegistry AccountId CurrencyId) : Prop where
  id : v'.id = v.id
  current : v'.Current s'
  data : ∃ a b c, v'.data =
    { v.data with toBeIssuedTokens := a, issuedTokens := b, toBeRedeemedTokens := c }
  others : ∀ u, u ≠ v.id → s'.vaults u = s.vaults u
  collateral : ∀ p, (s'.liquidationVault p).collateral = (s.liquidationVault p).collateral
  total : s'.totalUserVaultCollateral = s.totalUserVaultCollateral

section

omit [DecidableEq AccountId] [DecidableEq CurrencyId]

/-- A copy that evolves stays liquidated or active. -/
theorem Evolves.isLiquidated (h : v.Evolves v' s s') :
    v'.data.isLiquidated = v.data.isLiquidated := by
  obtain ⟨a, b, c, hd⟩ := h.data
  rw [hd]
  rfl

private theorem Evolves.trans {v'' : RichVault AccountId CurrencyId}
    {s'' : VaultRegistry AccountId CurrencyId} (h : v.Evolves v' s s')
    (h' : v'.Evolves v'' s' s'') : v.Evolves v'' s s'' where
  id := h'.id.trans h.id
  current := h'.current
  data := by
    obtain ⟨a, b, c, hd⟩ := h.data
    obtain ⟨a', b', c', hd'⟩ := h'.data
    exact ⟨a', b', c', by rw [hd', hd]⟩
  others u hu := (h'.others u (h.id ▸ hu)).trans (h.others u hu)
  collateral p := (h'.collateral p).trans (h.collateral p)
  total := h'.total.trans h.total

/-- A copy of another vault stays current. -/
theorem Evolves.current_of_ne {w : RichVault AccountId CurrencyId} (h : v.Evolves v' s s')
    (hw : w.Current s) (hne : w.id ≠ v.id) : w.Current s' :=
  (h.others w.id hne).trans hw

end

/-! ### Storing a copy -/

/-- Updating a copy stores it. -/
theorem run_update {f : Vault → Vault} (h : (v.update f).run s = .ok v' s') :
    v' = ⟨v.id, f v.data⟩ ∧ s' = s.setVault v.id (f v.data) := by
  simp only [update, Call.run_bind_eq_ok, Call.run_modify_eq_ok, Call.run_pure_eq_ok] at h
  obtain ⟨_, _, rfl, rfl, rfl⟩ := h
  exact ⟨rfl, rfl⟩

/-- Updating a copy succeeds. -/
theorem update_succeeds (f : Vault → Vault) (s : VaultRegistry AccountId CurrencyId) :
    (v.update f).run s = .ok ⟨v.id, f v.data⟩ (s.setVault v.id (f v.data)) := rfl

/-- A copy that was just stored is current. -/
theorem current_setVault (d : Vault) :
    (⟨v.id, d⟩ : RichVault AccountId CurrencyId).Current (s.setVault v.id d) :=
  Function.update_self ..

/-- Storing a vault leaves the others alone. -/
theorem setVault_of_ne {u : VaultId AccountId CurrencyId} (d : Vault) (hu : u ≠ v.id) :
    (s.setVault v.id d).vaults u = s.vaults u :=
  Function.update_of_ne hu ..

/-- A counter of a vault grows within its range, in its currency only. -/
theorem run_increase {field : Lens Vault ℕ} {c : CurrencyId} {x : Amount CurrencyId} :
    (v.increase field c x).run s = .ok v' s' ↔
      c = x.currencyId ∧ field.get v.data + x.amount ≤ maxBalance ∧
        v' = ⟨v.id, field.set (field.get v.data + x.amount) v.data⟩ ∧
        s' = s.setVault v.id (field.set (field.get v.data + x.amount) v.data) := by
  simp only [increase, Call.run_bind_eq_ok, Call.run_ofExcept_eq_ok, Amount.checkedAdd_eq_ok]
  constructor
  · rintro ⟨_, _, ⟨⟨hc, hle, rfl⟩, rfl⟩, h⟩
    exact ⟨hc, hle, run_update h⟩
  · rintro ⟨hc, hle, rfl, rfl⟩
    exact ⟨_, _, ⟨⟨hc, hle, rfl⟩, rfl⟩, rfl⟩

private theorem run_decrease {field : Lens Vault ℕ} {c : CurrencyId} {x : Amount CurrencyId} :
    (v.decrease field c x).run s = .ok v' s' ↔
      c = x.currencyId ∧ x.amount ≤ field.get v.data ∧
        v' = ⟨v.id, field.set (field.get v.data - x.amount) v.data⟩ ∧
        s' = s.setVault v.id (field.set (field.get v.data - x.amount) v.data) := by
  simp only [decrease, Call.run_bind_eq_ok, Call.run_ofExcept_eq_ok, Amount.checkedSub_eq_ok]
  constructor
  · rintro ⟨_, _, ⟨⟨hc, hle, rfl⟩, rfl⟩, h⟩
    exact ⟨hc, hle, run_update h⟩
  · rintro ⟨hc, hle, rfl, rfl⟩
    exact ⟨_, _, ⟨⟨hc, hle, rfl⟩, rfl⟩, rfl⟩

end RichVault

namespace RichSystemVault

variable {v v' : RichSystemVault CurrencyId} {s s' : VaultRegistry AccountId CurrencyId}

section

omit [DecidableEq AccountId]

/-- A counter of a pool grows within its range, in its currency only. -/
theorem run_increase {field : Lens SystemVault ℕ} {c : CurrencyId} {x : Amount CurrencyId} :
    (v.increase field c x).run s = .ok v' s' ↔
      c = x.currencyId ∧ field.get v.data + x.amount ≤ maxBalance ∧
        v' = ⟨v.currencyPair, field.set (field.get v.data + x.amount) v.data⟩ ∧
        s' = s.setLiquidationVault v.currencyPair
          (field.set (field.get v.data + x.amount) v.data) := by
  simp only [increase, update, Call.run_bind_eq_ok, Call.run_ofExcept_eq_ok,
    Amount.checkedAdd_eq_ok, Call.run_modify_eq_ok, Call.run_pure_eq_ok]
  constructor
  · rintro ⟨_, _, ⟨⟨hc, hle, rfl⟩, rfl⟩, _, _, rfl, rfl, rfl⟩
    exact ⟨hc, hle, rfl, rfl⟩
  · rintro ⟨hc, hle, rfl, rfl⟩
    exact ⟨_, _, ⟨⟨hc, hle, rfl⟩, rfl⟩, ⟨⟩, _, rfl, rfl, rfl⟩

/-- A counter of a pool falls to zero at most, in its currency only. -/
theorem run_decrease {field : Lens SystemVault ℕ} {c : CurrencyId} {x : Amount CurrencyId} :
    (v.decrease field c x).run s = .ok v' s' ↔
      c = x.currencyId ∧ x.amount ≤ field.get v.data ∧
        v' = ⟨v.currencyPair, field.set (field.get v.data - x.amount) v.data⟩ ∧
        s' = s.setLiquidationVault v.currencyPair
          (field.set (field.get v.data - x.amount) v.data) := by
  simp only [decrease, update, Call.run_bind_eq_ok, Call.run_ofExcept_eq_ok,
    Amount.checkedSub_eq_ok, Call.run_modify_eq_ok, Call.run_pure_eq_ok]
  constructor
  · rintro ⟨_, _, ⟨⟨hc, hle, rfl⟩, rfl⟩, _, _, rfl, rfl, rfl⟩
    exact ⟨hc, hle, rfl, rfl⟩
  · rintro ⟨hc, hle, rfl, rfl⟩
    exact ⟨_, _, ⟨⟨hc, hle, rfl⟩, rfl⟩, ⟨⟩, _, rfl, rfl, rfl⟩

end

/-- A change of the copy of a liquidation vault has changed one counter. -/
structure Evolves (s s' : VaultRegistry AccountId CurrencyId) : Prop where
  vaults : s'.vaults = s.vaults
  collateral : ∀ p, (s'.liquidationVault p).collateral = (s.liquidationVault p).collateral
  total : s'.totalUserVaultCollateral = s.totalUserVaultCollateral

omit [DecidableEq AccountId] in
private theorem evolves_setLiquidationVault {p : VaultCurrencyPair CurrencyId} {d : SystemVault}
    (hd : d.collateral = (s.liquidationVault p).collateral) :
    Evolves s (s.setLiquidationVault p d) where
  vaults := rfl
  collateral q := by
    simp only [VaultRegistry.setLiquidationVault, Function.update_apply]
    split
    · rename_i h
      rw [h, hd]
    · rfl
  total := rfl

private theorem counters_setToBeIssued (p : VaultCurrencyPair CurrencyId) (n : ℕ) :
    (s.setLiquidationVault p (SystemVault.ToBeIssuedTokens.set n (s.liquidationVault p))).counters =
      { s.counters with toBeIssued := Function.update s.counters.toBeIssued (.inr p) n } := by
  rw [VaultRegistry.counters_setLiquidationVault]
  ext1
  · rfl
  · rfl
  · exact Function.update_eq_self (.inr p) s.counters.issued
  · exact Function.update_eq_self (.inr p) s.counters.toBeRedeemed
  · rfl

/-- Writing what a pool has issued updates that counter. -/
theorem counters_setIssued (p : VaultCurrencyPair CurrencyId) (n : ℕ) :
    (s.setLiquidationVault p (SystemVault.IssuedTokens.set n (s.liquidationVault p))).counters =
      { s.counters with issued := Function.update s.counters.issued (.inr p) n } := by
  rw [VaultRegistry.counters_setLiquidationVault]
  ext1
  · rfl
  · exact Function.update_eq_self (.inr p) s.counters.toBeIssued
  · rfl
  · exact Function.update_eq_self (.inr p) s.counters.toBeRedeemed
  · rfl

private theorem counters_setToBeRedeemed (p : VaultCurrencyPair CurrencyId) (n : ℕ) :
    (s.setLiquidationVault p
      (SystemVault.ToBeRedeemedTokens.set n (s.liquidationVault p))).counters =
      { s.counters with toBeRedeemed := Function.update s.counters.toBeRedeemed (.inr p) n } := by
  rw [VaultRegistry.counters_setLiquidationVault]
  ext1
  · rfl
  · exact Function.update_eq_self (.inr p) s.counters.toBeIssued
  · exact Function.update_eq_self (.inr p) s.counters.issued
  · rfl
  · rfl

end RichSystemVault

namespace RichVault

variable {v v' : RichVault AccountId CurrencyId} {s s' : VaultRegistry AccountId CurrencyId}
  {x : Amount CurrencyId}

/-! ### Counters of a copy -/

private theorem counters_setToBeIssued (hc : v.Current s) (n : ℕ) :
    (s.setVault v.id (Vault.ToBeIssuedTokens.set n v.data)).counters =
      { s.counters with toBeIssued := Function.update s.counters.toBeIssued (.inl v.id) n } := by
  rw [VaultRegistry.counters_setVault]
  ext1
  · exact Function.update_eq_self_iff.mpr hc.isLiquidated.symm
  · rfl
  · exact Function.update_eq_self_iff.mpr hc.issued.symm
  · exact Function.update_eq_self_iff.mpr hc.toBeRedeemed.symm
  · exact Function.update_eq_self_iff.mpr hc.toBeReplaced.symm

private theorem counters_setIssued (hc : v.Current s) (n : ℕ) :
    (s.setVault v.id (Vault.IssuedTokens.set n v.data)).counters =
      { s.counters with issued := Function.update s.counters.issued (.inl v.id) n } := by
  rw [VaultRegistry.counters_setVault]
  ext1
  · exact Function.update_eq_self_iff.mpr hc.isLiquidated.symm
  · exact Function.update_eq_self_iff.mpr hc.toBeIssued.symm
  · rfl
  · exact Function.update_eq_self_iff.mpr hc.toBeRedeemed.symm
  · exact Function.update_eq_self_iff.mpr hc.toBeReplaced.symm

private theorem counters_setToBeRedeemed (hc : v.Current s) (n : ℕ) :
    (s.setVault v.id (Vault.ToBeRedeemedTokens.set n v.data)).counters =
      { s.counters with
        toBeRedeemed := Function.update s.counters.toBeRedeemed (.inl v.id) n } := by
  rw [VaultRegistry.counters_setVault]
  ext1
  · exact Function.update_eq_self_iff.mpr hc.isLiquidated.symm
  · exact Function.update_eq_self_iff.mpr hc.toBeIssued.symm
  · exact Function.update_eq_self_iff.mpr hc.issued.symm
  · rfl
  · exact Function.update_eq_self_iff.mpr hc.toBeReplaced.symm

private theorem evolves_setVault {d : Vault}
    (hd : ∃ a b c, d =
      { v.data with toBeIssuedTokens := a, issuedTokens := b, toBeRedeemedTokens := c }) :
    v.Evolves ⟨v.id, d⟩ s (s.setVault v.id d) where
  id := rfl
  current := current_setVault d
  data := hd
  others _ hu := setVault_of_ne d hu
  collateral _ := rfl
  total := rfl

omit [DecidableEq AccountId] [DecidableEq CurrencyId] in
/-- A liquidated vault is left alone when its liquidation vault changes. -/
private theorem evolves_of_pool (hc : v.Current s) (h : RichSystemVault.Evolves s s') :
    v.Evolves v s s' where
  id := rfl
  current := by rw [Current, h.vaults]; exact hc
  data := ⟨_, _, _, rfl⟩
  others u _ := congrFun h.vaults u
  collateral := h.collateral
  total := h.total

private theorem run_increaseIssued (hc : v.Current s) (h : (v.increaseIssued x).run s = .ok v' s') :
    v.Evolves v' s s' ∧ v.wrappedCurrency = x.currencyId ∧
      s.counters.issued v.home + x.amount ≤ maxBalance ∧
      s'.counters = s.counters.addIssued v.home x.amount := by
  simp only [increaseIssued, Call.run_ite_eq_ok, Call.run_bind_eq_ok, Call.run_get_eq_ok,
    Call.run_pure_eq_ok] at h
  rw [Counters.addIssued, bump_eq_update]
  obtain ⟨hl, _, _, ⟨rfl, rfl⟩, _, _, hrun, rfl, rfl⟩ | ⟨hl, hrun⟩ := h
  · obtain ⟨hcur, hmax, -, rfl⟩ := RichSystemVault.run_increase.mp hrun
    rw [home, if_pos hl]
    exact ⟨evolves_of_pool hc (RichSystemVault.evolves_setLiquidationVault rfl), hcur, hmax,
      RichSystemVault.counters_setIssued _ _⟩
  · obtain ⟨hcur, hmax, rfl, rfl⟩ := run_increase.mp hrun
    rw [home, if_neg hl, hc.issued]
    exact ⟨evolves_setVault ⟨_, _, _, rfl⟩, hcur, hmax, counters_setIssued hc _⟩

private theorem increaseIssued_succeeds (hc : v.Current s) :
    (v.increaseIssued x).succeeds s = true ↔
      v.wrappedCurrency = x.currencyId ∧ s.counters.issued v.home + x.amount ≤ maxBalance := by
  rw [Call.succeeds_iff]
  constructor
  · rintro ⟨v', s', h⟩
    obtain ⟨-, hcur, hmax, -⟩ := run_increaseIssued hc h
    exact ⟨hcur, hmax⟩
  · rintro ⟨hcur, hmax⟩
    simp only [increaseIssued, Call.run_ite_eq_ok, Call.run_bind_eq_ok, Call.run_get_eq_ok,
      Call.run_pure_eq_ok]
    by_cases hl : v.data.isLiquidated = true
    · rw [home, if_pos hl] at hmax
      exact ⟨v, _, .inl ⟨hl, s, s, ⟨rfl, rfl⟩, _, _,
        RichSystemVault.run_increase.mpr ⟨hcur, hmax, rfl, rfl⟩, rfl, rfl⟩⟩
    · rw [home, if_neg hl, hc.issued] at hmax
      exact ⟨_, _, .inr ⟨hl, run_increase.mpr ⟨hcur, hmax, rfl, rfl⟩⟩⟩

private theorem run_decreaseIssued (hc : v.Current s) (h : (v.decreaseIssued x).run s = .ok v' s') :
    v.Evolves v' s s' ∧ v.wrappedCurrency = x.currencyId ∧
      x.amount ≤ s.counters.issued v.home ∧
      s'.counters = s.counters.subIssued v.home x.amount := by
  simp only [decreaseIssued, Call.run_ite_eq_ok, Call.run_bind_eq_ok, Call.run_get_eq_ok,
    Call.run_pure_eq_ok] at h
  rw [Counters.subIssued, drop_eq_update]
  obtain ⟨hl, _, _, ⟨rfl, rfl⟩, _, _, hrun, rfl, rfl⟩ | ⟨hl, hrun⟩ := h
  · obtain ⟨hcur, hle, -, rfl⟩ := RichSystemVault.run_decrease.mp hrun
    rw [home, if_pos hl]
    exact ⟨evolves_of_pool hc (RichSystemVault.evolves_setLiquidationVault rfl), hcur, hle,
      RichSystemVault.counters_setIssued _ _⟩
  · obtain ⟨hcur, hle, rfl, rfl⟩ := run_decrease.mp hrun
    rw [home, if_neg hl, hc.issued]
    exact ⟨evolves_setVault ⟨_, _, _, rfl⟩, hcur, hle, counters_setIssued hc _⟩

/-- Less is to be issued where the vault is counted. -/
theorem run_decreaseToBeIssued (hc : v.Current s)
    (h : (v.decreaseToBeIssued x).run s = .ok v' s') :
    v.Evolves v' s s' ∧ v.wrappedCurrency = x.currencyId ∧
      x.amount ≤ s.counters.toBeIssued v.home ∧
      s'.counters = s.counters.subToBeIssued v.home x.amount := by
  simp only [decreaseToBeIssued, Call.run_ite_eq_ok, Call.run_bind_eq_ok, Call.run_get_eq_ok,
    Call.run_pure_eq_ok] at h
  rw [Counters.subToBeIssued, drop_eq_update]
  obtain ⟨hl, _, _, ⟨rfl, rfl⟩, _, _, hrun, rfl, rfl⟩ | ⟨hl, hrun⟩ := h
  · obtain ⟨hcur, hle, -, rfl⟩ := RichSystemVault.run_decrease.mp hrun
    rw [home, if_pos hl]
    exact ⟨evolves_of_pool hc (RichSystemVault.evolves_setLiquidationVault rfl), hcur, hle,
      RichSystemVault.counters_setToBeIssued _ _⟩
  · obtain ⟨hcur, hle, rfl, rfl⟩ := run_decrease.mp hrun
    rw [home, if_neg hl, hc.toBeIssued]
    exact ⟨evolves_setVault ⟨_, _, _, rfl⟩, hcur, hle, counters_setToBeIssued hc _⟩

/-- What is to be issued can fall to zero. -/
theorem decreaseToBeIssued_succeeds (hc : v.Current s) :
    (v.decreaseToBeIssued x).succeeds s = true ↔
      v.wrappedCurrency = x.currencyId ∧ x.amount ≤ s.counters.toBeIssued v.home := by
  rw [Call.succeeds_iff]
  constructor
  · rintro ⟨v', s', h⟩
    obtain ⟨-, hcur, hle, -⟩ := run_decreaseToBeIssued hc h
    exact ⟨hcur, hle⟩
  · rintro ⟨hcur, hle⟩
    simp only [decreaseToBeIssued, Call.run_ite_eq_ok, Call.run_bind_eq_ok, Call.run_get_eq_ok,
      Call.run_pure_eq_ok]
    by_cases hl : v.data.isLiquidated = true
    · rw [home, if_pos hl] at hle
      exact ⟨v, _, .inl ⟨hl, s, s, ⟨rfl, rfl⟩, _, _,
        RichSystemVault.run_decrease.mpr ⟨hcur, hle, rfl, rfl⟩, rfl, rfl⟩⟩
    · rw [home, if_neg hl, hc.toBeIssued] at hle
      exact ⟨_, _, .inr ⟨hl, run_decrease.mpr ⟨hcur, hle, rfl, rfl⟩⟩⟩

/-- More is to be issued by an active vault. -/
theorem run_increaseToBeIssued (hc : v.Current s)
    (h : (v.increaseToBeIssued x).run s = .ok v' s') :
    v.Evolves v' s s' ∧ v.wrappedCurrency = x.currencyId ∧ v.data.isLiquidated = false ∧
      s'.counters = s.counters.addToBeIssued (.inl v.id) x.amount := by
  simp only [increaseToBeIssued, Call.run_bind_eq_ok, Call.run_ensure_eq_ok] at h
  obtain ⟨_, _, ⟨hl, rfl⟩, hrun⟩ := h
  obtain ⟨hcur, hmax, rfl, rfl⟩ := run_increase.mp hrun
  refine ⟨evolves_setVault ⟨_, _, _, rfl⟩, hcur, hl, ?_⟩
  rw [Counters.addToBeIssued, bump_eq_update, hc.toBeIssued]
  exact counters_setToBeIssued hc _

/-- What is to be issued can grow within its range. -/
theorem increaseToBeIssued_succeeds (hc : v.Current s) :
    (v.increaseToBeIssued x).succeeds s = true ↔
      v.data.isLiquidated = false ∧ v.wrappedCurrency = x.currencyId ∧
        s.counters.toBeIssued (.inl v.id) + x.amount ≤ maxBalance := by
  simp only [Call.succeeds_iff, increaseToBeIssued, Call.run_bind_eq_ok, Call.run_ensure_eq_ok,
    run_increase, hc.toBeIssued]
  constructor
  · rintro ⟨_, _, _, _, ⟨hl, rfl⟩, hcur, hmax, -, -⟩
    exact ⟨hl, hcur, hmax⟩
  · rintro ⟨hl, hcur, hmax⟩
    exact ⟨_, _, (), s, ⟨hl, rfl⟩, hcur, hmax, rfl, rfl⟩

/-- More is to be redeemed by an active vault. -/
theorem run_increaseToBeRedeemed (hc : v.Current s)
    (h : (v.increaseToBeRedeemed x).run s = .ok v' s') :
    v.Evolves v' s s' ∧ v.wrappedCurrency = x.currencyId ∧ v.data.isLiquidated = false ∧
      s'.counters = s.counters.addToBeRedeemed (.inl v.id) x.amount := by
  simp only [increaseToBeRedeemed, Call.run_bind_eq_ok, Call.run_ensure_eq_ok] at h
  obtain ⟨_, _, ⟨hl, rfl⟩, hrun⟩ := h
  obtain ⟨hcur, hmax, rfl, rfl⟩ := run_increase.mp hrun
  refine ⟨evolves_setVault ⟨_, _, _, rfl⟩, hcur, hl, ?_⟩
  rw [Counters.addToBeRedeemed, bump_eq_update, hc.toBeRedeemed]
  exact counters_setToBeRedeemed hc _

/-- What is to be redeemed can grow within its range. -/
theorem increaseToBeRedeemed_succeeds (hc : v.Current s) :
    (v.increaseToBeRedeemed x).succeeds s = true ↔
      v.data.isLiquidated = false ∧ v.wrappedCurrency = x.currencyId ∧
        s.counters.toBeRedeemed (.inl v.id) + x.amount ≤ maxBalance := by
  simp only [Call.succeeds_iff, increaseToBeRedeemed, Call.run_bind_eq_ok, Call.run_ensure_eq_ok,
    run_increase, hc.toBeRedeemed]
  constructor
  · rintro ⟨_, _, _, _, ⟨hl, rfl⟩, hcur, hmax, -, -⟩
    exact ⟨hl, hcur, hmax⟩
  · rintro ⟨hl, hcur, hmax⟩
    exact ⟨_, _, (), s, ⟨hl, rfl⟩, hcur, hmax, rfl, rfl⟩

/-- Less is to be redeemed by the vault, and by its pool if it is liquidated. -/
theorem run_decreaseToBeRedeemed (hc : v.Current s)
    (h : (v.decreaseToBeRedeemed x).run s = .ok v' s') :
    v.Evolves v' s s' ∧ v.wrappedCurrency = x.currencyId ∧
      x.amount ≤ s.counters.toBeRedeemed (.inl v.id) ∧
      s'.counters = s.counters.subToBeRedeemed pairOf v.id x.amount := by
  simp only [decreaseToBeRedeemed, Call.run_ite_eq_ok, Call.run_bind_eq_ok, Call.run_get_eq_ok,
    Call.run_pure_eq_ok] at h
  obtain ⟨_, _, ⟨rfl, rfl⟩, _, _, hpool, hrun⟩ := h
  obtain ⟨hcur, hle, rfl, rfl⟩ := run_decrease.mp hrun
  rw [Counters.subToBeRedeemed, hc.isLiquidated, hc.toBeRedeemed]
  obtain ⟨hl, _, t, hpool, -, rfl⟩ | ⟨hl, -, rfl⟩ := hpool
  · obtain ⟨-, hle', -, ht⟩ := RichSystemVault.run_decrease.mp hpool
    have he : v.Evolves v s t :=
      ht ▸ evolves_of_pool hc (RichSystemVault.evolves_setLiquidationVault rfl)
    have htc : t.counters = { s.counters with
        toBeRedeemed := drop s.counters.toBeRedeemed (.inr v.id.currencies) x.amount } := by
      rw [ht, drop_eq_update]
      exact RichSystemVault.counters_setToBeRedeemed _ _
    refine ⟨he.trans (evolves_setVault ⟨_, _, _, rfl⟩), hcur, hle, ?_⟩
    rw [if_pos hl, drop_eq_update _ (Sum.inl v.id)]
    refine (counters_setToBeRedeemed he.current _).trans ?_
    rw [htc, show drop s.counters.toBeRedeemed (Sum.inr (pairOf v.id)) x.amount (Sum.inl v.id) =
      v.data.toBeRedeemedTokens by simp [drop, hc.toBeRedeemed]]
    rfl
  · refine ⟨evolves_setVault ⟨_, _, _, rfl⟩, hcur, hle, ?_⟩
    rw [if_neg hl, drop_eq_update, hc.toBeRedeemed]
    exact counters_setToBeRedeemed hc _

/-- What was to be issued is issued, where the vault is counted. -/
theorem run_executeIssueTokens (hc : v.Current s)
    (h : (v.executeIssueTokens x).run s = .ok v' s') :
    v.Evolves v' s s' ∧ v.wrappedCurrency = x.currencyId ∧
      x.amount ≤ s.counters.toBeIssued v.home ∧
      s.counters.issued v.home + x.amount ≤ maxBalance ∧
      s'.counters = (s.counters.subToBeIssued v.home x.amount).addIssued v.home x.amount := by
  simp only [executeIssueTokens, Call.run_bind_eq_ok] at h
  obtain ⟨u, t, h₁, h₂⟩ := h
  obtain ⟨he, hcur, hle, ht⟩ := run_decreaseToBeIssued hc h₁
  obtain ⟨he', -, hmax, hs'⟩ := run_increaseIssued he.current h₂
  have hhome : u.home = v.home := by rw [home, home, he.isLiquidated, he.id]
  rw [hhome, ht] at hmax hs'
  exact ⟨he.trans he', hcur, hle, hmax, hs'⟩

/-- What was to be redeemed is no longer issued, where the vault is counted. -/
theorem run_executeRedeemTokens (hc : v.Current s)
    (h : (v.executeRedeemTokens x).run s = .ok v' s') :
    v.Evolves v' s s' ∧ v.wrappedCurrency = x.currencyId ∧
      x.amount ≤ s.counters.toBeRedeemed (.inl v.id) ∧
      x.amount ≤ s.counters.issued v.home ∧
      s'.counters = (s.counters.subToBeRedeemed pairOf v.id x.amount).subIssued v.home
        x.amount := by
  simp only [executeRedeemTokens, Call.run_bind_eq_ok] at h
  obtain ⟨u, t, h₁, h₂⟩ := h
  obtain ⟨he, hcur, hle, ht⟩ := run_decreaseToBeRedeemed hc h₁
  obtain ⟨he', -, hissued, hs'⟩ := run_decreaseIssued he.current h₂
  have hhome : u.home = v.home := by rw [home, home, he.isLiquidated, he.id]
  rw [hhome, ht] at hissued hs'
  exact ⟨he.trans he', hcur, hle, hissued, hs'⟩

/-- An issue can be executed if it was to be issued and what is issued stays in range. -/
theorem executeIssueTokens_succeeds (hc : v.Current s) :
    (v.executeIssueTokens x).succeeds s = true ↔
      v.wrappedCurrency = x.currencyId ∧ x.amount ≤ s.counters.toBeIssued v.home ∧
        s.counters.issued v.home + x.amount ≤ maxBalance := by
  constructor
  · intro h
    obtain ⟨v', s', h⟩ := Call.succeeds_iff.mp h
    obtain ⟨-, hcur, hle, hmax, -⟩ := run_executeIssueTokens hc h
    exact ⟨hcur, hle, hmax⟩
  · rintro ⟨hcur, hle, hmax⟩
    obtain ⟨u, t, h₁⟩ := Call.succeeds_iff.mp ((decreaseToBeIssued_succeeds hc).mpr ⟨hcur, hle⟩)
    obtain ⟨he, -, -, ht⟩ := run_decreaseToBeIssued hc h₁
    have hhome : u.home = v.home := by rw [home, home, he.isLiquidated, he.id]
    have hw : u.wrappedCurrency = v.wrappedCurrency := by
      rw [wrappedCurrency, wrappedCurrency, he.id]
    obtain ⟨v', s', h₂⟩ := Call.succeeds_iff.mp ((increaseIssued_succeeds he.current).mpr
      ⟨hw.trans hcur, by rw [hhome, ht]; exact hmax⟩)
    exact Call.succeeds_iff.mpr ⟨v', s', Call.run_bind_eq_ok.mpr ⟨u, t, h₁, h₂⟩⟩

end RichVault

/-! ## What is not counted -/

/-- A vault without its token counters. -/
def Vault.rest (d : Vault) : Vault :=
  { d with
    toBeIssuedTokens := 0
    issuedTokens := 0
    toBeRedeemedTokens := 0
    toBeReplacedTokens := 0 }

/-- The part of the registry that the books do not see. -/
def VaultRegistry.rest (s : VaultRegistry AccountId CurrencyId) :
    (VaultId AccountId CurrencyId → Option Vault) × (VaultCurrencyPair CurrencyId → ℕ) ×
      (VaultCurrencyPair CurrencyId → ℕ) :=
  (fun v => (s.vaults v).map Vault.rest, fun p => (s.liquidationVault p).collateral,
    s.totalUserVaultCollateral)

section

omit [DecidableEq AccountId] [DecidableEq CurrencyId]

/-- A copy that evolves changes nothing but counters. -/
theorem RichVault.Evolves.rest {v v' : RichVault AccountId CurrencyId}
    {s s' : VaultRegistry AccountId CurrencyId} (h : v.Evolves v' s s') (hc : v.Current s) :
    s'.rest = s.rest := by
  refine Prod.ext (funext fun u => ?_) (Prod.ext (funext h.collateral) h.total)
  change (s'.vaults u).map Vault.rest = (s.vaults u).map Vault.rest
  rcases eq_or_ne u v.id with rfl | hu
  · obtain ⟨a, b, c, hd⟩ := h.data
    have hcur : s'.vaults v.id = some v'.data := h.id ▸ h.current
    rw [hcur, show s.vaults v.id = some v.data from hc, hd]
    rfl
  · rw [h.others u hu]

/-- A vault of which only counters changed is still there. -/
theorem VaultRegistry.vault_of_rest {s s' : VaultRegistry AccountId CurrencyId}
    {v : VaultId AccountId CurrencyId} {d : Vault} (h : s'.rest = s.rest)
    (hd : s.vaults v = some d) : ∃ d', s'.vaults v = some d' ∧ d'.rest = d.rest := by
  have hv : (s'.vaults v).map Vault.rest = (s.vaults v).map Vault.rest :=
    congrFun (congrArg Prod.fst h) v
  rw [hd, Option.map_some, Option.map_eq_some_iff] at hv
  exact hv

end

/-! ## Calls on the registry -/

namespace VaultRegistry

variable {s s' : VaultRegistry AccountId CurrencyId} {vaultId : VaultId AccountId CurrencyId}
  {v : RichVault AccountId CurrencyId} {x : Amount CurrencyId} {u : Unit}

omit [DecidableEq AccountId] [DecidableEq CurrencyId]

/-- What is read is a current copy. -/
theorem getRichVaultFromId_eq_ok :
    s.getRichVaultFromId vaultId = .ok v ↔ v.id = vaultId ∧ v.Current s := by
  simp only [getRichVaultFromId, getVaultFromId, except_bind_eq_ok, okOr_eq_ok, except_pure_eq_ok]
  constructor
  · rintro ⟨d, hd, rfl⟩
    exact ⟨rfl, hd⟩
  · rintro ⟨rfl, hc⟩
    exact ⟨v.data, hc, rfl⟩

private theorem getActiveVaultFromId_eq_ok {d : Vault} :
    s.getActiveVaultFromId vaultId = .ok d ↔
      s.vaults vaultId = some d ∧ d.isLiquidated = false := by
  simp only [getActiveVaultFromId, getVaultFromId, except_bind_eq_ok, okOr_eq_ok,
    except_ite_eq_ok, except_throw_eq_ok, and_false, false_or, except_pure_eq_ok]
  constructor
  · rintro ⟨d, hd, hl, rfl⟩
    exact ⟨hd, Bool.eq_false_iff.mpr hl⟩
  · rintro ⟨hd, hl⟩
    exact ⟨d, hd, Bool.eq_false_iff.mp hl, rfl⟩

/-- What is read is a current copy of an active vault. -/
theorem getActiveRichVaultFromId_eq_ok :
    s.getActiveRichVaultFromId vaultId = .ok v ↔
      v.id = vaultId ∧ v.Current s ∧ v.data.isLiquidated = false := by
  simp only [getActiveRichVaultFromId, except_bind_eq_ok, getActiveVaultFromId_eq_ok,
    except_pure_eq_ok]
  constructor
  · rintro ⟨d, ⟨hd, hl⟩, rfl⟩
    exact ⟨rfl, hd, hl⟩
  · rintro ⟨rfl, hc, hl⟩
    exact ⟨v.data, ⟨hc, hl⟩, rfl⟩

/-- Whether a vault is liquidated is read from the vault. -/
theorem isVaultLiquidated_eq_ok {b : Bool} :
    s.isVaultLiquidated vaultId = .ok b ↔
      ∃ d, s.vaults vaultId = some d ∧ d.isLiquidated = b := by
  simp only [isVaultLiquidated, getVaultFromId, except_bind_eq_ok, okOr_eq_ok, except_pure_eq_ok]

end VaultRegistry

end Interbtc
