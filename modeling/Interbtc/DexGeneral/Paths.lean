import Interbtc.Core.ConstantProduct
import Interbtc.DexGeneral.Structure

/-!
# Paths

A swap is quoted along its whole path at the reserves before it. A path that takes no pair twice
in one direction keeps the product of the reserves of every pair.
-/

namespace Interbtc.DexGeneral

open Core MultiCurrency

variable {AccountId AssetId Tokens : Type} [DecidableEq AccountId] [LinearOrder AssetId]
  [WithdrawableCurrency Tokens AccountId AssetId] [LawfulWithdrawableCurrency Tokens]
  [DexGeneralConfig AccountId AssetId]
  {s s' t : DexGeneral AccountId AssetId Tokens} {a b : AssetId} {who recipient : AccountId}
  {path : List AssetId} {u : Unit}

/-! ## Directions -/

/-- No pair of two assets is taken twice in the same direction. -/
def NoRepeat (path : List AssetId) : Prop :=
  ((path.zip path.tail).filter fun d => d.1 ≠ d.2).Nodup

instance : Decidable (NoRepeat path) := by
  unfold NoRepeat
  infer_instance

/-- Where a hop goes. -/
def Hop.direction (h : Hop AssetId) : AssetId × AssetId := (h.input, h.output)

omit [LinearOrder AssetId] in
private theorem hops_direction {amounts : List ℕ} (hlength : amounts.length = path.length) :
    (hops amounts path).map Hop.direction = path.zip path.tail := by
  induction path generalizing amounts with
  | nil =>
    obtain rfl := List.length_eq_zero_iff.mp hlength
    rfl
  | cons input path ih =>
    obtain ⟨x, amounts, rfl⟩ := List.exists_of_length_succ amounts hlength
    cases path with
    | nil =>
      obtain rfl := List.length_eq_zero_iff.mp (Nat.succ.inj hlength)
      rfl
    | cons output path =>
      obtain ⟨y, amounts, rfl⟩ := List.exists_of_length_succ amounts (Nat.succ.inj hlength)
      rw [hops, List.map_cons, ih (Nat.succ.inj hlength)]
      rfl

omit [DecidableEq AccountId] in
private theorem pairAccountId_inj {c d : AssetId}
    (h : (pairAccountId a b : AccountId) = pairAccountId c d) :
    (a = c ∧ b = d) ∨ (a = d ∧ b = c) := by
  have hsort := DexGeneralConfig.subAccount_injective h
  rcases sortAssetId_eq a b with hab | hab <;> rcases sortAssetId_eq c d with hcd | hcd <;>
    rw [hab, hcd, Prod.mk.injEq] at hsort
  · exact .inl hsort
  · exact .inr hsort
  · exact .inr hsort.symm
  · exact .inl hsort.symm

/-! ## What a pair gets -/

omit [DecidableEq AccountId] [LawfulWithdrawableCurrency Tokens] in
private theorem Quoted.keepsProduct {h : Hop AssetId} (hq : Quoted s h) :
    KeepsProduct (s.freeBalance h.input (pairAccountId h.input h.output))
      (s.freeBalance h.output (pairAccountId h.input h.output)) h.amountIn h.amountOut :=
  ⟨hq.le, hq.product⟩

/-- What the exchanges of a path bring to the account of a pair. -/
def net (hs : List (Hop AssetId)) (c : AssetId) (who : AccountId) : ℤ :=
  (hs.map Hop.flow).sum c who

private theorem net_cons (h : Hop AssetId) (hs : List (Hop AssetId)) (c : AssetId)
    (who : AccountId) :
    net (h :: hs) c who = h.flow c who + net hs c who := by
  simp only [net, List.map_cons, List.sum_cons, Pi.add_apply]

private theorem Hop.flow_of_direction_ne {h : Hop AssetId} {c : AssetId}
    (hab : h.direction ≠ (a, b))
    (hba : h.direction ≠ (b, a)) :
    h.flow c (pairAccountId a b : AccountId) = 0 := by
  have hne : (pairAccountId a b : AccountId) ≠ pairAccountId h.input h.output := by
    intro heq
    rcases pairAccountId_inj heq with ⟨rfl, rfl⟩ | ⟨rfl, rfl⟩
    · exact hab rfl
    · exact hba rfl
  rw [Hop.flow, Pi.sub_apply, Pi.sub_apply, flow_of_ne hne, flow_of_ne hne, sub_zero]

section

omit [LawfulWithdrawableCurrency Tokens]

/-- A pair of two assets gets what one exchange in each direction brings. -/
theorem net_of_nodup {hs : List (Hop AssetId)} (hne : a ≠ b) (hquoted : ∀ h ∈ hs, Quoted s h)
    (hnodup : ((hs.map Hop.direction).filter fun d => d.1 ≠ d.2).Nodup) :
    ∃ x v y w,
      KeepsProduct (s.freeBalance a (pairAccountId a b)) (s.freeBalance b (pairAccountId a b)) x v ∧
      KeepsProduct (s.freeBalance b (pairAccountId a b)) (s.freeBalance a (pairAccountId a b)) y w ∧
      net hs a (pairAccountId a b : AccountId) = (x : ℤ) - w ∧
      net hs b (pairAccountId a b : AccountId) = (y : ℤ) - v ∧
      ((a, b) ∉ hs.map Hop.direction → x = 0 ∧ v = 0) ∧
      ((b, a) ∉ hs.map Hop.direction → y = 0 ∧ w = 0) := by
  induction hs with
  | nil => exact ⟨0, 0, 0, 0, .zero _ _, .zero _ _, rfl, rfl, fun _ => ⟨rfl, rfl⟩, fun _ => ⟨rfl, rfl⟩⟩
  | cons h hs ih =>
    obtain ⟨hh, hhs⟩ := List.forall_mem_cons.mp hquoted
    have hkeep := hh.keepsProduct
    rw [List.map_cons] at hnodup ⊢
    by_cases hab : h.direction = (a, b)
    · obtain ⟨hi, ho⟩ := Prod.mk.inj hab
      rw [List.filter_cons_of_pos (by rw [hab]; exact decide_eq_true hne), hab,
        List.nodup_cons] at hnodup
      obtain ⟨x, v, y, w, -, hback, hnet₀, hnet₁, hzero, hzero'⟩ := ih hhs hnodup.2
      obtain ⟨rfl, rfl⟩ := hzero fun hmem =>
        hnodup.1 (List.mem_filter.mpr ⟨hmem, decide_eq_true hne⟩)
      rw [hi, ho] at hkeep
      refine ⟨h.amountIn, h.amountOut, y, w, hkeep, hback, ?_, ?_, fun hnot => ?_, fun hnot => ?_⟩
      · rw [net_cons, hnet₀, Hop.flow, hi, ho]
        simp only [Pi.sub_apply, flow_self, flow_of_ne_currency hne]
        ring
      · rw [net_cons, hnet₁, Hop.flow, hi, ho]
        simp only [Pi.sub_apply, flow_self, flow_of_ne_currency hne.symm]
        ring
      · exact absurd (List.mem_cons.mpr (.inl hab.symm)) hnot
      · exact hzero' fun hmem => hnot (List.mem_cons_of_mem _ hmem)
    · by_cases hba : h.direction = (b, a)
      · obtain ⟨hi, ho⟩ := Prod.mk.inj hba
        rw [List.filter_cons_of_pos (by rw [hba]; exact decide_eq_true hne.symm), hba,
          List.nodup_cons] at hnodup
        obtain ⟨x, v, y, w, hforward, -, hnet₀, hnet₁, hzero, hzero'⟩ := ih hhs hnodup.2
        obtain ⟨rfl, rfl⟩ := hzero' fun hmem =>
          hnodup.1 (List.mem_filter.mpr ⟨hmem, decide_eq_true hne.symm⟩)
        rw [hi, ho, pairAccountId_comm b a] at hkeep
        refine ⟨x, v, h.amountIn, h.amountOut, hforward, hkeep, ?_, ?_, fun hnot => ?_,
          fun hnot => ?_⟩
        · rw [net_cons, hnet₀, Hop.flow, hi, ho, pairAccountId_comm b a]
          simp only [Pi.sub_apply, flow_self, flow_of_ne_currency hne]
          ring
        · rw [net_cons, hnet₁, Hop.flow, hi, ho, pairAccountId_comm b a]
          simp only [Pi.sub_apply, flow_self, flow_of_ne_currency hne.symm]
          ring
        · exact hzero fun hmem => hnot (List.mem_cons_of_mem _ hmem)
        · exact absurd (List.mem_cons.mpr (.inl hba.symm)) hnot
      · have hrest : ((hs.map Hop.direction).filter fun d => d.1 ≠ d.2).Nodup :=
          hnodup.sublist ((List.sublist_cons_self _ _).filter _)
        obtain ⟨x, v, y, w, hforward, hback, hnet₀, hnet₁, hzero, hzero'⟩ := ih hhs hrest
        refine ⟨x, v, y, w, hforward, hback, ?_, ?_, fun hnot => ?_, fun hnot => ?_⟩
        · rw [net_cons, h.flow_of_direction_ne hab hba, zero_add, hnet₀]
        · rw [net_cons, h.flow_of_direction_ne hab hba, zero_add, hnet₁]
        · exact hzero fun hmem => hnot (List.mem_cons_of_mem _ hmem)
        · exact hzero' fun hmem => hnot (List.mem_cons_of_mem _ hmem)

/-- A pair of an asset with itself gets at least what it pays. -/
theorem net_self_nonneg {hs : List (Hop AssetId)} (hquoted : ∀ h ∈ hs, Quoted s h) :
    0 ≤ net hs a (pairAccountId a a : AccountId) := by
  induction hs with
  | nil => exact le_rfl
  | cons h hs ih =>
    obtain ⟨hh, hhs⟩ := List.forall_mem_cons.mp hquoted
    rw [net_cons]
    refine add_nonneg ?_ (ih hhs)
    by_cases haa : h.direction = (a, a)
    · obtain ⟨hi, ho⟩ := Prod.mk.inj haa
      have hkeep := hh.keepsProduct
      have hpos := hh.input_pos
      rw [hi, ho] at hkeep
      rw [hi, ho] at hpos
      have hle := hkeep.le_self hpos
      rw [Hop.flow, hi, ho, Pi.sub_apply, Pi.sub_apply, flow_self, flow_self]
      omega
    · rw [h.flow_of_direction_ne haa haa]

/-- Beside the exchanges a pair gets at most what a swap pays it as the recipient. -/
theorem Swaps.net_le (h : Swaps path who recipient s s') (hwho : IsTrader AssetId who) :
    ∃ amounts, amounts.length = path.length ∧ (∀ hop ∈ hops amounts path, Quoted s hop) ∧
      ∀ c, (s.freeBalance c (pairAccountId a b) : ℤ) +
        net (hops amounts path) c (pairAccountId a b : AccountId) ≤
          s'.freeBalance c (pairAccountId a b) := by
  obtain ⟨amounts, first, last, x, y, hlength, hquoted, hpays⟩ := h.exists_pays
  refine ⟨amounts, hlength, fun hop hhop => (hquoted hop hhop).1, fun c => ?_⟩
  have hne : pairAccountId a b ≠ who := (hwho.2 _).symm
  rw [freeBalance_eq_held, freeBalance_eq_held, hpays.held]
  simp only [Pi.add_apply, Pi.sub_apply, flow_of_ne hne, sub_zero, net]
  have hpaid : 0 ≤ flow last recipient y c (pairAccountId a b) := flow_nonneg
  linarith

/-- A swap along a path that takes no pair twice in one direction keeps every product. -/
theorem Swaps.product_le (h : Swaps path who recipient s s') (hwho : IsTrader AssetId who)
    (hpath : NoRepeat path) (a b : AssetId) :
    s.freeBalance a (pairAccountId a b) * s.freeBalance b (pairAccountId a b) ≤
      s'.freeBalance a (pairAccountId a b) * s'.freeBalance b (pairAccountId a b) := by
  obtain ⟨amounts, hlength, hquoted, hnet⟩ := h.net_le (a := a) (b := b) hwho
  by_cases hab : a = b
  · subst hab
    have hle : s.freeBalance a (pairAccountId a a) ≤ s'.freeBalance a (pairAccountId a a) := by
      have := hnet a
      have : 0 ≤ net (hops amounts path) a (pairAccountId a a : AccountId) :=
        net_self_nonneg hquoted
      omega
    exact Nat.mul_le_mul hle hle
  · rw [NoRepeat, ← hops_direction hlength] at hpath
    obtain ⟨x, v, y, w, hforward, hback, hnet₀, hnet₁, -, -⟩ := net_of_nodup hab hquoted hpath
    have h₀ := hnet a
    have h₁ := hnet b
    rw [hnet₀] at h₀
    rw [hnet₁] at h₁
    have hproduct : (s.freeBalance a (pairAccountId a b) : ℤ) * s.freeBalance b (pairAccountId a b) ≤
        s'.freeBalance a (pairAccountId a b) * s'.freeBalance b (pairAccountId a b) :=
      hforward.both hback (by linarith) (by linarith)
    exact_mod_cast hproduct

/-- A swap along such a path leaves something of both reserves of a pair. -/
theorem Swaps.pos (h : Swaps path who recipient s s') (hwho : IsTrader AssetId who)
    (hpath : NoRepeat path) (hab : a ≠ b) (ha : 0 < s.freeBalance a (pairAccountId a b))
    (hb : 0 < s.freeBalance b (pairAccountId a b)) :
    0 < s'.freeBalance a (pairAccountId a b) ∧ 0 < s'.freeBalance b (pairAccountId a b) := by
  obtain ⟨amounts, hlength, hquoted, hnet⟩ := h.net_le (a := a) (b := b) hwho
  rw [NoRepeat, ← hops_direction hlength] at hpath
  obtain ⟨x, v, y, w, hforward, hback, hnet₀, hnet₁, -, -⟩ := net_of_nodup hab hquoted hpath
  have h₀ := hnet a
  have h₁ := hnet b
  have := hforward.lt ha hb
  have := hback.lt hb ha
  omega

end

/-- Both swaps keep the product of the reserves of every pair, from every state. -/
theorem swap_product_le (s : DexGeneral AccountId AssetId Tokens)
    (who : Trader AccountId AssetId) (hpath : NoRepeat path) (a b : AssetId) :
    (∀ amountIn amountOutMin s',
      (innerSwapExactAssetsForAssets who.val amountIn amountOutMin path recipient).run s =
          .ok () s' →
        s.freeBalance a (pairAccountId a b) * s.freeBalance b (pairAccountId a b) ≤
          s'.freeBalance a (pairAccountId a b) * s'.freeBalance b (pairAccountId a b)) ∧
    ∀ amountOut amountInMax s',
      (innerSwapAssetsForExactAssets who.val amountOut amountInMax path recipient).run s =
          .ok () s' →
        s.freeBalance a (pairAccountId a b) * s.freeBalance b (pairAccountId a b) ≤
          s'.freeBalance a (pairAccountId a b) * s'.freeBalance b (pairAccountId a b) :=
  ⟨fun _ _ _ h => (run_innerSwapExactAssetsForAssets h).product_le who.property hpath a b,
    fun _ _ _ h => (run_innerSwapAssetsForExactAssets h).product_le who.property hpath a b⟩

/-- Three pairs with equal reserves. -/
def Sample.triangle : Sample.Exchange :=
  run step (Sample.start 10000 none 0)
    [(1, .createPair 0 1 30), (1, .createPair 1 2 30), (1, .createPair 0 2 30),
      (1, .addLiquidity Sample.alice 0 1 1000 1000 0 0 2),
      (1, .addLiquidity Sample.alice 1 2 1000 1000 0 0 2),
      (1, .addLiquidity Sample.alice 0 2 1000 1000 0 0 2)]

/-- Bob swaps an amount along a path. -/
def Sample.swapping (path : List Sample.Asset) : DexGeneralCall Sample.Holder Sample.Asset
    (TokenLedger Sample.Holder Sample.Asset) Unit :=
  innerSwapExactAssetsForAssets Sample.bob.val 500 0 path Sample.bob.val

/-- Bob receives an amount along a path. -/
def Sample.receiving (path : List Sample.Asset) : DexGeneralCall Sample.Holder Sample.Asset
    (TokenLedger Sample.Holder Sample.Asset) Unit :=
  innerSwapAssetsForExactAssets Sample.bob.val 150 10000 path Sample.bob.val

/-- The second exchange of a pair in one direction is quoted at the reserves before the first. -/
theorem swap_twice_loses :
    (Sample.swapping [0, 1, 2, 0, 1]).succeeds Sample.triangle = true ∧
      ((Sample.swapping [0, 1, 2, 0, 1]).commit Sample.triangle).freeBalance 0 (Sample.pool 0 1) *
          ((Sample.swapping [0, 1, 2, 0, 1]).commit Sample.triangle).freeBalance 1
            (Sample.pool 0 1) <
        Sample.triangle.freeBalance 0 (Sample.pool 0 1) *
          Sample.triangle.freeBalance 1 (Sample.pool 0 1) := by
  decide +kernel

/-- A swap around three pairs keeps the product. -/
theorem swap_product_le_triangle :
    Sample.triangle.freeBalance 0 (Sample.pool 0 1) *
        Sample.triangle.freeBalance 1 (Sample.pool 0 1) ≤
      ((Sample.swapping [0, 1, 2, 0]).commit Sample.triangle).freeBalance 0 (Sample.pool 0 1) *
        ((Sample.swapping [0, 1, 2, 0]).commit Sample.triangle).freeBalance 1 (Sample.pool 0 1) ∧
    Sample.triangle.freeBalance 0 (Sample.pool 0 1) *
        Sample.triangle.freeBalance 1 (Sample.pool 0 1) ≤
      ((Sample.receiving [0, 1, 0]).commit Sample.triangle).freeBalance 0 (Sample.pool 0 1) *
        ((Sample.receiving [0, 1, 0]).commit Sample.triangle).freeBalance 1 (Sample.pool 0 1) :=
  ⟨(swap_product_le Sample.triangle Sample.bob (by decide) 0 1).1 _ _ _
      (Call.run_eq_ok_commit (x := Sample.swapping [0, 1, 2, 0]) (by decide +kernel)),
    (swap_product_le Sample.triangle Sample.bob (by decide) 0 1).2 _ _ _
      (Call.run_eq_ok_commit (x := Sample.receiving [0, 1, 0]) (by decide +kernel))⟩

end Interbtc.DexGeneral
