import Interbtc.DexGeneral.Effects
import Interbtc.DexStable.Delivery
import Interbtc.SwapRouter.Pallet

/-!
# What the router delivers

Every route takes all of its input from the trader and pays all of its output to the next
receiver, whichever exchange it goes through. So for accounts that are no pools a list of routes
does the same as one exchange of the first currency for the last one.
-/

namespace Interbtc.SwapRouter

open Core MultiCurrency WithdrawableCurrency

variable {AccountId CurrencyId Tokens α : Type} [DecidableEq AccountId] [LinearOrder CurrencyId]
  [WithdrawableCurrency Tokens AccountId CurrencyId] [DexGeneralConfig AccountId CurrencyId]
  [DexStableConfig AccountId CurrencyId] {s s' : SwapRouter AccountId CurrencyId Tokens}
  {t t₁ t' : Tokens} {who to' : AccountId} {c d e : CurrencyId} {x y z : ℕ}

/-! ## Deliveries -/

/-- Accounts of no pool. -/
def Outsider (CurrencyId : Type) [DexGeneralConfig AccountId CurrencyId]
    [DexStableConfig AccountId CurrencyId] (who : AccountId) : Prop :=
  (∀ pair : CurrencyId × CurrencyId, who ≠ DexGeneralConfig.subAccount pair) ∧
    DexStable.Outside CurrencyId who

/-- Outside of the pools, `who` paid `x` of one currency and `to'` got `y` of another one. -/
def Conveys (t t' : Tokens) (who : AccountId) (c : CurrencyId) (x : ℕ) (to' : AccountId)
    (d : CurrencyId) (y : ℕ) : Prop :=
  ∀ w, Outsider CurrencyId w → ∀ e, held t' e w = held t e w - flow c who x e w + flow d to' y e w

private theorem Conveys.trans (h : Conveys t t₁ who c x who d y)
    (h' : Conveys t₁ t' who d y to' e z) :
    Conveys t t' who c x to' e z := by
  intro w hw k
  rw [h' w hw k, h w hw k]
  omega

private theorem conveys_of_delivers {a b : DexStable AccountId CurrencyId Tokens}
    (h : DexStable.Delivers a b who c x to' d y) :
    Conveys a.tokens b.tokens who c x to' d y := fun w hw => h w hw.2

private theorem hops_flow_of_outsider {w : AccountId} (hw : Outsider CurrencyId w)
    (hs : List (DexGeneral.Hop CurrencyId)) (e : CurrencyId) :
    (hs.map DexGeneral.Hop.flow).sum e w = 0 := by
  induction hs with
  | nil => rfl
  | cons h hs ih =>
    have hne : w ≠ DexGeneral.pairAccountId h.input h.output := hw.1 _
    rw [List.map_cons, List.sum_cons, Pi.add_apply, Pi.add_apply, ih, add_zero,
      DexGeneral.Hop.flow, Pi.sub_apply, Pi.sub_apply, flow_of_ne hne, flow_of_ne hne, sub_zero]

/-! ## Calls of the exchanges -/

section

omit [DecidableEq AccountId] [WithdrawableCurrency Tokens AccountId CurrencyId]
  [DexGeneralConfig AccountId CurrencyId] [DexStableConfig AccountId CurrencyId]

private theorem run_onGeneral {f : DexGeneralCall AccountId CurrencyId Tokens α} {a : α} :
    (onGeneral f).run s = .ok a s' ↔
      ∃ g, f.run (GeneralPart.get s) = .ok a g ∧ GeneralPart.set g s = s' := by
  simp only [onGeneral, Lens.run_zoom_eq_ok, Call.run_mapError_eq_ok]

private theorem run_onStable {f : StableCall AccountId CurrencyId Tokens α} {a : α} :
    (onStable f).run s = .ok a s' ↔
      ∃ g, f.run (StablePart.get s) = .ok a g ∧ StablePart.set g s = s' := by
  simp only [onStable, Lens.run_zoom_eq_ok, Call.run_mapError_eq_ok]

private theorem run_currencyIndexFromStablePool {poolId i : ℕ} :
    (currencyIndexFromStablePool poolId c).run s = .ok i s' ↔
      DexStable.getCurrencyIndex (StablePart.get s) poolId c = some i ∧ s = s' := by
  simp only [currencyIndexFromStablePool, Call.run_bind_eq_ok, Call.run_get_eq_ok,
    Call.run_ofOption_eq_ok]
  constructor
  · rintro ⟨_, _, ⟨rfl, rfl⟩, h⟩
    exact h
  · exact fun h => ⟨s, s, ⟨rfl, rfl⟩, h⟩

end

/-! ## One route -/

variable [LawfulWithdrawableCurrency Tokens]

/-- The stored stable pools are those of a run, and the same ones after a call. -/
def SameStable (s s' : SwapRouter AccountId CurrencyId Tokens) : Prop :=
  DexStable.SameFrames (StablePart.get s) (StablePart.get s')

/-- The stable pools of a router are built. -/
def Built (s : SwapRouter AccountId CurrencyId Tokens) : Prop := DexStable.Built (StablePart.get s)

/-- A path of the constant-product exchange. -/
theorem swapRoute_general_conveys {path : List CurrencyId}
    (h : (swapRoute who x to' (.general path)).run s = .ok y s') :
    s'.stable = s.stable ∧ ∃ c d, path.head? = some c ∧ path.getLast? = some d ∧
      Conveys s.tokens s'.tokens who c x to' d y := by
  simp only [swapRoute, swap, Call.run_bind_eq_ok, run_onGeneral, Call.run_reads_eq_ok,
    Call.run_ofOption_eq_ok] at h
  obtain ⟨amounts, _, ⟨_, ⟨hquote, rfl⟩, rfl⟩, _, _, ⟨g, hswap, rfl⟩, hy, rfl⟩ := h
  obtain ⟨amounts', c, d, y', hquote', hc, hd, hy', hpays⟩ :=
    DexGeneral.innerSwapExactAssetsForAssets_pays hswap
  cases hquote.symm.trans hquote'
  cases hy.symm.trans hy'
  refine ⟨rfl, c, d, hc, hd, fun w hw e => ?_⟩
  have hheld := congrFun (congrFun hpays.held e) w
  rw [Pi.add_apply, Pi.add_apply, Pi.add_apply, Pi.add_apply, Pi.sub_apply, Pi.sub_apply,
    hops_flow_of_outsider hw, zero_sub, ← add_assoc, ← sub_eq_add_neg] at hheld
  exact hheld

section

omit [DecidableEq AccountId] [DexGeneralConfig AccountId CurrencyId]
  [DexStableConfig AccountId CurrencyId] [LawfulWithdrawableCurrency Tokens]

/-- The swap that a mode stands for, and where its indices come from. -/
theorem run_stableSwap {path : StablePath CurrencyId}
    (h : (stableSwap who path x to').run s = .ok y s') :
    ∃ i j g, StablePart.set g s = s' ∧
      ((path.mode = .single ∧
          DexStable.getCurrencyIndex (StablePart.get s) path.poolId path.fromCurrency = some i ∧
          DexStable.getCurrencyIndex (StablePart.get s) path.poolId path.toCurrency = some j ∧
          (DexStable.innerSwap who path.poolId i j x 0 to').run (StablePart.get s) = .ok y g) ∨
        (path.mode = .fromBase ∧
          DexStable.getCurrencyIndex (StablePart.get s) path.basePoolId path.fromCurrency =
            some i ∧
          DexStable.getCurrencyIndex (StablePart.get s) path.poolId path.toCurrency = some j ∧
          (DexStable.innerSwapPoolFromBase who path.poolId path.basePoolId i j x 0 to').run
            (StablePart.get s) = .ok y g) ∨
        (path.mode = .toBase ∧
          DexStable.getCurrencyIndex (StablePart.get s) path.poolId path.fromCurrency = some i ∧
          DexStable.getCurrencyIndex (StablePart.get s) path.basePoolId path.toCurrency = some j ∧
          (DexStable.innerSwapPoolToBase who path.poolId path.basePoolId i j x 0 to').run
            (StablePart.get s) = .ok y g)) := by
  unfold stableSwap at h
  cases hmode : path.mode <;> simp only [hmode, Call.run_bind_eq_ok,
    run_currencyIndexFromStablePool, run_onStable] at h <;>
    obtain ⟨i, _, ⟨hi, rfl⟩, j, _, ⟨hj, rfl⟩, g, hswap, hset⟩ := h
  case single => exact ⟨i, j, g, hset, .inl ⟨rfl, hi, hj, hswap⟩⟩
  case fromBase => exact ⟨i, j, g, hset, .inr (.inl ⟨rfl, hi, hj, hswap⟩)⟩
  case toBase => exact ⟨i, j, g, hset, .inr (.inr ⟨rfl, hi, hj, hswap⟩)⟩

end

section

omit [DexGeneralConfig AccountId CurrencyId]

/-- A route through the stable exchange keeps its pools. -/
theorem stableSwap_sameStable {path : StablePath CurrencyId} (hs : s.Built)
    (hwho : DexStable.Outside CurrencyId who)
    (h : (stableSwap who path x to').run s = .ok y s') : SameStable s s' := by
  obtain ⟨i, j, g, rfl, ⟨-, -, -, hswap⟩ | ⟨-, -, -, hswap⟩ | ⟨-, -, -, hswap⟩⟩ := run_stableSwap h
  · exact (DexStable.innerSwap_serves hs hwho hswap).frames
  · exact (DexStable.innerSwapPoolFromBase_serves hs hwho hswap).frames
  · exact (DexStable.innerSwapPoolToBase_serves hs hwho hswap).frames

end

/-- A route from a base pool is not for the liquidity of that pool. -/
def LeavesBase (s : SwapRouter AccountId CurrencyId Tokens) : Route CurrencyId → Prop
  | .general _ => True
  | .stable path => path.mode = .fromBase →
    ∀ base, s.stable.pools path.basePoolId = some base → base.info.lpCurrencyId ≠ path.toCurrency

section

omit [DecidableEq AccountId] [WithdrawableCurrency Tokens AccountId CurrencyId]
  [DexGeneralConfig AccountId CurrencyId] [DexStableConfig AccountId CurrencyId]
  [LawfulWithdrawableCurrency Tokens]

private theorem LeavesBase.of_sameStable {route : Route CurrencyId} (h : s.LeavesBase route)
    (hsame : SameStable s s') : s'.LeavesBase route := by
  cases route with
  | general => trivial
  | stable path =>
    intro hmode base' hbase'
    obtain ⟨base, hbase, hframe⟩ := hsame.pool_before hbase'
    have hlp : base'.info.lpCurrencyId = base.info.lpCurrencyId :=
      congrArg DexStable.PoolFrame.lpCurrencyId hframe
    rw [hlp]
    exact h hmode base hbase

private theorem sameStable_of_stable (h : s'.stable = s.stable) : SameStable s s' := by
  have hget : StablePart.get s' = { StablePart.get s with tokens := s'.tokens } := by
    simp only [StablePart, h]
  rw [SameStable, hget]
  exact ⟨fun _ => rfl, rfl, rfl⟩

end

/-- A route through the stable exchange delivers between the currencies that it names. -/
theorem stableSwap_conveys {path : StablePath CurrencyId} (hs : s.Built)
    (hwho : DexStable.Outside CurrencyId who) (hpath : s.LeavesBase (.stable path))
    (h : (stableSwap who path x to').run s = .ok y s') :
    Conveys s.tokens s'.tokens who path.fromCurrency x to' path.toCurrency y := by
  obtain ⟨i, j, g, rfl, ⟨-, hi, hj, hswap⟩ | ⟨hmode, hi, hj, hswap⟩ | ⟨-, hi, hj, hswap⟩⟩ :=
    run_stableSwap h
  all_goals
    obtain ⟨from', hfrom, hi⟩ := DexStable.getCurrencyIndex_eq_some hi
    obtain ⟨into, hinto, hj⟩ := DexStable.getCurrencyIndex_eq_some hj
  · obtain ⟨pool, c, d, hp, hc, hd, -, hdelivers⟩ := DexStable.innerSwap_delivers hs hwho hswap
    cases hfrom.symm.trans hp
    cases hinto.symm.trans hp
    cases hi.symm.trans hc
    cases hj.symm.trans hd
    exact conveys_of_delivers hdelivers
  · obtain ⟨base, pool, lpIndex, c, hb, hp, hlp, hc, hown, -⟩ :=
      DexStable.innerSwapPoolFromBase_delivers hs hwho hswap
    cases hfrom.symm.trans hb
    cases hinto.symm.trans hp
    cases hi.symm.trans hc
    have hne : lpIndex ≠ j := by
      rintro rfl
      exact hpath hmode _ hb (Option.some.inj ((DexStable.lastIndexOf_eq_some hlp).symm.trans hj))
    obtain ⟨d, hd, -, hdelivers⟩ := hown hne
    cases hj.symm.trans hd
    exact conveys_of_delivers hdelivers
  · obtain ⟨base, pool, c, d, hb, hp, hc, hd, -, hdelivers⟩ :=
      DexStable.innerSwapPoolToBase_delivers hs hwho hswap
    cases hfrom.symm.trans hp
    cases hinto.symm.trans hb
    cases hi.symm.trans hc
    cases hj.symm.trans hd
    exact conveys_of_delivers hdelivers

private theorem swapRoute_sameStable {route : Route CurrencyId} (hs : s.Built)
    (hwho : DexStable.Outside CurrencyId who)
    (h : (swapRoute who x to' route).run s = .ok y s') : SameStable s s' := by
  cases route with
  | general path => exact sameStable_of_stable (swapRoute_general_conveys h).1
  | stable path => exact stableSwap_sameStable hs hwho h

private theorem swapRoute_conveys {route : Route CurrencyId} (hs : s.Built)
    (hwho : DexStable.Outside CurrencyId who) (hroute : s.LeavesBase route)
    (h : (swapRoute who x to' route).run s = .ok y s') :
    ∃ c d, route.inputCurrency = some c ∧ route.outputCurrency = some d ∧
      Conveys s.tokens s'.tokens who c x to' d y := by
  cases route with
  | general path => exact (swapRoute_general_conveys h).2
  | stable path => exact ⟨_, _, rfl, rfl, stableSwap_conveys hs hwho hroute h⟩

/-! ## All routes -/

/-- What goes out of each route goes into the next one. -/
def Linked (routes : List (Route CurrencyId)) : Prop :=
  routes.IsChain fun route₁ route₂ => ∃ c, route₁.outputCurrency = some c ∧
    route₂.inputCurrency = some c

section

omit [DecidableEq AccountId] [WithdrawableCurrency Tokens AccountId CurrencyId]
  [DexGeneralConfig AccountId CurrencyId] [DexStableConfig AccountId CurrencyId]
  [LawfulWithdrawableCurrency Tokens]

private theorem run_validateRoutes {routes : List (Route CurrencyId)} {u : Unit}
    (h : (validateRoutes routes).run s = .ok u s') : s = s' ∧ Linked routes := by
  induction routes with
  | nil => exact ⟨(Call.run_pure_eq_ok.mp h).2, .nil⟩
  | cons route₁ routes ih =>
    cases routes with
    | nil => exact ⟨(Call.run_pure_eq_ok.mp h).2, .singleton _⟩
    | cons route₂ routes =>
      simp only [validateRoutes, Call.run_bind_eq_ok, Call.run_ofOption_eq_ok,
        Call.run_ensure_eq_ok] at h
      obtain ⟨c, _, ⟨hout, rfl⟩, _, _, ⟨hin, rfl⟩, -, _, ⟨rfl, rfl⟩, hrest⟩ := h
      obtain ⟨rfl, hlinked⟩ := ih hrest
      exact ⟨rfl, .cons_cons ⟨c, hout, hin⟩ hlinked⟩

end

private theorem swapRoutes_sameStable {routes : List (Route CurrencyId)} (hs : s.Built)
    (hwho : DexStable.Outside CurrencyId who)
    (h : (swapRoutes who to' x routes).run s = .ok y s') : SameStable s s' := by
  induction routes generalizing s x with
  | nil =>
    obtain ⟨-, rfl⟩ := Call.run_pure_eq_ok.mp h
    exact .refl _
  | cons route routes ih =>
    obtain ⟨_, s₁, hroute, hrest⟩ := Call.run_bind_eq_ok.mp h
    have hsame := swapRoute_sameStable hs hwho hroute
    exact hsame.trans (ih (hs.of_frames hsame) hrest)

/-- The routes carry the amount on from the first currency to the last one. -/
theorem swapRoutes_conveys {route : Route CurrencyId} {routes : List (Route CurrencyId)}
    (hs : s.Built) (hwho : DexStable.Outside CurrencyId who) (hlinked : Linked (route :: routes))
    (hleave : ∀ r ∈ route :: routes, s.LeavesBase r)
    (h : (swapRoutes who to' x (route :: routes)).run s = .ok y s') :
    ∃ c d, route.inputCurrency = some c ∧
      ((route :: routes).getLast?.bind Route.outputCurrency) = some d ∧
      Conveys s.tokens s'.tokens who c x to' d y := by
  induction routes generalizing s x route with
  | nil =>
    obtain ⟨z, s₁, hroute, hrest⟩ := Call.run_bind_eq_ok.mp h
    obtain ⟨rfl, rfl⟩ := Call.run_pure_eq_ok.mp hrest
    exact swapRoute_conveys hs hwho (hleave route List.mem_cons_self) hroute
  | cons next routes ih =>
    obtain ⟨z, s₁, hroute, hrest⟩ := Call.run_bind_eq_ok.mp h
    have hsame := swapRoute_sameStable hs hwho hroute
    obtain ⟨c, d, hc, hd, hfirst⟩ :=
      swapRoute_conveys hs hwho (hleave route List.mem_cons_self) hroute
    cases hlinked with
    | cons_cons hlink hlinked =>
      obtain ⟨d', hd', hin⟩ := hlink
      obtain ⟨c', e, hc', he, hothers⟩ := ih (hs.of_frames hsame) hlinked
        (fun r hr => (hleave r (List.mem_cons_of_mem _ hr)).of_sameStable hsame) hrest
      cases hd.symm.trans hd'
      cases hin.symm.trans hc'
      exact ⟨c, e, hc, he, hfirst.trans hothers⟩

/-! ## Runs -/

section

omit [DecidableEq AccountId] [DexStableConfig AccountId CurrencyId]
  [LawfulWithdrawableCurrency Tokens]

private theorem run_swapExactTokensForTokens {blockNumber amountIn amountOutMin deadline : ℕ}
    {routes : List (Route CurrencyId)} {u : Unit}
    (h : (swapExactTokensForTokens blockNumber who amountIn amountOutMin routes to'
      deadline).run s = .ok u s') :
    Linked routes ∧ ∃ amountOut, amountOutMin ≤ amountOut ∧
      (swapRoutes who to' amountIn routes).run s = .ok amountOut s' := by
  simp only [swapExactTokensForTokens, Call.run_bind_eq_ok, Call.run_ensure_eq_ok] at h
  obtain ⟨-, _, ⟨-, rfl⟩, _, _, hvalid, amountOut, _, hswap, hmin, rfl⟩ := h
  obtain ⟨rfl, hlinked⟩ := run_validateRoutes hvalid
  exact ⟨hlinked, amountOut, hmin, hswap⟩

end

/-- No pool of the stable exchange signs a call, and its new pools have different currencies. -/
def Orderly (_ : SwapRouter AccountId CurrencyId Tokens)
    (x : RouterStep AccountId CurrencyId Tokens) : Prop :=
  match x.op with
  | .general _ => True
  | .stable origin op => (∀ who, origin = .signed who → DexStable.Outside CurrencyId who) ∧
    op.Distinct
  | .swapExactTokensForTokens who _ _ _ _ _ => DexStable.Outside CurrencyId who

section

omit [DecidableEq AccountId] [WithdrawableCurrency Tokens AccountId CurrencyId]
  [DexGeneralConfig AccountId CurrencyId] [LawfulWithdrawableCurrency Tokens]

private theorem Built.within (hs : s.Built) (tokens : Tokens) (now : ℕ) :
    (s.within tokens now).Built :=
  DexStable.Built.of_frames hs ⟨fun _ => rfl, rfl, rfl⟩

end

private theorem step_built {x : RouterStep AccountId CurrencyId Tokens} (hs : s.Built)
    (hx : s.Orderly x) : (s.step x).Built := by
  have hwithin := hs.within x.tokens x.now
  rcases (dispatch x.blockNumber x.op).commit_cases (s.within x.tokens x.now)
    with ⟨u, hrun⟩ | ⟨-, hsame⟩
  · change (dispatch x.blockNumber x.op).run _ = .ok u (s.step x) at hrun
    unfold Orderly at hx
    generalize s.step x = s' at hrun
    cases hop : x.op with
    | general op =>
      rw [hop] at hrun
      obtain ⟨g, -, rfl⟩ := run_onGeneral.mp hrun
      exact hwithin.of_frames (sameStable_of_stable rfl)
    | stable origin op =>
      rw [hop] at hrun hx
      obtain ⟨g, hg, rfl⟩ := run_onStable.mp hrun
      exact (DexStable.dispatch_upheld hwithin hx.1 hx.2 hg).built
    | swapExactTokensForTokens who amountIn amountOutMin routes to' deadline =>
      rw [hop] at hrun hx
      obtain ⟨-, amountOut, -, hswap⟩ := run_swapExactTokensForTokens hrun
      exact hwithin.of_frames (swapRoutes_sameStable hwithin hx hswap)
  · rw [step, hsame]
    exact hwithin

private theorem run_built {tokens : Tokens} {now : ℕ} {feeReceiver : Option AccountId}
    {feePoint : UInt8}
    {steps : List (RouterStep AccountId CurrencyId Tokens)}
    (h : Meets step Orderly (genesis tokens now feeReceiver feePoint) steps) :
    (run step (genesis tokens now feeReceiver feePoint) steps).Built :=
  run_invariant (fun _ _ => step_built) (DexStable.genesis_built tokens now) h

/-- In every state that a run of the exchanges and the router reaches, a call of the router takes
its amount of the input of the first route from the trader, and pays the recipient what comes out
of the last route, which is not less than the minimum. No other account but those of pools gets or
pays anything of any currency, whichever pools the routes go through and how often. -/
theorem routes_deliver {tokens : Tokens} {now : ℕ} {feeReceiver : Option AccountId}
    {feePoint : UInt8} {steps : List (RouterStep AccountId CurrencyId Tokens)}
    (hrun : Meets step Orderly (genesis tokens now feeReceiver feePoint) steps) (later : ℕ)
    (hs : s = (run step (genesis tokens now feeReceiver feePoint) steps).within t later)
    (hwho : DexStable.Outside CurrencyId who) {blockNumber amountIn amountOutMin deadline : ℕ}
    {routes : List (Route CurrencyId)} (hroutes : routes ≠ [])
    (hleave : ∀ route ∈ routes, s.LeavesBase route) {u : Unit}
    (h : (swapExactTokensForTokens blockNumber who amountIn amountOutMin routes to'
      deadline).run s = .ok u s') :
    ∃ c d amountOut, (routes.head?.bind Route.inputCurrency) = some c ∧
      (routes.getLast?.bind Route.outputCurrency) = some d ∧ amountOutMin ≤ amountOut ∧
      Conveys s.tokens s'.tokens who c amountIn to' d amountOut := by
  have hbuilt : s.Built := by
    rw [hs]
    exact (run_built hrun).within t later
  obtain ⟨hlinked, amountOut, hmin, hswap⟩ := run_swapExactTokensForTokens h
  cases routes with
  | nil => exact absurd rfl hroutes
  | cons route routes =>
    obtain ⟨c, d, hc, hd, hconveys⟩ := swapRoutes_conveys hbuilt hwho hlinked hleave hswap
    exact ⟨c, d, amountOut, hc, hd, hmin, hconveys⟩

namespace Sample

/-- Traders, the account of all bootstraps, and the accounts of the pools of both kinds. -/
abbrev Holder : Type := ℕ ⊕ Option (ℕ × ℕ) ⊕ ℕ

/-- The liquidity of the pairs of the first three currencies. -/
def liquidityToken (a b : ℕ) : Option ℕ :=
  if a < 3 ∧ b < 3 then some (10 + 3 * a + b) else none

private theorem liquidityToken_eq_some {a b lp : ℕ} (h : liquidityToken a b = some lp) :
    a < 3 ∧ b < 3 ∧ lp = 10 + 3 * a + b := by
  unfold liquidityToken at h
  split_ifs at h with hab
  exact ⟨hab.1, hab.2, (Option.some.inj h).symm⟩

instance : DexGeneralConfig Holder ℕ where
  bootstrapAccountId := .inr (.inl none)
  subAccount pair := .inr (.inl (some pair))
  subAccount_injective _ _ h := Option.some.inj (Sum.inl.inj (Sum.inr.inj h))
  subAccount_ne_bootstrap _ h := Option.some_ne_none _ (Sum.inl.inj (Sum.inr.inj h))
  validateAsset a := decide (a < 3)
  generateLpAssetId := liquidityToken
  validateAsset_of_generate a b lp h := by
    obtain ⟨ha, hb, rfl⟩ := liquidityToken_eq_some h
    exact ⟨decide_eq_true ha, decide_eq_true hb, decide_eq_false (by omega)⟩
  generateLpAssetId_injective a b c d lp h h' := by
    obtain ⟨ha, hb, rfl⟩ := liquidityToken_eq_some h
    obtain ⟨hc, hd, hlp⟩ := liquidityToken_eq_some h'
    exact ⟨by omega, by omega⟩
  maxBootstrapRewards := 10
  maxBootstrapLimits := 10

instance : DexStableConfig Holder ℕ where
  poolAccountId id := .inr (.inr id)
  poolAccountId_injective _ _ h := Sum.inr.inj (Sum.inr.inj h)
  generateByPoolId id := 100 + id
  validatePooledCurrency currencies := decide currencies.Nodup
  poolCurrencyLimit := 10
  poolCurrencySymbolLimit := 10

/-- Everybody, the pools too, has a balance of each of three currencies. -/
def ledger : TokenLedger Holder ℕ where
  accounts _ c := ⟨if c < 3 then 10 ^ 9 else 0, 0, 0⟩
  issuance c := if c < 3 then 10 ^ 12 else 0

/-- No pairs and no pools. -/
def start : SwapRouter Holder ℕ (TokenLedger Holder ℕ) := genesis ledger 0 none 0

/-- A stable pool of two currencies with some liquidity, and a pair of one of them with a third
currency. -/
def opened : List (RouterStep Holder ℕ (TokenLedger Holder ℕ)) :=
  [⟨ledger, 1000, 0, .stable .root (.createBasePool [0, 1] [18, 18] 10 0 0 (.inl 1) [])⟩,
    ⟨ledger, 1010, 0, .stable (.signed (.inl 0)) (.addLiquidity 0 [10 ^ 6, 10 ^ 6] 0 (.inl 0) 1)⟩,
    ⟨ledger, 1020, 0, .general (.createPair 2 0 30)⟩]

/-- From the third currency over the first one to the second one. -/
def overFirst : List (Route ℕ) :=
  [.general [2, 0], .stable ⟨0, 0, .single, 0, 1⟩]

/-- Ten seconds after the pools are opened. -/
def later : SwapRouter Holder ℕ (TokenLedger Holder ℕ) := (run step start opened).within ledger 1030

private theorem trader_outside (n : ℕ) : DexStable.Outside ℕ (.inl n : Holder) := fun _ =>
    Sum.inl_ne_inr

/-- Of a thousand units in, the recipient gets at least nine hundred. -/
theorem routes_deliver_overFirst :
    ∃ s' out, (swapExactTokensForTokens 0 (.inl 0) 1000 900 overFirst (.inl 5) 1).run later =
        .ok () s' ∧
      900 ≤ out ∧ Conveys later.tokens s'.tokens (.inl 0) 2 1000 (.inl 5) 1 out := by
  have hmeets : Meets step Orderly start opened := by
    refine ⟨⟨?_, (by decide : [0, 1].Nodup)⟩, ⟨?_, trivial⟩, trivial, trivial⟩
    · rintro who ⟨⟩
    · rintro who ⟨⟩
      exact trader_outside 0
  have hleave : ∀ route ∈ overFirst, later.LeavesBase route := by
    intro route hroute
    rcases List.mem_cons.mp hroute with rfl | hroute
    · trivial
    · obtain rfl := List.mem_singleton.mp hroute
      rintro ⟨⟩
  have hvalue : (swapExactTokensForTokens 0 (.inl 0) 1000 900 overFirst (.inl 5) 1).value? later =
      some () := by
    decide +kernel
  obtain ⟨s', h⟩ := Call.exists_of_value? hvalue
  obtain ⟨c, d, out, hc, hd, hmin, hconveys⟩ :=
    routes_deliver hmeets 1030 rfl (trader_outside 0) (List.cons_ne_nil _ _) hleave h
  cases hc
  cases hd
  exact ⟨s', out, h, hmin, hconveys⟩

end Sample

end Interbtc.SwapRouter
