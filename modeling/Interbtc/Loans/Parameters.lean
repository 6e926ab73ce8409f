import Interbtc.Loans.Dispatch

/-!
# The parameters of the markets

A market is added only when its parameters pass the checks. Every later change checks them
again, but an update reads the stored reserved factor of the liquidations in place of the new
one.
-/

namespace Interbtc

open Core MultiCurrency

/-- The checks that every change makes of the parameters it stores. -/
structure Market.Checked {CurrencyId : Type} (market : Market CurrencyId) : Prop where
  collateral_le : market.collateralFactor.parts ≤ market.liquidationThreshold.parts
  liquidation_lt : market.liquidationThreshold.parts < Permill.ACCURACY
  reserve_pos : 0 < market.reserveFactor.parts
  reserve_lt : market.reserveFactor.parts < Permill.ACCURACY
  supplyCap_pos : 0 < market.supplyCap

/-- All that is checked of a market when it is added. -/
structure Market.Valid {CurrencyId : Type} (market : Market CurrencyId) : Prop
    extends market.Checked where
  reserved_lt : market.liquidateIncentiveReservedFactor.parts < Permill.ACCURACY
  rateModel : market.rateModel.checkModel = true

namespace Loans

variable {AccountId CurrencyId H256 Tokens : Type} [DecidableEq AccountId]
  [DecidableEq CurrencyId] [MultiCurrency Tokens AccountId CurrencyId]
  [CurrencyConfig CurrencyId] [LoansConfig AccountId CurrencyId]
  {s s' : Loans AccountId CurrencyId Tokens}

/-- The markets are valid, and each lend token is that of one market. -/
structure Parametrized (s : Loans AccountId CurrencyId Tokens) : Prop where
  valid : ∀ a market, s.markets a = some market → market.Valid
  lendToken : ∀ c a, s.underlyingAssetId c = some a ↔
    ∃ market, s.markets a = some market ∧ market.lendTokenId = c

/-! ## Checks -/

section

omit [DecidableEq AccountId] [DecidableEq CurrencyId] [MultiCurrency Tokens AccountId CurrencyId]
  [CurrencyConfig CurrencyId] [LoansConfig AccountId CurrencyId]

private theorem run_ensureFactors {market : Market CurrencyId} {reservedFactor : Ratio} {u : Unit} :
    (ensureFactors market.collateralFactor market.liquidationThreshold market.reserveFactor
      reservedFactor market.supplyCap).run s = .ok u s' ↔
      (market.Checked ∧ reservedFactor.parts < Permill.ACCURACY) ∧ s = s' := by
  simp only [ensureFactors, Call.run_bind_eq_ok, Call.run_ensure_eq_ok]
  constructor
  · rintro ⟨-, _, ⟨-, rfl⟩, -, _, ⟨⟨hlt, hle⟩, rfl⟩, -, _, ⟨⟨hpos, hreserve⟩, rfl⟩, -, _,
      ⟨hreserved, rfl⟩, hcap, rfl⟩
    exact ⟨⟨⟨hle, hlt, hpos, hreserve, hcap⟩, hreserved⟩, rfl⟩
  · rintro ⟨⟨h, hreserved⟩, rfl⟩
    exact ⟨(), s, ⟨h.collateral_le.trans_lt h.liquidation_lt, rfl⟩, (), s,
      ⟨⟨h.liquidation_lt, h.collateral_le⟩, rfl⟩, (), s, ⟨⟨h.reserve_pos, h.reserve_lt⟩, rfl⟩,
      (), s, ⟨hreserved, rfl⟩, h.supplyCap_pos, rfl⟩

private theorem run_ensureLendToken {c : CurrencyId} {u : Unit} :
    (ensureLendToken c).run s = .ok u s' ↔
      (s.underlyingAssetId c = none ∧ s.markets c = none) ∧ s = s' := by
  simp only [ensureLendToken, Call.run_bind_eq_ok, Call.run_get_eq_ok, Call.run_ensure_eq_ok]
  constructor
  · rintro ⟨_, _, ⟨rfl, rfl⟩, -, _, ⟨hlend, rfl⟩, hmarket, rfl⟩
    exact ⟨⟨hlend, hmarket⟩, rfl⟩
  · rintro ⟨⟨hlend, hmarket⟩, rfl⟩
    exact ⟨s, s, ⟨rfl, rfl⟩, (), s, ⟨hlend, rfl⟩, hmarket, rfl⟩

private theorem market_eq_ok {a : CurrencyId} {market : Market CurrencyId} :
    s.market a = .ok market ↔ s.markets a = some market := okOr_eq_ok

end

section

omit [DecidableEq AccountId] [MultiCurrency Tokens AccountId CurrencyId] [CurrencyConfig CurrencyId]
  [LoansConfig AccountId CurrencyId]

private theorem run_mutateMarket {a : CurrencyId}
    {cb : Market CurrencyId → Except DispatchError (Market CurrencyId)} {u : Unit} :
    (mutateMarket a cb).run s = .ok u s' ↔
      ∃ market changed, s.markets a = some market ∧ cb market = .ok changed ∧
        s' = { s with markets := Function.update s.markets a (some changed) } := by
  simp only [mutateMarket, Call.run_bind_eq_ok, Call.run_reads_eq_ok, Call.run_ofExcept_eq_ok,
    Call.run_modify_eq_ok, market_eq_ok]
  constructor
  · rintro ⟨market, _, ⟨hmarket, rfl⟩, changed, _, ⟨hchanged, rfl⟩, h⟩
    exact ⟨market, changed, hmarket, hchanged, h.symm⟩
  · rintro ⟨market, changed, hmarket, hchanged, rfl⟩
    exact ⟨market, s, ⟨hmarket, rfl⟩, changed, s, ⟨hchanged, rfl⟩, rfl⟩

end

/-! ## Calls -/

namespace Parametrized

section

omit [DecidableEq AccountId] [DecidableEq CurrencyId] [CurrencyConfig CurrencyId]
  [LoansConfig AccountId CurrencyId]

private theorem genesis (tokens : Tokens) (maxRate minRate : Rate) :
    Parametrized (genesis tokens maxRate minRate : Loans AccountId CurrencyId Tokens) where
  valid a market h := by cases h
  lendToken c a := by
    constructor
    · intro h
      cases h
    · rintro ⟨market, h, -⟩
      cases h

end

section

omit [DecidableEq AccountId] [MultiCurrency Tokens AccountId CurrencyId] [CurrencyConfig CurrencyId]
  [LoansConfig AccountId CurrencyId]

private theorem addMarket {a : CurrencyId} {market : Market CurrencyId} {u : Unit}
    (hs : Parametrized s) (h : (addMarket a market).run s = .ok u s') : Parametrized s' := by
  simp only [Loans.addMarket, Call.run_bind_eq_ok, Call.run_get_eq_ok, Call.run_ensure_eq_ok,
    run_ensureFactors, run_ensureLendToken, Call.run_modify_eq_ok] at h
  obtain ⟨_, _, ⟨rfl, rfl⟩, -, _, ⟨hnew, rfl⟩, -, _, ⟨-, rfl⟩, -, _, ⟨hmodel, rfl⟩, -, _,
    ⟨⟨hchecked, hreserved⟩, rfl⟩, -, _, ⟨⟨hlend, -⟩, rfl⟩, rfl⟩ := h
  constructor
  · intro b m hm
    change Function.update s.markets a (some market) b = some m at hm
    rcases eq_or_ne b a with rfl | hb
    · rw [Function.update_self] at hm
      obtain rfl := Option.some.inj hm
      exact ⟨hchecked, hreserved, hmodel⟩
    · rw [Function.update_of_ne hb] at hm
      exact hs.valid b m hm
  · intro c b
    change Function.update s.underlyingAssetId market.lendTokenId (some a) c = some b ↔
      ∃ m, Function.update s.markets a (some market) b = some m ∧ m.lendTokenId = c
    rcases eq_or_ne c market.lendTokenId with rfl | hc
    · rw [Function.update_self]
      constructor
      · intro h
        obtain rfl := Option.some.inj h
        exact ⟨market, Function.update_self _ _ _, rfl⟩
      · rintro ⟨m, hm, hsame⟩
        rcases eq_or_ne b a with rfl | hb
        · rfl
        · rw [Function.update_of_ne hb] at hm
          rw [(hs.lendToken _ b).mpr ⟨m, hm, hsame⟩] at hlend
          cases hlend
    · rw [Function.update_of_ne hc, hs.lendToken]
      rcases eq_or_ne b a with rfl | hb
      · simp only [Function.update_self, Option.some.injEq, hnew, reduceCtorEq, false_and,
          exists_false, false_iff]
        rintro ⟨m, rfl, hsame⟩
        exact hc hsame.symm
      · rw [Function.update_of_ne hb]

/-- A change of a market that keeps its lend token is sound where the new market is valid. -/
theorem set_iff {a : CurrencyId} {market m : Market CurrencyId} (hs : Parametrized s)
    (hmarket : s.markets a = some market) (hsame : m.lendTokenId = market.lendTokenId) :
    Parametrized { s with markets := Function.update s.markets a (some m) } ↔ m.Valid := by
  constructor
  · intro h
    exact h.valid a m (Function.update_self _ _ _)
  · intro hvalid
    constructor
    · intro b stored hstored
      change Function.update s.markets a (some m) b = some stored at hstored
      rcases eq_or_ne b a with rfl | hb
      · rw [Function.update_self] at hstored
        obtain rfl := Option.some.inj hstored
        exact hvalid
      · rw [Function.update_of_ne hb] at hstored
        exact hs.valid b stored hstored
    · intro c b
      change s.underlyingAssetId c = some b ↔
        ∃ m', Function.update s.markets a (some m) b = some m' ∧ m'.lendTokenId = c
      rw [hs.lendToken]
      rcases eq_or_ne b a with rfl | hb
      · simp only [Function.update_self, Option.some.injEq, exists_eq_left', hmarket, hsame]
      · rw [Function.update_of_ne hb]

private theorem activateMarket {a : CurrencyId} {u : Unit} (hs : Parametrized s)
    (h : (activateMarket a).run s = .ok u s') : Parametrized s' := by
  obtain ⟨market, changed, hmarket, hchanged, rfl⟩ := run_mutateMarket.mp h
  simp only [except_ite_eq_ok, reduceCtorEq, and_false, false_or, Except.ok.injEq] at hchanged
  obtain ⟨-, rfl⟩ := hchanged
  have hvalid := hs.valid a market hmarket
  exact (hs.set_iff hmarket (m := { market with state := .active }) rfl).mpr
    ⟨⟨hvalid.collateral_le, hvalid.liquidation_lt, hvalid.reserve_pos, hvalid.reserve_lt,
      hvalid.supplyCap_pos⟩, hvalid.reserved_lt, hvalid.rateModel⟩

private theorem updateRateModel {a : CurrencyId} {rateModel : InterestRateModel} {u : Unit}
    (hs : Parametrized s) (h : (updateRateModel a rateModel).run s = .ok u s') :
    Parametrized s' := by
  simp only [Loans.updateRateModel, Call.run_bind_eq_ok, Call.run_ensure_eq_ok,
    run_mutateMarket, Except.ok.injEq] at h
  obtain ⟨-, _, ⟨hmodel, rfl⟩, market, _, hmarket, rfl, rfl⟩ := h
  have hvalid := hs.valid a market hmarket
  exact (hs.set_iff hmarket (m := { market with rateModel := rateModel }) rfl).mpr
    ⟨⟨hvalid.collateral_le, hvalid.liquidation_lt, hvalid.reserve_pos, hvalid.reserve_lt,
      hvalid.supplyCap_pos⟩, hvalid.reserved_lt, hmodel⟩

/-- The update of a market is sound if and only if its new reserved factor is below the
whole. -/
theorem updateMarket_iff {a : CurrencyId} {update : MarketUpdate} {u : Unit}
    (hs : Parametrized s) (h : (updateMarket a update).run s = .ok u s') :
    Parametrized s' ↔ ∀ market, s.markets a = some market → (update.apply market).Checked →
      (update.apply market).liquidateIncentiveReservedFactor.parts < Permill.ACCURACY := by
  simp only [Loans.updateMarket, Call.run_bind_eq_ok, Call.run_reads_eq_ok, market_eq_ok,
    run_ensureFactors, run_mutateMarket, Except.ok.injEq] at h
  obtain ⟨market, _, ⟨hmarket, rfl⟩, -, _, ⟨⟨hchecked, -⟩, rfl⟩, m, _, hm, rfl, rfl⟩ := h
  obtain rfl : market = m := Option.some.inj (hmarket.symm.trans hm)
  rw [hs.set_iff hmarket (m := update.apply market) rfl]
  constructor
  · intro hvalid m hm _
    obtain rfl : market = m := Option.some.inj (hmarket.symm.trans hm)
    exact hvalid.reserved_lt
  · intro hreserved
    exact ⟨hchecked, hreserved market hmarket hchecked, (hs.valid a market hmarket).rateModel⟩

end

end Parametrized

/-! ## Runs -/

/-- The calls that add a market and change its parameters step by step. -/
def Op.SetsParameters : Op AccountId CurrencyId → Bool
  | .addMarket _ _ | .activateMarket _ | .updateRateModel _ _ | .updateMarket _ _ => true
  | _ => false

/-- An update that passes the other checks leaves the reserved factor below the whole. -/
def ReservesBelowWhole (s : Loans AccountId CurrencyId Tokens) :
    Dispatch AccountId CurrencyId H256 → Prop
  | (_, .updateMarket a update) => ∀ market, s.markets a = some market →
      (update.apply market).Checked →
      (update.apply market).liquidateIncentiveReservedFactor.parts < Permill.ACCURACY
  | _ => True

private theorem step_parametrized {d : Dispatch AccountId CurrencyId H256}
    (hd : d.2.SetsParameters = true) (hs : Parametrized s) (hcond : ReservesBelowWhole s d) :
    Parametrized (step s d) := by
  obtain ⟨u, hrun⟩ | ⟨-, hsame⟩ := Call.commit_cases (dispatch d.1 d.2) s
  · rcases d with ⟨env, op⟩
    cases op with
    | addMarket a market => exact hs.addMarket hrun
    | activateMarket a => exact hs.activateMarket hrun
    | updateRateModel a rateModel => exact hs.updateRateModel hrun
    | updateMarket a update => exact (hs.updateMarket_iff hrun).mpr hcond
    | _ => cases hd
  · rw [step, hsame]
    exact hs

/-- In a run of the calls that set parameters, where no update stores a reserved factor of the
whole, every market is valid and each lend token belongs to exactly one market. -/
theorem run_parametrized (tokens : Tokens) (maxRate minRate : Rate)
    (ops : List (Dispatch AccountId CurrencyId H256))
    (hops : ∀ d ∈ ops, d.2.SetsParameters = true)
    (h : Meets step ReservesBelowWhole (genesis tokens maxRate minRate) ops) :
    Parametrized (run step (genesis tokens maxRate minRate :
      Loans AccountId CurrencyId Tokens) ops) := by
  have hstep : ∀ (s : Loans AccountId CurrencyId Tokens) (d : Dispatch AccountId CurrencyId H256),
      Parametrized s → d.2.SetsParameters = true ∧ ReservesBelowWhole s d →
      Parametrized (step s d) :=
    fun _ _ hs hd => step_parametrized hd.1 hs hd.2
  exact run_invariant hstep (.genesis tokens maxRate minRate) (h.and_of_forall hops)

namespace Sample

/-- An update of nothing but the reserved factor. -/
def reserving (reservedFactor : Ratio) : MarketUpdate where
  collateralFactor := none
  liquidationThreshold := none
  reserveFactor := none
  closeFactor := none
  liquidateIncentiveReservedFactor := some reservedFactor
  liquidateIncentive := none
  supplyCap := none
  borrowCap := none

/-- A market whose reserve factor is updated. -/
def reserved (reservedFactor : Ratio) : Run :=
  listing ++ [(envAt 1000, .updateMarket .dot (reserving reservedFactor))]

end Sample

/-- A reserved factor of five percent. -/
theorem run_parametrized_reserved :
    Parametrized (run step (Sample.start 0) (Sample.reserved (Sample.percent 5))) := by
  have hreserved : (Sample.percent 5).parts < Permill.ACCURACY := by decide
  exact run_parametrized _ _ _ _ (by decide)
    ⟨trivial, trivial, trivial, trivial, fun _ _ _ => hreserved, trivial⟩

/-- An update can reserve the whole of the liquidations. -/
theorem reserved_whole_invalid :
    (∀ d ∈ Sample.reserved .one, d.2.SetsParameters = true) ∧
    ¬ Parametrized (run step (Sample.start 0) (Sample.reserved .one)) := by
  refine ⟨by decide, fun h => ?_⟩
  have hmarket : (run step (Sample.start 0) (Sample.reserved .one)).markets .dot =
      some { Sample.market .lendDot with
        state := .active
        liquidateIncentiveReservedFactor := .one } := by decide +kernel
  exact absurd (h.valid _ _ hmarket).reserved_lt (by decide)

end Loans

end Interbtc
