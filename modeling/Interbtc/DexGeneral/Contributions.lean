import Interbtc.Core.GeometricShares
import Interbtc.Core.Sums
import Interbtc.DexGeneral.Structure
import Mathlib.Algebra.BigOperators.Pi

/-!
# Contributions and claims

What the contributors of a pair put in, what each of them can claim after the bootstrap, and the
phases that a pair goes through.
-/

namespace Interbtc

open Core MultiCurrency

/-! ## Outcomes -/

section Outcomes

variable {AccountId : Type} {params : BootstrapParameter AccountId} {now : ℕ}

/-- The liquidity that a successful bootstrap mints. -/
def BootstrapParameter.liquidity (params : BootstrapParameter AccountId) : ℕ :=
  Nat.sqrt (params.accumulatedSupply.1 * params.accumulatedSupply.2)

/-- A bootstrap that has not reached its targets. -/
def BootstrapParameter.Missed (params : BootstrapParameter AccountId) : Prop :=
  params.accumulatedSupply.1 < params.targetSupply.1 ∨
    params.accumulatedSupply.2 < params.targetSupply.2

instance : Decidable params.Missed := by
  unfold BootstrapParameter.Missed
  infer_instance

/-- A bootstrap is closed when its time is over and its target was missed. -/
theorem bootstrapDisable_eq_true :
    bootstrapDisable now params = true ↔ params.endBlockNumber < now ∧ params.Missed :=
  decide_eq_true_iff

end Outcomes

namespace DexGeneral

variable {AccountId AssetId Tokens : Type} [DecidableEq AccountId] [LinearOrder AssetId]
  [WithdrawableCurrency Tokens AccountId AssetId] [LawfulWithdrawableCurrency Tokens]
  [DexGeneralConfig AccountId AssetId]

/-! ## Claims -/

section Claims

variable {c A : ℕ × ℕ} {l x : ℕ}

/-- A contribution valued in both totals. -/
def weight (c A : ℕ × ℕ) : ℕ := c.1 * A.2 + c.2 * A.1

private theorem exactAmount_eq_some {amount other total otherTotal : ℕ} :
    exactAmount amount other total otherTotal = some x ↔
      amount * otherTotal ≤ maxU256 ∧ other * total ≤ maxU256 ∧
        amount * otherTotal + other * total ≤ maxU256 ∧ otherTotal * 2 ≤ maxU256 ∧
          otherTotal ≠ 0 ∧ (amount * otherTotal + other * total) / (otherTotal * 2) = x := by
  simp only [exactAmount, Option.bind_eq_bind, Option.bind_eq_some_iff, checkedMul_eq_some,
    checkedAdd_eq_some, checkedDiv_eq_some]
  constructor
  · rintro ⟨_, ⟨hown, rfl⟩, _, ⟨hcounter, rfl⟩, _, ⟨hboth, rfl⟩, _, ⟨htwice, rfl⟩, hne, rfl⟩
    exact ⟨hown, hcounter, hboth, htwice, by omega, rfl⟩
  · rintro ⟨hown, hcounter, hboth, htwice, hne, rfl⟩
    exact ⟨_, ⟨hown, rfl⟩, _, ⟨hcounter, rfl⟩, _, ⟨hboth, rfl⟩, _, ⟨htwice, rfl⟩, by omega, rfl⟩

private theorem claimLiquidity_eq_some (h : claimLiquidity c A = some l) :
    A.1 ≠ 0 ∧ A.2 ≠ 0 ∧ l = Nat.sqrt (weight c A / (A.2 * 2) * (weight c A / (A.1 * 2))) := by
  simp only [claimLiquidity, Option.bind_eq_bind, Option.bind_eq_some_iff, checkedMul_eq_some,
    tryInto_eq_some, exactAmount_eq_some] at h
  obtain ⟨_, ⟨-, -, -, -, h₁, rfl⟩, _, ⟨-, -, -, -, h₀, rfl⟩, _, ⟨-, rfl⟩, -, rfl⟩ := h
  rw [add_comm (c.2 * A.1)]
  exact ⟨h₀, h₁, rfl⟩

/-- A claim is at most the geometric mean of a contribution valued in either total. -/
theorem claimLiquidity_square_le (h : claimLiquidity c A = some l) :
    l * l * (4 * (A.1 * A.2)) ≤ weight c A * weight c A := by
  obtain ⟨-, -, rfl⟩ := claimLiquidity_eq_some h
  set e₀ := weight c A / (A.2 * 2)
  set e₁ := weight c A / (A.1 * 2)
  have h₀ : e₀ * (A.2 * 2) ≤ weight c A := Nat.div_mul_le_self _ _
  have h₁ : e₁ * (A.1 * 2) ≤ weight c A := Nat.div_mul_le_self _ _
  calc Nat.sqrt (e₀ * e₁) * Nat.sqrt (e₀ * e₁) * (4 * (A.1 * A.2))
      ≤ e₀ * e₁ * (4 * (A.1 * A.2)) := Nat.mul_le_mul_right _ (Nat.sqrt_le _)
    _ = e₀ * (A.2 * 2) * (e₁ * (A.1 * 2)) := by ring
    _ ≤ weight c A * weight c A := Nat.mul_le_mul h₀ h₁

/-- A claim can be computed where the contribution valued in both totals is in range. -/
theorem exists_claimLiquidity (hc : c ≤ A) (hA : A ≤ (maxBalance, maxBalance)) (h₀ : A.1 ≠ 0)
    (h₁ : A.2 ≠ 0) (hweight : weight c A ≤ maxU256) : ∃ l, claimLiquidity c A = some l := by
  have hown : c.1 * A.2 ≤ maxU256 := (Nat.mul_le_mul (hc.1.trans hA.1) hA.2).trans (by decide)
  have hcounter : c.2 * A.1 ≤ maxU256 := (Nat.mul_le_mul (hc.2.trans hA.2) hA.1).trans (by decide)
  have htwice₀ : A.1 * 2 ≤ maxU256 := (Nat.mul_le_mul_right _ hA.1).trans (by decide)
  have htwice₁ : A.2 * 2 ≤ maxU256 := (Nat.mul_le_mul_right _ hA.2).trans (by decide)
  have hexact₀ : weight c A / (A.2 * 2) ≤ A.1 := by
    refine Nat.div_le_of_le_mul ?_
    have := Nat.mul_le_mul_right A.2 hc.1
    have := Nat.mul_le_mul_right A.1 hc.2
    unfold weight
    nlinarith
  have hexact₁ : weight c A / (A.1 * 2) ≤ A.2 := by
    refine Nat.div_le_of_le_mul ?_
    have := Nat.mul_le_mul_right A.2 hc.1
    have := Nat.mul_le_mul_right A.1 hc.2
    unfold weight
    nlinarith
  have hproduct : weight c A / (A.2 * 2) * (weight c A / (A.1 * 2)) ≤ maxBalance * maxBalance :=
    Nat.mul_le_mul (hexact₀.trans hA.1) (hexact₁.trans hA.2)
  have hroot := (Nat.sqrt_le_sqrt hproduct).trans (Nat.sqrt_eq maxBalance).le
  have hcomm : c.2 * A.1 + c.1 * A.2 = weight c A := add_comm _ _
  refine ⟨Nat.sqrt (weight c A / (A.2 * 2) * (weight c A / (A.1 * 2))), ?_⟩
  simp only [claimLiquidity, Option.bind_eq_bind, Option.bind_eq_some_iff, checkedMul_eq_some,
    tryInto_eq_some, exactAmount_eq_some, hcomm]
  exact ⟨_, ⟨hown, hcounter, hweight, htwice₁, h₁, rfl⟩, _,
    ⟨hcounter, hown, hweight, htwice₀, h₀, rfl⟩, _, ⟨hproduct.trans (by decide), rfl⟩, hroot, rfl⟩

end Claims

/-! ## Phases -/

variable {s s' t : DexGeneral AccountId AssetId Tokens} {pair : AssetId × AssetId}
  {asset₀ asset₁ asset lp : AssetId} {who recipient : AccountId} {now n n' : ℕ} {u : Unit}
  {params : BootstrapParameter AccountId}

/-- Where a pair is between its creation and its trades. -/
inductive Phase (AccountId : Type)
  -- nothing was ever collected or traded
  | closed
  | collecting (params : BootstrapParameter AccountId)
  -- trades after a bootstrap that failed
  | failed (params : BootstrapParameter AccountId)
  | succeeded (params : BootstrapParameter AccountId)
  -- trades without a bootstrap
  | plain
  deriving DecidableEq

/-- The phase is read from the two statuses of a pair. -/
def phase (s : DexGeneral AccountId AssetId Tokens) (pair : AssetId × AssetId) :
    Phase AccountId :=
  match s.pairStatuses pair with
  | .disable => .closed
  | .bootstrap params => .collecting params
  | .trading _ =>
    match s.bootstrapEndStatus pair with
    | .bootstrap params => if params.Missed then .failed params else .succeeded params
    | _ => .plain

section

omit [DecidableEq AccountId] [WithdrawableCurrency Tokens AccountId AssetId]
  [LawfulWithdrawableCurrency Tokens] [DexGeneralConfig AccountId AssetId]

/-- Pairs that are disabled are closed. -/
theorem phase_eq_closed : phase s pair = .closed ↔ s.pairStatuses pair = .disable := by
  unfold phase
  cases s.pairStatuses pair with
  | trading =>
    cases s.bootstrapEndStatus pair with
    | bootstrap params =>
      simp only [reduceCtorEq, iff_false]
      split <;> exact fun h => (nomatch h)
    | trading | disable => simp only [reduceCtorEq]
  | bootstrap | disable => simp only [reduceCtorEq]

/-- Pairs in a bootstrap collect contributions. -/
theorem phase_eq_collecting :
    phase s pair = .collecting params ↔ s.pairStatuses pair = .bootstrap params := by
  unfold phase
  cases s.pairStatuses pair with
  | trading =>
    cases s.bootstrapEndStatus pair with
    | bootstrap params =>
      simp only [reduceCtorEq, iff_false]
      split <;> exact fun h => (nomatch h)
    | trading | disable => simp only [reduceCtorEq]
  | bootstrap q => simp only [Phase.collecting.injEq, PairStatus.bootstrap.injEq]
  | disable => simp only [reduceCtorEq]

/-- Pairs that trade without a bootstrap before are plain. -/
theorem phase_of_plain {p : PairMetadata AccountId} (hp : s.pairStatuses pair = .trading p)
    (hended : ∀ params, s.bootstrapEndStatus pair ≠ .bootstrap params) :
    phase s pair = .plain := by
  rw [phase, hp]
  cases hstatus : s.bootstrapEndStatus pair with
  | bootstrap params => exact absurd hstatus (hended params)
  | trading | disable => rfl

/-- Pairs that trade after a bootstrap that missed its target. -/
theorem phase_eq_failed : phase s pair = .failed params ↔
    (∃ p, s.pairStatuses pair = .trading p) ∧ s.bootstrapEndStatus pair = .bootstrap params ∧
      params.Missed := by
  unfold phase
  cases s.pairStatuses pair with
  | trading p =>
    cases s.bootstrapEndStatus pair with
    | bootstrap q =>
      by_cases hq : q.Missed
      · simp only [if_pos hq, Phase.failed.injEq, PairStatus.trading.injEq, exists_eq', true_and,
          PairStatus.bootstrap.injEq]
        exact ⟨fun h => ⟨h, h ▸ hq⟩, And.left⟩
      · simp only [if_neg hq, reduceCtorEq, PairStatus.trading.injEq, exists_eq', true_and,
          PairStatus.bootstrap.injEq, false_iff]
        rintro ⟨rfl, h⟩
        exact hq h
    | trading | disable => simp only [reduceCtorEq, false_and, and_false]
  | bootstrap | disable => simp only [reduceCtorEq, exists_false, false_and]

/-- Pairs that trade after a bootstrap that met its target. -/
theorem phase_eq_succeeded : phase s pair = .succeeded params ↔
    (∃ p, s.pairStatuses pair = .trading p) ∧ s.bootstrapEndStatus pair = .bootstrap params ∧
      ¬ params.Missed := by
  unfold phase
  cases s.pairStatuses pair with
  | trading p =>
    cases s.bootstrapEndStatus pair with
    | bootstrap q =>
      by_cases hq : q.Missed
      · simp only [if_pos hq, reduceCtorEq, PairStatus.trading.injEq, exists_eq', true_and,
          PairStatus.bootstrap.injEq, false_iff]
        rintro ⟨rfl, h⟩
        exact h hq
      · simp only [if_neg hq, Phase.succeeded.injEq, PairStatus.trading.injEq, exists_eq',
          true_and, PairStatus.bootstrap.injEq]
        exact ⟨fun h => ⟨h, h ▸ hq⟩, And.left⟩
    | trading | disable => simp only [reduceCtorEq, false_and, and_false]
  | bootstrap | disable => simp only [reduceCtorEq, exists_false, false_and]

/-- A pair that trades stays in its phase while it trades. -/
theorem phase_of_trades {p p' : PairMetadata AccountId} (hp : s.pairStatuses pair = .trading p)
    (hp' : s'.pairStatuses pair = .trading p')
    (hended : s'.bootstrapEndStatus pair = s.bootstrapEndStatus pair) :
    phase s' pair = phase s pair := by
  rw [phase, phase, hp, hp', hended]

/-- The phase depends on the two statuses only. -/
theorem phase_congr (hstatus : s'.pairStatuses pair = s.pairStatuses pair)
    (hended : s'.bootstrapEndStatus pair = s.bootstrapEndStatus pair) :
    phase s' pair = phase s pair := by
  rw [phase, phase, hstatus, hended]

end

/-! ## Sums over the contributors -/

section Sums

variable [Fintype AccountId]

/-- What the contributors of a pair have not taken back. -/
def contributions (s : DexGeneral AccountId AssetId Tokens) (pair : AssetId × AssetId) : ℕ × ℕ :=
  ∑ who, (s.bootstrapPersonalSupply pair who).getD (0, 0)

/-- The liquidity that one contribution is worth, or none. -/
def claim (contribution : Option (ℕ × ℕ)) (params : BootstrapParameter AccountId) : ℕ :=
  (contribution.bind fun c => claimLiquidity c params.accumulatedSupply).getD 0

/-- The liquidity that the contributors of a pair can claim. -/
def claimable (s : DexGeneral AccountId AssetId Tokens) (pair : AssetId × AssetId)
    (params : BootstrapParameter AccountId) : ℕ :=
  ∑ who, claim (s.bootstrapPersonalSupply pair who) params

section

omit [WithdrawableCurrency Tokens AccountId AssetId] [LawfulWithdrawableCurrency Tokens]
  [DexGeneralConfig AccountId AssetId]

/-- What one contributor writes changes the sum of the contributions. -/
theorem contributions_update {supply : Option (ℕ × ℕ)}
    (h : s'.bootstrapPersonalSupply pair =
      Function.update (s.bootstrapPersonalSupply pair) who supply) :
    contributions s' pair + (s.bootstrapPersonalSupply pair who).getD (0, 0) =
      contributions s pair + supply.getD (0, 0) := by
  unfold contributions
  rw [h]
  exact sum_update_add (fun _ supply => supply.getD (0, 0)) (s.bootstrapPersonalSupply pair) who
    supply

/-- A contribution changes what can be claimed by its own claim. -/
theorem claimable_update {supply : Option (ℕ × ℕ)}
    (h : s'.bootstrapPersonalSupply pair =
      Function.update (s.bootstrapPersonalSupply pair) who supply) :
    claimable s' pair params + claim (s.bootstrapPersonalSupply pair who) params =
      claimable s pair params + claim supply params := by
  unfold claimable
  rw [h]
  exact sum_update_add (fun _ supply => claim supply params) (s.bootstrapPersonalSupply pair) who
    supply

end

omit [DecidableEq AccountId] [WithdrawableCurrency Tokens AccountId AssetId]
  [LawfulWithdrawableCurrency Tokens] [DexGeneralConfig AccountId AssetId] in
/-- All claims together are at most what the bootstrap mints. -/
theorem claimable_le (h : contributions s pair = params.accumulatedSupply)
    (hpos : 0 < params.liquidity) : claimable s pair params ≤ params.liquidity := by
  have hproduct : 0 < params.accumulatedSupply.1 * params.accumulatedSupply.2 := by
    rw [BootstrapParameter.liquidity, Nat.sqrt_pos] at hpos
    exact hpos
  have h₀ : ∑ who, ((s.bootstrapPersonalSupply pair who).getD (0, 0)).1 =
      params.accumulatedSupply.1 := by
    rw [← h, contributions, Prod.fst_sum]
  have h₁ : ∑ who, ((s.bootstrapPersonalSupply pair who).getD (0, 0)).2 =
      params.accumulatedSupply.2 := by
    rw [← h, contributions, Prod.snd_sum]
  unfold claimable BootstrapParameter.liquidity
  rw [← h₀, ← h₁] at hproduct ⊢
  refine sum_le_sqrt Finset.univ (fun who _ => ?_) hproduct
  rw [h₀, h₁, claim]
  cases s.bootstrapPersonalSupply pair who with
  | none => simp only [Option.bind_none, Option.getD_none, zero_mul, Nat.zero_le]
  | some c =>
    rw [Option.bind_some, Option.getD_some]
    cases hl : claimLiquidity c params.accumulatedSupply with
    | none => simp only [Option.getD_none, zero_mul, Nat.zero_le]
    | some l => exact claimLiquidity_square_le hl

end Sums

end DexGeneral

end Interbtc
