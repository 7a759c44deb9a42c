import LpTerminal.Executor.Capital
import LpTerminal.Executor.Rebalance
import Mathlib.Tactic.Ring

/-!
The harvest of a strategy: the portfolio is valued in the quote token at the pool price, its cap is the
strategy's baseline, and what is deployed afterwards is worth at most the cap.
-/

namespace LpTerminal.Capital

open Fallible

inductive HarvestError
  | poolIdentity | capitalBaseline | division | route | code (code : ErrorCode)

structure PoolSnapshot where
  token0 : Address
  token1 : Address
  sqrtPriceX96 : ℤ

structure CapitalConfig where
  quoteToken : Address
  riskToken : Address
  settlementToken : Address
  protectionEnabled : Bool
  thresholdUsdg : ℤ

structure StrategyBaseline where
  quoteToken : Address
  valueQuote : ℤ

def q192 : ℤ := 2 ^ 192

def divide (dividend divisor : ℤ) : Except HarvestError ℤ := do
  demand (divisor ≠ 0) .division
  return dividend.tdiv divisor

def PoolSnapshot.has (pool : PoolSnapshot) (token : Address) : Prop :=
  token = pool.token0 ∨ token = pool.token1

instance {pool : PoolSnapshot} {token : Address} : Decidable (pool.has token) :=
  inferInstanceAs (Decidable (_ ∨ _))

def convertPoolAmount (pool : PoolSnapshot) (amount : ℤ) (tokenIn tokenOut : Address) : Except HarvestError ℤ := do
  demand (¬(tokenIn = pool.token0 ↔ tokenOut = pool.token0) ∧ pool.has tokenIn ∧ pool.has tokenOut) .poolIdentity
  let squared := pool.sqrtPriceX96 * pool.sqrtPriceX96
  if tokenIn = pool.token0 then divide (amount * squared) q192 else divide (amount * q192) squared

def quoteTurnover (config : CapitalConfig) (pool : PoolSnapshot) (amount : ℤ) (token : Address) : Except HarvestError ℤ := do
  if token = config.quoteToken then return amount
  demand (token = config.riskToken) .poolIdentity
  convertPoolAmount pool amount token config.quoteToken

def setStrategyBaselineIfAbsent (stored : Option StrategyBaseline) (baseline : StrategyBaseline) : Option StrategyBaseline :=
  stored.or (some baseline)

def replaceStrategyBaselineQuote (stored : Option StrategyBaseline) (baseline : StrategyBaseline) : Option StrategyBaseline :=
  stored.map fun previous => if previous.quoteToken = baseline.quoteToken then previous else baseline

def ensuredBaseline (config : CapitalConfig) (activeValueQuote : ℤ) (stored : Option StrategyBaseline) : Option StrategyBaseline :=
  replaceStrategyBaselineQuote (setStrategyBaselineIfAbsent stored ⟨config.quoteToken, activeValueQuote⟩)
    ⟨config.quoteToken, activeValueQuote⟩

def excessInUsdg (config : CapitalConfig) (route : ℤ → Except HarvestError ℤ) (excessValueQuote : ℤ) : Except HarvestError ℤ :=
  if 0 < excessValueQuote then
    if config.quoteToken = config.settlementToken then .ok excessValueQuote else route excessValueQuote
  else .ok 0

def strategyCapitalHarvest (config : CapitalConfig) (pool : PoolSnapshot) (route : ℤ → Except HarvestError ℤ)
    (stored : Option StrategyBaseline) (amount0 amount1 : ℤ) : Except HarvestError CapitalHarvestPlan := do
  let value0 ← quoteTurnover config pool amount0 pool.token0
  let value1 ← quoteTurnover config pool amount1 pool.token1
  let activeValueQuote := value0 + value1
  if config.protectionEnabled = false then
    (planCapitalHarvest amount0 amount1 ⟨activeValueQuote, activeValueQuote, 0, config.thresholdUsdg⟩).mapError .code
  else
    match ensuredBaseline config activeValueQuote stored with
    | none => .error .capitalBaseline
    | some baseline => do
      demand (baseline.quoteToken = config.quoteToken) .capitalBaseline
      let excessValueQuote := if activeValueQuote > baseline.valueQuote then activeValueQuote - baseline.valueQuote else 0
      let excessValueUsdg ← excessInUsdg config route excessValueQuote
      (planCapitalHarvest amount0 amount1 ⟨activeValueQuote, baseline.valueQuote, excessValueUsdg, config.thresholdUsdg⟩).mapError .code

structure Rate where
  numerator : ℤ
  denominator : ℤ
  nonneg : 0 ≤ numerator
  positive : 0 < denominator

def Rate.value (rate : Rate) (amount : ℤ) : ℤ :=
  (amount * rate.numerator).tdiv rate.denominator

def Rate.one : Rate := ⟨1, 1, by decide, by decide⟩

@[simp] theorem Rate.value_one (amount : ℤ) : Rate.one.value amount = amount := by
  unfold Rate.value Rate.one
  rw [mul_one, Int.tdiv_one]

theorem Rate.value_bounds (rate : Rate) {amount : ℤ} (nonneg : 0 ≤ amount) :
    rate.value amount * rate.denominator ≤ amount * rate.numerator ∧
      amount * rate.numerator < (rate.value amount + 1) * rate.denominator := by
  unfold Rate.value
  rw [Int.tdiv_eq_ediv_of_nonneg (mul_nonneg nonneg rate.nonneg)]
  exact ⟨Int.ediv_mul_le _ rate.positive.ne', Int.lt_ediv_add_one_mul_self _ rate.positive⟩

section

variable {config : CapitalConfig} {pool : PoolSnapshot} {amount0 amount1 value0 value1 : ℤ} {token : Address}

theorem convertPoolAmount_rate {amount value : ℤ} {tokenIn tokenOut : Address}
    (converted : convertPoolAmount pool amount tokenIn tokenOut = .ok value) :
    pool.has tokenOut ∧ ∃ rate : Rate, ∀ other, convertPoolAmount pool other tokenIn tokenOut = .ok (rate.value other) := by
  unfold convertPoolAmount at converted
  obtain ⟨_, identity, converted⟩ := bind_ok converted
  have known := demand_ok.mp identity
  refine ⟨known.2.2, ?_⟩
  dsimp only at converted
  split at converted
  · rename_i first
    refine ⟨⟨pool.sqrtPriceX96 * pool.sqrtPriceX96, q192, mul_self_nonneg _, by decide⟩, fun other => ?_⟩
    unfold convertPoolAmount
    rw [demand_bind known]
    dsimp only
    rw [if_pos first]
    exact demand_bind (by decide)
  · rename_i second
    unfold divide at converted
    obtain ⟨_, divisor, converted⟩ := bind_ok converted
    have price := demand_ok.mp divisor
    refine ⟨⟨q192, pool.sqrtPriceX96 * pool.sqrtPriceX96, by decide, lt_of_le_of_ne (mul_self_nonneg _) price.symm⟩, fun other => ?_⟩
    unfold convertPoolAmount
    rw [demand_bind known]
    dsimp only
    rw [if_neg second]
    exact demand_bind price

theorem quoteTurnover_quote (amount : ℤ) : quoteTurnover config pool amount config.quoteToken = .ok amount :=
  if_pos rfl

theorem quoteTurnover_rate {amount value : ℤ} (valued : quoteTurnover config pool amount token = .ok value) :
    ∃ rate : Rate, (∀ other, quoteTurnover config pool other token = .ok (rate.value other)) ∧
      (token = config.quoteToken ∧ rate = Rate.one ∨ token ≠ config.quoteToken ∧ pool.has config.quoteToken) := by
  by_cases same : token = config.quoteToken
  · subst same
    refine ⟨Rate.one, fun other => ?_, Or.inl ⟨rfl, rfl⟩⟩
    rw [quoteTurnover_quote, Rate.value_one]
  · unfold quoteTurnover at valued
    rw [if_neg same] at valued
    obtain ⟨_, risk, converted⟩ := bind_ok valued
    obtain ⟨has, rate, each⟩ := convertPoolAmount_rate converted
    refine ⟨rate, fun other => ?_, Or.inr ⟨same, has⟩⟩
    unfold quoteTurnover
    rw [if_neg same, demand_bind (demand_ok.mp risk)]
    exact each other

theorem quoteTurnover_legs (valued0 : quoteTurnover config pool amount0 pool.token0 = .ok value0)
    (valued1 : quoteTurnover config pool amount1 pool.token1 = .ok value1) :
    ∃ rate0 rate1 : Rate, (rate0 = Rate.one ∨ rate1 = Rate.one) ∧
      (∀ other, quoteTurnover config pool other pool.token0 = .ok (rate0.value other)) ∧
      ∀ other, quoteTurnover config pool other pool.token1 = .ok (rate1.value other) := by
  obtain ⟨rate0, each0, quote0⟩ := quoteTurnover_rate valued0
  obtain ⟨rate1, each1, quote1⟩ := quoteTurnover_rate valued1
  refine ⟨rate0, rate1, ?_, each0, each1⟩
  rcases quote0 with ⟨_, one⟩ | ⟨other0, has⟩
  · exact Or.inl one
  · rcases quote1 with ⟨_, one⟩ | ⟨other1, _⟩
    · exact Or.inr one
    · rcases has with first | second
      · exact absurd first.symm other0
      · exact absurd second.symm other1

end

section

variable {amount exact rounded capital active : ℤ} {rate : Rate}

theorem scaled_bounds (nonneg : 0 ≤ amount) (positive : 0 < capital) (excess : capital < active) :
    0 ≤ (amount * capital).tdiv active ∧ (amount * capital).tdiv active ≤ amount ∧
      (amount * capital).tdiv active * active ≤ amount * capital := by
  have product : 0 ≤ amount * capital := mul_nonneg nonneg positive.le
  rw [Int.tdiv_eq_ediv_of_nonneg product]
  refine ⟨Int.ediv_nonneg product (by omega), ?_, Int.ediv_mul_le _ (by omega)⟩
  apply Int.lt_add_one_iff.mp
  rw [Int.ediv_lt_iff_lt_mul (by omega), add_mul, one_mul]
  have part : amount * capital ≤ amount * active := mul_le_mul_of_nonneg_left excess.le nonneg
  omega

theorem scaled_within (exact_nonneg : 0 ≤ exact) (rounded_nonneg : 0 ≤ rounded) (total : exact + rate.value rounded = active)
    (positive : 0 < capital) (excess : capital < active) :
    (exact * capital).tdiv active + rate.value ((rounded * capital).tdiv active) ≤ capital := by
  obtain ⟨_, _, exactPart⟩ := scaled_bounds exact_nonneg positive excess
  obtain ⟨partNonneg, _, roundedPart⟩ := scaled_bounds rounded_nonneg positive excess
  have whole := (rate.value_bounds rounded_nonneg).2
  have part := (rate.value_bounds partNonneg).1
  generalize (exact * capital).tdiv active = deployed at *
  generalize (rounded * capital).tdiv active = scaled at *
  have active_pos : 0 < active := by omega
  have value : rate.value scaled * active < capital * (rate.value rounded + 1) := by
    apply lt_of_mul_lt_mul_right _ rate.positive.le
    calc rate.value scaled * active * rate.denominator
        = rate.value scaled * rate.denominator * active := by ring
      _ ≤ scaled * rate.numerator * active := mul_le_mul_of_nonneg_right part active_pos.le
      _ = scaled * active * rate.numerator := by ring
      _ ≤ rounded * capital * rate.numerator := mul_le_mul_of_nonneg_right roundedPart rate.nonneg
      _ = capital * (rounded * rate.numerator) := by ring
      _ < capital * ((rate.value rounded + 1) * rate.denominator) := mul_lt_mul_of_pos_left whole positive
      _ = capital * (rate.value rounded + 1) * rate.denominator := by ring
  apply Int.lt_add_one_iff.mp
  apply lt_of_mul_lt_mul_right _ active_pos.le
  calc (deployed + rate.value scaled) * active
      = deployed * active + rate.value scaled * active := by ring
    _ < exact * capital + capital * (rate.value rounded + 1) := add_lt_add_of_le_of_lt exactPart value
    _ = capital * active + capital := by rw [← total]; ring
    _ < (capital + 1) * active := by
      rw [add_mul, one_mul]
      omega

end

/-- The amounts are split; a harvest deploys both legs, worth at most the cap, and else all is deployed. -/
structure HarvestWithin (config : CapitalConfig) (pool : PoolSnapshot) (amount0 amount1 capitalCapQuote : ℤ) (plan : CapitalHarvestPlan) : Prop where
  split0 : plan.deploy0 + plan.profit0 = amount0
  split1 : plan.deploy1 + plan.profit1 = amount1
  nonneg : 0 ≤ plan.deploy0 ∧ 0 ≤ plan.profit0 ∧ 0 ≤ plan.deploy1 ∧ 0 ≤ plan.profit1
  harvested : plan.triggered = true → 0 < plan.deploy0 ∧ 0 < plan.deploy1 ∧
    ∃ value0 value1, quoteTurnover config pool plan.deploy0 pool.token0 = .ok value0 ∧
      quoteTurnover config pool plan.deploy1 pool.token1 = .ok value1 ∧ value0 + value1 ≤ capitalCapQuote
  postponed : plan.triggered = false → plan.deploy0 = amount0 ∧ plan.deploy1 = amount1

section

variable {config : CapitalConfig} {pool : PoolSnapshot} {amount0 amount1 value0 value1 : ℤ} {plan : CapitalHarvestPlan}

theorem planCapitalHarvest_within {valuation : CapitalValuation} (valued0 : quoteTurnover config pool amount0 pool.token0 = .ok value0)
    (valued1 : quoteTurnover config pool amount1 pool.token1 = .ok value1) (active : valuation.activeValueQuote = value0 + value1)
    (planned : planCapitalHarvest amount0 amount1 valuation = .ok plan) :
    HarvestWithin config pool amount0 amount1 valuation.capitalCapQuote plan := by
  have splits := planCapitalHarvest_splits planned
  dsimp only [planCapitalHarvest] at planned
  obtain ⟨_, checked, planned⟩ := bind_ok planned
  obtain ⟨nonneg0, nonneg1, _⟩ := demand_ok.mp checked
  split at planned
  · rename_i triggers
    cases planned
    obtain ⟨⟨_, positive, excess, _⟩, some0, some1⟩ := triggers
    have above : valuation.capitalCapQuote < valuation.activeValueQuote := by
      unfold CapitalValuation.excessValueQuote at excess
      split at excess
      · assumption
      · exact absurd excess (lt_irrefl _)
    obtain ⟨least0, most0, _⟩ := scaled_bounds nonneg0 positive above
    obtain ⟨least1, most1, _⟩ := scaled_bounds nonneg1 positive above
    refine ⟨splits.1, splits.2, ⟨least0, sub_nonneg.mpr most0, least1, sub_nonneg.mpr most1⟩, fun _ => ?_, fun idle => Bool.noConfusion idle⟩
    refine ⟨lt_of_le_of_ne least0 some0.symm, lt_of_le_of_ne least1 some1.symm, ?_⟩
    obtain ⟨rate0, rate1, exact, each0, each1⟩ := quoteTurnover_legs valued0 valued1
    refine ⟨_, _, each0 _, each1 _, ?_⟩
    rw [each0] at valued0
    rw [each1] at valued1
    cases valued0
    cases valued1
    rcases exact with rfl | rfl
    · rw [Rate.value_one] at active ⊢
      exact scaled_within nonneg0 nonneg1 active.symm positive above
    · rw [Rate.value_one] at active ⊢
      rw [add_comm]
      exact scaled_within nonneg1 nonneg0 (by rw [active, add_comm]) positive above
  · cases planned
    have none0 : (0 : ℤ) ≤ amount0 - amount0 := by rw [sub_self]
    have none1 : (0 : ℤ) ≤ amount1 - amount1 := by rw [sub_self]
    exact ⟨splits.1, splits.2, ⟨nonneg0, none0, nonneg1, none1⟩, fun harvest => Bool.noConfusion harvest, fun _ => ⟨rfl, rfl⟩⟩

end

def plannedHarvest (config : CapitalConfig) (pool : PoolSnapshot) (amount0 amount1 capitalCapQuote excessValueUsdg thresholdUsdg : ℤ) :
    Except HarvestError CapitalHarvestPlan := do
  let value0 ← quoteTurnover config pool amount0 pool.token0
  let value1 ← quoteTurnover config pool amount1 pool.token1
  (planCapitalHarvest amount0 amount1 ⟨value0 + value1, capitalCapQuote, excessValueUsdg, thresholdUsdg⟩).mapError .code

section

variable {config : CapitalConfig} {pool : PoolSnapshot} {amount0 amount1 : ℤ} {plan : CapitalHarvestPlan}

theorem mapError_ok {α ε η : Type} {m : Except ε α} {f : ε → η} {a : α} (mapped : m.mapError f = .ok a) : m = .ok a := by
  cases m with
  | error _ => cases mapped
  | ok _ =>
    cases mapped
    rfl

theorem plannedHarvest_within {capitalCapQuote excessValueUsdg thresholdUsdg : ℤ}
    (planned : plannedHarvest config pool amount0 amount1 capitalCapQuote excessValueUsdg thresholdUsdg = .ok plan) :
    HarvestWithin config pool amount0 amount1 capitalCapQuote plan := by
  unfold plannedHarvest at planned
  obtain ⟨value0, valued0, planned⟩ := bind_ok planned
  obtain ⟨value1, valued1, planned⟩ := bind_ok planned
  exact @planCapitalHarvest_within config pool amount0 amount1 value0 value1 plan _ valued0 valued1 rfl (mapError_ok planned)

theorem strategyCapitalHarvest_planned {route : ℤ → Except HarvestError ℤ} {stored : Option StrategyBaseline}
    (planned : strategyCapitalHarvest config pool route stored amount0 amount1 = .ok plan) :
    ∃ excessValueUsdg, plannedHarvest config pool amount0 amount1 plan.capitalCapQuote excessValueUsdg config.thresholdUsdg = .ok plan := by
  have cap : ∀ {valuation : CapitalValuation}, planCapitalHarvest amount0 amount1 valuation = .ok plan →
      plan.capitalCapQuote = valuation.capitalCapQuote := by
    intro valuation made
    dsimp only [planCapitalHarvest] at made
    obtain ⟨_, _, made⟩ := bind_ok made
    split at made <;> cases made <;> rfl
  unfold strategyCapitalHarvest at planned
  obtain ⟨value0, valued0, planned⟩ := bind_ok planned
  obtain ⟨value1, valued1, planned⟩ := bind_ok planned
  simp only [plannedHarvest, valued0, valued1, ok_bind]
  dsimp only at planned
  split at planned
  · refine ⟨0, ?_⟩
    rw [cap (mapError_ok planned)]
    exact planned
  · split at planned
    · cases planned
    · obtain ⟨_, _, planned⟩ := bind_ok planned
      obtain ⟨excessValueUsdg, _, planned⟩ := bind_ok planned
      refine ⟨excessValueUsdg, ?_⟩
      rw [cap (mapError_ok planned)]
      exact planned

end

/-- Under any cap, and under the cap of the strategy, what is harvested leaves at most the cap deployed. -/
theorem strategyCapitalHarvest_within (config : CapitalConfig) (pool : PoolSnapshot) (amount0 amount1 : ℤ) :
    (∀ capitalCapQuote excessValueUsdg thresholdUsdg,
      match plannedHarvest config pool amount0 amount1 capitalCapQuote excessValueUsdg thresholdUsdg with
      | .error _ => True
      | .ok plan => HarvestWithin config pool amount0 amount1 capitalCapQuote plan) ∧
    ∀ route stored, match strategyCapitalHarvest config pool route stored amount0 amount1 with
      | .error _ => True
      | .ok plan => HarvestWithin config pool amount0 amount1 plan.capitalCapQuote plan := by
  refine ⟨fun capitalCapQuote excessValueUsdg thresholdUsdg => ?_, fun route stored => ?_⟩
  · cases planned : plannedHarvest config pool amount0 amount1 capitalCapQuote excessValueUsdg thresholdUsdg with
    | error _ => exact trivial
    | ok plan => exact plannedHarvest_within planned
  · cases planned : strategyCapitalHarvest config pool route stored amount0 amount1 with
    | error _ => exact trivial
    | ok plan =>
      obtain ⟨_, made⟩ := strategyCapitalHarvest_planned planned
      exact plannedHarvest_within made

-- at four risk tokens for a quote token, 487 and 49 are worth 499
example : plannedHarvest ⟨1, 2, 3, true, 5⟩ ⟨1, 2, 2 ^ 97⟩ 1000 101 500 500 5 =
    .ok ⟨true, 487, 49, 513, 52, 1025, 500, 525, 500⟩ := rfl

end LpTerminal.Capital
