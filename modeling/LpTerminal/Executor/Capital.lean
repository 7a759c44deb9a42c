import LpTerminal.Executor.Chain
import LpTerminal.Lib.Fallible
import Mathlib.Algebra.Order.Ring.Int

/-!
The profit peeled from a balanced replacement portfolio: the value above the cap stays in the wallet,
in the same proportion of both tokens.
-/

namespace LpTerminal.Capital

open Fallible

structure CapitalHarvestPlan where
  triggered : Bool
  deploy0 : ℤ
  deploy1 : ℤ
  profit0 : ℤ
  profit1 : ℤ
  activeValueQuote : ℤ
  capitalCapQuote : ℤ
  excessValueQuote : ℤ
  excessValueUsdg : ℤ

/-- The value of the portfolio, its cap, and what the excess is worth. -/
structure CapitalValuation where
  activeValueQuote : ℤ
  capitalCapQuote : ℤ
  excessValueUsdg : ℤ
  thresholdUsdg : ℤ

def CapitalValuation.excessValueQuote (valuation : CapitalValuation) : ℤ :=
  if valuation.activeValueQuote > valuation.capitalCapQuote then valuation.activeValueQuote - valuation.capitalCapQuote else 0

def CapitalValuation.triggers (valuation : CapitalValuation) : Prop :=
  0 < valuation.activeValueQuote ∧ 0 < valuation.capitalCapQuote ∧ 0 < valuation.excessValueQuote ∧
    valuation.thresholdUsdg ≤ valuation.excessValueUsdg

instance {valuation : CapitalValuation} : Decidable valuation.triggers := inferInstanceAs (Decidable (_ ∧ _ ∧ _ ∧ _))

def planCapitalHarvest (amount0 amount1 : ℤ) (valuation : CapitalValuation) : Except ErrorCode CapitalHarvestPlan := do
  demand (0 ≤ amount0 ∧ 0 ≤ amount1 ∧ 0 ≤ valuation.activeValueQuote ∧ 0 ≤ valuation.capitalCapQuote ∧
    0 ≤ valuation.excessValueUsdg ∧ 0 ≤ valuation.thresholdUsdg) .capitalAmount
  let deploy0 := (amount0 * valuation.capitalCapQuote).tdiv valuation.activeValueQuote
  let deploy1 := (amount1 * valuation.capitalCapQuote).tdiv valuation.activeValueQuote
  let plan (triggered : Bool) (deploy0 deploy1 : ℤ) : CapitalHarvestPlan :=
    { triggered, deploy0, deploy1, profit0 := amount0 - deploy0, profit1 := amount1 - deploy1
      activeValueQuote := valuation.activeValueQuote, capitalCapQuote := valuation.capitalCapQuote
      excessValueQuote := valuation.excessValueQuote, excessValueUsdg := valuation.excessValueUsdg }
  -- a mint needs both legs: dust postpones the harvest
  if valuation.triggers ∧ deploy0 ≠ 0 ∧ deploy1 ≠ 0 then return plan true deploy0 deploy1
  else return plan false amount0 amount1

theorem planCapitalHarvest_splits {amount0 amount1 : ℤ} {valuation : CapitalValuation} {plan : CapitalHarvestPlan}
    (planned : planCapitalHarvest amount0 amount1 valuation = .ok plan) :
    plan.deploy0 + plan.profit0 = amount0 ∧ plan.deploy1 + plan.profit1 = amount1 := by
  dsimp only [planCapitalHarvest] at planned
  obtain ⟨_, _, planned⟩ := bind_ok planned
  split at planned
  · cases planned
    exact ⟨add_sub_cancel _ _, add_sub_cancel _ _⟩
  · cases planned
    exact ⟨add_sub_cancel _ _, add_sub_cancel _ _⟩

end LpTerminal.Capital
