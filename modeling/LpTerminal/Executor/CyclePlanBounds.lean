import LpTerminal.Executor.Rebalance
import LpTerminal.Mint.Amounts

/-!
What every plan of a cycle keeps, whatever is quoted: it is made of few quotes, its intents are covered, and the
balancing swap stops short of the target at the rate it was refined with.
-/

namespace LpTerminal.Rebalance

open Fallible

def unitLiquidity : ℕ := 2 ^ 120

structure InRangeUnits extends TargetUnits where
  positive : 0 < amount0 ∧ 0 < amount1

def targetUnits (sqrtPriceX96 : ℕ) (tickLower tickUpper : ℤ) : Option InRangeUnits := do
  let sqrtA ← Mint.getSqrtRatioAtTick tickLower
  let sqrtB ← Mint.getSqrtRatioAtTick tickUpper
  let units := Mint.getAmountsForLiquidity sqrtPriceX96 sqrtA sqrtB unitLiquidity
  if inRange : (0 : ℤ) < units.amount0 ∧ (0 : ℤ) < units.amount1 then some ⟨⟨units.amount0, units.amount1⟩, inRange⟩ else none

structure CollectedFunds extends CycleFunds where
  nonneg : 0 ≤ principal0 ∧ 0 ≤ principal1 ∧ 0 ≤ fee0 ∧ 0 ≤ fee1

theorem fundTotals_nonneg {handling : FeeHandling} (funds : CollectedFunds) : (fundTotals handling funds.toCycleFunds).Nonneg := by
  obtain ⟨principal0, principal1, fee0, fee1⟩ := funds.nonneg
  unfold fundTotals
  split
  · exact ⟨add_nonneg principal0 fee0, add_nonneg principal1 fee1, le_rfl, le_rfl⟩
  · exact ⟨principal0, principal1, fee0, fee1⟩

abbrev PositiveAnswers := (index : Nat) → (tokenIn tokenOut : Address) → (amountIn : ℤ) → {amountOut : Nat // 0 < amountOut}

def answered (answers : PositiveAnswers) : QuoteFn := fun index tokenIn tokenOut amountIn => .ok (answers index tokenIn tokenOut amountIn).1

section

variable (pair : Pair) (answers : PositiveAnswers) (balance0 balance1 : ℤ) (units : TargetUnits)

def refiningQuotes (direction : SwapDirection) (round : Nat) (amountIn : ℤ) : (left : Nat) → List (ℤ × Nat)
  | 0 => []
  | left + 1 =>
    let amountOut := (answers round (tokenIn pair direction) (tokenOut pair direction) amountIn).1
    (amountIn, amountOut) ::
      match solveSwapInput balance0 balance1 units amountIn amountOut direction with
      | .error _ => []
      | .ok solved =>
        if solved = 0 ∨ drift solved amountIn * 500 ≤ availableFor balance0 balance1 direction then []
        else refiningQuotes direction (round + 1) solved left

def lastRefiningQuote : Option (SwapDirection × ℤ × Nat) := do
  let direction ← chooseSwapDirection balance0 balance1 units
  let last ← (refiningQuotes pair answers balance0 balance1 units direction 0 ((availableFor balance0 balance1 direction).tdiv 2) 3).getLast?
  return (direction, last)

end

def filledAt (balance0 balance1 : ℤ) (direction : SwapDirection) (amountIn quoteIn : ℤ) (quoteOut : Nat) : ℚ × ℚ :=
  match direction with
  | .token0ToToken1 => (balance0 - amountIn, balance1 + amountIn * quoteOut / quoteIn)
  | .token1ToToken0 => (balance0 + amountIn * quoteOut / quoteIn, balance1 - amountIn)

def WithinTarget (units : TargetUnits) (direction : SwapDirection) (holdings : ℚ × ℚ) : Prop :=
  match direction with
  | .token0ToToken1 => holdings.2 * units.amount0 ≤ holdings.1 * units.amount1
  | .token1ToToken0 => holdings.1 * units.amount1 ≤ holdings.2 * units.amount0

section

variable {pair : Pair} {answers : PositiveAnswers} {balance0 balance1 quoteIn solved : ℤ} {quoteOut : Nat} {units : InRangeUnits}
variable {direction : SwapDirection}

theorem solved_quotient {excess units0 units1 available : ℤ} (excessive : 0 < excess) (rated : 0 < quoteIn) (positive : 0 < units1)
    (nonneg : 0 ≤ units0) :
    min ((excess * quoteIn).tdiv (units1 * quoteIn + quoteOut * units0)) available * (units1 * quoteIn + quoteOut * units0) ≤ excess * quoteIn := by
  have divisor : 0 < units1 * quoteIn + quoteOut * units0 :=
    add_pos_of_pos_of_nonneg (mul_pos positive rated) (mul_nonneg (Int.natCast_nonneg _) nonneg)
  rw [Int.tdiv_eq_ediv_of_nonneg (mul_pos excessive rated).le]
  calc min (excess * quoteIn / (units1 * quoteIn + quoteOut * units0)) available * (units1 * quoteIn + quoteOut * units0)
      ≤ excess * quoteIn / (units1 * quoteIn + quoteOut * units0) * (units1 * quoteIn + quoteOut * units0) :=
        mul_le_mul_of_nonneg_right (min_le_left _ _) divisor.le
    _ ≤ excess * quoteIn := Int.ediv_mul_le _ divisor.ne'

theorem solveSwapInput_answers (enough : 0 ≤ balance0 ∧ 0 ≤ balance1) (rated : 0 < quoteIn) (answer : 0 < quoteOut) :
    ∃ solved, solveSwapInput balance0 balance1 units.toTargetUnits quoteIn quoteOut direction = .ok solved ∧ 0 ≤ solved := by
  have checked : 0 ≤ balance0 ∧ 0 ≤ balance1 ∧ 0 < units.amount0 ∧ 0 < units.amount1 ∧ 0 < quoteIn ∧ 0 < (quoteOut : ℤ) :=
    ⟨enough.1, enough.2, units.positive.1, units.positive.2, rated, Int.natCast_pos.mpr answer⟩
  unfold solveSwapInput
  rw [demand_bind checked]
  cases direction with
  | token0ToToken1 =>
    dsimp only
    split
    · exact ⟨0, rfl, le_rfl⟩
    · rename_i excess
      refine ⟨_, rfl, le_min (Int.tdiv_nonneg (mul_nonneg (by omega) rated.le) ?_) enough.1⟩
      exact add_nonneg (mul_nonneg units.positive.2.le rated.le) (mul_nonneg (Int.natCast_nonneg _) units.positive.1.le)
  | token1ToToken0 =>
    dsimp only
    split
    · exact ⟨0, rfl, le_rfl⟩
    · rename_i excess
      refine ⟨_, rfl, le_min (Int.tdiv_nonneg (mul_nonneg (by omega) rated.le) ?_) enough.2⟩
      exact add_nonneg (mul_nonneg units.positive.1.le rated.le) (mul_nonneg (Int.natCast_nonneg _) units.positive.2.le)

theorem filled_within {balanceIn balanceOut unitsIn unitsOut amountIn : ℤ} (rated : 0 < quoteIn)
    (quotient : amountIn * (unitsOut * quoteIn + quoteOut * unitsIn) ≤ (balanceIn * unitsOut - balanceOut * unitsIn) * quoteIn) :
    ((balanceOut : ℚ) + amountIn * quoteOut / quoteIn) * unitsIn ≤ (balanceIn - amountIn) * unitsOut := by
  have rate : (0 : ℚ) < quoteIn := Int.cast_pos.mpr rated
  have exact : (amountIn : ℚ) * (unitsOut * quoteIn + quoteOut * unitsIn) ≤ (balanceIn * unitsOut - balanceOut * unitsIn) * quoteIn := by
    exact_mod_cast quotient
  apply le_of_mul_le_mul_right _ rate
  calc ((balanceOut : ℚ) + amountIn * quoteOut / quoteIn) * unitsIn * quoteIn
      = balanceOut * unitsIn * quoteIn + amountIn * (quoteOut * unitsIn) := by field_simp
    _ ≤ (balanceIn - amountIn) * unitsOut * quoteIn := by linarith

theorem solveSwapInput_within (some : solved ≠ 0)
    (solves : solveSwapInput balance0 balance1 units.toTargetUnits quoteIn quoteOut direction = .ok solved) :
    WithinTarget units.toTargetUnits direction (filledAt balance0 balance1 direction solved quoteIn quoteOut) := by
  unfold solveSwapInput at solves
  obtain ⟨_, checked, solves⟩ := bind_ok solves
  obtain ⟨_, _, positive0, positive1, rated, _⟩ := demand_ok.mp checked
  cases direction with
  | token0ToToken1 =>
    dsimp only at solves
    split at solves
    · cases solves
      exact absurd rfl some
    · rename_i excess
      cases solves
      exact filled_within rated (solved_quotient (not_le.mp excess) rated positive1 positive0.le)
  | token1ToToken0 =>
    dsimp only at solves
    split at solves
    · cases solves
      exact absurd rfl some
    · rename_i excess
      cases solves
      exact filled_within rated (solved_quotient (not_le.mp excess) rated positive0 positive1.le)

theorem balanceRounds_refined {round left : Nat} {amountIn : ℤ} (enough : 0 ≤ balance0 ∧ 0 ≤ balance1) (asked : 0 < amountIn) :
    ∃ found, balanceRounds pair (answered answers) balance0 balance1 units.toTargetUnits direction round amountIn left = .ok found ∧
      ∀ planned, found = some planned → 0 < planned ∧ (left ≠ 0 → ∃ quoteIn quoteOut,
        (refiningQuotes pair answers balance0 balance1 units.toTargetUnits direction round amountIn left).getLast? = some (quoteIn, quoteOut) ∧
          solveSwapInput balance0 balance1 units.toTargetUnits quoteIn quoteOut direction = .ok planned) := by
  induction left generalizing round amountIn with
  | zero =>
    refine ⟨some amountIn, rfl, ?_⟩
    rintro planned same
    cases same
    exact ⟨asked, fun impossible => absurd rfl impossible⟩
  | succ left ih =>
    have answer := (answers round (tokenIn pair direction) (tokenOut pair direction) amountIn).2
    unfold balanceRounds refiningQuotes answered
    dsimp only
    generalize (answers round (tokenIn pair direction) (tokenOut pair direction) amountIn).1 = amountOut at *
    obtain ⟨solved, solves, nonneg⟩ := @solveSwapInput_answers balance0 balance1 amountIn amountOut units direction enough asked answer
    rw [ok_bind, demand_bind answer, solves, ok_bind]
    dsimp only
    by_cases none : solved = 0
    · rw [if_pos none]
      exact ⟨Option.none, rfl, fun _ impossible => by cases impossible⟩
    · rw [if_neg none]
      have positive : 0 < solved := lt_of_le_of_ne nonneg (Ne.symm none)
      by_cases close : drift solved amountIn * 500 ≤ availableFor balance0 balance1 direction
      · rw [if_pos close, if_pos (Or.inr close)]
        refine ⟨some solved, rfl, ?_⟩
        rintro planned same
        cases same
        exact ⟨positive, fun _ => ⟨amountIn, amountOut, rfl, solves⟩⟩
      · rw [if_neg close, if_neg (not_or.mpr ⟨none, close⟩)]
        obtain ⟨found, rounds, refined⟩ := @ih (round + 1) solved positive
        refine ⟨found, rounds, fun planned same => ?_⟩
        obtain ⟨least, last⟩ := refined planned same
        refine ⟨least, fun _ => ?_⟩
        rw [List.getLast?_cons]
        cases left with
        | zero =>
          cases rounds
          cases same
          exact ⟨amountIn, amountOut, rfl, solves⟩
        | succ left =>
          obtain ⟨quoteIn, quoteOut, final, solution⟩ := last (Nat.succ_ne_zero left)
          rw [final]
          exact ⟨quoteIn, quoteOut, rfl, solution⟩

/-- An intent of a plan: its parts make it up, and its principal stops short of the target at the last refining quote. -/
structure PlannedIntent (pair : Pair) (answers : PositiveAnswers) (balance0 balance1 : ℤ) (units : TargetUnits) (swap : SwapIntent) : Prop where
  parts : swap.principalIn + swap.feeIn = swap.amountIn
  positive : 0 < swap.amountIn
  nonneg : 0 ≤ swap.principalIn ∧ 0 ≤ swap.feeIn
  within : swap.principalIn ≠ 0 → ∃ direction quoteIn quoteOut,
    lastRefiningQuote pair answers balance0 balance1 units = some (direction, quoteIn, quoteOut) ∧ swap.tokenIn = tokenIn pair direction ∧
      WithinTarget units direction (filledAt balance0 balance1 direction swap.principalIn quoteIn quoteOut)

theorem planBalanceSwap_answered (enough : 0 ≤ balance0 ∧ 0 ≤ balance1) :
    ∃ found, planBalanceSwap pair (answered answers) balance0 balance1 units.toTargetUnits = .ok found ∧
      ∀ swap, found = some swap → PlannedIntent pair answers balance0 balance1 units.toTargetUnits swap := by
  have nothing : ∀ swap : SwapIntent, Option.none = some swap → PlannedIntent pair answers balance0 balance1 units.toTargetUnits swap := by
    intro swap impossible
    cases impossible
  unfold planBalanceSwap
  cases chosen : chooseSwapDirection balance0 balance1 units.toTargetUnits with
  | none => exact ⟨none, rfl, nothing⟩
  | some direction =>
    dsimp only
    by_cases seedless : (availableFor balance0 balance1 direction).tdiv 2 = 0
    · rw [if_pos seedless]
      exact ⟨none, rfl, nothing⟩
    · rw [if_neg seedless]
      have available : 0 ≤ availableFor balance0 balance1 direction := by
        unfold availableFor
        split
        · exact enough.1
        · exact enough.2
      have seed : 0 < (availableFor balance0 balance1 direction).tdiv 2 := lt_of_le_of_ne (Int.tdiv_nonneg available (by decide)) (Ne.symm seedless)
      obtain ⟨found, rounds, refined⟩ := @balanceRounds_refined pair answers balance0 balance1 units direction 0 3 _ enough seed
      rw [rounds, ok_bind]
      cases found with
      | none => exact ⟨none, rfl, nothing⟩
      | some amountIn =>
        obtain ⟨positive, last⟩ := refined amountIn rfl
        obtain ⟨quoteIn, quoteOut, final, solution⟩ := last (by decide)
        refine ⟨_, rfl, ?_⟩
        rintro swap same
        cases same
        refine ⟨add_zero _, positive, ⟨positive.le, le_rfl⟩, fun some => ⟨direction, quoteIn, quoteOut, ?_, rfl, ?_⟩⟩
        · simp only [lastRefiningQuote, chosen, final, Option.bind_eq_bind, Option.bind_some]
          rfl
        · exact solveSwapInput_within some solution

end

section

variable {pair : Pair} {handling : FeeHandling} {quote other : QuoteFn} {answers : PositiveAnswers} {units : InRangeUnits}

theorem quoteIntents_answered (index : Nat) (intents : List SwapIntent) :
    ∃ swaps, quoteIntents (answered answers) index intents = .ok swaps := by
  induction intents generalizing index with
  | nil => exact ⟨[], rfl⟩
  | cons intent rest ih =>
    obtain ⟨later, tail⟩ := ih (index + 1)
    unfold quoteIntents
    rw [tail]
    exact ⟨_, rfl⟩

theorem addConversion_planned {balance0 balance1 feeRisk : ℤ} {principal : Option SwapIntent} (fees : 0 < feeRisk)
    (planned : ∀ swap, principal = some swap → PlannedIntent pair answers balance0 balance1 units.toTargetUnits swap) :
    ∀ swap ∈ addConversion pair feeRisk principal, PlannedIntent pair answers balance0 balance1 units.toTargetUnits swap := by
  have conversion : PlannedIntent pair answers balance0 balance1 units.toTargetUnits
      { purpose := .strategy, tokenIn := pair.riskToken, tokenOut := pair.quoteToken, amountIn := feeRisk, quotedOut := 0
        principalIn := 0, feeIn := feeRisk } :=
    ⟨zero_add _, fees, ⟨le_rfl, fees.le⟩, fun some => absurd rfl some⟩
  unfold addConversion
  cases principal with
  | none => exact List.forall_mem_singleton.mpr conversion
  | some swap =>
    obtain ⟨parts, positive, nonneg, within⟩ := planned swap rfl
    dsimp only
    split
    · refine List.forall_mem_singleton.mpr ⟨?_, add_pos positive fees, ⟨nonneg.1, add_nonneg nonneg.2 fees.le⟩, within⟩
      change swap.principalIn + (swap.feeIn + feeRisk) = swap.amountIn + feeRisk
      rw [← add_assoc, parts]
    · exact List.forall_mem_cons.mpr ⟨planned swap rfl, List.forall_mem_singleton.mpr conversion⟩

theorem planCycleSwaps_planned (funds : CollectedFunds) :
    ∃ plan, planCycleSwaps pair (answered answers) handling units.toTargetUnits funds.toCycleFunds = .ok plan ∧
      ∀ swap ∈ plan.swaps, PlannedIntent pair answers plan.totals.lp0 plan.totals.lp1 units.toTargetUnits swap := by
  obtain ⟨lp0, lp1, _, _⟩ := @fundTotals_nonneg handling funds
  obtain ⟨principal, balance, planned⟩ := @planBalanceSwap_answered pair answers _ _ units ⟨lp0, lp1⟩
  unfold planCycleSwaps
  dsimp only
  rw [balance, ok_bind]
  generalize intended : (if handling = .convertToQuote ∧ 0 < riskFees pair funds.toCycleFunds then
    addConversion pair (riskFees pair funds.toCycleFunds) principal else principal.toList) = intents
  obtain ⟨swaps, quoted⟩ := @quoteIntents_answered answers 4 intents
  rw [quoted]
  refine ⟨_, rfl, quoteIntents_each (fun _ _ kept => ⟨kept.parts, kept.positive, kept.nonneg, kept.within⟩) quoted ?_⟩
  subst intended
  split
  · rename_i converts
    exact addConversion_planned converts.2 planned
  · intro swap member
    exact planned swap (Option.mem_toList.mp member)

theorem balanceRounds_quotes {balance0 balance1 : ℤ} {units : TargetUnits} {direction : SwapDirection} {round left : Nat} {amountIn : ℤ}
    (same : ∀ index, index < round + left → quote index = other index) :
    balanceRounds pair quote balance0 balance1 units direction round amountIn left =
      balanceRounds pair other balance0 balance1 units direction round amountIn left := by
  induction left generalizing round amountIn with
  | zero => rfl
  | succ left ih =>
    unfold balanceRounds
    rw [same round (by omega)]
    have tail : ∀ solved, balanceRounds pair quote balance0 balance1 units direction (round + 1) solved left =
        balanceRounds pair other balance0 balance1 units direction (round + 1) solved left := by
      intro solved
      apply ih
      intro index below
      exact same index (by omega)
    simp only [tail]

theorem quoteIntents_quotes {index : Nat} {intents : List SwapIntent} (same : ∀ later, later < index + intents.length → quote later = other later) :
    quoteIntents quote index intents = quoteIntents other index intents := by
  induction intents generalizing index with
  | nil => rfl
  | cons intent rest ih =>
    unfold quoteIntents
    rw [List.length_cons] at same
    rw [same index (by omega), ih fun later below => same later (by omega)]

theorem addConversion_length (feeRisk : ℤ) (principal : Option SwapIntent) : (addConversion pair feeRisk principal).length ≤ 2 := by
  unfold addConversion
  cases principal with
  | none => exact Nat.le_succ 1
  | some swap =>
    dsimp only
    split
    · exact Nat.le_succ 1
    · exact le_rfl

theorem planCycleSwaps_quotes {units : TargetUnits} {funds : CycleFunds} (same : ∀ index, index < 6 → quote index = other index) :
    planCycleSwaps pair quote handling units funds = planCycleSwaps pair other handling units funds := by
  have balance : ∀ balance0 balance1, planBalanceSwap pair quote balance0 balance1 units = planBalanceSwap pair other balance0 balance1 units := by
    intro balance0 balance1
    unfold planBalanceSwap
    have rounds : ∀ direction amountIn, balanceRounds pair quote balance0 balance1 units direction 0 amountIn 3 =
        balanceRounds pair other balance0 balance1 units direction 0 amountIn 3 := by
      intro direction amountIn
      apply balanceRounds_quotes
      intro index below
      exact same index (by omega)
    simp only [rounds, same 3 (by decide)]
  unfold planCycleSwaps
  dsimp only
  rw [balance]
  apply bind_congr
  intro principal
  rw [@quoteIntents_quotes quote other]
  intro later below
  apply same
  apply lt_of_lt_of_le below
  split
  · exact Nat.add_le_add_left (addConversion_length _ _) 4
  · cases principal with
    | none => exact Nat.le_add_right 4 2
    | some _ => exact Nat.le_succ 5

def firstAnswers (count : Nat) (answers rest : PositiveAnswers) : PositiveAnswers :=
  fun index => if index < count then answers index else rest index

/-- Whatever six calls are answered, the plan returns, its intents are made of what the totals have, one for each
direction, and its principal stops short of the target at the last refining quote. -/
theorem planCycleSwaps_bounded (pair : Pair) (handling : FeeHandling) (units : InRangeUnits) (funds : CollectedFunds) (answers : PositiveAnswers) :
    (∀ rest, planCycleSwaps pair (answered (firstAnswers 6 answers rest)) handling units.toTargetUnits funds.toCycleFunds =
      planCycleSwaps pair (answered answers) handling units.toTargetUnits funds.toCycleFunds) ∧
    ∃ plan, planCycleSwaps pair (answered answers) handling units.toTargetUnits funds.toCycleFunds = .ok plan ∧
      plan.totals = fundTotals handling funds.toCycleFunds ∧ StrategySwaps pair handling plan.totals plan.swaps ∧
      ∀ swap ∈ plan.swaps, PlannedIntent pair answers plan.totals.lp0 plan.totals.lp1 units.toTargetUnits swap := by
  refine ⟨fun rest => ?_, ?_⟩
  · apply planCycleSwaps_quotes
    intro index below
    unfold answered firstAnswers
    rw [if_pos below]
  · obtain ⟨plan, planned, each⟩ := @planCycleSwaps_planned pair handling answers units funds
    obtain ⟨totals, strategy⟩ := planCycleSwaps_spec (fundTotals_nonneg funds) planned
    exact ⟨plan, planned, totals, strategy, each⟩

end

end LpTerminal.Rebalance
