import LpTerminal.Executor.CyclePlanBounds
import LpTerminal.Recovery.SwapReplay

/-!
The books of the accounting loop: what every allocation adds up to, and what the four totals are after any
number of swaps.
-/

namespace LpTerminal.SwapReplay

open Capital Durable Fallible FeeTax Rebalance Receipts SettledSwaps Store SwapJob SwapLegs

structure ExecutedSwap where
  intent : SwapIntent
  spent : ℤ
  gained : ℤ
  minOut : ℤ

section

variable (pair : Pair) (handling : FeeHandling)

def applySwap (totals : CycleTotals) (swap : ExecutedSwap) : Except ErrorCode CycleTotals := do
  let execution ← allocateSwapExecution swap.intent swap.spent swap.gained swap.minOut
  let totals := totals + executionEffect pair handling swap.intent execution
  demand (swap.intent.purpose = .strategy → totals.Nonneg) .recoveryContext
  return totals

def applySwaps (funds : CycleFunds) (swaps : List ExecutedSwap) : Except ErrorCode CycleTotals :=
  swaps.foldlM (applySwap pair handling) (fundTotals handling funds)

end

/-- The parts of an allocation add up, nothing of an offer is overspent, and an offer of one kind stays of its kind. -/
structure Allocated (intent : SwapIntent) (spent gained : ℤ) (execution : SwapExecutionAllocation) : Prop where
  spends : execution.principalSpent + execution.feeSpent = spent
  gains : execution.principalOut + execution.feeOut = gained
  unspentPrincipal : 0 ≤ execution.unspentPrincipal
  unspentFee : 0 ≤ execution.unspentFee
  unspent : execution.unspentPrincipal + execution.unspentFee = intent.amountIn - spent
  principalOnly : intent.feeIn = 0 → execution.feeSpent = 0 ∧ execution.feeOut = 0 ∧ execution.unspentFee = 0
  feeOnly : intent.principalIn = 0 → execution.principalSpent = 0 ∧ execution.principalOut = 0 ∧ execution.unspentPrincipal = 0

section

variable {pair : Pair} {handling : FeeHandling} {intent : SwapIntent} {spent gained minOut : ℤ}

theorem executionOf_allocated (accepted : Accepts intent spent gained minOut) :
    Allocated intent spent gained (executionOf intent spent gained) := by
  have principal := principalSpent_le accepted
  have fee := feeSpent_le accepted
  obtain ⟨_, _, _, parts, _, _, _⟩ := id accepted
  refine ⟨add_sub_cancel _ _, add_sub_cancel _ _, sub_nonneg.mpr principal, sub_nonneg.mpr fee, ?_, fun noFee => ?_, fun noPrincipal => ?_⟩
  · have whole : (executionOf intent spent gained).principalSpent + (executionOf intent spent gained).feeSpent = spent :=
      add_sub_cancel _ _
    change intent.principalIn - (executionOf intent spent gained).principalSpent +
      (intent.feeIn - (executionOf intent spent gained).feeSpent) = intent.amountIn - spent
    omega
  · obtain ⟨noSpend, noOut⟩ := executionOf_principal accepted noFee
    refine ⟨noSpend, noOut, ?_⟩
    change intent.feeIn - (executionOf intent spent gained).feeSpent = 0
    rw [noFee, noSpend, sub_self]
  · have noSpend : (executionOf intent spent gained).principalSpent = 0 := by
      change (spent * intent.principalIn).tdiv intent.amountIn = 0
      rw [noPrincipal, mul_zero, Int.zero_tdiv]
    refine ⟨noSpend, ?_, ?_⟩
    · change (gained * (executionOf intent spent gained).principalSpent).tdiv spent = 0
      rw [noSpend, mul_zero, Int.zero_tdiv]
    · change intent.principalIn - (executionOf intent spent gained).principalSpent = 0
      rw [noPrincipal, noSpend, sub_self]

end

/-- A swap out of one of the two tokens; a strategy swap goes into the other one. -/
structure PairSwap (pair : Pair) extends ExecutedSwap where
  sides : (intent.tokenIn = pair.token0 ∧ (intent.purpose = .strategy → intent.tokenOut = pair.token1)) ∨
    (intent.tokenIn = pair.token1 ∧ (intent.purpose = .strategy → intent.tokenOut = pair.token0))

def fundsOf (funds : CollectedFunds) (pair : Pair) (token : Address) : ℤ :=
  if token = pair.token0 then funds.principal0 + funds.fee0 else funds.principal1 + funds.fee1

def ExecutedSwap.execution (swap : ExecutedSwap) : SwapExecutionAllocation :=
  executionOf swap.intent swap.spent swap.gained

def ExecutedSwap.gainOf (swap : ExecutedSwap) (token : Address) : ℤ :=
  if swap.intent.purpose = .strategy ∧ swap.intent.tokenOut = token then swap.gained else 0

def ExecutedSwap.spendOf (swap : ExecutedSwap) (token : Address) : ℤ :=
  if swap.intent.purpose = .strategy ∧ swap.intent.tokenIn = token then swap.spent else 0

def ExecutedSwap.refundOf (swap : ExecutedSwap) (token : Address) : ℤ :=
  if swap.intent.purpose = .feeTax ∧ swap.intent.tokenIn = token then swap.execution.unspentFee else 0

def tokenTotal (pair : Pair) (totals : CycleTotals) (token : Address) : ℤ :=
  totals.lpOf pair token + totals.heldOf pair token

def tokenSum (swaps : List ExecutedSwap) (part : ExecutedSwap → Address → ℤ) (token : Address) : ℤ :=
  (swaps.map fun swap => part swap token).sum

@[simp] theorem tokenSum_nil (part : ExecutedSwap → Address → ℤ) (token : Address) : tokenSum [] part token = 0 := rfl

@[simp] theorem tokenSum_cons (swap : ExecutedSwap) (swaps : List ExecutedSwap) (part : ExecutedSwap → Address → ℤ) (token : Address) :
    tokenSum (swap :: swaps) part token = part swap token + tokenSum swaps part token := List.sum_cons

section

variable {pair : Pair} {handling : FeeHandling} {totals final : CycleTotals} {swap : ExecutedSwap} {token : Address}

theorem tokenTotal_add (effect : CycleTotals) :
    tokenTotal pair (totals + effect) token = tokenTotal pair totals token + tokenTotal pair effect token := by
  unfold tokenTotal CycleTotals.lpOf CycleTotals.heldOf
  split
  · rw [CycleTotals.add_lp0, CycleTotals.add_held0]
    omega
  · rw [CycleTotals.add_lp1, CycleTotals.add_held1]
    omega

theorem executionEffect_total (swap : PairSwap pair) (accepted : Accepts swap.intent swap.spent swap.gained swap.minOut)
    (sided : token = pair.token0 ∨ token = pair.token1) :
    tokenTotal pair (executionEffect pair handling swap.intent swap.execution) token =
      swap.gainOf token - swap.spendOf token + swap.refundOf token := by
  have allocated := executionOf_allocated accepted
  have spends : swap.execution.principalSpent + swap.execution.feeSpent = swap.spent := allocated.spends
  have gains : swap.execution.principalOut + swap.execution.feeOut = swap.gained := allocated.gains
  have distinct := pair.distinct
  have sides := swap.sides
  unfold executionEffect ExecutedSwap.gainOf ExecutedSwap.spendOf ExecutedSwap.refundOf tokenTotal CycleTotals.lpOf CycleTotals.heldOf
  cases purpose : swap.intent.purpose with
  | feeTax =>
    rcases sides with ⟨input, _⟩ | ⟨input, _⟩ <;> rcases sided with rfl | rfl <;> simp [input, distinct, distinct.symm] <;>
      split <;> simp
  | strategy =>
    rcases sides with ⟨input, output⟩ | ⟨input, output⟩ <;> rcases sided with rfl | rfl <;>
      simp [input, output purpose, distinct, distinct.symm] <;> omega

theorem applySwap_ok :
    applySwap pair handling totals swap = .ok final ↔ Accepts swap.intent swap.spent swap.gained swap.minOut ∧
      final = totals + executionEffect pair handling swap.intent swap.execution ∧ (swap.intent.purpose = .strategy → final.Nonneg) := by
  constructor
  · intro applied
    unfold applySwap at applied
    obtain ⟨execution, allocated, applied⟩ := bind_ok applied
    obtain ⟨accepted, rfl⟩ := allocateSwapExecution_ok.mp allocated
    obtain ⟨_, funded, returned⟩ := bind_ok applied
    cases returned
    exact ⟨accepted, rfl, demand_ok.mp funded⟩
  · rintro ⟨accepted, rfl, funded⟩
    unfold applySwap
    rw [allocateSwapExecution_ok.mpr ⟨accepted, rfl⟩, ok_bind]
    exact demand_bind funded

theorem applySwap_nonneg (nonneg : totals.Nonneg) (applied : applySwap pair handling totals swap = .ok final) : final.Nonneg := by
  obtain ⟨accepted, rfl, checked⟩ := applySwap_ok.mp applied
  cases purpose : swap.intent.purpose with
  | strategy => exact checked purpose
  | feeTax =>
    have refund : 0 ≤ swap.execution.unspentFee := (executionOf_allocated accepted).unspentFee
    obtain ⟨lp0, lp1, held0, held1⟩ := nonneg
    unfold executionEffect
    rw [purpose]
    dsimp only
    split <;> split <;> refine ⟨?_, ?_, ?_, ?_⟩ <;>
      simp only [CycleTotals.add_lp0, CycleTotals.add_lp1, CycleTotals.add_held0, CycleTotals.add_held1] <;> omega

theorem fundTotals_total (funds : CollectedFunds) : tokenTotal pair (fundTotals handling funds.toCycleFunds) token = fundsOf funds pair token := by
  unfold tokenTotal CycleTotals.lpOf CycleTotals.heldOf fundsOf fundTotals
  by_cases reinvests : handling = .reinvest
  · simp only [if_pos reinvests]
    split <;> rw [add_zero]
  · simp only [if_neg reinvests]
    split <;> rfl

end

structure Booked (pair : Pair) (funds : CollectedFunds) (swaps : List ExecutedSwap) (totals : CycleTotals) : Prop where
  allocated : ∀ swap ∈ swaps, Allocated swap.intent swap.spent swap.gained swap.execution
  nonneg : totals.Nonneg
  balance : ∀ token, token = pair.token0 ∨ token = pair.token1 → tokenTotal pair totals token =
    fundsOf funds pair token + tokenSum swaps ExecutedSwap.gainOf token - tokenSum swaps ExecutedSwap.spendOf token +
      tokenSum swaps ExecutedSwap.refundOf token

section

variable {pair : Pair} {handling : FeeHandling} {totals final : CycleTotals}

theorem applySwap_run {swaps : List (PairSwap pair)} (nonneg : totals.Nonneg)
    (applied : (swaps.map PairSwap.toExecutedSwap).foldlM (applySwap pair handling) totals = .ok final) :
    (∀ swap ∈ swaps, Allocated swap.intent swap.spent swap.gained swap.execution) ∧ final.Nonneg ∧
      ∀ token, token = pair.token0 ∨ token = pair.token1 → tokenTotal pair final token = tokenTotal pair totals token +
        tokenSum (swaps.map PairSwap.toExecutedSwap) ExecutedSwap.gainOf token -
        tokenSum (swaps.map PairSwap.toExecutedSwap) ExecutedSwap.spendOf token +
        tokenSum (swaps.map PairSwap.toExecutedSwap) ExecutedSwap.refundOf token := by
  induction swaps generalizing totals with
  | nil =>
    cases applied
    refine ⟨fun _ member => absurd member List.not_mem_nil, nonneg, fun token _ => ?_⟩
    simp
  | cons swap rest ih =>
    rw [List.map_cons, List.foldlM_cons] at applied
    obtain ⟨middle, step, applied⟩ := bind_ok applied
    have kept := applySwap_nonneg nonneg step
    obtain ⟨each, end_nonneg, balance⟩ := ih kept applied
    obtain ⟨accepted, rfl, _⟩ := applySwap_ok.mp step
    refine ⟨List.forall_mem_cons.mpr ⟨executionOf_allocated accepted, each⟩, end_nonneg, fun token sided => ?_⟩
    have effect := @executionEffect_total pair handling token swap accepted sided
    rw [balance token sided, tokenTotal_add, effect, List.map_cons, tokenSum_cons, tokenSum_cons, tokenSum_cons]
    omega

end

/-- Every allocation adds up, and so do the totals after any accepted swaps of the pair, which are never negative. -/
theorem applySwaps_booked (pair : Pair) (handling : FeeHandling) (funds : CollectedFunds) :
    (∀ intent spent gained minOut, match allocateSwapExecution intent spent gained minOut with
      | .error _ => True
      | .ok execution => Allocated intent spent gained execution) ∧
    ∀ swaps : List (PairSwap pair), match applySwaps pair handling funds.toCycleFunds (swaps.map PairSwap.toExecutedSwap) with
      | .error _ => True
      | .ok totals => Booked pair funds (swaps.map PairSwap.toExecutedSwap) totals := by
  refine ⟨fun intent spent gained minOut => ?_, fun swaps => ?_⟩
  · cases allocated : allocateSwapExecution intent spent gained minOut with
    | error _ => exact trivial
    | ok execution =>
      obtain ⟨accepted, rfl⟩ := allocateSwapExecution_ok.mp allocated
      exact executionOf_allocated accepted
  · cases applied : applySwaps pair handling funds.toCycleFunds (swaps.map PairSwap.toExecutedSwap) with
    | error _ => exact trivial
    | ok totals =>
      obtain ⟨each, nonneg, balance⟩ := applySwap_run (fundTotals_nonneg funds) applied
      refine ⟨List.forall_mem_map.mpr each, nonneg, fun token sided => ?_⟩
      rw [balance token sided, fundTotals_total]

-- half of a swap of principal and fees is filled, then a tax swap returns a unit
example : applySwaps ⟨1, 2, 1, 2, by decide, by decide⟩ .holdTokens ⟨100, 0, 10, 0⟩
    [⟨⟨.strategy, 1, 2, 60, 0, 50, 10⟩, 30, 90, 90⟩, ⟨⟨.feeTax, 1, 3, 5, 0, 0, 5⟩, 4, 7, 7⟩] = .ok ⟨75, 75, 6, 15⟩ := by
  rfl

end LpTerminal.SwapReplay
