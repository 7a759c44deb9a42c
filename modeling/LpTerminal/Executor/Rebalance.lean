import LpTerminal.Executor.Chain
import LpTerminal.Lib.Fallible
import Mathlib.Algebra.Group.TransferInstance
import Mathlib.Algebra.Group.Prod
import Mathlib.Tactic.Linarith

/-!
The swaps of a rebalance: what is planned from the collected funds, and how an execution divides
between principal and fees. A `bigint` is an integer whose division truncates.
-/

namespace LpTerminal.Rebalance

open Fallible

inductive FeeHandling
  | convertToQuote | reinvest | holdTokens
  deriving DecidableEq, Repr

/-- The tokens of the pool and their roles: the risk token is one side, the quote token the other. -/
structure Pair where
  token0 : Address
  token1 : Address
  riskToken : Address
  quoteToken : Address
  distinct : token0 ≠ token1
  roles : (riskToken = token0 ∧ quoteToken = token1) ∨ (riskToken = token1 ∧ quoteToken = token0)

structure CycleFunds where
  principal0 : ℤ
  principal1 : ℤ
  fee0 : ℤ
  fee1 : ℤ

inductive SwapPurpose
  | strategy | feeTax
  deriving DecidableEq, Repr

structure SwapIntent where
  purpose : SwapPurpose
  tokenIn : Address
  tokenOut : Address
  amountIn : ℤ
  quotedOut : ℤ
  principalIn : ℤ
  feeIn : ℤ

/-- The `index`-th quote of one planning call. -/
abbrev QuoteFn := (index : Nat) → (tokenIn tokenOut : Address) → (amountIn : ℤ) → Except ErrorCode Nat

def allocateSwapOutput (intent : SwapIntent) (actualOut : ℤ) : Except ErrorCode (ℤ × ℤ) := do
  demand (0 < intent.amountIn ∧ 0 ≤ actualOut) .swapAccounting
  let principalOut := (actualOut * intent.principalIn).tdiv intent.amountIn
  return (principalOut, actualOut - principalOut)

structure SwapExecutionAllocation where
  spent : ℤ
  gained : ℤ
  principalSpent : ℤ
  feeSpent : ℤ
  principalOut : ℤ
  feeOut : ℤ
  unspentPrincipal : ℤ
  unspentFee : ℤ

def Accepts (intent : SwapIntent) (spent gained minOut : ℤ) : Prop :=
  0 < intent.amountIn ∧ 0 ≤ intent.principalIn ∧ 0 ≤ intent.feeIn ∧
    intent.principalIn + intent.feeIn = intent.amountIn ∧ 0 < spent ∧ spent ≤ intent.amountIn ∧ minOut ≤ gained

instance {intent : SwapIntent} {spent gained minOut : ℤ} : Decidable (Accepts intent spent gained minOut) :=
  inferInstanceAs (Decidable (_ ∧ _ ∧ _ ∧ _ ∧ _ ∧ _ ∧ _))

def executionOf (intent : SwapIntent) (spent gained : ℤ) : SwapExecutionAllocation :=
  let principalSpent := (spent * intent.principalIn).tdiv intent.amountIn
  let feeSpent := spent - principalSpent
  let principalOut := (gained * principalSpent).tdiv spent
  { spent, gained, principalSpent, feeSpent, principalOut
    feeOut := gained - principalOut
    unspentPrincipal := intent.principalIn - principalSpent
    unspentFee := intent.feeIn - feeSpent }

def allocateSwapExecution (intent : SwapIntent) (spent gained minOut : ℤ) : Except ErrorCode SwapExecutionAllocation := do
  demand (Accepts intent spent gained minOut) .unsupportedToken
  return executionOf intent spent gained

theorem allocateSwapExecution_ok {intent : SwapIntent} {spent gained minOut : ℤ} {execution : SwapExecutionAllocation} :
    allocateSwapExecution intent spent gained minOut = .ok execution ↔
      Accepts intent spent gained minOut ∧ execution = executionOf intent spent gained := by
  constructor
  · intro allocated
    obtain ⟨_, accepted, returned⟩ := bind_ok allocated
    cases returned
    exact ⟨demand_ok.mp accepted, rfl⟩
  · rintro ⟨accepted, rfl⟩
    unfold allocateSwapExecution demand
    rw [if_pos accepted]
    rfl

section
variable {intent : SwapIntent} {spent gained minOut : ℤ}

section

variable (accepted : Accepts intent spent gained minOut)
include accepted

theorem principalSpent_le :
    (executionOf intent spent gained).principalSpent ≤ intent.principalIn := by
  obtain ⟨positive, principal, _, _, _, within, _⟩ := accepted
  change (spent * intent.principalIn).tdiv intent.amountIn ≤ intent.principalIn
  have scaled : spent * intent.principalIn ≤ intent.amountIn * intent.principalIn :=
    mul_le_mul_of_nonneg_right within principal
  calc (spent * intent.principalIn).tdiv intent.amountIn
      ≤ (intent.amountIn * intent.principalIn).tdiv intent.amountIn := Int.tdiv_le_tdiv positive scaled
    _ = intent.principalIn := Int.mul_tdiv_cancel_left _ positive.ne'

theorem principalSpent_nonneg :
    0 ≤ (executionOf intent spent gained).principalSpent := by
  obtain ⟨positive, principal, _, _, spends, _, _⟩ := accepted
  exact Int.tdiv_nonneg (mul_nonneg spends.le principal) positive.le

theorem feeSpent_le :
    (executionOf intent spent gained).feeSpent ≤ intent.feeIn := by
  obtain ⟨positive, principal, fee, parts, spends, within, _⟩ := accepted
  change spent - (spent * intent.principalIn).tdiv intent.amountIn ≤ intent.feeIn
  have unspent : 0 ≤ intent.amountIn - spent := by omega
  -- the unspent principal is at most the unspent amount, so the rest of the spending is covered by fees
  have key : intent.principalIn - (intent.amountIn - spent) ≤ (spent * intent.principalIn).tdiv intent.amountIn := by
    rw [Int.tdiv_eq_ediv_of_nonneg (mul_nonneg spends.le principal), Int.le_ediv_iff_mul_le positive]
    have bound : 0 ≤ (intent.amountIn - spent) * intent.feeIn := mul_nonneg unspent fee
    have total : intent.feeIn = intent.amountIn - intent.principalIn := by omega
    rw [total] at bound
    linarith [bound, mul_comm spent intent.principalIn]
  omega

theorem feeSpent_nonneg :
    0 ≤ (executionOf intent spent gained).feeSpent := by
  obtain ⟨positive, principal, fee, parts, spends, _, _⟩ := accepted
  change 0 ≤ spent - (spent * intent.principalIn).tdiv intent.amountIn
  have scaled : spent * intent.principalIn ≤ intent.amountIn * spent := by
    rw [mul_comm spent]
    exact mul_le_mul_of_nonneg_right (by omega) spends.le
  have most : (spent * intent.principalIn).tdiv intent.amountIn ≤ (intent.amountIn * spent).tdiv intent.amountIn :=
    Int.tdiv_le_tdiv positive scaled
  rw [Int.mul_tdiv_cancel_left _ positive.ne'] at most
  omega

theorem outputs_nonneg (gains : 0 ≤ gained) :
    0 ≤ (executionOf intent spent gained).principalOut ∧ 0 ≤ (executionOf intent spent gained).feeOut := by
  have spends := accepted.2.2.2.2.1
  have part := principalSpent_nonneg accepted
  have rest : (executionOf intent spent gained).principalSpent ≤ spent := by
    have fees := feeSpent_nonneg accepted
    change 0 ≤ spent - (executionOf intent spent gained).principalSpent at fees
    omega
  have scaled : gained * (executionOf intent spent gained).principalSpent ≤ spent * gained := by
    rw [mul_comm spent]
    exact mul_le_mul_of_nonneg_left rest gains
  have most := Int.tdiv_le_tdiv spends scaled
  rw [Int.mul_tdiv_cancel_left _ spends.ne'] at most
  refine ⟨Int.tdiv_nonneg (mul_nonneg gains part) spends.le, ?_⟩
  change 0 ≤ gained - (gained * (executionOf intent spent gained).principalSpent).tdiv spent
  omega

end

end

theorem executionOf_principal {intent : SwapIntent} {spent gained minOut : ℤ}
    (accepted : Accepts intent spent gained minOut) (noFee : intent.feeIn = 0) :
    (executionOf intent spent gained).feeSpent = 0 ∧ (executionOf intent spent gained).feeOut = 0 := by
  obtain ⟨positive, _, _, parts, spends, _, _⟩ := accepted
  have whole : intent.principalIn = intent.amountIn := by omega
  have all : (spent * intent.principalIn).tdiv intent.amountIn = spent := by
    rw [whole, Int.mul_tdiv_cancel _ positive.ne']
  have out : (gained * spent).tdiv spent = gained := Int.mul_tdiv_cancel _ spends.ne'
  simp only [executionOf, all, out, sub_self, and_self]

structure CycleTotals where
  lp0 : ℤ
  lp1 : ℤ
  held0 : ℤ
  held1 : ℤ

namespace CycleTotals

def parts : CycleTotals ≃ ℤ × ℤ × ℤ × ℤ where
  toFun totals := (totals.lp0, totals.lp1, totals.held0, totals.held1)
  invFun parts := ⟨parts.1, parts.2.1, parts.2.2.1, parts.2.2.2⟩
  left_inv _ := rfl
  right_inv _ := rfl

instance : AddCommGroup CycleTotals := parts.addCommGroup

variable {left right : CycleTotals}

@[simp] theorem add_lp0 : (left + right).lp0 = left.lp0 + right.lp0 := rfl
@[simp] theorem add_lp1 : (left + right).lp1 = left.lp1 + right.lp1 := rfl
@[simp] theorem add_held0 : (left + right).held0 = left.held0 + right.held0 := rfl
@[simp] theorem add_held1 : (left + right).held1 = left.held1 + right.held1 := rfl

def Nonneg (totals : CycleTotals) : Prop :=
  0 ≤ totals.lp0 ∧ 0 ≤ totals.lp1 ∧ 0 ≤ totals.held0 ∧ 0 ≤ totals.held1

instance {totals : CycleTotals} : Decidable totals.Nonneg := inferInstanceAs (Decidable (_ ∧ _ ∧ _ ∧ _))

end CycleTotals

/-- What an execution changes: a strategy swap moves both sides; of a fee-tax swap, whose input the totals never
held, only the unspent part comes back, to the side of its token. -/
def executionEffect (pair : Pair) (handling : FeeHandling) (intent : SwapIntent) (execution : SwapExecutionAllocation) :
    CycleTotals :=
  match intent.purpose with
  | .feeTax =>
    if intent.tokenIn = pair.token0 then
      if handling = .reinvest then ⟨execution.unspentFee, 0, 0, 0⟩ else ⟨0, 0, execution.unspentFee, 0⟩
    else
      if handling = .reinvest then ⟨0, execution.unspentFee, 0, 0⟩ else ⟨0, 0, 0, execution.unspentFee⟩
  | .strategy =>
    if intent.tokenIn = pair.token0 then
      ⟨-execution.principalSpent, execution.principalOut, -execution.feeSpent, execution.feeOut⟩
    else
      ⟨execution.principalOut, -execution.principalSpent, execution.feeOut, -execution.feeSpent⟩

def fundTotals (handling : FeeHandling) (funds : CycleFunds) : CycleTotals :=
  if handling = .reinvest then ⟨funds.principal0 + funds.fee0, funds.principal1 + funds.fee1, 0, 0⟩
  else ⟨funds.principal0, funds.principal1, funds.fee0, funds.fee1⟩

/-- The raw token amounts one unit of liquidity takes at the new range. -/
structure TargetUnits where
  amount0 : ℤ
  amount1 : ℤ

inductive SwapDirection
  | token0ToToken1 | token1ToToken0
  deriving DecidableEq, Repr

def chooseSwapDirection (balance0 balance1 : ℤ) (units : TargetUnits) : Option SwapDirection :=
  let left := balance1 * units.amount0
  let right := balance0 * units.amount1
  if left = right then none else if left < right then some .token0ToToken1 else some .token1ToToken0

def solveSwapInput (balance0 balance1 : ℤ) (units : TargetUnits) (quoteIn quoteOut : ℤ) (direction : SwapDirection) :
    Except ErrorCode ℤ := do
  demand (0 ≤ balance0 ∧ 0 ≤ balance1 ∧ 0 < units.amount0 ∧ 0 < units.amount1 ∧ 0 < quoteIn ∧ 0 < quoteOut) .config
  match direction with
  | .token0ToToken1 =>
    let excess := balance0 * units.amount1 - balance1 * units.amount0
    if excess ≤ 0 then return 0
    return min ((excess * quoteIn).tdiv (units.amount1 * quoteIn + quoteOut * units.amount0)) balance0
  | .token1ToToken0 =>
    let excess := balance1 * units.amount0 - balance0 * units.amount1
    if excess ≤ 0 then return 0
    return min ((excess * quoteIn).tdiv (units.amount0 * quoteIn + quoteOut * units.amount1)) balance1

section
variable (pair : Pair) (quote : QuoteFn)

def tokenIn (direction : SwapDirection) : Address :=
  if direction = .token0ToToken1 then pair.token0 else pair.token1

def tokenOut (direction : SwapDirection) : Address :=
  if direction = .token0ToToken1 then pair.token1 else pair.token0

def availableFor (balance0 balance1 : ℤ) (direction : SwapDirection) : ℤ :=
  if direction = .token0ToToken1 then balance0 else balance1

def drift (solved amountIn : ℤ) : ℤ :=
  if solved > amountIn then solved - amountIn else amountIn - solved

def balanceRounds (balance0 balance1 : ℤ) (units : TargetUnits) (direction : SwapDirection) (round : Nat) (amountIn : ℤ) :
    (left : Nat) → Except ErrorCode (Option ℤ)
  | 0 => return some amountIn
  | left + 1 => do
    let amountOut ← quote round (tokenIn pair direction) (tokenOut pair direction) amountIn
    demand (0 < amountOut) .slippage
    let solved ← solveSwapInput balance0 balance1 units amountIn amountOut direction
    if solved = 0 then return none
    if drift solved amountIn * 500 ≤ availableFor balance0 balance1 direction then return some solved
    balanceRounds balance0 balance1 units direction (round + 1) solved left

def planBalanceSwap (balance0 balance1 : ℤ) (units : TargetUnits) : Except ErrorCode (Option SwapIntent) := do
  match chooseSwapDirection balance0 balance1 units with
  | none => return none
  | some direction =>
    let seed := (availableFor balance0 balance1 direction).tdiv 2
    if seed = 0 then return none
    match ← balanceRounds pair quote balance0 balance1 units direction 0 seed 3 with
    | none => return none
    | some amountIn =>
      let amountOut ← quote 3 (tokenIn pair direction) (tokenOut pair direction) amountIn
      return some { purpose := .strategy, tokenIn := tokenIn pair direction, tokenOut := tokenOut pair direction, amountIn
                    quotedOut := amountOut, principalIn := amountIn, feeIn := 0 }

def addConversion (feeRisk : ℤ) (principal : Option SwapIntent) : List SwapIntent :=
  let conversion : SwapIntent :=
    { purpose := .strategy, tokenIn := pair.riskToken, tokenOut := pair.quoteToken, amountIn := feeRisk, quotedOut := 0
      principalIn := 0, feeIn := feeRisk }
  match principal with
  | none => [conversion]
  | some swap =>
    if swap.tokenIn = pair.riskToken ∧ swap.tokenOut = pair.quoteToken then
      [{ swap with amountIn := swap.amountIn + feeRisk, feeIn := swap.feeIn + feeRisk }]
    else [swap, conversion]

def quoteIntents (index : Nat) : List SwapIntent → Except ErrorCode (List SwapIntent)
  | [] => return []
  | intent :: rest => do
    let amountOut ← quote index intent.tokenIn intent.tokenOut intent.amountIn
    let later ← quoteIntents (index + 1) rest
    return { intent with quotedOut := amountOut } :: later

structure CyclePlan where
  totals : CycleTotals
  swaps : List SwapIntent

def riskFees (funds : CycleFunds) : ℤ :=
  if pair.riskToken = pair.token0 then funds.fee0 else funds.fee1

def planCycleSwaps (handling : FeeHandling) (units : TargetUnits) (funds : CycleFunds) : Except ErrorCode CyclePlan := do
  let totals := fundTotals handling funds
  let principal ← planBalanceSwap pair quote totals.lp0 totals.lp1 units
  let feeRisk := riskFees pair funds
  let intents := if handling = .convertToQuote ∧ 0 < feeRisk then addConversion pair feeRisk principal else principal.toList
  let swaps ← quoteIntents quote 4 intents
  return { totals, swaps }

end

def CycleTotals.lpOf (pair : Pair) (totals : CycleTotals) (token : Address) : ℤ :=
  if token = pair.token0 then totals.lp0 else totals.lp1

def CycleTotals.heldOf (pair : Pair) (totals : CycleTotals) (token : Address) : ℤ :=
  if token = pair.token0 then totals.held0 else totals.held1

/-- A swap between the two sides of the pair, which takes no fees where they are reinvested. -/
structure StrategyKind (pair : Pair) (handling : FeeHandling) (swap : SwapIntent) : Prop where
  purpose : swap.purpose = .strategy
  sides : (swap.tokenIn = pair.token0 ∧ swap.tokenOut = pair.token1) ∨
    (swap.tokenIn = pair.token1 ∧ swap.tokenOut = pair.token0)
  reinvested : handling = .reinvest → swap.feeIn = 0

structure StrategySwap (pair : Pair) (handling : FeeHandling) (totals : CycleTotals) (swap : SwapIntent) : Prop
    extends StrategyKind pair handling swap where
  principal : swap.principalIn ≤ totals.lpOf pair swap.tokenIn
  fee : swap.feeIn ≤ totals.heldOf pair swap.tokenIn

def StrategySwaps (pair : Pair) (handling : FeeHandling) (totals : CycleTotals) (swaps : List SwapIntent) : Prop :=
  (∀ swap ∈ swaps, StrategySwap pair handling totals swap) ∧
    swaps.Pairwise (fun first second => first.tokenIn ≠ second.tokenIn)

section
variable {pair : Pair} {handling : FeeHandling} {quote : QuoteFn} {units : TargetUnits} {funds : CycleFunds}
variable {totals : CycleTotals} {balance0 balance1 : ℤ} {direction : SwapDirection}

theorem solveSwapInput_le {quoteIn quoteOut solved : ℤ}
    (solves : solveSwapInput balance0 balance1 units quoteIn quoteOut direction = .ok solved) :
    solved ≤ availableFor balance0 balance1 direction := by
  unfold solveSwapInput at solves
  obtain ⟨_, checked, solves⟩ := bind_ok solves
  obtain ⟨enough0, enough1, _⟩ := demand_ok.mp checked
  cases direction with
  | token0ToToken1 =>
    dsimp only at solves
    split at solves <;> cases solves
    · exact enough0
    · exact min_le_right _ _
  | token1ToToken0 =>
    dsimp only at solves
    split at solves <;> cases solves
    · exact enough1
    · exact min_le_right _ _

theorem balanceRounds_le {round left : Nat} {amountIn planned : ℤ}
    (within : left = 0 → amountIn ≤ availableFor balance0 balance1 direction)
    (rounds : balanceRounds pair quote balance0 balance1 units direction round amountIn left = .ok (some planned)) :
    planned ≤ availableFor balance0 balance1 direction := by
  induction left generalizing round amountIn with
  | zero =>
    cases rounds
    exact within rfl
  | succ left ih =>
    unfold balanceRounds at rounds
    obtain ⟨amountOut, _, rounds⟩ := bind_ok rounds
    obtain ⟨_, _, rounds⟩ := bind_ok rounds
    obtain ⟨solved, solves, rounds⟩ := bind_ok rounds
    have bound := solveSwapInput_le solves
    split at rounds
    · cases rounds
    · split at rounds
      · cases rounds
        exact bound
      · exact ih (fun _ => bound) rounds

theorem tokens_sides (pair : Pair) (direction : SwapDirection) :
    (tokenIn pair direction = pair.token0 ∧ tokenOut pair direction = pair.token1) ∨
      (tokenIn pair direction = pair.token1 ∧ tokenOut pair direction = pair.token0) := by
  cases direction with
  | token0ToToken1 => exact Or.inl ⟨rfl, rfl⟩
  | token1ToToken0 => exact Or.inr ⟨rfl, rfl⟩

theorem lpOf_tokenIn : totals.lpOf pair (tokenIn pair direction) = availableFor totals.lp0 totals.lp1 direction := by
  cases direction with
  | token0ToToken1 => exact if_pos rfl
  | token1ToToken0 => exact if_neg pair.distinct.symm

theorem planBalanceSwap_spec {swap : SwapIntent}
    (planned : planBalanceSwap pair quote totals.lp0 totals.lp1 units = .ok (some swap)) :
    swap.purpose = .strategy ∧ swap.feeIn = 0 ∧ swap.principalIn ≤ totals.lpOf pair swap.tokenIn ∧
      ((swap.tokenIn = pair.token0 ∧ swap.tokenOut = pair.token1) ∨
        (swap.tokenIn = pair.token1 ∧ swap.tokenOut = pair.token0)) := by
  unfold planBalanceSwap at planned
  split at planned
  · cases planned
  · rename_i direction _
    dsimp only at planned
    split at planned
    · cases planned
    · obtain ⟨found, rounds, planned⟩ := bind_ok planned
      cases found with
      | none => cases planned
      | some amountIn =>
        obtain ⟨amountOut, _, planned⟩ := bind_ok planned
        cases planned
        have within := balanceRounds_le (fun impossible => absurd impossible (by decide)) rounds
        rw [← @lpOf_tokenIn pair] at within
        exact ⟨rfl, rfl, within, tokens_sides pair direction⟩

variable {intents swaps : List SwapIntent}

theorem quoteIntents_each {kept : SwapIntent → Prop} {index : Nat}
    (stable : ∀ (intent : SwapIntent) (quotedOut : ℤ), kept intent → kept { intent with quotedOut })
    (quoted : quoteIntents quote index intents = .ok swaps) (each : ∀ intent ∈ intents, kept intent) : ∀ swap ∈ swaps, kept swap := by
  induction intents generalizing index swaps with
  | nil =>
    cases quoted
    exact each
  | cons intent rest ih =>
    unfold quoteIntents at quoted
    obtain ⟨amountOut, _, quoted⟩ := bind_ok quoted
    obtain ⟨later, tail, quoted⟩ := bind_ok quoted
    cases quoted
    obtain ⟨first, each⟩ := List.forall_mem_cons.mp each
    exact List.forall_mem_cons.mpr ⟨stable intent amountOut first, ih tail each⟩

theorem quoteIntents_kind {index : Nat} (quoted : quoteIntents quote index intents = .ok swaps)
    (kind : ∀ swap ∈ intents, StrategyKind pair handling swap) : ∀ swap ∈ swaps, StrategyKind pair handling swap :=
  quoteIntents_each (fun _ _ kind => ⟨kind.purpose, kind.sides, kind.reinvested⟩) quoted kind

theorem planCycleSwaps_kind {plan : CyclePlan} (planned : planCycleSwaps pair quote handling units funds = .ok plan) :
    plan.totals = fundTotals handling funds ∧ ∀ swap ∈ plan.swaps, StrategyKind pair handling swap := by
  unfold planCycleSwaps at planned
  obtain ⟨principal, balance, planned⟩ := bind_ok planned
  obtain ⟨swaps, quoted, planned⟩ := bind_ok planned
  cases planned
  refine ⟨rfl, quoteIntents_kind quoted ?_⟩
  have alone : ∀ swap, principal = some swap → StrategyKind pair handling swap := by
    rintro swap rfl
    obtain ⟨purpose, noFee, _, sides⟩ := planBalanceSwap_spec balance
    exact ⟨purpose, sides, fun _ => noFee⟩
  split
  · rename_i converts
    have apart : handling ≠ .reinvest := by rw [converts.1]; decide
    unfold addConversion
    cases principal with
    | none => exact List.forall_mem_singleton.mpr ⟨rfl, pair.roles, fun reinvest => absurd reinvest apart⟩
    | some swap =>
      have kind := alone swap rfl
      dsimp only
      split
      · exact List.forall_mem_singleton.mpr ⟨kind.purpose, kind.sides, fun reinvest => absurd reinvest apart⟩
      · exact List.forall_mem_cons.mpr ⟨kind, List.forall_mem_singleton.mpr ⟨rfl, pair.roles, fun reinvest => absurd reinvest apart⟩⟩
  · intro swap member
    exact alone swap (Option.mem_toList.mp member)

theorem heldOf_nonneg (nonneg : totals.Nonneg) (token : Address) : 0 ≤ totals.heldOf pair token := by
  unfold CycleTotals.heldOf
  split
  · exact nonneg.2.2.1
  · exact nonneg.2.2.2

theorem quoteIntents_keeps {index : Nat}
    (quoted : quoteIntents quote index intents = .ok swaps)
    (offered : StrategySwaps pair handling totals intents) : StrategySwaps pair handling totals swaps ∧
      swaps.map SwapIntent.tokenIn = intents.map SwapIntent.tokenIn := by
  induction intents generalizing index swaps with
  | nil => cases quoted; exact ⟨offered, rfl⟩
  | cons intent rest ih =>
    unfold quoteIntents at quoted
    obtain ⟨amountOut, _, quoted⟩ := bind_ok quoted
    obtain ⟨later, tail, quoted⟩ := bind_ok quoted
    cases quoted
    obtain ⟨each, apart⟩ := offered
    obtain ⟨ahead, apart⟩ := List.pairwise_cons.mp apart
    obtain ⟨kept, same⟩ := ih tail ⟨fun swap member => each swap (List.mem_cons_of_mem _ member), apart⟩
    refine ⟨⟨?_, List.pairwise_cons.mpr ⟨?_, kept.2⟩⟩, by rw [List.map_cons, List.map_cons, same]⟩
    · intro swap member
      rcases List.mem_cons.mp member with rfl | member
      · have offers := each intent List.mem_cons_self
        exact ⟨⟨offers.purpose, offers.sides, offers.reinvested⟩, offers.principal, offers.fee⟩
      · exact kept.1 swap member
    · intro swap member
      have sameTokens : swap.tokenIn ∈ rest.map SwapIntent.tokenIn := same ▸ List.mem_map_of_mem member
      obtain ⟨other, otherIn, tokens⟩ := List.mem_map.mp sameTokens
      rw [← tokens]
      exact ahead other otherIn

theorem riskFees_held (notReinvest : handling ≠ .reinvest) :
    (fundTotals handling funds).heldOf pair pair.riskToken = riskFees pair funds := by
  unfold CycleTotals.heldOf riskFees fundTotals
  rw [if_neg notReinvest]

theorem planCycleSwaps_spec {plan : CyclePlan} (nonneg : (fundTotals handling funds).Nonneg)
    (planned : planCycleSwaps pair quote handling units funds = .ok plan) :
    plan.totals = fundTotals handling funds ∧ StrategySwaps pair handling plan.totals plan.swaps := by
  unfold planCycleSwaps at planned
  obtain ⟨principal, balance, planned⟩ := bind_ok planned
  obtain ⟨swaps, quoted, planned⟩ := bind_ok planned
  cases planned
  refine ⟨rfl, (quoteIntents_keeps quoted ?_).1⟩
  have alone : ∀ swap, principal = some swap → StrategySwap pair handling (fundTotals handling funds) swap := by
    rintro swap rfl
    obtain ⟨purpose, noFee, within, sides⟩ := planBalanceSwap_spec balance
    exact ⟨⟨purpose, sides, fun _ => noFee⟩, within, by rw [noFee]; exact heldOf_nonneg nonneg _⟩
  by_cases converts : handling = .convertToQuote ∧ 0 < riskFees pair funds
  · rw [if_pos converts]
    have apart : handling ≠ .reinvest := by rw [converts.1]; decide
    have held := @riskFees_held pair handling funds apart
    have conversion : ∀ amount, StrategySwap pair handling (fundTotals handling funds)
        { purpose := .strategy, tokenIn := pair.riskToken, tokenOut := pair.quoteToken, amountIn := amount
          quotedOut := 0, principalIn := 0, feeIn := riskFees pair funds } := by
      intro amount
      refine ⟨⟨rfl, pair.roles, fun reinvest => absurd reinvest apart⟩, ?_, held.ge⟩
      unfold CycleTotals.lpOf
      split
      · exact nonneg.1
      · exact nonneg.2.1
    unfold addConversion
    cases principal with
    | none => exact ⟨by simpa using conversion _, List.pairwise_singleton _ _⟩
    | some swap =>
      have offers := alone swap rfl
      dsimp only
      split
      · rename_i same
        have noFee := (planBalanceSwap_spec balance).2.1
        refine ⟨?_, List.pairwise_singleton _ _⟩
        intro merged member
        cases List.mem_singleton.mp member
        refine ⟨⟨offers.purpose, offers.sides, fun reinvest => absurd reinvest apart⟩, offers.principal, ?_⟩
        change swap.feeIn + riskFees pair funds ≤ _
        rw [noFee, zero_add, same.1]
        exact held.ge
      · rename_i different
        refine ⟨?_, ?_⟩
        · intro each member
          rcases List.mem_pair.mp member with rfl | rfl
          · exact offers
          · exact conversion _
        · refine List.pairwise_pair.mpr fun same => different ⟨same, ?_⟩
          -- equal inputs of two swaps of the pair have equal outputs
          rcases offers.sides with ⟨input, output⟩ | ⟨input, output⟩ <;>
            rcases pair.roles with ⟨risk, quoteSide⟩ | ⟨risk, quoteSide⟩
          · rw [output, quoteSide]
          · exact absurd (by rw [← input, same, risk]) pair.distinct
          · exact absurd (by rw [← input, same, risk]) pair.distinct.symm
          · rw [output, quoteSide]
  · rw [if_neg converts]
    cases principal with
    | none => exact ⟨fun _ member => absurd member List.not_mem_nil, List.Pairwise.nil⟩
    | some swap => exact ⟨by simpa using alone swap rfl, List.pairwise_singleton _ _⟩

end

end LpTerminal.Rebalance
