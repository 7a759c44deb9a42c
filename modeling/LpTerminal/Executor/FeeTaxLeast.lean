import LpTerminal.Executor.FeeTax
import Mathlib.Data.Rat.Floor

/-!
The size of the income tax on the two networks: the least part of one income leg that is worth the tenth of the
income, and what a stored plan is when it is read again.
-/

namespace LpTerminal.FeeTax

open Fallible Rebalance

inductive StrategyChain
  | robinhood | bsc

def StrategyChain.chainId : StrategyChain → Nat
  | .robinhood => 4663
  | .bsc => 56

def StrategyChain.settlementDecimals : StrategyChain → Nat
  | .robinhood => 6
  | .bsc => 18

def feeTaxThresholdUsdg : ℤ := 1000000

def StrategyChain.threshold (chain : StrategyChain) : ℤ :=
  if chain.chainId = 4663 then feeTaxThresholdUsdg else 10 ^ chain.settlementDecimals

structure ChainMarket extends Market where
  chain : StrategyChain
  agrees : threshold = chain.threshold

theorem ChainMarket.threshold_ge (market : ChainMarket) : 1000000 ≤ market.threshold := by
  rw [market.agrees]
  cases market.chain <;> decide

abbrev Answers := (index : Nat) → (tokenIn tokenOut : Address) → (amountIn : ℤ) → Nat

def answering (answers : Answers) : QuoteFn := fun index tokenIn tokenOut amountIn => .ok (answers index tokenIn tokenOut amountIn)

section

variable (market : Market) (answers : Answers)

def incomeValue (index : Nat) (token : Address) (amount : ℤ) : ℤ :=
  if amount = 0 then 0 else if token = market.settlementToken then amount else answers index token market.settlementToken amount

theorem valueInUsdg_answering (index : Nat) (token : Address) (amount : ℤ) :
    valueInUsdg market (answering answers) index token amount = .ok (incomeValue market answers index token amount) := by
  unfold valueInUsdg incomeValue
  split
  · rfl
  · split <;> rfl

def incomeLeg (kind : TaxSource) (token : Address) (amount : ℤ) : IncomeLeg where
  kind := kind
  token := token
  amount := amount
  value := incomeValue market answers (match kind with | .fee0 => 0 | .fee1 => 1 | .reward => 2) token amount

end

variable {market : Market} {answers : Answers} {source : IncomeLeg} {target total : ℤ}

/-- A leg has a value only with an amount, which is its value in the settlement token. -/
structure Valued (market : Market) (leg : IncomeLeg) : Prop where
  amount : 0 ≤ leg.amount
  value : 0 ≤ leg.value
  none : leg.amount = 0 → leg.value = 0
  settles : leg.token = market.settlementToken → leg.value = leg.amount

theorem incomeLeg_valued {kind : TaxSource} {token : Address} {amount : ℤ} (nonneg : 0 ≤ amount) :
    Valued market (incomeLeg market answers kind token amount) := by
  refine ⟨nonneg, ?_, fun none => if_pos none, fun settles => ?_⟩
  · unfold incomeLeg incomeValue
    dsimp only
    split
    · exact le_rfl
    · split
      · exact nonneg
      · exact Int.natCast_nonneg _
  · unfold incomeLeg incomeValue at *
    dsimp only at *
    rw [if_pos settles]
    split
    · rename_i none
      exact none.symm
    · rfl

def share (source : IncomeLeg) (part : ℤ) : ℚ := part * source.value / source.amount

def taxTarget (total : ℤ) : ℤ := ⌊(total : ℚ) * feeTaxBps / 10000⌋

theorem taxTarget_eq (nonneg : 0 ≤ total) : taxTarget total = (total * feeTaxBps).tdiv 10000 := by
  have floor := Rat.floor_intCast_div_natCast (total * feeTaxBps) 10000
  unfold taxTarget
  rw [Int.tdiv_eq_ediv_of_nonneg (mul_nonneg nonneg (by decide))]
  push_cast at floor
  exact floor

theorem share_ge (amount : 0 < source.amount) (part : ℤ) : (target : ℚ) ≤ share source part ↔ source.amount * target ≤ part * source.value := by
  unfold share
  rw [le_div_iff₀ (Int.cast_pos.mpr amount), mul_comm (target : ℚ)]
  exact_mod_cast Iff.rfl

theorem taxOn_least (valued : Valued market source) (amount : 0 < source.amount) (value : 0 < source.value) (positive : 0 < target) :
    IsLeast {part : ℤ | (target : ℚ) ≤ share source part} (taxOn market target source) := by
  unfold taxOn IsLeast lowerBounds
  simp only [Set.mem_ofPred_eq, share_ge amount]
  split
  · rename_i settles
    rw [valued.settles settles]
    refine ⟨(mul_comm _ _).le, fun part reaches => ?_⟩
    rw [mul_comm part] at reaches
    exact le_of_mul_le_mul_left reaches amount
  · have numerator : 0 ≤ source.amount * target := mul_nonneg amount.le positive.le
    rw [Int.tdiv_eq_ediv_of_nonneg (by omega)]
    have divided := Int.lt_ediv_add_one_mul_self (source.amount * target + source.value - 1) value
    refine ⟨?_, fun part reaches => ?_⟩
    · rw [add_mul, one_mul] at divided
      omega
    · refine Int.lt_add_one_iff.mp ((Int.ediv_lt_iff_lt_mul value).mpr ?_)
      rw [add_mul, one_mul]
      omega

def FeeTaxPlan.tax (plan : FeeTaxPlan) : TaxSource → ℤ
  | .fee0 => plan.tax0
  | .fee1 => plan.tax1
  | .reward => plan.rewardTax

/-- No tax up to the threshold; above it, the least part of one leg that is worth the target, within the leg. -/
structure Taxed (market : Market) (fee0 fee1 reward : IncomeLeg) (plan : FeeTaxPlan) : Prop where
  total : plan.totalIncomeUsdg = fee0.value + fee1.value + reward.value
  single : Single plan.tax0 plan.tax1 plan.rewardTax
  untaxed : plan.totalIncomeUsdg ≤ market.threshold → ∀ kind, plan.tax kind = 0
  taxed : market.threshold < plan.totalIncomeUsdg → ∃ source ∈ [fee0, fee1, reward],
    IsLeast {part : ℤ | (taxTarget plan.totalIncomeUsdg : ℚ) ≤ share source part} (plan.tax source.kind) ∧
      plan.tax source.kind ≤ source.amount ∧ ∀ kind, kind ≠ source.kind → plan.tax kind = 0

theorem taxTarget_share (large : 1000000 < total) : 0 < taxTarget total ∧ 3 * taxTarget total ≤ total := by
  rw [taxTarget_eq (by omega), Int.tdiv_eq_ediv_of_nonneg (mul_nonneg (by omega) (by decide))]
  unfold feeTaxBps
  omega

theorem demand_refused {condition : Prop} [Decidable condition] {ε α : Type} {e : ε} {f : Unit → Except ε α} (fails : ¬ condition) :
    (demand condition e >>= f) = .error e := by
  unfold demand
  rw [if_neg fails]
  rfl

section

variable (market : Market) (quote : QuoteFn)

def planLegs (fee0 fee1 reward : IncomeLeg) : Except ErrorCode FeeTaxPlan := do
  let totalIncomeUsdg := fee0.value + fee1.value + reward.value
  if totalIncomeUsdg ≤ market.threshold then
    return { applied := false, totalIncomeUsdg, tax0 := 0, tax1 := 0, rewardTax := 0, fee0AfterTax := fee0.amount
             fee1AfterTax := fee1.amount, rewardAfterTax := reward.amount, retainedUsdg := 0, swaps := []
             single := untaxed }
  else
    let targetUsdg := (totalIncomeUsdg * feeTaxBps).tdiv 10000
    let source := selectSource market targetUsdg fee0 fee1 reward
    demand (0 < source.value ∧ 0 < source.amount ∧ 0 < targetUsdg) .feeTaxAmount
    let rawTax := taxOn market targetUsdg source
    let tax0 := taxOf .fee0 source rawTax
    let tax1 := taxOf .fee1 source rawTax
    let rewardTax := taxOf .reward source rawTax
    let legs := [(fee0.token, tax0), (fee1.token, tax1), (reward.token, rewardTax)]
    let swaps ← taxSwaps market quote 3 legs
    return { applied := true, totalIncomeUsdg, tax0, tax1, rewardTax, fee0AfterTax := fee0.amount - tax0
             fee1AfterTax := fee1.amount - tax1, rewardAfterTax := reward.amount - rewardTax
             retainedUsdg := retainedIn market legs, swaps, single := taxOf_single source rawTax }

end

theorem planFeeTax_legs {token0 token1 rewardToken : Address} {fee0 fee1 rewardAmount : ℤ} :
    planFeeTax market (answering answers) token0 token1 fee0 fee1 rewardToken rewardAmount = (do
      demand (0 ≤ fee0 ∧ 0 ≤ fee1 ∧ 0 ≤ rewardAmount) .feeTaxAmount
      planLegs market (answering answers) (incomeLeg market answers .fee0 token0 fee0) (incomeLeg market answers .fee1 token1 fee1)
        (incomeLeg market answers .reward rewardToken rewardAmount)) := by
  unfold planFeeTax
  simp only [valueInUsdg_answering, ok_bind]
  rfl

theorem taxOf_plan {plan : FeeTaxPlan} {rawTax : ℤ} (tax0 : plan.tax0 = taxOf .fee0 source rawTax)
    (tax1 : plan.tax1 = taxOf .fee1 source rawTax) (reward : plan.rewardTax = taxOf .reward source rawTax) (kind : TaxSource) :
    plan.tax kind = if source.kind = kind then rawTax else 0 := by
  cases kind with
  | fee0 => exact tax0
  | fee1 => exact tax1
  | reward => exact reward

theorem planLegs_taxed {fee0 fee1 reward : IncomeLeg} (valued : ∀ leg ∈ [fee0, fee1, reward], Valued market leg)
    (threshold : 1000000 ≤ market.threshold) :
    ∃ plan, planLegs market (answering answers) fee0 fee1 reward = .ok plan ∧ Taxed market fee0 fee1 reward plan := by
  unfold planLegs
  dsimp only
  split
  · rename_i small
    refine ⟨_, rfl, rfl, Or.inl ⟨rfl, rfl⟩, fun _ kind => ?_, fun above => absurd small (not_le.mpr above)⟩
    cases kind <;> rfl
  · rename_i large
    obtain ⟨positive, third⟩ := @taxTarget_share (fee0.value + fee1.value + reward.value) (by omega)
    rw [← taxTarget_eq (by omega)]
    obtain ⟨member, worth⟩ := @selectSource_spec market _ fee0 fee1 reward third
    generalize chosen : selectSource market (taxTarget (fee0.value + fee1.value + reward.value)) fee0 fee1 reward = source at *
    have value : 0 < source.value := positive.trans_le worth
    have amount : 0 < source.amount := by
      refine lt_of_le_of_ne (valued source member).amount fun none => ?_
      have worthless := (valued source member).none none.symm
      omega
    rw [demand_bind ⟨value, amount, positive⟩]
    obtain ⟨swaps, quoted⟩ := @taxSwaps_answered market answers 3 [(fee0.token, taxOf .fee0 source (taxOn market _ source)),
      (fee1.token, taxOf .fee1 source (taxOn market _ source)), (reward.token, taxOf .reward source (taxOn market _ source))]
    rw [show answering answers = fun index tokenIn tokenOut amountIn => .ok (answers index tokenIn tokenOut amountIn) from rfl, quoted, ok_bind]
    refine ⟨_, rfl, rfl, taxOf_single _ _, fun small => absurd small large, fun _ => ⟨source, member, ?_, ?_, fun kind other => ?_⟩⟩
    · rw [taxOf_plan rfl rfl rfl, if_pos rfl]
      exact taxOn_least (valued source member) amount value positive
    · rw [taxOf_plan rfl rfl rfl, if_pos rfl]
      exact (taxOn_within (valued source member).settles positive amount worth).2
    · rw [taxOf_plan rfl rfl rfl, if_neg (Ne.symm other)]

theorem planFeeTax_taxed {chain : ChainMarket} {token0 token1 rewardToken : Address} {fee0 fee1 rewardAmount : ℤ}
    (nonneg : 0 ≤ fee0 ∧ 0 ≤ fee1 ∧ 0 ≤ rewardAmount) :
    ∃ plan, planFeeTax chain.toMarket (answering answers) token0 token1 fee0 fee1 rewardToken rewardAmount = .ok plan ∧
      Taxed chain.toMarket (incomeLeg chain.toMarket answers .fee0 token0 fee0) (incomeLeg chain.toMarket answers .fee1 token1 fee1)
        (incomeLeg chain.toMarket answers .reward rewardToken rewardAmount) plan := by
  rw [planFeeTax_legs, demand_bind nonneg]
  apply planLegs_taxed _ chain.threshold_ge
  intro leg member
  simp only [List.mem_cons, List.not_mem_nil, or_false] at member
  rcases member with rfl | rfl | rfl
  · exact incomeLeg_valued nonneg.1
  · exact incomeLeg_valued nonneg.2.1
  · exact incomeLeg_valued nonneg.2.2

def FeeTaxContext.tax (context : FeeTaxContext) : TaxSource → ℤ
  | .fee0 => context.tax0
  | .fee1 => context.tax1
  | .reward => context.rewardTax

def swapInput (swap : SwapIntent) : SwapIntent :=
  { swap with quotedOut := 0 }

structure PlanOf (market : Market) (pair : Pair) (fee0 fee1 rewardQuote : ℤ) (context : FeeTaxContext) (plan : FeeTaxPlan) : Prop where
  covered : context.tax0 ≤ fee0 ∧ context.tax1 ≤ fee1 ∧ context.rewardTax ≤ rewardQuote
  taxes : ∀ kind, plan.tax kind = context.tax kind
  after : TaxesStored plan context fee0 fee1 rewardQuote
  retained : plan.retainedUsdg = context.retainedUsdg
  inputs : plan.swaps.map swapInput = (taxedLegs market (context.legs pair)).map fun leg => taxSwap market leg.1 leg.2 0

/-- The taxes, the amounts after tax, the retained amount and the inputs of the swaps are the same. -/
structure SameTax (first second : FeeTaxPlan) : Prop where
  taxes : ∀ kind, second.tax kind = first.tax kind
  fee0 : second.fee0AfterTax = first.fee0AfterTax
  fee1 : second.fee1AfterTax = first.fee1AfterTax
  reward : second.rewardAfterTax = first.rewardAfterTax
  retained : second.retainedUsdg = first.retainedUsdg
  inputs : second.swaps.map swapInput = first.swaps.map swapInput

section

variable {quote : QuoteFn} {pair : Pair} {fee0 fee1 rewardQuote : ℤ} {context : FeeTaxContext} {plan : FeeTaxPlan}

theorem PlanOf.same {other : FeeTaxPlan} (first : PlanOf market pair fee0 fee1 rewardQuote context plan)
    (second : PlanOf market pair fee0 fee1 rewardQuote context other) : SameTax plan other where
  taxes kind := (second.taxes kind).trans (first.taxes kind).symm
  fee0 := second.after.fee0.trans first.after.fee0.symm
  fee1 := second.after.fee1.trans first.after.fee1.symm
  reward := second.after.reward.trans first.after.reward.symm
  retained := second.retained.trans first.retained.symm
  inputs := second.inputs.trans first.inputs.symm

theorem taxSwaps_input {index : Nat} {legs : List (Address × ℤ)} {swaps : List SwapIntent}
    (planned : taxSwaps market quote index legs = .ok swaps) :
    swaps.map swapInput = (taxedLegs market legs).map fun leg => taxSwap market leg.1 leg.2 0 := by
  rw [← taxSwaps_legs planned, List.map_map]
  apply List.map_congr_left
  intro swap member
  obtain ⟨purpose, output, principal, fee⟩ := (taxSwaps_spec planned).1 swap member
  obtain ⟨_, tokenIn, _, amountIn, _, _, _⟩ := swap
  dsimp only at purpose output principal fee
  subst purpose output principal fee
  rfl

theorem storedFeeTax_planOf (made : storedFeeTax market quote context pair fee0 fee1 rewardQuote = .ok plan) :
    PlanOf market pair fee0 fee1 rewardQuote context plan := by
  have after := (storedFeeTax_quoted made).2
  unfold storedFeeTax at made
  obtain ⟨_, covered, made⟩ := bind_ok made
  obtain ⟨swaps, quoted, made⟩ := bind_ok made
  cases made
  refine ⟨demand_ok.mp covered, fun kind => ?_, after, rfl, taxSwaps_input quoted⟩
  cases kind <;> rfl

theorem planFeeTax_planOf (planned : planFeeTax market quote pair.token0 pair.token1 fee0 fee1 pair.quoteToken rewardQuote = .ok plan) :
    PlanOf market pair fee0 fee1 rewardQuote plan.context plan := by
  have within := planFeeTax_within planned
  obtain ⟨quoted, after⟩ := planFeeTax_quoted planned
  exact ⟨⟨within.tax0.2, within.tax1.2, within.reward.2⟩, fun kind => by cases kind <;> rfl, after, rfl, taxSwaps_input quoted⟩

theorem ensureFeeTaxPlan_planOf {stored : Option FeeTaxContext} {swapped : Bool}
    (ensured : ensureFeeTaxPlan market quote stored swapped pair fee0 fee1 rewardQuote = .ok (plan, context)) :
    PlanOf market pair fee0 fee1 rewardQuote context plan ∧
      (context.selectionVersion = some feeTaxSelectionVersion ∨ swapped = true) := by
  rcases ensureFeeTaxPlan_cases ensured with ⟨planned, rfl, _⟩ | ⟨made, _, kept⟩
  · exact ⟨planFeeTax_planOf planned, Or.inl rfl⟩
  · exact ⟨storedFeeTax_planOf made, kept⟩

theorem ensureFeeTaxPlan_again {later : Answers} {swapped : Bool} (planOf : PlanOf market pair fee0 fee1 rewardQuote context plan)
    (kept : context.selectionVersion = some feeTaxSelectionVersion ∨ swapped = true) :
    ∃ reloaded, ensureFeeTaxPlan market (answering later) (some context) swapped pair fee0 fee1 rewardQuote = .ok (reloaded, context) ∧
      SameTax plan reloaded := by
  have current : ¬(context.selectionVersion ≠ some feeTaxSelectionVersion ∧ swapped = false) := by
    rintro ⟨outdated, none⟩
    rcases kept with version | confirmed
    · exact outdated version
    · rw [confirmed] at none
      cases none
  obtain ⟨reloaded, made⟩ := storedFeeTax_covered later planOf.covered
  refine ⟨reloaded, ?_, planOf.same (storedFeeTax_planOf made)⟩
  unfold ensureFeeTaxPlan answering
  dsimp only
  rw [if_neg current, made]
  rfl

end

/-- The plan fails on a negative income only and has the least sufficient tax of one leg, and a plan that was stored
is the plan that is read again. -/
theorem planFeeTax_exact (chain : ChainMarket) (answers : Answers) (fee0 fee1 rewardAmount : ℤ) :
    (∀ token0 token1 rewardToken, match planFeeTax chain.toMarket (answering answers) token0 token1 fee0 fee1 rewardToken rewardAmount with
      | .error code => code = .feeTaxAmount ∧ (fee0 < 0 ∨ fee1 < 0 ∨ rewardAmount < 0)
      | .ok plan => 0 ≤ fee0 ∧ 0 ≤ fee1 ∧ 0 ≤ rewardAmount ∧
        Taxed chain.toMarket (incomeLeg chain.toMarket answers .fee0 token0 fee0) (incomeLeg chain.toMarket answers .fee1 token1 fee1)
          (incomeLeg chain.toMarket answers .reward rewardToken rewardAmount) plan) ∧
    ∀ (stored : Option FeeTaxContext) (swapped confirmed : Bool) (pair : Pair) (later : Answers),
      match ensureFeeTaxPlan chain.toMarket (answering answers) stored swapped pair fee0 fee1 rewardAmount with
      | .error _ => True
      | .ok (plan, context) => ∃ reloaded, ensureFeeTaxPlan chain.toMarket (answering later) (some context) (swapped || confirmed) pair
          fee0 fee1 rewardAmount = .ok (reloaded, context) ∧ SameTax plan reloaded := by
  refine ⟨fun token0 token1 rewardToken => ?_, fun stored swapped confirmed pair later => ?_⟩
  · by_cases nonneg : 0 ≤ fee0 ∧ 0 ≤ fee1 ∧ 0 ≤ rewardAmount
    · obtain ⟨plan, planned, taxed⟩ := @planFeeTax_taxed answers chain token0 token1 rewardToken _ _ _ nonneg
      rw [planned]
      exact ⟨nonneg.1, nonneg.2.1, nonneg.2.2, taxed⟩
    · rw [planFeeTax_legs, demand_refused nonneg]
      exact ⟨rfl, by omega⟩
  · cases ensured : ensureFeeTaxPlan chain.toMarket (answering answers) stored swapped pair fee0 fee1 rewardAmount with
    | error _ => exact trivial
    | ok made =>
      obtain ⟨planOf, kept⟩ := ensureFeeTaxPlan_planOf ensured
      apply ensureFeeTaxPlan_again planOf
      rcases kept with version | swap
      · exact Or.inl version
      · exact Or.inr (by rw [swap]; rfl)

end LpTerminal.FeeTax
