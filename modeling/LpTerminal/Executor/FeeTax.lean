import LpTerminal.Executor.Rebalance

/-!
The income retained from a cycle: one leg of the income funds it, in the settlement token as it is or
through one fee-tax swap. `totalFeeUsdg` is `totalIncomeUsdg` under its old name.
-/

namespace LpTerminal.FeeTax

open Fallible Rebalance

/-- The network's tokens, and the income in settlement units that is not taxed. -/
structure Market where
  settlementToken : Address
  wrappedNative : Address
  threshold : ℤ
  notNative : settlementToken ≠ zeroAddress
  nonneg : 0 ≤ threshold

def feeTaxBps : ℤ := 1000

def feeTaxSelectionVersion : Nat := 2

def Single (tax0 tax1 rewardTax : ℤ) : Prop :=
  (tax1 = 0 ∧ rewardTax = 0) ∨ (tax0 = 0 ∧ rewardTax = 0) ∨ (tax0 = 0 ∧ tax1 = 0)

theorem untaxed : Single 0 0 0 := Or.inl ⟨rfl, rfl⟩

structure FeeTaxPlan where
  applied : Bool
  totalIncomeUsdg : ℤ
  tax0 : ℤ
  tax1 : ℤ
  rewardTax : ℤ
  fee0AfterTax : ℤ
  fee1AfterTax : ℤ
  rewardAfterTax : ℤ
  retainedUsdg : ℤ
  swaps : List SwapIntent
  single : Single tax0 tax1 rewardTax

/-- What the job keeps of its plan: `fee_tax`. Contexts older than the selection policy carry no version. -/
structure FeeTaxContext where
  selectionVersion : Option Nat
  applied : Bool
  totalIncomeUsdg : ℤ
  tax0 : ℤ
  tax1 : ℤ
  rewardTax : ℤ
  retainedUsdg : ℤ
  single : Single tax0 tax1 rewardTax

inductive TaxSource
  | fee0 | fee1 | reward
  deriving DecidableEq, Repr

/-- An income leg and its executable value in the settlement token. -/
structure IncomeLeg where
  kind : TaxSource
  token : Address
  amount : ℤ
  value : ℤ

def betterLeg (best item : IncomeLeg) : IncomeLeg :=
  if item.value > best.value then item else best

def bestOf : List IncomeLeg → Option IncomeLeg
  | [] => none
  | first :: rest => some (rest.foldl betterLeg first)

section
variable (market : Market) (quote : QuoteFn)

def selectSource (targetUsdg : ℤ) (fee0 fee1 reward : IncomeLeg) : IncomeLeg :=
  let sufficient := [fee0, fee1, reward].filter fun leg => targetUsdg ≤ leg.value ∧ 0 < leg.amount
  let preferred (token : Address) := bestOf (sufficient.filter fun leg => leg.token = token)
  ((preferred market.settlementToken).or (preferred market.wrappedNative)).getD ([fee1, reward].foldl betterLeg fee0)

def valueInUsdg (index : Nat) (token : Address) (amount : ℤ) : Except ErrorCode ℤ := do
  if amount = 0 then return 0
  if token = market.settlementToken then return amount
  let value ← quote index token market.settlementToken amount
  return value

def retainedIn : List (Address × ℤ) → ℤ
  | [] => 0
  | (token, amount) :: rest => (if token = market.settlementToken then amount else 0) + retainedIn rest

def taxSwap (tokenIn : Address) (amountIn quotedOut : ℤ) : SwapIntent where
  purpose := .feeTax
  tokenIn := tokenIn
  tokenOut := market.settlementToken
  amountIn := amountIn
  quotedOut := quotedOut
  principalIn := 0
  feeIn := amountIn

def taxSwaps (index : Nat) : List (Address × ℤ) → Except ErrorCode (List SwapIntent)
  | [] => return []
  | (token, amount) :: rest => do
    if amount = 0 ∨ token = market.settlementToken then taxSwaps (index + 1) rest
    else
      let quotedOut ← quote index token market.settlementToken amount
      let later ← taxSwaps (index + 1) rest
      return taxSwap market token amount quotedOut :: later

def taxOn (targetUsdg : ℤ) (source : IncomeLeg) : ℤ :=
  if source.token = market.settlementToken then targetUsdg
  else (source.amount * targetUsdg + source.value - 1).tdiv source.value

def taxOf (kind : TaxSource) (source : IncomeLeg) (rawTax : ℤ) : ℤ :=
  if source.kind = kind then rawTax else 0

theorem taxOf_single (source : IncomeLeg) (rawTax : ℤ) :
    Single (taxOf .fee0 source rawTax) (taxOf .fee1 source rawTax) (taxOf .reward source rawTax) := by
  unfold Single taxOf
  cases source.kind <;> simp

def planFeeTax (token0 token1 : Address) (fee0 fee1 : ℤ) (rewardToken : Address) (rewardAmount : ℤ) :
    Except ErrorCode FeeTaxPlan := do
  demand (0 ≤ fee0 ∧ 0 ≤ fee1 ∧ 0 ≤ rewardAmount) .feeTaxAmount
  let value0 ← valueInUsdg market quote 0 token0 fee0
  let value1 ← valueInUsdg market quote 1 token1 fee1
  let rewardValue ← valueInUsdg market quote 2 rewardToken rewardAmount
  let totalIncomeUsdg := value0 + value1 + rewardValue
  if totalIncomeUsdg ≤ market.threshold then
    return { applied := false, totalIncomeUsdg, tax0 := 0, tax1 := 0, rewardTax := 0, fee0AfterTax := fee0
             fee1AfterTax := fee1, rewardAfterTax := rewardAmount, retainedUsdg := 0, swaps := []
             single := untaxed }
  else
    let targetUsdg := (totalIncomeUsdg * feeTaxBps).tdiv 10000
    let source := selectSource market targetUsdg ⟨.fee0, token0, fee0, value0⟩ ⟨.fee1, token1, fee1, value1⟩
      ⟨.reward, rewardToken, rewardAmount, rewardValue⟩
    demand (0 < source.value ∧ 0 < source.amount ∧ 0 < targetUsdg) .feeTaxAmount
    let rawTax := taxOn market targetUsdg source
    let tax0 := taxOf .fee0 source rawTax
    let tax1 := taxOf .fee1 source rawTax
    let rewardTax := taxOf .reward source rawTax
    let legs := [(token0, tax0), (token1, tax1), (rewardToken, rewardTax)]
    let swaps ← taxSwaps market quote 3 legs
    return { applied := true, totalIncomeUsdg, tax0, tax1, rewardTax, fee0AfterTax := fee0 - tax0
             fee1AfterTax := fee1 - tax1, rewardAfterTax := rewardAmount - rewardTax
             retainedUsdg := retainedIn market legs, swaps, single := taxOf_single source rawTax }

def FeeTaxPlan.context (plan : FeeTaxPlan) : FeeTaxContext where
  selectionVersion := some feeTaxSelectionVersion
  applied := plan.applied
  totalIncomeUsdg := plan.totalIncomeUsdg
  tax0 := plan.tax0
  tax1 := plan.tax1
  rewardTax := plan.rewardTax
  retainedUsdg := plan.retainedUsdg
  single := plan.single

def storedFeeTax (stored : FeeTaxContext) (pair : Pair) (fee0 fee1 rewardQuote : ℤ) : Except ErrorCode FeeTaxPlan := do
  demand (stored.tax0 ≤ fee0 ∧ stored.tax1 ≤ fee1 ∧ stored.rewardTax ≤ rewardQuote) .recoveryContext
  let swaps ← taxSwaps market quote 0
    [(pair.token0, stored.tax0), (pair.token1, stored.tax1), (pair.quoteToken, stored.rewardTax)]
  return { applied := stored.applied, totalIncomeUsdg := stored.totalIncomeUsdg, tax0 := stored.tax0
           tax1 := stored.tax1, rewardTax := stored.rewardTax, fee0AfterTax := fee0 - stored.tax0
           fee1AfterTax := fee1 - stored.tax1, rewardAfterTax := rewardQuote - stored.rewardTax
           retainedUsdg := stored.retainedUsdg, swaps, single := stored.single }

/-- The stored plan, unless there is none, or it is older than the policy and no swap is confirmed yet; and the
context that is stored afterwards. -/
def ensureFeeTaxPlan (stored : Option FeeTaxContext) (confirmedSwapExists : Bool) (pair : Pair) (fee0 fee1 rewardQuote : ℤ) :
    Except ErrorCode (FeeTaxPlan × FeeTaxContext) :=
  let plan : Except ErrorCode (FeeTaxPlan × FeeTaxContext) := do
    let planned ← planFeeTax market quote pair.token0 pair.token1 fee0 fee1 pair.quoteToken rewardQuote
    return (planned, planned.context)
  match stored with
  | none => plan
  | some context =>
    if context.selectionVersion ≠ some feeTaxSelectionVersion ∧ confirmedSwapExists = false then plan
    else do
      let planned ← storedFeeTax market quote context pair fee0 fee1 rewardQuote
      return (planned, context)

end

section
variable {market : Market} {quote : QuoteFn}

/-- A swap of the income tax: its whole input is fees, and it pays out in the settlement token. -/
structure TaxSwap (market : Market) (swap : SwapIntent) : Prop where
  purpose : swap.purpose = .feeTax
  output : swap.tokenOut = market.settlementToken
  principal : swap.principalIn = 0
  fee : swap.feeIn = swap.amountIn

variable {swaps : List SwapIntent}

theorem taxSwaps_spec {index : Nat} {legs : List (Address × ℤ)}
    (planned : taxSwaps market quote index legs = .ok swaps) :
    (∀ swap ∈ swaps, TaxSwap market swap) ∧ swaps.length ≤ (legs.filter fun leg => leg.2 ≠ 0).length := by
  induction legs generalizing index swaps with
  | nil => cases planned; exact ⟨fun _ member => absurd member List.not_mem_nil, Nat.le_refl _⟩
  | cons leg rest ih =>
    obtain ⟨token, amount⟩ := leg
    unfold taxSwaps at planned
    split at planned
    · obtain ⟨each, count⟩ := ih planned
      refine ⟨each, count.trans ?_⟩
      rw [List.filter_cons]
      split
      · exact Nat.le_succ _
      · exact Nat.le_refl _
    · rename_i taxed
      obtain ⟨quotedOut, _, planned⟩ := bind_ok planned
      obtain ⟨later, tail, planned⟩ := bind_ok planned
      cases planned
      obtain ⟨each, count⟩ := ih tail
      refine ⟨?_, ?_⟩
      · intro swap member
        rcases List.mem_cons.mp member with rfl | member
        · exact ⟨rfl, rfl, rfl, rfl⟩
        · exact each swap member
      · have nonzero : amount ≠ 0 := fun zero => taxed (Or.inl zero)
        rw [List.filter_cons, if_pos (by simpa using nonzero)]
        exact Nat.succ_le_succ count

def taxedLegs (market : Market) (legs : List (Address × ℤ)) : List (Address × ℤ) :=
  legs.filter fun leg => !(leg.2 = 0 || leg.1 = market.settlementToken)

def FeeTaxContext.legs (context : FeeTaxContext) (pair : Pair) : List (Address × ℤ) :=
  [(pair.token0, context.tax0), (pair.token1, context.tax1), (pair.quoteToken, context.rewardTax)]

theorem taxSwaps_legs {index : Nat} {legs : List (Address × ℤ)}
    (planned : taxSwaps market quote index legs = .ok swaps) :
    swaps.map (fun swap => (swap.tokenIn, swap.amountIn)) = taxedLegs market legs := by
  induction legs generalizing index swaps with
  | nil => cases planned; rfl
  | cons leg rest ih =>
    obtain ⟨token, amount⟩ := leg
    unfold taxSwaps at planned
    unfold taxedLegs
    split at planned
    · rename_i untaxed
      rw [List.filter_cons, if_neg (by simpa [or_iff_not_imp_left] using untaxed)]
      exact ih planned
    · rename_i taxed
      obtain ⟨quotedOut, _, planned⟩ := bind_ok planned
      obtain ⟨later, tail, planned⟩ := bind_ok planned
      cases planned
      rw [List.filter_cons, if_pos (by simpa using taxed), List.map_cons, ih tail]
      rfl

theorem taxSwaps_single {index : Nat} {token0 token1 token2 : Address} {tax0 tax1 rewardTax : ℤ}
    (single : Single tax0 tax1 rewardTax)
    (planned : taxSwaps market quote index [(token0, tax0), (token1, tax1), (token2, rewardTax)] = .ok swaps) :
    swaps.length ≤ 1 := by
  have count := (taxSwaps_spec planned).2
  refine count.trans ?_
  rcases single with ⟨rfl, rfl⟩ | ⟨rfl, rfl⟩ | ⟨rfl, rfl⟩ <;> simp [List.filter_cons] <;> split <;> simp

def TaxPlanned (market : Market) (plan : FeeTaxPlan) : Prop :=
  (∀ swap ∈ plan.swaps, TaxSwap market swap) ∧ plan.swaps.length ≤ 1

/-- The amounts after tax are the amounts less the taxes of the context. -/
structure TaxesStored (plan : FeeTaxPlan) (context : FeeTaxContext) (fee0 fee1 rewardQuote : ℤ) : Prop where
  fee0 : plan.fee0AfterTax = fee0 - context.tax0
  fee1 : plan.fee1AfterTax = fee1 - context.tax1
  reward : plan.rewardAfterTax = rewardQuote - context.rewardTax

variable {plan : FeeTaxPlan} {token0 token1 rewardToken : Address}

theorem planFeeTax_quoted {fee0 fee1 rewardAmount : ℤ}
    (planned : planFeeTax market quote token0 token1 fee0 fee1 rewardToken rewardAmount = .ok plan) :
    taxSwaps market quote 3 [(token0, plan.tax0), (token1, plan.tax1), (rewardToken, plan.rewardTax)] = .ok plan.swaps ∧
      TaxesStored plan plan.context fee0 fee1 rewardAmount := by
  unfold planFeeTax at planned
  obtain ⟨_, _, planned⟩ := bind_ok planned
  obtain ⟨value0, _, planned⟩ := bind_ok planned
  obtain ⟨value1, _, planned⟩ := bind_ok planned
  obtain ⟨rewardValue, _, planned⟩ := bind_ok planned
  dsimp only at planned
  split at planned
  · cases planned
    exact ⟨by simp [taxSwaps, pure, Except.pure], (sub_zero _).symm, (sub_zero _).symm, (sub_zero _).symm⟩
  · obtain ⟨_, _, planned⟩ := bind_ok planned
    obtain ⟨swaps, quoted, planned⟩ := bind_ok planned
    cases planned
    exact ⟨quoted, rfl, rfl, rfl⟩

variable {fee0 fee1 rewardQuote : ℤ} {pair : Pair}

theorem storedFeeTax_quoted {stored : FeeTaxContext}
    (planned : storedFeeTax market quote stored pair fee0 fee1 rewardQuote = .ok plan) :
    taxSwaps market quote 0 (stored.legs pair) = .ok plan.swaps ∧ TaxesStored plan stored fee0 fee1 rewardQuote := by
  unfold storedFeeTax at planned
  obtain ⟨_, _, planned⟩ := bind_ok planned
  obtain ⟨swaps, quoted, planned⟩ := bind_ok planned
  cases planned
  exact ⟨quoted, rfl, rfl, rfl⟩

theorem planFeeTax_planned {fee0 fee1 rewardAmount : ℤ}
    (planned : planFeeTax market quote token0 token1 fee0 fee1 rewardToken rewardAmount = .ok plan) :
    TaxPlanned market plan :=
  have quoted := (planFeeTax_quoted planned).1
  ⟨(taxSwaps_spec quoted).1, taxSwaps_single plan.single quoted⟩

theorem storedFeeTax_planned {stored : FeeTaxContext}
    (planned : storedFeeTax market quote stored pair fee0 fee1 rewardQuote = .ok plan) : TaxPlanned market plan :=
  have quoted := (storedFeeTax_quoted planned).1
  ⟨(taxSwaps_spec quoted).1, taxSwaps_single stored.single quoted⟩

variable {stored : Option FeeTaxContext} {context : FeeTaxContext} {swapped : Bool}

theorem ensureFeeTaxPlan_cases
    (ensured : ensureFeeTaxPlan market quote stored swapped pair fee0 fee1 rewardQuote = .ok (plan, context)) :
    (planFeeTax market quote pair.token0 pair.token1 fee0 fee1 pair.quoteToken rewardQuote = .ok plan ∧ context = plan.context ∧
        (stored = none ∨ swapped = false)) ∨
      (storedFeeTax market quote context pair fee0 fee1 rewardQuote = .ok plan ∧ stored = some context ∧
        (context.selectionVersion = some feeTaxSelectionVersion ∨ swapped = true)) := by
  have fresh : ∀ {result}, (do
      let planned ← planFeeTax market quote pair.token0 pair.token1 fee0 fee1 pair.quoteToken rewardQuote
      return (planned, planned.context) : Except ErrorCode _) = .ok result →
      planFeeTax market quote pair.token0 pair.token1 fee0 fee1 pair.quoteToken rewardQuote = .ok result.1 ∧ result.2 = result.1.context := by
    intro result made
    obtain ⟨planned, quoted, returned⟩ := bind_ok made
    cases returned
    exact ⟨quoted, rfl⟩
  cases stored with
  | none =>
    obtain ⟨planned, kept⟩ := fresh ensured
    exact Or.inl ⟨planned, kept, Or.inl rfl⟩
  | some old =>
    dsimp only [ensureFeeTaxPlan] at ensured
    split at ensured
    · rename_i outdated
      obtain ⟨planned, kept⟩ := fresh ensured
      exact Or.inl ⟨planned, kept, Or.inr outdated.2⟩
    · rename_i current
      obtain ⟨planned, made, returned⟩ := bind_ok ensured
      cases returned
      refine Or.inr ⟨made, rfl, ?_⟩
      cases swapped with
      | true => exact Or.inr rfl
      | false => exact Or.inl (not_not.mp fun outdated => current ⟨outdated, rfl⟩)

theorem ensureFeeTaxPlan_spec
    (ensured : ensureFeeTaxPlan market quote stored swapped pair fee0 fee1 rewardQuote = .ok (plan, context)) :
    TaxPlanned market plan ∧ TaxesStored plan context fee0 fee1 rewardQuote ∧
      (stored = some context ∨ stored = none ∨ swapped = false) := by
  rcases ensureFeeTaxPlan_cases ensured with ⟨planned, rfl, unstored⟩ | ⟨made, kept, _⟩
  · exact ⟨planFeeTax_planned planned, (planFeeTax_quoted planned).2, Or.inr unstored⟩
  · exact ⟨storedFeeTax_planned made, (storedFeeTax_quoted made).2, Or.inl kept⟩

theorem ensureFeeTaxPlan_stored {stored : FeeTaxContext} :
    ensureFeeTaxPlan market quote (some stored) true pair fee0 fee1 rewardQuote = (do
      let planned ← storedFeeTax market quote stored pair fee0 fee1 rewardQuote
      return (planned, stored)) := by
  unfold ensureFeeTaxPlan
  simp

theorem storedFeeTax_legs {stored : FeeTaxContext}
    (planned : storedFeeTax market quote stored pair fee0 fee1 rewardQuote = .ok plan) :
    plan.swaps.map (fun swap => (swap.tokenIn, swap.amountIn)) = taxedLegs market (stored.legs pair) ∧
      plan.tax0 = stored.tax0 ∧ plan.tax1 = stored.tax1 ∧ plan.retainedUsdg = stored.retainedUsdg := by
  unfold storedFeeTax at planned
  obtain ⟨_, _, planned⟩ := bind_ok planned
  obtain ⟨swaps, quoted, planned⟩ := bind_ok planned
  cases planned
  exact ⟨taxSwaps_legs quoted, rfl, rfl, rfl⟩

section

variable (answers : (index : Nat) → (tokenIn tokenOut : Address) → (amountIn : ℤ) → Nat)

theorem taxSwaps_answered (index : Nat) (legs : List (Address × ℤ)) :
    ∃ swaps, taxSwaps market (fun index tokenIn tokenOut amountIn => .ok (answers index tokenIn tokenOut amountIn)) index legs = .ok swaps := by
  induction legs generalizing index with
  | nil => exact ⟨[], rfl⟩
  | cons leg rest ih =>
    obtain ⟨later, tail⟩ := ih (index + 1)
    unfold taxSwaps
    split
    · exact ⟨later, tail⟩
    · rw [tail]
      exact ⟨_, rfl⟩

theorem storedFeeTax_covered {stored : FeeTaxContext} {pair : Pair} {fee0 fee1 rewardQuote : ℤ}
    (covered : stored.tax0 ≤ fee0 ∧ stored.tax1 ≤ fee1 ∧ stored.rewardTax ≤ rewardQuote) :
    ∃ plan, storedFeeTax market (fun index tokenIn tokenOut amountIn => .ok (answers index tokenIn tokenOut amountIn)) stored pair
      fee0 fee1 rewardQuote = .ok plan := by
  obtain ⟨swaps, planned⟩ := @taxSwaps_answered market answers 0 (stored.legs pair)
  unfold FeeTaxContext.legs at planned
  unfold storedFeeTax
  rw [demand_bind covered, planned]
  exact ⟨_, rfl⟩

end

structure FeeTaxContext.Within (context : FeeTaxContext) (fee0 fee1 rewardQuote : ℤ) : Prop where
  tax0 : 0 ≤ context.tax0 ∧ context.tax0 ≤ fee0
  tax1 : 0 ≤ context.tax1 ∧ context.tax1 ≤ fee1
  reward : 0 ≤ context.rewardTax ∧ context.rewardTax ≤ rewardQuote

theorem betterLeg_spec (legs : List IncomeLeg) (first : IncomeLeg) :
    (legs.foldl betterLeg first = first ∨ legs.foldl betterLeg first ∈ legs) ∧
      first.value ≤ (legs.foldl betterLeg first).value ∧ ∀ leg ∈ legs, leg.value ≤ (legs.foldl betterLeg first).value := by
  induction legs generalizing first with
  | nil => exact ⟨Or.inl rfl, le_refl _, fun _ member => absurd member List.not_mem_nil⟩
  | cons leg rest ih =>
    obtain ⟨found, most, each⟩ := ih (betterLeg first leg)
    rw [List.foldl_cons]
    have better : (betterLeg first leg = first ∨ betterLeg first leg = leg) ∧ first.value ≤ (betterLeg first leg).value ∧
        leg.value ≤ (betterLeg first leg).value := by
      unfold betterLeg
      split
      · rename_i above
        exact ⟨Or.inr rfl, above.le, le_refl _⟩
      · rename_i below
        exact ⟨Or.inl rfl, le_refl _, not_lt.mp below⟩
    refine ⟨?_, better.2.1.trans most, fun other member => ?_⟩
    · rcases found with same | later
      · rcases better.1 with kept | taken
        · exact Or.inl (same.trans kept)
        · exact Or.inr (by rw [same, taken]; exact List.mem_cons_self)
      · exact Or.inr (List.mem_cons_of_mem _ later)
    · rcases List.mem_cons.mp member with rfl | later
      · exact better.2.2.trans most
      · exact each other later

theorem bestOf_mem {legs : List IncomeLeg} {best : IncomeLeg} (found : bestOf legs = some best) : best ∈ legs := by
  cases legs with
  | nil => cases found
  | cons first rest =>
    cases found
    rcases (betterLeg_spec rest first).1 with same | later
    · rw [same]
      exact List.mem_cons_self
    · exact List.mem_cons_of_mem _ later

theorem selectSource_spec {targetUsdg : ℤ} {fee0 fee1 reward : IncomeLeg}
    (share : 3 * targetUsdg ≤ fee0.value + fee1.value + reward.value) :
    selectSource market targetUsdg fee0 fee1 reward ∈ [fee0, fee1, reward] ∧
      targetUsdg ≤ (selectSource market targetUsdg fee0 fee1 reward).value := by
  have sufficient : ∀ {token best}, bestOf (([fee0, fee1, reward].filter fun leg =>
      targetUsdg ≤ leg.value ∧ 0 < leg.amount).filter fun leg => leg.token = token) = some best →
      best ∈ [fee0, fee1, reward] ∧ targetUsdg ≤ best.value := by
    intro token best found
    have member := (List.mem_filter.mp (bestOf_mem found)).1
    obtain ⟨among, enough⟩ := List.mem_filter.mp member
    simp only [decide_eq_true_eq] at enough
    exact ⟨among, enough.1⟩
  unfold selectSource
  dsimp only
  cases settled : bestOf (([fee0, fee1, reward].filter fun leg => targetUsdg ≤ leg.value ∧ 0 < leg.amount).filter fun leg =>
      leg.token = market.settlementToken) with
  | some best => exact sufficient settled
  | none =>
    cases wrapped : bestOf (([fee0, fee1, reward].filter fun leg => targetUsdg ≤ leg.value ∧ 0 < leg.amount).filter fun leg =>
        leg.token = market.wrappedNative) with
    | some best => exact sufficient wrapped
    | none =>
      obtain ⟨found, most, each⟩ := betterLeg_spec [fee1, reward] fee0
      change [fee1, reward].foldl betterLeg fee0 ∈ _ ∧ _
      refine ⟨?_, ?_⟩
      · rcases found with same | later
        · rw [same]
          exact List.mem_cons_self
        · exact List.mem_cons_of_mem _ later
      · have second := each fee1 List.mem_cons_self
        have third := each reward (List.mem_cons_of_mem _ List.mem_cons_self)
        change targetUsdg ≤ ([fee1, reward].foldl betterLeg fee0).value
        omega

theorem valueInUsdg_spec {index : Nat} {token : Address} {amount value : ℤ} (nonneg : 0 ≤ amount)
    (valued : valueInUsdg market quote index token amount = .ok value) :
    0 ≤ value ∧ (token = market.settlementToken → value = amount) := by
  unfold valueInUsdg at valued
  split at valued
  · rename_i none
    cases valued
    exact ⟨le_refl _, fun _ => none.symm⟩
  · split at valued
    · cases valued
      exact ⟨nonneg, fun _ => rfl⟩
    · rename_i other
      obtain ⟨quoted, _, returned⟩ := bind_ok valued
      cases returned
      exact ⟨Int.natCast_nonneg quoted, fun settlement => absurd settlement other⟩

theorem taxOn_within {targetUsdg : ℤ} {source : IncomeLeg} (settles : source.token = market.settlementToken → source.value = source.amount)
    (target : 0 < targetUsdg) (amount : 0 < source.amount) (worth : targetUsdg ≤ source.value) :
    0 ≤ taxOn market targetUsdg source ∧ taxOn market targetUsdg source ≤ source.amount := by
  have value : 0 < source.value := target.trans_le worth
  unfold taxOn
  split
  · rename_i settlement
    have same := settles settlement
    exact ⟨target.le, by omega⟩
  · have part : source.amount * targetUsdg ≤ source.amount * source.value := mul_le_mul_of_nonneg_left worth amount.le
    have positive : 0 ≤ source.amount * targetUsdg := mul_nonneg amount.le target.le
    rw [Int.tdiv_eq_ediv_of_nonneg (by omega)]
    refine ⟨Int.ediv_nonneg (by omega) value.le, Int.lt_add_one_iff.mp ?_⟩
    rw [Int.ediv_lt_iff_lt_mul value, add_mul, one_mul]
    omega

theorem planFeeTax_within {fee0 fee1 rewardAmount : ℤ}
    (planned : planFeeTax market quote token0 token1 fee0 fee1 rewardToken rewardAmount = .ok plan) :
    plan.context.Within fee0 fee1 rewardAmount := by
  unfold planFeeTax at planned
  obtain ⟨_, nonneg, planned⟩ := bind_ok planned
  obtain ⟨nonneg0, nonneg1, nonnegReward⟩ := demand_ok.mp nonneg
  obtain ⟨value0, valued0, planned⟩ := bind_ok planned
  obtain ⟨value1, valued1, planned⟩ := bind_ok planned
  obtain ⟨rewardValue, valuedReward, planned⟩ := bind_ok planned
  obtain ⟨positive0, settles0⟩ := valueInUsdg_spec nonneg0 valued0
  obtain ⟨positive1, settles1⟩ := valueInUsdg_spec nonneg1 valued1
  obtain ⟨positiveReward, settlesReward⟩ := valueInUsdg_spec nonnegReward valuedReward
  dsimp only at planned
  split at planned
  · cases planned
    exact ⟨⟨le_refl _, nonneg0⟩, ⟨le_refl _, nonneg1⟩, ⟨le_refl _, nonnegReward⟩⟩
  · rename_i above
    obtain ⟨_, checked, planned⟩ := bind_ok planned
    obtain ⟨_, amount, target⟩ := demand_ok.mp checked
    obtain ⟨swaps, _, planned⟩ := bind_ok planned
    cases planned
    have share : ((value0 + value1 + rewardValue) * feeTaxBps).tdiv 10000 * 3 ≤ value0 + value1 + rewardValue := by
      rw [Int.tdiv_eq_ediv_of_nonneg (mul_nonneg (by omega) (by decide))]
      unfold feeTaxBps
      omega
    generalize ((value0 + value1 + rewardValue) * feeTaxBps).tdiv 10000 = targetUsdg at *
    obtain ⟨member, worth⟩ := @selectSource_spec market targetUsdg ⟨.fee0, token0, fee0, value0⟩ ⟨.fee1, token1, fee1, value1⟩
      ⟨.reward, rewardToken, rewardAmount, rewardValue⟩ (by dsimp only; omega)
    generalize selectSource market targetUsdg ⟨.fee0, token0, fee0, value0⟩ ⟨.fee1, token1, fee1, value1⟩
      ⟨.reward, rewardToken, rewardAmount, rewardValue⟩ = source at *
    simp only [List.mem_cons, List.not_mem_nil, or_false] at member
    rcases member with rfl | rfl | rfl
    · obtain ⟨least, most⟩ := taxOn_within settles0 target amount worth
      exact ⟨⟨least, most⟩, ⟨le_refl _, nonneg1⟩, ⟨le_refl _, nonnegReward⟩⟩
    · obtain ⟨least, most⟩ := taxOn_within settles1 target amount worth
      exact ⟨⟨le_refl _, nonneg0⟩, ⟨least, most⟩, ⟨le_refl _, nonnegReward⟩⟩
    · obtain ⟨least, most⟩ := taxOn_within settlesReward target amount worth
      exact ⟨⟨le_refl _, nonneg0⟩, ⟨le_refl _, nonneg1⟩, ⟨least, most⟩⟩

theorem ensureFeeTaxPlan_within
    (within : ∀ old, stored = some old → old.Within fee0 fee1 rewardQuote)
    (ensured : ensureFeeTaxPlan market quote stored swapped pair fee0 fee1 rewardQuote = .ok (plan, context)) :
    context.Within fee0 fee1 rewardQuote := by
  rcases ensureFeeTaxPlan_cases ensured with ⟨planned, rfl, _⟩ | ⟨_, kept, _⟩
  · exact planFeeTax_within planned
  · exact within context kept

def TaxInputs (pair : Pair) (plan : FeeTaxPlan) : Prop :=
  ∀ swap ∈ plan.swaps, swap.tokenIn = pair.token0 ∨ swap.tokenIn = pair.token1

theorem taxSwaps_inputs {index : Nat} {tax0 tax1 rewardTax : ℤ}
    (planned : taxSwaps market quote index [(pair.token0, tax0), (pair.token1, tax1), (pair.quoteToken, rewardTax)] = .ok swaps) :
    ∀ swap ∈ swaps, swap.tokenIn = pair.token0 ∨ swap.tokenIn = pair.token1 := by
  intro swap member
  have legs := taxSwaps_legs planned
  have among : (swap.tokenIn, swap.amountIn) ∈ taxedLegs market
      [(pair.token0, tax0), (pair.token1, tax1), (pair.quoteToken, rewardTax)] := by
    rw [← legs]
    exact List.mem_map_of_mem (f := fun swap : SwapIntent => (swap.tokenIn, swap.amountIn)) member
  have inLegs := List.mem_of_mem_filter among
  simp only [List.mem_cons, Prod.mk.injEq, List.not_mem_nil, or_false] at inLegs
  rcases inLegs with ⟨first, _⟩ | ⟨second, _⟩ | ⟨reward, _⟩
  · exact Or.inl first
  · exact Or.inr second
  · rcases pair.roles with ⟨_, quoteSide⟩ | ⟨_, quoteSide⟩
    · exact Or.inr (reward.trans quoteSide)
    · exact Or.inl (reward.trans quoteSide)

theorem ensureFeeTaxPlan_inputs
    (ensured : ensureFeeTaxPlan market quote stored swapped pair fee0 fee1 rewardQuote = .ok (plan, context)) :
    TaxInputs pair plan := by
  rcases ensureFeeTaxPlan_cases ensured with ⟨planned, _, _⟩ | ⟨made, _, _⟩
  · exact taxSwaps_inputs (planFeeTax_quoted planned).1
  · exact taxSwaps_inputs (storedFeeTax_quoted made).1

end

end LpTerminal.FeeTax
