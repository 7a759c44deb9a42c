import LpTerminal.Lib.Trace
import LpTerminal.Recovery.WalletLaw

/-!
The terminal `hold_quote` action: the risk side is swapped away after the exit, and the allocations are
inferred from the wallet, with nothing left on the risk side.
-/

namespace LpTerminal.HoldQuote

open Durable Fallible FeeTax Rebalance Receipts Store SwapJob SwapLegs Trace WalletLaw

/-- A hold-quote job. Its swap approves the risk token as an ERC-20, so a native risk token never gets that far.
`bundled` is set where the exit collects in one transaction. -/
structure HoldJob extends Job where
  bundled : Bool
  funds : CycleFunds
  erc20Risk : pair.riskToken ≠ zeroAddress

structure HoldReply where
  pool : Except ErrorCode Unit
  taxQuotes : QuoteFn
  taxReplies : List LegReply
  turnover : Except ErrorCode Unit
  strategyReply : LegReply
  cleanup : Except ErrorCode (List Send)

structure HoldCommit where
  allocation0 : ℤ
  allocation1 : ℤ
  taxUsdgActual : ℤ

section
variable (market : Market) (job : HoldJob) (chain : ChainFacts job.owner) (context : PrecheckContext)

def riskFunds (tax0 tax1 : ℤ) : ℤ :=
  if job.pair.riskToken = job.pair.token0 then job.funds.principal0 + (job.funds.fee0 - tax0)
  else job.funds.principal1 + (job.funds.fee1 - tax1)

def amountToSwap (tax0 tax1 : ℤ) : ℤ :=
  riskFunds job tax0 tax1 + context.prior job.pair.riskToken

def strategyLeg (amountIn : ℤ) : SwapLeg where
  intent :=
    { purpose := .strategy, tokenIn := job.pair.riskToken, tokenOut := job.pair.quoteToken, amountIn, quotedOut := 0
      principalIn := amountIn, feeIn := 0 }
  reuses record :=
    record.purpose ≠ .feeTax && record.tokenIn = job.pair.riskToken && record.tokenOut = job.pair.quoteToken &&
      record.amountIn = amountIn
  checks := plannedIntent
  gasAdjusted := false

def confirmedGas (state : JobState) : ℤ :=
  (((jobTransactions state.journal job.id).filter fun row => row.state = .confirmed).map fun row =>
    match row.txHash with
    | some hash => (receiptGas (chain.receiptOf hash) : ℤ)
    | none => 0).sum

def economicFinal (state : JobState) (token : Address) : ℤ :=
  state.wallet token + (if token = zeroAddress then confirmedGas job chain state else 0)

def allocationOf (state : JobState) (taxUsdgActual : ℤ) (token : Address) : ℤ :=
  economicFinal job chain state token - context.baseline token + context.prior token -
    (if token = market.settlementToken then taxUsdgActual else 0)

def exitConfirmed (state : JobState) : Bool :=
  (confirmedAt job.toJob chain state 1).isSome && ((confirmedAt job.toJob chain state 2).isSome || job.bundled)

def commitHold (state : JobState) (taxUsdgActual : ℤ) : Except ErrorCode HoldCommit := do
  let allocation0 := allocationOf market job chain context state taxUsdgActual job.pair.token0
  let allocation1 := allocationOf market job chain context state taxUsdgActual job.pair.token1
  demand (0 ≤ allocation0 ∧ 0 ≤ allocation1) .allocationMismatch
  demand ((if job.pair.riskToken = job.pair.token0 then allocation0 else allocation1) = 0) .allocationMismatch
  demand (exitConfirmed job chain state = true) .recoveryContext
  return { allocation0, allocation1, taxUsdgActual }

def retainedUsdg (tax : FeeTaxPlan) (results : List LegResult) : ℤ :=
  tax.retainedUsdg + (results.map LegResult.gained).sum

def concludeHoldQuote (tax : FeeTaxPlan) (taxResults : List LegResult) (swapped : Bool) (answer : HoldReply) :
    Durable ErrorCode JobState HoldCommit := do
  allowances job.toJob chain (if swapped then answer.cleanup else .ok [])
  let final ← read
  reply (commitHold market job chain context final (retainedUsdg tax taxResults))

def swapRisk (tax : FeeTaxPlan) (nextSwapTx : Nat) (answer : HoldReply) : Durable ErrorCode JobState Bool :=
  let amountIn := amountToSwap job context tax.tax0 tax.tax1
  if 0 < amountIn then do
    reply answer.turnover
    let _ ← runLeg job.toJob chain (strategyLeg job amountIn) nextSwapTx answer.strategyReply
    return true
  else return false

def finishHoldQuote (answer : HoldReply) : Durable ErrorCode JobState HoldCommit := do
  let tax ← ensureTax job.toJob market answer.taxQuotes job.funds.fee0 job.funds.fee1
  reply answer.pool
  let state ← read
  let nextSwapTx := max (nextTransactionIndex state.journal job.id swapStep) (afterRecords state)
  let (taxResults, nextSwapTx) ← runTaxLegs job.toJob chain true nextSwapTx tax.swaps answer.taxReplies
  let swapped ← swapRisk job chain context tax nextSwapTx answer
  concludeHoldQuote market job chain context tax taxResults swapped answer

structure Attempt where
  landed : Hash → Bool
  answer : HoldReply

def attempt (state : JobState) (input : Attempt) : Except ErrorCode HoldCommit × JobState :=
  (finishHoldQuote market job chain context input.answer).run (resolveSlots job.toJob chain input.landed state)

def afterAttempt (state : JobState) (input : Attempt) : JobState :=
  (attempt market job chain context state input).2

end

section
variable (market : Market) (job : HoldJob) (chain : ChainFacts job.owner) (context : PrecheckContext)

def spentAt (state : JobState) (leg : SwapLeg) : ℤ :=
  match leg.confirmed job.toJob chain state with
  | some (_, receipt) => -receiptTokenDelta receipt leg.intent.tokenIn job.owner
  | none => 0

def gainedAt (state : JobState) (leg : SwapLeg) : ℤ :=
  match leg.confirmed job.toJob chain state with
  | some (_, receipt) => receiptTokenDelta receipt leg.intent.tokenOut job.owner
  | none => 0

def legOf (leg : Address × ℤ) : SwapLeg :=
  taxLeg (taxSwap market leg.1 leg.2 0) true

def amountIn (tax : FeeTaxContext) : ℤ :=
  amountToSwap job context tax.tax0 tax.tax1

/-- Every swap of the job is confirmed: those of the income tax, and the swap of the risk side. -/
structure Swapped (tax : FeeTaxContext) (state : JobState) : Prop where
  stored : state.feeTax = some tax
  offered : 0 < amountIn job context tax
  taxes : ∀ leg ∈ taxedLegs market (tax.legs job.pair), ((legOf market leg).confirmed job.toJob chain state).isSome
  strategy : ((strategyLeg job (amountIn job context tax)).confirmed job.toJob chain state).isSome

def strategySpent (tax : FeeTaxContext) (state : JobState) : ℤ :=
  spentAt job chain state (strategyLeg job (amountIn job context tax))

def riskTaxSwapped (tax : FeeTaxContext) (state : JobState) : ℤ :=
  (((taxedLegs market (tax.legs job.pair)).filter fun leg => leg.1 = job.pair.riskToken).map fun leg =>
    spentAt job chain state (legOf market leg)).sum

def riskTaxUsed (tax : FeeTaxContext) (state : JobState) : ℤ :=
  riskTaxSwapped market job chain tax state + (if job.pair.riskToken = market.settlementToken then tax.retainedUsdg else 0)

def taxGained (tax : FeeTaxContext) (state : JobState) : ℤ :=
  ((taxedLegs market (tax.legs job.pair)).map fun leg => gainedAt job chain state (legOf market leg)).sum

def riskTax (tax : FeeTaxContext) : ℤ :=
  if job.pair.riskToken = job.pair.token0 then tax.tax0 else tax.tax1

def unspent (tax : FeeTaxContext) (state : JobState) : ℤ :=
  (amountIn job context tax - strategySpent job chain context tax state) +
    (riskTax job tax - riskTaxUsed market job chain tax state)

def riskCollected : ℤ :=
  if job.pair.riskToken = job.pair.token0 then job.funds.principal0 + job.funds.fee0
  else job.funds.principal1 + job.funds.fee1

def RiskQuiet (tax : FeeTaxContext) (state : JobState) : Prop :=
  state.wallet job.pair.riskToken = context.baseline job.pair.riskToken + riskCollected job -
    strategySpent job chain context tax state - riskTaxSwapped market job chain tax state +
    (if job.pair.riskToken = market.settlementToken then taxGained market job chain tax state else 0)

end

section
variable {market : Market} {job : HoldJob} {chain : ChainFacts job.owner} {context : PrecheckContext}
variable {tax : FeeTaxContext} {state : JobState}

theorem risk_allocation (quiet : RiskQuiet market job chain context tax state) :
    allocationOf market job chain context state (tax.retainedUsdg + taxGained market job chain tax state) job.pair.riskToken =
      unspent market job chain context tax state := by
  unfold allocationOf economicFinal unspent
  rw [quiet, if_neg job.erc20Risk]
  unfold amountIn amountToSwap riskFunds riskCollected riskTax riskTaxUsed
  split <;> split <;> omega

def Finished (chain : ChainFacts job.owner) (tokens : Address → Prop) (state : JobState) : Prop :=
  ∀ token, tokens token → token ≠ zeroAddress ∧ ∀ hash, hash ∉ state.mined.map Prod.snd → chain.moved hash token = 0

/-- The plan, the tax and these tokens of the wallet stand still. -/
structure Stands (tokens : Address → Prop) (start state : JobState) : Prop where
  plan : state.swapPlan = start.swapPlan
  tax : state.feeTax = start.feeTax
  wallet : ∀ token, tokens token → state.wallet token = start.wallet token
  mined : ∀ entry ∈ start.mined, entry ∈ state.mined

structure Frozen (job : HoldJob) (tokens : Address → Prop) (start state : JobState) : Prop extends Stands tokens start state where
  slots : ConfirmedKept job.toJob (· ≠ 4) start state

variable {tokens : Address → Prop} {start : JobState}

theorem Stands.journal (stands : Stands tokens start state) (journal : Journal) : Stands tokens start { state with journal } :=
  ⟨stands.plan, stands.tax, stands.wallet, stands.mined⟩

theorem Stands.settle (stands : Stands tokens start state) (stepIndex txIndex : Nat) :
    Stands tokens start (settle job.toJob stepIndex txIndex state) := by
  rw [settle_eq]
  exact ⟨stands.plan, stands.tax, stands.wallet, stands.mined⟩

theorem Stands.land (finished : Finished chain tokens start) (stands : Stands tokens start state) (stepIndex : Nat) (hash : Hash) :
    Stands tokens start (land job.toJob chain stepIndex hash state) := by
  refine ⟨by rw [land_swapPlan]; exact stands.plan, by rw [land_feeTax]; exact stands.tax, ?_,
    fun entry member => mem_land (stands.mined entry member)⟩
  intro token still
  unfold SwapJob.land
  split
  · exact stands.wallet token still
  · rename_i unmined
    obtain ⟨erc20, unmoved⟩ := finished token still
    have fresh : hash ∉ start.mined.map Prod.snd := by
      intro old
      obtain ⟨entry, member, same⟩ := List.mem_map.mp old
      exact unmined (List.mem_map.mpr ⟨entry, stands.mined entry member, same⟩)
    have nothing : chain.felt hash token = 0 := by
      unfold ChainFacts.felt
      rw [unmoved hash fresh, if_neg erc20]
      rfl
    change state.wallet token + chain.felt hash token = start.wallet token
    rw [nothing, add_zero]
    exact stands.wallet token still

theorem Frozen.refl (state : JobState) : Frozen job tokens state state :=
  ⟨⟨rfl, rfl, fun _ _ => rfl, fun _ member => member⟩, ConfirmedKept.refl state⟩

theorem Frozen.settle (frozen : Frozen job tokens start state) (stepIndex txIndex : Nat) :
    Frozen job tokens start (settle job.toJob stepIndex txIndex state) := by
  refine ⟨frozen.toStands.settle stepIndex txIndex, fun step index row own read confirmed => ?_⟩
  rw [settle_journal]
  exact frozen.slots step index row own read confirmed

theorem frozen_resolveSlots (finished : Finished chain tokens start) (landed : Hash → Bool)
    (frozen : Frozen job tokens start state) : Frozen job tokens start (resolveSlots job.toJob chain landed state) := by
  have rest : Stands tokens start (resolveSlots job.toJob chain landed state) := by
    refine resolveSlots_keeps frozen.toStands fun middle row _ _ kept => ?_
    unfold resolveRow
    split
    · split
      · exact kept.journal _
      · rename_i hash _
        have felt := kept.land finished row.stepIndex hash
        dsimp only
        split
        · exact (felt.journal _).settle _ _
        · exact felt.journal _
    · exact kept
  exact ⟨rest, frozen.slots.trans (resolveSlots_confirmedKept landed state)⟩

theorem frozen_allowances (finished : Finished chain tokens start) (sends : Except ErrorCode (List Send)) :
    Keeps (Frozen job tokens start) (allowances job.toJob chain sends) := by
  refine allowances_keeps (fun txIndex send state hash error => note_keeps fun state journal frozen marked => ?_)
    (fun hash state frozen => ⟨frozen.toStands.land finished 4 hash, land_confirmedKept 4 hash frozen.slots⟩)
    (fun txIndex state frozen => frozen.settle 4 txIndex) sends
  exact ⟨frozen.toStands.journal journal, mark_confirmedKept (fun off => absurd rfl off) frozen.slots marked⟩

theorem gainedAt_frozen (frozen : Frozen job tokens start state) {leg : SwapLeg}
    (confirmed : (leg.confirmed job.toJob chain start).isSome) : gainedAt job chain state leg = gainedAt job chain start leg := by
  obtain ⟨found, read⟩ := Option.isSome_iff_exists.mp confirmed
  unfold gainedAt
  rw [read, SwapLeg.confirmed_kept frozen.slots (by decide) frozen.plan read]

theorem spentAt_frozen (frozen : Frozen job tokens start state) {leg : SwapLeg}
    (confirmed : (leg.confirmed job.toJob chain start).isSome) : spentAt job chain state leg = spentAt job chain start leg := by
  obtain ⟨found, read⟩ := Option.isSome_iff_exists.mp confirmed
  unfold spentAt
  rw [read, SwapLeg.confirmed_kept frozen.slots (by decide) frozen.plan read]

section

variable (swapped : Swapped market job chain context tax start)
include swapped

theorem Swapped.frozen (frozen : Frozen job tokens start state) :
    Swapped market job chain context tax state := by
  have kept : ∀ leg : SwapLeg, (leg.confirmed job.toJob chain start).isSome → (leg.confirmed job.toJob chain state).isSome := by
    intro leg confirmed
    obtain ⟨found, read⟩ := Option.isSome_iff_exists.mp confirmed
    rw [SwapLeg.confirmed_kept frozen.slots (by decide) frozen.plan read]
    rfl
  exact ⟨frozen.tax.trans swapped.stored, swapped.offered, fun leg member => kept _ (swapped.taxes leg member),
    kept _ swapped.strategy⟩

theorem taxGained_frozen (frozen : Frozen job tokens start state) :
    taxGained market job chain tax state = taxGained market job chain tax start := by
  unfold taxGained
  rw [List.map_congr_left fun leg member => gainedAt_frozen frozen (swapped.taxes leg member)]

theorem riskTaxSwapped_frozen (frozen : Frozen job tokens start state) :
    riskTaxSwapped market job chain tax state = riskTaxSwapped market job chain tax start := by
  unfold riskTaxSwapped
  rw [List.map_congr_left fun leg member => spentAt_frozen frozen (swapped.taxes leg (List.mem_of_mem_filter member))]

theorem strategySpent_frozen (frozen : Frozen job tokens start state) :
    strategySpent job chain context tax state = strategySpent job chain context tax start :=
  spentAt_frozen frozen swapped.strategy

theorem unspent_frozen (frozen : Frozen job tokens start state) :
    unspent market job chain context tax state = unspent market job chain context tax start := by
  unfold unspent riskTaxUsed
  rw [strategySpent_frozen swapped frozen, riskTaxSwapped_frozen swapped frozen]

end

theorem RiskQuiet.frozen (quiet : RiskQuiet market job chain context tax start)
    (swapped : Swapped market job chain context tax start) (frozen : Frozen job tokens start state)
    (risk : tokens job.pair.riskToken) : RiskQuiet market job chain context tax state := by
  unfold RiskQuiet
  rw [frozen.wallet _ risk, strategySpent_frozen swapped frozen, riskTaxSwapped_frozen swapped frozen,
    taxGained_frozen swapped frozen]
  exact quiet

theorem runTaxLegs_confirmed {intents : List SwapIntent} {answers : List LegReply} {nextSwapTx : Nat} {final : JobState}
    {outcome : Except ErrorCode (List LegResult × Nat)}
    (each : ∀ intent ∈ intents, ((taxLeg intent true).confirmed job.toJob chain state).isSome)
    (ran : (runTaxLegs job.toJob chain true nextSwapTx intents answers).run state = (outcome, final)) :
    final = state ∧ ∀ results next, outcome = .ok (results, next) →
      results.map LegResult.gained = intents.map fun intent => gainedAt job chain state (taxLeg intent true) := by
  induction intents generalizing nextSwapTx answers outcome final with
  | nil =>
    cases ran
    refine ⟨rfl, fun results next returned => ?_⟩
    cases returned
    rfl
  | cons intent rest ih =>
    cases answers with
    | nil =>
      cases ran
      exact ⟨rfl, fun _ _ impossible => absurd impossible (by simp)⟩
    | cons answer later =>
      obtain ⟨⟨record, receipt⟩, confirmed⟩ := Option.isSome_iff_exists.mp (each intent List.mem_cons_self)
      unfold runTaxLegs at ran
      rw [bind_run, runLeg_confirmed _ confirmed] at ran
      rcases checked : (recheckLeg job.toJob (taxLeg intent true) nextSwapTx record receipt).run state with ⟨first, middle⟩
      rw [checked] at ran
      obtain ⟨rfl, gains⟩ := recheckLeg_run checked
      cases first with
      | error e =>
        cases ran
        exact ⟨rfl, fun _ _ impossible => absurd impossible (by simp)⟩
      | ok result =>
        dsimp only at ran
        rw [bind_run] at ran
        rcases ranRest : (runTaxLegs job.toJob chain true result.nextSwapTx rest later).run middle with ⟨second, last⟩
        rw [ranRest] at ran
        obtain ⟨rfl, tail⟩ := ih (fun other member => each other (List.mem_cons_of_mem _ member)) ranRest
        cases second with
        | error e =>
          cases ran
          exact ⟨rfl, fun _ _ impossible => absurd impossible (by simp)⟩
        | ok results =>
          cases ran
          refine ⟨rfl, fun all next returned => ?_⟩
          cases returned
          have head : result.gained = gainedAt job chain final (taxLeg intent true) := by
            unfold gainedAt
            rw [confirmed]
            exact gains result rfl
          rw [List.map_cons, List.map_cons, head, tail results.1 results.2 rfl]

theorem gainedAt_legOf {intent : SwapIntent} (taxes : TaxSwap market intent) :
    gainedAt job chain state (taxLeg intent true) = gainedAt job chain state (legOf market (intent.tokenIn, intent.amountIn)) := by
  unfold gainedAt
  change (match (legOf market (intent.tokenIn, intent.amountIn)).confirmed job.toJob chain state with
    | some (_, receipt) => receiptTokenDelta receipt intent.tokenOut job.owner
    | none => 0) = _
  rw [taxes.output]
  rfl

/-- A plan made from the stored context while every swap is confirmed. -/
structure PlanOf (market : Market) (job : HoldJob) (tax : FeeTaxContext) (plan : FeeTaxPlan) : Prop where
  legs : plan.swaps.map (fun swap => (swap.tokenIn, swap.amountIn)) = taxedLegs market (tax.legs job.pair)
  taxes : ∀ swap ∈ plan.swaps, TaxSwap market swap
  tax0 : plan.tax0 = tax.tax0
  tax1 : plan.tax1 = tax.tax1
  retained : plan.retainedUsdg = tax.retainedUsdg

theorem Swapped.exists (swapped : Swapped market job chain context tax state) : confirmedSwapExists job.toJob state = true := by
  obtain ⟨⟨record, receipt⟩, confirmed⟩ := Option.isSome_iff_exists.mp swapped.strategy
  exact confirmedSwapExists_of (SwapLeg.confirmed_slot confirmed).2

theorem ensureTax_swapped (swapped : Swapped market job chain context tax state) (quote : QuoteFn) :
    Triple (· = state) (ensureTax job.toJob market quote job.funds.fee0 job.funds.fee1)
      (fun plan s => PlanOf market job tax plan ∧ s = state) (· = state) := by
  refine triple_bind (triple_read (Q := fun read s => read = state ∧ s = state) fun s same => ⟨same, same⟩) fun read => ?_
  refine triple_assume fun same => ?_
  rw [same, swapped.stored, swapped.exists, ensureFeeTaxPlan_stored]
  refine triple_bind (Q := fun result s => (PlanOf market job tax result.1 ∧ result.2 = tax) ∧ s = state)
    (triple_reply (fun s result before planned => ⟨?_, before⟩) fun _ _ before _ => before) fun result => ?_
  · obtain ⟨plan, made, returned⟩ := bind_ok planned
    cases returned
    obtain ⟨legs, tax0, tax1, retained⟩ := storedFeeTax_legs made
    exact ⟨⟨legs, (storedFeeTax_planned made).1, tax0, tax1, retained⟩, rfl⟩
  · refine triple_assume fun facts => ?_
    refine triple_bind (Q := fun _ s => s = state) (triple_write fun s before => ?_) fun _ =>
      triple_pure fun s before => ⟨facts.1, before⟩
    rw [before, facts.2, ← swapped.stored]

variable {plan : FeeTaxPlan}

theorem plan_gained (planOf : PlanOf market job tax plan) :
    (plan.swaps.map fun intent => gainedAt job chain state (taxLeg intent true)).sum = taxGained market job chain tax state := by
  unfold taxGained
  rw [← planOf.legs, List.map_map]
  exact congrArg List.sum (List.map_congr_left fun intent member => gainedAt_legOf (planOf.taxes intent member))

theorem plan_confirmed (planOf : PlanOf market job tax plan)
    (swapped : Swapped market job chain context tax state) :
    ∀ intent ∈ plan.swaps, ((taxLeg intent true).confirmed job.toJob chain state).isSome := by
  intro intent member
  refine swapped.taxes (intent.tokenIn, intent.amountIn) ?_
  rw [← planOf.legs]
  exact List.mem_map.mpr ⟨intent, member, rfl⟩

theorem finish_swapped (finished : Finished chain tokens state) (swapped : Swapped market job chain context tax state)
    (answer : HoldReply) :
    Triple (· = state) (finishHoldQuote market job chain context answer)
      (fun commit final => Frozen job tokens state final ∧
        commitHold market job chain context final (tax.retainedUsdg + taxGained market job chain tax state) = .ok commit)
      (Frozen job tokens state) := by
  have still : ∀ s, s = state → Frozen job tokens state s := by
    rintro s rfl
    exact Frozen.refl s
  unfold finishHoldQuote
  refine triple_bind (triple_weaken (ensureTax_swapped swapped answer.taxQuotes) (fun _ same => same) (fun _ _ q => q) still)
    fun plan => triple_assume fun planOf => ?_
  refine triple_bind (Q := fun _ s => s = state) (triple_reply (fun _ _ before _ => before) fun s _ before _ => still s before)
    fun _ => ?_
  refine triple_bind (triple_read (Q := fun read s => read = state ∧ s = state) fun s same => ⟨same, same⟩) fun read =>
    triple_assume fun _ => ?_
  refine triple_bind (Q := fun result s =>
    result.1.map LegResult.gained = (plan.swaps.map fun intent => gainedAt job chain state (taxLeg intent true)) ∧ s = state)
    ?_ fun taxed => triple_assume fun gains => ?_
  · intro s same
    subst same
    rcases ran : (runTaxLegs job.toJob chain true _ plan.swaps answer.taxReplies).run s with ⟨outcome, final⟩
    obtain ⟨rfl, results⟩ := runTaxLegs_confirmed (plan_confirmed planOf swapped) ran
    cases outcome with
    | ok result => exact ⟨results result.1 result.2 rfl, rfl⟩
    | error e => exact Frozen.refl final
  refine triple_bind (Q := fun _ s => s = state) ?_ fun done => ?_
  · have offered : 0 < amountToSwap job context tax.tax0 tax.tax1 := swapped.offered
    dsimp only [swapRisk]
    rw [planOf.tax0, planOf.tax1, if_pos offered]
    refine triple_bind (Q := fun _ s => s = state) (triple_reply (fun _ _ before _ => before) fun s _ before _ => still s before)
      fun _ => triple_bind (Q := fun _ s => s = state) ?_ fun _ => triple_pure fun _ before => before
    intro s same
    subst same
    obtain ⟨⟨record, receipt⟩, confirmed⟩ := Option.isSome_iff_exists.mp swapped.strategy
    unfold amountIn at confirmed
    rw [runLeg_confirmed _ confirmed]
    rcases checked : (recheckLeg job.toJob (strategyLeg job _) taxed.2 record receipt).run s with ⟨outcome, final⟩
    obtain ⟨rfl, _⟩ := recheckLeg_run checked
    cases outcome with
    | ok result => rfl
    | error e => exact Frozen.refl final
  · unfold concludeHoldQuote
    refine triple_bind (Q := fun _ => Frozen job tokens state)
      (triple_weaken (frozen_allowances finished _) still (fun _ _ q => q) fun _ e => e) fun _ => ?_
    refine triple_bind (triple_read (Q := fun read s => read = s ∧ Frozen job tokens state s) fun s frozen => ⟨rfl, frozen⟩)
      fun final => ?_
    refine triple_reply (fun s commit before committed => ⟨before.2, ?_⟩) fun s e before _ => before.2
    rw [before.1] at committed
    unfold retainedUsdg at committed
    rw [gains, plan_gained planOf, planOf.retained] at committed
    exact committed

theorem Finished.later (finished : Finished chain tokens start) (frozen : Frozen job tokens start state) :
    Finished chain tokens state := by
  intro token still
  obtain ⟨erc20, unmoved⟩ := finished token still
  refine ⟨erc20, fun hash unmined => unmoved hash fun old => unmined ?_⟩
  obtain ⟨entry, member, same⟩ := List.mem_map.mp old
  exact List.mem_map.mpr ⟨entry, frozen.mined entry member, same⟩

theorem Frozen.trans {middle : JobState} (first : Frozen job tokens start middle) (second : Frozen job tokens middle state) :
    Frozen job tokens start state :=
  ⟨⟨second.plan.trans first.plan, second.tax.trans first.tax,
    fun token still => (second.wallet token still).trans (first.wallet token still),
    fun entry member => second.mined entry (first.mined entry member)⟩, first.slots.trans second.slots⟩

theorem attempt_frozen (finished : Finished chain tokens start) (swapped : Swapped market job chain context tax start)
    (frozen : Frozen job tokens start state) (input : Attempt) :
    Frozen job tokens start (afterAttempt market job chain context state input) ∧
      ∀ commit, (attempt market job chain context state input).1 = .ok commit →
        commitHold market job chain context (afterAttempt market job chain context state input)
          (tax.retainedUsdg + taxGained market job chain tax start) = .ok commit := by
  have resolved := frozen_resolveSlots finished input.landed frozen
  have triple := finish_swapped (finished.later resolved) (swapped.frozen resolved) input.answer _ rfl
  rw [taxGained_frozen swapped resolved] at triple
  unfold afterAttempt attempt
  rcases ran : (finishHoldQuote market job chain context input.answer).run
      (resolveSlots job.toJob chain input.landed state) with ⟨outcome, final⟩
  rw [ran] at triple
  cases outcome with
  | error e => exact ⟨resolved.trans triple, fun _ impossible => absurd impossible (by simp)⟩
  | ok commit =>
    refine ⟨resolved.trans triple.1, fun other same => ?_⟩
    cases same
    exact triple.2

theorem allocationOf_risk (taxUsdgActual : ℤ) :
    (if job.pair.riskToken = job.pair.token0 then
      allocationOf market job chain context state taxUsdgActual job.pair.token0
    else allocationOf market job chain context state taxUsdgActual job.pair.token1) =
      allocationOf market job chain context state taxUsdgActual job.pair.riskToken := by
  rcases job.pair.roles with ⟨risk, _⟩ | ⟨risk, _⟩
  · rw [if_pos risk, risk]
  · rw [if_neg (by rw [risk]; exact job.pair.distinct.symm), risk]

variable {commit : HoldCommit}

theorem commitHold_risk {taxUsdgActual : ℤ}
    (committed : commitHold market job chain context state taxUsdgActual = .ok commit) :
    allocationOf market job chain context state taxUsdgActual job.pair.riskToken = 0 := by
  unfold commitHold at committed
  obtain ⟨_, _, committed⟩ := bind_ok committed
  obtain ⟨_, emptied, _⟩ := bind_ok committed
  rw [← allocationOf_risk]
  exact demand_ok.mp emptied

theorem commitHold_ok {taxUsdgActual : ℤ}
    (emptied : allocationOf market job chain context state taxUsdgActual job.pair.riskToken = 0)
    (covers : 0 ≤ allocationOf market job chain context state taxUsdgActual job.pair.quoteToken)
    (exited : exitConfirmed job chain state = true) :
    ∃ commit, commitHold market job chain context state taxUsdgActual = .ok commit := by
  have both : 0 ≤ allocationOf market job chain context state taxUsdgActual job.pair.token0 ∧
      0 ≤ allocationOf market job chain context state taxUsdgActual job.pair.token1 := by
    rcases job.pair.roles with ⟨risk, quoteSide⟩ | ⟨risk, quoteSide⟩
    · rw [risk] at emptied
      rw [quoteSide] at covers
      exact ⟨emptied.ge, covers⟩
    · rw [risk] at emptied
      rw [quoteSide] at covers
      exact ⟨covers, emptied.ge⟩
  rw [← allocationOf_risk] at emptied
  refine ⟨⟨allocationOf market job chain context state taxUsdgActual job.pair.token0,
    allocationOf market job chain context state taxUsdgActual job.pair.token1, taxUsdgActual⟩, ?_⟩
  dsimp only [commitHold]
  rw [demand_bind both, demand_bind emptied, demand_bind exited]
  rfl

/-- The receipts of the confirmed swaps pass the checks of a later attempt. -/
structure Rechecks (market : Market) (job : HoldJob) (chain : ChainFacts job.owner) (context : PrecheckContext)
    (tax : FeeTaxContext) (state : JobState) : Prop where
  covered : tax.tax0 ≤ job.funds.fee0 ∧ tax.tax1 ≤ job.funds.fee1 ∧ tax.rewardTax ≤ job.rewardQuote
  legs : ∀ leg : SwapLeg, leg = strategyLeg job (amountIn job context tax) ∨
      (∃ taxed ∈ taxedLegs market (tax.legs job.pair), leg = legOf market taxed) →
    ∀ record receipt, leg.confirmed job.toJob chain state = some (record, receipt) →
      Accepts (leg.checks record) (-receiptTokenDelta receipt leg.intent.tokenIn job.owner)
        (receiptTokenDelta receipt leg.intent.tokenOut job.owner) (storedMinOut job.toJob record)

theorem Rechecks.frozen (rechecks : Rechecks market job chain context tax start)
    (swapped : Swapped market job chain context tax start) (frozen : Frozen job tokens start state) :
    Rechecks market job chain context tax state := by
  refine ⟨rechecks.covered, fun leg own record receipt confirmed => rechecks.legs leg own record receipt ?_⟩
  have before : (leg.confirmed job.toJob chain start).isSome := by
    rcases own with rfl | ⟨taxed, member, rfl⟩
    · exact swapped.strategy
    · exact swapped.taxes taxed member
  obtain ⟨found, read⟩ := Option.isSome_iff_exists.mp before
  rw [SwapLeg.confirmed_kept frozen.slots (by decide) frozen.plan read] at confirmed
  rw [read, confirmed]

theorem accepts_taxSwap {intent : SwapIntent} (taxes : TaxSwap market intent) {spent gained minOut : ℤ} :
    Accepts intent spent gained minOut ↔ Accepts (taxSwap market intent.tokenIn intent.amountIn 0) spent gained minOut := by
  unfold Accepts
  rw [taxes.principal, taxes.fee]
  rfl

theorem taxLegs_return {swaps : List SwapIntent} {answer : LegReply}
    (each : ∀ intent ∈ swaps, ∀ nextSwapTx, ∃ result,
      (runLeg job.toJob chain (taxLeg intent true) nextSwapTx answer).run state = (.ok result, state)) (nextSwapTx : Nat) :
    ∃ result, (runTaxLegs job.toJob chain true nextSwapTx swaps (swaps.map fun _ => answer)).run state =
      (.ok result, state) := by
  induction swaps generalizing nextSwapTx with
  | nil => exact ⟨([], nextSwapTx), rfl⟩
  | cons intent rest ih =>
    obtain ⟨result, first⟩ := each intent List.mem_cons_self nextSwapTx
    obtain ⟨later, tail⟩ := ih (fun other member => each other (List.mem_cons_of_mem _ member)) result.nextSwapTx
    rw [List.map_cons]
    unfold runTaxLegs
    rw [run_bind_ok first, run_bind_ok tail]
    exact ⟨_, rfl⟩

theorem runTaxLegs_returns (planOf : PlanOf market job tax plan)
    (swapped : Swapped market job chain context tax state) (rechecks : Rechecks market job chain context tax state)
    (nextSwapTx : Nat) (answer : LegReply) :
    ∃ result, (runTaxLegs job.toJob chain true nextSwapTx plan.swaps (plan.swaps.map fun _ => answer)).run state =
      (.ok result, state) := by
  have each : ∀ intent ∈ plan.swaps, ∀ nextSwapTx, ∃ result,
      (runLeg job.toJob chain (taxLeg intent true) nextSwapTx answer).run state = (.ok result, state) := by
    intro intent member nextSwapTx
    obtain ⟨⟨record, receipt⟩, confirmed⟩ := Option.isSome_iff_exists.mp (plan_confirmed planOf swapped intent member)
    have taxes := planOf.taxes intent member
    have taxed : (intent.tokenIn, intent.amountIn) ∈ taxedLegs market (tax.legs job.pair) := by
      rw [← planOf.legs]
      exact List.mem_map.mpr ⟨intent, member, rfl⟩
    have accepted := rechecks.legs _ (Or.inr ⟨_, taxed, rfl⟩) record receipt confirmed
    rw [runLeg_confirmed _ confirmed]
    refine recheckLeg_accepts nextSwapTx state ?_
    change Accepts intent _ (receiptTokenDelta receipt intent.tokenOut job.owner) _
    rw [taxes.output]
    exact (accepts_taxSwap taxes).mpr accepted
  exact taxLegs_return each nextSwapTx

theorem finish_returns (swapped : Swapped market job chain context tax state)
    (rechecks : Rechecks market job chain context tax state) (idle : LegReply) :
    ∃ answer plan results, PlanOf market job tax plan ∧
      results.map LegResult.gained = (plan.swaps.map fun intent => gainedAt job chain state (taxLeg intent true)) ∧
      (finishHoldQuote market job chain context answer).run state =
        (commitHold market job chain context state (retainedUsdg plan results), state) := by
  obtain ⟨plan, made⟩ := @storedFeeTax_covered market (fun _ _ _ _ => 0) tax job.pair _ _ _ rechecks.covered
  obtain ⟨legs, tax0, tax1, retained⟩ := storedFeeTax_legs made
  have planOf : PlanOf market job tax plan := ⟨legs, (storedFeeTax_planned made).1, tax0, tax1, retained⟩
  let answer : HoldReply :=
    { pool := .ok (), taxQuotes := fun _ _ _ _ => .ok 0, taxReplies := plan.swaps.map fun _ => idle, turnover := .ok ()
      strategyReply := idle, cleanup := .ok [] }
  have ensured : (ensureTax job.toJob market answer.taxQuotes job.funds.fee0 job.funds.fee1).run state = (.ok plan, state) := by
    unfold ensureTax
    rw [run_bind_ok (run_read state), swapped.stored, swapped.exists, ensureFeeTaxPlan_stored]
    rw [run_bind_ok (run_reply_ok (a := (plan, tax)) (by rw [made]; rfl) state)]
    change (Except.ok plan, { state with feeTax := some tax }) = _
    rw [← swapped.stored]
  obtain ⟨⟨results, next⟩, taxed⟩ := runTaxLegs_returns planOf swapped rechecks
    (max (nextTransactionIndex state.journal job.id swapStep) (afterRecords state)) idle
  have gains := (runTaxLegs_confirmed (plan_confirmed planOf swapped) taxed).2 results next rfl
  have swaps : (swapRisk job chain context plan next answer).run state = (.ok true, state) := by
    have offered : 0 < amountToSwap job context tax.tax0 tax.tax1 := swapped.offered
    obtain ⟨⟨record, receipt⟩, confirmed⟩ := Option.isSome_iff_exists.mp swapped.strategy
    obtain ⟨result, checked⟩ := recheckLeg_accepts next state (rechecks.legs _ (Or.inl rfl) record receipt confirmed)
    rw [← runLeg_confirmed idle confirmed] at checked
    change (runLeg job.toJob chain (strategyLeg job (amountToSwap job context tax.tax0 tax.tax1)) next answer.strategyReply).run
      state = _ at checked
    dsimp only [swapRisk]
    rw [tax0, tax1, if_pos offered, run_bind_ok (run_reply_ok rfl state), run_bind_ok checked]
    rfl
  refine ⟨answer, plan, results, planOf, gains, ?_⟩
  unfold finishHoldQuote
  rw [run_bind_ok ensured, run_bind_ok (run_reply_ok rfl state), run_bind_ok (run_read state), run_bind_ok taxed,
    run_bind_ok swaps]
  rfl

theorem attempts_frozen (finished : Finished chain tokens state) (swapped : Swapped market job chain context tax state)
    (inputs : List Attempt) : Frozen job tokens state (run (afterAttempt market job chain context) state inputs) := by
  have each : ∀ s input, Frozen job tokens state s → Frozen job tokens state (afterAttempt market job chain context s input) :=
    fun _ input frozen => (attempt_frozen finished swapped frozen input).1
  exact run_keeps_all each (Frozen.refl state) inputs

theorem unspent_of_commit (swapped : Swapped market job chain context tax start) (quiet : RiskQuiet market job chain context tax start)
    (frozen : Frozen job tokens start state) (risk : tokens job.pair.riskToken)
    (committed : commitHold market job chain context state (tax.retainedUsdg + taxGained market job chain tax start) = .ok commit) :
    unspent market job chain context tax start = 0 := by
  have emptied := commitHold_risk committed
  rw [← taxGained_frozen swapped frozen, risk_allocation (quiet.frozen swapped frozen risk)] at emptied
  rw [← unspent_frozen swapped frozen]
  exact emptied

theorem attempt_unspent (finished : Finished chain tokens start) (swapped : Swapped market job chain context tax start)
    (quiet : RiskQuiet market job chain context tax start) (risk : tokens job.pair.riskToken) {earlier : List Attempt}
    {last : Attempt}
    (committed : (attempt market job chain context (run (afterAttempt market job chain context) start earlier) last).1 = .ok commit) :
    unspent market job chain context tax start = 0 := by
  obtain ⟨frozen, settled⟩ := attempt_frozen finished swapped (attempts_frozen finished swapped earlier) last
  exact unspent_of_commit swapped quiet frozen risk (settled commit committed)

theorem conclude_unspent (finished : Finished chain tokens start) (swapped : Swapped market job chain context tax start)
    (quiet : RiskQuiet market job chain context tax start) (risk : tokens job.pair.riskToken)
    {results : List LegResult} (gains : retainedUsdg plan results = tax.retainedUsdg + taxGained market job chain tax start)
    {answer : HoldReply} {final : JobState}
    (concluded : (concludeHoldQuote market job chain context plan results true answer).run start = (.ok commit, final)) :
    unspent market job chain context tax start = 0 := by
  unfold concludeHoldQuote at concluded
  obtain ⟨_, middle, revoked, concluded⟩ := bind_returns concluded
  have frozen : Frozen job tokens start middle := by
    have kept := frozen_allowances finished (if true then answer.cleanup else .ok []) start (Frozen.refl start)
    rw [revoked] at kept
    exact kept
  obtain ⟨read, _, same, concluded⟩ := bind_returns concluded
  cases same
  have settled := congrArg Prod.fst concluded
  rw [gains] at settled
  exact unspent_of_commit swapped quiet frozen risk settled

theorem commitHold_frozen (swapped : Swapped market job chain context tax start) (quiet : RiskQuiet market job chain context tax start)
    (frozen : Frozen job tokens start state) (both : tokens job.pair.riskToken ∧ tokens job.pair.quoteToken)
    (erc20 : job.pair.quoteToken ≠ zeroAddress)
    (covers : 0 ≤ allocationOf market job chain context start (tax.retainedUsdg + taxGained market job chain tax start)
      job.pair.quoteToken)
    (exited : exitConfirmed job chain start = true) (spent : unspent market job chain context tax start = 0) :
    ∃ commit, commitHold market job chain context state (tax.retainedUsdg + taxGained market job chain tax start) = .ok commit := by
  refine commitHold_ok ?_ ?_ ?_
  · rw [← taxGained_frozen swapped frozen, risk_allocation (quiet.frozen swapped frozen both.1), unspent_frozen swapped frozen]
    exact spent
  · unfold allocationOf economicFinal at covers ⊢
    rw [if_neg erc20] at covers ⊢
    rw [frozen.wallet _ both.2]
    exact covers
  · unfold exitConfirmed at exited ⊢
    simp only [Bool.and_eq_true, Bool.or_eq_true] at exited ⊢
    obtain ⟨decreased, collected⟩ := exited
    refine ⟨confirmedAt_kept frozen.slots (by decide) decreased, ?_⟩
    rcases collected with collected | bundled
    · exact Or.inl (confirmedAt_kept frozen.slots (by decide) collected)
    · exact Or.inr bundled

/-- Once its swaps are confirmed, a hold-quote job commits, in that attempt or in a later one, exactly when they left
nothing of the risk side unspent; and then no earlier attempts keep it from committing. -/
theorem hold_quote_commits_iff {plan : FeeTaxPlan} {results : List LegResult}
    (swapped : Swapped market job chain context tax state) (quiet : RiskQuiet market job chain context tax state)
    (finished : Finished chain (· = job.pair.riskToken) state)
    (gains : retainedUsdg plan results = tax.retainedUsdg + taxGained market job chain tax state)
    (covers : 0 ≤ allocationOf market job chain context state (tax.retainedUsdg + taxGained market job chain tax state)
      job.pair.quoteToken)
    (exited : exitConfirmed job chain state = true) :
    (((∃ answer commit, ((concludeHoldQuote market job chain context plan results true answer).run state).1 = .ok commit) ∨
        ∃ earlier last commit,
          (attempt market job chain context (run (afterAttempt market job chain context) state earlier) last).1 = .ok commit) ↔
      unspent market job chain context tax state = 0) ∧
    (unspent market job chain context tax state = 0 → Rechecks market job chain context tax state →
      Finished chain (fun token => token = job.pair.riskToken ∨ token = job.pair.quoteToken) state →
      ∀ earlier, ∃ last commit,
        (attempt market job chain context (run (afterAttempt market job chain context) state earlier) last).1 = .ok commit) := by
  refine ⟨⟨?_, fun spent => Or.inl ?_⟩, fun spent rechecks finished earlier => ?_⟩
  · rintro (⟨answer, commit, concluded⟩ | ⟨earlier, last, commit, committed⟩)
    · exact conclude_unspent finished swapped quiet rfl gains (Prod.ext concluded rfl)
    · exact attempt_unspent finished swapped quiet rfl committed
  · have emptied := risk_allocation quiet
    rw [spent] at emptied
    obtain ⟨commit, committed⟩ := commitHold_ok emptied covers exited
    let answer : HoldReply :=
      { pool := .ok (), taxQuotes := fun _ _ _ _ => .ok 0, taxReplies := [], turnover := .ok ()
        strategyReply := idleReply, cleanup := .ok [] }
    refine ⟨answer, commit, ?_⟩
    unfold concludeHoldQuote
    rw [if_pos rfl, run_bind_ok (run_allowances_none state), run_bind_ok (run_read state), gains, committed]
    rfl
  · have frozen := attempts_frozen finished swapped earlier
    have resolved := frozen_resolveSlots finished (fun _ => false) frozen
    obtain ⟨answer, plan, results, planOf, same, ran⟩ :=
      finish_returns (swapped.frozen resolved) (rechecks.frozen swapped resolved) idleReply
    have retained : retainedUsdg plan results = tax.retainedUsdg + taxGained market job chain tax state := by
      unfold retainedUsdg
      rw [same, plan_gained planOf, planOf.retained, taxGained_frozen swapped resolved]
    obtain ⟨commit, committed⟩ := commitHold_frozen swapped quiet resolved ⟨Or.inl rfl, Or.inr rfl⟩
      (finished _ (Or.inr rfl)).1 covers exited spent
    refine ⟨⟨fun _ => false, answer⟩, commit, ?_⟩
    unfold attempt
    rw [ran, retained]
    exact committed

end

theorem notNative_example : 99 ≠ zeroAddress := by decide

theorem threshold_example : (0 : ℤ) ≤ 1000000 := by decide

def exampleMarket : Market where
  settlementToken := 99
  wrappedNative := 98
  threshold := 1000000
  notNative := notNative_example
  nonneg := threshold_example

def exampleJob : HoldJob where
  id := 1
  owner := 1
  pair := { token0 := 7, token1 := 5, riskToken := 7, quoteToken := 5, distinct := by decide, roles := Or.inl ⟨rfl, rfl⟩ }
  handling := .holdTokens
  maxSlippageBps := 100
  rewardQuote := 0
  bundled := false
  funds := { principal0 := 100, principal1 := 0, fee0 := 0, fee1 := 0 }
  erc20Risk := by decide

def exampleContext : PrecheckContext where
  baseline _ := 1000
  prior _ := 0
  priorPrincipal _ := none
  priorHeld _ := none
  priorProfit _ := none

def exampleChain (spent : Nat) : ChainFacts 1 :=
  .ofEntries 1 (fun _ => .success) (fun _ => 10)
    (fun hash => if hash = 3 then [⟨7, .transfer 1 50 spent⟩, ⟨5, .transfer 50 1 90⟩] else []) (fun _ => 0)

def exitMark (stepIndex : Nat) (hash : Hash) : TransactionMark :=
  { jobId := 1, stepIndex, txIndex := 0, state := .confirmed, nonce := some hash, txHash := some hash, txTo := 50, calldataHash := 0 }

def exampleStart : JobState where
  journal := [exitMark 1 1, exitMark 2 2].foldl (fun journal mark => (markTransaction journal mark).toOption.getD journal) Journal.empty
  swapPlan := Table.empty
  executedSwaps := []
  feeTax := none
  capital := none
  wallet token := if token = 7 then 1100 else 1000
  mined := [(2, 2), (1, 1)]
  settled := []

def exampleSwap : Attempt where
  landed _ := false
  answer :=
    { pool := .ok (), taxQuotes := fun _ _ _ _ => .ok 0, taxReplies := [], turnover := .ok ()
      strategyReply :=
        { idleReply with quote := .ok 95, prepared := .ok ⟨95, 80, by decide, by decide⟩,
                         send := { idleSend with nonce := 3, outcome := .mined 3 (.ok ()) } }
      cleanup := .ok [] }

def exampleSwapped (spent : Nat) : JobState :=
  afterAttempt exampleMarket exampleJob (exampleChain spent) exampleContext exampleStart exampleSwap

def exampleTax : FeeTaxContext where
  selectionVersion := some feeTaxSelectionVersion
  applied := false
  totalIncomeUsdg := 0
  tax0 := 0
  tax1 := 0
  rewardTax := 0
  retainedUsdg := 0
  single := untaxed

theorem exampleSwapped_facts {spent : Nat} (either : spent = 60 ∨ spent = 100) :
    Swapped exampleMarket exampleJob (exampleChain spent) exampleContext exampleTax (exampleSwapped spent) ∧
      RiskQuiet exampleMarket exampleJob (exampleChain spent) exampleContext exampleTax (exampleSwapped spent) ∧
      unspent exampleMarket exampleJob (exampleChain spent) exampleContext exampleTax (exampleSwapped spent) = 100 - spent := by
  have untaxed : taxedLegs exampleMarket (exampleTax.legs exampleJob.pair) = [] := by decide
  have quiet : ∀ state, RiskQuiet exampleMarket exampleJob (exampleChain spent) exampleContext exampleTax state ↔
      state.wallet 7 = 1100 - strategySpent exampleJob (exampleChain spent) exampleContext exampleTax state := by
    intro state
    unfold RiskQuiet riskTaxSwapped taxGained
    rw [untaxed]
    change state.wallet 7 = 1000 + 100 - _ - 0 + 0 ↔ _
    omega
  rcases either with rfl | rfl
  · refine ⟨⟨rfl, by decide, fun leg member => ?_, by decide⟩, (quiet _).mpr (by decide), by decide⟩
    rw [untaxed] at member
    cases member
  · refine ⟨⟨rfl, by decide, fun leg member => ?_, by decide⟩, (quiet _).mpr (by decide), by decide⟩
    rw [untaxed] at member
    cases member

theorem example_finished (spent : Nat) {state : JobState} (swapped : 3 ∈ state.mined.map Prod.snd) :
    @Finished exampleJob (exampleChain spent) (· = exampleJob.pair.riskToken) state := by
  intro token own
  have erc20 : token ≠ zeroAddress := own ▸ exampleJob.erc20Risk
  refine ⟨erc20, fun hash unmined => ?_⟩
  have other : hash ≠ 3 := fun same => unmined (same ▸ swapped)
  rw [(exampleChain spent).logged hash token erc20]
  unfold exampleChain ChainFacts.ofEntries
  simp only [if_neg other, if_true]
  rfl

theorem hold_quote_commits_iff_full :
    (∃ answer commit, ((concludeHoldQuote exampleMarket exampleJob (exampleChain 100) exampleContext
        { exampleTax with fee0AfterTax := 0, fee1AfterTax := 0, rewardAfterTax := 0, swaps := [] } [] true answer).run
          (exampleSwapped 100)).1 = .ok commit) ∨
      ∃ earlier last commit, (attempt exampleMarket exampleJob (exampleChain 100) exampleContext
        (run (afterAttempt exampleMarket exampleJob (exampleChain 100) exampleContext) (exampleSwapped 100) earlier) last).1 =
          .ok commit := by
  obtain ⟨swapped, quiet, spent⟩ := exampleSwapped_facts (Or.inr rfl)
  have mined : 3 ∈ (exampleSwapped 100).mined.map Prod.snd := by decide
  have finished := example_finished 100 mined
  exact (hold_quote_commits_iff swapped quiet finished (by decide) (by decide) (by decide)).1.mpr spent

/-- A partial fill that the attempt accepted: the commit refuses the 40 left over, in that attempt and in every later one. -/
theorem partial_fill_never_commits :
    Accepts { (strategyLeg exampleJob 100).intent with quotedOut := 95 } 60 90 80 ∧
      (attempt exampleMarket exampleJob (exampleChain 60) exampleContext exampleStart exampleSwap).1 = .error .allocationMismatch ∧
      ∀ earlier last commit, (attempt exampleMarket exampleJob (exampleChain 60) exampleContext
        (run (afterAttempt exampleMarket exampleJob (exampleChain 60) exampleContext) (exampleSwapped 60) earlier) last).1 ≠
          .ok commit := by
  refine ⟨by decide, ?_, fun earlier last commit committed => ?_⟩
  · have thrown : (match (attempt exampleMarket exampleJob (exampleChain 60) exampleContext exampleStart exampleSwap).1 with
        | .ok _ => none
        | .error e => some e) = some ErrorCode.allocationMismatch := by decide
    revert thrown
    cases (attempt exampleMarket exampleJob (exampleChain 60) exampleContext exampleStart exampleSwap).1 with
    | ok commit => exact fun impossible => absurd impossible (by simp)
    | error e => exact fun same => by rw [Option.some.inj same]
  · obtain ⟨swapped, quiet, left⟩ := exampleSwapped_facts (Or.inl rfl)
    have mined : 3 ∈ (exampleSwapped 60).mined.map Prod.snd := by decide
    have nothing := attempt_unspent (example_finished 60 mined) swapped quiet rfl committed
    rw [left] at nothing
    exact absurd nothing (by decide)

end LpTerminal.HoldQuote
