import LpTerminal.Recovery.SettledSwaps
import LpTerminal.Recovery.SwapLegs

/-!
The replay of the confirmed swaps from the plan, the audits and the receipts, and the commit of a
rebalance that rests on it.
-/

namespace LpTerminal.SwapReplay

open Capital Durable Fallible FeeTax Rebalance Receipts SettledSwaps Store SwapJob SwapLegs

structure ReplayedSwap where
  hash : Hash
  intent : SwapIntent
  minOut : ℤ

section
variable (job : Job) (chain : ChainFacts job.owner)

def replayedAs (record : SwapPlanRecord) (audited : Option ExecutedSwapAudit) (hash : Hash) : ReplayedSwap :=
  let intent :=
    match audited with
    | some audit => { audit.intent with quotedOut := audit.routeAmountOut }
    | none => plannedIntent record
  { hash, intent
    minOut := (record.minOut.or (audited.map ExecutedSwapAudit.routeMinOut)).getD
      (applySlippage intent.quotedOut job.maxSlippageBps) }

def auditOf (state : JobState) (hash : Hash) : Option ExecutedSwapAudit :=
  state.executedSwaps.find? fun audit => audit.txHash = hash

def replayedSwap (state : JobState) (row : JobTransaction) : Option ReplayedSwap :=
  match row.txHash, state.swapPlan.get? row.txIndex with
  | some hash, some record => some (replayedAs job record (auditOf state hash) hash)
  | _, _ => none

def ReplayedSwap.spent (swap : ReplayedSwap) : ℤ :=
  -receiptTokenDelta (chain.receiptOf swap.hash) swap.intent.tokenIn job.owner

def ReplayedSwap.gained (swap : ReplayedSwap) : ℤ :=
  receiptTokenDelta (chain.receiptOf swap.hash) swap.intent.tokenOut job.owner

def ReplayedSwap.effect (swap : ReplayedSwap) : CycleTotals :=
  executionEffect job.pair job.handling swap.intent (executionOf swap.intent (swap.spent job chain) (swap.gained job chain))

def ReplayedSwap.apply (totals : CycleTotals) (swap : ReplayedSwap) : Except ErrorCode CycleTotals := do
  demand ((chain.receiptOf swap.hash).status = .success) .txReverted
  let execution ← allocateSwapExecution swap.intent (swap.spent job chain) (swap.gained job chain) swap.minOut
  let totals := totals + executionEffect job.pair job.handling swap.intent execution
  demand (swap.intent.purpose = .strategy → totals.Nonneg) .recoveryContext
  return totals

def replaySwap (state : JobState) (totals : CycleTotals) (row : JobTransaction) : Except ErrorCode CycleTotals :=
  match replayedSwap job state row with
  | some swap => swap.apply job chain totals
  | none => .error .recoveryContext

def applyExecutedSwaps (funds : CycleFunds) (state : JobState) : Except ErrorCode CycleTotals :=
  (confirmedSwaps job state).foldlM (replaySwap job chain state) (fundTotals job.handling funds)

end

structure RebalanceJob extends Job where
  univ4 : Bool
  positionManager : Address
  funds : CycleFunds

structure RebalanceCommit where
  allocation0 : ℤ
  allocation1 : ℤ
  principalCarry0 : ℤ
  principalCarry1 : ℤ
  heldFee0 : ℤ
  heldFee1 : ℤ
  heldProfit0 : ℤ
  heldProfit1 : ℤ

section
variable (job : RebalanceJob) (chain : ChainFacts job.owner) (context : PrecheckContext)

def rewardOn (rewardAfterTax : ℤ) (token : Address) : ℤ :=
  if token = job.pair.quoteToken then rewardAfterTax else 0

def deployableFunds (fee0 fee1 rewardAfterTax : ℤ) : CycleFunds where
  principal0 := job.funds.principal0 + context.principal job.pair.token0 +
    (if job.handling = .reinvest then rewardOn job rewardAfterTax job.pair.token0 else 0)
  principal1 := job.funds.principal1 + context.principal job.pair.token1 +
    (if job.handling = .reinvest then rewardOn job rewardAfterTax job.pair.token1 else 0)
  fee0 := fee0
  fee1 := fee1

def heldReward (rewardAfterTax : ℤ) (token : Address) : ℤ :=
  if job.handling = .reinvest then 0 else rewardOn job rewardAfterTax token

def stakingRewardAfterTax (state : JobState) : Except ErrorCode ℤ := do
  let rewardTax := (state.feeTax.map FeeTaxContext.rewardTax).getD 0
  demand (0 ≤ rewardTax ∧ rewardTax ≤ job.rewardQuote) .recoveryContext
  return job.rewardQuote - rewardTax

def applyStoredFeeTax (state : JobState) : Except ErrorCode (ℤ × ℤ) :=
  match state.feeTax with
  | none => return (job.funds.fee0, job.funds.fee1)
  | some tax => do
    demand (0 ≤ tax.tax0 ∧ 0 ≤ tax.tax1 ∧ tax.tax0 ≤ job.funds.fee0 ∧ tax.tax1 ≤ job.funds.fee1) .recoveryContext
    return (job.funds.fee0 - tax.tax0, job.funds.fee1 - tax.tax1)

def mintFacts (value : Hash → Nat) (receipt : Receipt) : Except ErrorCode (ℤ × ℤ) :=
  if job.univ4 then do
    demand ((receiptV4MintedTokenId receipt job.positionManager job.owner).any (· ≠ 0) = true) .mintTokenId
    let paid (token : Address) : ℤ :=
      match receiptV4TokenFlow receipt token job.owner with
      | none => value receipt.transactionHash
      | some flow => -flow
    demand (0 ≤ paid job.pair.token0 ∧ 0 ≤ paid job.pair.token1) .unsupportedToken
    return (paid job.pair.token0, paid job.pair.token1)
  else do
    let flows := receiptLiquidityFlows receipt job.positionManager 0
    demand (flows.mintedTokenId.any (· ≠ 0) = true) .mintTokenId
    return (flows.minted0, flows.minted1)

def storedCapital (state : JobState) (totals : CycleTotals) : ℤ × ℤ × ℤ × ℤ :=
  match state.capital with
  | some capital => (capital.deploy0, capital.deploy1, capital.profit0, capital.profit1)
  | none => (totals.lp0, totals.lp1, 0, 0)

def replayedFacts (state : JobState) : Except ErrorCode (ℤ × CycleTotals × ℤ × ℤ × ℤ × ℤ) := do
  let rewardAfterTax ← stakingRewardAfterTax job state
  let (fee0, fee1) ← applyStoredFeeTax job state
  let totals ← applyExecutedSwaps job.toJob chain (deployableFunds job context fee0 fee1 rewardAfterTax) state
  let (deploy0, deploy1, profit0, profit1) := storedCapital state totals
  demand (deploy0 + profit0 = totals.lp0 ∧ deploy1 + profit1 = totals.lp1) .recoveryContext
  return (rewardAfterTax, totals, deploy0, deploy1, profit0, profit1)

/-- `commitFromChainFacts`, given what the mint paid and what the wallet's other strategies are allocated. -/
def commitFromChainFacts (state : JobState) (minted0 minted1 : ℤ) (otherAllocations : Address → ℤ) :
    Except ErrorCode RebalanceCommit := do
  let (rewardAfterTax, totals, deploy0, deploy1, profit0, profit1) ← replayedFacts job chain context state
  let token0 := job.pair.token0
  let token1 := job.pair.token1
  let principalCarry0 := deploy0 - minted0
  let principalCarry1 := deploy1 - minted1
  let heldFee0 := context.held token0 + totals.held0 + heldReward job rewardAfterTax token0
  let heldFee1 := context.held token1 + totals.held1 + heldReward job rewardAfterTax token1
  let heldProfit0 := context.profit token0 + profit0
  let heldProfit1 := context.profit token1 + profit1
  let allocation0 := principalCarry0 + heldFee0 + heldProfit0
  let allocation1 := principalCarry1 + heldFee1 + heldProfit1
  demand (0 ≤ allocation0 ∧ 0 ≤ allocation1) .allocationMismatch
  demand (WalletCovers (otherAllocations token0) (state.wallet token0) allocation0 ∧
    WalletCovers (otherAllocations token1) (state.wallet token1) allocation1) .allocationMismatch
  return { allocation0, allocation1, principalCarry0, principalCarry1, heldFee0, heldFee1, heldProfit0, heldProfit1 }

end

section
variable {job : Job} {chain : ChainFacts job.owner} {state : JobState} {totals final : CycleTotals}

structure ReplayedSwap.Acceptable (chain : ChainFacts job.owner) (swap : ReplayedSwap) : Prop where
  succeeded : (chain.receiptOf swap.hash).status = .success
  accepted : Accepts swap.intent (swap.spent job chain) (swap.gained job chain) swap.minOut

def FundedInOrder (job : Job) (chain : ChainFacts job.owner) : CycleTotals → List ReplayedSwap → Prop
  | _, [] => True
  | totals, swap :: rest =>
    (swap.intent.purpose = .strategy → (totals + swap.effect job chain).Nonneg) ∧
      FundedInOrder job chain (totals + swap.effect job chain) rest

instance decidableFunded : (totals : CycleTotals) → (swaps : List ReplayedSwap) → Decidable (FundedInOrder job chain totals swaps)
  | _, [] => .isTrue trivial
  | totals, swap :: rest =>
    have := decidableFunded (totals + swap.effect job chain) rest
    inferInstanceAs (Decidable (_ ∧ _))

theorem apply_ok {swap : ReplayedSwap} :
    swap.apply job chain totals = .ok final ↔
      swap.Acceptable chain ∧ (swap.intent.purpose = .strategy → (totals + swap.effect job chain).Nonneg) ∧
        final = totals + swap.effect job chain := by
  constructor
  · intro applied
    unfold ReplayedSwap.apply at applied
    obtain ⟨_, succeeded, applied⟩ := bind_ok applied
    obtain ⟨execution, allocated, applied⟩ := bind_ok applied
    obtain ⟨accepted, rfl⟩ := allocateSwapExecution_ok.mp allocated
    obtain ⟨_, funded, returned⟩ := bind_ok applied
    cases returned
    exact ⟨⟨demand_ok.mp succeeded, accepted⟩, demand_ok.mp funded, rfl⟩
  · rintro ⟨⟨succeeded, accepted⟩, funded, rfl⟩
    have allocated := allocateSwapExecution_ok.mpr ⟨accepted, rfl⟩
    unfold ReplayedSwap.apply
    rw [demand_bind succeeded, allocated]
    change (demand (swap.intent.purpose = .strategy → (totals + swap.effect job chain).Nonneg) _ >>= fun _ => _) = _
    rw [demand_bind funded]
    rfl

theorem foldlM_apply {swaps : List ReplayedSwap} :
    swaps.foldlM (fun totals swap => swap.apply job chain totals) totals = .ok final ↔
      (∀ swap ∈ swaps, swap.Acceptable chain) ∧ FundedInOrder job chain totals swaps ∧
        final = totals + (swaps.map fun swap => swap.effect job chain).sum := by
  induction swaps generalizing totals with
  | nil =>
    simp only [List.foldlM_nil, List.map_nil, List.sum_nil, add_zero, FundedInOrder]
    constructor
    · intro same
      cases same
      exact ⟨fun _ member => absurd member List.not_mem_nil, trivial, rfl⟩
    · rintro ⟨_, _, rfl⟩
      rfl
  | cons swap rest ih =>
    rw [List.foldlM_cons, List.map_cons, List.sum_cons, ← add_assoc]
    constructor
    · intro replayed
      obtain ⟨middle, applied, tail⟩ := bind_ok replayed
      obtain ⟨acceptable, funded, rfl⟩ := apply_ok.mp applied
      obtain ⟨each, order, total⟩ := ih.mp tail
      exact ⟨List.forall_mem_cons.mpr ⟨acceptable, each⟩, ⟨funded, order⟩, total⟩
    · rintro ⟨each, ⟨funded, order⟩, total⟩
      obtain ⟨acceptable, each⟩ := List.forall_mem_cons.mp each
      rw [apply_ok.mpr ⟨acceptable, funded, rfl⟩]
      exact ih.mpr ⟨each, order, total⟩

def replayedSwaps (job : Job) (state : JobState) : List ReplayedSwap :=
  (confirmedSwaps job state).filterMap (replayedSwap job state)

def Recorded (job : Job) (state : JobState) : Prop :=
  ∀ row ∈ confirmedSwaps job state, (replayedSwap job state row).isSome

theorem applyExecutedSwaps_ok {funds : CycleFunds} (recorded : Recorded job state) :
    applyExecutedSwaps job chain funds state = .ok final ↔
      (∀ swap ∈ replayedSwaps job state, swap.Acceptable chain) ∧
        FundedInOrder job chain (fundTotals job.handling funds) (replayedSwaps job state) ∧
        final = fundTotals job.handling funds + ((replayedSwaps job state).map fun swap => swap.effect job chain).sum := by
  have rows : ∀ rows : List JobTransaction, (∀ row ∈ rows, (replayedSwap job state row).isSome) → ∀ totals,
      rows.foldlM (replaySwap job chain state) totals =
        (rows.filterMap (replayedSwap job state)).foldlM (fun totals swap => swap.apply job chain totals) totals := by
    intro rows
    induction rows with
    | nil => exact fun _ _ => rfl
    | cons row rest ih =>
      intro each totals
      obtain ⟨head, tail⟩ := List.forall_mem_cons.mp each
      obtain ⟨swap, found⟩ := Option.isSome_iff_exists.mp head
      rw [List.foldlM_cons, List.filterMap_cons_some found, List.foldlM_cons]
      unfold replaySwap
      rw [found]
      refine congrArg _ (funext fun middle => ih tail middle)
  unfold applyExecutedSwaps
  rw [rows _ recorded]
  exact foldlM_apply

end

end LpTerminal.SwapReplay
