import LpTerminal.Recovery.SwapReplay

/-!
`finishFromWallet`: a rebalance whose exit is confirmed is planned again from what the wallet holds. The
confirmed swaps are replayed, new ones are given slots, and the position is minted.
-/

namespace LpTerminal.FromWallet

open Capital Durable Fallible FeeTax Rebalance Receipts SettledSwaps Store SwapJob SwapLegs SwapReplay

structure SwapReply where
  approvals : Except ErrorCode (List Send)
  prepared : Except ErrorCode PreparedSwap
  send : Send
  drift : Address → ℤ
  revokes : Except ErrorCode (List Send)

structure WalletReply where
  taxQuotes : QuoteFn
  otherAllocations : Address → ℤ
  position : Except ErrorCode Unit
  burn : Option Send
  units : Except ErrorCode TargetUnits
  cycleQuotes : QuoteFn
  limits : Except ErrorCode Unit
  turnover : Except ErrorCode Unit
  swaps : List SwapReply
  risk : Except ErrorCode Unit
  valuation : Except ErrorCode CapitalValuation
  grants0 : Except ErrorCode (List Send)
  grants1 : Except ErrorCode (List Send)
  mint : Except ErrorCode Send
  minted : Except ErrorCode Unit
  revokes0 : Except ErrorCode (List Send)
  revokes1 : Except ErrorCode (List Send)

structure SlottedSwap where
  intent : SwapIntent
  txIndex : Nat

def SlottedSwap.record (swap : SlottedSwap) : SwapPlanRecord := planRecord swap.txIndex swap.intent

def taxSlots (rows : List SwapPlanRecord) (next : Nat) : List SwapIntent → List SlottedSwap × Nat
  | [] => ([], next)
  | intent :: rest =>
    match rows.find? (taxLeg intent false).reuses with
    | some existing =>
      let (later, next) := taxSlots rows next rest
      (⟨intent, existing.txIndex⟩ :: later, next)
    | none =>
      let (later, after) := taxSlots rows (next + 1) rest
      (⟨intent, next⟩ :: later, after)

def skipTaken (taken : List Nat) : (left : Nat) → (next : Nat) → Nat
  | 0, next => next
  | left + 1, next => if next ∈ taken then skipTaken taken left (next + 1) else next

def reusesTokens (intent : SwapIntent) (record : SwapPlanRecord) : Bool :=
  record.tokenIn = intent.tokenIn && record.tokenOut = intent.tokenOut

def strategySlots (reusable : List SwapPlanRecord) (next : Nat) : List SwapIntent → List SlottedSwap
  | [] => []
  | intent :: rest =>
    match reusable.find? (reusesTokens intent) with
    | some record => ⟨intent, record.txIndex⟩ :: strategySlots (reusable.eraseP (reusesTokens intent)) next rest
    | none => ⟨intent, next⟩ :: strategySlots reusable (next + 1) rest

structure SlotPlan where
  taxes : List SlottedSwap
  strategies : List SlottedSwap
  executed : List Nat

def SlotPlan.records (slots : SlotPlan) : List SwapPlanRecord :=
  (slots.taxes ++ slots.strategies).map SlottedSwap.record

def SlotPlan.pending (slots : SlotPlan) : List SlottedSwap :=
  slots.taxes.filter (fun swap => swap.txIndex ∉ slots.executed) ++ slots.strategies

def executedSlots (job : Job) (state : JobState) : List Nat := (confirmedSwaps job state).map JobTransaction.txIndex

def reusableRecords (job : Job) (state : JobState) : List SwapPlanRecord :=
  state.swapPlan.rows.filter fun record => record.purpose ≠ .feeTax && record.txIndex ∉ executedSlots job state

def firstFresh (job : Job) (state : JobState) : Nat :=
  max (nextTransactionIndex state.journal job.id swapStep) (afterRecords state)

def planSlots (job : Job) (state : JobState) (taxSwaps cycleSwaps : List SwapIntent) : SlotPlan :=
  let (taxes, next) := taxSlots state.swapPlan.rows (firstFresh job state) taxSwaps
  let next := skipTaken (taxes.map SlottedSwap.txIndex) taxes.length next
  { taxes, strategies := strategySlots (reusableRecords job state) next cycleSwaps, executed := executedSlots job state }

section
variable (market : Market) (job : RebalanceJob) (chain : ChainFacts job.owner) (context : PrecheckContext)
variable (value : Hash → Nat)

/-- One pending swap, in the slot of its record; `approvalTx` counts the slots of the approvals and revocations. -/
def sendSwap (approvalTx : Nat) (swap : SlottedSwap) (answer : SwapReply) : Durable ErrorCode JobState (CycleTotals × Nat) := do
  let approvals ← reply answer.approvals
  sendAllowances job.toJob chain 4 approvalTx approvals
  let prepared ← reply answer.prepared
  let planned ← read
  match planned.swapPlan.get? swap.txIndex with
  | none => fail .recoveryContext
  | some record => do
    recordSwap (refreshed record prepared)
    let before ← read
    let _ ← sendRecoverySwap job.toJob chain swap.txIndex swap.intent prepared answer.send
    driftWallet answer.drift
    let after ← read
    let spent := before.wallet swap.intent.tokenIn - after.wallet swap.intent.tokenIn
    let gained := after.wallet swap.intent.tokenOut - before.wallet swap.intent.tokenOut
    let intent := { swap.intent with quotedOut := prepared.amountOut }
    let execution ← reply (allocateSwapExecution intent spent gained prepared.minOut)
    let revokes ← reply answer.revokes
    sendAllowances job.toJob chain 4 (approvalTx + approvals.length) revokes
    return (executionEffect job.pair job.handling intent execution, approvalTx + approvals.length + revokes.length)

def sendPending (approvalTx : Nat) (totals : CycleTotals) : List SlottedSwap → List SwapReply →
    Durable ErrorCode JobState CycleTotals
  | [], _ => return totals
  | _ :: _, [] => fail .transport
  | swap :: rest, answer :: answers => do
    let (effect, approvalTx) ← sendSwap job chain approvalTx swap answer
    sendPending approvalTx (totals + effect) rest answers

def burnEmpty : Option Send → Durable ErrorCode JobState Unit
  | none => return ()
  | some send => do
    let state ← read
    tolerate (trackedSend job.toJob chain 3 (nextTransactionIndex state.journal job.id 3) send)

def remainingFunds (totals : CycleTotals) : CycleFunds where
  principal0 := totals.lp0
  principal1 := totals.lp1
  fee0 := totals.held0
  fee1 := totals.held1

def assertCovered (state : JobState) (totals : CycleTotals) (rewardAfterTax : ℤ) (otherAllocations : Address → ℤ) :
    Except ErrorCode Unit :=
  let token0 := job.pair.token0
  let token1 := job.pair.token1
  demand (WalletCovers (otherAllocations token0) (state.wallet token0)
      (context.held token0 + totals.lp0 + totals.held0 + heldReward job rewardAfterTax token0) ∧
    WalletCovers (otherAllocations token1) (state.wallet token1)
      (context.held token1 + totals.lp1 + totals.held1 + heldReward job rewardAfterTax token1)) .allocationMismatch

def writeSlots (slots : SlotPlan) : Durable ErrorCode JobState Unit :=
  write fun state => { state with swapPlan := slots.records.foldl Table.put state.swapPlan }

def cycleSwaps (tax : FeeTaxPlan) (totals : CycleTotals) (answer : WalletReply) : Durable ErrorCode JobState CycleTotals := do
  let units ← reply answer.units
  let cycle ← reply (planCycleSwaps job.pair answer.cycleQuotes job.handling units (remainingFunds totals))
  reply answer.limits
  let state ← read
  let slots := planSlots job.toJob state tax.swaps cycle.swaps
  writeSlots slots
  reply answer.turnover
  sendPending job chain (nextTransactionIndex state.journal job.id 4) cycle.totals slots.pending answer.swaps

def swapPhase (answer : WalletReply) : Durable ErrorCode JobState CycleTotals := do
  let tax ← ensureTax job.toJob market answer.taxQuotes job.funds.fee0 job.funds.fee1
  let state ← read
  let totals ← reply (applyExecutedSwaps job.toJob chain
    (deployableFunds job context tax.fee0AfterTax tax.fee1AfterTax tax.rewardAfterTax) state)
  reply (assertCovered job context state totals tax.rewardAfterTax answer.otherAllocations)
  reply answer.position
  burnEmpty job chain answer.burn
  cycleSwaps job chain tax totals answer

def mintPhase (totals : CycleTotals) (answer : WalletReply) : Durable ErrorCode JobState Unit := do
  reply answer.risk
  let valuation ← reply answer.valuation
  let capital ← reply (planCapitalHarvest totals.lp0 totals.lp1 valuation)
  write fun state => { state with capital := some capital }
  allowancesAt job.toJob chain 6 answer.grants0
  allowancesAt job.toJob chain 7 answer.grants1
  let mint ← reply answer.mint
  let state ← read
  let _ ← trackedSend job.toJob chain 8 (nextTransactionIndex state.journal job.id 8) mint
  reply answer.minted
  allowancesAt job.toJob chain 9 answer.revokes0
  allowancesAt job.toJob chain 10 answer.revokes1

def commitMint (minted : Except ErrorCode Unit) (otherAllocations : Address → ℤ) : Durable ErrorCode JobState RebalanceCommit := do
  let state ← read
  match confirmedAt job.toJob chain state 8 with
  | none => fail .recoveryContext
  | some receipt => do
    let (minted0, minted1) ← reply (mintFacts job value receipt)
    reply minted
    reply (commitFromChainFacts job chain context state minted0 minted1 otherAllocations)

def finishFromWallet (answer : WalletReply) : Durable ErrorCode JobState RebalanceCommit := do
  let totals ← swapPhase market job chain context answer
  mintPhase job chain totals answer
  commitMint job chain context value answer.minted answer.otherAllocations

structure Attempt where
  landed : Hash → Bool
  answer : WalletReply

def attempt (state : JobState) (input : Attempt) : Except ErrorCode RebalanceCommit × JobState :=
  (finishFromWallet market job chain context value input.answer).run (resolveSlots job.toJob chain input.landed state)

def afterAttempt (state : JobState) (input : Attempt) : JobState :=
  (attempt market job chain context value state input).2

end

end LpTerminal.FromWallet
